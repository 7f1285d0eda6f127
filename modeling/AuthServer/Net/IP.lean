import Mathlib.Data.BitVec

/-!
# IP addresses and networks

An address is 4 or 16 bytes long, and an IPv4 address may stand in either form: in 16 bytes it is
written with `::ffff:` in front. The two forms are one address (`IP.Equal`), and what is asked of an
address (`IPNet.contains`) must not tell them apart.

## Main definitions

* `Net.IP.to4`: the IPv4 address that an address is, in whichever form.
* `Net.IPNet.contains`: membership in a network that is given by its first address and the length of
  its mask.
* `Net.IP.canonical`: the short form, which is the one that is printed.
-/

namespace Net

/-- An address, by its bytes. -/
inductive IP
  | v4 (bits : BitVec 32)
  | v6 (bits : BitVec 128)
  deriving DecidableEq, Repr

namespace IP

/-- The IPv4 address that the address is, if it is one. -/
def to4 : IP → Option (BitVec 32)
  | v4 a => some a
  | v6 a => if a >>> 32 = 0xffff#128 then some (a.setWidth 32) else none

/-- The address in 4 bytes, if it is an IPv4 address. -/
def canonical (ip : IP) : IP :=
  match ip.to4 with
  | some a => v4 a
  | none => ip

/-- Two forms of one address. -/
def Equal (ip ip' : IP) : Prop := ip.canonical = ip'.canonical

instance (ip ip' : IP) : Decidable (Equal ip ip') := inferInstanceAs (Decidable (_ = _))

theorem canonical_of_to4 {ip : IP} {a : BitVec 32} (h : ip.to4 = some a) : ip.canonical = v4 a := by
  simp only [canonical, h]

theorem canonical_of_to4_none {ip : IP} (h : ip.to4 = none) : ip.canonical = ip := by
  simp only [canonical, h]

@[simp] theorem canonical_canonical (ip : IP) : ip.canonical.canonical = ip.canonical := by
  cases h : ip.to4 with
  | none => rw [canonical_of_to4_none h, canonical_of_to4_none h]
  | some a => rw [canonical_of_to4 h, canonical_of_to4 rfl]

end IP

/-- A network, by an address of it and the number of bits that its addresses share. -/
inductive IPNet
  | v4 (base : BitVec 32) (ones : ℕ)
  | v6 (base : BitVec 128) (ones : ℕ)
  deriving DecidableEq, Repr

namespace IPNet

/-- Is the address in the network? An IPv4 address, in whichever form, is only in IPv4 networks. -/
def contains : IPNet → IP → Bool
  | v4 base ones, ip =>
    match ip.canonical with
    | .v4 a => a >>> (32 - ones) == base >>> (32 - ones)
    | .v6 _ => false
  | v6 base ones, ip =>
    match ip.canonical with
    | .v4 _ => false
    | .v6 a => a >>> (128 - ones) == base >>> (128 - ones)

/-- **The form of an address does not matter.** -/
theorem contains_of_equal {ip ip' : IP} (h : ip.Equal ip') (n : IPNet) : n.contains ip =
    n.contains ip' := by
  have hcanonical : ip.canonical = ip'.canonical := h
  cases n with
  | v4 base ones => simp only [contains, hcanonical]
  | v6 base ones => simp only [contains, hcanonical]

/-- The network `a.b.c.d/ones`. -/
def dotted (a b c d : BitVec 8) (ones : ℕ) : IPNet := v4 (a ++ b ++ c ++ d) ones

/-- The network `g:h::/ones`. -/
def colons (g h : BitVec 16) (ones : ℕ) : IPNet := v6 (g ++ h ++ 0#96) ones

end IPNet

namespace IP

def isLoopback (ip : IP) : Bool :=
  (IPNet.dotted 127 0 0 0 8).contains ip || (IPNet.v6 1 128).contains ip

def isPrivate (ip : IP) : Bool :=
  (IPNet.dotted 10 0 0 0 8).contains ip || (IPNet.dotted 172 16 0 0 12).contains ip ||
    (IPNet.dotted 192 168 0 0 16).contains ip || (IPNet.colons 0xfc00 0 7).contains ip

def isLinkLocalUnicast (ip : IP) : Bool :=
  (IPNet.dotted 169 254 0 0 16).contains ip || (IPNet.colons 0xfe80 0 10).contains ip

/-- Multicast of link-local scope; the flags of an IPv6 one may be anything. -/
def isLinkLocalMulticast (ip : IP) : Bool :=
  (IPNet.dotted 224 0 0 0 24).contains ip ||
    (List.range 16).any fun flags =>
      (IPNet.colons (0xff02 + 16 * BitVec.ofNat 16 flags) 0 16).contains ip

def isUnspecified (ip : IP) : Bool :=
  (IPNet.v4 0 32).contains ip || (IPNet.v6 0 128).contains ip

end IP

end Net
