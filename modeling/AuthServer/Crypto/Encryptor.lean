import Mathlib.Logic.Encodable.Basic
import Mathlib.Logic.Equiv.List
import AuthServer.Service.Broker
import AuthServer.Signing.HAKeyStore

/-!
# Encryption at rest

`aesmaster.Encryptor` of `internal/adapters/aesmaster/encryptor.go`, and the owner contexts under
which the server encrypts: upstream credentials (`internal/services/broker_issuer.go`), private
signing keys (`internal/adapters/postgres/hakeystore.go`) and secrets of broker providers
(`internal/adapters/static/field_encryptor.go`).

A ciphertext is a version byte, a nonce and a box. The version says how the key of the box is
derived from the master key and the owner context, and what is authenticated beside the plaintext;
the version byte itself is not authenticated. A box that does not open under the master key is tried
under the old one, if there is one.

HKDF followed by AES-GCM is taken as an ideal cipher (`Cipher.Ideal`): a box opens to the plaintext
it was sealed for and to nothing else, and it opens under one master key, salt and owner context
only. Deriving a key of 32 bytes and making a cipher of it cannot fail, so those error paths are
left out. -/

namespace AuthServer

namespace AESMaster

/-- The primitives: HKDF-SHA256 from a master key, a salt and an owner context to a key, and
AES-256-GCM, from a key, a nonce, a text and the data that is authenticated with it. -/
structure Cipher where
  hkdf : Bytes → Bytes → String → Bytes
  gcmSeal : Bytes → Bytes → Bytes → String → Bytes
  gcmOpen : Bytes → Bytes → Bytes → String → Option Bytes

/-- Key derivation followed by AES-GCM, as an ideal authenticated cipher. -/
structure Cipher.Ideal (c : Cipher) : Prop where
  open_iff : ∀ {key nonce box aad p}, c.gcmOpen key nonce box aad = some p ↔
    box = c.gcmSeal key nonce p aad
  /-- The tag alone takes 16 bytes. -/
  tag : ∀ key nonce p aad, 16 ≤ (c.gcmSeal key nonce p aad).length
  /-- A box belongs to one master key, one salt and one owner context. -/
  binds : ∀ {key key' salt salt' info info' nonce p p' aad aad'},
    c.gcmSeal (c.hkdf key salt info) nonce p aad =
      c.gcmSeal (c.hkdf key' salt' info') nonce p' aad' → key = key' ∧ salt = salt' ∧ info = info'

def versionV1 : UInt8 := 0x01

def versionV2 : UInt8 := 0x02

def nonceSize : ℕ := 12

def hkdfSalt : Bytes := bytesOf "authserver-aes-master-v2"

/-- `Encryptor`: the master key, and the key that it replaced. -/
structure Encryptor where
  masterKey : Bytes
  oldKey : Option Bytes

def Encryptor.keys (e : Encryptor) : List Bytes := e.masterKey :: e.oldKey.toList

section

variable (c : Cipher)

/-- `deriveKeyV1`: no salt. -/
def deriveKeyV1 (masterKey : Bytes) (ownerContext : String) : Bytes :=
    c.hkdf masterKey [] ownerContext

def deriveKeyV2 (masterKey : Bytes) (ownerContext : String) : Bytes :=
  c.hkdf masterKey hkdfSalt ownerContext

/-- `decryptWithKey`: nothing is authenticated beside the text. -/
def decryptWithKey (nonce encData : Bytes) (ownerContext : String)
    (masterKey : Bytes) : Option Bytes :=
  c.gcmOpen (deriveKeyV1 c masterKey ownerContext) nonce encData ""

/-- `decryptWithKeyV2`: the owner context is authenticated. -/
def decryptWithKeyV2 (nonce encData : Bytes) (ownerContext : String)
    (masterKey : Bytes) : Option Bytes :=
  c.gcmOpen (deriveKeyV2 c masterKey ownerContext) nonce encData ownerContext

/-- `Encryptor.Encrypt`, with the nonce that was drawn. -/
def encrypt (e : Encryptor) (nonce plaintext : Bytes) (ownerContext : String) : Bytes :=
  versionV2 :: nonce ++ c.gcmSeal (deriveKeyV2 c e.masterKey ownerContext) nonce
    plaintext ownerContext

end

def nonceOf (ciphertext : Bytes) : Bytes := (ciphertext.drop 1).take nonceSize

def encDataOf (ciphertext : Bytes) : Bytes := ciphertext.drop (1 + nonceSize)

/-- The master key is tried, and then the old one. -/
def Encryptor.tryKeys (e : Encryptor) (attempt : Bytes → Option Bytes) : Except Err Bytes :=
  match attempt e.masterKey with
  | some p => .ok p
  | none =>
    match e.oldKey.bind attempt with
    | some p => .ok p
    | none => .error (.wrapped .decryptionFailed "authentication failed")

/-- Version 1, under each key in turn. -/
def decryptV1 (c : Cipher) (e : Encryptor) (ciphertext : Bytes) (ownerContext : String) :
    Except Err Bytes :=
  e.tryKeys (decryptWithKey c (nonceOf ciphertext) (encDataOf ciphertext) ownerContext)

/-- Version 2, under each key in turn. -/
def decryptV2 (c : Cipher) (e : Encryptor) (ciphertext : Bytes) (ownerContext : String) :
    Except Err Bytes :=
  e.tryKeys (decryptWithKeyV2 c (nonceOf ciphertext) (encDataOf ciphertext) ownerContext)

/-- `%02x`. -/
def hexByte (b : UInt8) : String :=
  String.ofList [Nat.digitChar (b.toNat / 16), Nat.digitChar (b.toNat % 16)]

/-- `Encryptor.Decrypt`. -/
def decrypt (c : Cipher) (e : Encryptor) (ciphertext : Bytes) (ownerContext : String) :
    Except Err Bytes :=
  if ciphertext.length < 1 + nonceSize + 16 then
    .error (.wrapped .decryptionFailed "ciphertext too short")
  else
    let version := ciphertext.headD 0
    if version = versionV1 then decryptV1 c e ciphertext ownerContext
    else if version = versionV2 then decryptV2 c e ciphertext ownerContext
    else .error (.wrapped .decryptionFailed ("unsupported version byte 0x" ++ hexByte version))

/-! ### The two formats -/

inductive Format
  | v1
  | v2
  deriving DecidableEq, Repr

namespace Format

def version : Format → UInt8
  | v1 => versionV1
  | v2 => versionV2

def salt : Format → Bytes
  | v1 => []
  | v2 => hkdfSalt

def aad (ownerContext : String) : Format → String
  | v1 => ""
  | v2 => ownerContext

theorem version_injective : Function.Injective version := by
  intro f f' h
  cases f <;> cases f' <;> first | rfl | exact absurd h (by decide)

theorem salt_injective : Function.Injective salt := by
  intro f f' h
  cases f <;> cases f' <;> first | rfl | exact absurd h (by decide)

end Format

variable {c : Cipher} {e : Encryptor} {f : Format} {key p s : Bytes} {ctx : String}

/-- The string was produced in this format, under this master key, for this text and owner
context. -/
def Produced (c : Cipher) (f : Format) (key : Bytes) (ctx : String) (p s : Bytes) : Prop :=
  ∃ nonce, nonce.length = nonceSize ∧
    s = f.version :: nonce ++ c.gcmSeal (c.hkdf key f.salt ctx) nonce p (f.aad ctx)

def attempt (c : Cipher) (f : Format) (s : Bytes) (ctx : String) (key : Bytes) : Option Bytes :=
  c.gcmOpen (c.hkdf key f.salt ctx) (nonceOf s) (encDataOf s) (f.aad ctx)

theorem decrypt_shape (c : Cipher) (e : Encryptor) (s : Bytes) (ctx : String) :
    (∃ f : Format, 1 + nonceSize + 16 ≤ s.length ∧ s.headD 0 = f.version ∧
      decrypt c e s ctx = e.tryKeys (attempt c f s ctx)) ∨
    (∃ detail, decrypt c e s ctx = .error (.wrapped .decryptionFailed detail)) ∧
      ∀ f : Format, 1 + nonceSize + 16 ≤ s.length → s.headD 0 ≠ f.version := by
  unfold decrypt
  by_cases hlen : s.length < 1 + nonceSize + 16
  · exact .inr ⟨⟨_, if_pos hlen⟩, fun f hlong => absurd hlong (by omega)⟩
  rw [if_neg hlen]
  by_cases hv1 : s.headD 0 = versionV1
  · exact .inl ⟨.v1, by omega, hv1, if_pos hv1⟩
  by_cases hv2 : s.headD 0 = versionV2
  · exact .inl ⟨.v2, by omega, hv2, (if_neg hv1).trans (if_pos hv2)⟩
  refine .inr ⟨⟨_, (if_neg hv1).trans (if_neg hv2)⟩, fun f _ => ?_⟩
  cases f with
  | v1 => exact hv1
  | v2 => exact hv2

/-- A string was produced when it is long enough, has the version of the format, and its box
opens. -/
theorem produced_iff (hc : c.Ideal) : Produced c f key ctx p s ↔
    1 + nonceSize + 16 ≤ s.length ∧ s.headD 0 = f.version ∧ attempt c f s ctx key = some p := by
  constructor
  · rintro ⟨nonce, hnonce, rfl⟩
    have htag := hc.tag (c.hkdf key f.salt ctx) nonce p (f.aad ctx)
    refine ⟨?_, rfl, hc.open_iff.mpr ?_⟩
    · simp only [List.cons_append, List.length_cons, List.length_append]
      omega
    · simp [nonceOf, encDataOf, ← hnonce, Nat.add_comm 1]
  · rintro ⟨hlen, hversion, hopen⟩
    cases s with
    | nil => simp at hlen
    | cons v rest =>
      have hbox : rest.drop nonceSize = c.gcmSeal (c.hkdf key f.salt ctx)
        (rest.take nonceSize) p (f.aad ctx) :=
        hc.open_iff.mp hopen
      rw [List.length_cons] at hlen
      refine ⟨rest.take nonceSize, by rw [List.length_take]; omega, ?_⟩
      rw [← hbox, List.cons_append, List.take_append_drop]
      exact congrArg (· :: rest) hversion

/-- Two keys that open a box open it to the same text. -/
theorem attempt_agrees (hc : c.Ideal) {key' p' : Bytes} (h : attempt c f s ctx key = some p)
    (h' : attempt c f s ctx key' = some p') : p = p' := by
  have hbox := hc.open_iff.mp h
  have hbox' := hc.open_iff.mp h'
  obtain ⟨rfl, -, -⟩ := hc.binds (hbox.symm.trans hbox')
  exact Option.some.inj (h.symm.trans h')

theorem tryKeys_eq_ok {attempt : Bytes → Option Bytes}
    (hagree : ∀ key key' p p', attempt key = some p → attempt key' = some p' → p = p') :
    e.tryKeys attempt = .ok p ↔ ∃ key ∈ e.keys, attempt key = some p := by
  obtain ⟨masterKey, oldKey⟩ := e
  simp only [Encryptor.tryKeys, Encryptor.keys, List.mem_cons, Option.mem_toList, exists_eq_or_imp]
  cases hmaster : attempt masterKey with
  | some q =>
    simp only [Except.ok.injEq, Option.some.injEq]
    refine ⟨.inl, fun h => h.elim id ?_⟩
    rintro ⟨key, -, hkey⟩
    exact hagree _ _ _ _ hmaster hkey
  | none =>
    cases oldKey with
    | none => simp
    | some old =>
      cases hold : attempt old <;> simp [hold]

theorem tryKeys_cases {attempt : Bytes → Option Bytes} : (∃ p, e.tryKeys attempt = .ok p) ∨
    ∃ detail, e.tryKeys attempt = .error (.wrapped .decryptionFailed detail) := by
  unfold Encryptor.tryKeys
  split
  · exact .inl ⟨_, rfl⟩
  · split
    · exact .inl ⟨_, rfl⟩
    · exact .inr ⟨_, rfl⟩

/-- **What `Decrypt` returns.** -/
theorem decrypt_eq_ok (hc : c.Ideal) : decrypt c e s ctx = .ok p ↔ ∃ f, ∃ key ∈ e.keys,
    Produced c f key ctx p s := by
  rcases decrypt_shape c e s ctx with ⟨f, hlen, hversion, heq⟩ | ⟨⟨detail, herr⟩, hother⟩
  · rw [heq, tryKeys_eq_ok fun _ _ _ _ => attempt_agrees hc]
    constructor
    · rintro ⟨key, hkey, hopen⟩
      exact ⟨f, key, hkey, (produced_iff hc).mpr ⟨hlen, hversion, hopen⟩⟩
    · rintro ⟨f', key, hkey, hproduced⟩
      obtain ⟨-, hversion', hopen⟩ := (produced_iff hc).mp hproduced
      obtain rfl := Format.version_injective (hversion'.symm.trans hversion)
      exact ⟨key, hkey, hopen⟩
  · rw [herr]
    refine ⟨(fun h => by cases h), ?_⟩
    rintro ⟨f, key, -, hproduced⟩
    obtain ⟨hlen, hversion, -⟩ := (produced_iff hc).mp hproduced
    exact absurd hversion (hother f hlen)

theorem decrypt_cases (c : Cipher) (e : Encryptor) (s : Bytes) (ctx : String) :
    (∃ p, decrypt c e s ctx = .ok p) ∨
    ∃ detail, decrypt c e s ctx = .error (.wrapped .decryptionFailed detail) := by
  rcases decrypt_shape c e s ctx with ⟨f, -, -, heq⟩ | ⟨herr, -⟩
  · rw [heq]
    exact tryKeys_cases
  · exact .inr herr

/-! ### Owners -/

/-- `ownerContext` of a field: the kind of its owner and the owner's id. -/
def fieldOwnerContext (kind id : String) : String := kind ++ ":" ++ id

/-- What is encrypted belongs to one of these. -/
inductive Owner
  /-- The upstream credential of a user with a provider. -/
  | credential (userID providerID : String)
  /-- A signing key. -/
  | signingKey (kid : String)
  /-- The secrets of a broker provider. -/
  | brokerProvider (id : String)
  deriving DecidableEq, Repr

namespace Owner

def context : Owner → String
  | credential userID providerID => BrokerIssuer.brokerOwnerContext userID providerID
  | signingKey kid => Signing.HAKeyStore.ownerContext kid
  | brokerProvider id => fieldOwnerContext "broker-provider" id

def ids : Owner → List String
  | credential userID providerID => [userID, providerID]
  | signingKey kid => [kid]
  | brokerProvider id => [id]

/-- **No two owners share a context**, as long as ids have no colon. -/
theorem context_injective {o o' : Owner} (h : ∀ id ∈ o.ids, ':' ∉ id.toList)
    (heq : o.context = o'.context) : o = o' := by
  have hlist := congrArg String.toList heq
  cases o <;> cases o' <;>
    simp only [context, BrokerIssuer.brokerOwnerContext, Signing.HAKeyStore.ownerContext,
      fieldOwnerContext, String.toList_append] at hlist
  case credential.credential userID providerID userID' providerID' =>
    have huser : ':' ∉ userID.toList := h userID (by simp [ids])
    have hprovider : ':' ∉ providerID.toList := h providerID (by simp [ids])
    simp only [List.append_assoc, List.append_cancel_left_eq] at hlist
    obtain ⟨hu, -, hp⟩ := (List.append_cons_inj_of_notMem huser hprovider).mp hlist
    rw [String.toList_inj.mp hu, String.toList_inj.mp hp]
  case signingKey.signingKey kid kid' =>
    rw [String.toList_inj.mp (List.append_cancel_left hlist)]
  case brokerProvider.brokerProvider id id' =>
    rw [String.toList_inj.mp (List.append_cancel_left hlist)]
  all_goals simp at hlist

end Owner

end AESMaster

open AESMaster

/-- **Ciphertexts are bound to their owner and survive one change of the master key.** For an ideal
cipher, every master key and every old key, if there is one:

* `Decrypt` returns `p` exactly for the strings that were produced for `p` and the owner context
  that is given, in one of the two formats, under one of the two keys;
* for every other string it gives the decryption error;
* a string that was produced for one owner context is refused for every other, whatever its version;
* what was encrypted under a key is read with that key as the old one;
* different owners have different contexts, when the ids of one of them have no colon. -/
theorem AESMaster.decrypt_exact (c : Cipher) (hc : c.Ideal) (e : Encryptor) :
    (∀ s ctx p, decrypt c e s ctx = .ok p ↔ ∃ f, ∃ key ∈ e.keys, Produced c f key ctx p s) ∧
    (∀ s ctx, (¬∃ p f, ∃ key ∈ e.keys, Produced c f key ctx p s) →
      ∃ err, decrypt c e s ctx = .error err ∧ err.is .decryptionFailed = true) ∧
    (∀ f f' key ctx ctx' p nonce box, Produced c f key ctx p (f.version :: nonce ++ box) →
      nonce.length = nonceSize → (ctx ≠ ctx' ∨ f ≠ f') →
      ∃ err, decrypt c e (f'.version :: nonce ++ box) ctx' = .error err ∧
        err.is .decryptionFailed = true) ∧
    (∀ masterKey nonce p ctx, nonce.length = nonceSize →
      decrypt c ⟨masterKey, some e.masterKey⟩ (encrypt c e nonce p ctx) ctx = .ok p) ∧
    ∀ o o' : Owner, (∀ id ∈ o.ids, ':' ∉ id.toList) → o.context = o'.context → o = o' := by
  have hrefused : ∀ s ctx, (¬∃ p f, ∃ key ∈ e.keys, Produced c f key ctx p s) →
      ∃ err, decrypt c e s ctx = .error err ∧ err.is .decryptionFailed = true := by
    intro s ctx hnone
    rcases decrypt_cases c e s ctx with ⟨p, hp⟩ | ⟨detail, herr⟩
    · exact absurd ⟨p, (decrypt_eq_ok hc).mp hp⟩ hnone
    · exact ⟨_, herr, rfl⟩
  refine ⟨fun _ _ _ => decrypt_eq_ok hc, hrefused, ?_, ?_, fun _ _ => Owner.context_injective⟩
  · intro f f' key ctx ctx' p nonce box hproduced hnonce hother
    refine hrefused _ _ ?_
    rintro ⟨p', f₀, key', -, nonce', hnonce', hs'⟩
    obtain ⟨n, hn, hs⟩ := hproduced
    -- both strings have the nonce in the same place, so the boxes are the same
    obtain ⟨-, htail⟩ := List.cons.inj hs
    obtain ⟨hversion, htail'⟩ := List.cons.inj hs'
    obtain ⟨rfl, hbox⟩ := List.append_inj htail (hnonce.trans hn.symm)
    obtain ⟨rfl, hbox'⟩ := List.append_inj htail' (hnonce.trans hnonce'.symm)
    obtain ⟨-, hsalt, hctx⟩ := hc.binds (hbox.symm.trans hbox')
    rcases hother with hne | hne
    · exact hne hctx
    · exact hne ((Format.salt_injective hsalt).trans (Format.version_injective hversion).symm)
  · intro masterKey nonce p ctx hnonce
    exact (decrypt_eq_ok hc).mpr ⟨.v2, e.masterKey, by simp [Encryptor.keys], nonce, hnonce, rfl⟩

namespace AESMaster

/-- A cipher that hides nothing: the key and the text are written into the box. -/
def Cipher.plain : Cipher where
  hkdf := fun key salt info => List.replicate
    (Encodable.encode (key.map UInt8.toNat, salt.map UInt8.toNat, info.toList.map Char.toNat)) 1
  gcmSeal := fun key _ p _ => List.replicate 16 0 ++ (key ++ 0 :: p)
  gcmOpen := fun key _ box _ =>
    if box.take (16 + key.length + 1) = List.replicate 16 0 ++ (key ++ [0]) then
      some (box.drop (16 + key.length + 1))
    else none

theorem Cipher.ideal_plain : Cipher.plain.Ideal where
  open_iff := by
    intro key nonce box aad p
    simp only [Cipher.plain]
    constructor
    · intro h
      split at h
      · rename_i hstart
        rw [← List.take_append_drop (16 + key.length + 1) box, hstart, Option.some.inj h]
        simp
      · cases h
    · rintro rfl
      have hlen : (List.replicate 16 0 ++ (key ++ [0])).length =
        16 + key.length + 1 := by simp; omega
      have hbox : List.replicate 16 (0 : UInt8) ++ (key ++ 0 :: p) =
          (List.replicate 16 0 ++ (key ++ [0])) ++ p := by simp
      rw [hbox, List.take_left' hlen, List.drop_left' hlen, if_pos rfl]
  tag := fun key nonce p aad => by simp [Cipher.plain]
  binds := by
    intro key key' salt salt' info info' nonce p p' aad aad' h
    -- the derived key is a run of ones, which ends at the first other byte
    have hlen : ∀ (n : ℕ) (q : Bytes),
        ((List.replicate n (1 : UInt8) ++ 0 :: q).takeWhile (· == 1)).length = n := fun n q => by
      rw [List.takeWhile_append_of_pos (by simp)]
      simp
    have hrun := congrArg (fun l : Bytes => (l.takeWhile (· == 1)).length)
      (List.append_cancel_left h)
    have hparts := Encodable.encode_injective ((hlen _ p).symm.trans (hrun.trans (hlen _ p')))
    simp only [Prod.mk.injEq] at hparts
    have hbytes := List.map_injective_iff.mpr fun _ _ => UInt8.toNat_inj.mp
    have hchars := List.map_injective_iff.mpr fun _ _ => Char.toNat_inj.mp
    exact ⟨hbytes hparts.1, hbytes hparts.2.1, String.toList_inj.mp (hchars hparts.2.2)⟩

/-- A private key that was encrypted before the master key was replaced. -/
theorem decrypt_exact_after_change :
    decrypt .plain ⟨[2], some [1]⟩
      (encrypt .plain ⟨[1], none⟩ (List.replicate 12 7) [5, 6] (Owner.signingKey "k").context)
      (Owner.signingKey "k").context = .ok [5, 6] :=
  (AESMaster.decrypt_exact .plain Cipher.ideal_plain ⟨[1], none⟩).2.2.2.1 [2]
    (List.replicate 12 7) [5, 6]
    (Owner.signingKey "k").context (by decide)

end AESMaster

end AuthServer
