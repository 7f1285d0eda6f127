import Mathlib.Data.List.DropRight
import Mathlib.Data.List.Induction

/-!
# Where a browser goes

The scheme, host and port that a browser reaches when it resolves an address against a page of an
`http` or `https` origin, by the rules of the URL standard for the two schemes. Blanks and control
characters at the ends and tabs and line ends anywhere are dropped first, a backslash counts as a
slash, and an address that begins with two of either names an authority of its own.

Only what decides the origin is kept: paths, queries and fragments are read no further. How the
text of an authority becomes a host and a port is left open.

## Main definitions

* `Web.resolve`: the origin an address leads to, from a page of another.
-/

namespace Web

/-- The two schemes in question. -/
inductive Scheme
  | http
  | https
  deriving DecidableEq, Repr

/-- An origin; the port is `none` where it is the scheme's own. -/
structure Origin where
  scheme : Scheme
  host : List UInt8
  port : Option ℕ
  deriving DecidableEq, Repr

/-- What an address leads to. -/
inductive Resolution
  | origin (origin : Origin)
  /-- An address of another scheme. -/
  | other
  | failure
  deriving DecidableEq, Repr

def isSlash (c : UInt8) : Bool := c == 47 || c == 92

/-- A control character or a blank. -/
def isBlank (c : UInt8) : Bool := c ≤ 32

/-- A tab, a line feed or a carriage return. -/
def isLineEnd (c : UInt8) : Bool := c == 9 || c == 10 || c == 13

/-- The address as the parser reads it. -/
def prepared (address : List UInt8) : List UInt8 :=
  ((address.dropWhile isBlank).rdropWhile isBlank).filter fun c => !isLineEnd c

def authorityText (address : List UInt8) : List UInt8 :=
  (address.dropWhile isSlash).takeWhile fun c => !(isSlash c || c == 63 || c == 35)

def isAlpha (c : UInt8) : Bool := (65 ≤ c && c ≤ 90) || (97 ≤ c && c ≤ 122)

/-- A character that a scheme may hold after its first. -/
def isSchemeChar (c : UInt8) : Bool :=
  isAlpha c || (48 ≤ c && c ≤ 57) || c == 43 || c == 45 || c == 46

/-- The scheme of an address, in lower case, and what follows its colon. -/
def schemePart (address : List UInt8) : Option (List UInt8 × List UInt8) :=
  match address.head?, address.dropWhile isSchemeChar with
  | some first, 58 :: rest =>
    if isAlpha first then
      some ((address.takeWhile isSchemeChar).map fun c => if c ≤ 90 && 65 ≤ c then c + 32 else c,
        rest)
    else none
  | _, _ => none

def Scheme.ofName (name : List UInt8) : Option Scheme :=
  if name = [104, 116, 116, 112] then some .http
  else if name = [104, 116, 116, 112, 115] then some .https
  else none

section

variable (hostPort : Scheme → List UInt8 → Option (List UInt8 × Option ℕ))

def authority (scheme : Scheme) (address : List UInt8) : Resolution :=
  match hostPort scheme (authorityText address) with
  | none => .failure
  | some (host, port) => .origin ⟨scheme, host, port⟩

/-- An address without a scheme. -/
def relative (base : Origin) : List UInt8 → Resolution
  | c :: d :: rest =>
    if isSlash c && isSlash d then authority hostPort base.scheme rest else .origin base
  | _ => .origin base

/-- What an address leads to from a page of `base`. -/
def resolve (base : Origin) (address : List UInt8) : Resolution :=
  match schemePart (prepared address) with
  | none => relative hostPort base (prepared address)
  | some (name, rest) =>
    match Scheme.ofName name with
    | none => .other
    | some scheme =>
      -- with the page's own scheme the authority may be left out
      if scheme = base.scheme ∧ ¬ [47, 47].isPrefixOf rest then relative hostPort base rest
      else authority hostPort scheme rest

end

/-! ### Rooted addresses -/

variable {hostPort : Scheme → List UInt8 → Option (List UInt8 × Option ℕ)} {base : Origin}
  {rest : List UInt8}

theorem rdropWhile_cons_of_neg {α : Type*} {p : α → Bool} {x : α} {l : List α}
    (h : p x = false) : (x :: l).rdropWhile p = x :: l.rdropWhile p := by
  induction l using List.reverseRecOn with
  | nil => simp [h]
  | append_singleton l y ih =>
    rw [← List.cons_append, List.rdropWhile_concat, List.rdropWhile_concat, ih]
    split <;> rfl

/-- A rooted address with no control characters keeps its beginning. -/
theorem prepared_rooted (h : ∀ c ∈ rest, 32 ≤ c) : prepared (47 :: rest) =
    47 :: rest.rdropWhile isBlank := by
  have hslash : isBlank 47 = false := by decide
  rw [prepared, List.dropWhile_cons_of_neg (by simp [hslash]), rdropWhile_cons_of_neg hslash,
    List.filter_cons_of_pos (by decide), List.filter_eq_self.mpr]
  intro c hc
  have hle := h c ((List.rdropWhile_prefix isBlank rest).subset hc)
  have hline : ¬ isLineEnd c = true := by
    intro hend
    simp only [isLineEnd, Bool.or_eq_true, beq_iff_eq] at hend
    rcases hend with (rfl | rfl) | rfl <;> exact absurd hle (by decide)
  simpa using hline

theorem resolve_rooted (h : ∀ c ∈ rest, 32 ≤ c) :
    resolve hostPort base (47 :: rest) =
      relative hostPort base (47 :: rest.rdropWhile isBlank) := by
  have hscheme : schemePart (47 :: rest.rdropWhile isBlank) = none := by
    have hdrop : (47 :: rest.rdropWhile isBlank).dropWhile isSchemeChar =
        47 :: rest.rdropWhile isBlank := List.dropWhile_cons_of_neg (by decide)
    rw [schemePart, hdrop]
    rfl
  rw [resolve, prepared_rooted h, hscheme]

/-- A rooted address whose second character is no slash of either kind stays on the origin. -/
theorem resolve_eq_base (h : ∀ c ∈ rest, 32 ≤ c)
    (hhead : ∀ c, rest.head? = some c → isSlash c = false) : resolve hostPort base (47 :: rest) =
      .origin base := by
  rw [resolve_rooted h]
  rcases hdrop : rest.rdropWhile isBlank with _ | ⟨d, tail⟩
  · rfl
  · have hstarts : d :: tail <+: rest := hdrop ▸ List.rdropWhile_prefix isBlank rest
    obtain ⟨more, rfl⟩ := hstarts
    have hd : isSlash d = false := hhead d rfl
    simp [relative, hd]

/-- One whose second character is a backslash leads to an authority that it names. -/
theorem resolve_eq_authority (h : ∀ c ∈ rest, 32 ≤ c) (hhead : rest.head? = some 92) :
    ∃ address, ∀ base,
      resolve hostPort base (47 :: rest) = authority hostPort base.scheme address := by
  obtain ⟨tail, rfl⟩ := List.head?_eq_some_iff.mp hhead
  refine ⟨tail.rdropWhile isBlank, fun base => ?_⟩
  rw [resolve_rooted h, rdropWhile_cons_of_neg (by decide)]
  rfl

theorem exists_authority_ne (hostPort : Scheme → List UInt8 → Option (List UInt8 × Option ℕ))
    (address : List UInt8) :
    ∃ base : Origin, authority hostPort base.scheme address ≠ .origin base := by
  rcases hhost : hostPort .https (authorityText address) with _ | ⟨host, port⟩
  · exact ⟨⟨.https, [], none⟩, by simp [authority, hhost]⟩
  · exact ⟨⟨.https, 0 :: host, port⟩, by simp [authority, hhost]⟩

end Web
