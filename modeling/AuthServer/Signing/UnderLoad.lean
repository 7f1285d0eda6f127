import AuthServer.Interleave.Exclusive
import AuthServer.Signing.Keyfile

/-!
# Rotating a key file under load

One `RotateKey` and any number of `GetSigningKey` and `ListActive` calls on one key directory,
interleaved file operation by file operation. There is no lock: a key is three files that are moved
and written one at a time, and a reader that meets the gap between two of them reads a mixture, or
finds no current key and makes one.

What is shown is that the gap is all that is wrong. If no call makes a step while another is in the
middle of saving a key, and a key is saved only while no other call is in the middle of reading one,
then every key that was handed out is in the directory at the end, and every key that was returned
is one that was stored or made.
-/

namespace AuthServer

open Interleave

namespace Signing

namespace Keyfile

/-- The step of a call does not fall into the saving of a key by another, and is itself part of
saving a key only while no other call is in the middle of reading or saving. -/
def Apart (i : CallID) (d d' : KeyDir) : Prop :=
  (∀ j, j ≠ i → d.busy j ≠ some .saving) ∧
    (d.busy i = some .saving ∨ d'.busy i = some .saving → ∀ j, j ≠ i → d.busy j = none)

structure Setup where
  prims : Primitives
  algorithm : String
  rotating : CallID
  files : Files
  key : SigningKey
  holds : readKey prims files .current = some (some key)

namespace Setup

variable (S : Setup)

/-- A key that the service makes. -/
def Made (k : SigningKey) : Prop :=
  ∃ n, generateKeyPair S.prims S.algorithm (S.prims.randomString n) n = .ok k

/-- A key of the directory at the start, or one that the service makes. -/
def Known (k : SigningKey) : Prop :=
  readKey S.prims S.files .current = some (some k) ∨
    readKey S.prims S.files .previous = some (some k) ∨ S.Made k

/-- The files hold a key that the service made, and before it the key of the start. -/
def Replaced (files : Files) : Prop :=
  ∃ k, S.Made k ∧ readKey S.prims files .current = some (some k) ∧
    readKey S.prims files .previous = some (some S.key)

/-- The rotation has been here and is not in the middle of saving. -/
def Past (d : KeyDir) : Prop := d.files ≠ S.files ∧ d.busy S.rotating ≠ some .saving

def sharing : Contract CallID KeyDir where
  inv d := (∀ i, i ≠ S.rotating → d.busy i ≠ some .saving) ∧
    (d.busy S.rotating ≠ some .saving → d.files = S.files ∨ S.Replaced d.files)
  rely i d d' := d'.busy i = d.busy i ∧ (d.busy i ≠ none ∨ i = S.rotating → d'.files = d.files) ∧
    (S.Past d → d'.files = d.files ∧ S.Past d')
  guar i d d' := (∀ j, j ≠ i → d'.busy j = d.busy j) ∧
    (d'.files = d.files ∨ i = S.rotating ∧ d.busy S.rotating = some .saving) ∧
    (S.Past d → d'.files = d.files ∧ S.Past d')
  admits := Apart
  faulty := False
  rely_refl _ _ := ⟨rfl, fun _ => rfl, fun h => ⟨rfl, h⟩⟩
  rely_trans := by
    intro i d d' d'' h h'
    refine ⟨h'.1.trans h.1, fun hi => ?_, fun hpast => ?_⟩
    · exact (h'.2.1 (by rw [h.1]; exact hi)).trans (h.2.1 hi)
    · obtain ⟨hfiles, hpast'⟩ := h.2.2 hpast
      obtain ⟨hfiles', hpast''⟩ := h'.2.2 hpast'
      exact ⟨hfiles'.trans hfiles, hpast''⟩
  rely_of_guar := by
    intro i j d d' hij hapart hguar
    refine ⟨hguar.1 j (Ne.symm hij), fun hj => ?_, hguar.2.2⟩
    rcases hguar.2.1 with hfiles | ⟨rfl, hsaving⟩
    · exact hfiles
    · rcases hj with hbusy | rfl
      · exact absurd (hapart.2 (.inl hsaving) j (Ne.symm hij)) hbusy
      · exact absurd rfl hij

/-- What a call has read, and what has become of it. -/
def Saw (files : Files) (d : KeyDir) : Prop :=
  files = S.files ∨ S.Replaced files ∧ d.files = files ∧ S.Past d

variable {S} {i : CallID} {d : KeyDir} {β : Type} {files : Files}

theorem Saw.rely {t : KeyDir} (h : S.Saw files d) (hrely : S.sharing.rely i d t) :
    S.Saw files t := by
  rcases h with h | ⟨hreplaced, hfiles, hpast⟩
  · exact .inl h
  · obtain ⟨hsame, hpast'⟩ := hrely.2.2 hpast
    exact .inr ⟨hreplaced, hsame.trans hfiles, hpast'⟩

/-! ### Reading -/

variable {E : Err → KeyDir → Prop} {o : Option β}

/-- **A reading operation** of a call that is not saving. -/
theorem safe_read {Q : β → KeyDir → Prop} {after : β → Option Phase} {r : Files → β}
    (hinv : S.sharing.inv d) (hbusy : d.busy i ≠ some .saving)
      (hafter : ∀ b, after b ≠ some .saving)
    (h : ∀ t, S.sharing.inv t → S.Saw d.files t → t.busy i = after (r d.files) →
      (after (r d.files) ≠ none → t.files = d.files) → Q (r d.files) t) :
    Safe S.sharing i Q E (fileOp i after o fun files => (r files, files)) d := by
  refine ⟨fun hapart => ?_, fun hf => hf.elim⟩
  -- nobody is saving: neither another call nor this one
  have hw : d.busy S.rotating ≠ some .saving := by
    by_cases hi : S.rotating = i
    · rw [hi]
      exact hbusy
    · exact hapart.1 _ hi
  have hw' : Function.update d.busy i (after (r d.files)) S.rotating ≠ some .saving := by
    by_cases hi : S.rotating = i
    · rw [hi, Function.update_self]
      exact hafter _
    · rw [Function.update_of_ne hi]
      exact hw
  have hsaw : S.Saw d.files ⟨d.files, Function.update d.busy i (after (r d.files))⟩ := by
    by_cases hfiles : d.files = S.files
    · exact .inl hfiles
    · exact .inr ⟨(hinv.2 hw).resolve_left hfiles, rfl, hfiles, hw'⟩
  refine ⟨⟨fun j hj => ?_, fun _ => hinv.2 hw⟩, ⟨fun j hj => ?_, .inl rfl, fun hpast => ?_⟩,
    fun t hrely hinvt => ?_⟩
  · by_cases hji : j = i
    · subst hji
      simpa using hafter (r d.files)
    · simpa [Function.update_of_ne hji] using hinv.1 j hj
  · simp [Function.update_of_ne hj]
  · exact ⟨rfl, hpast.1, hw'⟩
  · have hphase : t.busy i = after (r d.files) := by simpa using hrely.1
    refine h t hinvt (hsaw.rely hrely) hphase fun hne => ?_
    exact hrely.2.1 (.inl (by simpa using hne))

/-- An operation that fails leaves the call idle. -/
def Idle (i : CallID) (_ : Err) (d : KeyDir) : Prop := d.busy i ≠ some .saving

variable {after : Option Phase}

theorem unlessError_ne_saving {γ : Type} (h : after ≠ some .saving) (r : Except Err γ) :
    unlessError after r ≠ some .saving := by
  cases r with
  | ok a => exact h
  | error e => exact nofun

variable {Q : String → KeyDir → Prop} {slot : Slot} {ext : Ext}

theorem safe_readFile (hinv : S.sharing.inv d) (hbusy : d.busy i ≠ some .saving)
    (hafter : after ≠ some .saving)
    (h : ∀ content t, d.files slot ext = some content → S.sharing.inv t → S.Saw d.files t →
      t.busy i = after → (after ≠ none → t.files = d.files) → Q content t) :
    Safe S.sharing i Q (Idle i) (readFile i slot ext after) d := by
  refine .bind (safe_read hinv hbusy (unlessError_ne_saving hafter)
    fun t hinvt hsaw hphase hsame => ?_)
  cases hfile : d.files slot ext with
  | some content =>
    simp only [hfile, unlessError] at hphase hsame ⊢
    exact h content t hfile hinvt hsaw hphase hsame
  | none =>
    simp only [hfile, unlessError] at hphase ⊢
    change t.busy i ≠ some .saving
    rw [hphase]
    exact nofun

theorem safe_readString (hinv : S.sharing.inv d) (hbusy : d.busy i ≠ some .saving)
    (hafter : after ≠ some .saving)
    (h : ∀ content t, d.files slot ext = some content → S.sharing.inv t → S.Saw d.files t →
      t.busy i = after → (after ≠ none → t.files = d.files) → Q (Text.trimSpace content) t) :
    Safe S.sharing i Q (Idle i) (readString i slot ext after) d :=
  Safe.bind (safe_readFile hinv hbusy hafter h)

/-- **Reading a key.** All its files are read from the same directory. -/
theorem safe_loadKey (slot : Slot) (hinv : S.sharing.inv d) (hbusy : d.busy i ≠ some .saving) :
    Safe S.sharing i (fun r t => S.sharing.inv t ∧ t.busy i ≠ some .saving ∧
        ∃ files, S.Saw files t ∧ readKey S.prims files slot = some r) (Idle i)
      (loadKey S.prims i slot) d := by
  unfold loadKey
  refine .bind (safe_read (r := fun files => (files slot .pem).isSome) hinv hbusy
    (fun b => by cases b <;> simp)
    fun t hinvt hsaw hphase hsame => ?_)
  cases hpem : d.files slot .pem with
  | none =>
    simp only [hpem, Option.isSome_none] at hphase
    refine ⟨hinvt, by simp [hphase], d.files, hsaw, by simp [readKey, hpem]⟩
  | some pem =>
    simp only [hpem, Option.isSome_some, if_true] at hphase hsame
    have hfiles := hsame (by simp)
    have hloading : ∀ {t : KeyDir}, t.busy i = some .loading → t.busy i ≠ some .saving := by
      intro t ht
      simp [ht]
    refine .bind (Safe.mapError (safe_readFile hinvt (hloading hphase) (by simp) ?_))
    rintro pem' t₁ hpem' hinv₁ - hphase₁ hsame₁
    have hfiles₁ := (hsame₁ (by simp)).trans hfiles
    obtain rfl : pem = pem' := by
      rw [hfiles, hpem] at hpem'
      exact Option.some.inj hpem'
    refine .bind (Safe.mapError (safe_readString hinv₁ (hloading hphase₁) (by simp) ?_))
    rintro kid t₂ hkid hinv₂ - hphase₂ hsame₂
    have hfiles₂ := (hsame₂ (by simp)).trans hfiles₁
    refine .bind (Safe.mapError (safe_readString hinv₂ (hloading hphase₂) (by simp) ?_))
    rintro alg t₃ halg hinv₃ hsaw₃ hphase₃ -
    have hidle : t₃.busy i ≠ some .saving := by
      simp [hphase₃]
    rw [hfiles₁] at hkid
    rw [hfiles₂] at halg hsaw₃
    refine .bind (safe_ofExcept (fun sk hsk => ?_) fun e _ => hidle)
    refine ⟨hinv₃, hidle, d.files, hsaw₃, ?_⟩
    simp [readKey, hpem, hkid, halg, hsk, Except.toOption]

/-! ### Saving -/

def Saving (S : Setup) (files : Files) (d : KeyDir) : Prop :=
  S.sharing.inv d ∧ d.files = files ∧ d.busy S.rotating = some .saving

variable {f : Files → β × Files}

/-- **An operation of the one that saves.** -/
theorem safe_savingOp {Q : β → KeyDir → Prop} {after : β → Option Phase}
    (hsaving : Saving S files d) (hdone : after (f files).1 ≠ some .saving → S.Replaced (f files).2)
    (h : ∀ t, S.sharing.inv t → t.files = (f files).2 → t.busy S.rotating = after (f files).1 →
      Q (f files).1 t) : Safe S.sharing S.rotating Q E (fileOp S.rotating after o f) d := by
  obtain ⟨hinv, rfl, hbusy⟩ := hsaving
  refine ⟨fun hapart => ⟨⟨fun j hj => ?_, fun hw => .inr (hdone (by simpa using hw))⟩,
    ⟨fun j hj => ?_, .inr ⟨rfl, hbusy⟩, fun hpast => ?_⟩, fun t hrely hinvt => ?_⟩,
      fun hf => hf.elim⟩
  · simpa [Function.update_of_ne hj] using hinv.1 j hj
  · simp [Function.update_of_ne hj]
  · exact absurd hbusy hpast.2
  · exact h t hinvt (hrely.2.1 (.inr rfl)) (by simpa using hrely.1)

theorem safe_rotateFile {Q : Unit → KeyDir → Prop} (hsaving : Saving S files d)
    (h : ∀ t, Saving S (moveFile files ext) t → Q () t) :
    Safe S.sharing S.rotating Q E (rotateFile S.rotating ext) d :=
  .bind (safe_savingOp hsaving (absurd rfl) fun t hinv hfiles hbusy => h t ⟨hinv, hfiles, hbusy⟩)

theorem safe_writeFile {Q : Unit → KeyDir → Prop} {content : String} (hsaving : Saving S files d)
    (h : ∀ t, Saving S (setFile files slot ext (some content)) t → Q () t) :
    Safe S.sharing S.rotating Q E (writeFile S.rotating slot ext content (some .saving)) d :=
  .bind (safe_savingOp hsaving (absurd rfl) fun t hinv hfiles hbusy => h t ⟨hinv, hfiles, hbusy⟩)

variable {sk : SigningKey}

/-- The files a rotation leaves hold the new key and the one of the start. -/
theorem replaced_savedFiles {priv : PrivateKey} (hmade : S.Made sk)
    (hkey : sk.privateKey = .software priv) :
    S.Replaced (savedFiles S.files (S.prims.encodePEM priv) sk.keyID sk.algorithm) := by
  obtain ⟨n, hn⟩ := hmade
  have hgen := generated_of_generateKeyPair (S.prims.randomString_word n) hn
  refine ⟨sk, ⟨n, hn⟩, readKey_of_generated hgen hkey rfl rfl rfl, ?_⟩
  refine (readKey_congr fun ext => ?_).trans S.holds
  have hpem := isSome_of_readKey S.holds .pem
  obtain ⟨content, hcontent⟩ := Option.isSome_iff_exists.mp (isSome_of_readKey S.holds ext)
  simp [savedFiles, rotated, hpem, hcontent]

/-- **Saving a key.** -/
theorem safe_save (hmade : S.Made sk) (hinv : S.sharing.inv d) (hfiles : d.files = S.files) :
    Safe S.sharing S.rotating
      (fun _ t => S.sharing.inv t ∧ t.busy S.rotating = none) (Idle S.rotating)
      (save S.prims S.rotating sk) d := by
  have hgen := generated_of_generateKeyPair
    (S.prims.randomString_word hmade.choose) hmade.choose_spec
  obtain ⟨priv, -, hkey, -⟩ := hgen.software
  have hpem := isSome_of_readKey S.holds .pem
  have hstart :
    Safe S.sharing S.rotating (fun found t => found = true ∧ Saving S S.files t) (Idle S.rotating)
      («exists» S.rotating .current fun _ => some .saving) d := by
    refine ⟨fun hapart =>
      ⟨⟨fun j hj => ?_, fun hw => ?_⟩, ⟨fun j hj => ?_, .inl rfl, fun hpast => ?_⟩,
      fun t hrely hinvt => ?_⟩, fun hf => hf.elim⟩
    · simpa [Function.update_of_ne hj] using hinv.1 j hj
    · simp at hw
    · simp [Function.update_of_ne hj]
    · exact absurd hfiles hpast.1
    · refine ⟨by simpa [hfiles] using hpem, hinvt, ?_, by simpa using hrely.1⟩
      exact (hrely.2.1 (.inr rfl)).trans hfiles
  unfold save
  refine .bind (hstart.mono ?_ fun _ _ h => h)
  rintro found t ⟨rfl, hsaving⟩
  refine .bind (safe_rotateFile hsaving fun t₁ h₁ => .bind (safe_rotateFile h₁ fun t₂ h₂ =>
    Safe.bind (safe_rotateFile h₂ fun t₃ h₃ => .mapError ?_)))
  unfold writeKey
  rw [hkey]
  refine .bind (Safe.mapError (safe_writeFile h₃ fun t₄ h₄ =>
    Safe.bind (Safe.mapError (safe_writeFile h₄ fun t₅ h₅ => .mapError (Safe.bind ?_)))))
  refine safe_savingOp h₅ (fun _ => ?_) fun t₆ hinv₆ _ hidle => ⟨hinv₆, hidle⟩
  have hreplaced := replaced_savedFiles hmade hkey
  rwa [savedFiles_eq hpem] at hreplaced

/-! ### The calls -/

theorem Saw.known {k : SigningKey} (h : S.Saw files d)
    (hread : readKey S.prims files slot = some (some k)) : S.Known k := by
  rcases h with rfl | ⟨⟨made, hmade, hcurrent, hprevious⟩, -, -⟩
  · cases slot with
    | current => exact .inl hread
    | previous => exact .inr (.inl hread)
  · cases slot with
    | current =>
      rw [hcurrent] at hread
      obtain rfl := Option.some.inj (Option.some.inj hread)
      exact .inr (.inr hmade)
    | previous =>
      rw [hprevious] at hread
      obtain rfl := Option.some.inj (Option.some.inj hread)
      exact .inl S.holds

/-- **Listing the keys.** -/
theorem safe_listActive (hinv : S.sharing.inv d) (hbusy : d.busy i ≠ some .saving) :
    Safe S.sharing i (fun keys t => S.sharing.inv t ∧ t.busy i ≠ some .saving ∧ ∀ k ∈ keys,
      S.Known k) (Idle i)
      (listBoth (loadKey S.prims i .current) (loadKey S.prims i .previous)) d := by
  unfold listBoth
  refine .bind ((safe_loadKey .current hinv hbusy).mono ?_ fun _ _ h => h)
  rintro current t ⟨hinvt, hbusyt, files, hsaw, hread⟩
  refine .bind ((safe_loadKey .previous hinvt hbusyt).mono ?_ fun _ _ h => h)
  rintro previous t' ⟨hinvt', hbusyt', files', hsaw', hread'⟩
  refine ⟨hinvt', hbusyt', fun k hk => ?_⟩
  rcases List.mem_append.mp hk with hk | hk
  · obtain rfl := Option.mem_toList.mp hk
    exact hsaw.known hread
  · obtain rfl := Option.mem_toList.mp hk
    exact hsaw'.known hread'

def service (S : Setup) : JWKSService KeyDir := ⟨S.prims, store S.prims, S.algorithm⟩

/-- The contract, for processes that also have a key set in memory. -/
def hosted (S : Setup) : Contract CallID (Host KeyDir) := S.sharing.onPart Host.store

variable {h : Host KeyDir} {α : Type}

/-- An operation on the directory, called by the service. -/
theorem safe_onStore {Q : α → Host KeyDir → Prop} {p : Prog KeyDir Err α}
    {Q₀ : α → KeyDir → Prop} (hp : Safe S.sharing i Q₀ (Idle i) p h.store)
      (hQ : ∀ a t, Q₀ a t.store → Q a t) :
    Safe S.hosted i Q (fun e t => Idle i e t.store) (onStore p) h :=
  (Safe.zoom (fun _ _ => rfl) hp).mono hQ fun _ _ he => he

/-- A step of the service that leaves the directory alone. -/
theorem safe_hostStep {Q : α → Host KeyDir → Prop} {f : Host KeyDir → α × Host KeyDir}
    (hinv : S.sharing.inv h.store) (hstore : (f h).2.store = h.store)
    (hQ : ∀ t, S.sharing.rely i h.store t.store → S.sharing.inv t.store → Q (f h).1 t) :
    Safe S.hosted i Q (fun e t => Idle i e t.store) (Prog.step f) h := by
  refine safe_step fun _ => ?_
  simp only [hosted, Contract.onPart, hstore]
  exact ⟨hinv, ⟨fun _ _ => rfl, .inl rfl, fun hpast => ⟨rfl, hpast⟩⟩,
    fun t hrely hinvt => hQ t hrely hinvt⟩

/-- **The signing key** under load: it is there. -/
theorem safe_getSigningKey (hinv : S.sharing.inv h.store) (hbusy : h.store.busy i ≠ some .saving) :
    Safe S.hosted i (fun sk t => S.Known sk ∧ t.store.busy i ≠ some .saving ∧
        (sk = S.key ∨ S.Past t.store ∧ readKey S.prims t.store.files .current = some (some sk)))
      (fun e t => Idle i e t.store) (S.service.getSigningKey i) h := by
  unfold JWKSService.getSigningKey
  refine .bind (Safe.mapError (safe_onStore (safe_loadKey .current hinv hbusy) ?_))
  rintro r t ⟨-, hbusyt, files, hsaw, hread⟩
  rcases hsaw with rfl | ⟨⟨made, hmade, hcurrent, hprevious⟩, hfiles, hpast⟩
  · rw [S.holds] at hread
    obtain rfl := Option.some.inj hread
    exact ⟨.inl S.holds, hbusyt, .inl rfl⟩
  · rw [hcurrent] at hread
    obtain rfl := Option.some.inj hread
    exact ⟨.inr (.inr hmade), hbusyt, .inr ⟨hpast, by rw [hfiles]; exact hcurrent⟩⟩

/-- **The rotation** under load. -/
theorem safe_rotateKey (hinv : S.sharing.inv h.store) (hfiles : h.store.files = S.files)
    (hbusy : h.store.busy S.rotating = none) :
    Safe S.hosted S.rotating (fun sk t => S.Known sk ∧ t.store.busy S.rotating ≠ some .saving)
      (fun e t => Idle S.rotating e t.store) (S.service.rotateKey S.rotating) h := by
  unfold JWKSService.rotateKey JWKSService.generateAndSave
  refine .bind (safe_hostStep hinv rfl fun t₁ hrely hinv₁ => ?_)
  have hfiles₁ : t₁.store.files = S.files := (hrely.2.1 (.inr rfl)).trans hfiles
  have hbusy₁ : t₁.store.busy S.rotating = none := hrely.1.trans hbusy
  refine .bind (safe_ofExcept (fun sk hsk => ?_) fun e _ => ?_)
  · have hmade : S.Made sk := ⟨_, hsk⟩
    refine .bind (Safe.mapError (safe_onStore (safe_save hmade hinv₁ hfiles₁) ?_))
    rintro - t₂ ⟨hinv₂, hidle⟩
    have hbusy₂ : t₂.store.busy S.rotating ≠ some .saving := by
      rw [hidle]
      exact nofun
    refine .bind (Safe.attempt ?_)
    refine .mono (Q := fun _ t => t.store.busy S.rotating ≠ some .saving) ?_
      (fun _ t ht => ⟨.inr (.inr hmade), ht⟩) (fun e t ht => ⟨.inr (.inr hmade), ht⟩)
    refine .bind (Safe.mapError (safe_onStore (safe_listActive hinv₂ hbusy₂) ?_))
    rintro keys t₃ ⟨hinv₃, hbusy₃, -⟩
    refine safe_hostStep hinv₃ rfl fun t₄ hrely₄ _ => ?_
    rw [hrely₄.1]
    exact hbusy₃
  · change t₁.store.busy S.rotating ≠ some .saving
    rw [hbusy₁]
    exact nofun

end Setup

/-- The calls on a directory. -/
inductive Call
  | getSigningKey
  | listActive
  | rotateKey
  deriving DecidableEq, Repr

variable {c : Pool CallID (Host KeyDir) Err fun _ => List SigningKey}

namespace Setup

variable (S : Setup)

/-- The program of a call, with the keys that it returns. -/
def program (i : CallID) : Call → Prog (Host KeyDir) Err (List SigningKey)
  | .getSigningKey => do
    let sk ← S.service.getSigningKey i
    pure [sk]
  | .listActive => onStore ((store S.prims).listActive i)
  | .rotateKey => do
    let sk ← S.service.rotateKey i
    pure [sk]

/-- The calls, on a process whose directory is that of the setup. -/
def pool (role : CallID → Option Call) (cache : Option (List JSONWebKey)) (drawn : ℕ) :
    Pool CallID (Host KeyDir) Err fun _ => List SigningKey where
  store := ⟨⟨S.files, fun _ => none⟩, cache, drawn⟩
  procs i :=
    match role i with
    | some call => S.program i call
    | none => pure []

def KeepApart (c : Pool CallID (Host KeyDir) Err fun _ => List SigningKey) : List CallID → Prop
  | [] => True
  | i :: rest =>
    Apart i c.store.store (c.step i false).store.store ∧ KeepApart (c.step i false) rest

variable {S} {role : CallID → Option Call} {cache : Option (List JSONWebKey)} {drawn : ℕ}

def Post (S : Setup) (role : CallID → Option Call) (i : CallID) (keys : List SigningKey)
    (h : Host KeyDir) : Prop :=
  (∀ k ∈ keys, S.Known k) ∧ h.store.busy i ≠ some .saving ∧
    (role i = some .getSigningKey → ∀ k ∈ keys, k = S.key ∨
      S.Past h.store ∧ readKey S.prims h.store.files .current = some (some k))

theorem safe_procs (hrole : ∀ i, role i = some .rotateKey ↔ i = S.rotating)
    {i : CallID} {t : Host KeyDir}
    (hrely : S.sharing.rely i ⟨S.files, fun _ => none⟩ t.store) (hinv : S.sharing.inv t.store) :
    Safe S.hosted i (S.Post role i) (fun e t => Idle i e t.store)
      ((S.pool role cache drawn).procs i) t := by
  have hidle : t.store.busy i = none := hrely.1
  have hbusy : t.store.busy i ≠ some .saving := by
    rw [hidle]
    exact nofun
  simp only [pool]
  cases hcall : role i with
  | none =>
    refine ⟨fun k hk => ?_, hbusy, fun hget => ?_⟩
    · cases hk
    · rw [hcall] at hget
      cases hget
  | some call =>
    cases call with
    | getSigningKey =>
      refine .bind ((safe_getSigningKey hinv hbusy).mono ?_ fun _ _ he => he)
      rintro sk t' ⟨hknown, hbusy', hwhere⟩
      exact ⟨by simpa using hknown, hbusy', fun _ => by simpa using hwhere⟩
    | listActive =>
      refine safe_onStore (safe_listActive hinv hbusy) ?_
      rintro keys t' ⟨-, hbusy', hknown⟩
      exact ⟨hknown, hbusy', fun hget => by rw [hcall] at hget; cases hget⟩
    | rotateKey =>
      obtain rfl := (hrole i).mp hcall
      refine .bind ((safe_rotateKey hinv (hrely.2.1 (.inr rfl)) hidle).mono ?_ fun _ _ he => he)
      rintro sk t' ⟨hknown, hbusy'⟩
      exact ⟨by simpa using hknown, hbusy', fun hget => by rw [hcall] at hget; cases hget⟩

theorem ready_pool (hrole : ∀ i, role i = some .rotateKey ↔ i = S.rotating) :
    (S.pool role cache drawn).Ready S.hosted (S.Post role) fun i e t => Idle i e t.store :=
  ⟨⟨fun _ _ => nofun, fun _ => .inl rfl⟩, fun _ _ hrely hinv => safe_procs hrole hrely hinv⟩

theorem admitted_of_keepApart {sched : List CallID} (h : KeepApart c sched) :
    c.Admitted S.hosted (sched.map fun i => (i, false)) := by
  induction sched generalizing c with
  | nil => trivial
  | cons i rest ih => exact ⟨h.1, (by simp), ih h.2⟩

end Setup

/-- The key is one of the two of the directory. -/
def Listed (prims : Primitives) (files : Files) (k : SigningKey) : Prop :=
  readKey prims files .current = some (some k) ∨ readKey prims files .previous = some (some k)

/-- **A rotation under load loses no key**, in every schedule in which no call makes a step while
another is in the middle of saving a key and a key is saved only while no other call is in the
middle of reading or saving one: when all calls have finished, each key that `GetSigningKey` handed
out is in the directory; and at any time, each key that any call returned is one that the directory
held or the service made. -/
theorem rotation_under_load (S : Setup) (role : CallID → Option Call)
    (hrole : ∀ i, role i = some .rotateKey ↔ i = S.rotating)
      (cache : Option (List JSONWebKey)) (drawn : ℕ)
    (sched : List CallID) (hapart : Setup.KeepApart (S.pool role cache drawn) sched) :
    let c := (S.pool role cache drawn).exec (sched.map fun i => (i, false))
    ((∀ i, (c.procs i).Done) → ∀ i keys, role i = some .getSigningKey → c.procs i = .ret keys →
        ∀ k ∈ keys, Listed S.prims c.store.store.files k) ∧
      ∀ i keys, c.procs i = .ret keys → ∀ k ∈ keys, S.Known k := by
  intro c
  have hready : c.Ready S.hosted (S.Post role) fun i e t => Setup.Idle i e t.store :=
    (Setup.ready_pool hrole).exec _ (Setup.admitted_of_keepApart hapart)
  refine ⟨fun hdone i keys hget hret k hk => ?_, fun i keys hret => (hready.post hret).1⟩
  have hidle : c.store.store.busy S.rotating ≠ some .saving := by
    have hsafe := hready.safe S.rotating c.store (S.hosted.rely_refl _ _) hready.inv
    have hend := hdone S.rotating
    cases hp : c.procs S.rotating with
    | ret keys' => exact (hready.post hp).2.1
    | fail e => rw [hp] at hsafe; exact hsafe
    | call f o g => rw [hp] at hend; exact hend.elim
  rcases (hready.post hret).2.2 hget k hk with rfl | ⟨-, hcurrent⟩
  · rcases hready.inv.2 hidle with hfiles | ⟨made, -, -, hprevious⟩
    · exact .inl (by rw [hfiles]; exact S.holds)
    · exact .inr hprevious
  · exact .inl hcurrent

/-! ### One call after another -/

theorem Setup.keepApart_replicate {S : Setup} {Q : CallID → List SigningKey → Host KeyDir → Prop}
    {E : CallID → Err → Host KeyDir → Prop} {i : CallID} (hready : c.Ready S.hosted Q E)
    (hidle : ∀ j, j ≠ i → c.store.store.busy j = none) (n : ℕ) (rest : List CallID)
    (hrest : Setup.KeepApart (c.exec (List.replicate n (i, false))) rest) :
    Setup.KeepApart c (List.replicate n i ++ rest) := by
  induction n generalizing c with
  | zero => exact hrest
  | succ n ih =>
    have hapart : Apart i c.store.store (c.step i false).store.store :=
      ⟨fun j hj => by rw [hidle j hj]; exact nofun, fun _ j hj => hidle j hj⟩
    obtain ⟨-, hothers, -⟩ := hready.step_spec i false hapart nofun
    refine ⟨hapart, ih (hready.step i false hapart nofun) (fun j hj => ?_) hrest⟩
    exact (hothers j (Ne.symm hj)).1.trans (hidle j hj)

end Keyfile

namespace Sample

open Keyfile

def twoKeys : Files
  | .current, .pem => some "Enew"
  | .current, .kid => some "new"
  | .current, .alg => some "ES256"
  | .previous, .pem => some "Eold"
  | .previous, .kid => some "old"
  | .previous, .alg => some "ES256"

def setup : Setup where
  prims := primitives
  algorithm := "ES256"
  rotating := 0
  files := twoKeys
  key := ⟨.software ⟨.ecdsa, "new"⟩, "pub-new", "ES256", "new"⟩
  holds := by decide +kernel

def beside (call : Call) : CallID → Option Call
  | 0 => some .rotateKey
  | 1 => some call
  | _ => none

theorem beside_rotateKey {call : Call} (h : call ≠ .rotateKey) (i : CallID) :
    beside call i = some .rotateKey ↔ i = setup.rotating := by
  match i with
  | 0 => exact iff_of_true rfl rfl
  | 1 => exact iff_of_false (fun heq => h (Option.some.inj heq)) Nat.one_ne_zero
  | n + 2 => exact iff_of_false nofun (Nat.succ_ne_zero _)

end Sample

namespace Keyfile

open Sample

def afterCalls (call : Call) (sched : List CallID) : Pool CallID (Host KeyDir) Err fun _ =>
    List SigningKey :=
  (setup.pool (beside call) none 0).exec (sched.map fun i => (i, false))

/-- First the signing key is read, and then the key is rotated. -/
theorem rotation_under_load_in_turn :
    Listed primitives (afterCalls .getSigningKey
      (List.replicate 4 1 ++ List.replicate 17 0)).store.store.files setup.key := by
  have hrole : ∀ i, beside .getSigningKey i = some .rotateKey ↔ i = setup.rotating :=
    beside_rotateKey nofun
  have hready : (setup.pool (beside .getSigningKey) none 0).Ready setup.hosted _ _ :=
    Setup.ready_pool hrole
  have hread : Setup.KeepApart (setup.pool (beside .getSigningKey) none 0)
    (List.replicate 4 1) := by
    simpa using Setup.keepApart_replicate hready (i := 1) (fun _ _ => rfl) 4 [] trivial
  have hafter := hready.exec _ (Setup.admitted_of_keepApart hread)
  have hapart : Setup.KeepApart (setup.pool (beside .getSigningKey) none 0)
      (List.replicate 4 1 ++ List.replicate 17 0) := by
    refine Setup.keepApart_replicate hready (fun _ _ => rfl) 4 _ ?_
    have hrotate := Setup.keepApart_replicate hafter (i := 0) (fun j hj => ?_) 17 [] trivial
    · simpa using hrotate
    · match j with
      | 0 => exact absurd rfl hj
      | 1 => rfl
      | n + 2 =>
        have hsame := hready.rely_exec (i := n + 2) _ (Setup.admitted_of_keepApart hread) (by simp)
        exact hsame.1
  refine (rotation_under_load setup (beside .getSigningKey) hrole none 0 _ hapart).1
    ?_ 1 [setup.key] rfl rfl setup.key (List.mem_singleton.mpr rfl)
  intro i
  match i with
  | 0 => trivial
  | 1 => trivial
  | n + 2 =>
    rw [Pool.procs_exec_of_not_mem _ (by simp)]
    trivial

/-- The call that asks for the signing key does so when the rotation has moved the first file. -/
def gap : List CallID := [0, 0, 0] ++ List.replicate 15 1 ++ List.replicate 14 0

/-- **Keys are mixed, and lost.** Call `1` lists the keys: it reads the current one, and the
previous one after the rotation has moved the first of its files. What it returns is the private key
of one with the identifier of the other. And where call `1` asks for the signing key at that moment,
it finds none and makes one; the rotation then goes on, and when both have finished the key that was
handed out is not in the directory. -/
theorem rotation_mixes_keys :
    (∃ k k', (afterCalls .listActive [1, 1, 1, 1, 0, 0, 0, 1, 1, 1, 1]).procs 1 = .ret [k, k'] ∧
      k.privateKey = k'.privateKey ∧ k.keyID = "new" ∧ k'.keyID = "old") ∧
    ∃ k k', (afterCalls .getSigningKey gap).procs 0 = .ret [k'] ∧
      (afterCalls .getSigningKey gap).procs 1 = .ret [k] ∧
      ¬ Listed primitives (afterCalls .getSigningKey gap).store.store.files k := by
  refine ⟨⟨_, _, rfl, by decide +kernel, by decide +kernel, by decide +kernel⟩, _, _, rfl, rfl, ?_⟩
  rintro (h | h)
  · exact absurd h (by decide +kernel)
  · exact absurd h (by decide +kernel)

end Keyfile

end Signing

end AuthServer
