import Mathlib.Logic.Relation
import AuthServer.Interleave.Program

/-!
# Rely and guarantee for pools of programs

The reasoning principle for `Pool.exec`. A `Contract` says what every participant may assume about
the steps of the others (`rely`) and what it promises about its own (`guar`), on top of an invariant
`inv` of the store. `Safe` is the obligation on one program: each of its calls keeps the invariant
and the promise, and what follows the call is safe in every store the others may have made of it
meanwhile.

`Pool.Ready.exec` puts the participants together: if each one is safe where it starts, then whatever
the schedule, each one is safe where it is, so a participant that has returned satisfies its
postcondition. `Safe.run` is the same principle for a program that runs alone.

A contract also names the steps of the runs under consideration (`admits`), for statements about
those runs only in which some kind of step does not happen, and says whether the store may fail
calls in them (`faulty`). -/

namespace Interleave

/-- What the participants of a pool may assume of each other and what they promise. -/
structure Contract (ι σ : Type) where
  /-- Holds of the store between any two calls. -/
  inv : σ → Prop
  /-- What the others may do to the store while participant `i` is between two calls. -/
  rely : ι → σ → σ → Prop
  /-- What a call of participant `i` may do to the store. -/
  guar : ι → σ → σ → Prop
  /-- The calls of participant `i` that the runs under consideration contain. -/
  admits : ι → σ → σ → Prop
  /-- Whether the store may fail a call in the runs under consideration. -/
  faulty : Prop
  rely_refl : ∀ i s, rely i s s
  rely_trans : ∀ {i s t u}, rely i s t → rely i t u → rely i s u
  rely_of_guar : ∀ {i j s t}, i ≠ j → admits i s t → guar i s t → rely j s t

variable {ι σ ε α β : Type} {C : Contract ι σ} {i : ι}

/-- Participant `i` may go on with the program from the store: every call keeps the contract, a
result satisfies `Q` and an error satisfies `E`. -/
def Safe (C : Contract ι σ) (i : ι) (Q : α → σ → Prop) (E : ε → σ → Prop) :
    Prog σ ε α → σ → Prop
  | .ret a, s => Q a s
  | .fail e, s => E e s
  | .call f o k, s =>
      (C.admits i s (f s).2 → C.inv (f s).2 ∧ C.guar i s (f s).2 ∧
        ∀ t, C.rely i (f s).2 t → C.inv t → Safe C i Q E (k (f s).1) t) ∧
      (C.faulty → ∀ b ∈ o, ∀ t, C.rely i s t → C.inv t → Safe C i Q E (k b) t)

/-! ### Rules -/

section Rules

variable {Q : α → σ → Prop} {E : ε → σ → Prop} {s : σ}

theorem safe_pure {a : α} (h : Q a s) : Safe C i Q E (pure a) s := h

/-- A program that makes the same call may go on if what follows the call may. -/
theorem Safe.next {δ γ κ : Type} {f : σ → κ × σ} {o : Option κ} {k : κ → Prog σ ε α}
    {k' : κ → Prog σ δ γ}
    {Q' : γ → σ → Prop} {E' : δ → σ → Prop} (h : Safe C i Q E (.call f o k) s)
    (hk : ∀ b t, Safe C i Q E (k b) t → Safe C i Q' E' (k' b) t) :
      Safe C i Q' E' (.call f o k') s := by
  refine ⟨fun hadm => ?_, fun hf b hb t hst hinv => hk b t (h.2 hf b hb t hst hinv)⟩
  obtain ⟨hinv, hguar, hnext⟩ := h.1 hadm
  exact ⟨hinv, hguar, fun t hst hit => hk _ t (hnext t hst hit)⟩

variable {p : Prog σ ε α} {E' : ε → σ → Prop}

/-- The postcondition may be weakened. -/
theorem Safe.mono {Q' : α → σ → Prop}
    (h : Safe C i Q E p s) (hQ : ∀ a t, Q a t → Q' a t) (hE : ∀ e t, E e t → E' e t) :
      Safe C i Q' E' p s := by
  induction p generalizing s with
  | ret a => exact hQ a s h
  | fail e => exact hE e s h
  | call f o k ih => exact h.next fun b _ => ih b

/-- What the calls of the program and those of the others keep holds where the program comes to its
end. -/
theorem Safe.and_kept {P : σ → Prop} (h : Safe C i Q E p s)
    (hguar : ∀ u v, C.guar i u v → C.inv v → P u → P v)
    (hrely : ∀ u v, C.rely i u v → C.inv v → P u → P v) (hs : P s) :
    Safe C i (fun a t => Q a t ∧ P t) (fun e t => E e t ∧ P t) p s := by
  induction p generalizing s with
  | ret a => exact ⟨h, hs⟩
  | fail e => exact ⟨h, hs⟩
  | call f o k ih =>
    refine ⟨fun hadm => ?_, fun hf b hb t hst hinv =>
      ih b (h.2 hf b hb t hst hinv) (hrely s t hst hinv hs)⟩
    obtain ⟨hinv, hg, hk⟩ := h.1 hadm
    have hnext : P (f s).2 := hguar s _ hg hinv hs
    exact ⟨hinv, hg, fun t hst hit => ih _ (hk t hst hit) (hrely _ t hst hit hnext)⟩

/-- So does the invariant. -/
theorem Safe.and_inv (h : Safe C i Q E p s) (hs : C.inv s) :
    Safe C i (fun a t => Q a t ∧ C.inv t) (fun e t => E e t ∧ C.inv t) p s :=
  h.and_kept (fun _ _ _ hv _ => hv) (fun _ _ _ hv _ => hv) hs

/-- **Sequencing.** The postcondition of the first part is that the second part is safe. -/
theorem Safe.bind {g : α → Prog σ ε β} {Q : β → σ → Prop}
    (h : Safe C i (fun a t => Safe C i Q E (g a) t) E p s) : Safe C i Q E (p >>= g) s := by
  induction p generalizing s with
  | ret a => exact h
  | fail e => exact h
  | call f o k ih => exact h.next fun b _ => ih b

/-- Turning the error into a value turns its postcondition into one on that value. -/
theorem Safe.attempt {Q : Except ε α → σ → Prop}
    (h : Safe C i (fun a t => Q (.ok a) t) (fun e t => Q (.error e) t) p s) :
      Safe C i Q E' p.attempt s := by
  induction p generalizing s with
  | ret a => exact h
  | fail e => exact h
  | call f o k ih => exact h.next fun b _ => ih b

/-- Translating the error translates its postcondition. -/
theorem Safe.mapError {δ : Type} {f : ε → δ} {E : δ → σ → Prop}
    (h : Safe C i Q (fun e t => E (f e) t) p s) : Safe C i Q E (p.mapError f) s := by
  induction p generalizing s with
  | ret a => exact h
  | fail e => exact h
  | call g o k ih => exact h.next fun b _ => ih b

theorem safe_ofExcept {r : Except ε α} (hok : ∀ a, r = .ok a → Q a s)
    (herr : ∀ e, r = .error e → E e s) : Safe C i Q E (Prog.ofExcept r) s := by
  cases r with
  | ok a => exact hok a rfl
  | error e => exact herr e rfl

theorem safe_failIf {c : Bool} {e : ε} {Q : Unit → σ → Prop} (hok : c = false → Q () s)
    (herr : c = true → E e s) : Safe C i Q E (Prog.failIf c e) s := by
  cases c with
  | false => exact hok rfl
  | true => exact herr rfl

theorem safe_step {f : σ → α × σ} (h : C.admits i s (f s).2 → C.inv (f s).2 ∧
      C.guar i s (f s).2 ∧ ∀ t, C.rely i (f s).2 t → C.inv t → Q (f s).1 t) :
        Safe C i Q E (Prog.step f) s :=
  ⟨h, fun _ b hb => by simp at hb⟩

variable {fault : ε}

/-- A store call that may write. -/
theorem safe_exec {f : σ → Except ε α × σ}
    (hstep : C.admits i s (f s).2 → C.inv (f s).2 ∧ C.guar i s (f s).2)
    (hok : ∀ a, (f s).1 = .ok a → C.admits i s (f s).2 →
      ∀ t, C.rely i (f s).2 t → C.inv t → Q a t)
    (herr : ∀ e, (f s).1 = .error e → C.admits i s (f s).2 →
      ∀ t, C.rely i (f s).2 t → C.inv t → E e t)
    (hfault : C.faulty → ∀ t, C.rely i s t → C.inv t → E fault t) :
      Safe C i Q E (Prog.exec fault f) s := by
  refine ⟨fun hadm => ⟨(hstep hadm).1, (hstep hadm).2, fun t hst hinv => ?_⟩, ?_⟩
  · exact safe_ofExcept (fun a ha => hok a ha hadm t hst hinv)
      (fun e he => herr e he hadm t hst hinv)
  · intro hf b hb t hst hinv
    obtain rfl : Except.error fault = b := by simpa using hb
    exact hfault hf t hst hinv

/-- A store call that only reads: what was read holds of the store at that moment. -/
theorem safe_query {f : σ → Except ε α} (hinv : C.inv s) (hguar : C.admits i s s → C.guar i s s)
    (hok : ∀ a, f s = .ok a → ∀ t, C.rely i s t → C.inv t → Q a t)
    (herr : ∀ e, ∀ t, C.rely i s t → C.inv t → E e t) : Safe C i Q E (Prog.query fault f) s :=
  safe_exec (fun hadm => ⟨hinv, hguar hadm⟩) (fun a ha _ t hst hit => hok a ha t hst hit)
    (fun e _ _ t hst hit => herr e t hst hit) (fun _ t hst hit => herr fault t hst hit)

end Rules

/-! ### Programs on a part of the store -/

variable {τ : Type}

def Contract.onPart (C : Contract ι σ) (get : τ → σ) : Contract ι τ where
  inv := fun t => C.inv (get t)
  rely := fun i s t => C.rely i (get s) (get t)
  guar := fun i s t => C.guar i (get s) (get t)
  admits := fun i s t => C.admits i (get s) (get t)
  faulty := C.faulty
  rely_refl := fun i s => C.rely_refl i (get s)
  rely_trans := fun h h' => C.rely_trans h h'
  rely_of_guar := fun hij hadm h => C.rely_of_guar hij hadm h

variable {p : Prog σ ε α} {put : σ → τ → τ} {get : τ → σ}

theorem Safe.zoom (get_put : ∀ s t, get (put s t) = s)
    {Q : α → σ → Prop} {E : ε → σ → Prop} {t : τ} (h : Safe C i Q E p (get t)) :
    Safe (C.onPart get) i (fun a u => Q a (get u)) (fun e u => E e (get u)) (p.zoom get put) t := by
  induction p generalizing t with
  | ret a => exact h
  | fail e => exact h
  | call f o k ih =>
    refine ⟨fun hadm => ?_, fun hf b hb u hst hinv => ih b (h.2 hf b hb _ hst hinv)⟩
    simp only [Contract.onPart, get_put] at hadm ⊢
    obtain ⟨hinv, hguar, hk⟩ := h.1 hadm
    exact ⟨hinv, hguar, fun u hst hiu => ih _ (hk _ hst hiu)⟩

/-- A program that is safe on the part under a contract of its own is safe on the larger store, if
what the program may do to the part keeps the contract of the larger store. There, a property of the
rest may be used and kept. -/
theorem Safe.zoom_within {D : Contract ι τ}
    (get_put : ∀ s t, get (put s t) = s) {K : τ → Prop} {Q : α → σ → Prop} {E : ε → σ → Prop}
    (hinv : ∀ t, D.inv t → C.inv (get t)) (hrely : ∀ s t, D.rely i s t → C.rely i (get s) (get t))
    (hkeep : ∀ s t, D.rely i s t → K s → K t)
    (hput : ∀ t w, D.inv t → K t → C.inv w → C.guar i (get t) w →
      D.inv (put w t) ∧ D.guar i t (put w t) ∧ K (put w t))
    (hadm : ∀ u v, C.admits i u v) (hfaulty : D.faulty → C.faulty) {t : τ}
    (h : Safe C i Q E p (get t)) (ht : D.inv t) (hK : K t) :
    Safe D i (fun a u => Q a (get u) ∧ D.inv u ∧ K u) (fun e u => E e (get u))
      (p.zoom get put) t := by
  induction p generalizing t with
  | ret a => exact ⟨h, ht, hK⟩
  | fail e => exact h
  | call f o k ih =>
    obtain ⟨hcall, hguar, hk⟩ := h.1 (hadm _ _)
    obtain ⟨hnext, hpromise, hkept⟩ := hput t _ ht hK hcall hguar
    refine ⟨fun _ => ⟨hnext, hpromise, fun u hu hiu => ?_⟩, fun hf b hb u hu hiu => ?_⟩
    · have hpart := hrely _ u hu
      rw [get_put] at hpart
      exact ih _ (hk _ hpart (hinv u hiu)) hiu (hkeep _ u hu hkept)
    · exact ih b (h.2 (hfaulty hf) b hb _ (hrely t u hu) (hinv u hiu)) hiu (hkeep t u hu hK)

/-! ### Stretches of harmless calls -/

namespace Prog

/-- Every call of the program moves the store along `P`, whatever store it meets. -/
def Each (P : σ → σ → Prop) : Prog σ ε α → Prop
  | ret _ => True
  | fail _ => True
  | call f _ k => (∀ s, P s (f s).2) ∧ ∀ b, (k b).Each P

variable {P : σ → σ → Prop}

@[simp] theorem each_pure (a : α) : (pure a : Prog σ ε α).Each P := trivial

variable {g : α → Prog σ ε β}

theorem Each.bind (hp : p.Each P)
    (hg : ∀ a, (g a).Each P) : (p >>= g).Each P := by
  induction p with
  | ret a => exact hg a
  | fail e => trivial
  | call f o k ih => exact ⟨hp.1, fun b => ih b (hp.2 b)⟩

theorem Each.attempt (hp : p.Each P) : p.attempt.Each P := by
  induction p with
  | ret a => trivial
  | fail e => trivial
  | call f o k ih => exact ⟨hp.1, fun b => ih b (hp.2 b)⟩

theorem Each.mapError {δ : Type} {f : ε → δ} (hp : p.Each P) : (p.mapError f).Each P := by
  induction p with
  | ret a => trivial
  | fail e => trivial
  | call g o k ih => exact ⟨hp.1, fun b => ih b (hp.2 b)⟩

/-- What the calls do to the part is what they do to the larger store, seen there. -/
theorem Each.zoom (get_put : ∀ s t, get (put s t) = s)
    (hp : p.Each P) : (p.zoom get put).Each fun s t => P (get s) (get t) := by
  induction p with
  | ret a => trivial
  | fail e => trivial
  | call f o k ih =>
    refine ⟨fun s => ?_, fun b => ih b (hp.2 b)⟩
    dsimp only
    rw [get_put]
    exact hp.1 (get s)

theorem Each.mono {P' : σ → σ → Prop} (hp : p.Each P) (h : ∀ s t, P s t → P' s t) : p.Each P' := by
  induction p with
  | ret a => trivial
  | fail e => trivial
  | call f o k ih => exact ⟨fun s => h s _ (hp.1 s), fun b => ih b (hp.2 b)⟩

@[simp] theorem each_ofExcept (r : Except ε α) : (ofExcept r : Prog σ ε α).Each P := by
  cases r <;> trivial

@[simp] theorem each_failIf (c : Bool) (e : ε) : (failIf c e : Prog σ ε Unit).Each P := by
  cases c <;> trivial

/-- Going on after a check. -/
theorem Each.failIf {c : Bool} {e : ε} {g : Unit → Prog σ ε α} (hg : (g ()).Each P) :
    (Prog.failIf c e >>= g).Each P :=
  (each_failIf c e).bind fun _ => hg

variable {r : Except ε α}

/-- Going on with a result, of which one may know what it is. -/
theorem Each.ofExcept_eq (hg : ∀ a, r = .ok a → (g a).Each P) :
    (Prog.ofExcept r >>= g).Each P := by
  cases r with
  | ok a => exact hg a rfl
  | error e => trivial

theorem Each.ofExcept (hg : ∀ a, (g a).Each P) : (Prog.ofExcept r >>= g).Each P :=
  .ofExcept_eq fun a _ => hg a

theorem each_step {f : σ → α × σ} (h : ∀ s, P s (f s).2) : (step f : Prog σ ε α).Each P :=
  ⟨h, fun _ => trivial⟩

variable {fault : ε}

theorem each_exec {f : σ → Except ε α × σ} (h : ∀ s, P s (f s).2) : (exec fault f).Each P :=
  ⟨h, fun b => each_ofExcept b⟩

theorem each_query {f : σ → Except ε α} (h : ∀ s, P s s) : (query fault f).Each P :=
  each_exec h

/-- What every call does to the store a whole run does, if it composes. -/
theorem Each.run (hp : p.Each P) (hrefl : ∀ s, P s s)
    (htrans : ∀ s t u, P s t → P t u → P s u) (plan : List Bool) (s : σ) :
      P s (p.run plan s).2 := by
  induction p generalizing plan s with
  | ret a => exact hrefl s
  | fail e => exact hrefl s
  | call f o k ih =>
    have hcall : P s (outcome f o (plan.headD false) s).2 := by
      unfold outcome
      split
      · exact hrefl s
      · exact hp.1 s
    exact htrans _ _ _ hcall (ih _ (hp.2 _) _ _)

end Prog

variable {P : σ → σ → Prop}

/-- A program all of whose calls keep the contract and are ones the others could have made
themselves is safe, and its result may be used in any store reachable by interference. -/
theorem Safe.of_each {Q : α → σ → Prop} {E : ε → σ → Prop} {s : σ} (hp : p.Each P)
    (hP : ∀ u v, C.inv u → P u v → C.inv v ∧ C.guar i u v ∧ C.rely i u v) (hs : C.inv s)
    (hQ : ∀ a t, C.rely i s t → C.inv t → Q a t) (hE : ∀ e t, C.rely i s t → C.inv t → E e t) :
      Safe C i Q E p s := by
  induction p generalizing s with
  | ret a => exact hQ a s (C.rely_refl i s) hs
  | fail e => exact hE e s (C.rely_refl i s) hs
  | call f o k ih =>
    obtain ⟨hinv, hguar, hrely⟩ := hP s _ hs (hp.1 s)
    refine ⟨fun _ => ⟨hinv, hguar, fun t hst ht => ?_⟩, fun _ b _ t hst ht => ?_⟩
    · have hst' := C.rely_trans hrely hst
      exact ih _ (hp.2 _) ht (fun a u hu => hQ a u (C.rely_trans hst' hu))
        (fun e u hu => hE e u (C.rely_trans hst' hu))
    · exact ih _ (hp.2 _) ht (fun a u hu => hQ a u (C.rely_trans hst hu))
        (fun e u hu => hE e u (C.rely_trans hst hu))

/-- A program all of whose calls keep the contract is safe, with nothing to be said of its
result. -/
theorem Safe.of_each_inv {s : σ} (hp : p.Each P)
    (hP : ∀ u v, C.inv u → P u v → C.inv v ∧ C.guar i u v) (hs : C.inv s) :
    Safe C i (fun _ _ => True) (fun _ _ => True) p s := by
  induction p generalizing s with
  | ret a => trivial
  | fail e => trivial
  | call f o k ih =>
    obtain ⟨hinv, hguar⟩ := hP s _ hs (hp.1 s)
    exact ⟨fun _ => ⟨hinv, hguar, fun t _ ht => ih _ (hp.2 _) ht⟩,
      fun _ b _ t _ ht => ih b (hp.2 b) ht⟩

/-! ### Programs of which only the result matters -/

/-- Safety with nothing asked of an error. -/
abbrev Ensures (C : Contract ι σ) (i : ι) (Q : α → σ → Prop) (p : Prog σ ε α) (s : σ) : Prop :=
  Safe C i Q (fun _ _ => True) p s

namespace Ensures

variable {Q : α → σ → Prop} {s : σ}

theorem mono {Q' : α → σ → Prop} (h : Ensures C i Q p s)
    (hQ : ∀ a t, Q a t → Q' a t) : Ensures C i Q' p s :=
  Safe.mono h hQ fun _ _ _ => trivial

theorem ofExcept {r : Except ε α} (h : ∀ a, r = .ok a → Q a s) :
    Ensures C i Q (Prog.ofExcept r) s :=
  safe_ofExcept h fun _ _ => trivial

variable {c : Bool}

theorem failIf {e : ε} {Q : Unit → σ → Prop} (h : c = false → Q () s) :
    Ensures C i Q (Prog.failIf c e) s :=
  safe_failIf h fun _ => trivial

variable {g : β → Prog σ ε α}

theorem seq {p : Prog σ ε β} {R : β → σ → Prop} (h : Ensures C i R p s)
    (hg : ∀ b t, R b t → Ensures C i Q (g b) t) : Ensures C i Q (p >>= g) s :=
  Safe.bind (mono h hg)

/-- Going on after a check. -/
theorem bindFailIf {e : ε} {g : Unit → Prog σ ε α} (h : c = false → Ensures C i Q (g ()) s) :
    Ensures C i Q (Prog.failIf c e >>= g) s :=
  Safe.bind (failIf h)

/-- Going on with a result. -/
theorem bindOfExcept {r : Except ε β} (h : ∀ b, r = .ok b → Ensures C i Q (g b) s) :
    Ensures C i Q (Prog.ofExcept r >>= g) s :=
  Safe.bind (ofExcept h)

variable {fault : ε}

theorem query {f : σ → Except ε α} (hinv : C.inv s) (hguar : C.admits i s s → C.guar i s s)
    (h : ∀ a, f s = .ok a → ∀ t, C.rely i s t → C.inv t → Q a t) :
      Ensures C i Q (Prog.query fault f) s :=
  safe_query hinv hguar h fun _ _ _ _ => trivial

/-- A read whose failure is handled: what was read, if anything, holds of the store at that
moment. -/
theorem attempt_query {f : σ → Except ε α} {Q : Except ε α → σ → Prop} (hinv : C.inv s)
    (hguar : C.admits i s s → C.guar i s s)
    (h : ∀ r, r = f s ∨ r = .error fault ∧ C.faulty → ∀ t, C.rely i s t → C.inv t → Q r t) :
    Ensures C i Q (Prog.query fault f).attempt s := by
  refine Safe.attempt (safe_exec (fun hadm => ⟨hinv, hguar hadm⟩) ?_ ?_ ?_)
  · exact fun a ha _ t hst ht => h _ (.inl ha.symm) t hst ht
  · exact fun e he _ t hst ht => h _ (.inl he.symm) t hst ht
  · exact fun hf t hst ht => h _ (.inr ⟨rfl, hf⟩) t hst ht

variable {f : σ → Except ε α × σ}

theorem exec (hstep : C.admits i s (f s).2 → C.inv (f s).2 ∧ C.guar i s (f s).2)
    (hok : ∀ a, (f s).1 = .ok a → C.admits i s (f s).2 →
      ∀ t, C.rely i (f s).2 t → C.inv t → Q a t) : Ensures C i Q (Prog.exec fault f) s :=
  safe_exec hstep hok (fun _ _ _ _ _ _ => trivial) fun _ _ _ _ => trivial

/-- A write whose failure is handled. -/
theorem attempt_exec {Q : Except ε α → σ → Prop}
    (hstep : C.admits i s (f s).2 → C.inv (f s).2 ∧ C.guar i s (f s).2)
    (hdone : C.admits i s (f s).2 → ∀ t, C.rely i (f s).2 t → C.inv t → Q (f s).1 t)
    (hfault : C.faulty → ∀ t, C.rely i s t → C.inv t → Q (.error fault) t) :
    Ensures C i Q (Prog.exec fault f).attempt s := by
  refine Safe.attempt (safe_exec hstep ?_ ?_ hfault)
  · exact fun a ha hadm t hst ht => ha ▸ hdone hadm t hst ht
  · exact fun e he hadm t hst ht => he ▸ hdone hadm t hst ht

/-- **Passing over harmless calls.** If every call of the first part keeps the contract and is one
the others could have made themselves, nothing is to be shown about the calls, and the second part
may start in any store reachable by interference. -/
theorem pass {p : Prog σ ε β} (hp : p.Each P)
    (hP : ∀ u v, C.inv u → P u v → C.inv v ∧ C.guar i u v ∧ C.rely i u v) (hs : C.inv s)
    (h : ∀ b t, C.rely i s t → C.inv t → Ensures C i Q (g b) t) : Ensures C i Q (p >>= g) s :=
  Safe.bind (Safe.of_each hp hP hs h fun _ _ _ _ => trivial)

end Ensures

/-! ### Soundness for pools -/

namespace Pool

variable {α : ι → Type} [DecidableEq ι]

/-- Every step of the schedule is one the contract admits, and the store fails a step only if the
contract says it may. -/
def Admitted (C : Contract ι σ) (c : Pool ι σ ε α) : Schedule ι → Prop
  | [] => True
  | (i, bad) :: rest =>
      C.admits i c.store (c.step i bad).store ∧ (bad = true → C.faulty) ∧
        Admitted C (c.step i bad) rest

/-- The store satisfies the invariant, and each participant is safe in it and in whatever the others
may make of it before its next call. -/
structure Ready (C : Contract ι σ) (Q : (i : ι) → α i → σ → Prop) (E : ι → ε → σ → Prop)
    (c : Pool ι σ ε α) : Prop where
  inv : C.inv c.store
  safe : ∀ i t, C.rely i c.store t → C.inv t → Safe C i (Q i) (E i) (c.procs i) t

variable {Q : (i : ι) → α i → σ → Prop} {E : ι → ε → σ → Prop} {c : Pool ι σ ε α}

/-- What a step does: the invariant is kept, the others see interference, and the participant that
took it is safe where it is. -/
theorem Ready.step_spec (h : Ready C Q E c) (i : ι) (bad : Bool)
    (hadm : C.admits i c.store (c.step i bad).store) (hbad : bad = true → C.faulty) :
    C.inv (c.step i bad).store ∧ (∀ j, i ≠ j → C.rely j c.store (c.step i bad).store) ∧
      ∀ t, C.rely i (c.step i bad).store t → C.inv t →
        Safe C i (Q i) (E i) ((c.step i bad).procs i) t := by
  have hi := h.safe i c.store (C.rely_refl i _) h.inv
  cases hp : c.procs i with
  | ret a =>
    simp only [Pool.step, hp]
    exact ⟨h.inv, fun j _ => C.rely_refl j _, fun t hst ht => hp ▸ h.safe i t hst ht⟩
  | fail e =>
    simp only [Pool.step, hp]
    exact ⟨h.inv, fun j _ => C.rely_refl j _, fun t hst ht => hp ▸ h.safe i t hst ht⟩
  | call f o k =>
    rw [hp] at hi
    simp only [Pool.step, hp, Function.update_self] at hadm ⊢
    by_cases hfault : ∃ b, bad = true ∧ o = some b
    · obtain ⟨b, rfl, rfl⟩ := hfault
      exact ⟨h.inv, fun j _ => C.rely_refl j _, hi.2 (hbad rfl) b rfl⟩
    · have hout : Prog.outcome f o bad c.store = f c.store := by
        cases bad <;> cases o <;> simp_all [Prog.outcome]
      rw [hout] at hadm ⊢
      obtain ⟨h₁, h₂, h₃⟩ := hi.1 hadm
      exact ⟨h₁, fun j hij => C.rely_of_guar hij hadm h₂, h₃⟩

theorem Ready.guar_step (h : Ready C Q E c) (i : ι) (bad : Bool)
    (hadm : C.admits i c.store (c.step i bad).store)
    (hrefl : ∀ s, C.inv s → C.guar i s s) : C.guar i c.store (c.step i bad).store := by
  have hi := h.safe i c.store (C.rely_refl i _) h.inv
  unfold Pool.step at hadm ⊢
  split
  · rename_i f o k hp
    rw [hp] at hi hadm
    cases bad <;> cases o
    · exact (hi.1 hadm).2.1
    · exact (hi.1 hadm).2.1
    · exact (hi.1 hadm).2.1
    · exact hrefl _ h.inv
  · exact hrefl _ h.inv
  · exact hrefl _ h.inv

/-- The other participants have not moved. -/
theorem procs_step_of_ne {i j : ι} (bad : Bool) (hij : i ≠ j) :
    (c.step i bad).procs j = c.procs j := by
  unfold Pool.step
  split
  · exact Function.update_of_ne hij.symm _ _
  · rfl
  · rfl

theorem step_of_read {fault : ε} {f : σ → Except ε β} {k : Except ε β → Prog σ ε (α i)} (bad : Bool)
    (hp : c.procs i = .call (fun s => (f s, s)) (some (.error fault)) k) :
    (c.step i bad).store = c.store ∧
      ((c.step i bad).procs i = k (.error fault) ∨ (c.step i bad).procs i = k (f c.store)) := by
  simp only [Pool.step, hp, Function.update_self]
  cases bad with
  | false => exact ⟨rfl, .inr rfl⟩
  | true => exact ⟨rfl, .inl rfl⟩

theorem Ready.step (h : Ready C Q E c) (i : ι) (bad : Bool)
    (hadm : C.admits i c.store (c.step i bad).store) (hbad : bad = true → C.faulty) :
      Ready C Q E (c.step i bad) := by
  obtain ⟨hinv, hothers, hself⟩ := h.step_spec i bad hadm hbad
  refine ⟨hinv, fun j t hst ht => ?_⟩
  by_cases hij : i = j
  · subst hij
    exact hself t hst ht
  · rw [procs_step_of_ne bad hij]
    exact h.safe j t (C.rely_trans (hothers j hij) hst) ht

/-- **Soundness.** Participants that start safe are safe after every admitted schedule. -/
theorem Ready.exec (h : Ready C Q E c) (sched : Schedule ι) (hs : Admitted C c sched) :
    Ready C Q E (c.exec sched) := by
  induction sched generalizing c with
  | nil => exact h
  | cons e rest ih => exact ih (h.step e.1 e.2 hs.1 hs.2.1) hs.2.2

/-- A participant that the schedule does not mention has not moved. -/
theorem procs_exec_of_not_mem (sched : Schedule ι) (h : ∀ e ∈ sched, e.1 ≠ i) :
    (c.exec sched).procs i = c.procs i := by
  induction sched generalizing c with
  | nil => rfl
  | cons e rest ih =>
    exact (ih fun e' he' => h e' (List.mem_cons_of_mem e he')).trans
      (procs_step_of_ne e.2 (h e List.mem_cons_self))

/-- A participant that has failed stays so. -/
theorem procs_exec_of_fail {e : ε} (h : c.procs i = .fail e) (sched : Schedule ι) :
    (c.exec sched).procs i = .fail e := by
  induction sched generalizing c with
  | nil => exact h
  | cons e' rest ih =>
    refine ih ?_
    by_cases hi : e'.1 = i
    · subst hi
      rw [Pool.step, h]
      exact h
    · rw [procs_step_of_ne e'.2 hi, h]

/-- What a participant that the schedule does not mention sees of it is interference. -/
theorem Ready.rely_exec (h : Ready C Q E c) (sched : Schedule ι)
    (hs : Admitted C c sched) (hi : ∀ e ∈ sched, e.1 ≠ i) :
      C.rely i c.store (c.exec sched).store := by
  induction sched generalizing c with
  | nil => exact C.rely_refl i _
  | cons e rest ih =>
    obtain ⟨-, hothers, -⟩ := h.step_spec e.1 e.2 hs.1 hs.2.1
    refine C.rely_trans (hothers i (hi e List.mem_cons_self)) ?_
    exact ih (h.step e.1 e.2 hs.1 hs.2.1) hs.2.2 fun e' he' => hi e' (List.mem_cons_of_mem e he')

theorem admitted_of_all (hadm : ∀ i u v, C.admits i u v) (sched : Schedule ι)
    (hfaulty : ∀ e ∈ sched, e.2 = true → C.faulty) : Admitted C c sched := by
  induction sched generalizing c with
  | nil => trivial
  | cons e rest ih =>
    exact ⟨hadm _ _ _, hfaulty e List.mem_cons_self,
      ih fun e' he' => hfaulty e' (List.mem_cons_of_mem e he')⟩

/-- When every call of every participant moves the store along a relation, a step does, or changes
nothing. -/
theorem step_of_each {P : ι → σ → σ → Prop} (h : ∀ j, (c.procs j).Each (P j)) (i : ι) (bad : Bool) :
    ((c.step i bad).store = c.store ∨ P i c.store (c.step i bad).store) ∧
      ∀ j, ((c.step i bad).procs j).Each (P j) := by
  have hi := h i
  unfold Pool.step
  split
  · rename_i f o k hp
    rw [hp] at hi
    refine ⟨?_, fun j => ?_⟩
    · cases bad <;> cases o
      · exact .inr (hi.1 _)
      · exact .inr (hi.1 _)
      · exact .inr (hi.1 _)
      · exact .inl rfl
    · by_cases hij : j = i
      · subst hij
        simp only [Function.update_self]
        exact hi.2 _
      · simp only [Function.update_of_ne hij]
        exact h j
  · exact ⟨.inl rfl, h⟩
  · exact ⟨.inl rfl, h⟩

/-- What every call of a participant does is true of what it has left to do. -/
theorem each_procs_exec {j : ι} (h : (c.procs j).Each P) (sched : Schedule ι) :
    ((c.exec sched).procs j).Each P := by
  induction sched generalizing c with
  | nil => exact h
  | cons e rest ih =>
    refine ih ?_
    by_cases hij : e.1 = j
    · subst hij
      unfold Pool.step
      split
      · rename_i f o k hp
        rw [hp] at h
        simp only [Function.update_self]
        exact h.2 _
      · exact h
      · exact h
    · rw [procs_step_of_ne e.2 hij]
      exact h

/-- What every call of every participant does is true of what they have left to do. -/
theorem each_exec {P : ι → σ → σ → Prop} (h : ∀ j, (c.procs j).Each (P j))
    (sched : Schedule ι) :
    ∀ j, ((c.exec sched).procs j).Each (P j) :=
  fun j => each_procs_exec (h j) sched

variable {I : σ → Prop}

/-- What every call of every participant keeps is true of the store along any schedule. -/
theorem inv_exec {P : ι → σ → σ → Prop} (h : ∀ j, (c.procs j).Each (P j))
    (hP : ∀ j s t, P j s t → I s → I t) (hI : I c.store) (sched : Schedule ι) :
      I (c.exec sched).store := by
  induction sched generalizing c with
  | nil => exact hI
  | cons e rest ih =>
    obtain ⟨hstore, hnext⟩ := step_of_each h e.1 e.2
    refine ih hnext ?_
    rcases hstore with hsame | hstep
    · exact hsame ▸ hI
    · exact hP e.1 _ _ hstep hI

/-- What is true of the store at the end of a schedule and not at its beginning became true in one
of its steps. -/
theorem exists_step {sched : Schedule ι} (hbefore : ¬I c.store) (hafter : I (c.exec sched).store) :
    ∃ pre e post, sched = pre ++ e :: post ∧ ¬I (c.exec pre).store ∧
      I ((c.exec pre).step e.1 e.2).store := by
  induction sched generalizing c with
  | nil => exact absurd hafter hbefore
  | cons e rest ih =>
    by_cases hfirst : I (c.step e.1 e.2).store
    · exact ⟨[], e, rest, rfl, hbefore, hfirst⟩
    · obtain ⟨pre, e', post, rfl, hno, hyes⟩ := ih hfirst hafter
      exact ⟨e :: pre, e', post, rfl, hno, hyes⟩

omit [DecidableEq ι] in
theorem Ready.post (h : Ready C Q E c) {a : α i} (hret : c.procs i = .ret a) : Q i a c.store := by
  have := h.safe i c.store (C.rely_refl i _) h.inv
  rwa [hret] at this

end Pool

/-! ### Soundness for a program that runs alone -/

namespace Contract

/-- The contract of one participant that may do anything, while the others move along `R` only. -/
def solo (i : ι) (R : σ → σ → Prop) (faulty : Prop) (refl : ∀ s, R s s)
    (trans : ∀ {s t u}, R s t → R t u → R s u) : Contract ι σ where
  inv := fun _ => True
  rely := fun j s t => j = i → R s t
  guar := fun j s t => j ≠ i → R s t
  admits := fun _ _ _ => True
  faulty := faulty
  rely_refl := fun _ s _ => refl s
  rely_trans := fun h h' hi => trans (h hi) (h' hi)
  rely_of_guar := fun hij _ h hj => h (hj ▸ hij)

end Contract

/-- **Sequential soundness.** A program that is safe keeps the invariant when it runs alone, moves
the store along the promised relation and satisfies its postcondition, whichever of its calls
fail. -/
theorem Safe.run {Q : α → σ → Prop} {E : ε → σ → Prop} {s : σ}
    (h : Safe C i Q E p s) (hs : C.inv s) (hadm : ∀ u v, C.admits i u v) (plan : List Bool)
    (hplan : ∀ bad ∈ plan, bad = true → C.faulty) :
    C.inv (p.run plan s).2 ∧ Relation.ReflTransGen (C.guar i) s (p.run plan s).2 ∧
      (∀ a, (p.run plan s).1 = .ok a → Q a (p.run plan s).2) ∧
      ∀ e, (p.run plan s).1 = .error e → E e (p.run plan s).2 := by
  induction p generalizing s plan with
  | ret a =>
    refine ⟨hs, .refl, fun b hb => ?_, fun e he => by cases he⟩
    obtain rfl : a = b := by simpa [Prog.run] using hb
    exact h
  | fail e =>
    refine ⟨hs, .refl, (fun b hb => by cases hb), fun e' he => ?_⟩
    obtain rfl : e = e' := by simpa [Prog.run] using he
    exact h
  | call f o k ih =>
    have htail : ∀ bad ∈ plan.tail, bad = true → C.faulty := fun bad hbad =>
      hplan bad (List.mem_of_mem_tail hbad)
    by_cases hfault : ∃ b, plan.headD false = true ∧ o = some b
    · obtain ⟨b, hhead, rfl⟩ := hfault
      have hfaulty : C.faulty := by
        cases plan with
        | nil => simp at hhead
        | cons bad rest => exact hplan bad List.mem_cons_self (by simpa using hhead)
      have hk := h.2 hfaulty b rfl s (C.rely_refl i s) hs
      simpa only [Prog.run, Prog.outcome, hhead] using ih b hk hs plan.tail htail
    · have hout : Prog.outcome f o (plan.headD false) s = f s := by
        cases hb : plan.headD false <;> cases o <;> simp_all [Prog.outcome]
      obtain ⟨hinv, hG, hk⟩ := h.1 (hadm _ _)
      obtain ⟨h₁, h₂, h₃⟩ := ih _ (hk _ (C.rely_refl i _) hinv) hinv plan.tail htail
      simp only [Prog.run, hout]
      exact ⟨h₁, Relation.ReflTransGen.head hG h₂, h₃⟩

end Interleave
