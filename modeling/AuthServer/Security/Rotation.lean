import AuthServer.Service.Serve
import AuthServer.Service.Tables
import AuthServer.Service.TokenRules

/-!
# Refresh rotation

A refresh looks its token up, checks the family, consumes the token, mints, looks at the family
again and stores the successor, each in a call of its own. This module shows that rotation is linear
all the same, whatever else the server does meanwhile and whichever calls fail.

## The argument

Between consuming a token and storing its successor a refresh holds a *ticket* for the family: its
own part of the history says that it has consumed a token of the family and created none. Consuming
needs an unconsumed token, so while a ticket is out the family has no unconsumed token and nobody
else can obtain a ticket; creating a token needs the ticket and gives it back. A redemption creates
a token too, but in a family that did not exist before.

Purging deletes rows, so a hash that was consumed need not be in the table any more. That it is not
consumed a second time rests on random strings not repeating. -/

namespace AuthServer

open Interleave Table
open TokenStore (spend)

namespace Rotation

/-! ### The history of rotation -/

def isRotation : Event → Bool
  | .refreshConsumed _ _ => true
  | .refreshCreated _ _ => true
  | _ => false

def turns (w : World) : List Entry :=
  w.journal.filter fun e => isRotation e.event

/-- What one request did to refresh tokens, newest first. -/
def mine (i : ReqID) (w : World) : List Event :=
  ((turns w).filter fun e => e.ctx == i).map Entry.event

def consumedHash (e : Entry) : Option String :=
  match e.event with
  | .refreshConsumed h _ => some h
  | _ => none

/-- The hashes of the tokens that have been consumed by presenting them. -/
def consumed (w : World) : List String :=
  (turns w).filterMap consumedHash

/-! ### The invariant -/

/-- What holds of the store between any two calls. -/
structure Inv (env : Env) (w : World) : Prop where
  family_unique : UniqueKey (fun f => some f.id) w.families
  id_unique : UniqueKey (fun t => some t.id) w.refreshTokens
  hash_unique : UniqueKey (fun t => some t.tokenHash) w.refreshTokens
  /-- A refresh token belongs to a family. -/
  owned : ∀ t ∈ w.refreshTokens, ∃ f ∈ w.families, f.id = t.familyID
  /-- Strings still to be drawn are not in use. -/
  fresh_id : ∀ t ∈ w.refreshTokens, ¬Undrawn env w t.id
  fresh_hash : ∀ t ∈ w.refreshTokens, ∀ s, Undrawn env w s → t.tokenHash ≠ env.hashSHA256 s
  fresh_consumed : ∀ s, Undrawn env w s → env.hashSHA256 s ∉ consumed w
  /-- A family has at most one unconsumed token. -/
  linear : ∀ t ∈ w.refreshTokens, ∀ t' ∈ w.refreshTokens, t.familyID = t'.familyID →
    t.consumedAt = none → t'.consumedAt = none → t = t'
  /-- No token is consumed twice. -/
  once : (consumed w).Nodup
  spent : ∀ t ∈ w.refreshTokens, t.tokenHash ∈ consumed w → t.consumedAt ≠ none
  /-- While a ticket is out, its family has no unconsumed token. -/
  ticket : ∀ i h f, mine i w = [.refreshConsumed h f] →
    (∃ g ∈ w.families, g.id = f) ∧ ∀ t ∈ w.refreshTokens, t.familyID = f → t.consumedAt ≠ none
  ticket_unique : ∀ i j h h' f, mine i w = [.refreshConsumed h f] →
    mine j w = [.refreshConsumed h' f] → i = j

/-- The store before anything happened satisfies the invariant. -/
theorem inv_empty (env : Env) (clock : Time) : Inv env (World.empty clock) := by
  constructor <;> simp [World.empty, UniqueKey, consumed, mine, turns]

/-! ### Steps that create nothing -/

/-- A token keeps its identity and does not become unconsumed. -/
def TokenFades (t t' : RefreshToken) : Prop :=
  (t'.id = t.id ∧ t'.tokenHash = t.tokenHash ∧ t'.familyID = t.familyID) ∧
    (t'.consumedAt = none → t.consumedAt = none)

/-- Nothing happened to families and refresh tokens but revoking, consuming and deleting, and the
history of rotation is the same. -/
structure Faded (w w' : World) : Prop where
  families : ∃ g : Family → Family, (∀ f, Family.Later f (g f)) ∧ w'.families = w.families.map g
  tokens : ∃ g : RefreshToken → RefreshToken, (∀ t, TokenFades t (g t)) ∧
    w'.refreshTokens.Sublist (w.refreshTokens.map g)
  turns : turns w' = turns w
  drawn : ∀ j, w.drawn j ≤ w'.drawn j

theorem tokenFades_refl (t : RefreshToken) : TokenFades t t := ⟨⟨rfl, rfl, rfl⟩, id⟩

/-- The tables are literally the same. -/
theorem Faded.of_eq {w w' : World} (hf : w'.families = w.families)
    (ht : w'.refreshTokens = w.refreshTokens) (hj : Rotation.turns w' = Rotation.turns w)
    (hd : ∀ j, w.drawn j ≤ w'.drawn j) : Faded w w' :=
  ⟨⟨id, Family.Later.refl, by simp [hf]⟩, ⟨id, tokenFades_refl, by simp [ht]⟩, hj, hd⟩

theorem Faded.of_quiet {w w' : World} (h : w.Quiet w') : Faded w w' := by
  obtain ⟨_, _, _, hd, rfl⟩ := h
  exact .of_eq rfl rfl rfl hd

variable {ctx : ReqID} {e : Event}

/-- Noting something else than rotation changes nothing here. -/
theorem turns_note {w : World} (h : isRotation e = false) : turns (w.note ctx e) = turns w := by
  simp [turns, World.note, h]

variable {env : Env} {w w' : World} {f : Family}

theorem Faded.mem_families (h : Faded w w') (hf : f ∈ w.families) : ∃ f' ∈ w'.families,
    Family.Later f f' := by
  obtain ⟨g, hg, heq⟩ := h.families
  exact ⟨g f, heq ▸ List.mem_map_of_mem hf, hg f⟩

variable {t' : RefreshToken}

theorem Faded.of_mem_tokens (h : Faded w w') (ht : t' ∈ w'.refreshTokens) :
    ∃ t ∈ w.refreshTokens, TokenFades t t' := by
  obtain ⟨g, hg, hsub⟩ := h.tokens
  obtain ⟨t, htm, rfl⟩ := List.mem_map.mp (hsub.subset ht)
  exact ⟨t, htm, hg t⟩

theorem Faded.mine_eq (h : Faded w w') (i : ReqID) : mine i w' = mine i w := by
  rw [mine, mine, h.turns]

theorem Faded.consumed_eq (h : Faded w w') : consumed w' = consumed w := by
  rw [consumed, consumed, h.turns]

/-- **Steps that create nothing keep the invariant.** -/
theorem Inv.faded (hw : Inv env w) (h : Faded w w') : Inv env w' where
  family_unique := by
    obtain ⟨g, hg, heq⟩ := h.families
    exact hw.family_unique.of_subset_map (fun f => congrArg some (hg f).id_eq)
      (heq ▸ List.Subset.refl _)
  id_unique := by
    obtain ⟨g, hg, hsub⟩ := h.tokens
    exact hw.id_unique.of_subset_map (fun t => congrArg some (hg t).1.1) hsub.subset
  hash_unique := by
    obtain ⟨g, hg, hsub⟩ := h.tokens
    exact hw.hash_unique.of_subset_map (fun t => congrArg some (hg t).1.2.1) hsub.subset
  owned := by
    intro t' ht'
    obtain ⟨t, ht, hfade⟩ := h.of_mem_tokens ht'
    obtain ⟨f, hf, hid⟩ := hw.owned t ht
    obtain ⟨f', hf', hff⟩ := h.mem_families hf
    exact ⟨f', hf', by rw [hff.id_eq, hid, hfade.1.2.2]⟩
  fresh_id := by
    intro t' ht' hun
    obtain ⟨t, ht, hfade⟩ := h.of_mem_tokens ht'
    exact hw.fresh_id t ht (hfade.1.1 ▸ hun.of_le h.drawn)
  fresh_hash := by
    intro t' ht' s hs
    obtain ⟨t, ht, hfade⟩ := h.of_mem_tokens ht'
    rw [hfade.1.2.1]
    exact hw.fresh_hash t ht s (hs.of_le h.drawn)
  fresh_consumed := fun s hs => h.consumed_eq ▸ hw.fresh_consumed s (hs.of_le h.drawn)
  linear := by
    obtain ⟨g, hg, hsub⟩ := h.tokens
    intro a ha b hb hab hna hnb
    obtain ⟨t, ht, rfl⟩ := List.mem_map.mp (hsub.subset ha)
    obtain ⟨t', ht', rfl⟩ := List.mem_map.mp (hsub.subset hb)
    rw [(hg t).1.2.2, (hg t').1.2.2] at hab
    rw [hw.linear t ht t' ht' hab ((hg t).2 hna) ((hg t').2 hnb)]
  once := h.consumed_eq ▸ hw.once
  spent := by
    intro t' ht' hmem hnone
    obtain ⟨t, ht, hfade⟩ := h.of_mem_tokens ht'
    rw [h.consumed_eq, hfade.1.2.1] at hmem
    exact hw.spent t ht hmem (hfade.2 hnone)
  ticket := by
    intro i hash f hmine
    rw [h.mine_eq] at hmine
    obtain ⟨⟨g, hg, hgf⟩, hnone⟩ := hw.ticket i hash f hmine
    obtain ⟨g', hg', hgg⟩ := h.mem_families hg
    refine ⟨⟨g', hg', hgg.id_eq.trans hgf⟩, fun t' ht' hf hopen => ?_⟩
    obtain ⟨t, ht, hfade⟩ := h.of_mem_tokens ht'
    exact hnone t ht (hfade.1.2.2 ▸ hf) (hfade.2 hopen)
  ticket_unique := fun i j hash hash' f hi hj =>
    hw.ticket_unique i j hash hash' f (h.mine_eq i ▸ hi) (h.mine_eq j ▸ hj)

theorem tokenFades_consume (t : RefreshToken) (now : Time) : TokenFades t { t with
    consumedAt := some now } :=
  ⟨⟨rfl, rfl, rfl⟩, fun h => by cases h⟩

theorem tokens_updateWhere (p : RefreshToken → Bool) (now : Time) (l : List RefreshToken) :
    ∃ g : RefreshToken → RefreshToken, (∀ t, TokenFades t (g t)) ∧
      (updateWhere p (fun t => { t with consumedAt := some now }) l).Sublist (l.map g) := by
  obtain ⟨g, hg, heq⟩ := exists_map_updateWhere tokenFades_refl (tokenFades_consume · now)
  exact ⟨g, hg, heq ▸ List.Sublist.refl _⟩

/-! ### The steps of the services -/

def rotates : Write → Prop
  | .openFamily _ _ _ _ _ _ => True
  | .createRefreshToken _ _ _ => True
  | .consumeRefreshToken _ => True
  | .release _ e => isRotation e = true
  | _ => False

variable {x : Write}

theorem turns_run (env : Env) (ctx : ReqID) (hx : ¬rotates x) (w : World) :
    turns (x.run env ctx w) = turns w := by
  rcases (x.frame env ctx w).journal with h | ⟨e, he, h⟩
  · rw [turns, turns, h]
  · have hother : isRotation e = false := by
      cases x with
      | openFamily => exact absurd trivial hx
      | createRefreshToken => exact absurd trivial hx
      | consumeRefreshToken => exact absurd trivial hx
      | consumeCode =>
        obtain ⟨id, rfl⟩ := he
        rfl
      | revokeFamiliesOfUser =>
        obtain ⟨ids, rfl⟩ := he
        rfl
      | release c e' =>
        obtain rfl : e = e' := he
        exact Bool.eq_false_iff.mpr hx
      | _ => first | exact he.elim | (obtain rfl := he; rfl)
    simp [turns, h, hother]

/-- Every other write creates no token and consumes none by presenting it. -/
theorem faded_run (env : Env) (ctx : ReqID) (hx : ¬rotates x) (w : World) :
    Faded w (x.run env ctx w) := by
  have hframe := x.frame env ctx w
  have hturns := turns_run env ctx hx w
  have hfamilies : ∃ g : Family → Family, (∀ f, Family.Later f (g f)) ∧
      (x.run env ctx w).families = w.families.map g := by
    rcases families_run env ctx x w with h | ⟨f, ⟨_, _, _, _, _, rfl⟩, -⟩
    · exact h
    · exact absurd trivial hx
  have htokens : ∃ g : RefreshToken → RefreshToken, (∀ t, TokenFades t (g t)) ∧
      w.refreshTokens.Sublist (w.refreshTokens.map g) := ⟨id, tokenFades_refl, by simp⟩
  cases x with
  | openFamily => exact absurd trivial hx
  | createRefreshToken => exact absurd trivial hx
  | consumeRefreshToken => exact absurd trivial hx
  | revokeFamily id =>
    have hconsumed := tokens_updateWhere (fun t => t.familyID == id && t.consumedAt.isNone) w.clock
      w.refreshTokens
    refine ⟨hfamilies, ?_, hturns, hframe.drawn⟩
    simp only [Write.run, TokenStore.revokeFamily]
    split <;> exact hconsumed
  | revokeFamiliesOfClient id => exact ⟨hfamilies, htokens, hturns, hframe.drawn⟩
  | revokeFamiliesOfUser id => exact ⟨hfamilies, htokens, hturns, hframe.drawn⟩
  | maintain m =>
    cases m with
    | purgeTokens =>
      refine ⟨hfamilies, ⟨id, tokenFades_refl, ?_⟩, hturns, hframe.drawn⟩
      rw [List.map_id]
      exact List.filter_sublist
    | _ => exact ⟨hfamilies, htokens, hturns, hframe.drawn⟩
  | _ =>
    exact .of_eq (hframe.same .families (by simp [Write.touches]))
      (hframe.same .refreshTokens (by simp [Write.touches])) hturns hframe.drawn

/-! ### Consuming and creating -/

theorem turns_note_rotation (h : isRotation e = true) : turns (w.note ctx e) =
    ⟨ctx, e⟩ :: turns w := by
  simp [turns, World.note, h]

theorem mine_note_self (h : isRotation e = true) : mine ctx (w.note ctx e) = e :: mine ctx w := by
  simp [mine, turns_note_rotation h]

variable {j : ReqID}

theorem mine_note_of_ne (hj : j ≠ ctx) : mine j (w.note ctx e) = mine j w := by
  by_cases h : isRotation e = true
  · simp [mine, turns_note_rotation h, Ne.symm hj]
  · rw [mine, mine, turns_note (by simpa using h)]

variable {i : ReqID} {t : RefreshToken}

/-- **Consuming keeps the invariant**, and hands the ticket of the family to the request, if it did
nothing before. -/
theorem Inv.consume (hw : Inv env w) (ht : t ∈ w.refreshTokens) (hopen : t.consumedAt = none) :
    Inv env (spend i t.id t w) := by
  have hnotyet : t.tokenHash ∉ consumed w := fun h => hw.spent t ht h hopen
  have hconsumed : consumed (spend i t.id t w) = t.tokenHash :: consumed w := by
    rw [consumed, spend, turns_note_rotation rfl]
    rfl
  -- after the update, nothing unconsumed is left in the family
  have hrow : ∀ r ∈ (spend i t.id t w).refreshTokens, r.consumedAt = none →
      r ∈ w.refreshTokens ∧ r ≠ t := by
    intro r hr hnone
    obtain ⟨r₀, hr₀, rfl⟩ := mem_updateWhere.mp hr
    split at hnone
    · cases hnone
    · rename_i hkeep
      rw [if_neg hkeep]
      refine ⟨hr₀, fun heq => hkeep ?_⟩
      simp [heq, hopen]
  have hfade : Faded w { w with refreshTokens := (spend i t.id t w).refreshTokens } :=
    ⟨⟨id, Family.Later.refl, by simp⟩, tokens_updateWhere _ _ _, rfl, fun _ => le_rfl⟩
  have hinv := hw.faded hfade
  have hclosed : ∀ r ∈ (spend i t.id t w).refreshTokens, r.familyID = t.familyID →
      r.consumedAt ≠ none := by
    intro r hr hfam hnone
    obtain ⟨hr₀, hne⟩ := hrow r hr hnone
    exact hne (hw.linear r hr₀ t ht hfam hnone hopen)
  -- a ticket is the request's new one, or an old one
  have hticket : ∀ j h f, mine j (spend i t.id t w) = [.refreshConsumed h f] →
      (j = i ∧ f = t.familyID) ∨ (j ≠ i ∧ mine j w = [.refreshConsumed h f]) := by
    intro j h f hm
    by_cases hj : j = i
    · subst hj
      rw [spend, mine_note_self rfl] at hm
      have := (List.cons.inj hm).1
      simp only [Event.refreshConsumed.injEq] at this
      exact .inl ⟨rfl, this.2.symm⟩
    · rw [spend, mine_note_of_ne hj] at hm
      exact .inr ⟨hj, hm⟩
  have hother : ∀ j h, mine j w ≠ [.refreshConsumed h t.familyID] := fun j h hm =>
    (hw.ticket j h t.familyID hm).2 t ht rfl hopen
  exact
    { family_unique := hinv.family_unique
      id_unique := hinv.id_unique
      hash_unique := hinv.hash_unique
      owned := hinv.owned
      fresh_id := hinv.fresh_id
      fresh_hash := hinv.fresh_hash
      fresh_consumed := fun s hs hmem => by
        rw [hconsumed] at hmem
        rcases List.mem_cons.mp hmem with h | h
        · exact hw.fresh_hash t ht s hs h.symm
        · exact hw.fresh_consumed s hs h
      linear := hinv.linear
      once := by
        rw [hconsumed]
        exact List.nodup_cons.mpr ⟨hnotyet, hw.once⟩
      spent := by
        intro r hr hmem hnone
        obtain ⟨hr₀, hne⟩ := hrow r hr hnone
        rw [hconsumed] at hmem
        rcases List.mem_cons.mp hmem with h | h
        · exact hne (hw.hash_unique r hr₀ t ht _ rfl (congrArg some h.symm))
        · exact hw.spent r hr₀ h hnone
      ticket := by
        intro j h f hm
        rcases hticket j h f hm with ⟨-, rfl⟩ | ⟨-, hold⟩
        · exact ⟨hw.owned t ht, hclosed⟩
        · exact hinv.ticket j h f hold
      ticket_unique := by
        intro j k h h' f hj hk
        rcases hticket j h f hj with ⟨rfl, rfl⟩ | ⟨-, hj'⟩ <;>
          rcases hticket k h' _ hk with ⟨rfl, hf⟩ | ⟨-, hk'⟩
        · rfl
        · exact absurd hk' (hother k h')
        · exact absurd (hf ▸ hj') (hother j h)
        · exact hw.ticket_unique j k h h' f hj' hk' }

def createToken (i : ReqID) (t : RefreshToken) (drawn : ReqID → ℕ) (w : World) : World :=
  { w with refreshTokens := w.refreshTokens ++ [t], drawn := drawn }.note i
    (.refreshCreated t.tokenHash t.familyID)

/-- **Creating keeps the invariant**, for a new row in a family that has no unconsumed token and for
which nobody else holds the ticket. -/
theorem Inv.create (hw : Inv env w) {drawn : ReqID → ℕ} (hdrawn : ∀ j, w.drawn j ≤ drawn j)
    (hnew : ∀ r ∈ w.refreshTokens, r.id ≠ t.id ∧ r.tokenHash ≠ t.tokenHash)
    (hfamily : ∃ f ∈ w.families, f.id = t.familyID)
    (hid : ¬Undrawn env { w with drawn := drawn } t.id)
    (hhash : ∀ s, Undrawn env { w with drawn := drawn } s → t.tokenHash ≠ env.hashSHA256 s)
    (hnotyet : t.tokenHash ∉ consumed w)
    (hclosed : ∀ r ∈ w.refreshTokens, r.familyID = t.familyID → r.consumedAt ≠ none)
    (htickets : ∀ j h, mine j w = [.refreshConsumed h t.familyID] → j = i) :
    Inv env (createToken i t drawn w) := by
  have hundrawn : ∀ s, Undrawn env (createToken i t drawn w) s → Undrawn env w s :=
    fun s hs => hs.of_le hdrawn
  have hconsumed : consumed (createToken i t drawn w) = consumed w := by
    rw [consumed, createToken, turns_note_rotation rfl]
    rfl
  have hmem : ∀ r ∈ (createToken i t drawn w).refreshTokens, r ∈ w.refreshTokens ∨ r = t := by
    intro r hr
    rcases List.mem_append.mp hr with h | h
    · exact .inl h
    · exact .inr (List.mem_singleton.mp h)
  have hticket : ∀ j h f, mine j (createToken i t drawn w) = [.refreshConsumed h f] →
      j ≠ i ∧ mine j w = [.refreshConsumed h f] := by
    intro j h f hm
    by_cases hj : j = i
    · subst hj
      rw [createToken, mine_note_self rfl] at hm
      cases (List.cons.inj hm).1
    · rw [createToken, mine_note_of_ne hj] at hm
      exact ⟨hj, hm⟩
  exact
    { family_unique := hw.family_unique
      id_unique := hw.id_unique.append_singleton fun k hk r hr hrk =>
        (hnew r hr).1 (Option.some.inj (hrk.trans hk.symm))
      hash_unique := hw.hash_unique.append_singleton fun k hk r hr hrk =>
        (hnew r hr).2 (Option.some.inj (hrk.trans hk.symm))
      owned := fun r hr => by
        rcases hmem r hr with h | rfl
        · exact hw.owned r h
        · exact hfamily
      fresh_id := fun r hr => by
        rcases hmem r hr with h | rfl
        · exact fun hun => hw.fresh_id r h (hundrawn _ hun)
        · exact hid
      fresh_hash := fun r hr s hs => by
        rcases hmem r hr with h | rfl
        · exact hw.fresh_hash r h s (hundrawn s hs)
        · exact hhash s hs
      fresh_consumed := fun s hs => hconsumed ▸ hw.fresh_consumed s (hundrawn s hs)
      linear := by
        intro r hr r' hr' hfam hnone hnone'
        rcases hmem r hr with h | rfl <;> rcases hmem r' hr' with h' | rfl
        · exact hw.linear r h r' h' hfam hnone hnone'
        · exact absurd hnone (hclosed r h hfam)
        · exact absurd hnone' (hclosed r' h' hfam.symm)
        · rfl
      once := hconsumed ▸ hw.once
      spent := by
        intro r hr hin
        rw [hconsumed] at hin
        rcases hmem r hr with h | rfl
        · exact hw.spent r h hin
        · exact absurd hin hnotyet
      ticket := by
        intro j h f hm
        obtain ⟨hj, hold⟩ := hticket j h f hm
        obtain ⟨hfam, hrows⟩ := hw.ticket j h f hold
        refine ⟨hfam, fun r hr hrf => ?_⟩
        rcases hmem r hr with hr | rfl
        · exact hrows r hr hrf
        · exact absurd (htickets j h (hrf ▸ hold)) hj
      ticket_unique := fun j k h h' f hj hk =>
        hw.ticket_unique j k h h' f (hticket j h f hj).2 (hticket k h' f hk).2 }

/-! ### The contract -/

/-- What any step does to families and refresh tokens, as far as others can tell: families stay and
do not come back to life, and a token is one that was there or has a new identifier. -/
structure Moves (env : Env) (w w' : World) : Prop where
  drawn : ∀ j, w.drawn j ≤ w'.drawn j
  families : Grows Family.Later w.families w'.families
  tokens : ∀ t' ∈ w'.refreshTokens, Undrawn env w t'.id ∨
    ∃ t ∈ w.refreshTokens, t'.id = t.id ∧ t'.tokenHash = t.tokenHash ∧ t'.familyID = t.familyID

theorem Moves.refl (w : World) : Moves env w w :=
  ⟨fun _ => le_rfl, Grows.refl Family.Later.refl _, fun t ht => .inr ⟨t, ht, rfl, rfl, rfl⟩⟩

theorem Moves.trans {w'' : World} (h : Moves env w w') (h' : Moves env w' w'') :
    Moves env w w'' where
  drawn := fun j => (h.drawn j).trans (h'.drawn j)
  families := h.families.trans Family.Later.trans h'.families
  tokens := by
    intro t'' ht''
    rcases h'.tokens t'' ht'' with hun | ⟨t', ht', hid', hhash', hfam'⟩
    · exact .inl (hun.of_le h.drawn)
    · rcases h.tokens t' ht' with hun | ⟨t, ht, hid, hhash, hfam⟩
      · exact .inl (hid' ▸ hun)
      · exact .inr ⟨t, ht, hid'.trans hid, hhash'.trans hhash, hfam'.trans hfam⟩

theorem Moves.of_faded (h : Faded w w') : Moves env w w' where
  drawn := h.drawn
  families := fun _ hf => h.mem_families hf
  tokens := by
    intro t' ht'
    obtain ⟨t, ht, hfade⟩ := h.of_mem_tokens ht'
    exact .inr ⟨t, ht, hfade.1⟩

theorem Moves.active_before (h : Moves env w w') (hw' : Inv env w') {g : Family}
    (hg : g ∈ w.families) (hf : f ∈ w'.families) (hid : g.id = f.id) (hactive : f.isActive = true) :
    g.isActive = true := by
  have hlater : Family.Later g f := h.families.of_key hw'.family_unique
    (fun hab => congrArg some hab.id_eq) hg hf (congrArg some hid) rfl
  exact hlater.active hactive

/-- The row a token has when it is consumed is the row it had when it was looked up. -/
theorem Moves.same_token (h : Moves env w w') (hw : Inv env w)
    (ht : t ∈ w.refreshTokens) (ht' : t' ∈ w'.refreshTokens) (hid : t'.id = t.id) :
    t'.tokenHash = t.tokenHash ∧ t'.familyID = t.familyID := by
  rcases h.tokens t' ht' with hun | ⟨t₀, ht₀, hid₀, hhash, hfam⟩
  · exact absurd (hid ▸ hun) (hw.fresh_id t ht)
  · obtain rfl : t₀ = t := hw.id_unique t₀ ht₀ t ht _ (congrArg some (hid₀.symm.trans hid)) rfl
    exact ⟨hhash, hfam⟩

/-- The contract of rotation: everybody keeps the invariant and moves, and nobody else writes a
request's part of the history. Every call may fail. -/
def contract (env : Env) : Contract ReqID World where
  inv := Inv env
  rely := fun i w w' => Moves env w w' ∧ mine i w' = mine i w
  guar := fun i w w' => Moves env w w' ∧ ∀ j, j ≠ i → mine j w' = mine j w
  admits := fun _ _ _ => True
  faulty := True
  rely_refl := fun _ w => ⟨.refl w, rfl⟩
  rely_trans := fun h h' => ⟨h.1.trans h'.1, h'.2.trans h.2⟩
  rely_of_guar := fun hij _ h => ⟨h.1, h.2 _ (Ne.symm hij)⟩

/-- Steps that create nothing are within the contract, and others may take them too. -/
theorem contract_faded (hw : Inv env w) (h : Faded w w') :
    (contract env).inv w' ∧ (contract env).guar i w w' ∧ (contract env).rely i w w' :=
  ⟨hw.faded h, ⟨.of_faded h, fun j _ => h.mine_eq j⟩, ⟨.of_faded h, h.mine_eq i⟩⟩

theorem tolerant (env : Env) (i : ReqID) : Tolerant (contract env) i :=
  fun _ _ hu hq => contract_faded hu (.of_quiet hq)

/-! ### The three steps of rotation -/

theorem contract_consume (hw : Inv env w) (i : ReqID) (id : String) :
    (contract env).inv (TokenStore.consumeRefreshToken i id w).2 ∧
      (contract env).guar i w (TokenStore.consumeRefreshToken i id w).2 := by
  rcases TokenStore.consumeRefreshToken_cases i id w with ⟨e, h⟩ | ⟨t, ht, rfl, hopen, h⟩
  · rw [h]
    exact ⟨hw, .refl w, fun _ _ => rfl⟩
  · rw [h]
    refine ⟨hw.consume ht hopen, ⟨fun _ => le_rfl, Grows.refl Family.Later.refl _, ?_⟩,
      fun j hj => mine_note_of_ne hj⟩
    intro t' ht'
    obtain ⟨t₀, ht₀, rfl⟩ := mem_updateWhere.mp ht'
    refine .inr ⟨t₀, ht₀, ?_⟩
    split <;> exact ⟨rfl, rfl, rfl⟩

theorem contract_create (hinj : Function.Injective env.hashSHA256) (hw : Inv env w)
    {familyID plain : String} {now expiry : Time} (hfamily : ∃ f ∈ w.families, f.id = familyID)
    (hclosed : ∀ t ∈ w.refreshTokens, t.familyID = familyID → t.consumedAt ≠ none)
    (htickets : ∀ j h, mine j w = [.refreshConsumed h familyID] → j = i)
    (h : TokenService.createRefreshToken env i familyID now expiry w = (.ok plain, w')) :
    Inv env w' ∧ Moves env w w' ∧ (∀ j, j ≠ i → mine j w' = mine j w) ∧
      mine i w' = .refreshCreated (env.hashSHA256 plain) familyID :: mine i w := by
  rcases TokenService.createRefreshToken_cases env i familyID now expiry
    w with ⟨e, herr⟩ | ⟨v, hok, heq⟩
  · rw [herr] at h
    cases h
  · rw [heq] at h
    obtain ⟨hplain, rfl⟩ := Prod.mk.inj h
    obtain rfl := Except.ok.inj hplain
    obtain ⟨hnew, rfl⟩ := TokenStore.createRefreshToken_ok hok
    have hdraw : ((w.draw i).draw i).drawn i = w.drawn i + 2 := by simp [World.draw]
    have hle := ((w.quiet_draw i).trans ((w.draw i).quiet_draw i)).drawn_le
    -- the two strings are no longer to be drawn
    have hspent : ∀ n, n < w.drawn i + 2 →
        ¬Undrawn env { w with drawn := ((w.draw i).draw i).drawn } (env.random i n) :=
      fun n hn => not_undrawn_of_lt (hdraw ▸ hn)
    have hfresh := undrawn_next env w i
    refine ⟨hw.create hle hnew hfamily (hspent _ (by omega)) (fun s hs heq => ?_)
      (hw.fresh_consumed _ hfresh) hclosed htickets, ⟨hle, Grows.refl Family.Later.refl _, ?_⟩,
      fun j hj => mine_note_of_ne hj, mine_note_self rfl⟩
    · exact hspent _ (by omega) (hinj heq ▸ hs)
    · intro t' ht'
      rcases List.mem_append.mp ht' with hold | hnew
      · exact .inr ⟨t', hold, rfl, rfl, rfl⟩
      · rw [List.mem_singleton.mp hnew]
        exact .inl ⟨i, _, Nat.le_succ _, rfl⟩

theorem Inv.createFamily (hw : Inv env w) (hnew : ∀ f' ∈ w.families, f'.id ≠ f.id) :
    Inv env { w with families := w.families ++ [f] } where
  family_unique := hw.family_unique.append_singleton fun k hk f' hf' hkey =>
    hnew f' hf' (Option.some.inj (hkey.trans hk.symm))
  id_unique := hw.id_unique
  hash_unique := hw.hash_unique
  owned := fun t ht => by
    obtain ⟨g, hg, hid⟩ := hw.owned t ht
    exact ⟨g, List.mem_append_left _ hg, hid⟩
  fresh_id := hw.fresh_id
  fresh_hash := hw.fresh_hash
  fresh_consumed := hw.fresh_consumed
  linear := hw.linear
  once := hw.once
  spent := hw.spent
  ticket := fun i h g hm => by
    obtain ⟨⟨g', hg', hid⟩, hrows⟩ := hw.ticket i h g hm
    exact ⟨⟨g', List.mem_append_left _ hg', hid⟩, hrows⟩
  ticket_unique := hw.ticket_unique

/-- A redemption. The family is new, so it has no token and nobody holds its ticket. -/
theorem contract_openFamily (hinj : Function.Injective env.hashSHA256) (hw : Inv env w) (i : ReqID)
    (f : Family) (jti : String) (now expiry : Time) (issueRefresh tracked : Bool) :
    (contract env).inv (Write.run env i (.openFamily f jti now expiry issueRefresh tracked) w) ∧
      (contract env).guar i w
        (Write.run env i (.openFamily f jti now expiry issueRefresh tracked) w) := by
  rcases run_openFamily_cases env i f jti now expiry issueRefresh tracked w with
    h | ⟨w₁, w₂, hcreate, htrack, hrest⟩
  · rw [h]
    exact ⟨hw, .refl w, fun _ _ => rfl⟩
  obtain ⟨hnew, rfl⟩ := TokenStore.createFamily_ok hcreate
  have hinv := hw.createFamily fun f' hf' => (hnew f' hf').1
  have hfaded : Faded { w with families := w.families ++ [f] } w₂ := by
    rcases TokenService.trackInTransaction_ok htrack with rfl | rfl <;>
      exact .of_eq rfl rfl rfl fun _ => le_rfl
  have hopened : Moves env w { w with families := w.families ++ [f] } :=
    ⟨fun _ => le_rfl, grows_append Family.Later.refl _ _,
      fun t ht => .inr ⟨t, ht, rfl, rfl, rfl⟩⟩
  have hmoves := hopened.trans (.of_faded hfaded)
  have hmine : ∀ j, mine j w₂ = mine j w := hfaded.mine_eq
  rcases hrest with ⟨-, hrun⟩ | ⟨-, plain, hrun⟩
  · rw [hrun]
    exact ⟨hinv.faded hfaded, hmoves, fun j _ => hmine j⟩
  · -- whatever mentions the family would have to mention it before it existed
    have hunknown : ∀ g ∈ w.families, g.id = f.id → False := fun g hg hid => (hnew g hg).1 hid
    have hfamily : ∃ g ∈ w₂.families, g.id = f.id := by
      obtain ⟨f', hf', hff⟩ := hfaded.mem_families
        (List.mem_append_right w.families (List.mem_singleton.mpr rfl))
      exact ⟨f', hf', hff.id_eq⟩
    have hclosed : ∀ t ∈ w₂.refreshTokens, t.familyID = f.id → t.consumedAt ≠ none := by
      intro t ht hfam
      obtain ⟨t₀, ht₀, hfade⟩ := hfaded.of_mem_tokens ht
      obtain ⟨g, hg, hid⟩ := hw.owned t₀ ht₀
      exact (hunknown g hg (hid.trans (hfade.1.2.2.symm.trans hfam))).elim
    have htickets : ∀ j h, mine j w₂ = [.refreshConsumed h f.id] → j = i := by
      intro j h hm
      obtain ⟨⟨g, hg, hid⟩, -⟩ := hw.ticket j h f.id (hmine j ▸ hm)
      exact (hunknown g hg hid).elim
    obtain ⟨h₁, h₂, h₃, -⟩ := contract_create hinj (hinv.faded hfaded) hfamily hclosed htickets hrun
    exact ⟨h₁, hmoves.trans h₂, fun j hj => (h₃ j hj).trans (hmine j)⟩

/-! ### The requests -/

def notCreating : Write → Prop
  | .createRefreshToken _ _ _ => False
  | .release _ e => isRotation e = false
  | _ => True

/-- **Everything but storing a successor is within the contract.** -/
theorem contract_uses (hinj : Function.Injective env.hashSHA256) (hw : Inv env w)
    (h : Uses env i notCreating w w') : (contract env).inv w' ∧ (contract env).guar i w w' := by
  rcases h with hq | ⟨x, hx, rfl⟩
  · exact ⟨(tolerant env i w w' hw hq).1, (tolerant env i w w' hw hq).2.1⟩
  · by_cases hrot : rotates x
    · cases x with
      | openFamily f jti now expiry issueRefresh tracked =>
        exact contract_openFamily hinj hw i f jti now expiry issueRefresh tracked
      | consumeRefreshToken id => exact contract_consume hw i id
      | createRefreshToken => exact hx.elim
      | release c e =>
        rw [rotates, show isRotation e = false from hx] at hrot
        cases hrot
      | _ => exact hrot.elim
    · have hfaded := contract_faded (i := i) hw (faded_run env i hrot w)
      exact ⟨hfaded.1, hfaded.2.1⟩

theorem notCreating_of_kinds {req : Request} (hreq : ∀ r, req ≠ .refreshToken r)
    (hx : req.kinds x) : notCreating x := by
  cases req with
  | refreshToken r => exact absurd rfl (hreq r)
  | maintain m =>
    obtain rfl : x = .maintain m := hx
    trivial
  | _ =>
    cases x with
    | createRefreshToken => exact hx.elim
    | release c e => cases e <;> first | rfl | exact hx.elim
    | _ => trivial

/-- What a refresh has done when it answers, for one that starts in the world `s`. -/
def Rotated (env : Env) (i : ReqID) (req : RefreshTokenRequest) (s : World) (resp : TokenResponse)
    (t : World) : Prop :=
  ∃ f, mine i t = [.refreshCreated (env.hashSHA256 resp.refreshToken) f,
      .refreshConsumed (env.hashSHA256 req.refreshToken) f] ∧
    ∀ g ∈ s.families, g.id = f → g.isActive = true

variable {req : RefreshTokenRequest} {s : World}

/-- **A refresh.** From the consumption on it holds the ticket of the family, until it stores the
successor. -/
theorem ensures_refreshToken (hinj : Function.Injective env.hashSHA256)
    (hs : Inv env s) (hidle : mine i s = []) :
    Ensures (contract env) i (Rotated env i req s) (TokenService.refreshToken env i req) s := by
  have hC := tolerant env i
  refine TokenService.ensures_refreshToken hC hs fun rt family c scope t₁ h₁ hi₁ hchecked => ?_
  obtain ⟨u, hu, hsu, hut, hread⟩ := hchecked.tokenRead
  obtain ⟨hrt, hhash⟩ := TokenStore.getRefreshTokenByHash_ok hread
  obtain ⟨v, hv, hsv, -, hfam⟩ := hchecked.familyRead
  obtain ⟨hfamily, hfid⟩ := TokenStore.getFamily_ok hfam
  have hlive : ∀ g ∈ s.families, g.id = family.id → g.isActive = true := fun g hg hid =>
    hsv.1.active_before hv hg hfamily hid hchecked.active
  have hreuse : ∀ t, (contract env).inv t →
      Ensures (contract env) i (fun _ _ => True) (TokenService.runReuseHalves i rt.familyID) t :=
    fun t ht => .of_each_inv TokenService.uses_runReuseHalves (fun a b ha hab =>
      contract_uses hinj ha (hab.mono fun x hx => by cases x <;> trivial)) ht
  refine TokenService.ensures_consumeOrRevokeFamily (contract_consume hi₁ i rt.id)
    (fun t _ ht => hreuse t ht) ?_
  intro rt' hrt' t₂ h₂ hi₂
  -- the ticket
  have hticket : mine i t₂ = [.refreshConsumed (env.hashSHA256 req.refreshToken) family.id] := by
    rcases TokenStore.consumeRefreshToken_cases i rt.id t₁ with ⟨e, herr⟩ | ⟨t, ht, hid, -, hok⟩
    · rw [herr] at hrt'
      cases hrt'
    · obtain ⟨hh, hf⟩ := hut.1.same_token hu hrt ht hid
      rw [hok] at h₂
      rw [h₂.2, spend, mine_note_self rfl, hh, hf, hhash, hfid]
      exact congrArg (List.cons _) (h₁.2.trans hidle)
  refine TokenService.ensures_rotate hC hi₂ fun jkt now res now' jti t₃ h₃ hi₃ _ _ _ _ => ?_
  have hrecord : ∀ ireq n, (MintIssuer.recordIssuance i ireq n jti).Each Faded := by
    intro ireq n
    unfold MintIssuer.recordIssuance
    split
    · exact each_wrapErr (Prog.each_exec fun w =>
        faded_run env i (x := .insertIssuance _) id w)
    · trivial
  refine .pass (hrecord _ _) (fun a b ha hab => contract_faded ha hab) hi₃
    fun _ t₄ h₄ hi₄ => ?_
  have htrack : (TokenService.trackJTI jti family.id (now + env.tokens.accessTokenExpiry)).Each
      Faded := (Prog.each_exec fun w => faded_run env i (x := .trackJTI _ _ _) id w).attempt.bind
    fun _ => trivial
  refine .pass htrack (fun a b ha hab => contract_faded ha hab) hi₄ fun _ t₅ h₅ hi₅ => ?_
  -- the second look at the family
  unfold TokenService.recheckFamily
  rw [Prog.bind_assoc]
  refine hC.readWrapped hi₅ fun family' t₆ h₆ hi₆ hagain => ?_
  obtain ⟨v', -, -, -, hfam'⟩ := hagain
  obtain ⟨-, hfid'⟩ := TokenStore.getFamily_ok hfam'
  split
  · have hmine : mine i t₆ = [.refreshConsumed (env.hashSHA256 req.refreshToken) family.id] := by
      rw [h₆.2, h₅.2, h₄.2, h₃.2, hticket]
    obtain ⟨hexists, hclosed⟩ := hi₆.ticket i _ _ hmine
    have hunique : ∀ j h, mine j t₆ = [.refreshConsumed h family.id] → j = i := fun j h hj =>
      hi₆.ticket_unique j i _ _ _ hj hmine
    rw [← hfid'] at hexists hclosed hunique
    rw [Prog.pure_bind]
    refine .bind (Ensures.exec (fun _ => ?_) fun plain hplain _ t₇ h₇ hi₇ => ?_)
    · rcases TokenService.createRefreshToken_cases env i family'.id now
        env.tokens.refreshTokenExpiry t₆
        with ⟨e, herr⟩ | ⟨w', -, hok⟩
      · rw [herr]
        have hq := (t₆.quiet_draw i).trans ((t₆.draw i).quiet_draw i)
        exact ⟨(hC t₆ _ hi₆ hq).1, (hC t₆ _ hi₆ hq).2.1⟩
      · rw [hok]
        obtain ⟨hinv, hmoves, hothers, -⟩ := contract_create hinj hi₆ hexists hclosed hunique hok
        exact ⟨hinv, hmoves, hothers⟩
    · obtain ⟨-, -, -, hmine'⟩ := contract_create hinj hi₆ hexists hclosed hunique
        (Prod.ext hplain rfl)
      have hreleased : ∀ c, (release i c (.refreshed family'.id jti)).Each Faded := fun c =>
        Prog.each_step fun w =>
          faded_run env i (x := .release c (.refreshed family'.id jti)) Bool.false_ne_true w
      refine Ensures.pass (hreleased _) (fun a b ha hab => contract_faded ha hab) hi₇
        fun _ t₈ h₈ hi₈ => ?_
      refine ⟨family.id, ?_, hlive⟩
      rw [h₈.2, h₇.2, hmine', hmine, hfid']
  · rw [Prog.bind_assoc]
    refine .bind (Ensures.attempt_exec (fun _ => ?_)
      (fun _ _ _ _ => trivial) fun _ _ _ _ => trivial)
    have hf := contract_faded (i := i) hi₆ (faded_run env i (x := .revokeIssuance jti) id t₆)
    exact ⟨hf.1, hf.2.1⟩

/-! ### Every run of the server -/

/-- What the answer to a request says about rotation, for a server observed from the world `s`
on. -/
def Answered (env : Env) (reqs : ReqID → Request) (s : World) (i : ReqID) (resp : Response)
    (t : World) : Prop :=
  ∀ req, reqs i = .refreshToken req → ∃ tr, resp = .token tr ∧ Rotated env i req s tr t

theorem safe_serve (hinj : Function.Injective env.hashSHA256) (reqs : ReqID → Request)
    (hs : Inv env s) (hidle : mine i s = []) {s₀ : World} (h₀ : Moves env s₀ s) :
    Ensures (contract env) i (Answered env reqs s₀ i) (serve env i (reqs i)) s := by
  by_cases hreq : ∃ req, reqs i = .refreshToken req
  · obtain ⟨req, hreq⟩ := hreq
    rw [hreq]
    refine .seq (ensures_refreshToken hinj hs hidle) fun tr t hrot => ?_
    obtain ⟨f, hmine, hlive⟩ := hrot
    intro req' hreq'
    obtain rfl : req = req' := by
      rw [hreq] at hreq'
      exact Request.refreshToken.inj hreq'
    refine ⟨tr, rfl, f, hmine, fun g hg hid => ?_⟩
    obtain ⟨g', hg', hlater⟩ := h₀.families g hg
    exact hlater.active (hlive g' hg' (hlater.id_eq.trans hid))
  · have hother : ∀ r, reqs i ≠ .refreshToken r := fun r hr => hreq ⟨r, hr⟩
    have heach := uses_mono (uses_serve env i (reqs i)) fun x => notCreating_of_kinds hother
    exact Safe.mono (Safe.of_each_inv heach (fun u v hu huv => contract_uses hinj hu huv) hs)
      (fun resp t _ req hr => absurd hr (hother req)) fun _ _ h => h

theorem ready_start (hinj : Function.Injective env.hashSHA256) (reqs : ReqID → Request)
    (hw : Inv env w) (hidle : w.journal = []) :
    Pool.Ready (contract env) (Answered env reqs w) (fun _ _ _ => True)
      (Server.start env reqs w) := by
  refine ⟨hw, fun i t hst ht => safe_serve hinj reqs ht ?_ hst.1⟩
  rw [hst.2]
  simp [mine, turns, hidle, Server.start]

theorem admitted (env : Env) (c : Server) (sched : Schedule ReqID) :
    Pool.Admitted (contract env) c sched :=
  Pool.admitted_of_all (fun _ _ _ => trivial) sched fun _ _ _ => trivial

theorem mem_mine : e ∈ mine i w ↔ ⟨i, e⟩ ∈ turns w := by
  constructor
  · intro he
    obtain ⟨entry, hmem, rfl⟩ := List.mem_map.mp he
    obtain ⟨hturn, hctx⟩ := List.mem_filter.mp hmem
    rwa [← beq_iff_eq.mp hctx]
  · intro he
    exact List.mem_map.mpr ⟨⟨i, e⟩, List.mem_filter.mpr ⟨he, beq_self_eq_true i⟩, rfl⟩

/-- A token is not consumed in two requests. -/
theorem Inv.consumed_by_one (hw : Inv env w) {h f g : String}
    (hi : .refreshConsumed h f ∈ mine i w) (hj : .refreshConsumed h g ∈ mine j w) : i = j := by
  have heq := UniqueKey.of_nodup hw.once _ (mem_mine.mp hi) _ (mem_mine.mp hj) h rfl rfl
  exact congrArg Entry.ctx heq

/-- On the table of refresh tokens: one step of the request consumes the open row of the first
token, one adds an open row of the second to the same family, and none adds another. -/
structure OneSuccessor (c : Server) (sched : Schedule ReqID) (i : ReqID)
    (presented returned family : String) : Prop where
  consumed : ∃ pre bad post, sched = pre ++ (i, bad) :: post ∧
    ∃ t ∈ (c.exec pre).store.refreshTokens, t.tokenHash = presented ∧ t.familyID = family ∧
      t.consumedAt = none ∧ ((c.exec pre).step i bad).store.refreshTokens =
        updateWhere (fun t' => t'.id == t.id && t'.consumedAt.isNone)
          (fun t' => { t' with consumedAt := some (c.exec pre).store.clock })
          (c.exec pre).store.refreshTokens
  created : ∃ pre bad post, sched = pre ++ (i, bad) :: post ∧
    ∃ t, t.tokenHash = returned ∧ t.familyID = family ∧ t.consumedAt = none ∧
      ((c.exec pre).step i bad).store.refreshTokens = (c.exec pre).store.refreshTokens ++ [t]
  only : ∀ pre bad post, sched = pre ++ (i, bad) :: post →
    ∀ t ∈ ((c.exec pre).step i bad).store.refreshTokens,
      (∃ t₀ ∈ (c.exec pre).store.refreshTokens, t₀.id = t.id) ∨ t.tokenHash = returned

/-- A row that a write of a refresh adds is noted. -/
theorem noted_of_added (hx : x.ofRefresh)
    (ht : t ∈ (x.run env i w).refreshTokens) :
    (∃ t₀ ∈ w.refreshTokens, t₀.id = t.id) ∨
      ⟨i, .refreshCreated t.tokenHash t.familyID⟩ ∈ (x.run env i w).journal := by
  by_cases hrot : rotates x
  · cases x with
    | createRefreshToken family now expiry =>
      rcases TokenService.createRefreshToken_cases env i family now expiry w with
        ⟨e, h⟩ | ⟨w', hok, h⟩ <;> rw [Write.run, h] at ht ⊢
      · exact .inl ⟨t, ht, rfl⟩
      · obtain ⟨-, rfl⟩ := TokenStore.createRefreshToken_ok hok
        rcases List.mem_append.mp ht with hold | hnew
        · exact .inl ⟨t, hold, rfl⟩
        · obtain rfl := List.mem_singleton.mp hnew
          exact .inr List.mem_cons_self
    | consumeRefreshToken id =>
      rcases TokenStore.consumeRefreshToken_cases i id w with ⟨e, h⟩ | ⟨t₀, -, -, -, h⟩ <;>
        rw [Write.run, h] at ht
      · exact .inl ⟨t, ht, rfl⟩
      · obtain ⟨t₁, ht₁, rfl⟩ := mem_updateWhere.mp ht
        refine .inl ⟨t₁, ht₁, ?_⟩
        split <;> rfl
    | release c e => cases e <;> first | exact hx.elim | cases hrot
    | openFamily => exact hx.elim
    | _ => exact hrot.elim
  · obtain ⟨t₀, ht₀, hfades⟩ := (faded_run env i hrot w).of_mem_tokens ht
    exact .inl ⟨t₀, ht₀, hfades.1.1.symm⟩

/-- A write of a refresh that notes a consumed token consumes an open row of it. -/
theorem consumes_of_noted {h f : String} (hx : x.ofRefresh)
    (hnotes : x.notes (.refreshConsumed h f))
    (hjournal : (x.run env i w).journal = ⟨i, .refreshConsumed h f⟩ :: w.journal) :
    ∃ t ∈ w.refreshTokens, t.tokenHash = h ∧ t.familyID = f ∧ t.consumedAt = none ∧
      (x.run env i w).refreshTokens =
        updateWhere (fun t' => t'.id == t.id && t'.consumedAt.isNone)
          (fun t' => { t' with consumedAt := some w.clock }) w.refreshTokens := by
  cases x with
  | consumeRefreshToken id =>
    rcases TokenStore.consumeRefreshToken_cases i id w with ⟨e, h⟩ | ⟨t, ht, rfl, hopen, h⟩ <;>
      rw [Write.run, h] at hjournal ⊢
    · exact absurd hjournal.symm (List.cons_ne_self _ _)
    · obtain ⟨rfl, rfl⟩ := Event.refreshConsumed.inj (Entry.mk.inj (List.cons.inj hjournal).1).2
      exact ⟨t, ht, rfl, rfl, hopen, rfl⟩
  | release c e => cases e <;> first | exact hx.elim | cases hnotes
  | _ => simp [Write.notes] at hnotes

/-- A write of a refresh that notes a created token adds an open row of it. -/
theorem creates_of_noted {h f : String} (hx : x.ofRefresh)
    (hnotes : x.notes (.refreshCreated h f))
    (hjournal : (x.run env i w).journal = ⟨i, .refreshCreated h f⟩ :: w.journal) :
    ∃ t, t.tokenHash = h ∧ t.familyID = f ∧ t.consumedAt = none ∧
      (x.run env i w).refreshTokens = w.refreshTokens ++ [t] := by
  cases x with
  | createRefreshToken family now expiry =>
    rcases TokenService.createRefreshToken_cases env i family now expiry w with
      ⟨e, h⟩ | ⟨w', hok, h⟩ <;> rw [Write.run, h] at hjournal ⊢
    · exact absurd hjournal.symm (List.cons_ne_self _ _)
    · obtain ⟨-, rfl⟩ := TokenStore.createRefreshToken_ok hok
      obtain ⟨rfl, rfl⟩ := Event.refreshCreated.inj (Entry.mk.inj (List.cons.inj hjournal).1).2
      exact ⟨_, rfl, rfl, rfl, rfl⟩
  | release c e => cases e <;> first | exact hx.elim | cases hnotes
  | openFamily => exact hx.elim
  | _ => simp [Write.notes] at hnotes

variable {reqs : ReqID → Request}

theorem oneSuccessor_of_mine
    {sched : Schedule ReqID} {presented returned family : String}
    (hreq : reqs i = .refreshToken req) (hidle : w.journal = [])
    (hmine : mine i ((Server.start env reqs w).exec sched).store =
      [.refreshCreated returned family, .refreshConsumed presented family]) :
    OneSuccessor (Server.start env reqs w) sched i presented returned family := by
  have hnone : ∀ entry, entry ∉ w.journal := by simp [hidle]
  have hnoted : ∀ e ∈ mine i ((Server.start env reqs w).exec sched).store,
      ⟨i, e⟩ ∈ ((Server.start env reqs w).exec sched).store.journal :=
    fun e he => List.mem_of_mem_filter (mem_mine.mp he)
  refine ⟨?_, ?_, ?_⟩
  · obtain ⟨pre, bad, post, x, rfl, hx, hnotes, hstep, hjournal⟩ := Server.exists_noting (hnone _)
      (hnoted (.refreshConsumed presented family) (by simp [hmine]))
    refine ⟨pre, bad, post, rfl, ?_⟩
    rw [hreq] at hx
    rw [hstep]
    exact consumes_of_noted hx hnotes hjournal
  · obtain ⟨pre, bad, post, x, rfl, hx, hnotes, hstep, hjournal⟩ := Server.exists_noting (hnone _)
      (hnoted (.refreshCreated returned family) (by simp [hmine]))
    refine ⟨pre, bad, post, rfl, ?_⟩
    rw [hreq] at hx
    rw [hstep]
    exact creates_of_noted hx hnotes hjournal
  · rintro pre bad post rfl t ht
    have huses := Pool.step_of_each (Server.uses_exec env reqs w pre) i bad
    rcases huses.1 with hsame | ⟨_, _, _, -, hquiet⟩ | ⟨x, hx, hstep⟩
    · exact .inl ⟨t, hsame ▸ ht, rfl⟩
    · rw [hquiet] at ht
      exact .inl ⟨t, ht, rfl⟩
    rw [hstep] at ht
    rw [hreq] at hx
    refine (noted_of_added hx ht).imp_right fun hadded => ?_
    -- what the step noted is still noted at the end, where the request has noted one creation
    rw [← hstep] at hadded
    have hlater := Server.mem_journal_exec huses.2 hadded post
    have hmem : .refreshCreated t.tokenHash t.familyID ∈
        mine i ((Server.start env reqs w).exec (pre ++ (i, bad) :: post)).store := by
      rw [Pool.exec_append]
      exact mem_mine.mpr (List.mem_filter.mpr ⟨hlater, rfl⟩)
    rw [hmine] at hmem
    simp only [List.mem_cons, Event.refreshCreated.injEq, List.not_mem_nil, or_false,
      reduceCtorEq] at hmem
    exact hmem.1


/-- **A refresh that starts later.** Whatever has happened until now, a refresh that has not begun
yet is answered only in a family that is not revoked now. -/
theorem rotated_since (hinj : Function.Injective env.hashSHA256)
    (hw : Inv env w) (hidle : w.journal = []) (sched sched' : Schedule ReqID)
    (hi : ∀ e ∈ sched, e.1 ≠ i) {resp : Response}
    (hret : (((Server.start env reqs w).exec sched).exec sched').procs i = .ret resp) :
    Answered env reqs ((Server.start env reqs w).exec sched).store i resp
      (((Server.start env reqs w).exec sched).exec sched').store := by
  have hstart := ready_start hinj reqs hw hidle
  have hready := hstart.exec sched (admitted env _ sched)
  have hseen := hstart.rely_exec sched (admitted env _ sched) hi
  -- observe the request from now on, and the others not at all
  have hnow : Pool.Ready (contract env)
      (fun j resp t =>
        j = i → Answered env reqs ((Server.start env reqs w).exec sched).store j resp t)
      (fun _ _ _ => True) ((Server.start env reqs w).exec sched) := by
    refine ⟨hready.inv, fun j t hst ht => ?_⟩
    by_cases hji : j = i
    · subst hji
      rw [Pool.procs_exec_of_not_mem sched hi]
      refine .mono (safe_serve hinj reqs ht ?_ hst.1) (fun _ _ h _ => h) fun _ _ h => h
      rw [hst.2, hseen.2]
      simp [mine, turns, hidle, Server.start]
    · exact .mono (hready.safe j t hst ht) (fun _ _ _ h => absurd h hji) fun _ _ h => h
  exact (hnow.exec sched' (admitted env _ sched')).post hret rfl

end Rotation

open Rotation

/-- **Refresh rotation is linear.** Take any store that satisfies the invariant, any requests, any
interleaving of their store calls with any of them failing. Then

* two refreshes that presented the same token and were both answered are the same request;
* a refresh that was answered has consumed the token it presented, has created the token it
  returned, in the same family, and has consumed and created no other, in what it noted and on the
  table of refresh tokens;
* a family has at most one unconsumed token, at every moment;
* a refresh that begins after that moment and is answered, now or later, rotated a family that is
  not revoked at that moment. -/
theorem TokenService.rotation_linear {env : Env} (hinj : Function.Injective env.hashSHA256)
    {reqs : ReqID → Request} {w : World} (hw : Inv env w) (hidle : w.journal = [])
    (sched : Schedule ReqID) :
    (∀ i j req req' resp resp', reqs i = .refreshToken req → reqs j = .refreshToken req' →
      ((Server.start env reqs w).exec sched).procs i = .ret resp →
      ((Server.start env reqs w).exec sched).procs j = .ret resp' →
      req.refreshToken = req'.refreshToken → i = j) ∧
    (∀ i req resp, reqs i = .refreshToken req →
      ((Server.start env reqs w).exec sched).procs i = .ret resp →
      ∃ tr f, resp = .token tr ∧ mine i ((Server.start env reqs w).exec sched).store =
          [.refreshCreated (env.hashSHA256 tr.refreshToken) f,
            .refreshConsumed (env.hashSHA256 req.refreshToken) f] ∧
        OneSuccessor (Server.start env reqs w) sched i (env.hashSHA256 req.refreshToken)
          (env.hashSHA256 tr.refreshToken) f) ∧
    (∀ t ∈ ((Server.start env reqs w).exec sched).store.refreshTokens,
      ∀ t' ∈ ((Server.start env reqs w).exec sched).store.refreshTokens,
      t.familyID = t'.familyID → t.consumedAt = none → t'.consumedAt = none → t = t') ∧
    ∀ i req resp sched', reqs i = .refreshToken req → (∀ e ∈ sched, e.1 ≠ i) →
      (((Server.start env reqs w).exec sched).exec sched').procs i = .ret resp →
      ∃ tr f, resp = .token tr ∧ mine i (((Server.start env reqs w).exec sched).exec sched').store =
          [.refreshCreated (env.hashSHA256 tr.refreshToken) f,
            .refreshConsumed (env.hashSHA256 req.refreshToken) f] ∧
        ∀ g ∈ ((Server.start env reqs w).exec sched).store.families, g.id = f →
          g.isActive = true := by
  have hready := (ready_start hinj reqs hw hidle).exec sched (admitted env _ sched)
  refine ⟨?_, ?_, hready.inv.linear, ?_⟩
  · intro i j req req' resp resp' hi hj hret hret' hsame
    obtain ⟨_, -, f, hmine, -⟩ := hready.post hret req hi
    obtain ⟨_, -, f', hmine', -⟩ := hready.post hret' req' hj
    refine hready.inv.consumed_by_one
      (h := env.hashSHA256 req.refreshToken) (f := f) (g := f') ?_ ?_
    · simp [hmine]
    · simp [hmine', hsame]
  · intro i req resp hreq hret
    obtain ⟨tr, rfl, f, hmine, -⟩ := hready.post hret req hreq
    exact ⟨tr, f, rfl, hmine, oneSuccessor_of_mine hreq hidle hmine⟩
  · intro i req resp sched' hreq hi hret
    obtain ⟨tr, rfl, f, hmine, hlive⟩ := rotated_since hinj hw hidle sched sched' hi hret req hreq
    exact ⟨tr, f, rfl, hmine, hlive⟩

/-- A code is redeemed, and the refresh token that came with it is presented. -/
def Sample.rotation : ReqID → Request
  | 0 => Sample.redeem "code"
  | _ => Sample.refresh (tally 0 2)

/-- The refresh is answered, and has turned exactly one token into exactly one other. -/
theorem TokenService.rotation_linear_sample :
    ∃ tr f, ((Server.start Env.plain Sample.rotation
      (Sample.world [Sample.session "s" "code"])).exec
        (Sample.turn 0 ++ Sample.turn 1)).procs 1 = .ret (.token tr) ∧
      OneSuccessor (Server.start Env.plain Sample.rotation
        (Sample.world [Sample.session "s" "code"]))
        (Sample.turn 0 ++ Sample.turn 1) 1 (Env.plain.hashSHA256 (tally 0 2))
        (Env.plain.hashSHA256 tr.refreshToken) f := by
  have hinv : Inv Env.plain (Sample.world [Sample.session "s" "code"]) := by
    constructor <;> simp [Sample.world, World.empty, UniqueKey, consumed, mine, turns]
  have hsome : (Server.tokens ((Server.start Env.plain Sample.rotation
      (Sample.world [Sample.session "s" "code"])).exec
        (Sample.turn 0 ++ Sample.turn 1)) 1).isSome :=
    by decide +kernel
  obtain ⟨tr, htr⟩ := Option.isSome_iff_exists.mp hsome
  have hret := Server.ret_of_tokens htr
  obtain ⟨-, hrotated, -⟩ := TokenService.rotation_linear Env.plain_hash_injective hinv rfl
    (Sample.turn 0 ++ Sample.turn 1)
  obtain ⟨tr', f, heq, -, hsuccessor⟩ := hrotated 1 _ _ rfl hret
  obtain rfl := Response.token.inj heq
  exact ⟨tr, f, hret, hsuccessor⟩

end AuthServer
