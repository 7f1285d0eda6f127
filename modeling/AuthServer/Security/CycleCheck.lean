import AuthServer.Security.FrontingGraph

/-!
# The cycle check is exact

`assertNoCycle` searches the stored links from the target of a new link for its source. On any set
of links, cyclic or not, it ends with the verdict of `Graph.search`, which is whether the source can
be reached in at least one step (`cases_of_assertNoCycle`). A link from a resource to itself never
gets there: `FrontingLink.Validate` refuses it.

So `Create` and `Delete`, one after another and whatever store calls fail, keep the links acyclic,
and `Create` refuses a link for a cycle only if the link would close one. -/

namespace AuthServer

open Interleave Graph

/-- The links name their targets, as `FrontingLink.Validate` demands; the walk takes an empty slug
for every source. -/
def Named (w : World) : Prop :=
  ∀ l ∈ w.frontingLinks, l.targetSlug ≠ ""

/-- The links together with a new one. -/
def FrontsWith (w : World) (link : FrontingLink) (a b : String) : Prop :=
  Fronts w a b ∨ a = link.sourceSlug ∧ b = link.targetSlug

namespace FrontingService

variable {env : Env} {w t : World} {source target : String} {link : FrontingLink} {nodes : ℕ}
    {plan : List Bool}

/-! ### The walk is a search -/

/-- What `assertNoCycle` makes of the outcome of a search. -/
def verdict : Option Bool → Except Err Unit
  | some false => .ok ()
  | some true => .error (.sentinel .frontingLinkCycle)
  | none => .error (.fault "walk fronting graph")

theorem eq_of_verdict_ok {o : Option Bool} (h : verdict o = .ok ()) : o = some false := by
  unfold verdict at h
  split at h
  · rfl
  · cases h
  · cases h

theorem eq_of_verdict_cycle {o : Option Bool}
    (h : verdict o = .error (.sentinel .frontingLinkCycle)) :
    o = some true := by
  unfold verdict at h
  split at h
  · cases h
  · rfl
  · cases h

theorem run_walk_cons (n : ℕ) (visited : List String) (node : String) (stack : List String) :
    (walk env source (n + 1) visited (node :: stack)).run plan w =
      if plan.headD false then
        (.error (storeFault.wrap ("walk fronting graph from " ++ env.quote node)), w)
      else (scan source (nextSlugs w node) visited stack).elim
        (.error (.sentinel .frontingLinkCycle), w)
        fun found => (walk env source n found.1 found.2).run plan.tail w := by
  rw [walk, run_wrapErr_fetch]
  cases plan.headD false with
  | true => rfl
  | false =>
    simp only [Bool.false_eq_true, if_false, follow_eq]
    rw [nextSlugs]
    cases scan source ((FrontingLinkStore.listFrom node w).map FrontingLink.targetSlug)
      visited stack <;> rfl

/-- The walk ends with the verdict of the search or, if store calls fail, with their error. -/
theorem cases_of_walk (n : ℕ) (visited stack : List String) (plan : List Bool) :
    ∃ r, (walk env source n visited stack).run plan w = (r, w) ∧
      (r = verdict (search (nextSlugs w) source n visited stack) ∨ true ∈ plan ∧ ∃ d,
        r = .error (.fault d)) := by
  induction n generalizing visited stack plan with
  | zero => cases stack <;> exact ⟨_, rfl, .inl rfl⟩
  | succ n ih =>
    cases stack with
    | nil => exact ⟨_, rfl, .inl rfl⟩
    | cons node stack =>
      rw [run_walk_cons, search]
      cases hbad : plan.headD false with
      | true =>
        refine ⟨_, rfl, .inr ⟨?_, _, rfl⟩⟩
        cases plan with
        | nil => cases hbad
        | cons bad rest => exact hbad ▸ List.mem_cons_self
      | false =>
        rw [if_neg Bool.false_ne_true]
        cases scan source (nextSlugs w node) visited stack with
        | none => exact ⟨_, rfl, .inl rfl⟩
        | some found =>
          obtain ⟨r, hrun, hr⟩ := ih found.1 found.2 plan.tail
          exact ⟨r, hrun, hr.imp_right fun h => ⟨List.mem_of_mem_tail h.1, h.2⟩⟩

/-! ### What is reached -/

theorem mem_nextSlugs_iff {node next : String} (hnode : node ≠ "") : next ∈ nextSlugs w node ↔
    Fronts w node next := by
  refine ⟨fun h => ?_, mem_nextSlugs⟩
  obtain ⟨l, hl, hnext⟩ := List.mem_map.mp h
  obtain ⟨hl, hsource⟩ := List.mem_filter.mp ((List.mem_insertionSort _).mp hl)
  exact ⟨l, hl, by simpa [hnode] using hsource, hnext⟩

theorem mem_targets {node next : String} (h : next ∈ nextSlugs w node) :
    next ∈ (w.frontingLinks.map FrontingLink.targetSlug).toFinset := by
  obtain ⟨l, hl, hnext⟩ := List.mem_map.mp h
  have hl := List.mem_of_mem_filter ((List.mem_insertionSort _).mp hl)
  exact List.mem_toFinset.mpr (List.mem_map.mpr ⟨l, hl, hnext⟩)

/-- The walk follows the links, as long as they name their targets. -/
theorem transGen_nextSlugs (hw : Named w) (htarget : target ≠ "") :
    Relation.TransGen (fun a b => b ∈ nextSlugs w a) target source ↔
      Relation.TransGen (Fronts w) target source := by
  refine ⟨fun h => ?_, fun h => Relation.TransGen.mono (fun _ _ => mem_nextSlugs) _ _ h⟩
  induction h with
  | single hstep => exact .single ((mem_nextSlugs_iff htarget).mp hstep)
  | @tail b c _ hstep ih =>
    have hb : b ≠ "" := by
      obtain ⟨_, -, l, hl, -, rfl⟩ := Relation.TransGen.tail'_iff.mp ih
      exact hw l hl
    exact ih.tail ((mem_nextSlugs_iff hb).mp hstep)

theorem cases_of_assertNoCycle (env : Env) (source : String) (hw : Named w) (htarget : target ≠ "")
    (hnodes : w.frontingLinks.length < nodes) :
    ((assertNoCycle env nodes source target).run [] w = (.error (.sentinel .frontingLinkCycle), w) ∧
      Relation.TransGen (Fronts w) target source) ∨
    ((assertNoCycle env nodes source target).run [] w = (.ok (), w) ∧
      ¬Relation.TransGen (Fronts w) target source) := by
  have hcard : (w.frontingLinks.map FrontingLink.targetSlug).toFinset.card < nodes := by
    have hle := List.toFinset_card_le (w.frontingLinks.map FrontingLink.targetSlug)
    rw [List.length_map] at hle
    omega
  obtain ⟨r, hrun, rfl | ⟨hplan, -⟩⟩ := @cases_of_walk env w source nodes [target] [target] []
  · rw [assertNoCycle, hrun, ← transGen_nextSlugs hw htarget]
    rcases search_eq (fun a b hb => mem_targets hb) hcard target source with ⟨hfound,
      hreach⟩ | ⟨hfound, hreach⟩
    · rw [hfound]
      exact .inl ⟨rfl, hreach⟩
    · rw [hfound]
      exact .inr ⟨rfl, hreach⟩
  · exact absurd hplan List.not_mem_nil

/-! ### The errors before the walk -/

variable {e : Err}

theorem error_of_forM {α : Type} {l : List α} {f : α → Except Err Unit} (h : l.forM f = .error e) :
    ∃ x ∈ l, f x = .error e := by
  induction l with
  | nil => cases h
  | cons x rest ih =>
    change (f x >>= fun _ => rest.forM f) = .error e at h
    cases hx : f x with
    | error e' =>
      rw [hx] at h
      exact ⟨x, List.mem_cons_self, hx.trans h⟩
    | ok u =>
      rw [hx] at h
      obtain ⟨y, hy, hfail⟩ := ih h
      exact ⟨y, List.mem_cons_of_mem _ hy, hfail⟩

/-- An error with a text of its own is not the sentinel that the walk returns. -/
def Worded (e : Err) : Prop :=
  e ≠ .sentinel .frontingLinkCycle

theorem worded_wrap (detail : String) (e : Err) : Worded (e.wrap detail) := by
  cases e <;> exact fun h => by cases h

theorem worded_invalidRequest (message : String) : Worded (invalidRequest message) :=
  fun h => by cases h

theorem worded_checkTargets {src : String} {seen ts : List String}
    (h : checkTargets src seen ts = .error e) : Worded e := by
  induction ts generalizing seen with
  | nil => cases h
  | cons t rest ih =>
    unfold checkTargets at h
    split at h
    · exact Except.error.inj h ▸ worded_invalidRequest _
    · split at h
      · exact Except.error.inj h ▸ worded_invalidRequest _
      · exact ih h

theorem worded_validate (h : link.validate = .error e) : Worded e := by
  unfold FrontingLink.validate at h
  repeat'
    split at h
    · exact Except.error.inj h ▸ worded_invalidRequest _
  obtain ⟨entry, -, hentry⟩ := error_of_forM h
  unfold checkEntry at hentry
  repeat'
    split at hentry
    · exact Except.error.inj hentry ▸ worded_invalidRequest _
  exact worded_checkTargets hentry

theorem worded_assertScopeMapMembership {m : ScopeMap} {r r' : Resource}
    (h : assertScopeMapMembership env m r r' = .error e) : Worded e := by
  obtain ⟨entry, -, hentry⟩ := error_of_forM h
  split at hentry
  · obtain ⟨s, -, hs⟩ := error_of_forM hentry
    unfold checkMapped at hs
    split at hs
    · cases hs
    · exact Except.error.inj hs ▸ worded_invalidRequest _
  · exact Except.error.inj hentry ▸ worded_invalidRequest _

theorem worded_checkEnds {r r' : Resource} (h : checkEnds env link r r' = .error e) : Worded e := by
  unfold checkEnds at h
  cases hmint : r.isMint with
  | false =>
    rw [hmint] at h
    exact Except.error.inj h ▸ worded_invalidRequest _
  | true =>
    rw [hmint] at h
    change (assertScopeMapMembership env link.scopeMap r r' >>= fun _ => _) = .error e at h
    cases hmap : assertScopeMapMembership env link.scopeMap r r' with
    | error e' =>
      rw [hmap] at h
      exact worded_assertScopeMapMembership (hmap.trans h)
    | ok u =>
      rw [hmap] at h
      change (if r'.isBroker && r'.brokerProviderID == "" then throw _ else pure ()) =
        Except.error e at h
      split at h
      · exact Except.error.inj h ▸ worded_invalidRequest _
      · cases h

/-! ### The calls -/

theorem reads_lookupResource (slug param : String) : (lookupResource env slug param).Each Eq :=
  (Prog.each_query fun _ => rfl).attempt.bind fun _ => Prog.each_ofExcept _

theorem reads_validateForPatch : (validateForPatch env link).Each Eq :=
  .ofExcept fun _ => (reads_lookupResource _ _).bind fun _ =>
    (reads_lookupResource _ _).bind fun _ => Prog.each_ofExcept _

theorem reads_assertNoLink : (assertNoLink source target).Each Eq :=
  (Prog.each_query fun _ => rfl).attempt.bind fun _ => Prog.each_ofExcept _

theorem snd_run_of_reads {α : Type} {p : Svc α} (hp : p.Each Eq) (plan : List Bool) (w : World) :
    (p.run plan w).2 = w :=
  (hp.run (fun _ => rfl) (fun _ _ _ => Eq.trans) plan w).symm

theorem worded_lookupResource {slug param : String}
    (h : (lookupResource env slug param).run plan w = (.error e, t)) : Worded e := by
  rw [lookupResource, run_attempt_fetch_bind, Prog.run_ofExcept] at h
  cases hread : (if plan.headD false then .error storeFault
    else ResourceStore.getBySlug slug w : Except Err Resource) with
  | ok r =>
    rw [hread] at h
    cases (Prod.mk.inj h).1
  | error e' =>
    rw [hread] at h
    have he := Except.error.inj (Prod.mk.inj h).1
    dsimp only at he
    split at he
    · exact he ▸ worded_invalidRequest _
    · exact he ▸ worded_wrap _ _

theorem worded_validateForPatch
    (h : (validateForPatch env link).run plan w = (.error e, t)) : Worded e := by
  obtain ⟨e', hfail, he⟩ | ⟨_, u, rest, -, hsource⟩ := Prog.split_run_bind h
  · rw [Prog.run_ofExcept] at hfail
    exact Except.error.inj he ▸ worded_validate (Prod.mk.inj hfail).1
  obtain ⟨e', hfail, he⟩ | ⟨r, v, rest', -, htarget⟩ := Prog.split_run_bind hsource
  · exact Except.error.inj he ▸ worded_lookupResource hfail
  obtain ⟨e', hfail, he⟩ | ⟨r', v', rest'', -, hends⟩ := Prog.split_run_bind htarget
  · exact Except.error.inj he ▸ worded_lookupResource hfail
  · rw [Prog.run_ofExcept] at hends
    exact worded_checkEnds (Prod.mk.inj hends).1

theorem worded_assertNoLink
    (h : (assertNoLink source target).run plan w = (.error e, t)) : Worded e := by
  rw [assertNoLink, run_attempt_fetch_bind, Prog.run_ofExcept] at h
  have he := (Prod.mk.inj h).1
  split at he
  · exact fun heq => by
      rw [heq] at he
      cases he
  · split at he
    · cases he
    · exact Except.error.inj he ▸ worded_wrap _ _

theorem worded_createLink (h : (FrontingLinkStore.create link w).1 = .error e) : Worded e := by
  unfold FrontingLinkStore.create at h
  split at h
  · exact fun heq => by
      rw [heq] at h
      cases h
  · split at h
    · cases h
    · exact Except.error.inj h ▸ fun heq => by cases heq

/-- The way back that a new link would close. -/
def WayBack (w : World) (link : FrontingLink) : Prop :=
  Relation.TransGen (fun a b => b ∈ nextSlugs w a) link.targetSlug link.sourceSlug

/-- What the walk of a new link has found out, if the store let it. -/
theorem cases_of_walkFor {r : Except Err Unit}
    (h : (assertNoCycle env nodes link.sourceSlug link.targetSlug).run plan w = (r, t)) :
    t = w ∧ (r = .ok () → ¬WayBack w link) ∧
      (r = .error (.sentinel .frontingLinkCycle) → WayBack w link) := by
  obtain ⟨r', hrun, hr'⟩ :=
    @cases_of_walk env w link.sourceSlug nodes [link.targetSlug] [link.targetSlug] plan
  obtain ⟨rfl, rfl⟩ := Prod.mk.inj (hrun.symm.trans h)
  refine ⟨rfl, fun hok => ?_, fun hcycle => ?_⟩
  · rcases hr' with hr' | ⟨-, d, hr'⟩
    · have hend := eq_of_verdict_ok (hr'.symm.trans hok)
      exact not_reaches_of_search (fun x hx hstack => absurd hx hstack) List.mem_cons_self hend
    · cases hr'.symm.trans hok
  · rcases hr' with hr' | ⟨-, d, hr'⟩
    · obtain ⟨a, ha, hreach⟩ := reaches_of_search (eq_of_verdict_cycle (hr'.symm.trans hcycle))
      obtain rfl := List.mem_singleton.mp ha
      exact hreach
    · cases hr'.symm.trans hcycle

/-- What a `Create` does: it leaves the links as they are, and then it has found a way back if it
says so; or it has found none and inserts the link. -/
theorem cases_of_create {r : Except Err Unit}
    (h : (create env nodes (some link)).run plan w = (r, t)) :
    (r = .error (.sentinel .frontingLinkCycle) → link.validate = .ok () ∧ WayBack w link) ∧
      (t = w ∨ link.validate = .ok () ∧ ¬WayBack w link ∧
        t = (FrontingLinkStore.create link w).2) := by
  have hsame : ∀ {p : Svc Unit} {plan r u} (v : World), p.Each Eq → p.run plan v = (r, u) → u = v :=
    fun v hp hrun => (congrArg Prod.snd hrun).symm.trans (snd_run_of_reads hp _ v)
  rw [create, validate, Prog.bind_assoc] at h
  obtain ⟨e, hfail, rfl⟩ | ⟨_, u, rest, hvalid, hnew⟩ := Prog.split_run_bind h
  · refine ⟨fun heq => absurd (Except.error.inj heq) (worded_validateForPatch hfail), .inl ?_⟩
    exact hsame w reads_validateForPatch hfail
  obtain rfl := hsame w reads_validateForPatch hvalid
  have hlink : link.validate = .ok () := by
    obtain ⟨_, _, _, hcheck, -⟩ := Prog.ok_of_run_bind hvalid
    exact (Prog.ok_of_run_ofExcept hcheck).1
  rw [Prog.bind_assoc] at hnew
  obtain ⟨e, hfail, rfl⟩ | ⟨_, v, rest', hnone, hwalk⟩ := Prog.split_run_bind hnew
  · refine ⟨fun heq => absurd (Except.error.inj heq) (worded_assertNoLink hfail), .inl ?_⟩
    exact hsame u reads_assertNoLink hfail
  obtain rfl := hsame u reads_assertNoLink hnone
  obtain ⟨e, hfail, rfl⟩ | ⟨_, x, rest'', hdone, hstore⟩ := Prog.split_run_bind hwalk
  · obtain ⟨rfl, -, hback⟩ := cases_of_walkFor hfail
    refine ⟨fun heq => ⟨hlink, hback ?_⟩, .inl rfl⟩
    rw [Except.error.inj heq]
  · obtain ⟨rfl, hnoway, -⟩ := cases_of_walkFor hdone
    rcases Prog.split_run_exec hstore with hmade | ⟨rfl, rfl⟩
    · refine ⟨fun heq => ?_, .inr ⟨hlink, hnoway rfl, (congrArg Prod.snd hmade).symm⟩⟩
      exact absurd rfl (worded_createLink ((congrArg Prod.fst hmade).trans heq))
    · exact ⟨fun heq => (by cases heq), .inl rfl⟩

theorem targetSlug_ne_of_validate (h : link.validate = .ok ()) : link.targetSlug ≠ "" := by
  intro hempty
  unfold FrontingLink.validate at h
  split at h
  · cases h
  · rw [if_pos (by simp [hempty])] at h
    cases h

theorem wayBack_iff (hw : Named w) (htarget : link.targetSlug ≠ "") :
    WayBack w link ↔ Relation.TransGen (Fronts w) link.targetSlug link.sourceSlug :=
  transGen_nextSlugs hw htarget

theorem not_acyclic_of_transGen (h : Relation.TransGen (Fronts w) link.targetSlug link.sourceSlug) :
    ¬Acyclic (FrontsWith w link) := by
  intro hacyclic
  refine hacyclic link.sourceSlug (.head (.inr ⟨rfl, rfl⟩) ?_)
  exact Relation.TransGen.mono (fun _ _ => .inl) _ _ h

/-- The links are named and there is no cycle. -/
def Sound (w : World) : Prop :=
  Named w ∧ Acyclic (Fronts w)

theorem sound_create (hw : Sound w) (link : Option FrontingLink) (plan : List Bool) :
    Sound ((create env nodes link).run plan w).2 := by
  cases link with
  | none => exact hw
  | some link =>
    obtain ⟨-, hsame | ⟨hlink, hnoway, hcreated⟩⟩ := cases_of_create (Prod.ext rfl rfl)
    · rw [hsame]
      exact hw
    · rw [hcreated]
      have htarget := targetSlug_ne_of_validate hlink
      constructor
      · unfold FrontingLinkStore.create
        split
        · exact hw.1
        · split
          · intro l hl
            rcases List.mem_append.mp hl with hold | hnew
            · exact hw.1 l hold
            · exact List.mem_singleton.mp hnew ▸ htarget
          · exact hw.1
      · refine acyclic_createLink hw.2 fun hreach => ?_
        rw [wayBack_iff hw.1 htarget] at hnoway
        rcases Relation.reflTransGen_iff_eq_or_transGen.mp hreach with heq | hreach
        · exact FrontingLink.ne_of_validate hlink heq
        · exact hnoway hreach

theorem sound_delete (hw : Sound w) (plan : List Bool) :
    Sound ((delete source target).run plan w).2 := by
  cases hrun : (delete source target).run plan w with
  | mk r t =>
    rcases Prog.split_run_exec hrun with hmade | ⟨-, rfl⟩
    · have hshrink := linksShrink_delete w source target
      rw [hmade] at hshrink
      exact ⟨fun l hl => hw.1 l (hshrink l hl), hw.2.mono hshrink.fronts⟩
    · exact hw

theorem resources_of_validateForPatch (h : (validateForPatch env link).run [] w = (.ok (), t)) :
    (w.resources.any (·.slug == link.sourceSlug) &&
      w.resources.any (·.slug == link.targetSlug)) = true := by
  have hexists : ∀ {slug param : String} {v : World} {rest : List Bool} {r : Resource},
      (lookupResource env slug param).run rest w =
        (.ok r, v) → w.resources.any (·.slug == slug) = true := by
    intro slug param v rest r hlookup
    rw [lookupResource, run_attempt_fetch_bind, Prog.run_ofExcept] at hlookup
    have hread := mapError_eq_ok.mp (Prod.mk.inj hlookup).1
    split at hread
    · cases hread
    · exact List.any_eq_true.mpr ⟨r, Table.mem_of_lookup hread⟩
  obtain ⟨_, u, rest, hcheck, hsource⟩ := Prog.ok_of_run_bind h
  obtain ⟨-, rfl⟩ := Prog.ok_of_run_ofExcept hcheck
  obtain ⟨r, v, rest', hfirst, htarget⟩ := Prog.ok_of_run_bind hsource
  obtain rfl : v = u :=
    (congrArg Prod.snd hfirst).symm.trans (snd_run_of_reads (reads_lookupResource _ _) _ u)
  obtain ⟨r', v', rest'', hsecond, -⟩ := Prog.ok_of_run_bind htarget
  rw [hexists hfirst, hexists hsecond]
  rfl

theorem create_ok (hw : Named w) (hnodes : w.frontingLinks.length < nodes)
    (hvalid : ((validateForPatch env link).run [] w).1 = .ok ())
    (hnew : FrontingLinkStore.get link.sourceSlug link.targetSlug w =
      .error (.sentinel .frontingLinkNotFound))
    (hkeeps : Acyclic (FrontsWith w link)) :
      ((create env nodes (some link)).run [] w).1 = .ok () := by
  have hrun : (validateForPatch env link).run [] w = (.ok (), w) :=
    Prod.ext hvalid (snd_run_of_reads reads_validateForPatch [] w)
  have hlink : link.validate = .ok () := by
    obtain ⟨_, _, _, hcheck, -⟩ := Prog.ok_of_run_bind hrun
    exact (Prog.ok_of_run_ofExcept hcheck).1
  have hnone : (assertNoLink link.sourceSlug link.targetSlug).run [] w = (.ok (), w) := by
    rw [assertNoLink, run_attempt_fetch_bind]
    simp only [List.headD_nil, Bool.false_eq_true, if_false, hnew, Prog.run_ofExcept]
    rfl
  have hwalk : (assertNoCycle env nodes link.sourceSlug link.targetSlug).run [] w =
    (.ok (), w) := by
    rcases cases_of_assertNoCycle env link.sourceSlug hw
      (targetSlug_ne_of_validate hlink) hnodes with
      ⟨-, hreach⟩ | ⟨hdone, -⟩
    · exact absurd hkeeps (not_acyclic_of_transGen hreach)
    · exact hdone
  have hstore : FrontingLinkStore.create link w =
      (.ok (), { w with frontingLinks := w.frontingLinks ++ [link] }) := by
    have hfresh :
      w.frontingLinks.any (FrontingLinkStore.joins link.sourceSlug link.targetSlug) = false := by
      rw [List.any_eq_false]
      exact List.find?_eq_none.mp (Table.lookup_eq_error.mp hnew)
    rw [FrontingLinkStore.create, hfresh, if_neg Bool.false_ne_true,
      if_pos (resources_of_validateForPatch hrun)]
  rw [create, validate, Prog.bind_assoc, Prog.run_bind, hrun]
  dsimp only
  rw [Prog.bind_assoc, Prog.run_bind, hnone]
  dsimp only
  rw [Prog.run_bind, hwalk]
  dsimp only
  rw [store, Prog.exec, Prog.run, Prog.run_ofExcept, List.headD_nil, Prog.outcome_false, hstore]

end FrontingService

/-! ### One call after another -/

/-- The world after a sequence of calls that create and delete links, each with the store calls of
it that fail. -/
def linked (env : Env) (calls : List (LinkCall × List Bool)) (w : World) : World :=
  Prog.runSeq (LinkCall.prog env) calls w

theorem sound_linked (env : Env) (calls : List (LinkCall × List Bool)) {w : World}
    (hw : FrontingService.Sound w) :
    FrontingService.Sound (linked env calls w) := by
  refine Prog.inv_runSeq (fun call plan w hw => ?_) calls hw
  cases call with
  | create nodes link => exact FrontingService.sound_create hw link plan
  | delete source target => exact FrontingService.sound_delete hw plan

section

open FrontingService

/-- **The cycle check is exact.** On every set of links the check ends, and it reports a cycle if
and only if there is a way from the target back to the source; a link from a slug to itself is not
valid. So a sequence of calls keeps the links acyclic, and at every point of it a link that is
refused for a cycle would close one, and a link that passes the other checks and would close none is
accepted. -/
theorem cycle_check_exact (env : Env) :
    (∀ w source target nodes, Named w → target ≠ "" → w.frontingLinks.length < nodes →
      ((assertNoCycle env nodes source target).run [] w =
        (.error (.sentinel .frontingLinkCycle), w) ∧ Relation.TransGen (Fronts w) target source) ∨
      ((assertNoCycle env nodes source target).run [] w = (.ok (), w) ∧
        ¬Relation.TransGen (Fronts w) target source)) ∧
    (∀ link : FrontingLink, link.sourceSlug = link.targetSlug → link.validate ≠ .ok ()) ∧
    ∀ w calls, Named w → Acyclic (Fronts w) →
      Acyclic (Fronts (linked env calls w)) ∧
      ∀ link nodes,
        (∀ plan, ((create env nodes (some link)).run plan (linked env calls w)).1 =
            .error (.sentinel .frontingLinkCycle) →
              ¬Acyclic (FrontsWith (linked env calls w) link)) ∧
        ((linked env calls w).frontingLinks.length < nodes →
          ((validateForPatch env link).run [] (linked env calls w)).1 = .ok () →
          FrontingLinkStore.get link.sourceSlug link.targetSlug (linked env calls w) =
            .error (.sentinel .frontingLinkNotFound) →
          Acyclic (FrontsWith (linked env calls w) link) →
          ((create env nodes (some link)).run [] (linked env calls w)).1 = .ok ()) := by
  refine ⟨fun w source target nodes hw htarget hnodes =>
    cases_of_assertNoCycle env source hw htarget hnodes,
    fun link heq hvalid => FrontingLink.ne_of_validate hvalid heq,
      fun w calls hnamed hacyclic => ?_⟩
  obtain ⟨hnamed, hacyclic⟩ := sound_linked env calls ⟨hnamed, hacyclic⟩
  refine ⟨hacyclic, fun link nodes => ⟨fun plan hcycle => ?_, fun hnodes hvalid hnew hkeeps => ?_⟩⟩
  · obtain ⟨hlink, hback⟩ := (cases_of_create (Prod.ext hcycle rfl)).1 rfl
    exact not_acyclic_of_transGen ((wayBack_iff hnamed (targetSlug_ne_of_validate hlink)).mp hback)
  · exact create_ok hnamed hnodes hvalid hnew hkeeps

/-- The world of two resources with a link from the first to the second. -/
def oneLink : World := linked Env.plain [(linkBetween "a" "b", [])] twoResources

theorem acyclic_joining : Acyclic (FrontsWith twoResources (joining "a" "b")) := by
  have hedge : ∀ x y, FrontsWith twoResources (joining "a" "b") x y → x = "a" ∧ y = "b" := by
    rintro x y (⟨l, hl, -⟩ | hnew)
    · cases hl
    · exact hnew
  intro x hx
  obtain ⟨y, hfirst, -⟩ := Relation.TransGen.head'_iff.mp hx
  obtain ⟨z, -, hlast⟩ := Relation.TransGen.tail'_iff.mp hx
  exact absurd ((hedge x y hfirst).1.symm.trans (hedge z x hlast).2) (by decide)

/-- The first link is accepted, and the one back is refused, which would close a cycle. -/
theorem cycle_check_exact_back :
    ((create Env.plain 3 (some (joining "a" "b"))).run [] twoResources).1 = .ok () ∧
      ((create Env.plain 3 (some (joining "b" "a"))).run [] oneLink).1 =
        .error (.sentinel .frontingLinkCycle) ∧
      Relation.TransGen (Fronts oneLink) "a" "b" ∧ Acyclic (Fronts oneLink) ∧
      ¬Acyclic (FrontsWith oneLink (joining "b" "a")) := by
  obtain ⟨hcheck, -, hcalls⟩ := cycle_check_exact Env.plain
  have hnamed : Named twoResources := fun l hl => absurd hl List.not_mem_nil
  have hrefused : ((create Env.plain 3 (some (joining "b" "a"))).run [] oneLink).1 =
      .error (.sentinel .frontingLinkCycle) := by decide +kernel
  obtain ⟨-, hempty⟩ := hcalls twoResources [] hnamed acyclic_twoResources
  obtain ⟨hacyclic, hlinks⟩ :=
    hcalls twoResources [(linkBetween "a" "b", [])] hnamed acyclic_twoResources
  have hnamed' : ∀ l ∈ oneLink.frontingLinks, l.targetSlug ≠ "" := by decide +kernel
  have hback := hcheck oneLink "b" "a" 3 hnamed' (by decide) (by decide +kernel)
  have hno : ((assertNoCycle Env.plain 3 "b" "a").run [] oneLink).1 ≠ .ok () := by decide +kernel
  refine ⟨(hempty (joining "a" "b") 3).2 (by decide) (by decide +kernel) (by decide)
    acyclic_joining, hrefused, ?_, hacyclic, (hlinks (joining "b" "a") 3).1 [] hrefused⟩
  rcases hback with ⟨-, hway⟩ | ⟨hrun, -⟩
  · exact hway
  · exact absurd (congrArg Prod.fst hrun) hno

end

end AuthServer
