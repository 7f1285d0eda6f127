import AuthServer.Graph.Acyclic
import AuthServer.Graph.Search
import AuthServer.Interleave.Exclusive
import AuthServer.Service.Rules

/-!
# The graph of the fronting links

`FrontingService.Create` refuses a link that would close a cycle: it walks the stored links from the
new link's target and looks for its source. The walk and the insertion are separate store calls, in
no transaction, so that two calls can both walk before either inserts. `acyclic_exec` says that this
is all that can go wrong: the links stay acyclic if no link is inserted while another `Create` is
under way. Deletions may happen at any time. -/

namespace AuthServer

open Interleave

open Graph

def Fronts (w : World) (source target : String) : Prop :=
  ∃ l ∈ w.frontingLinks, l.sourceSlug = source ∧ l.targetSlug = target

/-- Links only went. -/
def LinksShrink (w w' : World) : Prop := ∀ l ∈ w'.frontingLinks, l ∈ w.frontingLinks

variable {w w' s : World} {source target : String}

theorem LinksShrink.fronts (h : LinksShrink w w') (a b : String) (hab : Fronts w' a b) :
    Fronts w a b := by
  obtain ⟨l, hl, hends⟩ := hab
  exact ⟨l, h l hl, hends⟩

/-- The contract of a call that keeps the links acyclic while others may delete links. -/
def pruning : Contract ReqID World :=
  { Contract.solo 0 LinksShrink True (fun _ _ hl => hl) (fun h h' l hl => h l (h' l hl)) with
    inv := fun w => Acyclic (Fronts w) }

theorem tolerant_pruning : Tolerant pruning 0 := by
  intro u v hu h
  have hlinks : LinksShrink u v := by
    obtain ⟨_, _, _, -, rfl⟩ := h
    exact fun l hl => hl
  exact ⟨hu.mono hlinks.fronts, fun _ => hlinks, fun _ => hlinks⟩

namespace FrontingService

/-! ### The walk -/

/-- What the walk knows of the links: those of the nodes it is done with lead to nodes it has seen,
and it has not seen the source. -/
structure Explored (source : String) (visited stack : List String) (w : World) : Prop where
  closed : ∀ node ∈ visited, node ∉ stack → ∀ next, Fronts w node next → next ∈ visited
  avoids : source ∉ visited

theorem follow_eq (source : String) (out : List FrontingLink) (visited stack : List String) :
    follow source out visited stack =
      (scan source (out.map FrontingLink.targetSlug) visited stack).elim
      (.error (.sentinel .frontingLinkCycle)) .ok := by
  induction out generalizing visited stack with
  | nil => rfl
  | cons e out ih =>
    simp only [follow, List.map_cons, scan, beq_iff_eq, List.contains_iff_mem, ih]
    split
    · rfl
    · split <;> rfl

variable {visited stack : List String} {found : List String × List String}

theorem scanned_of_follow {out : List FrontingLink}
    (h : follow source out visited stack = .ok found) :
    Scanned source (out.map FrontingLink.targetSlug) visited stack found := by
  rw [follow_eq] at h
  cases hscan : scan source (out.map FrontingLink.targetSlug) visited stack with
  | none =>
    rw [hscan] at h
    cases h
  | some found' =>
    rw [hscan] at h
    exact Except.ok.inj h ▸ scanned_of_scan hscan

/-- The slugs that a node has links to, as the walk reads them. -/
def nextSlugs (w : World) (node : String) : List String :=
  (FrontingLinkStore.listFrom node w).map FrontingLink.targetSlug

theorem mem_nextSlugs {node next : String} (h : Fronts w node next) : next ∈ nextSlugs w node := by
  obtain ⟨l, hl, hnode, hnext⟩ := h
  refine List.mem_map.mpr ⟨l, (List.mem_insertionSort _).mpr (List.mem_filter.mpr ⟨hl, ?_⟩), hnext⟩
  simp [hnode]

/-- One node of the walk: its links are read at `u`, and meanwhile links only went. -/
theorem Explored.follow {node : String} {u t : World}
    (h : Explored source visited (node :: stack) s) (hsu : LinksShrink s u) (hut : LinksShrink u t)
    (hfound : Scanned source (nextSlugs u node) visited stack found) :
    Explored source found.1 found.2 t where
  closed x hx hstack next hnext := by
    rcases hfound.new x hx with hold | hnew
    · by_cases hnode : x = node
      · subst hnode
        exact hfound.out_subset next (mem_nextSlugs (hut.fronts _ _ hnext))
      · have hdone : x ∉ node :: stack := by
          simp only [List.mem_cons, not_or]
          exact ⟨hnode, fun hmem => hstack (hfound.stack_subset x hmem)⟩
        exact hfound.seen_subset _
          (h.closed x hold hdone next (hsu.fronts _ _ (hut.fronts _ _ hnext)))
    · exact absurd hnew hstack
  avoids := hfound.fresh h.avoids

variable {env : Env}

/-- A walk that ends has shown that nothing it has seen reaches the source. -/
theorem pruning_walk (nodes : ℕ) (hs : pruning.inv s) (htarget : target ∈ visited)
    (h : Explored source visited stack s) :
    Ensures pruning 0 (fun _ t => pruning.inv t ∧ ¬ Relation.ReflTransGen (Fronts t) target source)
      (walk env source nodes visited stack) s := by
  induction nodes generalizing visited stack s with
  | zero =>
    cases stack with
    | nil => exact ⟨hs, fun hreach => h.avoids (mem_of_closed
        (fun a b ha hab => h.closed a ha List.not_mem_nil b hab) htarget hreach)⟩
    | cons node stack => trivial
  | succ nodes ih =>
    cases stack with
    | nil => exact ⟨hs, fun hreach => h.avoids (mem_of_closed
        (fun a b ha hab => h.closed a ha List.not_mem_nil b hab) htarget hreach)⟩
    | cons node stack =>
      refine tolerant_pruning.readWrapped hs fun out t _ ht hread => ?_
      obtain ⟨u, -, hsu, hut, hout⟩ := hread
      obtain rfl := Except.ok.inj hout
      refine .bindOfExcept fun found hfollow => ?_
      have hfound := scanned_of_follow hfollow
      exact ih ht (hfound.seen_subset _ htarget) (h.follow (hsu rfl) (hut rfl) hfound)

/-! ### The two calls -/

theorem acyclic_createLink {link : FrontingLink} (h : Acyclic (Fronts w))
    (hback : ¬ Relation.ReflTransGen (Fronts w) link.targetSlug link.sourceSlug) :
    Acyclic (Fronts (FrontingLinkStore.create link w).2) := by
  unfold FrontingLinkStore.create
  split
  · exact h
  · split
    · refine h.insert (fun a b hab => ?_) hback
      obtain ⟨l, hl, hends⟩ := hab
      rcases List.mem_append.mp hl with hold | hnew
      · exact .inl ⟨l, hold, hends⟩
      · rw [List.mem_singleton.mp hnew] at hends
        exact .inr ⟨hends.1.symm, hends.2.symm⟩
    · exact h

theorem pruning_validateForPatch {link : FrontingLink} (hs : pruning.inv s) :
    Ensures pruning 0 (fun _ t => pruning.inv t ∧ link.sourceSlug ≠ link.targetSlug)
      (validateForPatch env link) s :=
  Ensures.bindOfExcept fun _ hvalid => tolerant_pruning.quiet
    ((each_lookupResource _ _).bind fun _ => (each_lookupResource _ _).bind fun _ =>
      Prog.each_ofExcept _) hs fun _ _ _ ht => ⟨ht, FrontingLink.ne_of_validate hvalid⟩

theorem pruning_create (nodes : ℕ) (link : Option FrontingLink) (hs : pruning.inv s) :
    Ensures pruning 0 (fun _ _ => True) (create env nodes link) s := by
  cases link with
  | none => trivial
  | some link =>
    refine .bind (Ensures.seq (pruning_validateForPatch hs) fun _ t h => ?_)
    obtain ⟨ht, hne⟩ := h
    refine tolerant_pruning.pass (each_assertNoLink _ _) ht fun _ u _ hu => ?_
    have hexplored : Explored link.sourceSlug [link.targetSlug] [link.targetSlug] u :=
      ⟨fun node hnode hstack => absurd hnode hstack, by simpa using hne⟩
    refine (pruning_walk nodes hu List.mem_cons_self hexplored).mono fun _ v hv => ?_
    exact Ensures.exec (fun _ => ⟨acyclic_createLink hv.1 hv.2, fun hne => absurd rfl hne⟩)
      fun _ _ _ _ _ _ => trivial

theorem linksShrink_delete (w : World) (source target : String) :
    LinksShrink w (FrontingLinkStore.delete source target w).2 := by
  unfold FrontingLinkStore.delete
  split
  · exact fun l hl => List.mem_of_mem_filter hl
  · exact fun l hl => hl

theorem pruning_delete (hs : pruning.inv s) : Ensures pruning 0 (fun _ _ => True)
    (delete source target) s := by
  refine .exec (fun _ => ⟨?_, fun hne => absurd rfl hne⟩) fun _ _ _ _ _ _ => trivial
  exact hs.mono (linksShrink_delete s source target).fronts

end FrontingService

/-! ### Interleavings -/

/-- A call that creates or deletes a link. -/
inductive LinkCall
  | create (nodes : ℕ) (link : Option FrontingLink)
  | delete (sourceSlug targetSlug : String)

def LinkCall.prog (env : Env) : LinkCall → Svc Unit
  | create nodes link => FrontingService.create env nodes link
  | delete source target => FrontingService.delete source target

/-- The calls, all of them yet to begin. -/
def linkPool {ι : Type} (env : Env) (calls : ι → LinkCall) (w : World) :
    Pool ι World Err fun _ => Unit :=
  ⟨w, fun i => (calls i).prog env⟩

/-- The links stay acyclic in every interleaving in which no link is inserted while another call is
under way. -/
theorem acyclic_exec {ι : Type} [DecidableEq ι] (env : Env) (calls : ι → LinkCall) (w : World)
    (hw : Acyclic (Fronts w)) (sched : List (ι × Bool))
    (halone : Pool.Exclusive LinksShrink (linkPool env calls w) sched) (pre : List (ι × Bool))
    (hpre : pre <+: sched) : Acyclic (Fronts ((linkPool env calls w).exec pre).store) := by
  have hstart : ∀ i s, pruning.inv s →
      Safe pruning 0 (fun _ _ => True) (fun _ _ => True) ((linkPool env calls w).procs i) s := by
    intro i s hs
    change Safe pruning 0 _ _ ((calls i).prog env) s
    cases calls i with
    | create nodes link => exact FrontingService.pruning_create nodes link hs
    | delete source target => exact FrontingService.pruning_delete hs
  have hinv : pruning.inv (linkPool env calls w).store := hw
  refine Pool.inv_of_exclusive (fun _ _ => trivial) trivial hinv hstart ?_ hpre
  exact fun pre i bad post hsched hcalm j hj => halone pre i bad post hsched
    (fun hshrink => hcalm fun _ => hshrink) j hj

def twoResources : World :=
  { World.empty 0 with
    resources := [⟨"1", "a", "", .mint, "", [⟨"read", ""⟩], ⟨[], [], []⟩⟩,
      ⟨"2", "b", "", .mint, "", [⟨"read", ""⟩], ⟨[], [], []⟩⟩] }

def joining (source target : String) : FrontingLink :=
  ⟨source, target, ⟨[("read", ["read"])], by decide⟩⟩

def linkBetween (source target : String) : LinkCall := .create 3 (some (joining source target))

def crossing : Bool → LinkCall
  | false => linkBetween "a" "b"
  | true => linkBetween "b" "a"

theorem acyclic_twoResources : Acyclic (Fronts twoResources) := by
  intro a ha
  obtain ⟨b, ⟨l, hl, -⟩, -⟩ := Relation.TransGen.head'_iff.mp ha
  exact absurd hl List.not_mem_nil

theorem acyclic_exec_one :
    Acyclic (Fronts ((linkPool Env.plain crossing twoResources).exec
      (List.replicate 5 (false, false))).store) ∧
    ((linkPool Env.plain crossing twoResources).exec
      (List.replicate 5 (false, false))).store.frontingLinks.length = 1 := by
  refine ⟨acyclic_exec Env.plain crossing twoResources acyclic_twoResources
    (List.replicate 5 (false, false)) ?_ _ (List.prefix_refl _), by decide⟩
  intro pre i bad post hsched _ j hj
  have hall : ∀ e ∈ pre ++ (i, bad) :: post, e = (false, false) := by
    rw [← hsched]
    exact fun e he => List.eq_of_mem_replicate he
  have hi : i = false := congrArg Prod.fst (hall (i, bad) (by simp))
  refine .inl fun e he heq => hj ?_
  rw [← heq, hall e (by simp [he]), hi]

/-- Both calls walk before either inserts, and both insert. -/
theorem creates_close_cycle :
    Acyclic (Fronts twoResources) ∧
    ¬ Acyclic (Fronts ((linkPool Env.plain crossing twoResources).exec
      (List.replicate 4 (false, false) ++ List.replicate 4 (true, false) ++
        [(false, false), (true, false)])).store) := by
  refine ⟨acyclic_twoResources, fun h => h "a" ?_⟩
  exact .tail (.single ⟨joining "a" "b", by decide, rfl, rfl⟩)
    ⟨joining "b" "a", by decide, rfl, rfl⟩

end AuthServer
