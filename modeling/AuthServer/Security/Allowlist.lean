import AuthServer.Service.Admin
import AuthServer.Service.ExchangeScope

/-!
# Editing the allowlist of a resource

The operator gate of an exchange lets every client pass where the allowlist is empty, and the
clients that are listed where it is not. So taking a client off the list shuts this client out,
except when it was the last one: then the list is empty and the gate is open to all.
`refused_after_removeAllowedClient` says that this is the only way in which a removal lets anyone
in, after any sequence of edits and whatever store calls fail. -/

namespace AuthServer

open Interleave Table

namespace ResourceAdminService

variable {env : Env} {slug clientID x : String} {r : Resource} {w t : World}

/-- An edit of the allowlist of a resource. -/
inductive AllowlistCall
  | add (clientID : String)
  | remove (clientID : String)
  deriving DecidableEq, Repr

def AllowlistCall.prog (env : Env) (slug : String) : AllowlistCall → Svc (List String)
  | add clientID => addAllowedClient env slug clientID
  | remove clientID => removeAllowedClient slug clientID

/-- The world after a sequence of edits, each with the store calls of it that fail. -/
def edited (env : Env) (slug : String) (calls : List (AllowlistCall × List Bool))
    (w : World) : World :=
  Prog.runSeq (AllowlistCall.prog env slug) calls w

def Sample.listed (id : String) : Client :=
  { id := id, secretHash := "", redirectURIs := [], grantTypes := [], status := .active
    cimdURL := "", scope := "", isAgent := false, registrationSource := .admin, name := ""
    responseTypes := [], tokenEndpointAuthMethod := "", agentDescription := ""
    applicationType := "", version := 0 }

def Sample.docs (allowed : List String) : Resource :=
  ⟨"r", "docs", "https://docs", .mint, "", [], ⟨allowed, [], []⟩⟩

/-- Two clients, and a resource that is open to all. -/
def Sample.unlisted : World :=
  { World.empty 0 with
    clients := [Sample.listed "a", Sample.listed "c"]
    resources := [Sample.docs []] }

def Refuses (r : Resource) (x : String) : Prop :=
  TokenExchange.operatorAllowsClient r.policy.exchangeAllowedClientIDs x = false

instance (r : Resource) (x : String) : Decidable (Refuses r x) :=
  inferInstanceAs (Decidable (_ = _))

theorem refuses_iff :
    Refuses r x ↔
      r.policy.exchangeAllowedClientIDs ≠ [] ∧ x ∉ r.policy.exchangeAllowedClientIDs := by
  simp [Refuses, TokenExchange.operatorAllowsClient]

theorem erase_eq_nil {l : List String} (h : l.erase x = []) (hne : l ≠ []) : l = [x] := by
  cases l with
  | nil => exact absurd rfl hne
  | cons a rest =>
    rw [List.erase_cons] at h
    split at h
    · rename_i heq
      rw [h, beq_iff_eq.mp heq]
    · cases h

theorem getBySlug_eq_ok : ResourceStore.getBySlug slug w = .ok r ↔
    w.resources.find? (·.slug == slug) = some r := lookup_eq_ok

theorem snd_update (r : Resource) (w : World) : (ResourceStore.update r w).2 = w ∨
    (ResourceStore.update r w).2 = { w with
      resources := updateWhere (·.id == r.id) (fun _ => r) w.resources } := by
  unfold ResourceStore.update
  split
  · split
    · exact .inl rfl
    · exact .inr rfl
  · exact .inl rfl

theorem cases_of_removeAllowedClient {plan : List Bool} {res : Except Err (List String)}
    (h : (removeAllowedClient slug clientID).run plan w = (res, t)) :
    t = w ∨ ∃ r, ResourceStore.getBySlug slug w = .ok r ∧ t = { w with
      resources := updateWhere (·.id == r.id)
        (fun _ => setAllowedClients r (r.policy.exchangeAllowedClientIDs.erase clientID))
          w.resources } := by
  obtain ⟨e, hfail, -⟩ | ⟨_, u, rest, hid, hread⟩ := Prog.split_run_bind h
  · rw [Prog.run_failIf] at hfail
    exact .inl (Prod.mk.inj hfail).2.symm
  obtain ⟨-, rfl⟩ := Prog.ok_of_run_failIf hid
  obtain ⟨e, hfail, -⟩ | ⟨r, v, rest', hrow, hedit⟩ := Prog.split_run_bind hread
  · rcases Prog.split_run_exec hfail with hmade | ⟨-, rfl⟩
    · exact .inl (Prod.mk.inj hmade).2.symm
    · exact .inl rfl
  obtain ⟨hfound, rfl⟩ := Prod.mk.inj (Prog.ok_of_run_exec hrow)
  dsimp only at hedit
  split at hedit
  · exact .inl (Prod.mk.inj hedit).2.symm
  have hwritten : ∀ {v}, (ResourceStore.update
      (setAllowedClients r (r.policy.exchangeAllowedClientIDs.erase clientID)) u).2 =
        v → v = u ∨ _ :=
    fun hv => hv ▸ snd_update _ u
  obtain ⟨e, hfail, -⟩ | ⟨_, v, rest'', hwrite, hlist⟩ := Prog.split_run_bind hedit
  · rcases Prog.split_run_exec hfail with hmade | ⟨-, rfl⟩
    · exact (hwritten (congrArg Prod.snd hmade)).imp_right fun ht => ⟨r, hfound, ht⟩
    · exact .inl rfl
  · obtain ⟨-, rfl⟩ := Prod.mk.inj hlist
    exact (hwritten (congrArg Prod.snd (Prog.ok_of_run_exec hwrite))).imp_right
      fun ht => ⟨r, hfound, ht⟩

/-- **A removal lets no one in, unless it empties the list**: a client that the gate refuses after
any sequence of edits it refuses after a removal too, or the removal took out the only entry. -/
theorem refused_after_removeAllowedClient (env : Env) (w : World)
    (calls : List (AllowlistCall × List Bool))
    (clientID : String) (plan : List Bool)
      (hr : ResourceStore.getBySlug slug (edited env slug calls w) = .ok r)
    (hx : Refuses r x) :
    ∃ r', ResourceStore.getBySlug slug
        (edited env slug (calls ++ [(.remove clientID, plan)]) w) = .ok r' ∧
      (Refuses r' x ∨
        r.policy.exchangeAllowedClientIDs =
          [clientID] ∧ r'.policy.exchangeAllowedClientIDs = []) := by
  unfold edited at hr ⊢
  rw [Prog.runSeq_concat]
  generalize Prog.runSeq (AllowlistCall.prog env slug) calls w = before at hr ⊢
  rcases cases_of_removeAllowedClient (Prod.ext rfl rfl) with hsame | ⟨r₀, hr₀, hedited⟩
  · exact ⟨r, hsame ▸ hr, .inl hx⟩
  · obtain rfl : r = r₀ := Except.ok.inj (hr.symm.trans hr₀)
    have hfind := getBySlug_eq_ok.mp hr
    have hslug : (r.slug == slug) = true := by simpa using List.find?_some hfind
    refine ⟨setAllowedClients r (r.policy.exchangeAllowedClientIDs.erase clientID), ?_, ?_⟩
    · rw [getBySlug_eq_ok]
      exact hedited ▸ find?_updateWhere_const hfind (beq_self_eq_true _) hslug
    · obtain ⟨hne, hout⟩ := refuses_iff.mp hx
      by_cases hnil : r.policy.exchangeAllowedClientIDs.erase clientID = []
      · exact .inr ⟨erase_eq_nil hnil hne, hnil⟩
      · exact .inl (refuses_iff.mpr ⟨hnil, fun hin => hout (List.mem_of_mem_erase hin)⟩)

/-- The client `a` is put on the list of a resource that was open to all, which shuts out `b`, and
taken off again. -/
theorem removeAllowedClient_last :
    ResourceStore.getBySlug "docs" (edited Env.plain "docs" [(.add "a", [])] Sample.unlisted) =
        .ok (Sample.docs ["a"]) ∧ Refuses (Sample.docs ["a"]) "b" ∧
      ResourceStore.getBySlug "docs"
        (edited Env.plain "docs" ([(.add "a", [])] ++ [(.remove "a", [])]) Sample.unlisted) =
          .ok (Sample.docs []) ∧
      ¬Refuses (Sample.docs []) "b" := by
  refine ⟨rfl, by decide, rfl, by decide⟩

/-- Of two clients on the list one is taken off, and a third one stays shut out. -/
theorem refused_after_removeAllowedClient_first :
    ∃ r', ResourceStore.getBySlug "docs"
        (edited Env.plain "docs" ([(.add "a", []), (.add "c", [])] ++ [(.remove "a", [])])
          Sample.unlisted) = .ok r' ∧
      (Refuses r' "b" ∨ (Sample.docs ["a", "c"]).policy.exchangeAllowedClientIDs = ["a"] ∧
        r'.policy.exchangeAllowedClientIDs = []) :=
  refused_after_removeAllowedClient (r := Sample.docs ["a", "c"]) Env.plain Sample.unlisted
    [(.add "a", []), (.add "c", [])] "a" [] rfl (by decide)

end ResourceAdminService

end AuthServer
