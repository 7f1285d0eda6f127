import AuthServer.Service.Authorize
import AuthServer.Service.Exchange
import AuthServer.Service.Fronting

/-!
# Proof rules for service programs

Most of what a service method does between two writes is *quiet*: it reads, looks at the clock,
draws random strings, and keeps DPoP identifiers and broker credentials up to date. No property in
this development is about those, so a contract that tolerates quiet steps (`Tolerant`) lets a proof
pass over them. The `Each` lemmas below say which methods are quiet throughout. -/

namespace AuthServer

open Interleave

/-- Nothing has changed but the supply of random strings, the DPoP identifiers and the broker
credentials. -/
def World.Quiet (w w' : World) : Prop :=
  ∃ drawn dpopJTIs brokerGrants, (∀ i, w.drawn i ≤ drawn i) ∧
    w' = { w with drawn := drawn, dpopJTIs := dpopJTIs, brokerGrants := brokerGrants }

theorem World.Quiet.refl (w : World) : w.Quiet w :=
  ⟨w.drawn, w.dpopJTIs, w.brokerGrants, fun _ => le_rfl, rfl⟩

theorem World.Quiet.trans {w w' w'' : World} (h : w.Quiet w')
    (h' : w'.Quiet w'') : w.Quiet w'' := by
  obtain ⟨d, j, b, hd, rfl⟩ := h
  obtain ⟨d', j', b', hd', rfl⟩ := h'
  exact ⟨d', j', b', fun i => (hd i).trans (hd' i), rfl⟩

variable {w w' : World}

theorem World.Quiet.drawn_le (h : w.Quiet w') (j : ReqID) : w.drawn j ≤ w'.drawn j := by
  obtain ⟨_, _, _, hd, rfl⟩ := h
  exact hd j

theorem World.quiet_draw (w : World) (ctx : ReqID) : w.Quiet (w.draw ctx) := by
  refine ⟨_, w.dpopJTIs, w.brokerGrants, fun i => ?_, rfl⟩
  by_cases h : i = ctx
  · subst h
    simp
  · simp [Function.update_of_ne h]

/-- The contract allows participant `i` its quiet steps, and `i` the others'. -/
def Tolerant (C : Contract ReqID World) (i : ReqID) : Prop :=
  ∀ u v, C.inv u → u.Quiet v → C.inv v ∧ C.guar i u v ∧ C.rely i u v

/-- The contract of a request that runs while the others take quiet steps only. -/
def solo (i : ReqID) (faulty : Prop) : Contract ReqID World :=
  Contract.solo i World.Quiet faulty World.Quiet.refl World.Quiet.trans

theorem tolerant_solo (i : ReqID) (faulty : Prop) : Tolerant (solo i faulty) i :=
  fun _ _ _ h => ⟨trivial, fun _ => h, fun _ => h⟩

variable {C : Contract ReqID World} {i : ReqID} {α β : Type} {s : World} {faulty : Prop}

/-- A request that runs alone may do anything. -/
theorem ensures_solo (p : Svc α) : Ensures (solo i faulty) i (fun _ _ => True) p s := by
  induction p generalizing s with
  | ret a => trivial
  | fail e => trivial
  | call f o k ih =>
    exact ⟨fun _ => ⟨trivial, fun h => absurd rfl h, fun t _ _ => ih _⟩, fun _ b _ t _ _ => ih b⟩

/-- What a request ensures that runs alone holds of its result, whatever calls fail. -/
theorem post_of_run {p : Svc α} {Q : α → World → Prop} {plan : List Bool} {a : α} {t : World}
    (hrun : p.run plan s = (.ok a, t)) (h : Ensures (solo i True) i Q p s) : Q a t := by
  have hpost := (h.run trivial (fun _ _ => trivial) plan fun _ _ _ => trivial).2.2.1 a
  rw [hrun] at hpost
  exact hpost rfl

/-! ### Calls -/

section Calls

variable {Q : α → World → Prop}

theorem Tolerant.guar_refl (hC : Tolerant C i) (hs : C.inv s) : C.guar i s s :=
  (hC s s hs (.refl s)).2.1

variable {f : World → Except Err α}

/-- A read: what it returned holds of the world it read. -/
theorem Tolerant.fetch (hC : Tolerant C i) (hs : C.inv s)
    (h : ∀ a, f s = .ok a → ∀ t, C.rely i s t → C.inv t → Q a t) : Ensures C i Q (fetch f) s :=
  Ensures.query hs (fun _ => hC.guar_refl hs) h

/-- A read whose failure is handled. -/
theorem Tolerant.attempt_fetch (hC : Tolerant C i)
    {Q : Except Err α → World → Prop} (hs : C.inv s)
      (h : ∀ r, r = f s ∨ r = .error storeFault ∧ C.faulty →
      ∀ t, C.rely i s t → C.inv t → Q r t) : Ensures C i Q (AuthServer.fetch f).attempt s :=
  Ensures.attempt_query hs (fun _ => hC.guar_refl hs) h

theorem Tolerant.pass (hC : Tolerant C i) {p : Svc β} {g : β → Svc α} (hp : p.Each World.Quiet)
    (hs : C.inv s) (h : ∀ b t, C.rely i s t → C.inv t → Ensures C i Q (g b) t) :
      Ensures C i Q (p >>= g) s :=
  Ensures.pass hp hC hs h

variable {p : Svc α}

theorem Tolerant.quiet (hC : Tolerant C i) (hp : p.Each World.Quiet) (hs : C.inv s)
    (h : ∀ a t, C.rely i s t → C.inv t → Q a t) : Ensures C i Q p s :=
  Safe.of_each hp hC hs h fun _ _ _ _ => trivial

/-- Wrapping an error does not change what a result satisfies. -/
theorem ensures_wrapErr {detail : String} (h : Ensures C i Q p s) :
    Ensures C i Q (wrapErr detail p) s := by
  refine .bind (Safe.attempt (Safe.mono h (fun a t ha => ?_) fun e t _ => ?_))
  · exact ha
  · exact trivial

theorem ensures_runIf {c : Bool} {p : Svc Unit} {Q : Unit → World → Prop}
    (hp : c = true → Ensures C i Q p s) (hskip : c = false → Q () s) :
      Ensures C i Q (runIf c p) s := by
  cases c with
  | true => exact hp rfl
  | false => exact hskip rfl

end Calls

/-! ### What was read -/

section Between

variable {t : World} {env : Env}

/-- Some world between `s` and `t`, as participant `i` can tell, satisfies `P`. -/
def Between (C : Contract ReqID World) (i : ReqID) (s t : World) (P : World → Prop) : Prop :=
  ∃ u, C.inv u ∧ C.rely i s u ∧ C.rely i u t ∧ P u

variable {P : World → Prop}

theorem Between.trans {t' : World} (h : Between C i s t P) (ht : C.rely i t t') :
    Between C i s t' P := by
  obtain ⟨u, hu, hsu, hut, hP⟩ := h
  exact ⟨u, hu, hsu, C.rely_trans hut ht, hP⟩

theorem Between.after {s' : World} (hs : C.rely i s' s) (h : Between C i s t P) :
    Between C i s' t P := by
  obtain ⟨u, hu, hsu, hut, hP⟩ := h
  exact ⟨u, hu, C.rely_trans hs hsu, hut, hP⟩

theorem Between.here (hs : C.inv s) (hst : C.rely i s t) (hP : P s) : Between C i s t P :=
  ⟨s, hs, C.rely_refl i s, hst, hP⟩

theorem Between.of_solo (h : Between (solo i faulty) i s t P)
    (hP : ∀ u, s.Quiet u → P u → P s) : P s := by
  obtain ⟨u, -, hsu, -, hu⟩ := h
  exact hP u (hsu rfl) hu

/-- The string was drawn by participant `i` on the way to `t`. -/
def Drawn (C : Contract ReqID World) (i : ReqID) (env : Env) (id : String) (t : World) : Prop :=
  ∃ u, C.inv u ∧ id = env.random i (u.drawn i) ∧ C.rely i (u.draw i) t

theorem Tolerant.draw (hC : Tolerant C i) {g : String → Svc α} {Q : α → World → Prop} (hs : C.inv s)
    (h : ∀ id t, C.rely i s t → C.inv t → Drawn C i env id t → Ensures C i Q (g id) t) :
    Ensures C i Q (generateRandomString env i >>= g) s := by
  obtain ⟨hinv, hguar, hrely⟩ := hC s _ hs (s.quiet_draw i)
  refine .bind (safe_step fun _ => ⟨hinv, hguar, fun t hst ht => ?_⟩)
  exact h _ t (C.rely_trans hrely hst) ht ⟨s, hs, rfl, hst⟩

/-- A program that goes on after a read, whatever has come of it. -/
theorem run_attempt_fetch_bind (f : World → Except Err α) (g : Except Err α → Svc β)
    (plan : List Bool)
    (w : World) :
    ((fetch f).attempt >>= g).run plan w =
      (g (if plan.headD false then .error storeFault else f w)).run plan.tail w := by
  have hrun : ((fetch f).attempt >>= g).run plan w =
      (((Prog.ofExcept (Prog.outcome (fun s => (f s, s)) (some (.error storeFault))
        (plan.headD false) w).1).attempt >>= g).run plan.tail
        (Prog.outcome (fun s => (f s, s)) (some (.error storeFault)) (plan.headD false) w).2) := rfl
  cases hbad : plan.headD false with
  | true =>
    rw [hrun, hbad]
    rfl
  | false =>
    rw [hrun, hbad, Prog.outcome_false, if_neg Bool.false_ne_true]
    cases f w <;> rfl

/-- A program that goes on with what a read has found, or stops with its error. -/
theorem run_wrapErr_fetch (detail : String) (f : World → Except Err α) (g : α → Svc β)
    (plan : List Bool)
    (w : World) :
    (wrapErr detail (fetch f) >>= g).run plan w =
      match if plan.headD false then .error storeFault else f w with
      | .ok a => (g a).run plan.tail w
      | .error e => (.error (e.wrap detail), w) := by
  rw [wrapErr, Prog.bind_assoc, run_attempt_fetch_bind]
  cases (if plan.headD false then .error storeFault else f w : Except Err α) <;> rfl

variable {detail : String}

theorem ok_of_run_wrapErr {p : Svc α} {plan : List Bool} {a : α}
    (h : (wrapErr detail p).run plan w = (.ok a, w')) : p.run plan w = (.ok a, w') := by
  obtain ⟨r, u, rest, hr, hk⟩ := Prog.ok_of_run_bind h
  rw [Prog.run_attempt] at hr
  obtain ⟨hok, rfl⟩ := Prog.ok_of_run_ofExcept hk
  obtain ⟨hres, hstate⟩ := Prod.mk.inj hr
  refine Prod.ext ?_ hstate
  rw [Except.ok.inj hres]
  exact mapError_eq_ok.mp hok

variable {f : World → Except Err α} {Q : β → World → Prop} {g : α → Svc β}

theorem Tolerant.read (hC : Tolerant C i)
    (hs : C.inv s) (h : ∀ a t, C.rely i s t → C.inv t → Between C i s t (fun u => f u = .ok a) →
      Ensures C i Q (g a) t) : Ensures C i Q (AuthServer.fetch f >>= g) s :=
  Safe.bind (hC.fetch hs fun a ha t hst ht => h a t hst ht (.here hs hst ha))

theorem Tolerant.readWrapped (hC : Tolerant C i)
    (hs : C.inv s)
    (h : ∀ a t, C.rely i s t → C.inv t → Between C i s t (fun u => f u = .ok a) →
      Ensures C i Q (g a) t) : Ensures C i Q (wrapErr detail (AuthServer.fetch f) >>= g) s :=
  Safe.bind (ensures_wrapErr (hC.fetch hs fun a ha t hst ht => h a t hst ht (.here hs hst ha)))

theorem Tolerant.readOr (hC : Tolerant C i) {φ : Err → Err}
    (hs : C.inv s)
    (h : ∀ a t, C.rely i s t → C.inv t → Between C i s t (fun u => f u = .ok a) →
      Ensures C i Q (g a) t) :
    Ensures C i Q ((AuthServer.fetch f).attempt >>= fun r =>
      Prog.ofExcept (r.mapError φ) >>= g) s := by
  refine .bind (hC.attempt_fetch hs fun r hr t hst ht => ?_)
  refine Ensures.bindOfExcept fun a ha => ?_
  have hread : f s = .ok a := by
    rcases hr with rfl | ⟨rfl, -⟩
    · exact mapError_eq_ok.mp ha
    · cases ha
  exact h a t hst ht (.here hs hst hread)

end Between

/-! ### Quiet programs -/

variable (env : Env)

section Quiet

variable {P : World → World → Prop}

theorem each_fetch {f : World → Except Err α} : (fetch f).Each World.Quiet :=
  Prog.each_query fun w => .refl w

theorem each_timeNow : timeNow.Each World.Quiet :=
  Prog.each_step fun w => .refl w

theorem each_generateRandomString (ctx : ReqID) : (generateRandomString env ctx).Each World.Quiet :=
  Prog.each_step fun w => w.quiet_draw ctx

theorem each_wrapErr {detail : String} {p : Svc α} (hp : p.Each P) : (wrapErr detail p).Each P :=
  hp.attempt.bind fun _ => Prog.each_ofExcept _

theorem each_runIf {c : Bool} {p : Svc Unit} (hp : p.Each P) : (runIf c p).Each P := by
  cases c with
  | true => exact hp
  | false => trivial

theorem each_ite {c : Prop} [Decidable c] {p q : Svc α} (hp : p.Each P) (hq : q.Each P) :
    (if c then p else q).Each P := by
  split
  · exact hp
  · exact hq

theorem World.quiet_consumeJTI (jti : String) (expiry : Time) (w : World) :
    w.Quiet (DPoPNonceStore.consumeJTI jti expiry w).2 := by
  unfold DPoPNonceStore.consumeJTI
  split
  · exact .refl w
  · exact ⟨w.drawn, _, w.brokerGrants, fun _ => le_rfl, rfl⟩

theorem each_checkNonce (hread : ∀ w, P w w) (cfg : DPoPConfig) (result : DPoPProof) :
    (checkNonce cfg result).Each P := by
  unfold checkNonce
  exact each_ite ((Prog.each_query hread).attempt.bind fun _ => Prog.each_failIf _ _) trivial

theorem each_validateDPoP (hread : ∀ w, P w w)
    (hconsume : ∀ jti expiry w, P w (DPoPNonceStore.consumeJTI jti expiry w).2) (env : Env)
    (req : DPoPRequest) : (validateDPoP env req).Each P := by
  unfold validateDPoP
  split
  · trivial
  · refine each_ite ?_ trivial
    exact (Prog.each_step hread).bind fun _ => .ofExcept fun _ => .failIf <|
      (each_checkNonce hread _ _).bind fun _ =>
      (Prog.each_step hread).bind fun _ => (Prog.each_exec (hconsume _ _)).bind fun _ =>
      Prog.each_pure _

theorem each_dpopThumbprint (req : DPoPRequest) : (dpopThumbprint env req).Each World.Quiet := by
  unfold dpopThumbprint
  exact each_ite trivial (each_validateDPoP World.Quiet.refl World.quiet_consumeJTI _ _)

theorem each_extractAgentIdentityClaims (clientID : String) (act : Option Json.Object) :
    (extractAgentIdentityClaims env clientID act).Each World.Quiet := by
  unfold extractAgentIdentityClaims
  exact each_ite ((each_wrapErr each_fetch).bind fun _ => Prog.each_pure _) trivial

end Quiet

theorem each_authenticateMachine (clientID clientSecret : String) :
    (authenticateMachine env clientID clientSecret).Each World.Quiet :=
  .failIf <| each_fetch.attempt.bind fun _ =>
    .ofExcept fun _ => .failIf <| .failIf <| .failIf <| Prog.each_pure _

namespace TokenService

theorem each_authenticateClient (clientID clientSecret : String) :
    (authenticateClient env clientID clientSecret).Each World.Quiet :=
  each_fetch.attempt.bind fun _ => .ofExcept fun _ => .failIf <| .failIf <| Prog.each_pure _

theorem each_authorizesResource (r : Resource) (authorized : String) :
    (authorizesResource r authorized).Each World.Quiet := by
  unfold authorizesResource
  exact each_ite trivial (each_fetch.attempt.bind fun _ => Prog.each_pure _)

theorem each_validateRequestedResource (requested authorized : String) :
    (validateRequestedResource env requested authorized).Each World.Quiet := by
  unfold validateRequestedResource
  exact each_ite trivial (each_fetch.attempt.bind fun _ => .ofExcept fun _ =>
    (each_authorizesResource _ _).bind fun _ => Prog.each_failIf _ _)

theorem each_checkSubject (userID : String) (onFault : Err → Err) :
    (checkSubject userID onFault).Each World.Quiet := by
  unfold checkSubject
  exact each_ite trivial (each_fetch.attempt.bind fun _ => .ofExcept fun _ => Prog.each_failIf _ _)

theorem each_resolveForIssuance (resource : String) :
    (resolveForIssuance resource).Each World.Quiet := by
  unfold resolveForIssuance
  exact each_ite trivial (each_fetch.attempt.bind fun _ => Prog.each_pure _)

end TokenService

namespace TokenExchange

theorem each_verifyToken (raw : AccessTokenClaims) : (verifyToken env raw).Each World.Quiet :=
  (each_wrapErr each_fetch).bind fun _ => Prog.each_ofExcept _

theorem each_clientActive (id : String) : (clientActive env id).Each World.Quiet := by
  refine each_fetch.attempt.bind fun r => ?_
  cases r with
  | ok c => trivial
  | error e => exact each_ite trivial trivial

variable (claims : AccessTokenClaims)

theorem each_checkIssuingClient : (checkIssuingClient env claims).Each World.Quiet := by
  unfold checkIssuingClient
  exact each_ite trivial ((each_clientActive _ _).bind fun _ => Prog.each_failIf _ _)

theorem each_checkSubjectAlive : (checkSubjectAlive env claims).Each World.Quiet := by
  unfold checkSubjectAlive
  refine each_ite trivial (each_fetch.attempt.bind fun r => ?_)
  cases r with
  | ok u => exact Prog.each_failIf _ _
  | error e => exact each_ite ((each_clientActive _ _).bind fun _ => Prog.each_failIf _ _) trivial

theorem each_checkLiveness : (checkLiveness env claims).Each World.Quiet :=
  (each_checkIssuingClient _ _).bind fun _ => each_checkSubjectAlive _ _

theorem each_checkLegacyRevocation : (checkLegacyRevocation claims).Each World.Quiet := by
  unfold checkLegacyRevocation
  exact each_ite (each_fetch.attempt.bind fun _ => Prog.each_failIf _ _)
    (each_fetch.attempt.bind fun _ => Prog.each_failIf _ _)

theorem each_checkRevocation : (checkRevocation claims).Each World.Quiet := by
  unfold checkRevocation
  exact each_ite trivial ((each_wrapErr each_fetch).bind fun _ => .failIf <|
    each_checkLegacyRevocation _)

variable (req : TokenExchangeRequest)

theorem each_verifyActor : (verifyActor env req).Each World.Quiet := by
  unfold verifyActor
  split
  · trivial
  · exact .failIf <| (each_verifyToken _ _).bind fun _ =>
      (each_checkLiveness _ _).bind fun _ => Prog.each_pure _

theorem each_checkDepth (act : ActClaim) : (checkDepth env act).Each World.Quiet :=
  Prog.each_failIf _ _

theorem each_resolveSourceForFronting (audience : List String) :
    (resolveSourceForFronting env audience).Each World.Quiet := by
  induction audience with
  | nil => trivial
  | cons aud rest ih =>
    refine each_ite ih (each_fetch.attempt.bind fun r => ?_)
    cases r with
    | ok src => exact each_ite trivial ih
    | error e => exact ih

theorem each_mintFronting (target : Resource) (source : Option Resource) :
    (mintFronting target source).Each World.Quiet := by
  cases source with
  | none => trivial
  | some src =>
    refine each_ite trivial (each_fetch.attempt.bind fun r => ?_)
    cases r with
    | ok link => trivial
    | error e => exact each_ite trivial trivial

theorem each_consentGate (claims : AccessTokenClaims)
    (target : Resource) : (consentGate env req claims target).Each World.Quiet :=
  .failIf <| (each_wrapErr each_fetch).bind fun _ =>
    .ofExcept fun _ => .ofExcept fun _ => .failIf <| Prog.each_pure _

theorem each_authorizeScope (claims : AccessTokenClaims)
    (target : Resource) (fronting : Option Fronting) :
    (authorizeScope env req claims target fronting).Each World.Quiet := by
  cases fronting with
  | some f => exact Prog.each_ofExcept _
  | none => exact .ofExcept fun _ => each_ite (Prog.each_ofExcept _) (each_consentGate _ _ _ _)

theorem each_mintAct (claims : AccessTokenClaims)
    (actor : Option AccessTokenClaims) (fronting : Option Fronting) :
    (mintAct req claims actor fronting).Each World.Quiet := by
  cases fronting with
  | some f => trivial
  | none => exact each_ite ((each_wrapErr each_fetch).bind fun _ => Prog.each_pure _) trivial

theorem each_exchangeThumbprint
    (claims : AccessTokenClaims) : (exchangeThumbprint env req claims).Each World.Quiet :=
  (each_dpopThumbprint _ _).bind fun _ => Prog.each_pure _

theorem each_getWithProvider (id : String) : (getWithProvider env id).Each World.Quiet :=
  each_fetch.bind fun _ =>
    each_ite ((each_wrapErr each_fetch).bind fun _ => Prog.each_pure _) trivial

theorem each_providerOf (target : Resource) : (providerOf env target).Each World.Quiet :=
  (each_wrapErr (each_getWithProvider _ _)).bind fun _ => Prog.each_ofExcept _

theorem each_resolveActorMCP (clientID : String) : (resolveActorMCP clientID).Each World.Quiet := by
  refine each_fetch.attempt.bind fun r => ?_
  cases r with
  | ok actor => trivial
  | error e => exact each_ite (each_fetch.attempt.bind fun _ => Prog.each_ofExcept _) trivial

theorem each_isFrontedBrokerExchange (audience : List String) (target : Resource) :
    (isFrontedBrokerExchange env audience target).Each World.Quiet := by
  unfold isFrontedBrokerExchange
  refine each_ite ((each_resolveSourceForFronting _ _).bind fun source => ?_) trivial
  cases source with
  | none => trivial
  | some src => exact each_ite trivial (each_fetch.attempt.bind fun _ => Prog.each_pure _)

theorem each_acceptSubject (raw : AccessTokenClaims) : (acceptSubject env raw).Each World.Quiet :=
  (each_verifyToken _ _).bind fun _ => .failIf <|
    (each_checkRevocation _).bind fun _ => (each_checkLiveness _ _).bind fun _ => Prog.each_pure _

end TokenExchange

theorem each_resolveMint (slugOrURI : String) : (resolveMint slugOrURI).Each World.Quiet := by
  unfold resolveMint
  exact each_ite trivial (each_fetch.bind fun _ => .failIf <| Prog.each_pure _)

namespace AuthorizeService

theorem each_lookupClient {register : Svc Client} (h : register.Each World.Quiet)
    (clientID : String) :
    (lookupClient register clientID).Each World.Quiet := by
  refine each_fetch.attempt.bind fun r => ?_
  cases r with
  | ok c => trivial
  | error e =>
    refine each_ite (each_fetch.attempt.bind fun found => ?_) trivial
    match found with
    | .ok (some c) => trivial
    | .ok none => exact h
    | .error e => trivial

theorem each_requestedScope (req : AuthorizeRequest) (c : Client) (uri : String) :
    (requestedScope env req c uri).Each World.Quiet := by
  unfold requestedScope
  exact each_ite trivial (.failIf <| (each_wrapErr each_fetch).bind fun _ =>
    Prog.each_ofExcept _)

theorem each_validateScopes (scope uri : String) :
    (validateScopes env scope uri).Each World.Quiet := by
  unfold validateScopes
  exact each_ite trivial ((each_wrapErr each_fetch).bind fun _ => Prog.each_ofExcept _)

theorem each_consentCovers (userID clientID scope : String) (r : Option Resource) :
    (consentCovers userID clientID scope r).Each World.Quiet := by
  cases r with
  | none => trivial
  | some r => exact each_ite trivial ((each_wrapErr each_fetch).bind fun _ => Prog.each_pure _)

end AuthorizeService

namespace FrontingService

variable {env : Env}

theorem each_lookupResource (slug paramName : String) :
    (lookupResource env slug paramName).Each World.Quiet :=
  each_fetch.attempt.bind fun _ => Prog.each_ofExcept _

theorem each_assertNoLink (sourceSlug targetSlug : String) :
    (assertNoLink sourceSlug targetSlug).Each World.Quiet :=
  each_fetch.attempt.bind fun _ => Prog.each_ofExcept _

theorem each_walk (source : String) (nodes : ℕ) (visited stack : List String) :
    (walk env source nodes visited stack).Each World.Quiet := by
  induction nodes generalizing visited stack with
  | zero => cases stack <;> trivial
  | succ nodes ih =>
    cases stack with
    | nil => trivial
    | cons node stack =>
      exact (each_wrapErr each_fetch).bind fun _ => .ofExcept fun _ => ih _ _

end FrontingService

/-! ### Minting -/

namespace MintIssuer

variable {env : Env}

/-- **Issuing.** The token carries a freshly drawn identifier; what remains is to record it. -/
theorem ensures_issue (hC : Tolerant C i) {req : IssueRequest} {g : IssueResponse → Svc α}
    {Q : α → World → Prop} (hs : C.inv s)
    (h : ∀ now jti t, C.rely i s t → C.inv t → Drawn C i env jti t →
      (claims env req now jti).subject ≠ "" → jti ≠ "" →
      Ensures C i Q (recordIssuance i req now jti >>= fun _ => g
        { accessToken := claims env req now jti
          tokenType := if req.dpopJKT == "" then "Bearer" else "DPoP"
          expiresIn := seconds (req.expiry - now), issuanceID := jti }) t) :
    Ensures C i Q (issue env i req >>= g) s := by
  have hassoc : issue env i req >>= g = (do
      let now ← timeNow
      let jti ← generateRandomString env i
      let signed ← Prog.ofExcept ((signAccessToken (claims env req now jti)).mapError
        (Err.wrap "sign access token"))
      recordIssuance i req now jti
      g { accessToken := signed, tokenType := if req.dpopJKT == "" then "Bearer" else "DPoP"
          expiresIn := seconds (req.expiry - now), issuanceID := jti }) := by
    simp only [issue, Prog.bind_assoc, Prog.pure_bind]
  rw [hassoc]
  refine hC.pass each_timeNow hs fun now t₁ h₁ hi₁ => ?_
  refine hC.draw hi₁ fun jti t₂ h₂ hi₂ hdrawn => ?_
  refine .bindOfExcept fun signed hsigned => ?_
  obtain ⟨rfl, hsub, -, hjti⟩ := signAccessToken_ok (mapError_eq_ok.mp hsigned)
  exact h now jti t₂ (C.rely_trans h₁ h₂) hi₂ hdrawn hsub hjti

end MintIssuer

end AuthServer
