import AuthServer.Interleave.Yields
import AuthServer.Service.Serve

/-!
# Chains of exchanges

A token can be exchanged, the token that comes out exchanged again, and so on, each time in another
world, by another client, with other requests being served at the same time. What a token hands down
along such a chain depends on the two tokens of each exchange and on the proof presented with it,
and on nothing the store says: so the facts below are about every result an exchange can have
(`Yields`), and they hold under any interleaving and any store faults.

Three things are handed down: the subject, the chain of actors, and the key the token is bound to.
The chain only grows at its outer end. The key is kept unless the exchange presents a proof of its
own, in which case that proof's key takes its place; a bound token never yields an unbound one. -/

namespace AuthServer

open Interleave

/-! ### What one exchange hands down -/

/-- The thumbprints that validating the proof of a request can give: none when there is no proof or
DPoP is off. -/
inductive Presents (env : Env) (req : DPoPRequest) : String → Prop
  | absent (h : req.proof = "") : Presents env req ""
  | unwired (h : env.dpop = none) : Presents env req ""
  | disabled {cfg : DPoPConfig} (h : env.dpop = some cfg) (hoff : cfg.enabled = false) :
      Presents env req ""
  | validated {cfg : DPoPConfig} {now : Time} {result : DPoPProof} (h : env.dpop = some cfg)
      (hon : cfg.enabled = true) (hproof : req.proof ≠ "")
      (hok : env.validateProof req now = .ok result) : Presents env req result.jkt

/-- The second token was issued for the first, on presentation of a thumbprint, empty for none. -/
structure Inherits (env : Env) (presented : String) (c c' : AccessTokenClaims) : Prop where
  subject : c'.subject = c.subject
  /-- New actors are added at the outer end: one, or two where there was none. -/
  chain : ∃ added, actors c'.act = added ++ actors c.act ∧
    added.length ≤ if actors c.act = [] then 2 else 1
  depth : actors c'.act ≠ [] → ((actors c'.act).length : Int) ≤ env.tokenExchange.maxChainDepth
  rebound : presented ≠ "" → c'.cnf = some presented
  bound : presented = "" → ∀ k, c.cnf = some k → k ≠ "" → c'.cnf = some k

variable {α : Type} {Q : α → Prop}

theorem yields_wrapErr {detail : String} {p : Svc α} (h : p.Yields Q) :
    (wrapErr detail p).Yields Q := by
  refine .bind (Prog.Yields.attempt (h.mono fun a ha => ?_) fun e => ?_)
  · exact ha
  · exact Prog.yields_fail

theorem yields_dpopThumbprint (env : Env) (req : DPoPRequest) :
    (dpopThumbprint env req).Yields (Presents env req) := by
  unfold dpopThumbprint
  split
  · rename_i hproof
    exact Presents.absent (by simpa using hproof)
  rename_i hproof
  unfold validateDPoP
  split
  · rename_i hnone
    exact Presents.unwired hnone
  rename_i cfg hsome
  split
  · rename_i hon
    refine .skip fun now => ?_
    refine .bind (Prog.yields_ofExcept fun result hok => ?_)
    refine .skip fun _ => .skip fun _ => .skip fun _ => .skip fun _ => ?_
    exact Presents.validated hsome hon (by simpa using hproof) hok
  · rename_i hoff
    exact Presents.disabled hsome (by simpa using hoff)

theorem MintIssuer.yields_issue (env : Env) (ctx : ReqID) (req : IssueRequest) :
    (issue env ctx req).Yields fun resp => ∃ now jti,
      resp.accessToken = claims env req now jti := by
  refine .skip fun now => .skip fun jti => ?_
  refine .bind (Prog.yields_ofExcept fun signed hsigned => ?_)
  obtain ⟨rfl, -⟩ := signAccessToken_ok (mapError_eq_ok.mp hsigned)
  exact .skip fun _ => ⟨now, jti, rfl⟩

namespace TokenExchange

variable {env : Env} {req : TokenExchangeRequest} {claims : AccessTokenClaims} {target : Resource}

theorem yields_acceptSubject (env : Env) (raw : AccessTokenClaims) :
    (acceptSubject env raw).Yields fun claims => claims = raw := by
  refine .bind (Prog.Yields.mono ?_ fun claims (h : claims = raw) =>
    .skip fun _ => .skip fun _ => .skip fun _ => h)
  refine .bind (yields_wrapErr (Prog.yields_query fun w verdict hread => ?_))
  refine Prog.yields_ofExcept fun claims hclaims => ?_
  rw [← Except.ok.inj hread] at hclaims
  exact (verifyAccessToken_ok (mapError_eq_ok.mp hclaims)).1

theorem length_le_of_actor {n : ℕ} (h : n ≤ 1) (act : Option Json.Object) :
    n ≤ if actors act = [] then 2 else 1 := by
  split <;> omega

theorem yields_checkDepth {act : ActClaim} {g : Unit → Svc α}
    (h : (act.map Hop.sub ≠ [] →
      ((act.map Hop.sub).length : Int) ≤ env.tokenExchange.maxChainDepth) →
      (g ()).Yields Q) : (checkDepth env act >>= g).Yields Q := by
  refine .bind (Prog.yields_failIf fun hdepth => h fun hne => ?_)
  have : act ≠ [] := fun hnil => hne (by simp [hnil])
  simpa [this] using hdepth

theorem yields_mintAct (req : TokenExchangeRequest) (claims : AccessTokenClaims)
    (actor : Option AccessTokenClaims) (fronting : Option Fronting) :
    (mintAct req claims actor fronting).Yields fun act => ∃ added,
      act.map Hop.sub = added ++ actors claims.act ∧
      added.length ≤ if actors claims.act = [] then 2 else 1 := by
  have hkept : (sanitizeNonIdentityClaims (actClaimFromMap claims.act)).map Hop.sub =
      actors claims.act := by simp
  cases fronting with
  | some f =>
    simp only [mintAct]
    by_cases hnil : actors claims.act = []
    · -- no chain yet: the source, and behind it the client the user authorized
      have hempty : sanitizeNonIdentityClaims (actClaimFromMap claims.act) = [] := by
        rwa [hnil, List.map_eq_nil_iff] at hkept
      refine ⟨[f.source.slug, frontedInnerActor claims.clientID f.source.slug req.clientID], ?_, ?_⟩
      · simp [hempty, hnil]
      · simp [hnil]
    · have hsome : sanitizeNonIdentityClaims (actClaimFromMap claims.act) ≠ [] := by
        rwa [← hkept, List.map_eq_nil_iff] at hnil
      refine ⟨[f.source.slug], ?_, by simp [hnil]⟩
      simp [hsome]
  | none =>
    cases actor with
    | some ac =>
      refine .skip fun c => Prog.yields_pure ⟨[req.clientID], ?_, ?_⟩
      · simp [actorHop]
      · exact length_le_of_actor (by simp) _
    | none => exact Prog.yields_pure ⟨[], by simp, length_le_of_actor (by simp) _⟩

theorem yields_exchangeThumbprint (env : Env) (req : TokenExchangeRequest)
    (claims : AccessTokenClaims) :
    (exchangeThumbprint env req claims).Yields fun jkt => ∃ presented,
      Presents env req.dpop presented ∧
      jkt = if presented = "" then claims.cnf.getD "" else presented := by
  refine .bind ((yields_dpopThumbprint env req.dpop).mono fun presented h => ?_)
  exact ⟨presented, h, by simp⟩

def Heir (env : Env) (req : TokenExchangeRequest) (claims : AccessTokenClaims)
    (resp : TokenExchangeResponse) : Prop :=
  ∀ c, resp.accessToken = .minted c → ∃ presented, Presents env req.dpop presented ∧
    Inherits env presented claims c

theorem yields_dispatchMint (env : Env) (ctx : ReqID) (req : TokenExchangeRequest)
    (claims : AccessTokenClaims) (target : Resource) :
    (dispatchMint env ctx req claims target).Yields (Heir env req claims) := by
  refine .skip fun _ => .skip fun _ => .skip fun fronting => .skip fun scope =>
    .skip fun actor => ?_
  refine .bind ((yields_mintAct req claims actor fronting).mono ?_)
  rintro act ⟨added, hact, hadded⟩
  refine yields_checkDepth fun hdepth => ?_
  refine .bind ((yields_exchangeThumbprint env req claims).mono ?_)
  rintro jkt ⟨presented, hpresented, hjkt⟩
  refine .skip fun agent => .skip fun now => ?_
  refine .bind ((MintIssuer.yields_issue env ctx _).mono ?_)
  rintro resp ⟨now', jti, htoken⟩
  refine .skip fun _ => .skip fun _ c hc => ⟨presented, hpresented, ?_⟩
  obtain rfl : resp.accessToken = c := IssuedToken.minted.inj hc
  rw [htoken]
  refine ⟨rfl, ⟨added, ?_, hadded⟩, ?_, fun hne => ?_, fun hempty k hk hne => ?_⟩
  · exact (actors_actClaimToMap act).trans hact
  · simpa [MintIssuer.claims, mintRequest] using hdepth
  · simp [MintIssuer.claims, mintRequest, hjkt, hne]
  · simp [MintIssuer.claims, mintRequest, hjkt, hempty, hk, hne]

theorem yields_exchangeLegacy (env : Env) (ctx : ReqID) (req : TokenExchangeRequest)
    (actingClient : Client) (claims : AccessTokenClaims) :
    (exchangeLegacy env ctx req actingClient claims).Yields (Heir env req claims) := by
  refine .skip fun actor => .skip fun scopes => .skip fun _ => .skip fun _ => ?_
  refine yields_checkDepth fun hdepth => ?_
  refine .bind ((yields_dpopThumbprint env req.dpop).mono fun presented hpresented => ?_)
  refine .skip fun now => .skip fun jti => .skip fun agent => ?_
  refine .bind (Prog.yields_ofExcept fun signed hsigned => ?_)
  obtain ⟨rfl, -⟩ := signAccessToken_ok (mapError_eq_ok.mp hsigned)
  refine .skip fun _ => .skip fun _ c hc => ⟨presented, hpresented, ?_⟩
  obtain rfl := IssuedToken.minted.inj hc
  refine ⟨rfl, ?_, by simpa [legacyClaims] using hdepth, fun hne => ?_, fun hempty k hk _ => ?_⟩
  · simp only [legacyClaims, actors_actClaimToMap]
    split
    · exact ⟨[req.clientID], by simp [actorHop], length_le_of_actor (by simp) _⟩
    · exact ⟨[], by simp, length_le_of_actor (by simp) _⟩
  · simp [legacyClaims, hne]
  · simp [legacyClaims, hempty, hk]

theorem yields_dispatchBroker (env : Env) (ctx : ReqID) (req : TokenExchangeRequest)
    (claims : AccessTokenClaims) (target : Resource) :
    (dispatchBroker env ctx req claims target).Yields fun resp =>
      ∃ token, resp.accessToken = .vended token := by
  have hdirect : (dispatchDirectBroker env ctx req claims target).Yields fun resp =>
      ∃ token, resp.accessToken = .vended token :=
    .skip fun _ => .skip fun _ => .skip fun _ => .skip fun _ => .skip fun _ => .skip fun _ =>
      .skip fun _ => .skip fun _ => .skip fun _ => .skip fun _ => .skip fun _ =>
        .skip fun _ => ⟨_, rfl⟩
  refine .skip fun _ => .skip fun _ => .skip fun source => ?_
  cases source with
  | none => exact hdirect
  | some source =>
    simp only [dispatchBrokerFrom]
    split
    · exact hdirect
    · refine .skip fun link => ?_
      cases link with
      | error e => exact Prog.yields_fail
      | ok link =>
        exact .skip fun _ => .skip fun _ => .skip fun _ => .skip fun _ => .skip fun _ =>
          .skip fun _ => ⟨_, rfl⟩

/-- **One exchange.** Whatever happens to the store meanwhile, a token that comes out is an heir of
the subject token. -/
theorem yields_exchange (env : Env) (ctx : ReqID) (req : TokenExchangeRequest) :
    (exchange env ctx req).Yields fun resp => ∃ raw, req.subjectToken = some raw ∧
      Heir env req raw resp := by
  refine .bind (Prog.yields_ofExcept fun raw hraw => ?_)
  have hraw : req.subjectToken = some raw := by
    cases h : req.subjectToken with
    | none => simp [h] at hraw
    | some c => simpa [h] using hraw
  refine .skip fun client => .skip fun _ => .skip fun _ => ?_
  refine .bind ((yields_acceptSubject env raw).mono ?_)
  rintro claims rfl
  refine Prog.Yields.mono ?_ fun resp h => ⟨claims, hraw, h⟩
  unfold exchangeFor
  split
  · exact yields_exchangeLegacy env ctx req client claims
  · refine .skip fun _ => .skip fun target => .skip fun _ => .skip fun _ => ?_
    unfold dispatch
    split
    · exact yields_dispatchMint env ctx req claims target
    · refine (yields_dispatchBroker env ctx req claims target).mono ?_
      rintro resp ⟨token, htoken⟩ c hc
      rw [htoken] at hc
      cases hc

end TokenExchange

/-! ### Chains -/

/-- In some execution of the server, among any other requests, this exchange of the first token
returned the second. -/
def Exchanged (env : Env) (req : TokenExchangeRequest) (c c' : AccessTokenClaims) : Prop :=
  ∃ (reqs : ReqID → Request) (w : World) (sched : Schedule ReqID) (i : ReqID)
    (resp : TokenExchangeResponse), reqs i = .exchange req ∧ req.subjectToken = some c ∧
    Server.exchanged ((Server.start env reqs w).exec sched) i = some resp ∧
      resp.accessToken = .minted c'

/-- Exchanging a token, then what came out, and so on: the requests made, and the token at the
end. -/
inductive ExchangeChain (env : Env) (c₀ : AccessTokenClaims) :
    List TokenExchangeRequest → AccessTokenClaims → Prop
  | start : ExchangeChain env c₀ [] c₀
  | step {reqs : List TokenExchangeRequest} {req : TokenExchangeRequest} {c c' : AccessTokenClaims}
      (h : ExchangeChain env c₀ reqs c) (hlast : Exchanged env req c c') :
      ExchangeChain env c₀ (reqs ++ [req]) c'

variable {env : Env} {req : TokenExchangeRequest}

theorem Exchanged.inherits {c c' : AccessTokenClaims}
    (h : Exchanged env req c c') : ∃ presented, Presents env req.dpop presented ∧
      Inherits env presented c c' := by
  obtain ⟨reqs, w, sched, i, resp, hreq, hsubject, hresp, htoken⟩ := h
  have hyields : (((Server.start env reqs w).procs i)).Yields fun r => ∀ resp, r = .exchanged resp →
      ∃ raw, req.subjectToken = some raw ∧ TokenExchange.Heir env req raw resp := by
    simp only [Server.start, hreq, serve]
    refine .bind ((TokenExchange.yields_exchange env i req).mono fun r hr => ?_)
    refine Prog.yields_pure fun resp hresp => ?_
    obtain rfl := Response.exchanged.inj hresp
    exact hr
  obtain ⟨raw, hraw, hheir⟩ :=
    Pool.yields_exec hyields sched (Server.ret_of_exchanged hresp) resp rfl
  obtain rfl : c = raw := Option.some.inj (hsubject.symm.trans hraw)
  exact hheir c' htoken

variable {reqs : List TokenExchangeRequest} {c₀ c : AccessTokenClaims}

theorem ExchangeChain.subject_eq
    (h : ExchangeChain env c₀ reqs c) : c.subject = c₀.subject := by
  induction h with
  | start => rfl
  | step _ hlast ih =>
    obtain ⟨_, -, hinherits⟩ := hlast.inherits
    exact hinherits.subject.trans ih

theorem ExchangeChain.suffix
    (h : ExchangeChain env c₀ reqs c) : actors c₀.act <:+ actors c.act := by
  induction h with
  | start => exact List.suffix_rfl
  | step _ hlast ih =>
    obtain ⟨_, -, hinherits⟩ := hlast.inherits
    obtain ⟨added, hact, -⟩ := hinherits.chain
    exact ih.trans (hact ▸ List.suffix_append added _)

/-- **Delegation history is never laundered.** A token at the end of a chain of exchanges keeps the
subject of the first token; its actors end with all actors of the token it was exchanged from, and
with all of the first token's; at most one actor is added where there were some and two where there
were none; and there are never more than the configuration allows. -/
theorem actors_never_laundered {c₀ c c' : AccessTokenClaims}

    (hconfig : env.tokenExchange.validate = []) (hchain : ExchangeChain env c₀ reqs c)
    (hlast : Exchanged env req c c') :
    c'.subject = c₀.subject ∧ actors c.act <:+ actors c'.act ∧ actors c₀.act <:+ actors c'.act ∧
      (actors c'.act).length ≤ (actors c.act).length + (if actors c.act = [] then 2 else 1) ∧
      ((actors c'.act).length : Int) ≤ env.tokenExchange.maxChainDepth := by
  obtain ⟨presented, -, hinherits⟩ := hlast.inherits
  obtain ⟨added, hact, hadded⟩ := hinherits.chain
  have hwhole := hchain.step hlast
  refine ⟨hwhole.subject_eq, hact ▸ List.suffix_append added _, hwhole.suffix, ?_, ?_⟩
  · rw [hact, List.length_append]
    omega
  · by_cases hnil : actors c'.act = []
    · have := TokenExchangeConfig.maxChainDepth_pos hconfig
      rw [hnil, List.length_nil]
      omega
    · exact hinherits.depth hnil

/-! ### A chain that can be computed -/

namespace Sample

/-- A portal the client works for, and the archive behind it. -/
def portal : Resource :=
  ⟨"r2", "portal", "https://portal", .mint, "", [⟨"use", ""⟩], ⟨[], ["app"], []⟩⟩

def archive : Resource :=
  ⟨"r3", "archive", "https://archive", .mint, "", [⟨"read", ""⟩], ⟨[], [], []⟩⟩

def archiveWorld (released : List AccessTokenClaims) : World :=
  { world [] with
    resources := [portal, archive], released := released
    frontingLinks := [⟨"portal", "archive", ⟨[("use", ["read"])], by decide⟩⟩] }

/-- A token of the client for the portal, bound to a key if one is given. -/
def portalToken (cnf : Option String) : AccessTokenClaims :=
  ⟨"https://as", "user", ["https://portal"], "app", "use", "t", 900, 2000, 900, cnf, none, "", []⟩

/-- An exchange by the client, with an actor token and a proof if they are given. -/
def exchange (subject : AccessTokenClaims) (actor : Option AccessTokenClaims)
    (resource proof : String) : TokenExchangeRequest :=
  ⟨"app", "secret", some subject, tokenTypeAccessToken, actor, "", resource, "", ⟨proof, "", ""⟩⟩

def appHop : Json.Object :=
  .entry "actor_type" (.str "service") (.entry "sub" (.str "app") .empty)

/-- The token after the client exchanged its own with itself as actor. -/
def actingToken : AccessTokenClaims :=
  { portalToken none with
    jti := tally 0 0, issuedAt := 1000, notBefore := 1000, expiry := 1300, act := some appHop }

def archiveToken : AccessTokenClaims :=
  { actingToken with
    audience := ["https://archive"], clientID := "portal", scope := "read", jti := tally 1 0
    act := some (.entry "sub" (.str "portal") (.entry "act" (.obj appHop) .empty)) }

/-- An exchange that runs without interruption. -/
theorem exchanged_of_turn {c c' : AccessTokenClaims} (w : World)
    (i : ReqID) (hsubject : req.subjectToken = some c)
    (h : (Server.exchanged ((Server.start env (fun _ => .exchange req) w).exec (turn i)) i).map
      TokenExchangeResponse.accessToken = some (.minted c')) : Exchanged env req c c' := by
  obtain ⟨resp, hresp, htoken⟩ := Option.map_eq_some_iff.mp h
  exact ⟨_, w, turn i, i, resp, rfl, hsubject, hresp, htoken⟩

theorem exchanged_acting :
    Exchanged Env.plain (exchange (portalToken none) (some (portalToken none)) "" "")
      (portalToken none) actingToken :=
  exchanged_of_turn (archiveWorld [portalToken none]) 0 rfl (by decide +kernel)

theorem exchanged_archive :
    Exchanged Env.plain (exchange actingToken none "archive" "") actingToken archiveToken :=
  exchanged_of_turn (archiveWorld [actingToken]) 1 rfl (by decide +kernel)

end Sample

/-- Acting for itself and then through the portal, the client is recorded twice: at the end of the
chain, and in front of it the portal. -/
theorem actors_never_laundered_archive :
    actors Sample.archiveToken.act = ["portal", "app"] ∧
      Sample.archiveToken.subject = (Sample.portalToken none).subject ∧
      actors Sample.actingToken.act <:+ actors Sample.archiveToken.act ∧
      actors (Sample.portalToken none).act <:+ actors Sample.archiveToken.act ∧
      (actors Sample.archiveToken.act).length ≤ (actors Sample.actingToken.act).length +
        (if actors Sample.actingToken.act = [] then 2 else 1) ∧
      ((actors Sample.archiveToken.act).length : Int) ≤ Env.plain.tokenExchange.maxChainDepth :=
  ⟨by decide, actors_never_laundered (by decide) (ExchangeChain.start.step Sample.exchanged_acting)
    Sample.exchanged_archive⟩

/-- The key after thumbprints were presented one after the other, the empty one for none. -/
def boundTo (k : String) (presented : List String) : String :=
  presented.foldl (fun k p => if p = "" then k else p) k

theorem boundTo_append (k p : String) (ps : List String) :
    boundTo k (ps ++ [p]) = if p = "" then boundTo k ps else p := by
  simp [boundTo]

variable {k : String}

theorem boundTo_eq_self {ps : List String} (h : ∀ p ∈ ps, p = "" ∨ p = k) : boundTo k ps = k := by
  induction ps with
  | nil => rfl
  | cons p ps ih =>
    have hstep : (if p = "" then k else p) = k := by
      rcases h p List.mem_cons_self with rfl | rfl <;> simp
    rw [boundTo, List.foldl_cons, hstep]
    exact ih fun q hq => h q (List.mem_cons_of_mem p hq)

theorem boundTo_ne_empty (hk : k ≠ "") (ps : List String) : boundTo k ps ≠ "" := by
  induction ps generalizing k with
  | nil => exact hk
  | cons p ps ih =>
    refine ih (k := if p = "" then k else p) ?_
    split
    · exact hk
    · assumption

/-- **The binding follows the proofs presented.** Along every chain that starts from a token bound
to a key, every token is bound: to the key of the last proof that was validated on the way, and to
the first key when every proof was one for it or none was validated. -/
theorem binding_follows_proofs
    (hbound : c₀.cnf = some k) (hk : k ≠ "")
    (hchain : ExchangeChain env c₀ reqs c) :
    ∃ ps, List.Forall₂ (fun req p => Presents env req.dpop p) reqs ps ∧
      c.cnf = some (boundTo k ps) ∧ boundTo k ps ≠ "" ∧
      ((∀ p ∈ ps, p = "" ∨ p = k) → c.cnf = some k) := by
  have hfollows : ∃ ps, List.Forall₂ (fun req p => Presents env req.dpop p) reqs ps ∧
      c.cnf = some (boundTo k ps) := by
    induction hchain with
    | start => exact ⟨[], .nil, hbound⟩
    | step _ hlast ih =>
      obtain ⟨ps, hps, hcnf⟩ := ih
      obtain ⟨presented, hpresented, hinherits⟩ := hlast.inherits
      refine ⟨ps ++ [presented], List.rel_append hps (.cons hpresented .nil), ?_⟩
      rw [boundTo_append]
      split
      · rename_i hempty
        exact hinherits.bound hempty _ hcnf (boundTo_ne_empty hk ps)
      · rename_i hne
        exact hinherits.rebound hne
  obtain ⟨ps, hps, hcnf⟩ := hfollows
  exact ⟨ps, hps, hcnf, boundTo_ne_empty hk ps, fun h => by rw [hcnf, boundTo_eq_self h]⟩

namespace Sample

/-- A deployment with DPoP: a proof is named by the key it was made with. -/
def withProofs : Env :=
  { Env.plain with
    dpop := some ⟨true, false, 60 * 1000000000⟩
    parseSigned := fun proof => some [⟨"dpop+jwt", some ⟨.ecdsa .p256, true, proof⟩, none⟩]
    signedClaims := fun proof _ => some ⟨"id of " ++ proof, "", "", 1000, "", ""⟩ }

/-- The token that comes out of an exchange of the client's own token bound to a key. -/
def reboundToken (key : String) : AccessTokenClaims :=
  { portalToken (some key) with
    jti := tally 0 0, issuedAt := 1000, notBefore := 1000, expiry := 1300 }

theorem exchanged_without_proof :
    Exchanged withProofs (exchange (portalToken (some "k")) none "" "") (portalToken (some "k"))
      (reboundToken "k") :=
  exchanged_of_turn (archiveWorld [portalToken (some "k")]) 0 rfl (by decide +kernel)

theorem exchanged_with_proof :
    Exchanged withProofs (exchange (portalToken (some "k")) none "" "l") (portalToken (some "k"))
      (reboundToken "l") :=
  exchanged_of_turn (archiveWorld [portalToken (some "k")]) 0 rfl (by decide +kernel)

end Sample

/-- An exchange without a proof keeps the key. -/
theorem binding_follows_proofs_without : ∃ ps,
    List.Forall₂ (fun req p => Presents Sample.withProofs req.dpop p)
      [Sample.exchange (Sample.portalToken (some "k")) none "" ""] ps ∧
    (Sample.reboundToken "k").cnf = some (boundTo "k" ps) ∧ boundTo "k" ps ≠ "" ∧
    ((∀ p ∈ ps, p = "" ∨ p = "k") → (Sample.reboundToken "k").cnf = some "k") :=
  binding_follows_proofs rfl (by decide)
    (ExchangeChain.start.step Sample.exchanged_without_proof)

/-- **A proof of another key replaces the binding.** The client, or whoever has its credentials and
a token bound to the key `k`, exchanges it with a proof made with the key `l` and holds a token
bound to `l`. -/
theorem binding_not_kept : ∃ reqs c,
    ExchangeChain Sample.withProofs (Sample.portalToken (some "k")) reqs c ∧ c.cnf ≠ some "k" :=
  ⟨_, _, ExchangeChain.start.step Sample.exchanged_with_proof, by decide⟩

end AuthServer
