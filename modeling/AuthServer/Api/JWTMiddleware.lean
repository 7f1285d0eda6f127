import AuthServer.Security.SingleUse

/-!
# The middleware of a resource server

`JWTMiddleware` of `api/shared/jwt_middleware.go` stands before the handlers of a resource server
and lets a request through with the claims of its access token. A token bound to a key needs a DPoP
proof, and so does every request under the DPoP scheme, whatever the configuration says: that only
sets how old a proof may be. Checking a proof ends with recording its identifier, where there is a
replay store.
-/

namespace AuthServer

open Interleave

/-- What the middleware reads of a request: three headers, the method, and where it was sent. -/
structure ResourceRequest where
  authorization : String
  dpop : String
  forwardedProto : String
  method : String
  tls : Bool
  host : String
  path : String

/-- `RequestURL`: a scheme that a proxy forwarded goes first. -/
def ResourceRequest.requestURL (r : ResourceRequest) : String :=
  let scheme := if r.forwardedProto != "" then r.forwardedProto
    else if !r.tls then "http" else "https"
  scheme ++ "://" ++ r.host ++ r.path

/-- The answer to a request that is not let through. -/
structure Refusal where
  status : ℕ
  /-- The `WWW-Authenticate` header. -/
  challenge : String
  code : String
  description : String
  deriving DecidableEq, Repr

/-- The middleware as it is configured, and what it has from the libraries. -/
structure JWTMiddleware where
  /-- Empty where tokens for any resource are taken. -/
  audience : String
  /-- `DPoPJWTConfig.ProofLifetime`, where one is stored. -/
  dpop : Option Time
  /-- Is there a replay store? -/
  proofStore : Bool
  /-- The claims that the text of a token carries. -/
  parse : String → Option AccessTokenClaims
  computeATH : String → String
  /-- `err.Error()`. -/
  errorText : Err → String

def errInvalidToken : String := "invalid_token"

def errInvalidDPoPProof : String := "invalid_dpop_proof"

/-- The characters of a description that may stand in a header, up to 160 bytes. -/
def sanitizeChars : List Char → ℕ → List Char
  | [], _ => []
  | c :: cs, len =>
    if len ≥ 160 then []
    else if c.val == 0x22 || c.val == 0x5c || c.val < 0x20 || c.val == 0x7f then
      sanitizeChars cs len
    else c :: sanitizeChars cs (len + c.utf8Size)

def sanitizeChallengeText (s : String) : String := String.ofList (sanitizeChars s.toList 0)

def authChallenge (bound : Bool) (dpopErr description : String) : String :=
  if dpopErr == "" then if bound then "DPoP" else "Bearer, DPoP"
  else
    let dpop := "DPoP error=\"" ++ dpopErr ++ "\""
    if bound then
      if description != "" then dpop ++ ", error_description=\"" ++
        sanitizeChallengeText description ++ "\"" else dpop
    else "Bearer error=\"" ++ errInvalidToken ++ "\", " ++ dpop

namespace JWTMiddleware

variable (m : JWTMiddleware) (env : Env) (r : ResourceRequest)

/-- `ExtractAuthToken`: the token and the scheme. The fallback of `Wrap` finds a token only where
this does. -/
def extractAuthToken (auth : String) : String × String :=
  let (chars, len) := (auth.toList, auth.utf8ByteSize)
  if len ≥ 7 && env.equalFold (String.ofList (chars.take 7)) "Bearer " then
    (String.ofList (chars.drop 7), "Bearer")
  else if len ≥ 5 && env.equalFold (String.ofList (chars.take 5)) "DPoP " then
    (String.ofList (chars.drop 5), "DPoP")
  else ("", "")

def rawToken : String := (extractAuthToken env r.authorization).1

def scheme : String := (extractAuthToken env r.authorization).2

/-- How old a proof may be: a minute, where nothing is configured. -/
def proofLifetime : Time := m.dpop.getD (60 * 1000000000)

def now : Prog World Refusal Time := Prog.step fun w => (w.clock, w)

/-- The code and the text of `validateDPoPBinding`, as `Wrap` answers with them. -/
def refuse (bound : Bool) (code text : String) : Refusal :=
    ⟨401, authChallenge bound code text, code, text⟩

/-- `validateDPoPBinding`. -/
def validateDPoPBinding (claims : AccessTokenClaims) : Prog World Refusal Unit := do
  let refuse := refuse claims.cnf.isSome
  Prog.failIf (scheme env r != "DPoP")
    (refuse errInvalidToken "DPoP-bound token must use DPoP authorization scheme")
  Prog.failIf (r.dpop == "")
    (refuse errInvalidDPoPProof
      "DPoP proof header required when using the DPoP authorization scheme")
  let t ← now
  let result ← Prog.ofExcept <|
    (validateProof env ⟨r.dpop, r.method, r.requestURL⟩ "" (m.computeATH (rawToken env r))
    m.proofLifetime t).mapError fun e =>
      refuse errInvalidDPoPProof ("DPoP proof validation failed: " ++ m.errorText e)
  Prog.failIf (claims.cnf.any (result.jkt != ·))
    (refuse errInvalidDPoPProof "DPoP proof key does not match token binding")
  Prog.failIf (result.jti.utf8ByteSize > 255)
    (refuse errInvalidDPoPProof "DPoP proof jti exceeds 255 bytes")
  if m.proofStore then do
    let t' ← now
    let replay :=
      fun e => refuse errInvalidDPoPProof ("DPoP proof replay detected: " ++ m.errorText e)
    Prog.exec (replay (.fault "store")) fun w =>
      let consumed := DPoPNonceStore.consumeJTI result.jti (t' + int64 (m.proofLifetime * 2)) w
      (consumed.1.mapError replay, consumed.2)
  else pure ()

/-- The claims of the presented token, if it verifies. -/
def verify (w : World) : Except Err AccessTokenClaims :=
  match m.parse (rawToken env r) with
  | some c => verifyAccessToken env c w
  | none => .error (.fault "parse token")

/-- `Wrap`, up to the handler: the claims it is called with, or the answer. -/
def wrap : Prog World Refusal AccessTokenClaims := do
  Prog.failIf (rawToken env r == "") ⟨401, authChallenge false "" "", errInvalidToken,
    "access token required"⟩
  Prog.query ⟨500, "", "", "internal server error"⟩ fun _ => .ok ()
  Prog.query ⟨401, authChallenge false errInvalidToken "", errInvalidToken,
    "token validation unavailable"⟩ fun _ => .ok ()
  let verified ← Prog.step fun w => (m.verify env r w, w)
  let claims ← Prog.ofExcept <| verified.mapError fun _ =>
    ⟨401, authChallenge false errInvalidToken "", errInvalidToken, "invalid or expired token"⟩
  Prog.failIf (m.audience != "" && !claims.audience.contains m.audience)
    ⟨401, authChallenge claims.cnf.isSome errInvalidToken "audience mismatch", errInvalidToken,
      "token audience does not match this resource"⟩
  if claims.cnf.isSome || scheme env r == "DPoP" then do
    m.validateDPoPBinding env r claims
    pure claims
  else pure claims

/-! ### What a request has shown -/

/-- Between the two moments the request has shown possession of the key its token is bound to. -/
structure Proved (claims : AccessTokenClaims) (w t : World) : Prop where
  scheme : scheme env r = "DPoP"
  valid : ∃ result p now, openProof env r.dpop = .ok p ∧ w.clock ≤ now ∧ now ≤ t.clock ∧
    validateProof env ⟨r.dpop, r.method, r.requestURL⟩ "" (m.computeATH (rawToken env r))
      m.proofLifetime now = .ok result ∧
    (∀ jkt, claims.cnf = some jkt → result.jkt = jkt) ∧
    (m.proofStore = true → ∃ expiry, ProofAccepted m.proofLifetime p w t now expiry)

/-- What a request has shown when the handler is called with these claims, after it came at the
first moment and before it is over at the second. -/
structure Shown (claims : AccessTokenClaims) (w t : World) : Prop where
  issuer : claims.issuer = env.issuer
  audience : m.audience = "" ∨ m.audience ∈ claims.audience
  unexpired : ∃ now, w.clock ≤ now ∧ now ≤ t.clock ∧ unix now ≤ claims.expiry + clockSkew
  /-- A bound token comes with a proof by its key, for this method, URL and token. -/
  bound : ∀ jkt, claims.cnf = some jkt → scheme env r = "DPoP" ∧
    ∃ result now, w.clock ≤ now ∧ now ≤ t.clock ∧
      validateProof env ⟨r.dpop, r.method, r.requestURL⟩ "" (m.computeATH (rawToken env r))
        m.proofLifetime now = .ok result ∧ result.jkt = jkt

variable {m env r} {α β : Type} {pace : Pace} {w t : World} {b : β} {claims : AccessTokenClaims}

section Calls

variable {P : World → World → Prop} (hrefl : ∀ w, P w w)
  (hconsume : ∀ jti expiry w, P w (DPoPNonceStore.consumeJTI jti expiry w).2)
include hrefl hconsume

theorem each_validateDPoPBinding (claims : AccessTokenClaims) :
    (m.validateDPoPBinding env r claims).Each P := by
  refine .failIf (.failIf ?_)
  refine (Prog.each_step hrefl).bind fun t => .ofExcept fun result => .failIf (.failIf ?_)
  split
  · refine (Prog.each_step hrefl).bind fun t' => ?_
    exact Prog.each_exec fun w => hconsume _ _ w
  · exact Prog.each_pure _

theorem each_wrap : (m.wrap env r).Each P := by
  refine .failIf ?_
  -- the issuer and the keys
  refine (Prog.each_query hrefl).bind fun _ => ?_
  refine (Prog.each_query hrefl).bind fun _ => ?_
  -- the token
  refine (Prog.each_step hrefl).bind fun verified => ?_
  refine .ofExcept fun claims => .failIf ?_
  split
  · have hbinding : (m.validateDPoPBinding env r claims).Each P :=
      each_validateDPoPBinding hrefl hconsume claims
    exact hbinding.bind fun _ => Prog.each_pure _
  · exact Prog.each_pure _

end Calls

theorem ok_of_step_bind {f : World → α} {g : α → Prog World Refusal β}
    (h : (Prog.step (fun w => (f w, w)) >>= g).runPaced World.wait pace w = (.ok b, t)) :
    ∃ d rest, (g (f (w.wait d))).runPaced World.wait rest (w.wait d) = (.ok b, t) := by
  obtain ⟨u, rest, hu, hrun⟩ := Prog.runPaced_step_bind (fun w : World => (f w, w)) g pace w
  obtain ⟨d, rfl⟩ := eq_wait_of_waited hu
  exact ⟨d, rest, hrun ▸ h⟩

theorem ok_of_query_bind {e : Refusal} {g : Unit → Prog World Refusal β}
    (h : (Prog.query e (fun _ => .ok ()) >>= g).runPaced World.wait pace w = (.ok b, t)) :
    ∃ d rest, (g ()).runPaced World.wait rest (w.wait d) = (.ok b, t) := by
  obtain ⟨_, u, rest, hq, h⟩ := Prog.ok_of_runPaced_bind h
  obtain ⟨v, hv, heq⟩ := Prog.ok_of_runPaced_exec hq
  obtain ⟨d, rfl⟩ := eq_wait_of_waited hv
  obtain rfl := (Prod.mk.inj heq).2
  exact ⟨d, rest, h⟩

theorem proved_of_validateDPoPBinding
    (h : (m.validateDPoPBinding env r claims).runPaced World.wait pace w = (.ok (), t)) :
    Proved m env r claims w t := by
  unfold validateDPoPBinding at h
  obtain ⟨hscheme, h⟩ := Prog.ok_of_runPaced_failIf_bind h
  obtain ⟨-, h⟩ := Prog.ok_of_runPaced_failIf_bind h
  obtain ⟨d, pace₁, h⟩ := ok_of_step_bind h
  obtain ⟨result, hproof, h⟩ := Prog.ok_of_runPaced_ofExcept_bind h
  rw [mapError_eq_ok] at hproof
  obtain ⟨p, hopen, hjti, -, hage⟩ := validateProof_ok hproof
  obtain ⟨hkey, h⟩ := Prog.ok_of_runPaced_failIf_bind h
  obtain ⟨-, h⟩ := Prog.ok_of_runPaced_failIf_bind h
  have hkey' : ∀ jkt, claims.cnf = some jkt → result.jkt = jkt := fun jkt hcnf => by
    simpa [hcnf] using hkey
  refine ⟨by simpa using hscheme, result, p, _, hopen, w.clock_le_wait d, ?_⟩
  by_cases hstore : m.proofStore = true
  · -- the second reading of the clock, and the consumption
    rw [if_pos hstore] at h
    obtain ⟨d', pace₂, h⟩ := ok_of_step_bind h
    obtain ⟨u, hu, heq⟩ := Prog.ok_of_runPaced_exec h
    obtain ⟨d'', rfl⟩ := eq_wait_of_waited hu
    obtain ⟨hok, ht⟩ := Prod.mk.inj heq
    obtain ⟨hnew, rfl⟩ := ok_of_consumeJTI (Prod.ext (mapError_eq_ok.mp hok) ht)
    have hlater := World.clock_le_wait d' (w.wait d)
    have hbefore := hlater.trans (World.clock_le_wait d'' ((w.wait d).wait d'))
    exact ⟨hbefore, hproof, hkey', fun _ => ⟨_, {
      after := w.clock_le_wait d
      before := hbefore
      age := hage
      kept := Int.add_le_add_right hlater _
      fresh := fun row hrow => hjti ▸ hnew row hrow
      recorded := hjti ▸ List.mem_append_right _ List.mem_cons_self }⟩⟩
  · rw [if_neg hstore] at h
    obtain ⟨-, rfl⟩ := Prod.mk.inj h
    exact ⟨Int.le_refl _, hproof, hkey', fun h => absurd h hstore⟩

theorem Proved.earlier {u : World} (h : Proved m env r claims u t) (hclock : w.clock ≤ u.clock)
    (hjtis : u.dpopJTIs = w.dpopJTIs) : Proved m env r claims w t := by
  obtain ⟨result, p, now, hopen, hafter, hbefore, hvalid, hkey, haccepted⟩ := h.valid
  refine ⟨h.scheme, result, p, now, hopen, hclock.trans hafter, hbefore, hvalid, hkey,
    fun hstore => ?_⟩
  obtain ⟨expiry, hacc⟩ := haccepted hstore
  exact ⟨expiry, { hacc with after := hclock.trans hacc.after, fresh := hjtis ▸ hacc.fresh }⟩

/-- What a request that reaches the handler has shown, while time passes and the store fails calls.
-/
theorem let_through (h : (m.wrap env r).runPaced World.wait pace w = (.ok claims, t)) :
    (∃ d, (w.wait d).clock ≤ t.clock ∧ m.verify env r (w.wait d) = .ok claims) ∧
      (m.audience = "" ∨ m.audience ∈ claims.audience) ∧
      (claims.cnf.isSome = true ∨ scheme env r = "DPoP" → Proved m env r claims w t) := by
  unfold wrap at h
  obtain ⟨-, h⟩ := Prog.ok_of_runPaced_failIf_bind h
  obtain ⟨d₁, pace₁, h⟩ := ok_of_query_bind h
  obtain ⟨d₂, pace₂, h⟩ := ok_of_query_bind h
  obtain ⟨d₃, pace₃, h⟩ := ok_of_step_bind h
  obtain ⟨d, hwait⟩ : ∃ d, ((w.wait d₁).wait d₂).wait d₃ = w.wait d :=
    ⟨d₁ + d₂ + d₃, by simp [World.wait, Int.add_assoc]⟩
  rw [hwait] at h
  obtain ⟨c, hverify, h⟩ := Prog.ok_of_runPaced_ofExcept_bind h
  rw [mapError_eq_ok] at hverify
  obtain ⟨haud, h⟩ := Prog.ok_of_runPaced_failIf_bind h
  have haud' : m.audience = "" ∨ m.audience ∈ c.audience := by
    by_contra hne
    rw [not_or] at hne
    simp [hne] at haud
  split at h
  · obtain ⟨⟨⟩, u, rest, hbind, h⟩ := Prog.ok_of_runPaced_bind h
    obtain ⟨hc, rfl⟩ := Prod.mk.inj h
    obtain rfl := Except.ok.inj hc
    have heach : (m.validateDPoPBinding env r c).Each World.Before :=
      each_validateDPoPBinding World.Before.refl before_consumeJTI c
    have hbefore := heach.runPaced World.Before.drifts pace₃ (w.wait d)
    rw [hbind] at hbefore
    refine ⟨⟨d, hbefore.clock, hverify⟩, haud', fun _ => ?_⟩
    exact (proved_of_validateDPoPBinding hbind).earlier (w.clock_le_wait d) rfl
  · rename_i hfree
    obtain ⟨hc, rfl⟩ := Prod.mk.inj h
    obtain rfl := Except.ok.inj hc
    refine ⟨⟨d, Int.le_refl _, hverify⟩, haud', fun hneeded => absurd ?_ hfree⟩
    simpa using hneeded

theorem shown_of_wrap (h : (m.wrap env r).runPaced World.wait pace w = (.ok claims, t)) :
    claims ∈ w.released ∧ Shown m env r claims w t := by
  obtain ⟨⟨d, hclock, hverify⟩, haud, hproved⟩ := let_through h
  unfold verify at hverify
  split at hverify
  · obtain ⟨rfl, hmem, hissuer, hunexpired⟩ := verifyAccessToken_ok hverify
    refine ⟨hmem, hissuer, haud, ⟨_, w.clock_le_wait d, hclock, hunexpired⟩, fun jkt hcnf => ?_⟩
    have hp := hproved (.inl (by rw [hcnf]; rfl))
    obtain ⟨result, p, now, -, hafter, hbefore, hvalid, hkey, -⟩ := hp.valid
    exact ⟨hp.scheme, result, now, hafter, hbefore, hvalid, hkey jkt hcnf⟩
  · cases hverify

/-! ### Runs -/

/-- A request to the resource server, or what else happens to the replay store: the token endpoint
validates proofs with the same one, and purges pass. -/
inductive ResourceStep
  | request (r : ResourceRequest) (pace : Pace)
  | elsewhere (x : ProofStep)

def ResourceStep.run (m : JWTMiddleware) (env : Env) (x : ResourceStep) (w : World) : World :=
  match x with
  | request r pace => ((m.wrap env r).runPaced World.wait pace w).2
  | elsewhere x => x.run env w

/-- Does the step let a request with this proof through, under the scheme that asks for one? -/
def ResourceStep.lets (m : JWTMiddleware) (env : Env) (proof : String) (x : ResourceStep)
    (w : World) : Bool :=
  match x with
  | request r pace =>
    r.dpop == proof && scheme env r == "DPoP" && ((m.wrap env r).runPaced World.wait pace w).1.isOk
  | elsewhere _ => false

theorem before_run (x : ResourceStep) (w : World) : w.Before (x.run m env w) := by
  cases x with
  | elsewhere x => exact x.before_run w
  | request r pace =>
    exact (each_wrap World.Before.refl before_consumeJTI).runPaced World.Before.drifts pace w

theorem before_after (steps : List ResourceStep) (w : World) :
    w.Before (after (ResourceStep.run m env) steps w) := by
  induction steps generalizing w with
  | nil => exact .refl w
  | cons x rest ih => exact World.Before.drifts.trans (before_run x w) (ih _)

theorem spent_run {lifetime : Time} {p : OpenedProof} (x : ResourceStep)
    (h : ProofSpent lifetime p w) :
    ProofSpent lifetime p (x.run m env w) := by
  cases x with
  | elsewhere x => exact x.spent_run h
  | request r pace =>
    exact (each_wrap
      (P := fun w w' => ProofSpent lifetime p w → ProofSpent lifetime p w') (fun _ => id)
      fun _ _ _ => ProofSpent.consumeJTI).runPaced (.of_inv fun d _ => ProofSpent.wait d) pace w h

theorem accepted_of_lets {x : ResourceStep} {proof : String} (hstore : m.proofStore = true)
    (h : x.lets m env proof w = true) : ∃ p now expiry, openProof env proof = .ok p ∧
      ProofAccepted m.proofLifetime p w (x.run m env w) now expiry := by
  cases x with
  | elsewhere x => cases h
  | request r pace =>
    simp only [ResourceStep.lets, Bool.and_eq_true, beq_iff_eq] at h
    obtain ⟨⟨rfl, hscheme⟩, hok⟩ := h
    cases hrun : (m.wrap env r).runPaced World.wait pace w with
    | mk res t =>
      rw [hrun] at hok
      cases res with
      | error e => cases hok
      | ok claims =>
        obtain ⟨-, -, hproved⟩ := let_through hrun
        obtain ⟨result, p, now, hopen, -, -, -, -, haccepted⟩ := (hproved (.inr hscheme)).valid
        obtain ⟨expiry, hacc⟩ := haccepted hstore
        have hworld : (ResourceStep.request r pace).run m env w = t := congrArg Prod.snd hrun
        exact ⟨p, now, expiry, hopen, hworld ▸ hacc⟩

/-- **Nobody else reaches the handler.** At any point of any run, the handler is called only with a
token that was handed out before the run and has not expired when the request is served, for this
resource, and for a bound token only with a proof by the key it is bound to that is valid at that
time. -/
theorem handler_reached (steps : List ResourceStep) (w : World) (r : ResourceRequest) (pace : Pace)
    (h : ((m.wrap env r).runPaced World.wait pace (after (ResourceStep.run m env) steps w)).1 =
      .ok claims) :
    claims ∈ w.released ∧
      Shown m env r claims (after (ResourceStep.run m env) steps w)
        (after (ResourceStep.run m env) (steps ++ [.request r pace]) w) := by
  obtain ⟨hmem, hshown⟩ := shown_of_wrap (Prod.ext h rfl)
  rw [(before_after steps w).released] at hmem
  rw [after_append]
  exact ⟨hmem, hshown⟩

/-- **A proof lets one request through.** In a run of requests to a resource server with a replay
store, of validations at the token endpoint with the same store, and of purge passes, at most one
request is let through with a given proof. Its `iat` is within 290 years of the clock throughout,
and twice the proof lifetime is a `time.Duration`. -/
theorem proof_lets_through_once (hstore : m.proofStore = true)
    (hfits : m.proofLifetime * 2 ≤ 9223372036854775807)
    (proof : String) (steps : List ResourceStep) (w : World)
    (hstart : ∀ p, openProof env proof = .ok p → |w.clock - timeUnix p.claims.iat| ≤ years290)
    (hend : ∀ p, openProof env proof = .ok p →
      |(after (ResourceStep.run m env) steps w).clock - timeUnix p.claims.iat| ≤ years290) :
    hits (ResourceStep.lets m env proof) (ResourceStep.run m env) steps w ≤ 1 := by
  exact proof_hits_le_one hfits (fun x w => (before_run x w).clock) (fun x w p h => spent_run x h)
    (fun x w h => accepted_of_lets hstore h) steps w hstart hend

namespace Sample

/-- The deployment with one proof, made for a request to a resource server. -/
def resourceProof : Env :=
  { AuthServer.Sample.oneProof with
    signedClaims := fun _ _ => some ⟨"1", "POST", "https://rs", 1000, "", ""⟩ }

/-- A token that is bound to the key of the proof. -/
def boundToken : AccessTokenClaims := { AuthServer.Sample.userToken "t" with cnf := some "k" }

def notesServer : JWTMiddleware :=
    ⟨"https://notes", none, true, fun _ => some boundToken, fun _ => "", fun _ => ""⟩

def bound : ResourceRequest := ⟨"DPoP t", "proof", "", "POST", true, "rs", ""⟩

def handedOut : World := { World.empty (950 * 1000000000) with released := [boundToken] }

end Sample

theorem handler_reached_bound :
    Sample.boundToken ∈ Sample.handedOut.released ∧
      Shown Sample.notesServer Sample.resourceProof Sample.bound Sample.boundToken
        (Sample.handedOut.wait 5) (after (ResourceStep.run Sample.notesServer Sample.resourceProof)
          [.elsewhere (.purge [(5, false)]), .request Sample.bound []] Sample.handedOut) := by
  have hrun : ((Sample.notesServer.wrap Sample.resourceProof Sample.bound).runPaced World.wait []
      (after (ResourceStep.run Sample.notesServer Sample.resourceProof)
        [.elsewhere (.purge [(5, false)])] Sample.handedOut)).1 = .ok Sample.boundToken := by decide
  exact handler_reached _ _ _ _ hrun

theorem proof_lets_through_once_twice :
    (ResourceStep.request Sample.bound []).lets Sample.notesServer Sample.resourceProof "proof"
      Sample.handedOut = true ∧
    hits (ResourceStep.lets Sample.notesServer Sample.resourceProof "proof")
      (ResourceStep.run Sample.notesServer Sample.resourceProof)
      [.request Sample.bound [], .elsewhere (.purge [(110 * 1000000000, false)]),
        .request Sample.bound []]
      Sample.handedOut ≤ 1 := by
  have hproof : openProof Sample.resourceProof "proof" =
      .ok ⟨⟨.ecdsa .p256, true, "k"⟩, ⟨"1", "POST", "https://rs", 1000, "", ""⟩⟩ := by decide
  refine ⟨by decide, proof_lets_through_once rfl (by decide) "proof" _ _
    (fun p hp => ?_) fun p hp => ?_⟩ <;>
  · obtain rfl := Except.ok.inj (hproof.symm.trans hp)
    decide

end JWTMiddleware

end AuthServer
