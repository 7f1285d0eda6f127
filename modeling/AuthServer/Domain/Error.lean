import Mathlib.Data.List.Basic

/-!
# Errors

The sentinel errors of `internal/domain/errors.go` that the modelled services return or test for,
and the ways a service wraps them. A test `errors.Is(err, domain.ErrX)` is `Err.is`.
-/

namespace AuthServer

/-- The sentinel errors, under the names the source gives them. -/
inductive Sentinel
  | invalidGrant
  | invalidClient
  | clientNotFound
  | clientSuspended
  | unauthorizedClient
  | unsupportedResponseType
  | invalidScope
  | invalidRedirectURI
  | invalidPKCE
  | invalidRequest
  | invalidTarget
  | accessDenied
  | sessionExpired
  | codeConsumed
  | familyRevoked
  | reuseRevocationFailed
  | refreshTokenReused
  | userNotFound
  | userHasActiveTokens
  | resourceNotFound
  | ambiguousResource
  | invalidSlug
  | conflict
  | scopeNotInCatalog
  | resourceHasReferences
  | resourceHasFrontingLinks
  | frontingLinkNotFound
  | frontingLinkExists
  | frontingLinkCycle
  | tokenExchangeNotAuthorized
  | tokenExchangeChainTooDeep
  | brokerActorNotAllowed
  | brokerGrantConflict
  | adapterNotRegistered
  | consentResourceNotMint
  | upstreamInvalidGrant
  | upstreamUnavailable
  | upstreamScopeDowngrade
  | dpopInvalidProof
  | dpopReplay
  | dpopNonceRequired
  | dpopNonceMismatch
  | assertionInvalid
  | assertionIssuerUntrusted
  | assertionTypeMismatch
  | assertionExpired
  | assertionAudienceMismatch
  | assertionClientMismatch
  | assertionReplay
  | assertionPolicyDenied
  | idpNotFound
  | idpDisabled
  | subjectMappingNotFound
  | rotationConflict
  | cimdFetchFailed
  | cimdInvalid
  | connectionNotFound
  | stateNotFound
  | invalidState
  | stateForeignUser
  | pendingStateNotFound
  | registrationDisabled
  | clientConflict
  | serviceNotFound
  | invalidReturnURL
  | ambiguousBrokerResource
  | noConnectStep
  | userAlreadyExists
  | userConflict
  | oidcUnavailable
  | oidcAuthFailed
  | oidcEmailInUse
  | secretInputRejected
  | secretUnresolvable
  | decryptionFailed
  | storeReturnedNoUser
  deriving DecidableEq, Repr

/-- The `Cause` of a `ConsentRequiredError`. -/
inductive Cause
  | consentMissing
  | scopeInsufficient
  deriving DecidableEq, Repr

/-- An error value. -/
inductive Err
  /-- The sentinel itself. -/
  | sentinel (kind : Sentinel)
  /-- `fmt.Errorf` around the sentinel, with the text added to it. -/
  | wrapped (kind : Sentinel) (detail : String)
  /-- `ConsentRequiredError`. -/
  | consentRequired (service providerSlug resourceSlug : String) (cause : Cause)
      (missingScopes : List String) (deniedReason : String)
  /-- `FrontingLinkMissingError`. -/
  | frontingLinkMissing (sourceSlug targetSlug : String)
  /-- Any other error: a store that could not answer, a primitive that failed. -/
  | fault (detail : String)
  deriving DecidableEq, Repr

namespace Err

/-- `errors.Is` against a sentinel. -/
def is (e : Err) (kind : Sentinel) : Bool :=
  match e with
  | sentinel k => k == kind
  | wrapped k _ => k == kind
  | _ => false

/-- `fmt.Errorf("<detail>: %w", err)`. -/
def wrap (detail : String) : Err → Err
  | sentinel k => wrapped k detail
  | wrapped k d => wrapped k (detail ++ ": " ++ d)
  | fault d => fault (detail ++ ": " ++ d)
  | e => e

end Err

/-- A sequence of checks that has a result: so has its first part. -/
theorem ok_of_bind {ε α β : Type} {r : Except ε α} {g : α → Except ε β} {b : β}
    (h : (r >>= g) = .ok b) : ∃ a, r = .ok a ∧ g a = .ok b := by
  cases r with
  | ok a => exact ⟨a, rfl, h⟩
  | error e => cases h

@[simp] theorem mapError_eq_ok {ε ε' β : Type} {r : Except ε β} {f : ε → ε'} {b : β} :
    r.mapError f = .ok b ↔ r = .ok b := by
  cases r <;> simp [Except.mapError]

/-- Checks that go on after a condition for which they would have stopped. -/
theorem ok_of_guard {ε α : Type} {c : Prop} [Decidable c] {e : ε} {g : Unit → Except ε α} {a : α}
    (h : (if c then (throw e : Except ε Unit) >>= g else g ()) = .ok a) : ¬c ∧ g () = .ok a := by
  by_cases hc : c
  · rw [if_pos hc] at h
    cases h
  · rw [if_neg hc] at h
    exact ⟨hc, h⟩

end AuthServer
