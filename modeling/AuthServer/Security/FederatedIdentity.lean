import AuthServer.Service.JWTBearer
import AuthServer.Service.Rules

/-!
# Subjects of trusted identity providers

Where no mapping names a local user, the subject of a `jwt-bearer` token is the assertion's issuer
and subject with a colon between them. An issuer may hold a colon itself, before a port or in its
path, and so may a subject: the joined text does not say where the issuer ends.
`tokenSubject_injective_iff` says for which two providers that matters.

Where a mapping does name a local user, the token is to be that user's or not issued. A mapping that
could not be read is taken for one that does not exist, though, and the pair is used in its place:
`resolveSubject_mapped_iff`. -/

namespace AuthServer

open Interleave

namespace JWTBearerService

/-- The token for an assertion of `idp` about `subject` has the subject `sub`, with subjects mapped
automatically and no explicit mapping for this one. -/
structure Names (idp : TrustedIDP) (subject sub : String) (env : Env) (w : World)
    (plan : List Bool) (assertion : IdentityAssertion) : Prop where
  issuer_eq : assertion.issuer = idp.issuer
  subject_eq : assertion.subject = subject
  autoMap : env.xaa.subjectMode = .autoMap
  unmapped : ∀ m ∈ w.subjectMappings, ¬ (m.idpID = idp.id ∧ m.idpSubject = subject)
  run_eq : ((tokenSubject env idp assertion).run plan w).1 = .ok sub

variable {w : World}

theorem getMapping_of_unmapped {idpID subject : String}
    (h : ∀ m ∈ w.subjectMappings, ¬ (m.idpID = idpID ∧ m.idpSubject = subject)) :
    SubjectMappingStore.getMapping idpID subject w =
      .error (.sentinel .subjectMappingNotFound) := by
  refine Table.lookup_eq_error.mpr (List.find?_eq_none.mpr ?_)
  simpa using h

/-- The mapping may also fail to be read, with the same result. -/
theorem run_resolveSubject {idpID issuer subject : String}
    (h : ∀ m ∈ w.subjectMappings, ¬ (m.idpID = idpID ∧ m.idpSubject = subject))
    (plan : List Bool) :
    ((SubjectMappingService.resolveSubject idpID issuer subject .autoMap).run plan w).1 =
      .ok (issuer ++ ":" ++ subject) := by
  rw [SubjectMappingService.resolveSubject, run_attempt_fetch_bind, getMapping_of_unmapped h]
  cases plan.headD false <;> rfl

variable {subject sub : String} {idp : TrustedIDP}

theorem Names.sub_eq {env : Env}
    {plan : List Bool} {assertion : IdentityAssertion}
    (h : Names idp subject sub env w plan assertion) : idp.issuer ++ ":" ++ subject = sub := by
  have hrun : ((tokenSubject env idp assertion).run plan w).1 =
      .ok (idp.issuer ++ ":" ++ subject) := by
    rw [tokenSubject, h.issuer_eq, h.subject_eq, h.autoMap]
    split
    · exact run_resolveSubject h.unmapped plan
    · rfl
  exact Except.ok.inj (hrun.symm.trans h.run_eq)

def assertionOf (issuer subject : String) : IdentityAssertion :=
  ⟨issuer, subject, "", "", "", "", 0, 0, ""⟩

theorem names_plain
    (h : idp.issuer ++ ":" ++ subject = sub) :
    Names idp subject sub Env.plain (.empty 0) [] (assertionOf idp.issuer subject) where
  issuer_eq := rfl
  subject_eq := rfl
  autoMap := rfl
  unmapped m hm := absurd hm List.not_mem_nil
  run_eq := by
    rw [← h]
    exact run_resolveSubject (fun m hm => absurd hm List.not_mem_nil) []

/-- Two joined texts that are equal: the same parts, or one issuer goes on with a colon where the
other ends. -/
theorem append_colon_eq_append_colon {a b s t : String} (h : a ++ ":" ++ s = b ++ ":" ++ t) :
    (a = b ∧ s = t) ∨ (∃ rest, b = a ++ ":" ++ rest) ∨ ∃ rest, a = b ++ ":" ++ rest := by
  have hlist : a.toList ++ ':' :: s.toList = b.toList ++ ':' :: t.toList := by
    simpa using congrArg String.toList h
  have hof : ∀ {x y : String} {rest : List Char}, x.toList = y.toList ++ ':' :: rest →
      x = y ++ ":" ++ String.ofList rest := by
    intro x y rest hx
    apply String.toList_injective
    simpa using hx
  rcases List.append_eq_append_iff.mp hlist with ⟨mid, hb, hs⟩ | ⟨mid, ha, ht⟩
  · rcases mid with _ | ⟨c, mid⟩
    · left
      simp only [List.append_nil, List.nil_append, List.cons.injEq, true_and] at hb hs
      exact ⟨(String.toList_injective hb).symm, String.toList_injective hs⟩
    · obtain ⟨rfl, -⟩ := List.cons.inj hs
      exact .inr (.inl ⟨_, hof hb⟩)
  · rcases mid with _ | ⟨c, mid⟩
    · left
      simp only [List.append_nil, List.nil_append, List.cons.injEq, true_and] at ha ht
      exact ⟨String.toList_injective ha, (String.toList_injective ht).symm⟩
    · obtain ⟨rfl, -⟩ := List.cons.inj ht
      exact .inr (.inr ⟨_, hof ha⟩)

/-- The subjects of two providers never collide, exactly when neither issuer goes on with a colon
where the other ends. -/
theorem tokenSubject_injective_iff (idp idp' : TrustedIDP) :
    (∀ subject subject' sub env env' w w' plan plan' assertion assertion',
      Names idp subject sub env w plan assertion →
      Names idp' subject' sub env' w' plan' assertion' →
      idp.issuer = idp'.issuer ∧ subject = subject') ↔
    (∀ rest, idp'.issuer ≠ idp.issuer ++ ":" ++ rest) ∧
      ∀ rest, idp.issuer ≠ idp'.issuer ++ ":" ++ rest := by
  constructor
  · intro h
    -- the subjects that make the two texts equal
    have hclash : ∀ subject subject', idp.issuer ++ ":" ++
      subject = idp'.issuer ++ ":" ++ subject' →
        idp.issuer = idp'.issuer := by
      intro subject subject' heq
      exact (h subject subject' _ _ _ _ _ _ _ _ _ (names_plain heq) (names_plain rfl)).1
    have hlonger : ∀ a rest : String, a ≠ a ++ ":" ++ rest := by
      intro a rest heq
      have hlen := congrArg String.length heq
      simp only [String.length_append] at hlen
      have hcolon : ":".length = 1 := rfl
      omega
    refine ⟨fun rest heq => ?_, fun rest heq => ?_⟩
    · have hsame := hclash (rest ++ ":") "" (by rw [heq]; simp [String.append_assoc])
      exact hlonger idp.issuer rest (hsame.trans heq)
    · have hsame := hclash "" (rest ++ ":") (by rw [heq]; simp [String.append_assoc])
      exact hlonger idp'.issuer rest (hsame.symm.trans heq)
  · rintro ⟨hne, hne'⟩ subject subject' sub env env' w w' plan plan' assertion assertion' h h'
    rcases append_colon_eq_append_colon (h.sub_eq.trans h'.sub_eq.symm) with
      heq | ⟨rest, heq⟩ | ⟨rest, heq⟩
    · exact heq
    · exact absurd heq (hne rest)
    · exact absurd heq (hne' rest)

/-- A provider that is registered with the given issuer. -/
def providerOf (id issuer : String) : TrustedIDP :=
  ⟨id, "provider", issuer, "", "https://as", true⟩

/-- `https://idp.example`, about `8443:alice`, and `https://idp.example:8443`, about `alice`. -/
theorem tokenSubject_with_port :
    (providerOf "1" "https://idp.example").validate Env.plain = .ok () ∧
    (providerOf "2" "https://idp.example:8443").validate Env.plain = .ok () ∧
    Names (providerOf "1" "https://idp.example") "8443:alice" "https://idp.example:8443:alice"
      Env.plain (.empty 0) [] (assertionOf "https://idp.example" "8443:alice") ∧
    Names (providerOf "2" "https://idp.example:8443") "alice" "https://idp.example:8443:alice"
      Env.plain (.empty 0) [] (assertionOf "https://idp.example:8443" "alice") ∧
    (providerOf "1" "https://idp.example").issuer ≠
      (providerOf "2" "https://idp.example:8443").issuer := by
  refine ⟨by decide, by decide, names_plain ?_, names_plain ?_, by decide⟩ <;> decide

end JWTBearerService

/-! ### A subject that is mapped -/

namespace SubjectMappingService

variable {idpID issuer subject : String} {mode : SubjectMode} {plan : List Bool} {w : World}
    {m : SubjectMapping}

/-- The subject `alice` of the provider `1` is the local user `u1`. -/
def Sample.mapping : SubjectMapping :=
  ⟨"1", "alice", "u1"⟩

def Sample.mapped : World :=
  { World.empty 0 with users := [⟨"u1", false⟩], subjectMappings := [Sample.mapping] }

/-- The account that a mapping names can be signed in to. -/
def Active (w : World) (userID : String) : Prop :=
  ∃ u, UserStore.getByID userID w = .ok u ∧ u.isActive = true

theorem active_of_checkLocalUserActive {userID : String} {t : World}
    (h : (checkLocalUserActive userID).run plan w = (.ok (), t)) : t = w ∧ Active w userID := by
  rw [checkLocalUserActive, run_attempt_fetch_bind] at h
  cases hbad : plan.headD false with
  | true =>
    rw [hbad, if_pos rfl] at h
    cases h
  | false =>
    rw [hbad, if_neg Bool.false_ne_true] at h
    cases huser : UserStore.getByID userID w with
    | error e =>
      rw [huser] at h
      simp only at h
      split at h <;> cases h
    | ok u =>
      rw [huser] at h
      obtain ⟨hactive, rfl⟩ := Prog.ok_of_run_failIf h
      exact ⟨rfl, u, huser, by simpa using hactive⟩

theorem eq_of_resolveSubject_read (hm : SubjectMappingStore.getMapping idpID subject w = .ok m)
    (hlocal : m.localUserID ≠ "") (hread : plan.headD false = false) {r : String}
    (h : ((resolveSubject idpID issuer subject mode).run plan w).1 = .ok r) :
    r = m.localUserID ∧ Active w m.localUserID := by
  unfold resolveSubject at h
  rw [run_attempt_fetch_bind, hread, if_neg Bool.false_ne_true, hm] at h
  simp only [bne_iff_ne, ne_eq, hlocal, not_false_eq_true, if_true] at h
  obtain ⟨_, t, rest, hcheck, hret⟩ := Prog.ok_of_run_bind (Prod.ext h rfl)
  refine ⟨(Except.ok.inj (congrArg Prod.fst hret)).symm, ?_⟩
  exact (active_of_checkLocalUserActive hcheck).2

theorem run_resolveSubject_unread (hfault : plan.headD false = true) :
    ((resolveSubject idpID issuer subject mode).run plan w).1 =
      if mode = .strict then .error (.sentinel .subjectMappingNotFound)
        else .ok (issuer ++ ":" ++ subject) := by
  unfold resolveSubject
  rw [run_attempt_fetch_bind, hfault, if_pos rfl]
  cases mode <;> rfl

/-- **Exactly when a mapped subject resolves to its active user or to nothing**, for a subject whose
mapping names one. The store may fail the lookup of the mapping, that of the user, or both. -/
theorem resolveSubject_mapped_iff (issuer : String) (mode : SubjectMode) (plan : List Bool)
    (hm : SubjectMappingStore.getMapping idpID subject w = .ok m) (hlocal : m.localUserID ≠ "") :
    (∀ r, ((resolveSubject idpID issuer subject mode).run plan w).1 = .ok r →
      r = m.localUserID ∧ Active w m.localUserID) ↔
    mode = .strict ∨ plan.headD false = false ∨
      (issuer ++ ":" ++ subject = m.localUserID ∧ Active w m.localUserID) := by
  cases hfault : plan.headD false with
  | false =>
    refine ⟨fun _ => .inr (.inl rfl), fun _ r hr => ?_⟩
    exact eq_of_resolveSubject_read hm hlocal hfault hr
  | true =>
    rw [run_resolveSubject_unread hfault]
    cases mode with
    | strict =>
      refine ⟨fun _ => .inl rfl, fun _ r hr => ?_⟩
      rw [if_pos rfl] at hr
      cases hr
    | autoMap =>
      simp only [reduceCtorEq, if_false, Except.ok.injEq, false_or, Bool.true_eq_false]
      exact ⟨fun hall => hall _ rfl, fun hpair r hr => hr ▸ hpair⟩

/-- The mapping of `alice` to a disabled account, whose lookup fails. -/
theorem resolveSubject_of_failed_lookup :
    SubjectMappingStore.getMapping "1" "alice" Sample.mapped = .ok Sample.mapping ∧
      Sample.mapping.localUserID = "u1" ∧ ¬Active Sample.mapped "u1" ∧
      ((resolveSubject "1" "https://idp.example" "alice" .autoMap).run [true] Sample.mapped).1 =
        .ok "https://idp.example:alice" := by
  refine ⟨by decide, by decide, ?_, by decide⟩
  rintro ⟨u, hu, hactive⟩
  obtain rfl : ⟨"u1", false⟩ = u := Except.ok.inj hu
  cases hactive

/-- The same subject, with the lookup of the mapping not failing. -/
theorem resolveSubject_of_read :
    SubjectMappingStore.getMapping "1" "alice" Sample.mapped = .ok Sample.mapping ∧
    ∀ r, ((resolveSubject "1" "https://idp.example" "alice" .autoMap).run [false] Sample.mapped).1 =
      .ok r → r = Sample.mapping.localUserID ∧ Active Sample.mapped Sample.mapping.localUserID :=
  ⟨by decide, (resolveSubject_mapped_iff "https://idp.example" .autoMap
    [false] (by decide) (by decide)).mpr
    (.inr (.inl rfl))⟩

end SubjectMappingService

end AuthServer
