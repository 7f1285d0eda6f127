import AuthServer.Lineage.Closure
import AuthServer.Store.Directory

/-!
# Stores for sessions and tokens

The single-call store methods on authorization sessions, refresh-token families and their tokens,
the denylist, machine tokens and the issuance log. Each conditional `UPDATE` of the source is one
call here, so it is atomic, and each `INSERT` refuses what the schema's unique indexes refuse.

Times are compared as instants, here, in `Store.Directory` and in `ConnectService`. SQLite compares
their texts, whose order differs within a second (`Store.TimeText`); only the purge of assertion
identifiers is modelled on texts.

`IssuanceStore.revokeFamily` is the recursive query of the consent cascade: `lineage` computes the
identifiers it reaches, and `mem_lineage` says which these are.
-/

namespace AuthServer

open Table

variable {id : String} {w w' : World}

namespace SessionStore

/-- Insert a session whose id and code hash are new. -/
def create (ctx : ReqID) (s : AuthSession) (resourceID : Option String) : Call Unit := fun w =>
  if w.sessions.any fun s' => s'.id == s.id || (s.codeHash != "" && s'.codeHash == s.codeHash) then
    (.error (.fault "unique session"), w)
  else
    (.ok (), { w with sessions := w.sessions ++ [s] }.note ctx
      (.authorized s.id s.userID s.scope resourceID))

/-- `SessionStore.GetByID`. -/
def getByID (id : String) (w : World) : Except Err AuthSession :=
  lookup (·.id == id) (.sentinel .invalidGrant) w.sessions

theorem getByID_ok {s : AuthSession} (h : getByID id w = .ok s) : s ∈ w.sessions ∧ s.id = id := by
  simpa using mem_of_lookup h

theorem create_cases (ctx : ReqID) (s : AuthSession) (resourceID : Option String) (w : World) :
    (∃ e, create ctx s resourceID w = (.error e, w)) ∨
      (∀ s' ∈ w.sessions, s'.id ≠ s.id ∧ (s.codeHash ≠ "" → s'.codeHash ≠ s.codeHash)) ∧
        create ctx s resourceID w = (.ok (), { w with sessions := w.sessions ++ [s] }.note ctx
          (.authorized s.id s.userID s.scope resourceID)) := by
  unfold create
  split
  · exact .inl ⟨_, rfl⟩
  · rename_i hunique
    refine .inr ⟨fun s' hs' => ?_, rfl⟩
    simpa [not_or] using List.any_eq_false.mp (eq_false_of_ne_true hunique) s' hs'

/-- What presenting a code led to: it was consumed now, or it had been consumed before. The source
returns the session in both cases. -/
inductive CodeUse
  | consumed (sess : AuthSession)
  | alreadyConsumed (sess : AuthSession)
  deriving DecidableEq, Repr

/-- The world after the session `s` is consumed by its code. -/
def spend (ctx : ReqID) (codeHash : String) (s : AuthSession) (w : World) : World :=
  { w with
    sessions := updateWhere (fun s' => s'.codeHash == codeHash && s'.consumedAt.isNone)
      (fun s' => { s' with consumedAt := some w.clock }) w.sessions }.note ctx (.codeConsumed s.id)

/-- `SessionStore.ConsumeByCodeHash`. The column is NULL where the model has the empty string, so
an empty hash matches nothing. -/
def consumeByCodeHash (ctx : ReqID) (codeHash : String) : Call CodeUse := fun w =>
  match w.sessions.find? fun s => s.codeHash == codeHash && codeHash != "" with
  | none => (.error (.sentinel .invalidGrant), w)
  | some s =>
    if s.consumedAt.isSome then (.ok (.alreadyConsumed s), w)
    else
      (.ok (.consumed { s with consumedAt := some w.clock }), spend ctx codeHash s w)

theorem consumeByCodeHash_cases (ctx : ReqID) (codeHash : String) (w : World) :
    ((∀ s, (consumeByCodeHash ctx codeHash w).1 ≠ .ok (.consumed s)) ∧
        (consumeByCodeHash ctx codeHash w).2 = w) ∨
      ∃ s ∈ w.sessions, s.codeHash = codeHash ∧ codeHash ≠ "" ∧ s.consumedAt = none ∧
        consumeByCodeHash ctx codeHash w =
          (.ok (.consumed { s with consumedAt := some w.clock }), spend ctx codeHash s w) := by
  unfold consumeByCodeHash
  split
  · exact .inl ⟨by simp, rfl⟩
  · rename_i s hfind
    split
    · exact .inl ⟨by simp, rfl⟩
    · rename_i hopen
      have hs := List.find?_some hfind
      simp only [Bool.and_eq_true, beq_iff_eq, bne_iff_ne] at hs
      exact .inr ⟨s, List.mem_of_find?_eq_some hfind, hs.1, hs.2, by simpa using hopen, rfl⟩

/-- A code that was spent is found so again as long as the sessions are the same. -/
theorem consumeByCodeHash_of_replay {ctx : ReqID} {hash : String} {sess : AuthSession} {u : World}
    (hsessions : u.sessions = w.sessions)
      (h : (consumeByCodeHash ctx hash w).1 = .ok (.alreadyConsumed sess)) :
    consumeByCodeHash ctx hash u = (.ok (.alreadyConsumed sess), u) := by
  unfold consumeByCodeHash at h ⊢
  rw [hsessions]
  split at h
  · cases h
  · rename_i s hfind
    split at h
    · rename_i hspent
      cases h
      simp only [hspent, if_true]
    · cases h

/-- The row may still be given a code: it is neither expired nor consumed. -/
def isOpen (sessionID : String) (now : Time) (s : AuthSession) : Bool :=
  s.id == sessionID && s.expiresAt > now && s.consumedAt.isNone

/-- `SessionStore.UpdateCodeHashAndScope`. -/
def updateCodeHashAndScope (sessionID codeHash scope : String) : Call Unit := fun w =>
  if w.sessions.any (isOpen sessionID w.clock) then
    if w.sessions.any fun s => s.codeHash == codeHash && s.id != sessionID then
      (.error (.fault "unique code_hash"), w)
    else
      (.ok (), { w with
        sessions := updateWhere (isOpen sessionID w.clock)
          (fun s => { s with codeHash := codeHash, scope := scope }) w.sessions
        codes := codeHash :: w.codes })
  else (.error (.sentinel .invalidGrant), w)

theorem updateCodeHashAndScope_cases (sessionID codeHash scope : String) (w : World) :
    (∃ e, updateCodeHashAndScope sessionID codeHash scope w = (.error e, w)) ∨
      (∃ s ∈ w.sessions, isOpen sessionID w.clock s = true) ∧
      (∀ s ∈ w.sessions, s.codeHash = codeHash → s.id = sessionID) ∧
      updateCodeHashAndScope sessionID codeHash scope w = (.ok (), { w with
        sessions := updateWhere (isOpen sessionID w.clock)
          (fun s => { s with codeHash := codeHash, scope := scope }) w.sessions
        codes := codeHash :: w.codes }) := by
  unfold updateCodeHashAndScope
  split
  · rename_i hopen
    split
    · exact .inl ⟨_, rfl⟩
    · rename_i hunique
      refine .inr ⟨by simpa using hopen, fun s hs hhash => ?_, rfl⟩
      by_contra hne
      exact hunique (List.any_eq_true.mpr ⟨s, hs, by simp [hhash, hne]⟩)
  · exact .inl ⟨_, rfl⟩

theorem updateCodeHashAndScope_ok {sessionID codeHash scope : String}
    (h : updateCodeHashAndScope sessionID codeHash scope w = (.ok (), w')) :
    (∃ s ∈ w.sessions, isOpen sessionID w.clock s = true) ∧
      (∀ s ∈ w.sessions, s.codeHash = codeHash → s.id = sessionID) ∧
      w' = { w with
        sessions := updateWhere (isOpen sessionID w.clock)
          (fun s => { s with codeHash := codeHash, scope := scope }) w.sessions
        codes := codeHash :: w.codes } := by
  rcases updateCodeHashAndScope_cases sessionID codeHash scope
    w with ⟨e, herr⟩ | ⟨hopen, huniq, hok⟩
  · rw [herr] at h
    cases h
  · rw [hok] at h
    exact ⟨hopen, huniq, (Prod.mk.inj h).2.symm⟩

/-- `SessionStore.Delete`. -/
def delete (id : String) : Call Unit := fun w =>
  (.ok (), { w with sessions := w.sessions.filter (·.id != id) })

def deleteExpired : Call Unit := fun w =>
  (.ok (), { w with sessions := w.sessions.filter fun s => !(s.expiresAt < w.clock) })

end SessionStore

namespace TokenStore

/-- `TokenStore.CreateFamily`. -/
def createFamily (f : Family) : Call Unit := fun w =>
  if w.families.any fun f' =>
      f'.id == f.id || (f.authSessionID != "" && f'.authSessionID == f.authSessionID) then
    (.error (.fault "unique family"), w)
  else (.ok (), { w with families := w.families ++ [f] })

variable {f : Family}

theorem createFamily_ok (h : createFamily f w = (.ok (), w')) :
    (∀ f' ∈ w.families, f'.id ≠ f.id ∧
      (f.authSessionID ≠ "" → f'.authSessionID ≠ f.authSessionID)) ∧
      w' = { w with families := w.families ++ [f] } := by
  unfold createFamily at h
  split at h
  · cases h
  · rename_i hunique
    refine ⟨fun f' hf' => ?_, (Prod.mk.inj h).2.symm⟩
    simpa [not_or] using List.any_eq_false.mp (eq_false_of_ne_true hunique) f' hf'

/-- `TokenStore.GetFamily`. -/
def getFamily (id : String) (w : World) : Except Err Family :=
  lookup (·.id == id) (.sentinel .invalidGrant) w.families

/-- `TokenStore.GetFamilyByAuthSessionID`: an empty column is NULL. -/
def getFamilyByAuthSessionID (authSessionID : String) (w : World) : Except Err Family :=
  lookup (fun f => f.authSessionID == authSessionID && authSessionID != "")
    (.sentinel .invalidGrant) w.families

/-- The family rows after `UPDATE … SET status = 'revoked' … AND status = 'active'`. -/
def revokeRow (familyID : String) (now : Time) (fs : List Family) : List Family :=
  updateWhere (fun f => f.id == familyID && f.isActive)
    (fun f => { f with status := .revoked, revokedAt := some now }) fs

/-- The refresh-token rows after the family's unconsumed tokens were consumed. -/
def consumeRows (familyID : String) (now : Time) (ts : List RefreshToken) : List RefreshToken :=
  updateWhere (fun t => t.familyID == familyID && t.consumedAt.isNone)
    (fun t => { t with consumedAt := some now }) ts

variable (ctx : ReqID)

/-- `TokenStore.RevokeFamily`: one transaction over both tables; tells whether an active family was
revoked. -/
def revokeFamily (familyID : String) : Call Bool := fun w =>
  let w' := { w with families := revokeRow familyID w.clock w.families
                     refreshTokens := consumeRows familyID w.clock w.refreshTokens }
  (.ok (w.families.any fun f => f.id == familyID && f.isActive),
    if w.families.any (·.id == familyID) then w'.note ctx (.familyRevoked familyID) else w')

/-- `TokenStore.RevokeByClientID`: the refresh tokens of the families stay as they are. -/
def revokeByClientID (clientID : String) : Call Unit := fun w =>
  (.ok (), { w with
    families := updateWhere (fun f => f.clientID == clientID && f.isActive)
      (fun f => { f with status := .revoked, revokedAt := some w.clock }) w.families })

/-- The active families of the user. -/
def activeOfUser (userID : String) (w : World) : List Family :=
  w.families.filter fun f => f.userID == userID && f.isActive

/-- `TokenStore.RevokeByUserID`: tells how many families were revoked. -/
def revokeByUserID (userID : String) : Call ℕ := fun w =>
  (.ok (activeOfUser userID w).length, { w with
    families := updateWhere (fun f => f.userID == userID && f.isActive)
      (fun f => { f with status := .revoked, revokedAt := some w.clock }) w.families }.note ctx
    (.userRevoked userID ((activeOfUser userID w).map Family.id)))

/-- `TokenStore.ListFamilies` for the active families of a user: newest first, one page. -/
def listActiveFamiliesOfUser (userID : String) (limit : ℕ) (w : World) : List Family :=
  ((activeOfUser userID w).insertionSort fun f f' => f'.createdAt ≤ f.createdAt).take limit

/-- `TokenStore.ListFamilies` for the active families of a user and client: newest first, one page.
-/
def listActiveFamilies (userID clientID : String) (limit offset : ℕ) (w : World) : List Family :=
  (((w.families.filter fun f => f.clientID == clientID && f.userID == userID && f.isActive)
    |>.insertionSort fun f f' => f'.createdAt ≤ f.createdAt).drop offset).take limit

/-- `TokenStore.CreateRefreshToken`. -/
def createRefreshToken (t : RefreshToken) : Call Unit := fun w =>
  if w.refreshTokens.any fun t' => t'.id == t.id || t'.tokenHash == t.tokenHash then
    (.error (.fault "unique refresh token"), w)
  else
    (.ok (), { w with refreshTokens := w.refreshTokens ++ [t] }.note ctx
      (.refreshCreated t.tokenHash t.familyID))

theorem createRefreshToken_ok {ctx : ReqID} {t : RefreshToken}
    (h : createRefreshToken ctx t w = (.ok (), w')) :
    (∀ t' ∈ w.refreshTokens, t'.id ≠ t.id ∧ t'.tokenHash ≠ t.tokenHash) ∧
      w' = { w with refreshTokens := w.refreshTokens ++ [t] }.note ctx
        (.refreshCreated t.tokenHash t.familyID) := by
  unfold createRefreshToken at h
  split at h
  · cases h
  · rename_i hunique
    refine ⟨fun t' ht' => ?_, (Prod.mk.inj h).2.symm⟩
    simpa [not_or] using List.any_eq_false.mp (eq_false_of_ne_true hunique) t' ht'

/-- `TokenStore.GetRefreshTokenByHash`. -/
def getRefreshTokenByHash (hash : String) (w : World) : Except Err RefreshToken :=
  lookup (·.tokenHash == hash) (.sentinel .invalidGrant) w.refreshTokens

/-- The world after the row `t` of `id` is consumed. -/
def spend (ctx : ReqID) (id : String) (t : RefreshToken) (w : World) : World :=
  { w with
    refreshTokens := updateWhere (fun t' => t'.id == id && t'.consumedAt.isNone)
      (fun t' => { t' with consumedAt := some w.clock }) w.refreshTokens }.note ctx
    (.refreshConsumed t.tokenHash t.familyID)

/-- `TokenStore.ConsumeRefreshToken`: one conditional `UPDATE`. -/
def consumeRefreshToken (id : String) : Call RefreshToken := fun w =>
  match w.refreshTokens.find? (·.id == id) with
  | none => (.error (.sentinel .invalidGrant), w)
  | some t =>
    if t.consumedAt.isSome then (.error (.sentinel .refreshTokenReused), w)
    else
      (.ok { t with consumedAt := some w.clock }, spend ctx id t w)

theorem getFamily_ok (h : getFamily id w = .ok f) : f ∈ w.families ∧ f.id = id := by
  simpa using mem_of_lookup h

theorem getFamilyByAuthSessionID_ok (h : getFamilyByAuthSessionID id w = .ok f) :
    f ∈ w.families ∧ f.authSessionID = id ∧ id ≠ "" := by
  simpa using mem_of_lookup h

theorem getRefreshTokenByHash_ok {hash : String} {t : RefreshToken}
    (h : getRefreshTokenByHash hash w = .ok t) : t ∈ w.refreshTokens ∧ t.tokenHash = hash := by
  simpa using mem_of_lookup h

theorem consumeRefreshToken_cases (id : String) (w : World) :
    (∃ e, consumeRefreshToken ctx id w = (.error e, w)) ∨
      ∃ t ∈ w.refreshTokens, t.id = id ∧ t.consumedAt = none ∧
        consumeRefreshToken ctx id w =
          (.ok { t with consumedAt := some w.clock }, spend ctx id t w) := by
  unfold consumeRefreshToken
  split
  · exact .inl ⟨_, rfl⟩
  · rename_i t hfind
    split
    · exact .inl ⟨_, rfl⟩
    · rename_i hopen
      refine .inr ⟨t, List.mem_of_find?_eq_some hfind, by simpa using List.find?_some hfind, ?_,
        rfl⟩
      simpa using hopen

def purgeExpired : Call Unit := fun w =>
  (.ok (), { w with refreshTokens := w.refreshTokens.filter fun t => !(t.expiresAt < w.clock) })

end TokenStore

namespace RevocationStore

/-- `RevocationStore.TrackJTI`: `INSERT OR IGNORE`. -/
def trackJTI (jti familyID : String) (expiresAt : Time) : Call Unit := fun w =>
  if w.accessTokenJTIs.any (·.jti == jti) then (.ok (), w)
  else (.ok (), { w with accessTokenJTIs := w.accessTokenJTIs ++ [⟨jti, familyID, expiresAt⟩] })

theorem trackJTI_cases (jti familyID : String) (expiresAt : Time) (w : World) :
    ((∃ t ∈ w.accessTokenJTIs, t.jti = jti) ∧ trackJTI jti familyID expiresAt w = (.ok (), w)) ∨
      (∀ t ∈ w.accessTokenJTIs, t.jti ≠ jti) ∧ trackJTI jti familyID expiresAt w = (.ok (),
        { w with accessTokenJTIs := w.accessTokenJTIs ++ [⟨jti, familyID, expiresAt⟩] }) := by
  unfold trackJTI
  split
  · rename_i h
    exact .inl ⟨by simpa using h, rfl⟩
  · rename_i h
    exact .inr ⟨by simpa using h, rfl⟩

/-- The denylist after the tracked identifiers of a family joined it: `INSERT OR IGNORE`. -/
def denylistRows (familyID : String) (tracked : List TrackedJTI) (revoked : List RevokedJTI) :
    List RevokedJTI :=
  revoked ++ (tracked.filter fun t => t.familyID == familyID && !revoked.any (·.jti == t.jti)).map
    fun t => ⟨t.jti, t.expiresAt⟩

theorem mem_denylistRows {f : String} {tracked : List TrackedJTI} (revoked : List RevokedJTI)
    {t : TrackedJTI} (ht : t ∈ tracked) (hf : t.familyID = f) :
    ∃ r ∈ denylistRows f tracked revoked, r.jti = t.jti := by
  by_cases hany : revoked.any (·.jti == t.jti) = true
  · obtain ⟨r, hr, hjti⟩ := List.any_eq_true.mp hany
    exact ⟨r, List.mem_append_left _ hr, beq_iff_eq.mp hjti⟩
  · refine ⟨⟨t.jti, t.expiresAt⟩, List.mem_append_right _ (List.mem_map.mpr ⟨t, ?_, rfl⟩), rfl⟩
    exact List.mem_filter.mpr ⟨ht, by simp [hf, hany]⟩

/-- Denylist what is tracked for the family. -/
def revokeByFamily (ctx : ReqID) (familyID : String) : Call Unit := fun w =>
  (.ok (), { w with revokedJTIs := denylistRows familyID w.accessTokenJTIs w.revokedJTIs }.note ctx
    (.denylisted familyID))

/-- `RevocationStore.RevokeJTI`: an untracked identifier is kept for an hour. -/
def revokeJTI (jti : String) : Call Unit := fun w =>
  if w.revokedJTIs.any (·.jti == jti) then (.ok (), w)
  else
    let expiresAt := match w.accessTokenJTIs.find? (·.jti == jti) with
      | some t => t.expiresAt
      | none => w.clock + 3600 * 1000000000
    (.ok (), { w with revokedJTIs := w.revokedJTIs ++ [⟨jti, expiresAt⟩] })

/-- `RevocationStore.IsRevoked`. -/
def isRevoked (jti : String) (w : World) : Except Err Bool :=
  .ok (w.revokedJTIs.any (·.jti == jti))

def purgeExpired : Call Unit := fun w =>
  (.ok (), { w with
    accessTokenJTIs := w.accessTokenJTIs.filter fun t => !(t.expiresAt < w.clock)
    revokedJTIs := w.revokedJTIs.filter fun t => !(t.expiresAt < w.clock) })

end RevocationStore

namespace MachineTokenStore

def save (mt : MachineToken) : Call Unit := fun w =>
  if w.machineTokens.any (·.jti == mt.jti) then (.error (.fault "unique machine token"), w)
  else (.ok (), { w with machineTokens := w.machineTokens ++ [mt] })

/-- `MachineTokenStore.GetByJTI`: a miss is not an error. -/
def getByJTI (jti : String) (w : World) : Except Err (Option MachineToken) :=
  .ok (w.machineTokens.find? (·.jti == jti))

def revoke (jti : String) : Call Unit := fun w =>
  (.ok (), { w with
    machineTokens := updateWhere (·.jti == jti) (fun mt => { mt with revoked := true })
      w.machineTokens })

def purgeExpired : Call Unit := fun w =>
  (.ok (), { w with machineTokens := w.machineTokens.filter fun mt => !(mt.expiresAt < w.clock) })

end MachineTokenStore

namespace IssuanceStore

/-- `IssuanceStore.Insert`. -/
def insert (ctx : ReqID) (i : Issuance) : Call Unit := fun w =>
  if w.issuances.any fun i' => i'.id == i.id || (i.jti != "" && i'.jti == i.jti) then
    (.error (.fault "unique issuance"), w)
  else (.ok (), { w with issuances := w.issuances ++ [i] }.note ctx (.issued i.jti))

/-- Inserting a row: nothing happens, or no row had its identifiers and it is there now. -/
theorem insert_cases (ctx : ReqID) (i : Issuance) (w : World) :
    (∃ e, insert ctx i w = (.error e, w)) ∨
      (∀ i' ∈ w.issuances, i'.id ≠ i.id ∧ (i.jti ≠ "" → i'.jti ≠ i.jti)) ∧
        insert ctx i w =
          (.ok (), { w with issuances := w.issuances ++ [i] }.note ctx (.issued i.jti)) := by
  unfold insert
  split
  · exact .inl ⟨_, rfl⟩
  · rename_i hunique
    refine .inr ⟨fun i' hi' => ?_, rfl⟩
    simpa [not_or] using List.any_eq_false.mp (eq_false_of_ne_true hunique) i' hi'

/-- `IssuanceStore.GetByJTI`: a miss is not an error, and an empty identifier is NULL. -/
def getByJTI (jti : String) (w : World) : Except Err (Option Issuance) :=
  .ok (w.issuances.find? fun i => i.jti == jti && jti != "")

def revoke (id : String) : Call Unit := fun w =>
  (.ok (), { w with
    issuances := updateWhere (fun i => i.id == id && i.revokedAt.isNone)
      (fun i => { i with revokedAt := some w.clock }) w.issuances })

/-- A Mint row with an identifier, the only rows the cascade looks at. -/
def isMintRow (i : Issuance) : Bool :=
  i.backendKind == .mint && i.jti != ""

variable (userID clientID resourceID : String)

/-- A row minted under the grant of this user and client on this resource: the consenting client is
the one recorded, or the acting client where none is. -/
def isRoot (i : Issuance) : Bool :=
  isMintRow i && i.subjectUserID == userID && i.resourceID == resourceID &&
    (if i.consentClientID == "" then i.clientID == clientID else i.consentClientID == clientID)

/-- The identifiers of the rows minted under the grant. -/
def roots (rows : List Issuance) : List String :=
  (rows.filter (isRoot userID clientID resourceID)).map Issuance.jti

/-- The parent links of the log, as pairs of parent and child. -/
def parentLinks (rows : List Issuance) : List (String × String) :=
  (rows.filter fun i => isMintRow i && i.parentJTI != "").map fun i => (i.parentJTI, i.jti)

/-- The recursive part of the cascade: everything minted under the grant, at any depth. -/
def lineage (rows : List Issuance) : List String :=
  Lineage.closure (parentLinks rows) (roots userID clientID resourceID rows)

theorem mem_lineage {userID clientID resourceID jti : String} {rows : List Issuance} :
    jti ∈ lineage userID clientID resourceID rows ↔
      Lineage.Reach (parentLinks rows) (roots userID clientID resourceID rows) jti :=
  Lineage.mem_closure

/-- `IssuanceStore.RevokeFamily`: revoke the live Mint rows in the lineage and count them. -/
def revokeFamily (ctx : ReqID) (userID clientID resourceID : String) : Call ℕ := fun w =>
  let hit := fun i : Issuance => (lineage userID clientID resourceID w.issuances).contains i.jti &&
    i.backendKind == .mint && i.revokedAt.isNone
  (.ok (w.issuances.filter hit).length, { w with
    issuances := updateWhere hit (fun i => { i with revokedAt := some w.clock }) w.issuances }.note
    ctx (.cascaded userID clientID resourceID))

/-- A row past the retention window: an unrevoked one that expired before its start, or one that was
revoked before it. -/
def isPast (before : Time) (i : Issuance) : Bool :=
  match i.revokedAt with
  | none => i.expiresAt < before
  | some t => t < before

def purgeExpired (before : Time) : Call Unit := fun w =>
  (.ok (), { w with issuances := w.issuances.filter fun i => !isPast before i })

end IssuanceStore

namespace UserStore

/-- `UserStore.Delete`. The schema deletes the user's families and grants with the row, and with a
family its refresh tokens and the tracking of its access tokens. Machine-token rows and issuance
rows have no reference to users. -/
def delete (id : String) : Call Unit := fun w =>
  if w.users.any (·.id == id) then
    let gone := fun familyID => w.families.any fun f => f.id == familyID && f.userID == id
    (.ok (), { w with
      users := w.users.filter (·.id != id)
      families := w.families.filter (·.userID != id)
      refreshTokens := w.refreshTokens.filter fun t => !gone t.familyID
      accessTokenJTIs := w.accessTokenJTIs.filter fun t => !gone t.familyID
      consentGrants := w.consentGrants.filter (·.userID != id)
      brokerGrants := w.brokerGrants.filter (·.userID != id) })
  else (.error (.sentinel .userNotFound), w)

end UserStore

end AuthServer
