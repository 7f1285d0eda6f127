import AuthServer.Table.Grows
import AuthServer.Store.World

/-!
# Stores for identities, resources and grants

The single-call store methods on clients, users, resources, fronting links, broker providers and
grants, consent grants and DPoP state. A read is a function of the world; a write is a `Call`. Rows
are found by `find?`, which is exact where the schema makes the column unique.
-/

namespace AuthServer

open Table

namespace ClientStore

def getByID (id : String) (w : World) : Except Err Client :=
  lookup (·.id == id) (.sentinel .invalidClient) w.clients

theorem mem_of_getByID {id : String} {w : World} {c : Client} (h : getByID id w = .ok c) :
    c ∈ w.clients ∧ c.id = id := by
  simpa using mem_of_lookup h

/-- `ClientStore.GetByCIMDURL`: a miss is not an error. -/
def getByCIMDURL (url : String) (w : World) : Except Err (Option Client) :=
  .ok (w.clients.find? fun c => c.cimdURL == url && c.cimdURL != "")

/-- `ClientStore.Create`: the id is unique. -/
def create (c : Client) : Call Unit := fun w =>
  if w.clients.any (·.id == c.id) then (.error (.fault ("client " ++ c.id ++ " already exists")), w)
  else
    (.ok (), { w with
      clients := w.clients ++ [{ c with version := if c.version == 0 then 1 else c.version }] })

theorem create_cases (c : Client) (w : World) :
    (∃ e, create c w = (.error e, w)) ∨
      (∀ c' ∈ w.clients, c'.id ≠ c.id) ∧
        ∃ v, create c w = (.ok (), { w with
          clients := w.clients ++ [{ c with version := v }] }) := by
  unfold create
  split
  · exact .inl ⟨_, rfl⟩
  · rename_i hnew
    refine .inr ⟨fun c' hc' heq => hnew (List.any_eq_true.mpr ⟨c', hc', ?_⟩), _, rfl⟩
    rw [heq]
    exact beq_self_eq_true _

/-- Is this the row that was read, unchanged since? -/
def isRead (c row : Client) : Bool := row.id == c.id && row.version == c.version

/-- `ClientStore.Update`: the row with this id is rewritten if it is still of the version that was
read. -/
def update (c : Client) : Call Unit := fun w =>
  if w.clients.any (isRead c) then
    (.ok (), { w with
      clients := updateWhere (isRead c) (fun row => { c with
        version := row.version + 1 }) w.clients })
  else (.error (.sentinel .clientConflict), w)

theorem update_cases (c : Client) (w : World) :
    (∃ e, update c w = (.error e, w)) ∨
      ∃ row ∈ w.clients, isRead c row = true ∧
        update c w = (.ok (), { w with
          clients := updateWhere (isRead c) (fun row => { c with
            version := row.version + 1 }) w.clients }) := by
  unfold update
  split
  · rename_i hfound
    obtain ⟨row, hrow, hread⟩ := List.any_eq_true.mp hfound
    exact .inr ⟨row, hrow, hread, rfl⟩
  · exact .inl ⟨_, rfl⟩

end ClientStore

namespace UserStore

def getByID (id : String) (w : World) : Except Err User :=
  lookup (·.id == id) (.sentinel .userNotFound) w.users

end UserStore

namespace ResourceStore

def getByID (id : String) (w : World) : Except Err Resource :=
  lookup (·.id == id) (.sentinel .resourceNotFound) w.resources

def getBySlug (slug : String) (w : World) : Except Err Resource :=
  lookup (·.slug == slug) (.sentinel .resourceNotFound) w.resources

/-- `ResourceStore.Resolve`: at most two rows whose slug or URI is the argument; an empty argument
matches nothing. -/
def resolve (slugOrURI : String) (w : World) : List Resource :=
  if slugOrURI == "" then []
  else (w.resources.filter fun r => r.slug == slugOrURI || r.uri == slugOrURI).take 2

/-- `ResourceStore.List` with no filter: every row, by slug. -/
def list (w : World) : List Resource :=
  w.resources.insertionSort fun r r' => r.slug ≤ r'.slug

def findByRuntimeClientID (clientID : String) (w : World) : Except Err Resource :=
  if clientID == "" then .error (.sentinel .resourceNotFound)
  else
    match (w.resources.filter fun r => r.policy.runtimeClientIDs.contains clientID).take 2 with
    | [] => .error (.sentinel .resourceNotFound)
    | [r] => .ok r
    | _ => .error (.sentinel .ambiguousResource)

/-- `ResourceStore.Update`: rewrite the row with this id. -/
def update (r : Resource) : Call Unit := fun w =>
  if w.resources.any (·.id == r.id) then
    if w.resources.any fun r' => r'.slug == r.slug && r'.id != r.id then
      (.error (.fault "unique slug"), w)
    else
      (.ok (), { w with resources := updateWhere (·.id == r.id) (fun _ => r) w.resources })
  else (.error (.sentinel .resourceNotFound), w)

/-- `ResourceStore.Create`: id and slug are unique. -/
def create (r : Resource) : Call Unit := fun w =>
  if w.resources.any fun r' => r'.id == r.id || r'.slug == r.slug then
    (.error (.fault "create resource: unique"), w)
  else (.ok (), { w with resources := w.resources ++ [r] })

/-- A row of another table refers to the resource. -/
def referenced (r : Resource) (w : World) : Bool :=
  w.consentGrants.any (·.resourceID == r.id) || w.issuances.any (·.resourceID == r.id) ||
    w.frontingLinks.any fun l => l.sourceSlug == r.slug || l.targetSlug == r.slug

/-- `ResourceStore.Delete`: a row that others refer to cannot be deleted. -/
def delete (id : String) : Call Unit := fun w =>
  if w.resources.any (·.id == id) then
    if w.resources.any fun r => r.id == id && referenced r w then
      (.error (.sentinel .resourceHasReferences), w)
    else (.ok (), { w with resources := w.resources.filter (·.id != id) })
  else (.error (.sentinel .resourceNotFound), w)

end ResourceStore

theorem eq_singleton_of_take_two {α : Type} {l : List α} {a : α}
    (h : l.take 2 = [a]) : l = [a] := by
  cases l with
  | nil => simp at h
  | cons b rest =>
    cases rest with
    | nil => simpa using h
    | cons b' rest' => simp at h

namespace ResourceRegistry

/-- `ResourceRegistry.Resolve`: no row is not found, two rows are ambiguous. -/
def resolve (slugOrURI : String) (w : World) : Except Err Resource :=
  match ResourceStore.resolve slugOrURI w with
  | [] => .error (.sentinel .resourceNotFound)
  | [r] => .ok r
  | _ => .error (.sentinel .ambiguousResource)

theorem filter_of_resolve_ok {s : String} {w : World} {r : Resource} (h : resolve s w = .ok r) :
    s ≠ "" ∧ (w.resources.filter fun r => r.slug == s || r.uri == s) = [r] := by
  unfold resolve ResourceStore.resolve at h
  by_cases hs : s = ""
  · simp [hs] at h
  · simp only [beq_iff_eq, hs, if_false] at h
    split at h
    · cases h
    · rename_i r' hmatch
      obtain rfl : r' = r := Except.ok.inj h
      exact ⟨hs, eq_singleton_of_take_two hmatch⟩
    · cases h

theorem mem_of_resolve_ok {s : String} {w : World} {r : Resource} (h : resolve s w = .ok r) :
    r ∈ w.resources ∧ (r.slug = s ∨ r.uri = s) ∧ s ≠ "" := by
  obtain ⟨hs, hone⟩ := filter_of_resolve_ok h
  have hmem := hone ▸ List.mem_singleton_self r
  simpa [hs] using hmem

end ResourceRegistry

namespace BrokerProviderStore

def getByID (id : String) (w : World) : Except Err BrokerProvider :=
  lookup (·.id == id) (.sentinel .resourceNotFound) w.brokerProviders

theorem id_of_getByID {id : String} {w : World} {p : BrokerProvider}
    (h : getByID id w = .ok p) : p.id = id := by
  simpa using (mem_of_lookup h).2

def getBySlug (slug : String) (w : World) : Except Err BrokerProvider :=
  lookup (·.slug == slug) (.sentinel .resourceNotFound) w.brokerProviders

end BrokerProviderStore

namespace BrokerGrantStore

/-- `BrokerGrantStore.Get`: the live grant of the user at the provider, if any. -/
def get (userID providerID : String) (w : World) : Except Err (Option BrokerGrant) :=
  .ok (w.brokerGrants.find? fun g =>
    g.userID == userID && g.brokerProviderID == providerID && g.revokedAt.isNone)

/-- `BrokerGrantStore.UpdateWithVersion`: optimistic locking on the version. -/
def updateWithVersion (g : BrokerGrant) : Call Unit := fun w =>
  if w.brokerGrants.any fun g' => g'.id == g.id && g'.version == g.version then
    (.ok (), { w with
      brokerGrants := updateWhere (fun g' => g'.id == g.id && g'.version == g.version)
        (fun g' => { g' with credentialData := g.credentialData, scopesGranted := g.scopesGranted,
                             version := g'.version + 1 }) w.brokerGrants })
  else (.error (.sentinel .brokerGrantConflict), w)

/-- `BrokerGrantStore.GetByID`: the grant, live or revoked. -/
def getByID (id : String) (w : World) : Except Err (Option BrokerGrant) :=
  .ok (w.brokerGrants.find? (·.id == id))

def revoke (id : String) : Call Unit := fun w =>
  (.ok (), { w with
    brokerGrants := updateWhere (·.id == id) (fun g => { g with
      revokedAt := some w.clock }) w.brokerGrants })

/-- `BrokerGrantStore.Upsert`: the row of the user at the provider is rewritten, whether it is live
or not, and inserted if there is none. -/
def upsert (g : BrokerGrant) : Call BrokerGrant := fun w =>
  let same (g' : BrokerGrant) : Bool := g'.userID == g.userID && g'.brokerProviderID ==
    g.brokerProviderID
  let rewrite (g' : BrokerGrant) : BrokerGrant :=
    { g' with
      credentialData := g.credentialData
      scopesGranted := g.scopesGranted
      version := g'.version + 1
      revokedAt := none }
  match w.brokerGrants.find? same with
  | some old =>
    (.ok (rewrite old), { w with brokerGrants := updateWhere same rewrite w.brokerGrants })
  | none =>
    if w.brokerGrants.any (·.id == g.id) then (.error (.fault "upsert broker grant"), w)
    else
      let new := { g with version := 1, revokedAt := none }
      (.ok new, { w with brokerGrants := w.brokerGrants ++ [new] })

end BrokerGrantStore

namespace FrontingLinkStore

variable (sourceSlug targetSlug : String)

def get (w : World) : Except Err FrontingLink :=
  lookup (fun l => l.sourceSlug == sourceSlug && l.targetSlug == targetSlug)
    (.sentinel .frontingLinkNotFound) w.frontingLinks

def listedBefore (l l' : FrontingLink) : Prop :=
  l.sourceSlug < l'.sourceSlug ∨ (l.sourceSlug = l'.sourceSlug ∧ l.targetSlug ≤ l'.targetSlug)

instance : DecidableRel listedBefore := fun _ _ =>
  inferInstanceAs (Decidable (_ ∨ (_ ∧ _)))

/-- `FrontingLinkStore.List` with a filter on the source; an empty one filters nothing. -/
def listFrom (source : String) (w : World) : List FrontingLink :=
  (w.frontingLinks.filter fun l => source == "" || l.sourceSlug ==
    source).insertionSort listedBefore

/-- The row is the link between these two. -/
def joins (l : FrontingLink) : Bool :=
  l.sourceSlug == sourceSlug && l.targetSlug == targetSlug

/-- `FrontingLinkStore.Create`: a second link between the same two is refused, and so is one that
names a slug no resource has. -/
def create (link : FrontingLink) : Call Unit := fun w =>
  if w.frontingLinks.any (joins link.sourceSlug link.targetSlug) then
    (.error (.sentinel .frontingLinkExists), w)
  else if w.resources.any (·.slug == link.sourceSlug) &&
    w.resources.any (·.slug == link.targetSlug) then
    (.ok (), { w with frontingLinks := w.frontingLinks ++ [link] })
  else (.error (.wrapped .invalidRequest
    "source_slug or target_slug does not reference an existing resource"), w)

/-- `FrontingLinkStore.Update`: replace the scope map. -/
def update (link : FrontingLink) : Call Unit := fun w =>
  if w.frontingLinks.any (joins link.sourceSlug link.targetSlug) then
    (.ok (), { w with
      frontingLinks := updateWhere (joins link.sourceSlug link.targetSlug)
        (fun l => { l with scopeMap := link.scopeMap }) w.frontingLinks })
  else (.error (.sentinel .frontingLinkNotFound), w)

def delete : Call Unit := fun w =>
  if w.frontingLinks.any (joins sourceSlug targetSlug) then
    (.ok (), { w with
      frontingLinks := w.frontingLinks.filter fun l => !joins sourceSlug targetSlug l })
  else (.error (.sentinel .frontingLinkNotFound), w)

/-- `FrontingLinkStore.DeleteForResource`: returns how many links were removed. -/
def deleteForResource (slug : String) : Call ℕ := fun w =>
  (.ok (w.frontingLinks.countP fun l => l.sourceSlug == slug || l.targetSlug == slug),
    { w with frontingLinks :=
        w.frontingLinks.filter fun l => !(l.sourceSlug == slug || l.targetSlug == slug) })

/-- `FrontingLinkStore.ListForResource`: the links that name the slug on either side. -/
def listForResource (slug : String) (w : World) : List FrontingLink :=
  w.frontingLinks.filter fun l => l.sourceSlug == slug || l.targetSlug == slug

end FrontingLinkStore

namespace ConsentGrantStore

def isFor (userID clientID resourceID : String) (g : ConsentGrant) : Bool :=
  g.userID == userID && g.clientID == clientID && g.resourceID == resourceID

/-- `ConsentGrantStore.Get`: the grant, unless it is missing or revoked. -/
def get (userID clientID resourceID : String) (w : World) : Except Err (Option ConsentGrant) :=
  .ok (w.consentGrants.find? fun g => isFor userID clientID resourceID g && g.revokedAt.isNone)

/-- `ConsentGrantStore.GetByID`: revoked rows included. -/
def getByID (id : String) (w : World) : Except Err (Option ConsentGrant) :=
  .ok (w.consentGrants.find? (·.id == id))

/-- `ConsentGrantStore.Upsert`: a new row, or new scopes on the row of the same triple, which is
thereby live again. -/
def upsert (g : ConsentGrant) : Call Unit := fun w =>
  if w.consentGrants.any (isFor g.userID g.clientID g.resourceID) then
    (.ok (), { w with
      consentGrants := updateWhere (isFor g.userID g.clientID g.resourceID)
        (fun g' => { g' with scopes := g.scopes, revokedAt := none }) w.consentGrants })
  else if w.consentGrants.any (·.id == g.id) then (.error (.fault "unique id"), w)
  else (.ok (), { w with consentGrants := w.consentGrants ++ [g] })

theorem upsert_ok {g : ConsentGrant} {w w' : World} (h : upsert g w = (.ok (), w')) :
    w' = { w with
        consentGrants := updateWhere (isFor g.userID g.clientID g.resourceID)
          (fun g' => { g' with scopes := g.scopes, revokedAt := none }) w.consentGrants } ∨
      (∀ g' ∈ w.consentGrants, isFor g.userID g.clientID g.resourceID g' = false ∧ g'.id ≠ g.id) ∧
        w' = { w with consentGrants := w.consentGrants ++ [g] } := by
  unfold upsert at h
  split at h
  · exact .inl (Prod.mk.inj h).2.symm
  · rename_i hnew
    split at h
    · cases h
    · rename_i hid
      refine .inr ⟨fun g' hg' => ⟨?_, ?_⟩, (Prod.mk.inj h).2.symm⟩
      · simpa using List.any_eq_false.mp (Bool.eq_false_iff.mpr hnew) g' hg'
      · simpa using List.any_eq_false.mp (Bool.eq_false_iff.mpr hid) g' hg'

def revoke (id : String) : Call Unit := fun w =>
  (.ok (), { w with
    consentGrants := updateWhere (·.id == id) (fun g => { g with revokedAt := some w.clock })
      w.consentGrants })

end ConsentGrantStore

namespace DPoPNonceStore

/-- `DPoPNonceStore.ValidateNonce`: the nonce is known and has not expired. -/
def validateNonce (nonce : String) (w : World) : Except Err Unit :=
  match w.dpopNonces.find? (·.1 == nonce) with
  | some n => if w.clock > n.2 then .error (.sentinel .dpopNonceMismatch) else .ok ()
  | none => .error (.sentinel .dpopNonceMismatch)

/-- `DPoPNonceStore.ConsumeJTI`: refuse an identifier that was seen before. -/
def consumeJTI (jti : String) (expiry : Time) : Call Unit := fun w =>
  if w.dpopJTIs.any (·.1 == jti) then (.error (.sentinel .dpopReplay), w)
  else (.ok (), { w with dpopJTIs := w.dpopJTIs ++ [(jti, expiry)] })

/-- Delete the identifiers that expired before a time. -/
def purgeJTIs (now : Time) : Call Unit := fun w =>
  (.ok (), { w with dpopJTIs := w.dpopJTIs.filter fun j => !(j.2 < now) })

def purgeNonces (now : Time) : Call Unit := fun w =>
  (.ok (), { w with dpopNonces := w.dpopNonces.filter fun n => !(n.2 < now) })

def purgeExpired : Svc Unit := do
  let now ← timeNow
  wrapErr "purge expired dpop jtis" (store (purgeJTIs now))
  wrapErr "purge expired dpop nonces" (store (purgeNonces now))

end DPoPNonceStore

end AuthServer
