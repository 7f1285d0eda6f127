import AuthServer.Store.TimeText
import AuthServer.Store.World
import AuthServer.Table.Grows

/-!
# Stores for identity providers, policies, mappings and used assertions
-/

namespace AuthServer

open Table

namespace IDPStore

def getByIssuer (issuer : String) (w : World) : Except Err TrustedIDP :=
  lookup (·.issuer == issuer) (.sentinel .idpNotFound) w.trustedIDPs

end IDPStore

namespace XAAPolicyStore

/-- `XAAPolicyStore.ListByIDP`: the policies of the provider, newest first. -/
def listByIDP (idpID : String) (w : World) : List XAAPolicy :=
  (w.xaaPolicies.filter (·.idpID == idpID)).insertionSort fun p p' => p'.createdAt ≤ p.createdAt

end XAAPolicyStore

namespace SubjectMappingStore

def getMapping (idpID idpSubject : String) (w : World) : Except Err SubjectMapping :=
  lookup (fun m => m.idpID == idpID && m.idpSubject == idpSubject)
    (.sentinel .subjectMappingNotFound) w.subjectMappings

end SubjectMappingStore

namespace AssertionJTIStore

/-- `AssertionJTIStore.ConsumeJTI`: refuse an identifier that was used before. -/
def consumeJTI (jti : String) (expiry : Time) : Call Unit := fun w =>
  if w.assertionJTIs.any (·.1 == jti) then (.error (.sentinel .assertionReplay), w)
  else (.ok (), { w with assertionJTIs := w.assertionJTIs ++ [(jti, expiry)] })

/-- Delete the identifiers that expired before a time. Both times are compared as text. -/
def purgeBefore (now : Time) : Call Unit := fun w =>
  (.ok (), { w with
    assertionJTIs := w.assertionJTIs.filter fun j =>
      !(Store.formatTime j.2 < Store.formatTime now) })

def purgeExpired : Call Unit := fun w => purgeBefore w.clock w

end AssertionJTIStore

end AuthServer
