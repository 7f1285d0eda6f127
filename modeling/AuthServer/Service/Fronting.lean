import AuthServer.Service.Admin

/-!
# Fronting links

`FrontingService` of `internal/services/fronting.go`: creating, changing and deleting the links by
which one resource fronts another. Creating a link walks the graph of the stored links first, one
store call for each node, and inserts the link afterwards in a call of its own.

The walk goes on for as long as it finds new nodes. Here the number of nodes it visits is bounded by
an argument; a walk that reaches the bound fails.
-/

namespace AuthServer

open Interleave

variable (env : Env)

namespace FrontingService

def lookupResource (slug paramName : String) : Svc Resource := do
  let r ← (fetch (ResourceStore.getBySlug slug)).attempt
  Prog.ofExcept (r.mapError fun e =>
    if e.is .resourceNotFound then
      invalidRequest
        (paramName ++ " " ++ env.quote slug ++ " does not reference an existing resource")
    else e.wrap ("lookup resource " ++ env.quote slug))

/-- What `validate` asks of the two resources of a link. -/
def checkEnds (link : FrontingLink) (source target : Resource) : Except Err Unit := do
  if !source.isMint then
    throw (invalidRequest ("source resource " ++ env.quote source.slug ++
      " must have backend_kind=mint, got " ++ env.quote source.backendKind.name))
  assertScopeMapMembership env link.scopeMap source target
  if target.isBroker && target.brokerProviderID == "" then
    throw (invalidRequest ("target broker resource " ++ env.quote target.slug ++
      " has no broker_provider_id (provider must be configured before fronting)"))

/-- `FrontingService.validateForPatch`: the rules on the link and its two resources. -/
def validateForPatch (link : FrontingLink) : Svc Unit := do
  Prog.ofExcept link.validate
  let source ← lookupResource env link.sourceSlug "source_slug"
  let target ← lookupResource env link.targetSlug "target_slug"
  Prog.ofExcept (checkEnds env link source target)

/-- The loop of `assertNoCycle` over the links from one node: the nodes seen so far, and those still
to be visited, the next one first. -/
def follow (source : String) :
    List FrontingLink → List String → List String → Except Err (List String × List String)
  | [], visited, stack => .ok (visited, stack)
  | e :: rest, visited, stack =>
    if e.targetSlug == source then .error (.sentinel .frontingLinkCycle)
    else if visited.contains e.targetSlug then follow source rest visited stack
    else follow source rest (e.targetSlug :: visited) (e.targetSlug :: stack)

/-- The walk of `assertNoCycle`. -/
def walk (env : Env) (source : String) : ℕ → List String → List String → Svc Unit
  | _, _, [] => pure ()
  | 0, _, _ :: _ => Prog.fail (.fault "walk fronting graph")
  | nodes + 1, visited, node :: stack => do
    let out ← wrapErr ("walk fronting graph from " ++ env.quote node)
      (fetch fun w => .ok (FrontingLinkStore.listFrom node w))
    let found ← Prog.ofExcept (follow source out visited stack)
    walk env source nodes found.1 found.2

/-- `FrontingService.assertNoCycle`: can the target reach the source? -/
def assertNoCycle (nodes : ℕ) (sourceSlug targetSlug : String) : Svc Unit :=
  walk env sourceSlug nodes [targetSlug] [targetSlug]

variable (sourceSlug targetSlug : String)

/-- There is no link between the two yet. -/
def assertNoLink : Svc Unit := do
  let existing ← (fetch (FrontingLinkStore.get sourceSlug targetSlug)).attempt
  Prog.ofExcept (match existing with
    | .ok _ => .error (.sentinel .frontingLinkExists)
    | .error e =>
      if e.is .frontingLinkNotFound then .ok () else .error (e.wrap "check existing link"))

def validate (nodes : ℕ) (link : FrontingLink) : Svc Unit := do
  validateForPatch env link
  assertNoLink link.sourceSlug link.targetSlug
  assertNoCycle env nodes link.sourceSlug link.targetSlug

def create (nodes : ℕ) : Option FrontingLink → Svc Unit
  | none => Prog.fail (invalidRequest "link is required")
  | some link => do
    validate env nodes link
    store (FrontingLinkStore.create link)

/-- `FrontingService.Patch`: only the scope map can change. -/
def patch (scopeMap : Option ScopeMap) : Svc FrontingLink := do
  let existing ← fetch (FrontingLinkStore.get sourceSlug targetSlug)
  match scopeMap with
  | none => pure existing
  | some m => do
    let candidate := { existing with scopeMap := m }
    validateForPatch env candidate
    store (FrontingLinkStore.update candidate)
    pure candidate

def delete : Svc Unit :=
  store (FrontingLinkStore.delete sourceSlug targetSlug)

end FrontingService

end AuthServer
