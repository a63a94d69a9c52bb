import Mathlib.Data.List.Sort
import KubeCenter.Lib.Memo
import KubeCenter.Gitops.Applications
import KubeCenter.Gitops.Hints

/-! # Which controller manages an object

`ResolveOwnership` of `ownership.go`. For each object the candidates are walked in one order; a
detail is read as the caller, at most once and at most `maxDetailFetches` of them in a call. A read
cut short by the end of the request ends the call without an answer: each step returns an option. -/
namespace KubeCenter.Gitops

open Lib Go

def maxDetailFetches : Nat := 25

def identityBasisNameScoped : String := "group-kind-namespace-name"

def argoInClusterServer : String := "https://kubernetes.default.svc"
def argoInClusterName : String := "in-cluster"

def reasonConfirmedArgo : String := "confirmed-argo-status"
def reasonConfirmedFlux : String := "confirmed-flux-inventory"
def reasonBothClaim : String := "both-claim"
def reasonArgoForbidden : String := "argo-list-forbidden"
def reasonFluxForbidden : String := "flux-list-forbidden"
def reasonArgoUnavailable : String := "argo-unavailable"
def reasonFluxUnavailable : String := "flux-unavailable"
def reasonArgoOffCluster : String := "argo-destination-unverified"
def reasonFluxRemoteKubeConfig : String := "flux-remote-kubeconfig"
def reasonHelmRelease : String := "flux-helmrelease-no-inventory"
def reasonBoundExhausted : String := "search-bound-exhausted"
def reasonPartial : String := "partial-visibility"
def reasonHintsOnly : String := "hints-only"
def reasonNoController : String := "no-controller-installed"
def reasonNoEvidence : String := "no-evidence"

/-! ## Reads as the caller -/

/-- How a GET ends; `cancelled` when the request ended first. -/
inductive ReadOutcome (α : Type) where
  | found (obj : α)
  | notFound
  | forbidden
  | failed
  | cancelled

def ReadOutcome.map {α β : Type} (f : α → β) : ReadOutcome α → ReadOutcome β
  | .found obj => .found (f obj)
  | .notFound => .notFound
  | .forbidden => .forbidden
  | .failed => .failed
  | .cancelled => .cancelled

/-- What the caller's own client answers, by namespace and name. -/
structure Reads where
  argo : String → String → ReadOutcome ArgoObject
  kustomization : String → String → ReadOutcome KustomizationObject
  live : ObjectRef → ReadOutcome LiveObject

structure AppDetail where
  app : NormalizedApp
  resources : List ManagedResource

def getArgoAppDetail (reads : Reads) (namespace_ name : String) : ReadOutcome AppDetail :=
  (reads.argo namespace_ name).map fun o => ⟨normalizeArgoApp o, o.resources⟩

def getFluxAppDetail (reads : Reads) (namespace_ name : String) : ReadOutcome AppDetail :=
  (reads.kustomization namespace_ name).map fun o =>
    ⟨normalizeFluxKustomization o, extractFluxInventory o⟩

def Reads.candidate (reads : Reads) (app : NormalizedApp) : ReadOutcome AppDetail :=
  if app.tool = .argoCD then getArgoAppDetail reads app.namespace_ app.name
  else getFluxAppDetail reads app.namespace_ app.name

def trimSlash (s : String) : String :=
  if s.toList.getLast? = some '/' then .ofList s.toList.dropLast else s

def appliesInCluster (app : NormalizedApp) : Bool :=
  if app.tool = .argoCD then
    let server := trimSlash app.destinationCluster
    server = argoInClusterServer || (server = "" && app.destinationName = argoInClusterName)
  else !app.remoteKubeConfig

structure Detail where
  resources : List ManagedResource := []
  inCluster : Bool := false
  forbidden : Bool := false
  failed : Bool := false

def detailOf : ReadOutcome AppDetail → Option Detail
  | .found d => some { resources := d.resources, inCluster := appliesInCluster d.app }
  | .cancelled => none
  | .notFound => some {}
  | .forbidden => some { forbidden := true }
  | .failed => some { failed := true }

abbrev DetailMemo := Memo String Detail

/-- `ownershipRun.detail`. -/
def detail (reads : Reads) (memo : DetailMemo) (app : NormalizedApp) :
    Option (Option Detail × DetailMemo) :=
  memo.read maxDetailFetches NormalizedApp.id (fun app => detailOf (reads.candidate app)) app

/-! ## The walk -/

/-- The resource is exactly the object. A reference without a kind or a name
names nothing. -/
def matchesRef (mr : ManagedResource) (ref : ObjectRef) : Bool :=
  !(ref.kind = "" || ref.name = "") && mr.group = ref.group && mr.kind = ref.kind &&
    mr.namespace_ = ref.namespace_ && mr.name = ref.name

def namesRef (resources : List ManagedResource) (ref : ObjectRef) : Bool :=
  resources.any (matchesRef · ref)

/-- Hinted candidates, then those of the object's namespace, then the rest, last those of another
cluster. -/
def rank (ref : ObjectRef) (hints : ObjectHints) (a : NormalizedApp) : Nat :=
  if !appliesInCluster a then 3
  else if (a.tool = .argoCD && (a.name ∈ hints.argoApps ||
      a.namespace_ ++ "_" ++ a.name ∈ hints.argoApps)) ||
      (a.tool = .fluxCD && a.namespace_ ++ "/" ++ a.name ∈ hints.fluxKustomizations) then 0
  else if ref.namespace_ ≠ "" && (a.destinationNamespace = ref.namespace_ ||
      a.namespace_ = ref.namespace_) then 1
  else 2

def searchesBefore (ref : ObjectRef) (hints : ObjectHints) (a b : NormalizedApp) : Bool :=
  rank ref hints a < rank ref hints b || (rank ref hints a = rank ref hints b && !(b.id < a.id))

def orderCandidates (apps : List NormalizedApp) (ref : ObjectRef) (hints : ObjectHints) :
    List NormalizedApp :=
  apps.insertionSort fun a b => searchesBefore ref hints a b

/-- One controller's side of a walk. -/
structure Side where
  state : ToolState
  owner : Option NormalizedApp := none

structure Walk where
  memo : DetailMemo
  argo : Side
  flux : Side

def Walk.side (w : Walk) (tool : Tool) : Side := if tool = .argoCD then w.argo else w.flux

def Walk.setSide (w : Walk) (tool : Tool) (side : Side) : Walk :=
  if tool = .argoCD then { w with argo := side } else { w with flux := side }

def ToolState.note (st : ToolState) (d : Detail) : ToolState :=
  if d.forbidden then { st with forbidden := true }
  else if d.failed then { st with unavailable := true }
  else st

def Side.examine (side : Side) (ref : ObjectRef) (app : NormalizedApp) (d : Detail) : Side :=
  let st := side.state.note d
  if !namesRef d.resources ref then { side with state := st }
  else if !d.inCluster then { side with state := { st with offClusterClaim := true } }
  else { state := st, owner := some app }

def Walk.visit (reads : Reads) (ref : ObjectRef) (w : Walk) (app : NormalizedApp) : Option Walk :=
  let side := w.side app.tool
  if side.owner.isSome then some w
  else
    match detail reads w.memo app with
    | none => none
    | some (none, memo) =>
      some ({ w with memo }.setSide app.tool
        { side with state := { side.state with exhausted := true } })
    | some (some d, memo) => some ({ w with memo }.setSide app.tool (side.examine ref app d))

def search (reads : Reads) (view : ClusterView) (memo : DetailMemo) (ref : ObjectRef)
    (hints : ObjectHints) : Option Walk :=
  (orderCandidates view.candidates ref hints).foldlM (Walk.visit reads ref)
    { memo
      argo := { state := view.argo }
      flux := { state := { view.flux with helmReleaseHinted := hints.helmRelease } } }

def Walk.owners (w : Walk) : List NormalizedApp := [w.argo.owner, w.flux.owner].filterMap id

/-! ## The verdict -/

/-- Why nothing was confirmed, most limiting first. -/
def unconfirmedVerdict (hasHints : Bool) (argo flux : ToolState) : OwnershipConfidence × String :=
  if argo.forbidden then (.forbidden, reasonArgoForbidden)
  else if flux.forbidden then (.forbidden, reasonFluxForbidden)
  else if argo.unavailable then (.unavailable, reasonArgoUnavailable)
  else if flux.unavailable then (.unavailable, reasonFluxUnavailable)
  else if argo.offClusterClaim then (.unknown, reasonArgoOffCluster)
  else if flux.offClusterClaim then (.unknown, reasonFluxRemoteKubeConfig)
  else if flux.helmReleaseHinted then (.unknown, reasonHelmRelease)
  else if argo.exhausted || flux.exhausted then (.unknown, reasonBoundExhausted)
  else if argo.hidden || flux.hidden then (.unknown, reasonPartial)
  else if hasHints then (.unknown, reasonHintsOnly)
  else if !argo.installed && !flux.installed then (.unavailable, reasonNoController)
  else (.unknown, reasonNoEvidence)

def confirmedClaims (ev : List OwnershipEvidence) : List (String × Tool) :=
  (ev.filter fun e => e.kind.authoritative && e.appID ≠ "").map fun e => (e.appID, e.tool)

def confirmedApps (ev : List OwnershipEvidence) (apps : List OwnedByApp) : List OwnedByApp :=
  apps.filter fun a => (a.appID, a.tool) ∈ confirmedClaims ev &&
    (a.tool = .argoCD || a.tool = .fluxCD)

def verdict (ev : List OwnershipEvidence) (apps : List OwnedByApp) (argo flux : ToolState) :
    OwnershipController × OwnershipConfidence × String :=
  let kept := confirmedApps ev apps
  let argoConfirmed := kept.any (·.tool = .argoCD)
  let fluxConfirmed := kept.any (·.tool = .fluxCD)
  if argoConfirmed && fluxConfirmed then (.both, .conflicting, reasonBothClaim)
  else if argoConfirmed then (.argoCD, .confirmed, reasonConfirmedArgo)
  else if fluxConfirmed then (.fluxCD, .confirmed, reasonConfirmedFlux)
  else (.none, unconfirmedVerdict (ev.any fun e => !e.kind.authoritative) argo flux)

/-- `decide`, with the time of the call filled in. -/
def decideOwnership (ref : ObjectRef) (ev : List OwnershipEvidence) (apps : List OwnedByApp)
    (argo flux : ToolState) (observedAt : Time) : OwnershipResult :=
  let v := verdict ev apps argo flux
  { object := ref
    controller := v.1
    confidence := v.2.1
    reason := v.2.2
    apps := confirmedApps ev apps
    evidence := ev
    identityBasis := identityBasisNameScoped
    uidConfirmed := false
    writableGitSource := false
    observedAt }

/-! ## The call -/

/-- An object that is missing, unreadable or unaddressable has no hints. -/
def liveHints (reads : Reads) (ref : ObjectRef) : Option ObjectHints :=
  if ref.version = "" || ref.resource = "" || ref.name = "" then some {}
  else
    match reads.live ref with
    | .found obj => some (hintsFor obj)
    | .cancelled => none
    | _ => some {}

def ownerEvidence (owner : NormalizedApp) : OwnershipEvidence :=
  ⟨if owner.tool = .fluxCD then .fluxInventoryEntry else .argoStatusResource, owner.tool,
    owner.id, "", ""⟩

def ownedBy (owner : NormalizedApp) : OwnedByApp :=
  ⟨owner.id, owner.tool, owner.kind, owner.namespace_, owner.name, owner.source, owner.suspended⟩

structure OwnershipRun where
  out : List OwnershipResult
  memo : DetailMemo

def resolve (reads : Reads) (view : ClusterView) (clusterID : String) (observedAt : Time)
    (run : OwnershipRun) (ref : ObjectRef) : Option OwnershipRun := do
  let hints ← liveHints reads ref
  let w ← search reads view run.memo ref hints
  let res := decideOwnership ref (hints.evidence ++ w.owners.map ownerEvidence)
    (w.owners.map ownedBy) w.argo.state w.flux.state observedAt
  return ⟨run.out ++ [{ res with object := { ref with clusterID } }], w.memo⟩

def resolveAll (reads : Reads) (view : ClusterView) (clusterID : String) (observedAt : Time)
    (refs : List ObjectRef) : Option OwnershipRun :=
  refs.foldlM (resolve reads view clusterID observedAt) ⟨[], .empty⟩

/-- The answers, none of them if the request ended on the way. -/
def resolveOwnership (reads : Reads) (user : Caller) (load : Except LoadError Snapshot)
    (clusterID : String) (observedAt : Time) (ended : Bool) (refs : List ObjectRef) :
    Option (List OwnershipResult) :=
  if refs = [] then some []
  else do
    let run ← resolveAll reads (ownershipView user load) clusterID observedAt refs
    if ended then none else some run.out

end KubeCenter.Gitops
