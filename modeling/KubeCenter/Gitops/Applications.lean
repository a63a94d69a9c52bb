import KubeCenter.Gitops.Types

/-! # Applications and who may see them

`argocd.go` and `flux.go` make `NormalizedApp`s; `handler.go` filters them by what the caller may
list; `ownershipView` of `ownership.go` makes the rest the candidates of an ownership search. -/
namespace KubeCenter.Gitops

open Lib.Go

/-! ## Objects of the cluster -/

/-- The name of a namespaced object. A namespace is a DNS label. -/
structure ObjectMeta where
  namespace_ : String
  name : String
  no_colon : ':' ∉ namespace_.toList
deriving DecidableEq

structure ManagedResource where
  group : String
  kind : String
  namespace_ : String
  name : String
  status : String
  health : String
deriving DecidableEq

structure ArgoObject where
  metadata : ObjectMeta
  repoURL : String
  path : String
  targetRevision : String
  destServer : String
  destName : String
  destNamespace : String
  health : String
  resources : List ManagedResource

/-- `remoteKubeConfig`: `spec.kubeConfig` is there and not null; `inventory`: the entry ids. -/
structure KustomizationObject where
  metadata : ObjectMeta
  sourceKind : String
  sourceName : String
  path : String
  targetNamespace : String
  remoteKubeConfig : Bool
  suspend : Bool
  inventory : List String

structure HelmReleaseObject where
  metadata : ObjectMeta
  chartName : String
  chartVersion : String
  sourceKind : String
  sourceName : String
  targetNamespace : String
  suspend : Bool

/-! ## The normalized form -/

structure NormalizedApp where
  id : String
  name : String
  namespace_ : String
  tool : Tool
  kind : String
  source : AppSource
  destinationCluster : String
  destinationName : String
  destinationNamespace : String
  remoteKubeConfig : Bool
  suspended : Bool
deriving DecidableEq

inductive ToolPrefix where
  | argo
  | fluxKs
  | fluxHr
deriving DecidableEq

def ToolPrefix.text : ToolPrefix → String
  | .argo => "argo"
  | .fluxKs => "flux-ks"
  | .fluxHr => "flux-hr"

/-- `tool:namespace:name`. -/
def compositeID (tool : ToolPrefix) (m : ObjectMeta) : String :=
  tool.text ++ ":" ++ m.namespace_ ++ ":" ++ m.name

def normalizeArgoApp (o : ArgoObject) : NormalizedApp where
  id := compositeID .argo o.metadata
  name := o.metadata.name
  namespace_ := o.metadata.namespace_
  tool := .argoCD
  kind := "Application"
  source := ⟨o.repoURL, o.path, o.targetRevision, "", ""⟩
  destinationCluster := o.destServer
  destinationName := o.destName
  destinationNamespace := o.destNamespace
  remoteKubeConfig := false
  suspended := o.health == "Suspended"

def normalizeFluxKustomization (o : KustomizationObject) : NormalizedApp where
  id := compositeID .fluxKs o.metadata
  name := o.metadata.name
  namespace_ := o.metadata.namespace_
  tool := .fluxCD
  kind := "Kustomization"
  source := ⟨o.sourceKind ++ "/" ++ o.sourceName, o.path, "", "", ""⟩
  destinationCluster := ""
  destinationName := ""
  destinationNamespace :=
    if o.targetNamespace = "" then o.metadata.namespace_ else o.targetNamespace
  remoteKubeConfig := o.remoteKubeConfig
  suspended := o.suspend

def normalizeFluxHelmRelease (o : HelmReleaseObject) : NormalizedApp where
  id := compositeID .fluxHr o.metadata
  name := o.metadata.name
  namespace_ := o.metadata.namespace_
  tool := .fluxCD
  kind := "HelmRelease"
  source := ⟨o.sourceKind ++ "/" ++ o.sourceName, "", "", o.chartName, o.chartVersion⟩
  destinationCluster := ""
  destinationName := ""
  destinationNamespace :=
    if o.targetNamespace = "" then o.metadata.namespace_ else o.targetNamespace
  remoteKubeConfig := false
  suspended := o.suspend

inductive AppObject where
  | application (o : ArgoObject)
  | kustomization (o : KustomizationObject)
  | helmRelease (o : HelmReleaseObject)

def AppObject.normalize : AppObject → NormalizedApp
  | .application o => normalizeArgoApp o
  | .kustomization o => normalizeFluxKustomization o
  | .helmRelease o => normalizeFluxHelmRelease o

def toolPrefixForApp (app : NormalizedApp) : ToolPrefix :=
  if app.tool = .argoCD then .argo
  else if app.kind = "HelmRelease" then .fluxHr
  else .fluxKs

/-- One entry id is `namespace_name_group_kind`. -/
def inventoryEntry (id : String) : Option ManagedResource :=
  match splitN '_' 4 id.toList with
  | [ns, name, group, kind] =>
    some ⟨.ofList group, .ofList kind, .ofList ns, .ofList name, "Synced", ""⟩
  | _ => none

def extractFluxInventory (o : KustomizationObject) : List ManagedResource :=
  (o.inventory.filter (· ≠ "")).filterMap inventoryEntry

/-! ## What the caller may list -/

inductive AccessAnswer where
  | allowed
  | denied
  | failed
deriving DecidableEq

/-- As the RBAC filter asks: admin or not, and the answer of the list check for a tool in a
namespace. -/
structure Caller where
  isAdmin : Bool
  canList : ToolPrefix → String → AccessAnswer

structure AppVisibility where
  apps : List NormalizedApp
  denied : ToolPrefix → Nat
  failed : ToolPrefix → Nat

/-- A cluster-scoped application is for admins only. -/
def Caller.decision (user : Caller) (app : NormalizedApp) : AccessAnswer :=
  if app.namespace_ = "" then if user.isAdmin then .allowed else .denied
  else user.canList (toolPrefixForApp app) app.namespace_

def AppVisibility.add (user : Caller) (v : AppVisibility) (app : NormalizedApp) : AppVisibility :=
  let tool := toolPrefixForApp app
  match user.decision app with
  | .allowed => { v with apps := v.apps ++ [app] }
  | .failed => { v with failed := Function.update v.failed tool (v.failed tool + 1) }
  | .denied => { v with denied := Function.update v.denied tool (v.denied tool + 1) }

def visibleApps (user : Caller) (apps : List NormalizedApp) : AppVisibility :=
  apps.foldl (AppVisibility.add user) ⟨[], fun _ => 0, fun _ => 0⟩

/-! ## One cluster as the caller sees it -/

/-- What one controller's search established for one object, short of a
confirmation. -/
structure ToolState where
  installed : Bool := false
  unavailable : Bool := false
  forbidden : Bool := false
  hidden : Bool := false
  exhausted : Bool := false
  offClusterClaim : Bool := false
  helmReleaseHinted : Bool := false
deriving DecidableEq

inductive ReadError where
  | forbidden
  | other
deriving DecidableEq

/-- With the error of each list that failed, by resource. -/
structure Snapshot where
  argoInstalled : Bool
  fluxInstalled : Bool
  objects : List AppObject
  failed : String → Option ReadError

/-- Loading fails with a snapshot when every list failed. -/
inductive LoadError where
  | allListsFailed (snap : Snapshot)
  | other (err : ReadError)

structure ClusterView where
  argo : ToolState
  flux : ToolState
  candidates : List NormalizedApp

def markReadFailure (st : ToolState) : Option ReadError → ToolState
  | none => st
  | some .forbidden => { st with forbidden := true }
  | some .other => { st with unavailable := true }

def unreadableView (err : ReadError) : ClusterView :=
  ⟨markReadFailure { installed := true } err, markReadFailure { installed := true } err, []⟩

/-- Folds the RBAC filter's answer for one tool into its state. -/
def applyVisibility (st : ToolState) (vis : AppVisibility) (tool : ToolPrefix) (visible : Nat) :
    ToolState :=
  let st := if 0 < vis.failed tool then { st with unavailable := true } else st
  if 0 < vis.denied tool then
    if visible = 0 then { st with forbidden := true } else { st with hidden := true }
  else st

/-- HelmReleases keep no inventory, so they are no candidates. -/
def isCandidate (app : NormalizedApp) : Bool := toolPrefixForApp app ≠ .fluxHr

def snapshotView (user : Caller) (snap : Snapshot) : ClusterView :=
  let argo := markReadFailure { installed := snap.argoInstalled } (snap.failed argoApplicationGVR.2)
  let flux := markReadFailure { installed := snap.fluxInstalled }
    (snap.failed fluxKustomizationGVR.2)
  let vis := visibleApps user (snap.objects.map AppObject.normalize)
  let candidates := vis.apps.filter isCandidate
  let visible (tool : ToolPrefix) := (candidates.filter (toolPrefixForApp · = tool)).length
  { argo := applyVisibility argo vis .argo (visible .argo)
    flux := applyVisibility flux vis .fluxKs (visible .fluxKs)
    candidates }

def ownershipView (user : Caller) : Except LoadError Snapshot → ClusterView
  | .ok snap | .error (.allListsFailed snap) => snapshotView user snap
  | .error (.other err) => unreadableView err

end KubeCenter.Gitops
