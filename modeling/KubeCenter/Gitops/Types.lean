import KubeCenter.Lib.Go

/-! GitOps ownership answers, as a change receipt stores them. -/
namespace KubeCenter.Gitops
open Lib.Go

inductive Tool where
  | argoCD
  | fluxCD
  | unrecognized (text : String)
deriving DecidableEq

inductive OwnershipController where
  | none
  | argoCD
  | fluxCD
  | both
  | unrecognized (text : String)
deriving DecidableEq

inductive OwnershipConfidence where
  | confirmed
  | conflicting
  | unknown
  | forbidden
  | unavailable
  | unrecognized (text : String)
deriving DecidableEq

inductive OwnershipEvidenceKind where
  | argoStatusResource
  | fluxInventoryEntry
  | argoTrackingID
  | instanceLabel
  | managedByLabel
  | fieldManager
  | fluxOwnerLabel
  | unrecognized (text : String)
deriving DecidableEq

structure OwnershipEvidence where
  kind : OwnershipEvidenceKind
  tool : Tool
  appID : String
  rawValue : String
  note : String
deriving DecidableEq

structure ObjectRef where
  clusterID : String
  group : String
  version : String
  resource : String
  kind : String
  namespace_ : String
  name : String
  uid : String
deriving DecidableEq

structure AppSource where
  repoURL : String
  path : String
  targetRevision : String
  chartName : String
  chartVersion : String
deriving DecidableEq

structure OwnedByApp where
  appID : String
  tool : Tool
  kind : String
  namespace_ : String
  name : String
  source : AppSource
  suspended : Bool
deriving DecidableEq

structure OwnershipResult where
  object : ObjectRef
  controller : OwnershipController
  confidence : OwnershipConfidence
  reason : String
  apps : List OwnedByApp
  evidence : List OwnershipEvidence
  identityBasis : String
  uidConfirmed : Bool
  writableGitSource : Bool
  observedAt : Time
deriving DecidableEq

def argoApplicationGVR : String × String := ("argoproj.io", "applications")
def fluxKustomizationGVR : String × String := ("kustomize.toolkit.fluxcd.io", "kustomizations")
def fluxHelmReleaseGVR : String × String := ("helm.toolkit.fluxcd.io", "helmreleases")

end KubeCenter.Gitops
