import KubeCenter.Gitops.Types

/-! # Hints on a live object

`hintsFor` of `ownership.go`. Anyone who can write the object can write its labels, annotations and
field managers, so they are echoed as hints, after cleaning, and otherwise only order a search. -/
namespace KubeCenter.Gitops

open Lib.Go

/-- A missing label or annotation reads as the empty text, an entry without a manager as `none`. -/
structure LiveObject where
  group : String
  kind : String
  namespace_ : String
  name : String
  labels : String → String
  annotations : String → String
  managedFields : List (Option String)

structure ObjectHints where
  evidence : List OwnershipEvidence := []
  argoApps : List String := []
  fluxKustomizations : List String := []
  helmRelease : Bool := false
deriving DecidableEq

def argoTrackingIDAnnotation : String := "argocd.argoproj.io/tracking-id"
def instanceLabel : String := "app.kubernetes.io/instance"
def managedByLabel : String := "app.kubernetes.io/managed-by"
def fluxKSNameLabel : String := "kustomize.toolkit.fluxcd.io/name"
def fluxKSNamespaceLabel : String := "kustomize.toolkit.fluxcd.io/namespace"
def fluxHRNameLabel : String := "helm.toolkit.fluxcd.io/name"
def fluxHRNamespaceLabel : String := "helm.toolkit.fluxcd.io/namespace"

def maxHintValueBytes : Nat := 256

/-! ## Cleaning -/

/-- `unicode.IsControl`: the category Cc. -/
def isControl (c : Char) : Bool := c.toNat < 0x20 || (0x7F ≤ c.toNat && c.toNat < 0xA0)

def formatRanges : List (Nat × Nat) :=
  [(0xAD, 0xAD), (0x600, 0x605), (0x61C, 0x61C), (0x6DD, 0x6DD), (0x70F, 0x70F),
    (0x890, 0x891), (0x8E2, 0x8E2), (0x180E, 0x180E), (0x200B, 0x200F), (0x202A, 0x202E),
    (0x2060, 0x2064), (0x2066, 0x206F), (0xFEFF, 0xFEFF), (0xFFF9, 0xFFFB), (0x110BD, 0x110BD),
    (0x110CD, 0x110CD), (0x13430, 0x1343F), (0x1BCA0, 0x1BCA3), (0x1D173, 0x1D17A),
    (0xE0001, 0xE0001), (0xE0020, 0xE007F)]

def isFormat (c : Char) : Bool := formatRanges.any fun r => r.1 ≤ c.toNat && c.toNat ≤ r.2

/-- No control or format characters, and whole characters up to the bound. -/
def sanitizeHint (v : String) : String :=
  .ofList (takeBytes maxHintValueBytes (v.toList.filter fun c => !(isControl c || isFormat c)))

/-! ## Names in hints -/

/-- As far as it yields ASCII: besides the capitals, the Kelvin sign and the dotted capital I. -/
def toLower (c : Char) : Char := if c = 'K' then 'k' else if c = 'İ' then 'i' else c.toLower

/-- The controller a managed-by value or a field manager names. -/
def toolNamedBy (v : String) : Option Tool :=
  let lower := v.toList.map toLower
  let starts (s : String) := s.toList.isPrefixOf lower
  if starts "argocd" || starts "argo-cd" then some .argoCD
  else if starts "flux" || lower = "kustomize-controller".toList ||
      lower = "helm-controller".toList then some .fluxCD
  else none

/-- The parts of `app:group/Kind:namespace/name`. -/
structure TrackingID where
  app : String
  group : String
  kind : String
  namespace_ : String
  name : String
deriving DecidableEq

def parseArgoTrackingID (v : String) : Option TrackingID :=
  match splitN ':' 3 v.toList with
  | [app, type, object] =>
    if app = [] then none
    else if !type.contains '/' || afterCut type '/' = [] then none
    else if !object.contains '/' || afterCut object '/' = [] then none
    else some
      { app := .ofList app
        group := .ofList (type.takeWhile (· != '/'))
        kind := .ofList (afterCut type '/')
        namespace_ := .ofList (object.takeWhile (· != '/'))
        name := .ofList (afterCut object '/') }
  | _ => none

/-- The distinct managers, in the order of their first entries. -/
def fieldManagers (entries : List (Option String)) : List String :=
  entries.foldl (fun out entry =>
    match entry with
    | none => out
    | some manager => if manager = "" || manager ∈ out then out else out ++ [manager]) []

/-! ## The hints -/

def hint (kind : OwnershipEvidenceKind) (tool : Tool) (raw note : String) : OwnershipEvidence :=
  ⟨kind, tool, "", sanitizeHint raw, note⟩

def ObjectHints.add (h : ObjectHints) (e : OwnershipEvidence) : ObjectHints :=
  { h with evidence := h.evidence ++ [e] }

section

variable (obj : LiveObject) (h : ObjectHints)

def trackingHints : ObjectHints :=
  let v := obj.annotations argoTrackingIDAnnotation
  if v = "" then h
  else
    match parseArgoTrackingID v with
    | none => h.add (hint .argoTrackingID .argoCD v "unparseable tracking id")
    | some id =>
      let other := id.group ≠ obj.group || id.kind ≠ obj.kind ||
        id.namespace_ ≠ obj.namespace_ || id.name ≠ obj.name
      { h with argoApps := h.argoApps ++ [id.app] }.add (hint .argoTrackingID .argoCD v
          (if other then "tracking id names a different object" else ""))

def instanceHints : ObjectHints :=
  let v := obj.labels instanceLabel
  if v = "" then h
  else
    { h with argoApps := h.argoApps ++ [v] }.add
      (hint .instanceLabel .argoCD v "argo cd label tracking; also set by helm and others")

def managedByHints : ObjectHints :=
  let v := obj.labels managedByLabel
  if v = "" then h
  else
    match toolNamedBy v with
    | none => h
    | some tool => h.add (hint .managedByLabel tool v "")

def kustomizationHints : ObjectHints :=
  let name := obj.labels fluxKSNameLabel
  let key := obj.labels fluxKSNamespaceLabel ++ "/" ++ name
  if name = "" then h
  else
    { h with fluxKustomizations := h.fluxKustomizations ++ [key] }.add
      (hint .fluxOwnerLabel .fluxCD key "kustomization")

def helmReleaseHints : ObjectHints :=
  let name := obj.labels fluxHRNameLabel
  if name = "" then h
  else
    { h with helmRelease := true }.add
      (hint .fluxOwnerLabel .fluxCD (obj.labels fluxHRNamespaceLabel ++ "/" ++ name) "helmrelease")

def managerHints : ObjectHints :=
  (fieldManagers obj.managedFields).foldl (fun h manager =>
    match toolNamedBy manager with
    | none => h
    | some tool => h.add (hint .fieldManager tool manager "")) h

end

def hintsFor (obj : LiveObject) : ObjectHints :=
  {} |> trackingHints obj |> instanceHints obj |> managedByHints obj |> kustomizationHints obj
    |> helmReleaseHints obj |> managerHints obj

/-! ## What is more than a hint -/

def OwnershipEvidenceKind.authoritative : OwnershipEvidenceKind → Bool
  | .argoStatusResource | .fluxInventoryEntry => true
  | _ => false

end KubeCenter.Gitops
