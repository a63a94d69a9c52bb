import KubeCenter.Changes.Service

/-! # What a receipt read shows

`changes/redaction.go`: objects the caller may not get now are reduced to a stub, checks on them to
their identity-free fields, ownership answers to the applications the caller may still get. A Go
map is a function here, a `""` that means "no reason" is `none`. -/
namespace KubeCenter.Changes
open Lib.Go Gitops Store Diagnostics

/-! ## Views -/

inductive Redaction where
  | forbidden
  | secretFiltered
deriving DecidableEq

def Redaction.text : Redaction → String
  | .forbidden => "forbidden"
  | .secretFiltered => "secret-filtered"

/-- A field that is dropped is at its default. -/
structure ReceiptObjectView where
  index : Int
  redacted : Bool := false
  reason : Option Redaction := none
  group : String := ""
  version : String := ""
  resource : String := ""
  kind : String := ""
  namespace_ : String := ""
  name : String := ""
  uid : String := ""
  action : Option Action := none
  error : String := ""
  errorClass : String := ""
deriving DecidableEq

structure CheckView where
  checkID : String
  status : CheckStatus
  severity : Severity
  reason : String
  redacted : Bool := false
  redactionReason : Option Redaction := none
  message : String := ""
  detail : String := ""
  remediation : String := ""
  source : Option SourceRef := none
  evidence : List (String × String) := []
  observedAt : Time
deriving DecidableEq

structure OwnershipView extends OwnershipResult where
  redactedApps : Nat
deriving DecidableEq

def ownershipReasonAppsRedacted : String := "apps-redacted"
def ownershipReasonConfirmedArgo : String := "confirmed-argo-status"
def ownershipReasonConfirmedFlux : String := "confirmed-flux-inventory"
def ownershipReasonBothClaim : String := "both-claim"

/-! ## Objects -/

/-- Whether the caller may currently `get` a group and resource in a
namespace. -/
abbrev ObjectAccess := String → String → String → Bool

def denyAll : ObjectAccess := fun _ _ _ => false

/-- Why an object must be hidden. A missing access function denies everything. -/
def objectRedaction (kind group resource ns : String) (allowed : Option ObjectAccess) :
    Option Redaction :=
  let allowed := allowed.getD denyAll
  if isSecretKind kind && !allowed "" "secrets" ns then some .secretFiltered
  else if resource = "" || !allowed group resource ns then some .forbidden
  else none

def isErrorClass (s : String) : Bool :=
  [errorClassConflict, errorClassForbidden, errorClassInvalid, errorClassNotFound,
    errorClassIndeterminate, errorClassOther].contains s

/-- The stored class, or the one the error text starts with, if the service defines it. -/
def errorClassOf (stored errText : String) : String :=
  if isErrorClass stored then stored
  else
    let (errorClass, ok) := cut errText ':'
    if ok && isErrorClass errorClass then errorClass else ""

def ReceiptObject.redaction (allowed : Option ObjectAccess) (o : ReceiptObject) :
    Option Redaction :=
  objectRedaction o.kind o.group o.resource o.namespace_ allowed

/-- The error text is never shown for a Secret or from a receipt that holds one; its class is. -/
def redactObject (containsSecret : Bool) (allowed : Option ObjectAccess) (o : ReceiptObject) :
    ReceiptObjectView :=
  match ReceiptObject.redaction allowed o with
  | some reason => { index := o.index, redacted := true, reason := some reason }
  | none =>
    let secret := containsSecret || isSecretKind o.kind
    let failed := o.error ≠ "" ∨ o.errorClass ≠ ""
    let errorClass := errorClassOf o.errorClass o.error
    { index := o.index
      group := o.group
      version := o.version
      resource := o.resource
      kind := o.kind
      namespace_ := o.namespace_
      name := o.name
      uid := o.uid
      action := some o.action
      error := if failed ∧ ¬ secret then o.error else ""
      errorClass :=
        if failed then if secret ∧ errorClass = "" then errorClassOther else errorClass
        else "" }

def redactObjects (objs : List ReceiptObject) (containsSecret : Bool)
    (allowed : Option ObjectAccess) : List ReceiptObjectView × Nat :=
  (objs.map (redactObject containsSecret allowed),
    objs.countP fun o => (ReceiptObject.redaction allowed o).isSome)

/-! ## Checks -/

def CheckResult.redaction (allowed : Option ObjectAccess) (c : CheckResult) : Option Redaction :=
  objectRedaction c.source.kind c.source.group c.source.resource c.source.namespace_ allowed

def redactCheck (allowed : Option ObjectAccess) (c : CheckResult) : CheckView :=
  let v : CheckView :=
    { checkID := c.checkID, status := c.status, severity := c.severity, reason := c.reason
      observedAt := c.observedAt }
  match CheckResult.redaction allowed c with
  | some reason => { v with redacted := true, redactionReason := some reason }
  | none =>
    { v with
      message := c.message, detail := c.detail, remediation := c.remediation
      source := some c.source, evidence := c.evidence }

def redactChecks (checks : List CheckResult) (allowed : Option ObjectAccess) :
    List CheckView × Nat :=
  (checks.map (redactCheck allowed),
    checks.countP fun c => (CheckResult.redaction allowed c).isSome)

/-! ## Ownership -/

structure ObjectKey where
  group : String
  kind : String
  namespace_ : String
  name : String
deriving DecidableEq

def ReceiptObject.key (o : ReceiptObject) : ObjectKey := ⟨o.group, o.kind, o.namespace_, o.name⟩

def ObjectRef.key (o : ObjectRef) : ObjectKey := ⟨o.group, o.kind, o.namespace_, o.name⟩

/-- One round of the loop that fills `shown`: a hidden object takes its key
down for good. -/
def markShown (shown : ObjectKey → Option Bool) (k : ObjectKey) (v : ReceiptObjectView) :
    ObjectKey → Option Bool :=
  if v.redacted then Function.update shown k (some false)
  else if shown k = none then Function.update shown k (some true)
  else shown

def shownKeys (objs : List ReceiptObject) (views : List ReceiptObjectView) :
    ObjectKey → Option Bool :=
  if views.length = objs.length then
    ((objs.map ReceiptObject.key).zip views).foldl (fun shown kv => markShown shown kv.1 kv.2)
      fun _ => none
  else fun _ => none

/-- The group and resource an application of a kind is checked by. -/
def appResource (kind : String) : Option (String × String) :=
  if kind = "Application" then some argoApplicationGVR
  else if kind = "Kustomization" then some fluxKustomizationGVR
  else if kind = "HelmRelease" then some fluxHelmReleaseGVR
  else none

def appVisible (allowed : Option ObjectAccess) (app : OwnedByApp) : Bool :=
  match appResource app.kind with
  | none => false
  | some (group, resource) => allowed.getD denyAll group resource app.namespace_

/-- The verdict the tools of the remaining applications support. -/
def verdictFor (argo flux : Bool) : OwnershipController × OwnershipConfidence × String :=
  match argo, flux with
  | true, true => (.both, .conflicting, ownershipReasonBothClaim)
  | true, false => (.argoCD, .confirmed, ownershipReasonConfirmedArgo)
  | false, true => (.fluxCD, .confirmed, ownershipReasonConfirmedFlux)
  | false, false => (.none, .forbidden, ownershipReasonAppsRedacted)

section

variable (allowed : Option ObjectAccess) (res : OwnershipResult)

def visibleApps : List OwnedByApp := res.apps.filter (appVisible allowed)

def hiddenApps : Nat := res.apps.countP fun app => !appVisible allowed app

def keptEvidence : List OwnershipEvidence :=
  res.evidence.filter fun ev =>
    ev.appID == "" || (visibleApps allowed res).any fun app => app.appID == ev.appID

def redactOwnershipEntry : OwnershipView :=
  let apps := visibleApps allowed res
  let verdict :=
    if 0 < hiddenApps allowed res then
      verdictFor (apps.any fun app => app.tool == .argoCD) (apps.any fun app => app.tool == .fluxCD)
    else (res.controller, res.confidence, res.reason)
  { res with
    apps := apps
    evidence := keptEvidence allowed res
    controller := verdict.1
    confidence := verdict.2.1
    reason := verdict.2.2
    redactedApps := hiddenApps allowed res }

end

def entryShown (shown : ObjectKey → Option Bool) (res : OwnershipResult) : Bool :=
  (shown (ObjectRef.key res.object)).getD false

def redactOwnership (stored : List OwnershipResult) (objs : List ReceiptObject)
    (views : List ReceiptObjectView) (allowed : Option ObjectAccess) :
    List OwnershipView × Nat :=
  let shown := shownKeys objs views
  (stored.flatMap fun res =>
      if entryShown shown res then [redactOwnershipEntry allowed res] else [],
    stored.countP fun res => !entryShown shown res)

/-! ## The read -/

structure ReceiptViews where
  objects : List ReceiptObjectView × Nat
  checks : List CheckView × Nat
  ownership : List OwnershipView × Nat
deriving DecidableEq

def receiptViews (rec : ChangeReceipt) (allowed : Option ObjectAccess) : ReceiptViews :=
  let objects := redactObjects rec.objects rec.containsSecret allowed
  { objects := objects
    checks := redactChecks rec.verification allowed
    ownership := redactOwnership rec.ownership rec.objects objects.1 allowed }

end KubeCenter.Changes
