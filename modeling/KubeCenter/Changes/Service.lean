import KubeCenter.Store.ChangeReceipts

/-! # The pieces of a tracked apply

Everything `TrackedApply` decides between two receipt writes. How the writes are ordered,
interleaved and lost is `KubeCenter.Changes.System`. -/
namespace KubeCenter.Changes
open Lib.Go Gitops Diagnostics Store

/-! ## Wire types -/

/-- A parsed manifest document: what the apply path reads of it. -/
structure Document where
  group : String
  version : String
  kind : String
  namespace_ : String
  name : String
deriving DecidableEq

structure User where
  id : String
  username : String
deriving DecidableEq

/-- Parsed documents are never nil pointers, so the list holds documents. -/
structure TrackedApplyRequest where
  operationID : Uuid
  repairOf : Option Uuid
  user : Option User
  clusterID : String
  clusterGen : String
  rawBody : List UInt8
  docs : List Document
  force : Bool
  ownership : Except JsonArrayError (List OwnershipResult)

structure ApplyObservation where
  index : Int
  group : String := ""
  version : String := ""
  resource : String := ""
  kind : String
  namespace_ : String
  name : String
  uid : String := ""
  action : Action
  error : String := ""
  errorClass : String := ""
deriving DecidableEq

/-- Why the observer refused an outcome. Its text reaches the log only. -/
inductive RecordingError where
  | outsideRange (index : Int) (docCount : Nat)
  | notIncreasing (index lastIndex : Int)
  | appendFailed (index : Int) (cause : ReceiptError)
deriving DecidableEq

structure TrackedApplyOutcome where
  attempted : List ApplyObservation
  stopped : Option RecordingError
deriving DecidableEq

structure TrackedObjectRef where
  index : Int
  group : String
  version : String
  resource : String
  uid : String
deriving DecidableEq

structure ApplyTracking where
  operationID : Uuid
  state : ReceiptState
  clusterID : String
  clusterGeneration : String
  contentDigest : String
  recordedThrough : Nat
  notAttempted : Nat
  unrecorded : Nat
  replayed : Bool
  containsSecret : Bool
  repairOf : Option Uuid
  objects : List TrackedObjectRef
  verification : VerificationState
  warnings : List String
deriving DecidableEq

structure TrackedApplyResult where
  results : List ApplyObservation
  tracking : ApplyTracking
deriving DecidableEq

inductive ConflictReason where
  | operationIDConflict
  | operationInFlight
  | operationIDReused
deriving DecidableEq

/-- Where `StoreUnavailableError` says the store failed. -/
inductive StoreStep where
  | insert
  | mark
  | read
  | verification
deriving DecidableEq

inductive ApplyError where
  | invalidRequest (text : String)
  | operationConflict (reason : ConflictReason) (message : String) (receiptID : Option Uuid)
  | storeUnavailable (step : StoreStep)
deriving DecidableEq

def errorClassConflict : String := "conflict"
def errorClassForbidden : String := "forbidden"
def errorClassInvalid : String := "invalid"
def errorClassNotFound : String := "not_found"
def errorClassIndeterminate : String := "indeterminate"
def errorClassOther : String := "other"

def notAppliedError : String := "not applied: change recording failed; re-preview and retry"
def notAttemptedError : String :=
  "not applied: the apply stopped before reaching this document; re-preview and retry"
def notRecordedError : String :=
  "outcome not recorded: the original apply was interrupted; re-preview and retry"

def maxStoredErrorLen : Nat := 1024

/-! ## Validation and the receipt row -/

def normalizedClusterID (clusterID : String) : String :=
  if clusterID = "" || clusterID = "local" then "local" else clusterID

/-- The text of `ErrInvalidRequest` wrapped around a detail. -/
def errInvalidRequest (detail : String) : ApplyError :=
  .invalidRequest ("invalid tracked apply request: " ++ detail)

/-- `validateRequest`, for the non-nil engine and documents the handler passes. -/
def validateRequest (req : TrackedApplyRequest) : Except ApplyError Unit :=
  if req.operationID = Uuid.nil then .error (errInvalidRequest "operation id is required")
  else if req.operationID.version ≠ 4 then
    .error (errInvalidRequest "operation id must be a UUIDv4")
  else if (req.user.map (·.id)).getD "" = "" then
    .error (errInvalidRequest "authenticated user is required")
  else if req.docs = [] then .error (errInvalidRequest "no documents to apply")
  else .ok ()

def isSecretKind (kind : String) : Bool := equalFold kind "Secret"

def bundleContainsSecret (docs : List Document) : Bool := docs.any fun d => isSecretKind d.kind

def newReceipt (req : TrackedApplyRequest) (digest : String) : NewReceipt where
  id := req.operationID
  ownerID := (req.user.map (·.id)).getD ""
  ownerUsername := (req.user.map (·.username)).getD ""
  clusterID := normalizedClusterID req.clusterID
  clusterGeneration := req.clusterGen
  contentDigest := digest
  documentCount := req.docs.length
  force := req.force
  containsSecret := bundleContainsSecret req.docs
  repairOf := req.repairOf
  ownership := req.ownership

/-! ## Recording outcomes -/

def sanitizedError (errorClass : String) : String :=
  (if errorClass = "" then errorClassOther else errorClass) ++
    ": error detail withheld for a Secret-bearing change"

/-- `len(s)` is the UTF-8 size; a longer text keeps its whole-character prefix. -/
def truncate (s : String) (max : Nat) : String :=
  if s.utf8ByteSize ≤ max then s else String.ofList (takeBytes max s.toList) ++ "..."

def receiptObjectFor (obs : ApplyObservation) (containsSecret : Bool) (now : Time) :
    ReceiptObject :=
  let failed := obs.action == .failed
  let errorClass := if obs.errorClass = "" then errorClassOther else obs.errorClass
  { index := obs.index
    group := obs.group
    version := obs.version
    resource := obs.resource
    kind := obs.kind
    namespace_ := obs.namespace_
    name := obs.name
    uid := obs.uid
    action := obs.action
    error :=
      if !failed || obs.error = "" then ""
      else if containsSecret || isSecretKind obs.kind then sanitizedError errorClass
      else truncate obs.error maxStoredErrorLen
    errorClass := if failed then errorClass else ""
    recordedAt := now }

def refFor (obs : ApplyObservation) : TrackedObjectRef :=
  ⟨obs.index, obs.group, obs.version, obs.resource, obs.uid⟩

structure Recorder where
  docCount : Nat
  recorded : Nat
  lastIndex : Int
  refs : List TrackedObjectRef
  err : Option RecordingError
deriving DecidableEq

def Recorder.start (docCount : Nat) : Recorder := ⟨docCount, 0, -1, [], none⟩

def Recorder.refusal (r : Recorder) (obs : ApplyObservation) : Option RecordingError :=
  match r.err with
  | some e => some e
  | none =>
    if obs.index < 0 || obs.index ≥ r.docCount then some (.outsideRange obs.index r.docCount)
    else if obs.index ≤ r.lastIndex then some (.notIncreasing obs.index r.lastIndex)
    else none

def Recorder.recordAnswer (r : Recorder) (obs : ApplyObservation)
    (answer : Except ReceiptError Unit) : Recorder :=
  match answer with
  | .ok () => { r with
      recorded := r.recorded + 1
      lastIndex := obs.index
      refs := r.refs ++ [refFor obs] }
  | .error e => { r with err := some (.appendFailed obs.index e) }

/-! ## The response of a live apply -/

def unreached (i : Nat) (d : Document) (error errorClass : String) : ApplyObservation where
  index := i
  kind := d.kind
  namespace_ := d.namespace_
  name := d.name
  action := .failed
  error := error
  errorClass := errorClass

def unattempted (docs : List Document) (attempted : List ApplyObservation) : List Nat :=
  (List.range docs.length).filter fun i => (attempted.find? fun o => o.index == (i : Int)).isNone

/-- `assembleResults`: the first outcome reported for an index stands. -/
def assembleResults (docs : List Document) (attempted : List ApplyObservation)
    (notReached : String) : List ApplyObservation × Nat :=
  (docs.mapIdx fun i d => (attempted.find? fun o => o.index == (i : Int)).getD
      (unreached i d notReached errorClassOther),
    (unattempted docs attempted).length)

def recordedMatches (recorded : List TrackedObjectRef) (attempted : List ApplyObservation) : Bool :=
  recorded.map (·.index) == attempted.map (·.index)

def Action.succeeded : Action → Bool
  | .created | .configured | .unchanged => true
  | .failed | .unrecognized _ => false

def stateFor (results : List ApplyObservation) : ReceiptState :=
  if results.all (fun r => Action.succeeded r.action) then .applied
  else if results.any (fun r => Action.succeeded r.action) then .partlyApplied
  else .failed

def recordingFailed (rec : Recorder) (out : TrackedApplyOutcome) : Bool :=
  rec.err.isSome || !recordedMatches rec.refs out.attempted

def liveResults (docs : List Document) (rec : Recorder) (out : TrackedApplyOutcome) :
    List ApplyObservation × Nat :=
  assembleResults docs out.attempted (if rec.err.isSome then notAppliedError else notAttemptedError)

def finalState (docs : List Document) (rec : Recorder) (out : TrackedApplyOutcome) : ReceiptState :=
  if recordingFailed rec out then .unknown else stateFor (liveResults docs rec out).1

def liveWarnings (rec : Recorder) (out : TrackedApplyOutcome)
    (answer : Except ReceiptError Unit) : List String :=
  (if recordingFailed rec out then
    ["change recording failed after " ++ toString rec.recorded ++
      " recorded object(s); outcomes after that are not in the receipt"] else []) ++
  (match answer with
    | .ok () => []
    | .error .receiptAlreadyFinal =>
      ["receipt was finalized by reconciliation while the apply was running"]
    | .error _ => ["receipt finalization failed"])

def liveResult (req : TrackedApplyRequest) (digest : String) (rec : Recorder)
    (out : TrackedApplyOutcome) (answer : Except ReceiptError Unit) : TrackedApplyResult where
  results := (liveResults req.docs rec out).1
  tracking := {
    operationID := req.operationID
    state := match answer with
      | .ok () => finalState req.docs rec out
      | .error _ => .unknown
    clusterID := normalizedClusterID req.clusterID
    clusterGeneration := req.clusterGen
    contentDigest := digest
    recordedThrough := rec.recorded
    notAttempted := (liveResults req.docs rec out).2
    unrecorded := 0
    replayed := false
    containsSecret := bundleContainsSecret req.docs
    repairOf := req.repairOf
    objects := rec.refs
    verification := .pending
    warnings := liveWarnings rec out answer }

/-! ## An id that is already in use -/

def observationOf (o : ReceiptObject) : ApplyObservation where
  index := o.index
  group := o.group
  version := o.version
  resource := o.resource
  kind := o.kind
  namespace_ := o.namespace_
  name := o.name
  uid := o.uid
  action := o.action
  error := o.error
  errorClass := o.errorClass

/-- The stored outcome a replay shows for document `i`: the last one wins. -/
def recordedOutcome (r : ChangeReceipt) (i : Nat) : Option ReceiptObject :=
  (r.objects.filter fun o => o.index == (i : Int)).getLast?

def holes (r : ChangeReceipt) (req : TrackedApplyRequest) : List Nat :=
  (List.range req.docs.length).filter fun i => (recordedOutcome r i).isNone

/-- An interrupted receipt counts its holes as unrecorded instead. -/
def replayUnattempted (r : ChangeReceipt) (req : TrackedApplyRequest) : List Nat :=
  if r.state == .unknown then [] else holes r req

def generationChanged (recorded current : String) : Bool :=
  recorded != "" && current != "" && recorded != current

/-- `replay`: renders a terminal receipt without applying anything. -/
def replay (r : ChangeReceipt) (req : TrackedApplyRequest) : TrackedApplyResult :=
  let interrupted := r.state == .unknown
  let inRange := r.objects.filter fun o =>
    decide (0 ≤ o.index) && decide (o.index < (req.docs.length : Int))
  { results := req.docs.mapIdx fun i d => ((recordedOutcome r i).map observationOf).getD
      (if interrupted then unreached i d notRecordedError errorClassIndeterminate
        else unreached i d notAttemptedError errorClassOther)
    tracking := {
      operationID := r.id
      state := r.state
      clusterID := r.clusterID
      clusterGeneration := r.clusterGeneration
      contentDigest := r.contentDigest
      recordedThrough := inRange.length
      notAttempted := if interrupted then 0 else (holes r req).length
      unrecorded := if interrupted then (holes r req).length else 0
      replayed := true
      containsSecret := r.containsSecret
      repairOf := r.repairOf
      objects := inRange.map fun o => ⟨o.index, o.group, o.version, o.resource, o.uid⟩
      verification := r.verificationState
      warnings :=
        (if interrupted && (holes r req).length != 0 then
          ["the original apply was interrupted; " ++ toString (holes r req).length ++
            " document outcome(s) were not recorded and the cluster may hold them"] else []) ++
        (if generationChanged r.clusterGeneration req.clusterGen then
          ["target cluster registration changed since this operation ran; " ++
            "the receipt describes the previous registration"] else []) } }

/-- Owner first, then content and cluster, then in flight, then replay. -/
def resolveExisting (existing : Except ReceiptError (Option ChangeReceipt))
    (req : TrackedApplyRequest) (digest : String) : Except ApplyError TrackedApplyResult :=
  match existing with
  | .error _ => .error (.storeUnavailable .read)
  | .ok none => .error (.storeUnavailable .read)
  | .ok (some r) =>
    if r.ownerID ≠ (req.user.map (·.id)).getD "" then
      .error (.operationConflict .operationIDConflict "operation id is already in use" none)
    else if r.contentDigest ≠ digest || r.clusterID ≠ normalizedClusterID req.clusterID then
      .error (.operationConflict .operationIDReused
        "generate a new operation id for new content" none)
    else if !r.state.isTerminal then
      .error (.operationConflict .operationInFlight
        "this operation is still in progress; poll the receipt instead of resubmitting"
        (some r.id))
    else .ok (replay r req)

theorem replay_notAttempted (r : ChangeReceipt) (req : TrackedApplyRequest) :
    (replay r req).tracking.notAttempted = (replayUnattempted r req).length := by
  unfold replay replayUnattempted
  simp only
  split <;> rfl

/-! ## The apply engine

`TrackedApply` is given its engine as a function. Here it is a machine that
asks for one thing at a time, so that other calls can run in between. -/

/-- What reaches the cluster, or is settled about it. -/
inductive ClusterEvent where
  | patch (index : Nat)
  | settled (obs : ApplyObservation)
deriving DecidableEq

/-- Go on (perhaps touching the cluster), report one outcome and wait for the observer's answer, or
return. -/
inductive EngineCall (σ : Type) where
  | go (events : List ClusterEvent) (s : σ)
  | observe (obs : ApplyObservation) (k : Option RecordingError → σ)
  | ret (out : TrackedApplyOutcome)

/-- `ApplyFunc`. A `Choice` is the answer of whatever the engine waits for. -/
structure Engine where
  State : Type
  Choice : Type
  init : TrackedApplyRequest → State
  next : State → Choice → Option (EngineCall State)

/-- `status` is there when the error carries an `APIStatus`. -/
structure ApiStatus where
  code : Nat
  reason : String
  message : String
deriving DecidableEq

/-- What the predicates of `apierrors` answer is part of the error: any answers are possible. -/
structure ApiError where
  status : Option ApiStatus
  text : String
  isNotFound : Bool
  isConflict : Bool
  isForbidden : Bool
  isInvalid : Bool
deriving DecidableEq

/-- `ClassifyAPIError` of a non-nil error: an allowlist of definite rejections. -/
def classifyAPIError (err : ApiError) : String :=
  match err.status with
  | none => errorClassIndeterminate
  | some st =>
    if st.code = 409 then errorClassConflict
    else if st.code = 401 || st.code = 403 then errorClassForbidden
    else if st.code = 400 || st.code = 422 then errorClassInvalid
    else if st.code = 404 then errorClassNotFound
    else if st.code = 405 || st.code = 415 || st.code = 429 then errorClassOther
    else errorClassIndeterminate

end KubeCenter.Changes
