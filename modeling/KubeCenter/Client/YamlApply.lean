import KubeCenter.Changes.Refusals

/-! # The editor's tracked apply

`useYamlApply.handleApply` with `pending-apply.ts`: which operation id a press sends, and what an
answer does to it. Instants are milliseconds; an id is the UUID its text spells. -/
namespace KubeCenter.Client
open Lib.Go Changes

/-! ## The pending attempt -/

structure PendingAttempt where
  id : Uuid
  requestKey : String
  at_ : Int
deriving DecidableEq

def pendingAttemptTtlMs : Int := 10 * 60 * 1000

/-- What `sessionStorage` holds under one key. -/
inductive Entry where
  | malformed
  | attempt (id : Uuid) (at_ : Int) (digest : String)
deriving DecidableEq

abbrev Storage := String → Option Entry

section Storage

variable (sha256Hex : String → String)

/-- `works`: the storage can be used. An entry that is expired, malformed or of another request
goes. -/
def readStoredAttempt (st : Storage) (works : Bool) (requestKey : String) (now : Int) :
    Option PendingAttempt × Storage :=
  let digest := sha256Hex requestKey
  if !works then (none, st)
  else match st digest with
  | none => (none, st)
  | some (.attempt id at_ stored) =>
    if stored = digest ∧ 0 ≤ now - at_ ∧ now - at_ < pendingAttemptTtlMs then
      (some ⟨id, requestKey, at_⟩, st)
    else (none, Function.update st digest none)
  | some .malformed => (none, Function.update st digest none)

def writeStoredAttempt (st : Storage) (works : Bool) (a : PendingAttempt) : Storage :=
  let digest := sha256Hex a.requestKey
  if works then Function.update st digest (some (.attempt a.id a.at_ digest)) else st

def clearStoredAttempt (st : Storage) (works : Bool) (requestKey : String) : Storage :=
  if works then Function.update st (sha256Hex requestKey) none else st

end Storage

/-! ## Failures -/

/-- An `ApiError`, or anything else (no response, a body that does not parse). -/
inductive Failure where
  | noResponse
  | api (status : Nat) (reason : String) (applied retrySameOperationId : Option Bool)
deriving DecidableEq

inductive RefusalReason where
  | operationIdConflict
  | operationInFlight
  | operationIdReused
  | receiptStoreUnavailable
deriving DecidableEq

/-- `trackedApplyRefusal`, without the texts it shows. -/
def trackedApplyRefusal : Failure → Option RefusalReason
  | .noResponse => none
  | .api status reason _ _ =>
    if status = 503 ∧ reason = "receipt_store_unavailable" then some .receiptStoreUnavailable
    else if status ≠ 409 then none
    else if reason = "operation_id_conflict" then some .operationIdConflict
    else if reason = "operation_in_flight" then some .operationInFlight
    else if reason = "operation_id_reused" then some .operationIdReused
    else none

def isIndeterminateApplyFailure : Failure → Bool
  | .noResponse => true
  | .api status reason _ _ =>
    decide (status ≥ 500) || (status == 409 && reason == "operation_in_flight")

/-- The server's flag when it is there, otherwise whether this send minted its own id. -/
def releaseStoreFailure (err : Failure) (reusedId : Bool) : Bool :=
  match trackedApplyRefusal err, err with
  | some .receiptStoreUnavailable, .api _ _ _ (some retrySame) => !retrySame
  | some .receiptStoreUnavailable, _ => !reusedId
  | _, _ => false

def releases (err : Failure) (reusedId : Bool) : Bool :=
  !isIndeterminateApplyFailure err || releaseStoreFailure err reusedId

/-! ## What the server answers -/

/-- `writeRecordingUnavailable`: whether the client should keep the id. -/
def retrySameOperationId : StoreStep → Bool
  | .insert | .read => true
  | .mark | .verification => false

/-- The response `applyTracked` writes: `none` is a 2xx with the result. -/
def trackedReply : Except ApplyError TrackedApplyResult → Option Failure
  | .ok _ => none
  | .error (.invalidRequest _) => some (.api 400 "" none none)
  | .error (.operationConflict .operationIDConflict _ _) =>
    some (.api 409 "operation_id_conflict" none none)
  | .error (.operationConflict .operationInFlight _ _) =>
    some (.api 409 "operation_in_flight" none none)
  | .error (.operationConflict .operationIDReused _ _) =>
    some (.api 409 "operation_id_reused" none none)
  | .error (.storeUnavailable step) =>
    some (.api 503 "receipt_store_unavailable" (some false) (some (retrySameOperationId step)))

theorem releases_trackedReply {e} {err : Failure} (h : trackedReply (.error e) = some err)
    (reusedId : Bool) : releases err reusedId = e.settles := by
  match e with
  | .invalidRequest _ => cases h; rfl
  | .operationConflict .operationIDConflict _ _ => cases h; rfl
  | .operationConflict .operationInFlight _ _ => cases h; rfl
  | .operationConflict .operationIDReused _ _ => cases h; rfl
  | .storeUnavailable .insert => cases h; rfl
  | .storeUnavailable .mark => cases h; rfl
  | .storeUnavailable .read => cases h; rfl
  | .storeUnavailable .verification => cases h; rfl

end KubeCenter.Client
