import Mathlib.Data.Prod.Lex
import KubeCenter.Lib.Program
import KubeCenter.Store.BackupAssurance

/-! # Assurance exceptions and their delivery intents

The exception accessors of `backup_assurance.go` and the two composite transitions of
`backup_assurance_delivery.go`. A store method is a program whose calls are a transaction that
writes or a statement that reads. Any call may be rolled back, and the answer to a committed one
lost. The calls that insert enforce the unique indexes. -/
namespace KubeCenter.Store

open Lib Go

/-! ## Rows -/

inductive AssuranceState where
  | stateOpen
  | stateResolved
deriving DecidableEq

inductive AssuranceTransition where
  | opened
  | resolved
deriving DecidableEq

def AssuranceTransition.text : AssuranceTransition → String
  | .opened => "opened"
  | .resolved => "resolved"

inductive AssuranceDeliveryState where
  | pending
  | delivered
  | failed
deriving DecidableEq

/-- Nothing, an object with the fields the evaluator wrote and the reason of a resolution, or
something that is no object. -/
inductive AssuranceDetail (δ : Type) where
  | absent
  | object (fields : Option δ) (resolutionReason : Option String)
  | other
deriving DecidableEq

def AssuranceDetail.orEmpty {δ : Type} : AssuranceDetail δ → AssuranceDetail δ
  | .absent => .object none none
  | d => d

def AssuranceDetail.resolve {δ : Type} (reason : String) : AssuranceDetail δ → AssuranceDetail δ
  | .object fields _ => .object fields (some reason)
  | _ => .object none (some reason)

/-- The columns of the partial unique index on open exceptions. -/
structure AssuranceIdentity where
  clusterID : String
  subjectKind : AssuranceScopeKind
  subjectNamespace : String
  subjectName : String
  subjectUID : String
  condition : AssuranceCondition
deriving DecidableEq

structure BackupAssuranceException (δ : Type) where
  id : Uuid
  clusterID : String
  policyID : Uuid
  subjectKind : AssuranceScopeKind
  subjectNamespace : String
  subjectName : String
  subjectUID : String
  condition : AssuranceCondition
  state : AssuranceState := .stateOpen
  severity : AssuranceSeverity
  openedAt : Time
  lastObservedAt : Time := zeroTime
  resolvedAt : Option Time := none
  observationCount : ℕ := 0
  lastSuccessAt : Option Time
  detail : AssuranceDetail δ
deriving DecidableEq

def BackupAssuranceException.identity {δ : Type} (e : BackupAssuranceException δ) :
    AssuranceIdentity :=
  ⟨e.clusterID, e.subjectKind, e.subjectNamespace, e.subjectName, e.subjectUID, e.condition⟩

/-- An intent, without when it was delivered and its last error. -/
structure AssuranceDelivery where
  id : Uuid
  exceptionID : Uuid
  transition : AssuranceTransition
  state : AssuranceDeliveryState := .pending
  attempts : ℕ := 0
  createdAt : Time
deriving DecidableEq

/-- The tables, and the intents handed to the notifier, each time by its id. -/
structure AssuranceTables (δ : Type) where
  policies : List BackupAssurancePolicy
  exceptions : List (BackupAssuranceException δ) := []
  deliveries : List AssuranceDelivery := []
  sends : List Uuid := []
deriving DecidableEq

/-! ## Statements

`newSHA1` is `uuid.NewSHA1`. -/

section Statements

variable {δ : Type} (newSHA1 : Uuid → String → Uuid)

def deliveryIDFor (exceptionID : Uuid) (transition : AssuranceTransition) : Uuid :=
  newSHA1 exceptionID transition.text

/-- The intent of one transition; nothing where a key is taken. -/
def enqueueDelivery (now : Time) (exceptionID : Uuid) (transition : AssuranceTransition)
    (t : AssuranceTables δ) : Option (AssuranceTables δ) :=
  let id := deliveryIDFor newSHA1 exceptionID transition
  if t.deliveries.any fun d =>
      d.id = id || (d.exceptionID = exceptionID && d.transition = transition) then none
  else
    some { t with
      deliveries := t.deliveries ++ [{ id, exceptionID, transition, createdAt := now }] }

def policyInCluster (t : AssuranceTables δ) (id : Uuid) (clusterID : String) : Bool :=
  t.policies.any fun p => p.id = id && p.clusterID = clusterID

def findOpenException (t : AssuranceTables δ) (key : AssuranceIdentity) :
    Option (BackupAssuranceException δ) :=
  t.exceptions.find? fun e => e.identity = key && e.state = .stateOpen

def exceptionIDTaken (t : AssuranceTables δ) (id : Uuid) : Bool := t.exceptions.any (·.id = id)

def BackupAssuranceException.asOpened (e : BackupAssuranceException δ) :
    BackupAssuranceException δ :=
  { e with
    state := .stateOpen, lastObservedAt := e.openedAt, resolvedAt := none
    observationCount := 1 }

/-- `INSERT ... SELECT ... FROM backup_assurance_policies ... ON CONFLICT DO NOTHING` and the
intent. -/
def insertOpenException (now : Time) (e : BackupAssuranceException δ) (t : AssuranceTables δ) :
    Option (Option (BackupAssuranceException δ) × AssuranceTables δ) :=
  if !policyInCluster t e.policyID e.clusterID || exceptionIDTaken t e.id ||
      (findOpenException t e.identity).isSome then some (none, t)
  else
    (enqueueDelivery newSHA1 now e.id .opened
      { t with exceptions := t.exceptions ++ [e.asOpened] }).map fun t => (some e.asOpened, t)

/-- One repeat of an open exception: the columns of `ObserveException`. -/
structure AssuranceObservation (δ : Type) where
  observedAt : Time
  severity : AssuranceSeverity
  lastSuccessAt : Option Time
  detail : AssuranceDetail δ
deriving DecidableEq

def BackupAssuranceException.observed (e : BackupAssuranceException δ)
    (o : AssuranceObservation δ) : BackupAssuranceException δ :=
  { e with
    lastObservedAt := o.observedAt, observationCount := e.observationCount + 1
    severity := o.severity, lastSuccessAt := o.lastSuccessAt <|> e.lastSuccessAt
    detail := o.detail }

def observable (id : Uuid) (o : AssuranceObservation δ) (e : BackupAssuranceException δ) : Bool :=
  e.id = id && e.state = .stateOpen && e.lastObservedAt ≤ o.observedAt

def updateObserved (id : Uuid) (o : AssuranceObservation δ) (t : AssuranceTables δ) :
    Bool × AssuranceTables δ :=
  (t.exceptions.any (observable id o), { t with
      exceptions := t.exceptions.map fun e => if observable id o e then e.observed o else e })

def stateOfException (t : AssuranceTables δ) (id : Uuid) : Option AssuranceState :=
  (t.exceptions.find? (·.id = id)).map (·.state)

def BackupAssuranceException.asResolved (e : BackupAssuranceException δ) (time : Time)
    (reason : String) : BackupAssuranceException δ :=
  { e with
    state := .stateResolved, resolvedAt := some time, detail := e.detail.resolve reason }

def openWithID (id : Uuid) (e : BackupAssuranceException δ) : Bool :=
  e.id = id && e.state = .stateOpen

/-- The open row becomes resolved and gets its intent, in one transaction. -/
def updateResolved (now : Time) (id : Uuid) (time : Time) (reason : String)
    (t : AssuranceTables δ) : Option (Bool × AssuranceTables δ) :=
  if t.exceptions.any (openWithID id) then
    (enqueueDelivery newSHA1 now id .resolved { t with
        exceptions := t.exceptions.map fun e =>
          if openWithID id e then e.asResolved time reason else e }).map fun t => (true, t)
  else some (false, t)

def listOpen (t : AssuranceTables δ) (clusterID : String) : List (BackupAssuranceException δ) :=
  t.exceptions.filter fun e => e.clusterID = clusterID && e.state = .stateOpen

structure AssuranceDeliveryJob (δ : Type) where
  delivery : AssuranceDelivery
  exception : BackupAssuranceException δ
deriving DecidableEq

/-- Pending, with attempts left, of the cluster, and not locked by another claim. -/
def claimable (t : AssuranceTables δ) (clusterID : String) (maxAttempts : ℕ)
    (locked : List Uuid) (d : AssuranceDelivery) : Bool :=
  d.state = .pending && d.attempts < maxAttempts &&
    t.exceptions.any (fun e => e.id = d.exceptionID && e.clusterID = clusterID) &&
    !locked.contains d.id

/-- Oldest first, then by id. -/
def deliveryKey (d : AssuranceDelivery) : Int ×ₗ ℕ := toLex (d.createdAt, d.id.toNat)

def claimedIDs (t : AssuranceTables δ) (clusterID : String) (maxAttempts limit : ℕ)
    (locked : List Uuid) : List Uuid :=
  (((t.deliveries.filter (claimable t clusterID maxAttempts locked)).insertionSort
    fun a b => deliveryKey a ≤ deliveryKey b).take limit).map (·.id)

def AssuranceDelivery.claimed (d : AssuranceDelivery) : AssuranceDelivery :=
  { d with attempts := d.attempts + 1 }

def claimedJobs (t : AssuranceTables δ) (ids : List Uuid) : List (AssuranceDeliveryJob δ) :=
  ((t.deliveries.filter (ids.contains ·.id)).insertionSort
    fun a b => deliveryKey a ≤ deliveryKey b).filterMap fun d =>
      (t.exceptions.find? (·.id = d.exceptionID)).map fun e => ⟨d.claimed, e⟩

def updateClaimed (clusterID : String) (maxAttempts limit : ℕ) (locked : List Uuid)
    (t : AssuranceTables δ) : List (AssuranceDeliveryJob δ) × AssuranceTables δ :=
  let ids := claimedIDs t clusterID maxAttempts limit locked
  (claimedJobs t ids, { t with
      deliveries := t.deliveries.map fun d => if ids.contains d.id then d.claimed else d })

def pendingWithID (id : Uuid) (d : AssuranceDelivery) : Bool := d.id = id && d.state = .pending

/-- A pending intent gets the state `f` gives it. -/
def updatePending (id : Uuid) (f : AssuranceDelivery → AssuranceDeliveryState)
    (t : AssuranceTables δ) : Bool × AssuranceTables δ :=
  (t.deliveries.any (pendingWithID id), { t with
      deliveries := t.deliveries.map fun d =>
        if pendingWithID id d then { d with state := f d } else d })

def failedState (maxAttempts : ℕ) (d : AssuranceDelivery) : AssuranceDeliveryState :=
  if d.attempts ≥ maxAttempts then .failed else .pending

end Statements

/-! ## Calls -/

/-- What `EmitSync` reports: an error, or a result that is or is not a delivery. -/
inductive EmitOutcome where
  | error
  | delivered
  | notDelivered
deriving DecidableEq

/-- The calls of the store methods, and a new id, whether the context has ended, a notification. -/
inductive AssuranceCall (δ : Type) where
  | insertOpen (e : BackupAssuranceException δ)
  | findOpen (key : AssuranceIdentity)
  | probeID (id : Uuid)
  | probePolicy (id : Uuid) (clusterID : String)
  | updateObserved (id : Uuid) (o : AssuranceObservation δ)
  | probeState (id : Uuid)
  | updateResolved (id : Uuid) (time : Time) (reason : String)
  | listOpen (clusterID : String)
  | claim (clusterID : String) (maxAttempts limit : ℕ)
  | updateDelivered (id : Uuid)
  | updateFailed (id : Uuid) (maxAttempts : ℕ)
  | newID
  | ctxErr
  | emitSync (job : AssuranceDeliveryJob δ)

@[reducible] def AssuranceCall.Answer {δ : Type} : AssuranceCall δ → Type
  | .insertOpen _ => Except AssuranceError (Option (BackupAssuranceException δ))
  | .findOpen _ => Except AssuranceError (Option (BackupAssuranceException δ))
  | .probeID _ => Except AssuranceError Bool
  | .probePolicy _ _ => Except AssuranceError Bool
  | .updateObserved _ _ => Except AssuranceError Bool
  | .probeState _ => Except AssuranceError (Option AssuranceState)
  | .updateResolved _ _ _ => Except AssuranceError Bool
  | .listOpen _ => Except AssuranceError (List (BackupAssuranceException δ))
  | .claim _ _ _ => Except AssuranceError (List (AssuranceDeliveryJob δ))
  | .updateDelivered _ => Except AssuranceError Bool
  | .updateFailed _ _ => Except AssuranceError Bool
  | .newID => Uuid
  | .ctxErr => Bool
  | .emitSync _ => EmitOutcome

inductive AssuranceFault where
  | noFault
  | rolledBack
  | lostReply
deriving DecidableEq

structure AssuranceChoice where
  fault : AssuranceFault := .noFault
  dbNow : Time := zeroTime
  locked : List Uuid := []
  newID : Uuid := Uuid.nil
  ctxErr : Bool := false
  emitted : EmitOutcome := .delivered
deriving DecidableEq

/-- A transaction; one without a result broke a key and is rolled back. -/
def AssuranceFault.transact {δ α : Type} (fault : AssuranceFault)
    (r : Option (α × AssuranceTables δ)) (t : AssuranceTables δ) :
    Except AssuranceError α × AssuranceTables δ :=
  match fault, r with
  | .noFault, some (a, t') => (.ok a, t')
  | .lostReply, some (_, t') => (.error .database, t')
  | _, _ => (.error .database, t)

def AssuranceFault.query {δ α : Type} (fault : AssuranceFault) (a : α) (t : AssuranceTables δ) :
    Except AssuranceError α × AssuranceTables δ :=
  (if fault = .noFault then .ok a else .error .database, t)

def assuranceExec {δ : Type} (newSHA1 : Uuid → String → Uuid) :
    (c : AssuranceCall δ) → AssuranceChoice → AssuranceTables δ → c.Answer × AssuranceTables δ
  | .insertOpen e, w, t => w.fault.transact (insertOpenException newSHA1 w.dbNow e t) t
  | .findOpen key, w, t => w.fault.query (findOpenException t key) t
  | .probeID id, w, t => w.fault.query (exceptionIDTaken t id) t
  | .probePolicy id clusterID, w, t => w.fault.query (policyInCluster t id clusterID) t
  | .updateObserved id o, w, t => w.fault.transact (some (updateObserved id o t)) t
  | .probeState id, w, t => w.fault.query (stateOfException t id) t
  | .updateResolved id time reason, w, t =>
    w.fault.transact (updateResolved newSHA1 w.dbNow id time reason t) t
  | .listOpen clusterID, w, t => w.fault.query (listOpen t clusterID) t
  | .claim clusterID maxAttempts limit, w, t =>
    w.fault.transact (some (updateClaimed clusterID maxAttempts limit w.locked t)) t
  | .updateDelivered id, w, t =>
    w.fault.transact (some (updatePending id (fun _ => .delivered) t)) t
  | .updateFailed id maxAttempts, w, t =>
    w.fault.transact (some (updatePending id (failedState maxAttempts) t)) t
  | .newID, w, t => (w.newID, t)
  | .ctxErr, w, t => (w.ctxErr, t)
  | .emitSync job, w, t => (w.emitted, { t with sends := t.sends ++ [job.delivery.id] })

/-! ## Methods -/

abbrev AssuranceProgram (δ α : Type) := Program (AssuranceCall δ) AssuranceCall.Answer α

def ask {δ : Type} (c : AssuranceCall δ) : AssuranceProgram δ c.Answer := Program.request c

section Methods

variable {δ : Type}

/-- With it, a schedule that was created again opens an exception of its own. -/
def subjectProblem (e : BackupAssuranceException δ) : Option String :=
  match e.subjectKind with
  | .schedule =>
    if e.subjectNamespace = "" || e.subjectName = "" || e.subjectUID = "" then
      some "schedule subject requires a namespace, a name and a uid"
    else none
  | .namespace_ =>
    if e.subjectNamespace = "" || e.subjectName ≠ "" || e.subjectUID ≠ "" then
      some "namespace subject requires a namespace and no name or uid"
    else none
  | .cluster =>
    if e.subjectNamespace ≠ "" || e.subjectName ≠ "" || e.subjectUID ≠ "" then
      some "cluster subject takes no namespace, name or uid"
    else none

def AssuranceDetail.isOther : AssuranceDetail δ → Bool
  | .other => true
  | _ => false

/-- The checks of subject kind, condition and severity are their types. -/
def validateOpenException (e : BackupAssuranceException δ) : Except AssuranceError Unit :=
  if e.id = Uuid.nil then .error (.exceptionInvalid "id is required")
  else if e.clusterID = "" then .error (.exceptionInvalid "cluster id is required")
  else if e.policyID = Uuid.nil then .error (.exceptionInvalid "policy id is required")
  else
    match subjectProblem e with
    | some msg => .error (.exceptionInvalid msg)
    | none =>
      if e.openedAt = zeroTime then .error (.exceptionInvalid "openedAt is required")
      else if e.detail.isOther then .error (.exceptionInvalid "detail must be a JSON object")
      else .ok ()

def assuranceOpenMaxAttempts : ℕ := 3

/-- The row and whether it was opened, or nothing for a race lost to someone who resolved again. -/
def openTransaction (e : BackupAssuranceException δ) :
    AssuranceProgram δ (Except AssuranceError (Option (BackupAssuranceException δ × Bool))) :=
  (ask (.insertOpen e)).andThen fun
    | some inserted => .done (.ok (some (inserted, true)))
    | none =>
      (ask (.findOpen e.identity)).andThen fun
        | some existing => .done (.ok (some (existing, false)))
        | none =>
          (ask (.probeID e.id)).andThen fun
            | true =>
              .done (.error
                (.exceptionInvalid s!"id {e.id.text} already belongs to another exception"))
            | false =>
              (ask (.probePolicy e.policyID e.clusterID)).andThen fun
                | true => .done (.ok none)
                | false => .done (.error .policyNotFound)

def openAttempts (e : BackupAssuranceException δ) :
    ℕ → AssuranceProgram δ (Except AssuranceError (BackupAssuranceException δ × Bool))
  | 0 => .done (.error .openContended)
  | n + 1 =>
    (openTransaction e).andThen fun
      | some r => .done (.ok r)
      | none => openAttempts e n

def openExceptionAndEnqueue (e : BackupAssuranceException δ) :
    AssuranceProgram δ (Except AssuranceError (BackupAssuranceException δ × Bool)) :=
  match validateOpenException e with
  | .error err => .done (.error err)
  | .ok () => openAttempts { e with detail := e.detail.orEmpty } assuranceOpenMaxAttempts

def resolveExceptionAndEnqueue (id : Uuid) (time : Time) (reason : String) :
    AssuranceProgram δ (Except AssuranceError Bool) :=
  if time = zeroTime then .done (.error (.resolutionInvalid "resolvedAt is required"))
  else if reason = "" then .done (.error (.resolutionInvalid "reason is required"))
  else ask (.updateResolved id time reason)

/-- An observation older than the stored one is dropped. -/
def observeException (id : Uuid) (o : AssuranceObservation δ) :
    AssuranceProgram δ (Except AssuranceError Unit) :=
  if o.detail.isOther then .done (.error (.observationInvalid "detail must be a JSON object"))
  else
    (ask (.updateObserved id { o with detail := o.detail.orEmpty })).andThen fun
      | true => .done (.ok ())
      | false =>
        (ask (.probeState id)).andThen fun
          | some .stateOpen => .done (.ok ())
          | _ => .done (.error .exceptionNotOpen)

def listOpenExceptions (clusterID : String) :
    AssuranceProgram δ (Except AssuranceError (List (BackupAssuranceException δ))) :=
  ask (.listOpen clusterID)

def claimPendingDeliveries (clusterID : String) (maxAttempts limit : ℕ) :
    AssuranceProgram δ (Except AssuranceError (List (AssuranceDeliveryJob δ))) :=
  if clusterID = "" then
    .done (.error (.refused "claim backup_assurance_deliveries: cluster id is required"))
  else if maxAttempts = 0 || limit = 0 then
    .done (.error (.refused (s!"claim backup_assurance_deliveries: maxAttempts ({maxAttempts})" ++
      s!" and limit ({limit}) must be positive")))
  else ask (.claim clusterID maxAttempts limit)

def markDelivered (id : Uuid) : AssuranceProgram δ (Except AssuranceError Unit) :=
  (ask (.updateDelivered id)).andThen fun
    | true => .done (.ok ())
    | false => .done (.error .deliveryNotPending)

def markDeliveryFailed (id : Uuid) (maxAttempts : ℕ) :
    AssuranceProgram δ (Except AssuranceError Unit) :=
  if maxAttempts = 0 then
    .done (.error (.refused (s!"mark backup_assurance_deliveries failed: maxAttempts" ++
      s!" ({maxAttempts}) must be positive")))
  else
    (ask (.updateFailed id maxAttempts)).andThen fun
      | true => .done (.ok ())
      | false => .done (.error .deliveryNotPending)

end Methods

end KubeCenter.Store
