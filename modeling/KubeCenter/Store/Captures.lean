import KubeCenter.Lib.Machine
import KubeCenter.Store.IncidentEvidence

/-! # Captures from any number of replicas

The committed tables, the row locks and every `InsertBatch` call, an action for each statement:

* `call` — the checks before any SQL;
* `lock` — `SELECT ... FOR UPDATE`, once no other transaction holds the row;
* `insert`, `countScopes`, `update` — the statements under the lock with the checks that follow,
  on the committed tables and the transaction's own writes (READ COMMITTED);
* `commit` — the COMMIT and its reply. If it does not prove a rollback the transaction is in doubt:
  the lock is still held, and `settle` says later what the server made of it;
* `fail` — any statement before the COMMIT fails and the transaction is rolled back.

`create`, `setStatus` and `delete` need the row lock for their one statement; none writes a
counter, and a delete takes the evidence with it (`ON DELETE CASCADE`). -/
namespace KubeCenter.Store

open Lib Go

/-! ## State -/

structure EvidenceDb where
  incidents : Uuid → Option IncidentRow
  evidence : Uuid → List IncidentEvidenceRow

/-- The arguments of an `InsertBatch` call. -/
structure CaptureRequest where
  incidentID : Uuid
  ownerID : String
  rows : List IncidentEvidenceRow
  limits : EvidenceLimits
deriving DecidableEq

abbrev CaptureResult := Except EvidenceError Nat

/-- With the variables set so far. `landed`: its rows were committed. -/
inductive CapturePhase where
  | begun (rows : List IncidentEvidenceRow)
  | locked (rows : List IncidentEvidenceRow) (cur : Totals)
  | inserted (cur : Totals) (fresh : List IncidentEvidenceRow)
  | counted (cur : Totals) (fresh : List IncidentEvidenceRow) (newScopes : Nat)
  | updated (fresh : List IncidentEvidenceRow) (totals : Totals)
  | inDoubt (fresh : List IncidentEvidenceRow) (totals : Totals) (err : DriverError)
  | returned (result : CaptureResult) (landed : Bool)

structure Capture where
  request : CaptureRequest
  phase : CapturePhase

abbrev CallId := Nat

/-- `holder` is the call whose transaction has the row lock of an incident. -/
structure Captures where
  db : EvidenceDb
  holder : Uuid → Option CallId
  calls : CallId → Option Capture

def Captures.empty : Captures := ⟨⟨fun _ => none, fun _ => []⟩, fun _ => none, fun _ => none⟩

/-- What the caller of `InsertBatch` has got: a transaction in doubt has been
reported already. -/
def CapturePhase.result : CapturePhase → Option CaptureResult
  | .inDoubt _ _ err => some (.error (busyIfLockTimeout (classifyCommitError err)))
  | .returned result _ => some result
  | _ => none

def CapturePhase.hasLanded : CapturePhase → Bool
  | .returned _ landed => landed
  | _ => false

def Captures.result (s : Captures) (c : CallId) : Option CaptureResult :=
  (s.calls c).bind fun call => call.phase.result

/-- The rows of the call are in the table: it succeeded, or its commit landed
unseen. -/
def Captures.Committed (s : Captures) (c : CallId) : Prop :=
  ∃ call, s.calls c = some call ∧
    ((∃ n, call.phase.result = some (.ok n)) ∨ call.phase.hasLanded = true)

/-! ## Actions -/

inductive CaptureAction where
  | create (id : Uuid) (ownerID : String)
  | setStatus (id : Uuid) (status : IncidentStatus)
  | delete (id : Uuid)
  | call (c : CallId) (request : CaptureRequest)
  | lock (c : CallId)
  | insert (c : CallId)
  | countScopes (c : CallId)
  | update (c : CallId)
  | fail (c : CallId) (statement : Statement) (err : DriverError)
  | commit (c : CallId) (reply : Option DriverError)
  | settle (c : CallId) (landed : Bool)
deriving DecidableEq

def CaptureAction.caller : CaptureAction → Option CallId
  | .create _ _ | .setStatus _ _ | .delete _ => none
  | .call c _ | .lock c | .insert c | .countScopes c | .update c | .fail c _ _ | .commit c _
  | .settle c _ => some c

/-- The statements a call in this phase may be waiting for. -/
def CapturePhase.statements : CapturePhase → List Statement
  | .begun _ => [.begin, .setLockTimeout, .lock]
  | .locked _ _ => [.insert]
  | .inserted _ _ => [.countScopes]
  | .counted _ _ _ => [.updateTotals]
  | _ => []

/-- PostgreSQL's own rule: an error that ends neither the session nor the server rolls the
transaction back, but for the classes 57 (operator intervention) and 08 (connection exception),
which it can also raise when the commit is durable. -/
def PgError.rollsBack (e : PgError) : Bool :=
  e.effectiveSeverity ∉ ["FATAL", "PANIC"] && e.code.toList.take 2 ∉ [['5', '7'], ['0', '8']]

/-- What the code takes for definite is. -/
theorem PgError.rollsBack_of_isDefinite {e : PgError} (h : e.isDefinite = true) :
    e.rollsBack = true := by
  simp only [PgError.isDefinite, Bool.and_eq_true, bne_iff_ne] at h
  obtain ⟨⟨⟨hfatal, hpanic⟩, h57⟩, h08⟩ := h
  have hclass : ∀ a b, e.code.toList.take 2 = [a, b] → e.codeClass = String.ofList [a, b] := by
    intro a b hab
    have hlen := congrArg List.length hab
    rw [List.length_take, List.length_cons, List.length_singleton] at hlen
    rw [PgError.codeClass, if_pos (by omega), hab]
  simp only [PgError.rollsBack, List.mem_cons, List.not_mem_nil, or_false, not_or,
    Bool.and_eq_true, decide_eq_true_eq]
  exact ⟨⟨hfatal, hpanic⟩, fun h => h57 (hclass _ _ h), fun h => h08 (hclass _ _ h)⟩

/-- The replies that mean that nothing was committed: a transaction reported as rolled back, an
error that rolls it back, and `lock_not_available`. -/
def DriverError.provesRollback : DriverError → Bool
  | .txCommitRollback => true
  | .pg e => e.rollsBack || e.code == lockNotAvailable
  | .other => false

theorem busyIfLockTimeout_classifyCommitError {err : DriverError} (h : err.provesRollback = false) :
    busyIfLockTimeout (classifyCommitError err) = .commitOutcomeUnknown err := by
  cases err with
  | txCommitRollback => cases h
  | other => rfl
  | pg e =>
    simp only [DriverError.provesRollback, Bool.or_eq_false_iff, beq_eq_false_iff_ne] at h
    have hun : ¬ e.isDefinite = true := fun hd => by
      rw [PgError.rollsBack_of_isDefinite hd] at h
      cases h.1
    simp [classifyCommitError, hun, busyIfLockTimeout, EvidenceError.pgError, h.2]

/-- A transaction's rows and totals become visible. -/
def EvidenceDb.land (db : EvidenceDb) (id : Uuid) (fresh : List IncidentEvidenceRow)
    (totals : Totals) : EvidenceDb where
  incidents := Function.update db.incidents id
    ((db.incidents id).map fun row => { row with totals })
  evidence := Function.update db.evidence id (db.evidence id ++ fresh)

def Captures.go (s : Captures) (c : CallId) (request : CaptureRequest) (phase : CapturePhase) :
    Captures :=
  { s with calls := Function.update s.calls c (some ⟨request, phase⟩) }

def Captures.setHolder (s : Captures) (id : Uuid) (holder : Option CallId) : Captures :=
  { s with holder := Function.update s.holder id holder }

/-- `InsertBatch` returns what its transaction came to. -/
def Captures.answer (s : Captures) (c : CallId) (request : CaptureRequest)
    (result : CaptureResult) (landed : Bool) : Captures :=
  s.go c request (.returned (result.mapError busyIfLockTimeout) landed)

def Captures.finish (s : Captures) (c : CallId) (request : CaptureRequest)
    (result : CaptureResult) (landed : Bool) : Captures :=
  (s.setHolder request.incidentID none).answer c request result landed

/-! ## Steps of a call -/

section Steps

variable (s : Captures) (c : CallId) (request : CaptureRequest)

def Captures.begin (validateRow : IncidentEvidenceRow → Option String) : Captures :=
  match validateBatch validateRow request.ownerID request.rows request.limits with
  | .error e => s.go c request (.returned (.error e) false)
  | .ok [] => s.go c request (.returned (.ok 0) false)
  | .ok rows => s.go c request (.begun rows)

def Captures.lock (rows : List IncidentEvidenceRow) : Captures :=
  match s.db.incidents request.incidentID with
  | none => s.answer c request (.error .incidentNotFound) false
  | some row =>
    match checkIncident request.ownerID row with
    | .error e => s.answer c request (.error e) false
    | .ok () => (s.setHolder request.incidentID (some c)).go c request (.locked rows row.totals)

def Captures.insert (rows : List IncidentEvidenceRow) (cur : Totals) : Captures :=
  let fresh := insertEvidenceRows (s.db.evidence request.incidentID) rows
  if fresh = [] then s.finish c request (.ok 0) false
  else
    match checkTotals request.limits cur fresh with
    | .error e => s.finish c request (.error e) false
    | .ok () => s.go c request (.inserted cur fresh)

def Captures.countScopes (cur : Totals) (fresh : List IncidentEvidenceRow) : Captures :=
  let newScopes := Store.countScopes (s.db.evidence request.incidentID ++ fresh)
  match checkScopes request.limits cur newScopes with
  | .error e => s.finish c request (.error e) false
  | .ok () => s.go c request (.counted cur fresh newScopes)

def Captures.fail (phase : CapturePhase) (statement : Statement) (err : DriverError) : Captures :=
  let result : CaptureResult := .error (.database statement err)
  match phase with
  | .begun _ => s.answer c request result false
  | _ => s.finish c request result false

def Captures.commit (fresh : List IncidentEvidenceRow) (totals : Totals) :
    Option DriverError → Captures
  | none =>
    { s with db := s.db.land request.incidentID fresh totals }.finish c request
      (.ok fresh.length) true
  | some err =>
    if err.provesRollback then s.finish c request (.error (classifyCommitError err)) false
    else s.go c request (.inDoubt fresh totals err)

def Captures.settle (fresh : List IncidentEvidenceRow) (totals : Totals) (err : DriverError)
    (landed : Bool) : Captures :=
  let db := if landed then s.db.land request.incidentID fresh totals else s.db
  { s with db }.finish c request (.error (classifyCommitError err)) landed

/-- The next state of a call that has begun, if the action is one it is waiting
for. -/
def Captures.advance (call : Capture) : CaptureAction → Option Captures
  | .lock _ =>
    match call.phase with
    | .begun rows =>
      if s.holder call.request.incidentID = none then some (s.lock c call.request rows) else none
    | _ => none
  | .insert _ =>
    match call.phase with
    | .locked rows cur => some (s.insert c call.request rows cur)
    | _ => none
  | .countScopes _ =>
    match call.phase with
    | .inserted cur fresh => some (s.countScopes c call.request cur fresh)
    | _ => none
  | .update _ =>
    match call.phase with
    | .counted cur fresh newScopes =>
      some (s.go c call.request (.updated fresh (newTotals cur fresh newScopes)))
    | _ => none
  | .fail _ statement err =>
    if statement ∈ call.phase.statements then
      some (s.fail c call.request call.phase statement err)
    else none
  | .commit _ reply =>
    match call.phase with
    | .updated fresh totals => some (s.commit c call.request fresh totals reply)
    | _ => none
  | .settle _ landed =>
    match call.phase with
    | .inDoubt fresh totals err => some (s.settle c call.request fresh totals err landed)
    | _ => none
  | _ => none

end Steps

/-! ## The machine -/

/-- The other writers of an incident, each one statement. -/
@[simp] def Captures.write (s : Captures) (id : Uuid) (row : Option IncidentRow)
    (evidence : List IncidentEvidenceRow) : Captures :=
  { s with
    db := ⟨Function.update s.db.incidents id row, Function.update s.db.evidence id evidence⟩ }

def Captures.next (validateRow : IncidentEvidenceRow → Option String) (s : Captures)
    (a : CaptureAction) : Option Captures :=
  match a with
  | .create id ownerID =>
    match s.db.incidents id with
    | none => some (s.write id (some ⟨ownerID, .opened, ⟨0, 0, 0⟩⟩) (s.db.evidence id))
    | some _ => none
  | .setStatus id status =>
    match s.holder id, s.db.incidents id with
    | none, some row => some (s.write id (some { row with status }) (s.db.evidence id))
    | _, _ => none
  | .delete id =>
    match s.holder id with
    | none => some (s.write id none [])
    | some _ => none
  | .call c request =>
    match s.calls c with
    | none => some (s.begin c request validateRow)
    | some _ => none
  | .lock c | .insert c | .countScopes c | .update c | .fail c _ _ | .commit c _ | .settle c _ =>
    match s.calls c with
    | none => none
    | some call => s.advance c call a

def captures (validateRow : IncidentEvidenceRow → Option String) : Machine Captures CaptureAction :=
  ⟨.empty, Captures.next validateRow⟩

end KubeCenter.Store
