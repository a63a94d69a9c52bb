import KubeCenter.Lib.Bytes
import KubeCenter.Lib.Go
import KubeCenter.Lib.KeyedTable

/-! # The pieces of an evidence capture

`store/incident_evidence.go`: what `InsertBatch` decides before its transaction and between two
statements of it. How the statements are ordered and lost is `KubeCenter.Store.Captures`. -/
namespace KubeCenter.Store

open Lib Go

/-! ## Rows, totals, limits -/

/-- One row to insert. Its id, incident and collection time are assigned by the
database. -/
structure IncidentEvidenceRow where
  evidenceKind : String
  mode : String
  clusterID : String
  apiGroup : String
  resource : String
  sourceKind : String
  namespace_ : String
  name : String
  sourceUID : String
  resourceVersion : String
  secretDerived : Bool
  sourceObservedAt : Option Time
  completeness : String
  completenessDetail : String
  redaction : Bytes
  payload : Bytes
  payloadBytes : Nat
  captureKey : String
deriving DecidableEq

structure EvidenceScope where
  clusterID : String
  apiGroup : String
  resource : String
  namespace_ : String
deriving DecidableEq

def IncidentEvidenceRow.scope (r : IncidentEvidenceRow) : EvidenceScope :=
  ⟨r.clusterID, r.apiGroup, r.resource, r.namespace_⟩

structure Totals where
  bytes : Nat
  count : Nat
  scopes : Nat
deriving DecidableEq

/-- The source's `open` is a keyword here. -/
inductive IncidentStatus where
  | opened
  | closed
deriving DecidableEq

/-- The columns of `incidents` a capture reads or writes. -/
structure IncidentRow where
  ownerID : String
  status : IncidentStatus
  totals : Totals
deriving DecidableEq

def evidenceMaxItemBytesCeiling : Int := 2 ^ 20
def evidenceMaxIncidentBytesCeiling : Int := 10 * 2 ^ 20
def evidenceMaxItemsCeiling : Int := 500
def evidenceMaxScopesCeiling : Int := 20

structure EvidenceLimits where
  maxItemBytes : Int
  maxIncidentBytes : Int
  maxItems : Int
  maxScopes : Int
deriving DecidableEq

/-! ## Errors -/

inductive EvidenceLimit where
  | itemBytes
  | incidentBytes
  | items
deriving DecidableEq

def EvidenceLimit.text : EvidenceLimit → String
  | .itemBytes => "item_bytes"
  | .incidentBytes => "incident_bytes"
  | .items => "items"

structure PgError where
  severityUnlocalized : String
  severity : String
  code : String
deriving DecidableEq

/-- `other` is an I/O or network error or a context that ended. -/
inductive DriverError where
  | txCommitRollback
  | pg (e : PgError)
  | other
deriving DecidableEq

inductive Statement where
  | begin
  | setLockTimeout
  | lock
  | insert
  | countScopes
  | updateTotals
  | commit
deriving DecidableEq

/-- What the store says in front of a driver error. -/
def Statement.text : Statement → String
  | .begin => "begin incident evidence tx"
  | .setLockTimeout => "set incident evidence lock timeout"
  | .lock => "lock incidents"
  | .insert => "insert incident_evidence"
  | .countScopes => "count incident_evidence scopes"
  | .updateTotals => "update incidents evidence totals"
  | .commit => "commit incident evidence tx"

/-- `incidentInvalid` carries the whole text of its error. -/
inductive EvidenceError where
  | incidentInvalid (text : String)
  | evidenceLimit (limit : EvidenceLimit) (max : Int) (current attempted : Nat)
  | scopeLimit (max : Int) (current attempted : Nat)
  | incidentNotFound
  | notOwner
  | incidentClosed
  | incidentBusy
  | commitOutcomeUnknown (e : DriverError)
  | database (statement : Statement) (e : DriverError)
deriving DecidableEq

/-! ## Before the transaction -/

/-- The text of `ErrIncidentInvalid`. -/
def errIncidentInvalid : String := "invalid incident input"

def requireIdentity (field id : String) : Except EvidenceError Unit :=
  if id = "" then .error (.incidentInvalid s!"{errIncidentInvalid}: {field} is required")
  else .ok ()

/-- `EvidenceLimits.Validate`: the first limit out of its range. -/
def EvidenceLimits.validate (l : EvidenceLimits) : Except EvidenceError Unit :=
  let checks : List (String × Int × Int) :=
    [("max item bytes", l.maxItemBytes, evidenceMaxItemBytesCeiling),
      ("max incident bytes", l.maxIncidentBytes, evidenceMaxIncidentBytesCeiling),
      ("max items", l.maxItems, evidenceMaxItemsCeiling),
      ("max scopes", l.maxScopes, evidenceMaxScopesCeiling)]
  match checks.find? fun c => c.2.1 < 1 || c.2.2 < c.2.1 with
  | none => .ok ()
  | some (name, v, ceiling) =>
    .error (.incidentInvalid
      s!"{errIncidentInvalid}: evidence {name} must be 1 to {ceiling}, got {v}")

/-- A row as it is inserted: measured, with empty redaction metadata as an
empty object. -/
def prepareRow (r : IncidentEvidenceRow) : IncidentEvidenceRow :=
  { r with
    payloadBytes := r.payload.length
    redaction := if r.redaction = [] then ascii "\x7b\x7d" else r.redaction }

/-- The first row that is too large for the item limit refuses the batch. -/
def prepareRows (limits : EvidenceLimits) (rows : List IncidentEvidenceRow) :
    Except EvidenceError (List IncidentEvidenceRow) :=
  match rows.find? fun r => limits.maxItemBytes < r.payload.length with
  | some r => .error (.evidenceLimit .itemBytes limits.maxItemBytes 0 r.payload.length)
  | none => .ok (rows.map prepareRow)

/-- The first row that breaks a rule refuses the batch. `validateRow`: the text of its error, if
any. -/
def validateRows (validateRow : IncidentEvidenceRow → Option String)
    (rows : List IncidentEvidenceRow) : Except EvidenceError Unit :=
  match rows.zipIdx.findSome? fun p => (validateRow p.1).map fun text => (p.2, text) with
  | none => .ok ()
  | some (i, text) => .error (.incidentInvalid s!"evidence item {i}: {text}")

/-- Everything `InsertBatch` checks before any SQL. -/
def validateBatch (validateRow : IncidentEvidenceRow → Option String) (ownerID : String)
    (rows : List IncidentEvidenceRow) (limits : EvidenceLimits) :
    Except EvidenceError (List IncidentEvidenceRow) := do
  requireIdentity "owner id" ownerID
  limits.validate
  let (most, n) := (evidenceMaxItemsCeiling, rows.length)
  if most < n then
    throw (.incidentInvalid s!"{errIncidentInvalid}: a capture holds at most {most} items, got {n}")
  validateRows validateRow rows
  prepareRows limits rows

variable {limits : EvidenceLimits}

theorem prepareRows_ok_iff {rows out} : prepareRows limits rows = .ok out ↔
      (∀ r ∈ rows, r.payload.length ≤ limits.maxItemBytes) ∧ out = rows.map prepareRow := by
  unfold prepareRows
  split
  next r hr =>
    have hlr := List.find?_some hr
    have hmem := List.mem_of_find?_eq_some hr
    simp only [decide_eq_true_eq] at hlr
    refine ⟨nofun, fun h => absurd (h.1 r hmem) (by omega)⟩
  next hno =>
    simp only [List.find?_eq_none, decide_eq_true_eq, Int.not_lt] at hno
    simpa [eq_comm] using fun _ => hno

/-- What a batch is prepared as does not depend on the limits. -/
theorem validateBatch_ok_iff {validateRow} {ownerID : String} {rows out} :
    validateBatch validateRow ownerID rows limits = .ok out ↔
      requireIdentity "owner id" ownerID = .ok () ∧ limits.validate = .ok () ∧
        (rows.length : Int) ≤ evidenceMaxItemsCeiling ∧ validateRows validateRow rows = .ok () ∧
        (∀ r ∈ rows, r.payload.length ≤ limits.maxItemBytes) ∧ out = rows.map prepareRow := by
  rw [← prepareRows_ok_iff]
  unfold validateBatch
  cases requireIdentity "owner id" ownerID with
  | error => simp [bind, Except.bind]
  | ok =>
    cases limits.validate with
    | error => simp [bind, Except.bind]
    | ok =>
      by_cases hn : evidenceMaxItemsCeiling < rows.length
      · have hln : ¬ (rows.length : Int) ≤ evidenceMaxItemsCeiling := Int.not_le.2 hn
        simp [bind, Except.bind, hn, throw, throwThe, MonadExceptOf.throw, hln]
      · cases validateRows validateRow rows with
        | error => simp [bind, Except.bind, hn]
        | ok => simp [bind, Except.bind, hn, Int.not_lt.1 hn]

/-! ## Under the lock -/

/-- `INSERT ... ON CONFLICT (incident_id, capture_key) DO NOTHING`. -/
def insertEvidenceRows (evidence rows : List IncidentEvidenceRow) : List IncidentEvidenceRow :=
  freshRows IncidentEvidenceRow.captureKey evidence rows

def addedBytes (fresh : List IncidentEvidenceRow) : Nat :=
  (fresh.map IncidentEvidenceRow.payloadBytes).sum

/-- `COUNT(DISTINCT (cluster_id, api_group, resource, namespace))`. -/
def countScopes (evidence : List IncidentEvidenceRow) : Nat :=
  (evidence.map IncidentEvidenceRow.scope).dedup.length

def checkIncident (ownerID : String) (row : IncidentRow) : Except EvidenceError Unit :=
  if row.ownerID ≠ ownerID then .error .notOwner
  else if row.status = .closed then .error .incidentClosed
  else .ok ()

/-- The item and byte limits, on the totals the batch would lead to. -/
def checkTotals (limits : EvidenceLimits) (cur : Totals) (fresh : List IncidentEvidenceRow) :
    Except EvidenceError Unit :=
  let newCount := cur.count + fresh.length
  let newBytes := cur.bytes + addedBytes fresh
  if limits.maxItems < newCount then
    .error (.evidenceLimit .items limits.maxItems cur.count newCount)
  else if limits.maxIncidentBytes < newBytes then
    .error (.evidenceLimit .incidentBytes limits.maxIncidentBytes cur.bytes newBytes)
  else .ok ()

/-- The scope limit, which only blocks growth. -/
def checkScopes (limits : EvidenceLimits) (cur : Totals) (newScopes : Nat) :
    Except EvidenceError Unit :=
  if limits.maxScopes < newScopes ∧ cur.scopes < newScopes then
    .error (.scopeLimit limits.maxScopes cur.scopes newScopes)
  else .ok ()

def newTotals (cur : Totals) (fresh : List IncidentEvidenceRow) (newScopes : Nat) : Totals :=
  ⟨cur.bytes + addedBytes fresh, cur.count + fresh.length, newScopes⟩

def totalsOf (evidence : List IncidentEvidenceRow) : Totals :=
  ⟨addedBytes evidence, evidence.length, countScopes evidence⟩

@[simp] theorem totalsOf_nil : totalsOf [] = ⟨0, 0, 0⟩ := rfl

theorem newTotals_totalsOf (evidence fresh : List IncidentEvidenceRow) :
    newTotals (totalsOf evidence) fresh (countScopes (evidence ++ fresh)) =
      totalsOf (evidence ++ fresh) := by
  simp [newTotals, totalsOf, addedBytes]

theorem checkTotals_ok_iff {cur : Totals} {fresh} : checkTotals limits cur fresh = .ok () ↔
      ((cur.count + fresh.length : Nat) : Int) ≤ limits.maxItems ∧
        ((cur.bytes + addedBytes fresh : Nat) : Int) ≤ limits.maxIncidentBytes := by
  unfold checkTotals
  dsimp only
  split
  · exact ⟨nofun, fun h => by omega⟩
  · split
    · exact ⟨nofun, fun h => by omega⟩
    · exact ⟨fun _ => by omega, fun _ => rfl⟩

theorem scopes_of_checkScopes {evidence fresh}
    (h : checkScopes limits (totalsOf evidence) (countScopes (evidence ++ fresh)) = .ok ()) :
    (countScopes (evidence ++ fresh) : Int) ≤ limits.maxScopes ∨
      countScopes (evidence ++ fresh) = countScopes evidence := by
  have hmn : countScopes evidence ≤ countScopes (evidence ++ fresh) := by
    unfold countScopes
    rw [List.map_append]
    exact length_dedup_le_append _ _
  unfold checkScopes at h
  split at h
  · cases h
  next hn =>
    simp only [totalsOf] at hn
    omega

theorem checkIncident_ok {ownerID : String} {row} (h : checkIncident ownerID row = .ok ()) :
    row.ownerID = ownerID ∧ row.status = .opened := by
  unfold checkIncident at h
  split at h
  · cases h
  · split at h
    · cases h
    next ho hs =>
      cases hst : row.status with
      | closed => exact absurd hst hs
      | opened => exact ⟨not_not.1 ho, rfl⟩

/-! ## Driver errors -/

/-- PostgreSQL's `lock_not_available`. -/
def lockNotAvailable : String := "55P03"

def PgError.effectiveSeverity (e : PgError) : String :=
  if e.severityUnlocalized = "" then e.severity else e.severityUnlocalized

def PgError.codeClass (e : PgError) : String :=
  if 2 ≤ e.code.toList.length then String.ofList (e.code.toList.take 2) else ""

def PgError.isDefinite (e : PgError) : Bool :=
  e.effectiveSeverity != "FATAL" && e.effectiveSeverity != "PANIC" && e.codeClass != "57" &&
    e.codeClass != "08"

def classifyCommitError : DriverError → EvidenceError
  | .txCommitRollback => .database .commit .txCommitRollback
  | .pg e => if e.isDefinite then .database .commit (.pg e) else .commitOutcomeUnknown (.pg e)
  | .other => .commitOutcomeUnknown .other

/-- The server error inside an error, if any. -/
def EvidenceError.pgError : EvidenceError → Option PgError
  | .commitOutcomeUnknown (.pg e) => some e
  | .database _ (.pg e) => some e
  | _ => none

/-- A lock that was not to be had is reported as busy, whatever statement it
was for. -/
def busyIfLockTimeout (err : EvidenceError) : EvidenceError :=
  match err.pgError with
  | some e => if e.code = lockNotAvailable then .incidentBusy else err
  | none => err

end KubeCenter.Store
