import KubeCenter.Lib.Go
import KubeCenter.Lib.JsonText
import KubeCenter.Lib.Calls
import KubeCenter.Lib.Reactive
import Mathlib.Data.List.Sort

/-! # Bulk refresh of ExternalSecrets

`externalsecrets/bulk.go` (`handleBulkRefresh`), `bulk_worker.go`, the force-sync patch of
`actions.go` and `store/eso_bulk_jobs.go`. A handler compares the scope of a request with the UIDs
the client confirmed and stores a job; one worker patches its targets and appends the outcomes. A
step is one call to the database, which succeeds, or to the API server. A patch that was sent takes
effect whether or not the worker still waits. -/
namespace KubeCenter.ExternalSecrets

open Lib Lib.Go
open Function (update)

/-! ## Jobs in the database -/

inductive BulkRefreshAction
  | store
  | clusterStore
  | namespace
deriving DecidableEq

structure BulkRefreshOutcome where
  uid : String
  reason : String
deriving DecidableEq

/-- `ESOBulkRefreshJob`, as handed to `Insert` and as read back: a `none` is a nil slice. -/
structure BulkJob where
  id : Uuid
  clusterID : String
  requestedBy : String
  action : BulkRefreshAction
  scopeTarget : String
  targetUIDs : List String
  completed : Bool
  succeeded : List String
  failed : Option (List BulkRefreshOutcome)
  skipped : Option (List BulkRefreshOutcome)
deriving DecidableEq

/-- A row of `eso_bulk_refresh_jobs`: two columns are JSON. -/
structure JobRow where
  id : Uuid
  clusterID : String
  requestedBy : String
  action : BulkRefreshAction
  scopeTarget : String
  targetUIDs : List String
  completed : Bool
  succeeded : List String
  failed : Json
  skipped : Json

def BulkRefreshOutcome.json (o : BulkRefreshOutcome) : Json :=
  .obj [("uid", .str o.uid), ("reason", .str o.reason)]

/-- `json.Marshal` of a slice: a nil slice becomes `null`. -/
def marshalSlice : Option (List BulkRefreshOutcome) → Json
  | none => .null
  | some outs => .arr (outs.map BulkRefreshOutcome.json)

def marshalOutcomes (outs : List BulkRefreshOutcome) : Json :=
  if outs = [] then .arr [] else .arr (outs.map BulkRefreshOutcome.json)

/-- The elements of an operand of `||`: what is not an array counts as one element. -/
def jsonbElements : Json → List Json
  | .arr items => items
  | j => [j]

/-- `a || b` on `jsonb`. -/
def jsonbConcat (a b : Json) : Json := .arr (jsonbElements a ++ jsonbElements b)

/-- A text field of an object as `json.Unmarshal` reads it. -/
def textField (fields : List (String × Json)) (key : String) : String :=
  match fields.lookup key with
  | some (.str s) => s
  | _ => ""

/-- An element as `json.Unmarshal` reads it into a struct: `null` leaves the zero value. -/
def scanOutcome : Json → BulkRefreshOutcome
  | .obj fields => ⟨textField fields "uid", textField fields "reason"⟩
  | _ => ⟨"", ""⟩

/-- A column as `json.Unmarshal` reads it into a slice. -/
def scanOutcomes : Json → Option (List BulkRefreshOutcome)
  | .arr items => some (items.map scanOutcome)
  | _ => none

def scanJob (r : JobRow) : BulkJob :=
  { r with failed := scanOutcomes r.failed, skipped := scanOutcomes r.skipped }

structure BulkOutcomeBatch where
  succeeded : List String := []
  failed : List BulkRefreshOutcome := []
  skipped : List BulkRefreshOutcome := []
deriving DecidableEq

def BulkOutcomeBatch.size (b : BulkOutcomeBatch) : ℕ :=
  b.succeeded.length + b.failed.length + b.skipped.length

def insertedRow (j : BulkJob) : JobRow :=
  { j with failed := marshalSlice j.failed, skipped := marshalSlice j.skipped }

/-- `UPDATE … WHERE id = $1`. -/
def updateRow (rows : List JobRow) (id : Uuid) (f : JobRow → JobRow) : List JobRow :=
  rows.map fun r => if r.id = id then f r else r

def JobRow.append (b : BulkOutcomeBatch) (r : JobRow) : JobRow :=
  { r with
    succeeded := r.succeeded ++ b.succeeded
    failed := jsonbConcat r.failed (marshalOutcomes b.failed)
    skipped := jsonbConcat r.skipped (marshalOutcomes b.skipped) }

section

variable (rows : List JobRow) (id : Uuid)

/-- `AppendOutcomes`: an empty batch is not written. -/
def appendOutcomes (b : BulkOutcomeBatch) : List JobRow :=
  if b.size = 0 then rows else updateRow rows id (JobRow.append b)

def complete : List JobRow := updateRow rows id fun r => { r with completed := true }

def rowOf : Option JobRow := rows.find? fun r => r.id = id

/-- `Get`. -/
def getJob : Option BulkJob := (rowOf rows id).map scanJob

end

def findActive (rows : List JobRow) (clusterID : String) (action : BulkRefreshAction)
    (scopeTarget : String) : Option JobRow :=
  rows.find? fun r => r.clusterID = clusterID ∧ r.action = action ∧ r.scopeTarget = scopeTarget ∧
    r.completed = false

/-! ## Requests -/

structure StoreRef where
  kind : String
  name : String
deriving DecidableEq

/-- The fields of an `ExternalSecret` that the scope reads. Kubernetes gives every object a UID. -/
structure ScopedSecret where
  uid : String
  ns : String
  name : String
  storeRef : StoreRef
  uid_ne : uid ≠ ""
deriving DecidableEq

structure BulkScopeTarget where
  ns : String
  name : String
  uid : String
deriving DecidableEq

/-- The user of a request, and the identity to impersonate. -/
structure Operator where
  username : String
  kubernetesUsername : String
  kubernetesGroups : List String
deriving DecidableEq

/-- The cached inventory, whether the user may patch in a namespace, and the decoded body. -/
structure BulkRequest where
  user : Option Operator
  clusterID : String
  configured : Bool
  available : Bool
  inventory : Option (List ScopedSecret)
  canPatch : String → Bool
  targetUIDs : Option (List String)
  action : BulkRefreshAction
  scopeTarget : String

inductive Reply
  | unauthenticated
  | notLocal
  | unavailable
  | notDetected
  | scopeFailed
  | scopeEmpty
  | scopeTooLarge (count : ℕ)
  | invalidBody
  | targetUIDsRequired
  | scopeChanged (added removed : List String)
  | activeJobExists (id : Option Uuid)
  | queueFull
  | accepted (id : Uuid) (targetCount : ℕ)
deriving DecidableEq

def matchScope (ess : List ScopedSecret) (action : BulkRefreshAction) (scopeTarget : String) :
    List ScopedSecret :=
  match action with
  | .store =>
    let (ns, ok) := cut scopeTarget '/'
    let name := String.ofList (afterCut scopeTarget.toList '/')
    if ok = false ∨ ns = "" ∨ name = "" then []
    else ess.filter fun es =>
      es.ns = ns ∧ es.storeRef.kind = "SecretStore" ∧ es.storeRef.name = name
  | .clusterStore => ess.filter fun es =>
      es.storeRef.kind = "ClusterSecretStore" ∧ es.storeRef.name = scopeTarget
  | .namespace => ess.filter fun es => es.ns = scopeTarget

/-- By namespace, then by name. -/
def BulkScopeTarget.Le (a b : BulkScopeTarget) : Prop :=
  a.ns < b.ns ∨ (a.ns = b.ns ∧ a.name ≤ b.name)

instance : DecidableRel BulkScopeTarget.Le := fun a b =>
  inferInstanceAs (Decidable (a.ns < b.ns ∨ (a.ns = b.ns ∧ a.name ≤ b.name)))

/-- The targets of `resolveScope`: what is in scope and what the user may patch. -/
def resolveScope (req : BulkRequest) (inventory : List ScopedSecret) : List BulkScopeTarget :=
  (((matchScope inventory req.action req.scopeTarget).filter fun es => req.canPatch es.ns).map
    fun es => ⟨es.ns, es.name, es.uid⟩).insertionSort BulkScopeTarget.Le

def compareUIDs (client : List String) (scope : List BulkScopeTarget) : List String × List String :=
  (((scope.map (·.uid)).filter (· ∉ client)).insertionSort (· ≤ ·),
    (client.filter (· ∉ scope.map (·.uid))).insertionSort (· ≤ ·))

def maxBulkTargets : ℕ := 5000
def queueDepth : ℕ := 32
def outcomeBatchSize : ℕ := 50

def isLocalClusterID (id : String) : Bool := id = "" ∨ id = "local"

structure Checked where
  user : Operator
  request : BulkRequest
  inventory : List ScopedSecret
  confirmed : List String
  targets : List BulkScopeTarget

def checkRequest (rows : List JobRow) (req : BulkRequest) : Except Reply Checked :=
  match req.user with
  | none => .error .unauthenticated
  | some user =>
    if isLocalClusterID req.clusterID = false then .error .notLocal
    else if req.configured = false then .error .unavailable
    else if req.available = false then .error .notDetected
    else match req.inventory with
    | none => .error .scopeFailed
    | some inventory =>
      let targets := resolveScope req inventory
      if targets.length = 0 then .error .scopeEmpty
      else if maxBulkTargets < targets.length then .error (.scopeTooLarge targets.length)
      else match req.targetUIDs with
      | none => .error .invalidBody
      | some confirmed =>
        let (added, removed) := compareUIDs confirmed targets
        if confirmed.length = 0 then .error .targetUIDsRequired
        else if added ≠ [] ∨ removed ≠ [] then .error (.scopeChanged added removed)
        else match findActive rows req.clusterID req.action req.scopeTarget with
        | some row => .error (.activeJobExists (some row.id))
        | none => .ok ⟨user, req, inventory, confirmed, targets⟩

/-- The job of `handleBulkRefresh`; its outcome slices are nil. -/
def Checked.job (c : Checked) (id : Uuid) : BulkJob where
  id := id
  clusterID := c.request.clusterID
  requestedBy := c.user.username
  action := c.request.action
  scopeTarget := c.request.scopeTarget
  targetUIDs := c.targets.map (·.uid)
  completed := false
  succeeded := []
  failed := none
  skipped := none

/-- The fields of `BulkJobMessage` that the worker acts on. -/
structure BulkJobMessage where
  jobID : Uuid
  clusterID : String
  targets : List BulkScopeTarget
  username : String
  groups : List String
deriving DecidableEq

def Checked.message (c : Checked) (id : Uuid) : BulkJobMessage where
  jobID := id
  clusterID := c.request.clusterID
  targets := c.targets
  username := c.user.kubernetesUsername
  groups := c.user.kubernetesGroups

/-! ## The worker -/

/-- How a patch call fails. `other` carries the reason of the API error, empty if unknown. -/
inductive PatchError
  | alreadyRefreshing
  | uidDrifted
  | forbidden
  | notFound
  | conflict
  | timeout
  | serverTimeout
  | tooManyRequests
  | serviceUnavailable
  | other (reason : String)
deriving DecidableEq

def isTransientPatchError : PatchError → Bool
  | .timeout | .serverTimeout | .tooManyRequests | .serviceUnavailable => true
  | _ => false

/-- `classifyPatchError`, on the errors the worker hands to it. -/
def classifyPatchError : PatchError → String
  | .timeout | .serverTimeout => "transient_timeout"
  | .tooManyRequests => "transient_throttled"
  | .serviceUnavailable => "transient_unavailable"
  | .other reason => if reason = "" then "patch_error" else "patch_error:" ++ reason.toLower
  | _ => "patch_error"

inductive OutcomeClass
  | succeeded
  | failed (reason : String)
  | skipped (reason : String)
deriving DecidableEq

def classify : Option PatchError → OutcomeClass
  | none => .succeeded
  | some .alreadyRefreshing => .skipped "already_refreshing"
  | some .uidDrifted => .failed "uid_drifted"
  | some .forbidden => .failed "rbac_denied"
  | some .notFound => .failed "not_found"
  | some .conflict => .failed "optimistic_lock"
  | some e => .failed (classifyPatchError e)

def BulkOutcomeBatch.add (b : BulkOutcomeBatch) (uid : String) : OutcomeClass → BulkOutcomeBatch
  | .succeeded => { b with succeeded := b.succeeded ++ [uid] }
  | .failed reason => { b with failed := b.failed ++ [⟨uid, reason⟩] }
  | .skipped reason => { b with skipped := b.skipped ++ [⟨uid, reason⟩] }

/-- Where `processJob` is with its current target. `left` attempts remain after this one. -/
inductive Phase
  | head
  | reading (left : ℕ)
  | patching (left : ℕ)
  | backoff (left : ℕ) (err : PatchError)
  | delay
deriving DecidableEq

structure RunningJob where
  msg : BulkJobMessage
  target : BulkScopeTarget
  rest : List BulkScopeTarget
  batch : BulkOutcomeBatch
  phase : Phase
deriving DecidableEq

inductive Worker
  | idle
  | running (job : RunningJob)
  | stopped
deriving DecidableEq

/-- A force-sync patch on its way names its object by namespace and name. -/
structure SentPatch where
  number : ℕ
  jobID : Uuid
  target : BulkScopeTarget
deriving DecidableEq

structure BulkSystem where
  rows : List JobRow
  checked : ℕ → Option Checked
  queue : List BulkJobMessage
  worker : Worker
  cancelled : Bool
  /-- The UID of the ExternalSecret of a namespace and name. -/
  objects : String → String → Option String
  sent : List SentPatch
  patches : ℕ

inductive GetAnswer
  | object (recentlyRefreshed : Bool)
  | failed (err : PatchError)
  | panics

inductive PatchAnswer
  | applied
  | failed (err : PatchError)
  | panics

/-- `stop` decides a `select` that finds both the context done and another case ready. -/
structure WorkAnswer where
  client : Bool
  get : GetAnswer
  patch : PatchAnswer
  stop : Bool

inductive BulkEvent
  | check (handler : ℕ) (req : BulkRequest)
  | commit (handler : ℕ) (id : Uuid)
  | work (answer : WorkAnswer)
  | cancel
  | create (ns name uid : String)
  | delete (ns name : String)
  | takeEffect (number : ℕ)
  | lose (number : ℕ)

inductive BulkOutput
  | quiet
  | replied (reply : Reply)
  | accepted (id : Uuid) (request : Checked)
  | returned (id : Uuid) (uid : String) (result : Option PatchError)
  | panicked (id : Uuid)
  | patched (id : Uuid) (uid : String)

/-- `Insert`, which the primary key or the index of active jobs may refuse, and `Enqueue`. -/
def commit (s : BulkSystem) (c : Checked) (id : Uuid) : BulkOutput × BulkSystem :=
  let active := findActive s.rows c.request.clusterID c.request.action c.request.scopeTarget
  if (rowOf s.rows id).isSome ∨ active.isSome then
    (.replied (.activeJobExists (active.map (·.id))), s)
  else
    let rows := s.rows ++ [insertedRow (c.job id)]
    if s.queue.length < queueDepth then
      (.accepted id c, { s with rows := rows, queue := s.queue ++ [c.message id] })
    else (.replied .queueFull, { s with rows := complete rows id })

section

variable (s : BulkSystem) (j : RunningJob)

/-- A full batch is written, and after the last target the job is completed. -/
def settle (result : Option PatchError) : BulkOutput × BulkSystem :=
  let batch := j.batch.add j.target.uid (classify result)
  let full := outcomeBatchSize ≤ batch.size
  let rows := if full then appendOutcomes s.rows j.msg.jobID batch else s.rows
  let batch' := if full then {} else batch
  (.returned j.msg.jobID j.target.uid result, match j.rest with
    | [] =>
      { s with
        rows := complete (appendOutcomes rows j.msg.jobID batch') j.msg.jobID
        worker := .idle }
    | next :: rest =>
      { s with rows := rows, worker := .running ⟨j.msg, next, rest, batch', .delay⟩ })

/-- The deferred recovery of `run`. The batch is gone with the frame of `processJob`. -/
def recoverPanic : BulkOutput × BulkSystem :=
  let batch : BulkOutcomeBatch := { failed := [⟨"", "worker_panic"⟩] }
  (.panicked j.msg.jobID, { s with
      rows := complete (appendOutcomes s.rows j.msg.jobID batch) j.msg.jobID
      worker := .idle })

def abandon : BulkSystem :=
  { s with rows := appendOutcomes s.rows j.msg.jobID j.batch, worker := .idle }

def goto (phase : Phase) : BulkSystem := { s with worker := .running { j with phase := phase } }

/-- The end of an attempt of `patchForceSyncObserved` with an error. -/
def endAttempt (left : ℕ) (err : PatchError) : BulkOutput × BulkSystem :=
  if isTransientPatchError err then
    match left with
    | 0 => settle s j (some err)
    | left + 1 => (.quiet, goto s j (.backoff left err))
  else settle s j (some err)

/-- The pin is compared with the UID that was read, the patch is addressed by name. -/
def afterRead (left : ℕ) (recent : Bool) (uid : String) : BulkOutput × BulkSystem :=
  if j.target.uid ≠ "" ∧ uid ≠ j.target.uid then settle s j (some .uidDrifted)
  else if recent then settle s j (some .alreadyRefreshing)
  else (.quiet, { s with
      sent := s.sent ++ [⟨s.patches, j.msg.jobID, j.target⟩]
      patches := s.patches + 1
      worker := .running { j with phase := .patching left } })

def workJob (a : WorkAnswer) : BulkOutput × BulkSystem :=
  match j.phase with
  | .head => if s.cancelled then (.quiet, abandon s j) else (.quiet, goto s j (.reading 2))
  | .reading left =>
    match a.get with
    | .panics => recoverPanic s j
    | .failed err => endAttempt s j left err
    | .object recent =>
      match s.objects j.target.ns j.target.name with
      | none => endAttempt s j left .notFound
      | some uid => afterRead s j left recent uid
  | .patching left =>
    match a.patch with
    | .panics => recoverPanic s j
    | .failed err => endAttempt s j left err
    | .applied => settle s j none
  | .backoff left err =>
    if s.cancelled ∧ a.stop then settle s j (some err) else (.quiet, goto s j (.reading left))
  | .delay => if s.cancelled ∧ a.stop then (.quiet, abandon s j) else (.quiet, goto s j .head)

end

/-- The start of `processJob`: a job for another cluster or without a client is closed. -/
def startJob (s : BulkSystem) (m : BulkJobMessage) (a : WorkAnswer) : BulkSystem :=
  if isLocalClusterID m.clusterID = false ∨ a.client = false then
    { s with rows := complete s.rows m.jobID }
  else match m.targets with
  | [] => { s with rows := complete s.rows m.jobID }
  | target :: rest => { s with worker := .running ⟨m, target, rest, {}, .head⟩ }

def work (s : BulkSystem) (a : WorkAnswer) : BulkOutput × BulkSystem :=
  match s.worker with
  | .stopped => (.quiet, s)
  | .running j => workJob s j a
  | .idle =>
    if s.cancelled ∧ a.stop then (.quiet, { s with worker := .stopped })
    else match s.queue with
    | [] => (.quiet, s)
    | m :: queue => (.quiet, startJob { s with queue := queue } m a)

def setObject (objects : String → String → Option String) (ns name : String)
    (uid : Option String) : String → String → Option String :=
  update objects ns (update (objects ns) name uid)

def bulkReact (s : BulkSystem) : BulkEvent → BulkOutput × BulkSystem
  | .check n req =>
    match checkRequest s.rows req with
    | .error reply => (.replied reply, s)
    | .ok c => (.quiet, { s with checked := update s.checked n (some c) })
  | .commit n id =>
    match s.checked n with
    | none => (.quiet, s)
    | some c => commit { s with checked := update s.checked n none } c id
  | .work a => work s a
  | .cancel => (.quiet, { s with cancelled := true })
  | .create ns name uid =>
    if (s.objects ns name).isNone then
      (.quiet, { s with objects := setObject s.objects ns name (some uid) })
    else (.quiet, s)
  | .delete ns name => (.quiet, { s with objects := setObject s.objects ns name none })
  | .takeEffect n =>
    match s.sent.find? fun p => p.number = n with
    | none => (.quiet, s)
    | some p =>
      let s' := { s with sent := s.sent.filter fun q => q.number ≠ n }
      match s.objects p.target.ns p.target.name with
      | none => (.quiet, s')
      | some uid => (.patched p.jobID uid, s')
  | .lose n => (.quiet, { s with sent := s.sent.filter fun q => q.number ≠ n })

/-- A process from its start, with the jobs of earlier ones in the table. -/
def bulkRefresh (rows : List JobRow) (objects : String → String → Option String) :
    Reactive BulkSystem BulkEvent BulkOutput where
  init := ⟨rows, fun _ => none, [], .idle, false, objects, [], 0⟩
  react := bulkReact

/-! ## What a step does -/

/-- An upper bound on the calls that the current target still takes. -/
@[local simp] def Phase.cost : Phase → ℕ
  | .head => 9
  | .reading left => 2 + 3 * left
  | .patching left => 1 + 3 * left
  | .backoff left _ => 3 + 3 * left
  | .delay => 10

inductive BulkMove (s : BulkSystem) : BulkEvent → BulkOutput → BulkSystem → Prop
  | refuse {n req} (reply : Reply) : BulkMove s (.check n req) (.replied reply) s
  | nothing {e} (he : ∀ a, e ≠ .work a) : BulkMove s e .quiet s
  | unemployed {a} (h : s.worker = .stopped ∨ (s.worker = .idle ∧ s.queue = [])) :
      BulkMove s (.work a) .quiet s
  | check {n req c} (h : checkRequest s.rows req = .ok c) :
      BulkMove s (.check n req) .quiet { s with checked := update s.checked n (some c) }
  | withdraw {n id} (reply : Reply) : BulkMove s (.commit n id) (.replied reply)
        { s with checked := update s.checked n none }
  | accept {n id c} (hc : s.checked n = some c) (hid : rowOf s.rows id = none) :
      BulkMove s (.commit n id) (.accepted id c) { s with
          checked := update s.checked n none
          rows := s.rows ++ [insertedRow (c.job id)]
          queue := s.queue ++ [c.message id] }
  | overflow {n id} {c : Checked} (hid : rowOf s.rows id = none) :
      BulkMove s (.commit n id) (.replied .queueFull) { s with
          checked := update s.checked n none
          rows := complete (s.rows ++ [insertedRow (c.job id)]) id }
  | close {a m queue} (hidle : s.worker = .idle) (hqueue : s.queue = m :: queue) :
      BulkMove s (.work a) .quiet { s with queue := queue, rows := complete s.rows m.jobID }
  | start {a m queue target rest} (hidle : s.worker = .idle) (hqueue : s.queue = m :: queue)
      (htargets : m.targets = target :: rest) : BulkMove s (.work a) .quiet
        { s with queue := queue, worker := .running ⟨m, target, rest, {}, .head⟩ }
  | advance {a j phase} (hj : s.worker = .running j) (hcost : phase.cost < j.phase.cost) :
      BulkMove s (.work a) .quiet (goto s j phase)
  | send {a j left uid} (hj : s.worker = .running j) (hphase : j.phase = .reading left)
      (hlive : s.objects j.target.ns j.target.name = some uid)
      (hpin : j.target.uid = "" ∨ uid = j.target.uid) : BulkMove s (.work a) .quiet { s with
          sent := s.sent ++ [⟨s.patches, j.msg.jobID, j.target⟩]
          patches := s.patches + 1
          worker := .running { j with phase := .patching left } }
  | settle {a j} (result : Option PatchError) (hj : s.worker = .running j) :
      BulkMove s (.work a) (settle s j result).1 (settle s j result).2
  | panic {a j} (hj : s.worker = .running j) :
      BulkMove s (.work a) (recoverPanic s j).1 (recoverPanic s j).2
  | abandon {a j} (hj : s.worker = .running j) (hcancelled : s.cancelled = true) :
      BulkMove s (.work a) .quiet (abandon s j)
  | stop {a} (hidle : s.worker = .idle) (hcancelled : s.cancelled = true) :
      BulkMove s (.work a) .quiet { s with worker := .stopped }
  | cancel : BulkMove s .cancel .quiet { s with cancelled := true }
  | create {ns name uid} (h : s.objects ns name = none) : BulkMove s (.create ns name uid) .quiet
        { s with objects := setObject s.objects ns name (some uid) }
  | delete {ns name} :
      BulkMove s (.delete ns name) .quiet { s with objects := setObject s.objects ns name none }
  | takeEffect {n p uid} (hp : p ∈ s.sent)
      (hlive : s.objects p.target.ns p.target.name = some uid) :
      BulkMove s (.takeEffect n) (.patched p.jobID uid)
        { s with sent := s.sent.filter fun q => q.number ≠ n }
  | drop {e} (n : ℕ) (he : ∀ a, e ≠ .work a) :
      BulkMove s e .quiet { s with sent := s.sent.filter fun q => q.number ≠ n }

variable {s : BulkSystem} {a : WorkAnswer} {j : RunningJob}

theorem endAttempt_move {left : ℕ} {err} (hj : s.worker = .running j)
    (hcs : 1 + 3 * left ≤ j.phase.cost) :
    BulkMove s (.work a) (endAttempt s j left err).1 (endAttempt s j left err).2 := by
  unfold endAttempt
  split
  · cases left with
    | zero => exact .settle _ hj
    | succ left =>
      have hbc : (Phase.backoff left err).cost < j.phase.cost := by
        change 3 + 3 * left < _
        omega
      exact .advance hj hbc
  · exact .settle _ hj

theorem workJob_move (hj : s.worker = .running j) :
    BulkMove s (.work a) (workJob s j a).1 (workJob s j a).2 := by
  unfold workJob
  split
  case h_1 hph =>
    split
    · exact .abandon hj ‹_›
    · exact .advance hj (by simp [hph])
  case h_2 left hph =>
    have hcs : 1 + 3 * left ≤ j.phase.cost := by simp [hph]
    split
    · exact .panic hj
    · exact endAttempt_move hj hcs
    · split
      · exact endAttempt_move hj hcs
      next uid hli =>
        unfold afterRead
        split
        · exact .settle _ hj
        · rename_i hpin
          split
          · exact .settle _ hj
          · refine .send hj hph hli ?_
            by_contra hne
            exact hpin (not_or.mp hne)
  case h_3 left hph =>
    split
    · exact .panic hj
    · exact endAttempt_move hj (by simp [hph])
    · exact .settle _ hj
  case h_4 left err hph =>
    split
    · exact .settle _ hj
    · exact .advance hj (by simp [hph])
  case h_5 hph =>
    split
    next h => exact .abandon hj h.1
    · exact .advance hj (by simp [hph])

theorem work_move : BulkMove s (.work a) (work s a).1 (work s a).2 := by
  unfold work
  split
  · exact .unemployed (.inl ‹_›)
  · exact workJob_move ‹_›
  next hidl =>
    split
    · rename_i h
      exact .stop hidl h.1
    · split
      · exact .unemployed (.inr ⟨hidl, ‹_›⟩)
      · rename_i m queue hq
        unfold startJob
        split
        · exact .close hidl hq
        · split
          · exact .close hidl hq
          · exact .start hidl hq ‹_›

theorem commit_move {n : ℕ} {id : Uuid} {c : Checked} (hc : s.checked n = some c) :
    BulkMove s (.commit n id) (commit { s with checked := update s.checked n none } c id).1
      (commit { s with checked := update s.checked n none } c id).2 := by
  unfold commit
  dsimp only
  split
  · exact .withdraw _
  next hfr =>
    have hid : rowOf s.rows id = none := by
      rw [← Option.not_isSome_iff_eq_none]
      exact fun h => hfr (.inl h)
    split
    · exact .accept hc hid
    · exact .overflow hid

theorem bulkReact_move (s : BulkSystem) (e : BulkEvent) :
    BulkMove s e (bulkReact s e).1 (bulkReact s e).2 := by
  cases e with
  | check n req =>
    simp only [bulkReact]
    split
    · exact .refuse _
    · exact .check ‹_›
  | commit n id =>
    simp only [bulkReact]
    split
    · exact .nothing fun _ => nofun
    · exact commit_move ‹_›
  | work a => exact work_move
  | cancel => exact .cancel
  | create ns name uid =>
    simp only [bulkReact]
    split
    · exact .create (Option.isNone_iff_eq_none.mp ‹_›)
    · exact .nothing fun _ => nofun
  | delete ns name => exact .delete
  | takeEffect n =>
    simp only [bulkReact]
    split
    · exact .nothing fun _ => nofun
    next p hp =>
      split
      · exact .drop n fun _ => nofun
      · exact .takeEffect (List.mem_of_find?_eq_some hp) ‹_›
  | lose n => exact .drop n fun _ => nofun

/-! ## A request and its objects, for runs on fixed inputs -/

def sampleObjects : String → String → Option String := fun ns name =>
  if ns = "default" ∧ name = "a" then some "u1"
  else if ns = "default" ∧ name = "b" then some "u2"
  else none

def sampleRequest : BulkRequest where
  user := some ⟨"admin", "admin", []⟩
  clusterID := "local"
  configured := true
  available := true
  inventory := some [⟨"u1", "default", "a", ⟨"SecretStore", "vault"⟩, by decide⟩,
      ⟨"u2", "default", "b", ⟨"SecretStore", "vault"⟩, by decide⟩]
  canPatch := fun _ => true
  targetUIDs := some ["u1", "u2"]
  action := .namespace
  scopeTarget := "default"

def sampleWork : BulkEvent := .work ⟨true, .object false, .applied, false⟩

def sampleAccepted : List BulkEvent := [.check 0 sampleRequest, .commit 0 1]

end KubeCenter.ExternalSecrets
