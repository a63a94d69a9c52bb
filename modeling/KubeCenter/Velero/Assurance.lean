import Mathlib.Data.List.Destutter
import Mathlib.Data.List.Sort
import Mathlib.Data.Prod.Lex
import Mathlib.Data.String.Basic
import KubeCenter.Store.BackupAssurance
import KubeCenter.Velero.Cron
import KubeCenter.Velero.Types

/-! # The backup freshness evaluator

`Evaluate` of `assurance.go`: from one collection cycle's evidence, the policies
and a time, the conditions that hold. -/
namespace KubeCenter.Velero

open Lib.Go Store

/-! ## Evidence and findings -/

inductive Collection where
  | ok
  | degraded
  | failed
  | unrecognized (text : String)
deriving DecidableEq

inductive FreshnessOutcome where
  | success
  | partial_
  | failure
  | inFlight
  | unknown
deriving DecidableEq

def phasePartiallyFailed : String := "PartiallyFailed"

def freshnessOutcomeOf (phase : String) : FreshnessOutcome :=
  match backupOutcomeOf phase with
  | .succeeded => .success
  | .failed => if phase = phasePartiallyFailed then .partial_ else .failure
  | .inProgress => .inFlight
  | .unknown => .unknown

/-- One collection cycle's evidence; `detected` is that of the Velero status. -/
structure Observation where
  clusterID : String
  collection : Collection
  failedLists : List String
  detected : Bool
  backups : List Backup
  schedules : List Schedule
  locations : Option (List BackupStorageLocation)
deriving DecidableEq

structure Subject where
  kind : AssuranceScopeKind
  namespace_ : String := ""
  name : String := ""
  uid : String := ""
deriving DecidableEq

structure Detail where
  lastOutcome : FreshnessOutcome
  lastSuccessAt : Option Time := none
  expectedRunAt : Option Time := none
  expectedRunKnown : Bool := false
  cronParseError : String := ""
  suppressedBy : String := ""
  storageLocation : String := ""
  bslMessage : String := ""
deriving DecidableEq

def suppressedByPaused : String := "paused"

structure Finding where
  subject : Subject
  policyID : Uuid
  condition : AssuranceCondition
  severity : AssuranceSeverity
  detail : Detail
  hold : Bool := false
deriving DecidableEq

/-! ## Policies -/

/-- Cluster scope first, then by id. -/
def policyKey (p : BackupAssurancePolicy) : ℕ ×ₗ ℕ :=
  toLex (if p.scopeKind = .cluster then 0 else 1, p.id.toNat)

def activePolicies (clusterID : String) (policies : List BackupAssurancePolicy) :
    List BackupAssurancePolicy :=
  (policies.filter fun p => p.enabled && p.clusterID = clusterID).insertionSort
    fun a b => policyKey a ≤ policyKey b

def collectionUnknown (subj : Subject) (p : BackupAssurancePolicy) : Finding where
  subject := subj
  policyID := p.id
  condition := .collectionUnknown
  severity := .warning
  detail := { lastOutcome := .unknown }

/-! ## Runs -/

def missing (obs : Observation) (resource : String) : Bool :=
  resource ∈ obs.failedLists || (resource = backupStorageLocationGVR && obs.locations.isNone) ||
    (obs.collection = .degraded && obs.failedLists.isEmpty)

def coversCluster (b : Backup) : Bool :=
  b.includedNamespaces.isEmpty || b.includedNamespaces.contains "*"

def coversNamespace (b : Backup) (ns : String) : Bool :=
  !b.excludedNamespaces.contains ns && (coversCluster b || b.includedNamespaces.contains ns)

def runTimestamp (b : Backup) : Option Time := b.completionTime <|> b.startTime

def maxClockSkew : Duration := 5 * minute

def FreshnessOutcome.counts (o : FreshnessOutcome) (partialIsSuccess : Bool) : Bool :=
  o = .success || (o = .partial_ && partialIsSuccess)

/-- Without a believable timestamp a run that would reset the clock is unknown. -/
def effectiveOutcome (b : Backup) (now : Time) (partialIsSuccess : Bool) : FreshnessOutcome :=
  let o := freshnessOutcomeOf b.phase
  if o.counts partialIsSuccess then
    match runTimestamp b with
    | none => .unknown
    | some ts => if ts > now + maxClockSkew then .unknown else o
  else o

/-- The newest run with a terminal outcome, the last counting success, whether a run is in flight
and whether any outcome could be read. -/
structure RunsSeen where
  newest : Option (Backup × FreshnessOutcome) := none
  lastSuccess : Option Time := none
  inFlight : Bool := false
  known : Bool := false
deriving DecidableEq

def newestRun (newest : Option (Backup × FreshnessOutcome)) (b : Backup) (o : FreshnessOutcome) :
    Option (Backup × FreshnessOutcome) :=
  match newest with
  | none => some (b, o)
  | some (n, _) => if newerRun b n then some (b, o) else newest

/-- The later of two times, if there are any. -/
def laterOf (last ts : Option Time) : Option Time :=
  match last, ts with
  | none, ts => ts
  | last, none => last
  | some last, some ts => some (if ts > last then ts else last)

def RunsSeen.add (now : Time) (partialIsSuccess : Bool) (r : RunsSeen) (b : Backup) : RunsSeen :=
  let o := effectiveOutcome b now partialIsSuccess
  match o with
  | .unknown => r
  | .inFlight => { r with inFlight := true, known := true }
  | _ =>
    { r with
      newest := newestRun r.newest b o
      lastSuccess :=
        if o.counts partialIsSuccess then laterOf r.lastSuccess (runTimestamp b)
        else r.lastSuccess
      known := true }

def runsSeen (now : Time) (partialIsSuccess : Bool) (runs : List Backup) : RunsSeen :=
  runs.foldl (RunsSeen.add now partialIsSuccess) {}

/-! ## One subject -/

def RunsSeen.base (r : RunsSeen) : Detail where
  lastOutcome :=
    match r.newest with
    | some (_, o) => o
    | none => if r.inFlight then .inFlight else .unknown
  lastSuccessAt := r.lastSuccess

/-- The one it names, or the default of its namespace, the first by name if there are several. -/
def chooseLocation (s : Schedule) (bsl : Option BackupStorageLocation)
    (l : BackupStorageLocation) : Option BackupStorageLocation :=
  if l.namespace_ ≠ s.namespace_ then bsl
  else if s.storageLocation ≠ "" then if l.name = s.storageLocation then some l else bsl
  else if l.default_ && (bsl.all fun b => l.name < b.name) then some l
  else bsl

def location (obs : Observation) (p : BackupAssurancePolicy) (subj : Subject) (s : Schedule)
    (base : Detail) : List Finding :=
  let bsl := (obs.locations.getD []).foldl (chooseLocation s) none
  if bsl.any (·.phase = "Available") then []
  else
    let d :=
      match bsl with
      | none => { base with storageLocation := s.storageLocation }
      | some l => { base with storageLocation := l.name, bslMessage := l.message }
    [⟨subj, p.id, .locationUnavailable, .critical, d, false⟩]

def locationFindings (obs : Observation) (p : BackupAssurancePolicy) (subj : Subject)
    (s : Option Schedule) (base : Detail) : List Finding :=
  match s with
  | none => []
  | some s => location obs p subj s base

/-- At the reference point or the creation of the schedule, but not before the lookback. -/
def expectedRunAnchor (now : Time) (s : Schedule) (ref : Option Time) : Time :=
  let anchor := now - expectedRunLookback
  let anchor :=
    match ref with
    | some ref => if ref > anchor then ref else anchor
    | none => anchor
  if s.created > anchor then s.created else anchor

/-- Whether a run expected since `ref` and older than the grace period was missed, with the detail.
When it is not computable, max age and grace are the rule. -/
def expectedRun (lib : Libraries) (now : Time) (p : BackupAssurancePolicy) (s : Schedule)
    (ref : Option Time) (d : Detail) : Bool × Detail :=
  match parseCron lib s.schedule with
  | .error err => (true, { d with cronParseError := err })
  | .ok sched =>
    let anchor := expectedRunAnchor now s ref
    match expectedRunsSince sched anchor now maxExpectedRunSteps with
    | none => (true, d)
    | some last =>
      let d := { d with expectedRunKnown := true }
      if last = zeroTime then (false, d)
      else
        let d := { d with expectedRunAt := some last }
        match expectedRunsSince sched anchor (now - p.grace - 1) maxExpectedRunSteps with
        | none => (true, d)
        | some missed => (missed ≠ zeroTime, d)

/-- The last counting success, or the creation of a schedule that never had one. -/
def ageReference (r : RunsSeen) (s : Option Schedule) : Option Time :=
  match r.lastSuccess, s with
  | some t, _ => some t
  | none, some s => if s.created = zeroTime then none else some s.created
  | none, none => none

/-- Without a cron expression every run counts as missed. -/
def missedRun (lib : Libraries) (now : Time) (p : BackupAssurancePolicy) (s : Option Schedule)
    (ref : Option Time) (d : Detail) : Bool × Detail :=
  match s with
  | none => (true, d)
  | some s => if s.schedule ≠ "" then expectedRun lib now p s ref d else (true, d)

def ageFindings (lib : Libraries) (now : Time) (p : BackupAssurancePolicy) (subj : Subject)
    (runs : List Backup) (s : Option Schedule) (r : RunsSeen) : List Finding :=
  let ref := ageReference r s
  let missed := missedRun lib now p s ref r.base
  if (ref.all fun t => now.sub t > wrapInt64 (p.maxAge + p.grace)) && missed.1 then
    let c : AssuranceCondition :=
      if s.any (·.lastBackup.isNone) && runs.isEmpty then .neverRun else .overdue
    let held := s.any (·.paused)
    let suppressedBy := if held then suppressedByPaused else missed.2.suppressedBy
    [⟨subj, p.id, c, .warning, { missed.2 with suppressedBy }, held⟩]
  else []

def outcomeFindings (p : BackupAssurancePolicy) (subj : Subject) (r : RunsSeen) : List Finding :=
  match r.newest with
  | some (_, .failure) => [⟨subj, p.id, .failed, .critical, r.base, false⟩]
  | some (_, .partial_) =>
    if p.treatPartialAs = .success then []
    else [⟨subj, p.id, .partiallyFailed, .warning, r.base, false⟩]
  | _ => []

def pausedFindings (p : BackupAssurancePolicy) (subj : Subject) (s : Option Schedule)
    (r : RunsSeen) : List Finding :=
  if s.any (·.paused) && p.alertOnPaused then
    [⟨subj, p.id, .paused, .warning, r.base, false⟩]
  else []

section

variable (lib : Libraries) (obs : Observation) (now : Time) (p : BackupAssurancePolicy)

/-- `evaluator.subject`; there is a schedule for a schedule subject only. -/
def evaluateSubject (subj : Subject) (runs : List Backup) (s : Option Schedule) : List Finding :=
  let r := runsSeen now (p.treatPartialAs = .success) runs
  let out := pausedFindings p subj s r ++ locationFindings obs p subj s r.base
  if !runs.isEmpty && !r.known then
    out ++ [⟨subj, p.id, .collectionUnknown, .warning, r.base, false⟩]
  else out ++ outcomeFindings p subj r ++ ageFindings lib now p subj runs s r

/-! ## All policies -/

/-- `evaluator.schedule`. A schedule that is not there has no findings. -/
def evaluateSchedule : List Finding :=
  if missing obs scheduleGVR then
    [collectionUnknown ⟨.schedule, p.scopeNamespace, p.scopeName, ""⟩ p]
  else
    match obs.schedules.find? fun s => s.namespace_ = p.scopeNamespace && s.name = p.scopeName with
    | none => []
    | some s =>
      let subj : Subject := ⟨.schedule, s.namespace_, s.name, s.uid⟩
      if missing obs backupGVR || missing obs backupStorageLocationGVR then
        [collectionUnknown subj p]
      else
        let label := scheduleLabelValue lib.sha256Hex s.name
        let runs := obs.backups.filter fun b =>
          b.namespace_ = s.namespace_ && b.scheduleName = label
        evaluateSubject lib obs now p subj runs (some s)

/-- `evaluator.policy`. -/
def evaluatePolicy : List Finding :=
  match p.scopeKind with
  | .schedule => evaluateSchedule lib obs now p
  | .namespace_ =>
    let subj : Subject := { kind := .namespace_, namespace_ := p.scopeNamespace }
    if missing obs backupGVR then [collectionUnknown subj p]
    else
      evaluateSubject lib obs now p subj
        (obs.backups.filter (coversNamespace · p.scopeNamespace)) none
  | .cluster =>
    let subj : Subject := { kind := .cluster }
    if missing obs backupGVR then [collectionUnknown subj p]
    else evaluateSubject lib obs now p subj (obs.backups.filter coversCluster) none

end

def Finding.identity (f : Finding) : List String :=
  [f.subject.kind.text, f.subject.namespace_, f.subject.name, f.subject.uid, f.condition.text]

def Finding.sortKey (f : Finding) : List String ×ₗ ℕ := toLex (f.identity, f.policyID.toNat)

def normalizeFindings (fs : List Finding) : List Finding :=
  (fs.insertionSort fun a b => a.sortKey ≤ b.sortKey).destutter fun a b =>
    ¬(a.subject = b.subject ∧ a.condition = b.condition)

def evaluate (lib : Libraries) (obs : Observation) (policies : List BackupAssurancePolicy)
    (now : Time) : List Finding :=
  match activePolicies obs.clusterID policies with
  | [] => []
  | first :: rest =>
    if (obs.collection ≠ .ok && obs.collection ≠ .degraded) || !obs.detected then
      [collectionUnknown { kind := .cluster } first]
    else normalizeFindings ((first :: rest).flatMap (evaluatePolicy lib obs now))

end KubeCenter.Velero
