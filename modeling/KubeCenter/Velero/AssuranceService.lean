import KubeCenter.Store.BackupAssuranceDelivery
import KubeCenter.Velero.Assurance

/-! # The assurance service

`reconcile` and `drainDeliveries` of `assurance_service.go`, as programs over the
store's calls. What the service only logs, the refusals it skips, is part of the
result. -/
namespace KubeCenter.Velero

open Lib Go Store

abbrev ServiceProgram (α : Type) := AssuranceProgram Detail (Except AssuranceError α)

/-! ## Reconciling -/

/-- The identity of a condition within a cluster. The policy is not part of it. -/
structure ExceptionKey where
  subject : Subject
  condition : AssuranceCondition
deriving DecidableEq

def keyOfException (e : BackupAssuranceException Detail) : ExceptionKey where
  subject := ⟨e.subjectKind, e.subjectNamespace, e.subjectName, e.subjectUID⟩
  condition := e.condition

def Finding.key (f : Finding) : ExceptionKey := ⟨f.subject, f.condition⟩

def openByKey (rows : List (BackupAssuranceException Detail)) (key : ExceptionKey) :
    Option (BackupAssuranceException Detail) :=
  rows.reverse.find? (keyOfException · = key)

def encodedDetail (f : Finding) : AssuranceDetail Detail := .object (some f.detail) none

def exceptionOf (clusterID : String) (now : Time) (id : Uuid) (f : Finding) :
    BackupAssuranceException Detail where
  id := id
  clusterID := clusterID
  policyID := f.policyID
  subjectKind := f.subject.kind
  subjectNamespace := f.subject.namespace_
  subjectName := f.subject.name
  subjectUID := f.subject.uid
  condition := f.condition
  severity := f.severity
  openedAt := now
  lastSuccessAt := f.detail.lastSuccessAt
  detail := encodedDetail f

/-- A row that was resolved in between is skipped. -/
def observe (id : Uuid) (now : Time) (f : Finding) : ServiceProgram (List AssuranceError) :=
  (observeException id ⟨now, f.severity, f.detail.lastSuccessAt, encodedDetail f⟩).bind fun
    | .ok () => .done (.ok [])
    | .error .exceptionNotOpen => .done (.ok [.exceptionNotOpen])
    | .error (.observationInvalid msg) => .done (.ok [.observationInvalid msg])
    | .error err => .done (.error err)

/-- The rows matched so far and what was skipped. -/
structure Progress where
  matched : List Uuid := []
  skipped : List AssuranceError := []
deriving DecidableEq

def Progress.observed (p : Progress) (id : Uuid) (now : Time) (f : Finding) :
    ServiceProgram Progress :=
  (observe id now f).andThen fun skipped => .done (.ok ⟨id :: p.matched, p.skipped ++ skipped⟩)

def Progress.skip (p : Progress) (err : AssuranceError) : Progress :=
  { p with skipped := p.skipped ++ [err] }

/-- One finding. A held one observes a row but never opens one. -/
def reconcileFinding (clusterID : String) (now : Time)
    (rows : List (BackupAssuranceException Detail)) (p : Progress) (f : Finding) :
    ServiceProgram Progress :=
  match openByKey rows f.key with
  | some e => p.observed e.id now f
  | none =>
    if f.hold then .done (.ok p)
    else
      (ask .newID).bind fun id =>
        (openExceptionAndEnqueue (exceptionOf clusterID now id f)).bind fun
          | .error .policyNotFound => .done (.ok (p.skip .policyNotFound))
          | .error .openContended => .done (.ok (p.skip .openContended))
          | .error (.exceptionInvalid msg) => .done (.ok (p.skip (.exceptionInvalid msg)))
          | .error err => .done (.error err)
          | .ok (got, true) => .done (.ok { p with matched := got.id :: p.matched })
          | .ok (got, false) => p.observed got.id now f

def assuranceResolutionConditionCleared : String := "condition_cleared"

def assuranceResolutionSubjectAbsent : String := "subject_absent"

def scheduleObserved (obs : Observation) (e : BackupAssuranceException Detail) : Bool :=
  obs.schedules.any fun s =>
    s.namespace_ = e.subjectNamespace && s.name = e.subjectName && s.uid = e.subjectUID

def resolutionReason (obs : Observation) (e : BackupAssuranceException Detail) : String :=
  if e.subjectKind = .schedule && !scheduleObserved obs e then assuranceResolutionSubjectAbsent
  else assuranceResolutionConditionCleared

def resolveUnmatched (now : Time) (obs : Observation) (matched : List Uuid) (_ : Unit)
    (e : BackupAssuranceException Detail) : ServiceProgram Unit :=
  if matched.contains e.id then .done (.ok ())
  else
    (resolveExceptionAndEnqueue e.id now (resolutionReason obs e)).andThen fun _ => .done (.ok ())

/-- The result is what was skipped. Rows are resolved only if the collection was ok. -/
def reconcile (clusterID : String) (now : Time) (obs : Observation) (findings : List Finding)
    (rows : List (BackupAssuranceException Detail)) : ServiceProgram (List AssuranceError) :=
  (Program.loop (reconcileFinding clusterID now rows) findings {}).andThen fun p =>
    if obs.collection ≠ .ok then .done (.ok p.skipped)
    else
      (Program.loop (resolveUnmatched now obs p.matched) rows ()).andThen fun _ =>
        .done (.ok p.skipped)

def reconcileTick (clusterID : String) (now : Time) (obs : Observation)
    (findings : List Finding) : ServiceProgram (List AssuranceError) :=
  (listOpenExceptions clusterID).andThen (reconcile clusterID now obs findings)

/-! ## Draining -/

def assuranceMaxDeliveryAttempts : ℕ := 5

def assuranceDeliveryBatch : ℕ := 50

def mark (id : Uuid) : EmitOutcome → ServiceProgram Unit
  | .delivered => markDelivered id
  | .error => markDeliveryFailed id assuranceMaxDeliveryAttempts
  | .notDelivered => markDeliveryFailed id assuranceMaxDeliveryAttempts

def deliver (_ : Unit) (j : AssuranceDeliveryJob Detail) : ServiceProgram Unit :=
  (ask .ctxErr).bind fun
    | true => .done (.error .contextEnded)
    | false =>
      (ask (.emitSync j)).bind fun outcome =>
        (mark j.delivery.id outcome).bind fun
          | .error .deliveryNotPending => .done (.ok ())
          | r => .done r

def drainDeliveries (clusterID : String) : ServiceProgram Unit :=
  (ask .ctxErr).bind fun
    | true => .done (.error .contextEnded)
    | false =>
      (claimPendingDeliveries clusterID assuranceMaxDeliveryAttempts
        assuranceDeliveryBatch).andThen fun jobs => Program.loop deliver jobs ()

/-! ## The calls they make -/

def Opening : AssuranceCall Detail → Prop
  | .insertOpen _ | .findOpen _ | .probeID _ | .probePolicy _ _ => True
  | .updateObserved _ _ | .probeState _ | .newID => True
  | _ => False

theorem only_openTransaction (e : BackupAssuranceException Detail) :
    (openTransaction e).Only Opening := by
  refine (Program.only_request trivial).andThen fun inserted => ?_
  cases inserted with
  | some row => trivial
  | none =>
    refine (Program.only_request trivial).andThen fun existing => ?_
    cases existing with
    | some row => trivial
    | none =>
      refine (Program.only_request trivial).andThen fun taken => ?_
      cases taken with
      | true => trivial
      | false =>
        refine (Program.only_request trivial).andThen fun there => ?_
        cases there with
        | true | false => trivial

theorem only_openAttempts (e : BackupAssuranceException Detail) (n : ℕ) :
    (openAttempts e n).Only Opening := by
  induction n with
  | zero => trivial
  | succ n ih =>
    refine (only_openTransaction e).andThen fun r => ?_
    cases r with
    | some r => trivial
    | none => exact ih

theorem only_openException (e : BackupAssuranceException Detail) :
    (openExceptionAndEnqueue e).Only Opening := by
  unfold openExceptionAndEnqueue
  split
  · trivial
  · exact only_openAttempts _ _

theorem only_observe (id : Uuid) (now : Time) (f : Finding) : (observe id now f).Only Opening := by
  have hobs : (observeException id
      ⟨now, f.severity, f.detail.lastSuccessAt, encodedDetail f⟩).Only Opening := by
    refine (Program.only_request trivial).andThen fun b => ?_
    cases b with
    | true => trivial
    | false =>
      refine (Program.only_request trivial).andThen fun state => ?_
      split
      · trivial
      · trivial
  refine hobs.bind fun r => ?_
  split
  · trivial
  · trivial
  · trivial
  · trivial

theorem only_observed (p : Progress) (id : Uuid) (now : Time) (f : Finding) :
    (p.observed id now f).Only Opening :=
  (only_observe id now f).andThen fun _ => trivial

theorem only_reconcileFinding (clusterID : String) (now : Time)
    (rows : List (BackupAssuranceException Detail)) (p : Progress) (f : Finding) :
    (reconcileFinding clusterID now rows p f).Only Opening := by
  unfold reconcileFinding
  split
  · exact only_observed p _ now f
  · split
    · trivial
    · refine (Program.only_request trivial).bind fun id => ?_
      refine (only_openException _).bind fun r => ?_
      split
      · trivial
      · trivial
      · trivial
      · trivial
      · trivial
      · exact only_observed p _ now f

theorem only_resolveException {P : AssuranceCall Detail → Prop} {id : Uuid} {time : Time}
    {reason : String} (h : P (.updateResolved id time reason)) :
    (resolveExceptionAndEnqueue id time reason).Only P := by
  unfold resolveExceptionAndEnqueue
  split
  · trivial
  · split
    · trivial
    · exact Program.only_request h

end KubeCenter.Velero
