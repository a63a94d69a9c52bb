import KubeCenter.Changes.Service

/-! # Verification of a completed receipt

The checks one `VerifyOnce` poll computes from its row and one live read per object, and the state
they fold into. -/
namespace KubeCenter.Changes
open Lib.Go Diagnostics Store List

def verificationWindow : Duration := 120 * second

def verifyRetryAfterSeconds : Nat := 5

def checkIDRolloutComplete : String := "workload.rollout-complete"

def reasonRolloutComplete : String := reasonOK
def reasonRolloutInProgress : String := "rollout_in_progress"
def reasonKindNotSupported : String := "kind_not_supported"
def reasonNotFound : String := "not_found"
def reasonTargetRecreated : String := "target_recreated"
def reasonReadForbidden : String := "read_forbidden"
def reasonWindowExpired : String := "window_expired"
def reasonIdentityUnknown : String := "identity_unknown"
def reasonOutcomeUnrecorded : String := "outcome_unrecorded"
def reasonStrategyNotSupported : String := "strategy_not_supported"
def reasonReadFailed : String := reasonSourceUnavailable

/-- `none` is a field that is absent or of another type. -/
structure Workload where
  group : String
  version : String
  kind : String
  name : String
  namespace_ : String
  uid : String
  generation : Int
  replicas : Option Int
  updateStrategyType : Option String
  partition : Option Int
  statusInts : List (String × Int)
  statusStrings : List (String × String)
  conditions : List (String × String)
deriving DecidableEq

inductive LiveRead where
  | notFound
  | forbidden
  | failed
  | live (obj : Workload)
deriving DecidableEq

structure VerificationResult where
  state : VerificationState
  checks : List CheckResult
  retryAfterSeconds : Nat
  persisted : Bool
deriving DecidableEq

def newCheck (src : SourceRef) (now : Time) (status : CheckStatus) (reason : String)
    (sev : Severity) (message detail : String) : CheckResult where
  checkID := checkIDRolloutComplete
  status := status
  severity := sev
  reason := reason
  message := message
  detail := detail
  source := src
  observedAt := now

/-! ## Rollout postconditions -/

def specReplicas (obj : Workload) : Int := obj.replicas.getD 1
def statusInt (obj : Workload) (field : String) : Int := (obj.statusInts.lookup field).getD 0
def statusString (obj : Workload) (field : String) : String :=
  (obj.statusStrings.lookup field).getD ""
def conditionStatus (obj : Workload) (condType : String) : String :=
  (obj.conditions.lookup condType).getD ""
def orUnset (s : String) : String := if s = "" then "<unset>" else s

structure Predicate where
  ok : Bool
  detail : String

/-- A clause `name value rel name value`, as every evaluator prints it. -/
def clause (ok : Bool) (left : String) (l : Int) (rel right : String) (r : Int) : Predicate :=
  ⟨ok, left ++ " " ++ toString l ++ " " ++ rel ++ " " ++ right ++ " " ++ toString r⟩

inductive Evaluation where
  | preds (ps : List Predicate)
  | unsupported (detail : String)

def observedClause (obj : Workload) : Predicate :=
  let og := statusInt obj "observedGeneration"
  clause (og ≥ obj.generation) "observedGeneration" og ">=" "generation" obj.generation

def evaluateDeployment (obj : Workload) : Evaluation :=
  let replicas := specReplicas obj
  let total := statusInt obj "replicas"
  let updated := statusInt obj "updatedReplicas"
  let available := statusInt obj "availableReplicas"
  let availCond := conditionStatus obj "Available"
  .preds [observedClause obj,
    clause (updated == replicas) "updatedReplicas" updated "==" "replicas" replicas,
    clause (total == updated) "status.replicas" total "==" "updatedReplicas" updated,
    clause (available ≥ updated) "availableReplicas" available ">=" "updatedReplicas" updated,
    ⟨availCond == "True", "condition Available=" ++ orUnset availCond⟩]

def onDelete (obj : Workload) : Bool := obj.updateStrategyType == some "OnDelete"

def onDeleteDetail : String :=
  "spec.updateStrategy.type=OnDelete: pods are replaced only when deleted"

def evaluateStatefulSet (obj : Workload) : Evaluation :=
  if onDelete obj then .unsupported onDeleteDetail else
  let replicas := specReplicas obj
  let total := statusInt obj "replicas"
  let updated := statusInt obj "updatedReplicas"
  let ready := statusInt obj "readyReplicas"
  let partition := obj.partition.getD 0
  let current := statusString obj "currentRevision"
  let update := statusString obj "updateRevision"
  let common := [observedClause obj,
    clause (total == replicas) "status.replicas" total "==" "replicas" replicas,
    clause (ready ≥ replicas) "readyReplicas" ready ">=" "replicas" replicas]
  .preds (common ++ if partition > 0 then
      [⟨updated ≥ wrapInt64 (replicas - partition), "updatedReplicas " ++ toString updated ++
        " >= replicas " ++ toString replicas ++ " - partition " ++ toString partition⟩]
    else
      [clause (updated == replicas) "updatedReplicas" updated "==" "replicas" replicas,
        ⟨current == update, "currentRevision " ++ orUnset current ++ " == updateRevision " ++
          orUnset update⟩])

def evaluateDaemonSet (obj : Workload) : Evaluation :=
  if onDelete obj then .unsupported onDeleteDetail else
  let desired := statusInt obj "desiredNumberScheduled"
  let current := statusInt obj "currentNumberScheduled"
  let updated := statusInt obj "updatedNumberScheduled"
  let available := statusInt obj "numberAvailable"
  let ready := statusInt obj "numberReady"
  let unavailable := statusInt obj "numberUnavailable"
  .preds [observedClause obj,
    clause (updated == desired) "updatedNumberScheduled" updated "==" "desiredNumberScheduled"
      desired,
    clause (current == desired) "currentNumberScheduled" current "==" "desiredNumberScheduled"
      desired,
    clause (available ≥ desired) "numberAvailable" available ">=" "desiredNumberScheduled" desired,
    clause (ready ≥ desired) "numberReady" ready ">=" "desiredNumberScheduled" desired,
    ⟨unavailable == 0, "numberUnavailable " ++ toString unavailable ++ " == 0"⟩]

def workloadEvaluator (kind : String) : Option (Workload → Evaluation) :=
  if kind = "Deployment" then some evaluateDeployment
  else if kind = "StatefulSet" then some evaluateStatefulSet
  else if kind = "DaemonSet" then some evaluateDaemonSet
  else none

def supportedWorkload (group kind : String) : Bool :=
  group == "apps" && (workloadEvaluator kind).isSome

def unsupportedKind (src : SourceRef) (now : Time) : CheckResult :=
  newCheck src now .inconclusive reasonKindNotSupported .info
    ("no rollout postcondition is defined for " ++
      (if src.kind = "" then "this kind" else src.kind) ++
      "; the apply was accepted but not verified") ""

def rolloutSource (obj : Workload) (src : SourceRef) : SourceRef :=
  let unset := src.group = "" && src.version = ""
  { src with
    kind := if src.kind = "" then obj.kind else src.kind
    group := if unset then obj.group else src.group
    version := if unset then obj.version else src.version
    name := if src.name = "" then obj.name else src.name
    namespace_ := if src.namespace_ = "" then obj.namespace_ else src.namespace_
    uid := if obj.uid = "" then src.uid else obj.uid }

def checkRollout (obj : Workload) (src : SourceRef) (now : Time) : CheckResult :=
  let src := rolloutSource obj src
  let evidence := [(obj.kind ++ "/" ++ obj.name, src.uid)]
  match (if obj.group = "apps" then workloadEvaluator obj.kind else none) with
  | none => unsupportedKind src now
  | some evaluate =>
    match evaluate obj with
    | .unsupported detail =>
      { newCheck src now .inconclusive reasonStrategyNotSupported .info
          ("the rollout postcondition cannot be observed under this update strategy; " ++
            "the apply was accepted but not verified") detail with evidence := evidence }
    | .preds [] => unsupportedKind src now
    | .preds ps =>
      let failing := ps.filter fun p => !p.ok
      if failing.isEmpty then
        { newCheck src now .pass reasonRolloutComplete .info "rollout complete"
            ("; ".intercalate (ps.map (·.detail))) with evidence := evidence }
      else
        { newCheck src now .warn reasonRolloutInProgress .warning "rollout not complete"
            ("; ".intercalate (failing.map (·.detail))) with evidence := evidence }

/-! ## One poll -/

def verifiable (o : ReceiptObject) : Bool :=
  o.action != .failed || o.errorClass == errorClassIndeterminate

def unrecordedOutcome (r : ChangeReceipt) (index : Nat) (now : Time) : CheckResult :=
  newCheck { clusterID := r.clusterID } now .inconclusive reasonOutcomeUnrecorded .warning
    (if r.state = .unknown then
      "no outcome was recorded for this document; the original apply was interrupted and " ++
        "the object may or may not exist"
    else
      "no outcome was recorded for this document; the apply stopped before reaching it and " ++
        "nothing was applied for it")
    ("document index " ++ toString index)

def verifyObject (clusterID : String) (o : ReceiptObject) (read : LiveRead) (now : Time) :
    CheckResult :=
  let src : SourceRef :=
    ⟨clusterID, o.group, o.version, o.resource, o.kind, o.namespace_, o.name, o.uid⟩
  if !supportedWorkload o.group o.kind then unsupportedKind src now
  else if o.resource = "" || o.version = "" then
    { unsupportedKind src now with detail := "no resource mapping was recorded for this object" }
  else if o.uid = "" then
    newCheck src now .inconclusive reasonIdentityUnknown .info
      ("the receipt holds no identity for this object, so a live read cannot be bound to " ++
        "what was applied") ""
  else match read with
  | .notFound => newCheck src now .fail reasonNotFound .critical "object no longer exists" ""
  | .forbidden => newCheck src now .inconclusive reasonReadForbidden .info
      "you may no longer read this object; its state could not be verified" ""
  | .failed => newCheck src now .inconclusive reasonReadFailed .info
      "reading the object failed; its state could not be verified" ""
  | .live obj =>
    if obj.uid ≠ "" && obj.uid ≠ o.uid then
      { newCheck src now .inconclusive reasonTargetRecreated .warning
          ("a different object now exists under this name; the receipt's evidence does not " ++
            "apply to it") "" with evidence := [(o.kind ++ "/" ++ o.name, obj.uid)] }
    else checkRollout obj src now

def isRetryable (c : CheckResult) : Bool :=
  (c.status == .warn && c.reason == reasonRolloutInProgress) ||
    (c.status == .inconclusive && c.reason == reasonReadFailed)

def freezeExpired (c : CheckResult) : CheckResult :=
  { c with
    status := .inconclusive
    reason := reasonWindowExpired
    severity := .warning
    message := "the postcondition was not satisfied within the verification window"
    detail := "last observation: " ++ c.message ++
      (if c.detail = "" then "" else " (" ++ c.detail ++ ")") }

def aggregateVerification (checks : List CheckResult) : VerificationState :=
  if checks = [] then .inconclusive
  else if checks.any (fun c => c.status == .fail) then .verificationFailed
  else if checks.any isRetryable then .verifying
  else if checks.all (fun c => c.status == .pass) then .verified
  else .inconclusive

def storedVerdict (r : ChangeReceipt) : VerificationResult :=
  ⟨r.verificationState, r.verification, 0, false⟩

def verificationChecks (r : ChangeReceipt) (completedAt : Time) (live : ReceiptObject → LiveRead)
    (now : Time) : List CheckResult :=
  let recorded := (r.objects.filter verifiable).map fun o => verifyObject r.clusterID o (live o) now
  let missing := (List.range r.documentCount).filter fun (i : Nat) =>
    !r.objects.any fun o => o.index == (i : Int)
  let checks := recorded ++ missing.map fun i => unrecordedOutcome r i now
  if now - completedAt > verificationWindow then
    checks.map fun c => if isRetryable c then freezeExpired c else c
  else checks

def evaluateReceipt (r : ChangeReceipt) (completedAt : Time) (live : ReceiptObject → LiveRead)
    (now : Time) : VerificationResult :=
  let checks := verificationChecks r completedAt live now
  let state := aggregateVerification checks
  ⟨state, checks, if state = .verifying then verifyRetryAfterSeconds else 0, false⟩

/-- What `VerifyOnce` answers from the row alone, without a read. -/
def verifyFromRow (r : ChangeReceipt) : Option VerificationResult :=
  if r.verificationState.isFinal then some (storedVerdict r)
  else if r.completedAt.isNone || !r.state.isTerminal then some ⟨.pending, [], 0, false⟩
  else none

/-! ## What a verdict says -/

variable {obj : Workload} {src : SourceRef} {now : Time} {o : ReceiptObject} {read : LiveRead}

def RolledOut (obj : Workload) : Prop :=
  let status := statusInt obj
  obj.group = "apps" ∧ obj.generation ≤ status "observedGeneration" ∧
  ((obj.kind = "Deployment" ∧ status "updatedReplicas" = specReplicas obj ∧
      status "replicas" = status "updatedReplicas" ∧
      status "updatedReplicas" ≤ status "availableReplicas" ∧
      conditionStatus obj "Available" = "True") ∨
    (obj.kind = "StatefulSet" ∧ obj.updateStrategyType ≠ some "OnDelete" ∧
      status "replicas" = specReplicas obj ∧ specReplicas obj ≤ status "readyReplicas" ∧
      if 0 < obj.partition.getD 0 then
        wrapInt64 (specReplicas obj - obj.partition.getD 0) ≤ status "updatedReplicas"
      else status "updatedReplicas" = specReplicas obj ∧
        statusString obj "currentRevision" = statusString obj "updateRevision") ∨
    (obj.kind = "DaemonSet" ∧ obj.updateStrategyType ≠ some "OnDelete" ∧
      status "updatedNumberScheduled" = status "desiredNumberScheduled" ∧
      status "currentNumberScheduled" = status "desiredNumberScheduled" ∧
      status "desiredNumberScheduled" ≤ status "numberAvailable" ∧
      status "desiredNumberScheduled" ≤ status "numberReady" ∧ status "numberUnavailable" = 0))

structure Bound (o : ReceiptObject) : Prop where
  group : o.group = "apps"
  kind : o.kind ∈ ["Deployment", "StatefulSet", "DaemonSet"]
  resource : o.resource ≠ ""
  version : o.version ≠ ""
  uid : o.uid ≠ ""

@[local simp] def Evaluation.Holds : Evaluation → Prop
  | .preds ps => ps ≠ [] ∧ ∀ p ∈ ps, p.ok = true
  | .unsupported _ => False

theorem checkRollout_status : (checkRollout obj src now).status ≠ .fail ∧
    ((checkRollout obj src now).status = .pass ↔ obj.group = "apps" ∧
      ∃ evaluate, workloadEvaluator obj.kind = some evaluate ∧ (evaluate obj).Holds) := by
  unfold checkRollout
  by_cases hg : obj.group = "apps"
  · cases he : workloadEvaluator obj.kind with
    | none => simp [hg, unsupportedKind, newCheck]
    | some evaluate =>
      rcases hev : evaluate obj with ps | detail
      · rcases ps with - | ⟨p, ps⟩
        · simp [hg, hev, unsupportedKind, newCheck]
        · simp only [hg, if_true, hev, newCheck]
          split <;> simp_all
      · simp [hg, hev, newCheck]
  · simp [hg, unsupportedKind, newCheck]

theorem checkRollout_pass_iff : (checkRollout obj src now).status = .pass ↔ RolledOut obj := by
  rw [checkRollout_status.2, RolledOut]
  refine and_congr_right fun _ => ?_
  by_cases hd : obj.kind = "Deployment"
  · simp [hd, workloadEvaluator, evaluateDeployment, observedClause, clause]
  by_cases hs : obj.kind = "StatefulSet"
  · by_cases ho : obj.updateStrategyType = some "OnDelete"
    · simp [hs, ho, workloadEvaluator, evaluateStatefulSet, onDelete]
    · simp [hs, ho, workloadEvaluator, evaluateStatefulSet, onDelete, observedClause, clause]
      split <;> simp
  by_cases hm : obj.kind = "DaemonSet"
  · by_cases ho : obj.updateStrategyType = some "OnDelete" <;>
      simp [hm, ho, workloadEvaluator, evaluateDaemonSet, onDelete, observedClause, clause]
  · simp [hd, hs, hm, workloadEvaluator]

theorem supportedWorkload_iff {group kind : String} : supportedWorkload group kind = true ↔
    group = "apps" ∧ kind ∈ ["Deployment", "StatefulSet", "DaemonSet"] := by
  unfold supportedWorkload workloadEvaluator
  split_ifs <;> simp_all

/-- The rollout of the object that was applied is complete, or the object is gone. -/
theorem verifyObject_status (clusterID : String) :
    ((verifyObject clusterID o read now).status = .pass ↔ Bound o ∧
      ∃ obj, read = .live obj ∧ (obj.uid = "" ∨ obj.uid = o.uid) ∧ RolledOut obj) ∧
    ((verifyObject clusterID o read now).status = .fail ↔ Bound o ∧ read = .notFound) := by
  by_cases hb : Bound o
  · have hsup := supportedWorkload_iff.mpr ⟨hb.group, hb.kind⟩
    cases read with
    | live obj =>
      by_cases hu : obj.uid = "" ∨ obj.uid = o.uid
      · have hsm : ¬(obj.uid ≠ "" ∧ obj.uid ≠ o.uid) := by tauto
        simp [verifyObject, hsup, hb, hb.resource, hb.version, hb.uid, hu, hsm,
          checkRollout_pass_iff, checkRollout_status.1]
      · have hot : obj.uid ≠ "" ∧ obj.uid ≠ o.uid := by tauto
        simp [verifyObject, hsup, hb.resource, hb.version, hb.uid, hot, newCheck]
    | notFound | forbidden | failed =>
      simp [verifyObject, hsup, hb, hb.resource, hb.version, hb.uid, newCheck]
  · have hno : (verifyObject clusterID o read now).status = .inconclusive := by
      unfold verifyObject
      split_ifs with hs hr hu
      · rfl
      · rfl
      · rfl
      · refine absurd ?_ hb
        simp at hs hr
        have := supportedWorkload_iff.mp hs
        exact ⟨this.1, this.2, hr.1, hr.2, hu⟩
    simp [hno, hb]

variable {c : CheckResult} {checks : List CheckResult}

theorem aggregateVerification_verified_iff : aggregateVerification checks = .verified ↔
    checks ≠ [] ∧ ∀ c ∈ checks, c.status = .pass := by
  unfold aggregateVerification
  constructor
  · intro h
    split_ifs at h with hnil _ _ hps
    exact ⟨hnil, by simpa using hps⟩
  · rintro ⟨hne, hps⟩
    have hfl : checks.any (fun c => c.status == .fail) = false :=
      any_eq_false.mpr fun c hc => by simp [hps c hc]
    have hrt : checks.any isRetryable = false :=
      any_eq_false.mpr fun c hc => by simp [isRetryable, hps c hc]
    have hall : checks.all (fun c => c.status == .pass) = true := by simpa using hps
    simp [hne, hfl, hrt, hall]

theorem aggregateVerification_failed_iff : aggregateVerification checks = .verificationFailed ↔
    ∃ c ∈ checks, c.status = .fail := by
  unfold aggregateVerification
  split_ifs <;> simp_all

theorem exists_isRetryable_of_verifying (h : aggregateVerification checks = .verifying) :
    ∃ c ∈ checks, isRetryable c = true := by
  unfold aggregateVerification at h
  split_ifs at h with _ _ hrt
  exact any_eq_true.mp hrt

theorem isRetryable_freezeExpired : isRetryable (freezeExpired c) = false := by
  have hne : reasonWindowExpired ≠ reasonReadFailed := by decide
  simp [isRetryable, freezeExpired, hne]

theorem freezeExpired_status {s} (hs : s = .pass ∨ s = .fail) :
    (if isRetryable c then freezeExpired c else c).status = s ↔ c.status = s := by
  split
  next hr =>
    have hop : c.status = .warn ∨ c.status = .inconclusive := by
      simp only [isRetryable, Bool.or_eq_true, Bool.and_eq_true, beq_iff_eq] at hr
      exact hr.imp And.left And.left
    rcases hs with rfl | rfl <;> rcases hop with h | h <;> simp [h, freezeExpired]
  · rfl

variable {r : ChangeReceipt} {completedAt : Time} {live : ReceiptObject → LiveRead}

/-- What freezing keeps holds of a poll's checks when it holds of those from the recorded outcomes
and of those for the missing ones. -/
theorem forall_verificationChecks {P : CheckResult → Prop}
    (hP : ∀ c, P (if isRetryable c then freezeExpired c else c) ↔ P c) :
    (∀ c ∈ verificationChecks r completedAt live now, P c) ↔
      (∀ o ∈ r.objects, verifiable o = true → P (verifyObject r.clusterID o (live o) now)) ∧
      ∀ i < r.documentCount, (∀ o ∈ r.objects, o.index ≠ (i : Int)) →
        P (unrecordedOutcome r i now) := by
  have hfr : ∀ (expired : Prop) [Decidable expired] (checks : List CheckResult),
      (∀ c ∈ if expired then checks.map fun c => if isRetryable c then freezeExpired c else c
        else checks, P c) ↔ ∀ c ∈ checks, P c := by
    intro expired _ checks
    split
    · simp only [forall_mem_map, hP]
    · rfl
  rw [verificationChecks, hfr, forall_mem_append, forall_mem_map, forall_mem_map]
  simp [mem_filter]

/-- **A verdict never overstates.** A poll of a completed receipt answers `verified` exactly when
it made a check, every document has a recorded outcome and every one that may have reached the
cluster is a workload read as rolled out; `verification_failed` exactly when such a workload is
gone; after the window it asks for no other poll. -/
theorem evaluateReceipt_never_overstates (r : ChangeReceipt) (completedAt : Time)
    (live : ReceiptObject → LiveRead) (now : Time) :
    let verdict := evaluateReceipt r completedAt live now
    (verdict.state = .verified ↔ verdict.checks ≠ [] ∧
      (∀ i < r.documentCount, ∃ o ∈ r.objects, o.index = (i : Int)) ∧
      ∀ o ∈ r.objects, verifiable o = true → Bound o ∧
        ∃ obj, live o = .live obj ∧ (obj.uid = "" ∨ obj.uid = o.uid) ∧ RolledOut obj) ∧
    (verdict.state = .verificationFailed ↔
      ∃ o ∈ r.objects, verifiable o = true ∧ Bound o ∧ live o = .notFound) ∧
    (verificationWindow < now - completedAt → verdict.state ≠ .verifying) := by
  intro verdict
  have hms : ∀ i, (unrecordedOutcome r i now).status = .inconclusive := fun _ => rfl
  refine ⟨?_, ?_, fun hexp hver => ?_⟩
  · rw [show verdict.state = .verified ↔ _ from aggregateVerification_verified_iff]
    refine and_congr_right fun _ => ?_
    rw [forall_verificationChecks fun c => freezeExpired_status (.inl rfl), and_comm]
    simp [hms, (verifyObject_status _).1]
  · rw [show verdict.state = .verificationFailed ↔ _ from aggregateVerification_failed_iff,
      ← not_iff_not]
    push Not
    rw [forall_verificationChecks fun c => not_congr (freezeExpired_status (.inr rfl))]
    simp [hms, (verifyObject_status _).2]
  · obtain ⟨c, hc, hrt⟩ := exists_isRetryable_of_verifying hver
    rw [verificationChecks, if_pos hexp, mem_map] at hc
    obtain ⟨c', _, rfl⟩ := hc
    split at hrt
    · rw [isRetryable_freezeExpired] at hrt
      cases hrt
    · contradiction

end KubeCenter.Changes
