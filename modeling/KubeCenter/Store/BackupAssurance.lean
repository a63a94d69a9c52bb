import KubeCenter.Lib.Go

/-! # Backup assurance policies and exceptions

The rows of `backup_assurance.go` and what may be stored. The kinds of scope,
condition and severity are types: the tables admit no other texts. -/
namespace KubeCenter.Store

open Lib.Go

inductive AssuranceScopeKind where
  | schedule
  | namespace_
  | cluster
deriving DecidableEq

def AssuranceScopeKind.text : AssuranceScopeKind → String
  | .schedule => "schedule"
  | .namespace_ => "namespace"
  | .cluster => "cluster"

inductive AssuranceCondition where
  | overdue
  | failed
  | partiallyFailed
  | paused
  | neverRun
  | locationUnavailable
  | collectionUnknown
deriving DecidableEq

def AssuranceCondition.text : AssuranceCondition → String
  | .overdue => "overdue"
  | .failed => "failed"
  | .partiallyFailed => "partially_failed"
  | .paused => "paused"
  | .neverRun => "never_run"
  | .locationUnavailable => "location_unavailable"
  | .collectionUnknown => "collection_unknown"

inductive AssuranceSeverity where
  | info
  | warning
  | critical
deriving DecidableEq

inductive TreatPartialAs where
  | success
  | failure
deriving DecidableEq

/-- A policy, without who wrote it and when. -/
structure BackupAssurancePolicy where
  id : Uuid
  clusterID : String
  scopeKind : AssuranceScopeKind
  scopeNamespace : String
  scopeName : String
  maxAge : Duration
  grace : Duration
  treatPartialAs : TreatPartialAs
  alertOnPaused : Bool
  enabled : Bool
deriving DecidableEq

/-- The seconds of a duration fit in an `int32`. -/
def fitsInt32Seconds (d : Duration) : Bool := -2 ^ 31 ≤ d.tdiv second && d.tdiv second ≤ 2 ^ 31 - 1

/-- The errors a caller tells apart; the refusals carry their message. -/
inductive AssuranceError where
  | policyInvalid (msg : String)
  | policyNotFound
  | exceptionInvalid (msg : String)
  | exceptionNotOpen
  | observationInvalid (msg : String)
  | openContended
  | resolutionInvalid (msg : String)
  | deliveryNotPending
  | refused (msg : String)
  | contextEnded
  | database
deriving DecidableEq

/-- What is wrong with the shape of a policy's scope. -/
def scopeProblem (p : BackupAssurancePolicy) : Option String :=
  match p.scopeKind with
  | .schedule =>
    if p.scopeNamespace = "" || p.scopeName = "" then
      some "schedule scope requires a namespace and a name"
    else none
  | .namespace_ =>
    if p.scopeNamespace = "" || p.scopeName ≠ "" then
      some "namespace scope requires a namespace and no name"
    else none
  | .cluster =>
    if p.scopeNamespace ≠ "" || p.scopeName ≠ "" then
      some "cluster scope takes no namespace or name"
    else none

/-- The checks of the scope kind and of `treatPartialAs` are their types. -/
def validatePolicy (p : BackupAssurancePolicy) : Except AssuranceError Unit :=
  if p.id = Uuid.nil then .error (.policyInvalid "id is required")
  else if p.clusterID = "" then .error (.policyInvalid "cluster id is required")
  else
    match scopeProblem p with
    | some msg => .error (.policyInvalid msg)
    | none =>
      if p.maxAge.tmod second ≠ 0 || p.grace.tmod second ≠ 0 then
        .error (.policyInvalid "max age and grace must be whole seconds")
      else if !fitsInt32Seconds p.maxAge || !fitsInt32Seconds p.grace then
        .error (.policyInvalid "max age and grace must fit in a 32-bit count of seconds")
      else .ok ()

/-- Written after `validatePolicy`, and within the floors of the table. -/
structure BackupAssurancePolicy.Stored (p : BackupAssurancePolicy) : Prop where
  valid : validatePolicy p = .ok ()
  maxAge : 300 * second ≤ p.maxAge
  grace : 0 ≤ p.grace

theorem fits_of_valid {p} (h : validatePolicy p = .ok ()) :
    fitsInt32Seconds p.maxAge = true ∧ fitsInt32Seconds p.grace = true := by
  unfold validatePolicy at h
  split at h
  · cases h
  · split at h
    · cases h
    · split at h
      · cases h
      · split at h
        · cases h
        · split at h
          · cases h
          next hft => simpa using hft

theorem lt_of_fits {d : Int} (hd : 0 ≤ d) (h : fitsInt32Seconds d = true) :
    d < 2 ^ 31 * 1000000000 := by
  have hsc : second = (1000000000 : Int) := rfl
  simp only [fitsInt32Seconds, hsc, Bool.and_eq_true, decide_eq_true_eq,
    Int.tdiv_eq_ediv_of_nonneg hd] at h
  omega

/-- The age limit of a stored policy is computed without overflow. -/
theorem BackupAssurancePolicy.Stored.exceeds {p : BackupAssurancePolicy} (h : p.Stored)
    (now ref : Time) :
    now.sub ref > wrapInt64 (p.maxAge + p.grace) ↔ p.maxAge + p.grace < now - ref := by
  obtain ⟨hmaxAge, hgr⟩ := fits_of_valid h.valid
  have hage : (0 : Int) ≤ p.maxAge := le_trans (by decide) h.maxAge
  have hmaxAge := lt_of_fits hage hmaxAge
  have hgr := lt_of_fits h.grace hgr
  have hnn : (0 : Int) ≤ p.grace := h.grace
  have hwr : wrapInt64 (p.maxAge + p.grace) = p.maxAge + p.grace := by
    have hbn : (p.maxAge + p.grace : Int) < 2 ^ 63 := by grind
    show ((p.maxAge + p.grace : Int) + 2 ^ 63) % 2 ^ 64 - 2 ^ 63 = (p.maxAge + p.grace : Int)
    rw [Int.emod_eq_of_lt (by grind) (by grind)]
    grind
  rw [hwr, gt_iff_lt]
  unfold Time.sub
  rw [lt_max_iff, lt_min_iff]
  constructor
  · rintro (hlow | ⟨-, h⟩)
    · grind
    · exact h
  · intro h
    exact .inr ⟨by grind, h⟩

end KubeCenter.Store
