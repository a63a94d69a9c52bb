import KubeCenter.Velero.Reconciliation

/-! # Findings the store accepts

What `validateOpenException` asks, and which findings have it once `reconcile` has mapped them. A
schedule subject needs a uid, and there is none where the schedules were not read. -/
namespace KubeCenter.Velero

open Lib.Go Store List

theorem validateOpenException_ok_iff (e : BackupAssuranceException Detail) :
    validateOpenException e = .ok () ↔
      e.id ≠ Uuid.nil ∧ e.clusterID ≠ "" ∧ e.policyID ≠ Uuid.nil ∧ subjectProblem e = none ∧
        e.openedAt ≠ zeroTime ∧ e.detail.isOther = false := by
  unfold validateOpenException
  by_cases hid : e.id = Uuid.nil
  · simp [hid]
  by_cases hcl : e.clusterID = ""
  · simp [hid, hcl]
  by_cases hpl : e.policyID = Uuid.nil
  · simp [hid, hcl, hpl]
  rw [if_neg hid, if_neg hcl, if_neg hpl]
  cases hsj : subjectProblem e with
  | some msg => simp
  | none =>
    by_cases hop : e.openedAt = zeroTime
    · simp [hop]
    · cases hdt : e.detail.isOther with
      | true => simp [hop]
      | false => simp [hid, hcl, hpl, hop]

/-- A policy that passes its checks has an id, and a scope of the right shape. -/
theorem scope_of_valid {p} (h : validatePolicy p = .ok ()) :
    p.id ≠ Uuid.nil ∧ scopeProblem p = none := by
  unfold validatePolicy at h
  by_cases hid : p.id = Uuid.nil
  · rw [if_pos hid] at h
    cases h
  rw [if_neg hid] at h
  by_cases hcl : p.clusterID = ""
  · rw [if_pos hcl] at h
    cases h
  rw [if_neg hcl] at h
  cases hsc : scopeProblem p with
  | some msg =>
    rw [hsc] at h
    cases h
  | none => exact ⟨hid, rfl⟩

def Observation.Named (obs : Observation) : Prop :=
  ∀ s ∈ obs.schedules, s.namespace_ ≠ "" ∧ s.name ≠ "" ∧ s.uid ≠ ""

section Subjects

variable {obs : Observation} {p : BackupAssurancePolicy} {f : Finding} {clusterID : String}
  {now : Time} {id : Uuid}

/-- The shape the store asks for, unless the subject is a schedule that was not read. -/
theorem subjectProblem_eq_none (hna : obs.Named) (hsc : scopeProblem p = none)
    (hsj : subjectOf obs p = some f.subject)
    (hrd : p.scopeKind = .schedule → missing obs scheduleGVR = false) :
    subjectProblem (exceptionOf clusterID now id f) = none := by
  unfold subjectOf at hsj
  split at hsj
  · simp only [Option.some.injEq] at hsj
    simp [subjectProblem, exceptionOf, ← hsj]
  next hk =>
    simp only [Option.some.injEq] at hsj
    simp only [scopeProblem, hk] at hsc
    have hsc : p.scopeNamespace ≠ "" ∧ p.scopeName = "" := by simpa using hsc
    simp [subjectProblem, exceptionOf, ← hsj, hsc.1]
  next hk =>
    rw [if_neg (by simp [hrd hk])] at hsj
    obtain ⟨s, hs, hsj⟩ := Option.map_eq_some_iff.1 hsj
    obtain ⟨hns, hnm, huid⟩ := hna s (mem_of_find?_eq_some hs)
    simp [subjectProblem, exceptionOf, ← hsj, hns, hnm, huid]

theorem subjectProblem_of_unread (hk : p.scopeKind = .schedule)
    (hms : missing obs scheduleGVR = true) (hsj : subjectOf obs p = some f.subject) :
    subjectProblem (exceptionOf clusterID now id f) =
      some "schedule subject requires a namespace, a name and a uid" := by
  simp only [subjectOf, hk, hms, if_true, Option.some.injEq] at hsj
  simp [subjectProblem, exceptionOf, ← hsj]

end Subjects

def UnreadSchedule (obs : Observation) (policies : List BackupAssurancePolicy) : Prop :=
  obs.Observed ∧ missing obs scheduleGVR = true ∧
    ∃ p ∈ policies, Active p obs.clusterID ∧ p.scopeKind = .schedule

/-- Everything reported can be stored exactly if no schedule policy is evaluated without the list
of schedules. -/
theorem findings_storable_iff (lib : Libraries) (obs : Observation)
    (policies : List BackupAssurancePolicy) (now : Time) (clusterID : String) (id : Uuid)
    (hnamed : obs.Named) (hvalid : ∀ p ∈ policies, validatePolicy p = .ok ())
    (hcluster : clusterID ≠ "") (hnow : now ≠ zeroTime) (hid : id ≠ Uuid.nil) :
    (∀ f ∈ evaluate lib obs policies now,
      validateOpenException (exceptionOf clusterID now id f) = .ok ()) ↔
      ¬UnreadSchedule obs policies := by
  constructor
  · rintro hst ⟨hobs, hms, p, hp, hac, hk⟩
    have hsj : subjectOf obs p =
        some { kind := .schedule, namespace_ := p.scopeNamespace, name := p.scopeName } := by
      simp [subjectOf, hk, hms]
    have hun : Unread obs p.scopeKind := by
      rw [hk, unread_schedule]
      exact .inl hms
    have hrep : ∃ f ∈ evaluate lib obs policies now, f.subject =
        { kind := .schedule, namespace_ := p.scopeNamespace, name := p.scopeName } := by
      obtain ⟨f, hf, -⟩ := only_unknown_of_unread hobs hp hac hsj hun
      have hmem := mem_filter.1 (mem_of_mem_head? (by rw [hf]; rfl))
      exact ⟨f, hmem.1, of_decide_eq_true hmem.2⟩
    obtain ⟨f, hmem, hfs⟩ := hrep
    have hpr := ((validateOpenException_ok_iff _).1 (hst f hmem)).2.2.2.1
    rw [subjectProblem_of_unread hk hms (by rw [hsj, hfs])] at hpr
    cases hpr
  · intro hrd f hf
    by_cases hobs : obs.Observed
    · obtain ⟨p, hp, hac, hfp⟩ := exists_policy_of_mem hobs hf
      obtain ⟨hsj, hpl⟩ := subject_of_mem hfp
      obtain ⟨hpid, hsc⟩ := scope_of_valid (hvalid p hp)
      refine (validateOpenException_ok_iff _).2 ⟨hid, hcluster, ?_, ?_, hnow, rfl⟩
      · show f.policyID ≠ Uuid.nil
        rw [hpl]
        exact hpid
      · refine subjectProblem_eq_none hnamed hsc hsj fun hk => ?_
        by_contra hms
        exact hrd ⟨hobs, by simpa using hms, p, hp, hac, hk⟩
    · -- one finding about the cluster
      have hac : activePolicies obs.clusterID policies ≠ [] := by
        intro hno
        simp [evaluate, hno] at hf
      obtain ⟨p, hp, hev⟩ := evaluate_unobserved lib now hobs hac
      rw [hev, mem_singleton] at hf
      subst hf
      obtain ⟨hpid, -⟩ := scope_of_valid (hvalid p (mem_activePolicies.1 hp).1)
      exact (validateOpenException_ok_iff _).2 ⟨hid, hcluster, hpid, rfl, hnow, rfl⟩

theorem findings_storable_iff_nightly : validatePolicy nightlyPolicy = .ok () ∧
    ∀ f ∈ evaluate shopLibraries nightlyResumed [nightlyPolicy] nightlyNow,
      validateOpenException (exceptionOf "local" nightlyNow 2 f) = .ok () := by
  refine ⟨rfl, ?_⟩
  refine (findings_storable_iff shopLibraries nightlyResumed [nightlyPolicy] nightlyNow "local" 2
    ?_ ?_ (by decide) (by decide) (by decide)).2 ?_
  · intro s hs
    rw [mem_singleton.1 hs]
    exact ⟨by decide, by decide, by decide⟩
  · intro p hp
    rw [mem_singleton.1 hp]
    rfl
  · rintro ⟨-, hms, -⟩
    cases hms

def nightlyUnread : Observation :=
  { nightlyResumed with collection := .degraded, failedLists := ["schedules"], schedules := [] }

/-- The evaluator reports the schedule as unknown, and the store refuses the row. -/
theorem unread_schedule_not_storable : nightlyUnread.Named ∧ validatePolicy nightlyPolicy = .ok () ∧
    ∃ f, evaluate shopLibraries nightlyUnread [nightlyPolicy] nightlyNow = [f] ∧
      validateOpenException (exceptionOf "local" nightlyNow 2 f) =
        .error (.exceptionInvalid "schedule subject requires a namespace, a name and a uid") := by
  refine ⟨fun s hs => ?_, rfl, _, rfl, rfl⟩
  cases hs

end KubeCenter.Velero
