import KubeCenter.Velero.Canonical

/-! # Missed runs

A schedule is reported when an expected run since the reference point is older than the grace
period, as long as the walk over the expected runs can begin there or finds a newer missed run. The
walk reaches back 35 days only. -/
namespace KubeCenter.Velero

open Lib Go Store List

/-! ## Expected runs -/

/-- The expression fires at `t`, some activations after `a`. -/
inductive Fires (sched : Cron) : Time → Time → Prop where
  | next {a} : sched.next a ≠ zeroTime → Fires sched a (sched.next a)
  | later {a t} : sched.next a ≠ zeroTime → Fires sched (sched.next a) t → Fires sched a t

/-- The expression fires, and not for a wall-clock time it has fired for an hour before. -/
def ExpectedAfter (sched : Cron) (a t : Time) : Prop :=
  Fires sched a t ∧ repeatedWallClock sched t = false

theorem Fires.next_le {sched : Cron} {a t : Time} (h : Fires sched a t) : sched.next a ≤ t := by
  induction h with
  | next _ => exact le_rfl
  | later hne hrs ih =>
    refine le_trans (le_of_lt (sched.next_after _ ?_)) ih
    cases hrs <;> assumption

theorem Fires.cases_next {sched : Cron} {a t : Time} (h : Fires sched a t) :
    t = sched.next a ∨ Fires sched (sched.next a) t := by
  cases h with
  | next _ => exact .inl rfl
  | later _ hrs => exact .inr hrs

section Walk

variable {sched : Cron} {now : Time}

variable {a last result t : Time} {steps : Nat}

/-- The next run is still to come, or the walk goes on from it. -/
theorem loop_round (h : expectedRunsLoop sched now (steps + 1) a last = some result) :
    sched.next a ≠ zeroTime ∧ ((now < sched.next a ∧ result = last) ∨
        (sched.next a ≤ now ∧ expectedRunsLoop sched now steps (sched.next a)
          (if repeatedWallClock sched (sched.next a) then last else sched.next a) =
            some result)) := by
  simp only [expectedRunsLoop] at h
  split at h
  · cases h
  next hne =>
    refine ⟨hne, ?_⟩
    split at h
    · rename_i hlat
      cases h
      exact .inl ⟨hlat, rfl⟩
    · rename_i hnow
      exact .inr ⟨not_lt.1 hnow, h⟩

theorem loop_keeps_run (hla : last ≠ zeroTime)
    (h : expectedRunsLoop sched now steps t last = some result) : result ≠ zeroTime := by
  induction steps generalizing t last with
  | zero => cases h
  | succ steps ih =>
    obtain ⟨hne, ⟨-, rfl⟩ | ⟨-, hrs⟩⟩ := loop_round h
    · exact hla
    · refine ih ?_ hrs
      split
      · exact hla
      · exact hne

theorem loop_finds_run (ht : ExpectedAfter sched a t) (hnow : t ≤ now)
    (h : expectedRunsLoop sched now steps a last = some result) : result ≠ zeroTime := by
  obtain ⟨hfr, hfi⟩ := ht
  induction steps generalizing a last with
  | zero => cases h
  | succ steps ih =>
    obtain ⟨hne, ⟨hlat, -⟩ | ⟨-, hwl⟩⟩ := loop_round h
    · exact absurd (hlat.trans_le hfr.next_le) hnow.not_gt
    · rcases hfr.cases_next with rfl | hrs
      · rw [hfi] at hwl
        exact loop_keeps_run hne hwl
      · exact ih hwl hrs

theorem exists_run_of_loop (h : expectedRunsLoop sched now steps a last = some result) :
    result = last ∨ ∃ t, ExpectedAfter sched a t ∧ t ≤ now := by
  induction steps generalizing a last with
  | zero => cases h
  | succ steps ih =>
    obtain ⟨hne, ⟨-, rfl⟩ | ⟨hnow, hwl⟩⟩ := loop_round h
    · exact .inl rfl
    · by_cases hrep : repeatedWallClock sched (sched.next a) = true
      · rw [if_pos hrep] at hwl
        rcases ih hwl with heq | ⟨t, ⟨hfr, hfi⟩, ht⟩
        · exact .inl heq
        · exact .inr ⟨t, ⟨.later hne hfr, hfi⟩, ht⟩
      · exact .inr ⟨sched.next a, ⟨.next hne, by simpa using hrep⟩, hnow⟩

theorem loop_none_later {last' now' : Time} (hle : now ≤ now')
    (h : expectedRunsLoop sched now steps a last = none) :
    expectedRunsLoop sched now' steps a last' = none := by
  induction steps generalizing a last last' with
  | zero => rfl
  | succ steps ih =>
    simp only [expectedRunsLoop] at h ⊢
    split at h
    next hzr => rw [if_pos hzr]
    next hzr =>
      split at h
      · cases h
      · rename_i hnow
        rw [if_neg hzr, if_neg fun hlat => hnow (lt_of_le_of_lt hle hlat)]
        exact ih h

theorem sub_le_lookback {a b : Int} (h : b - expectedRunLookback ≤ a) :
    ¬Time.sub b a > expectedRunLookback := by
  have hlk : expectedRunLookback = (3024000000000000 : Int) := by decide
  rw [hlk] at h ⊢
  show ¬max (-2 ^ 63) (min (2 ^ 63 - 1) (b - a)) > (3024000000000000 : Int)
  omega

theorem runsSince_finds_run (ht : ExpectedAfter sched a t) (hnow : t ≤ now)
    (ha : now - expectedRunLookback ≤ a) (h : expectedRunsSince sched a now steps = some result) :
    result ≠ zeroTime := by
  unfold expectedRunsSince at h
  rw [if_neg (sub_le_lookback ha)] at h
  exact loop_finds_run ht hnow h

end Walk

/-! ## The expected run of a schedule -/

section Expected

variable {lib : Libraries} {now : Time} {p : BackupAssurancePolicy} {s : Schedule}
  {ref : Option Time} {d : Detail} {sched : Cron}

/-- The reference point or the creation of the schedule, whichever is later. -/
def expectedSince (s : Schedule) (ref : Option Time) : Time := max (ref.getD s.created) s.created

theorem expectedRunAnchor_eq (now : Time) (s : Schedule) (ref : Option Time) :
    expectedRunAnchor now s ref = max (now - expectedRunLookback) (expectedSince s ref) := by
  unfold expectedRunAnchor expectedSince
  cases ref with
  | none => split <;> grind
  | some ref =>
    dsimp only [Option.getD]
    split <;> split <;> grind

theorem lookback_le_anchor (now : Time) (s : Schedule) (ref : Option Time) :
    now - expectedRunLookback ≤ expectedRunAnchor now s ref := by
  rw [expectedRunAnchor_eq]
  exact le_max_left _ _

section

variable (hparse : parseCron lib s.schedule = .ok sched) (hgr : 0 ≤ p.grace)
include hparse hgr

theorem expectedRun_missed {t : Time} (ht : ExpectedAfter sched (expectedRunAnchor now s ref) t)
    (hold : p.grace < now - t) : (expectedRun lib now p s ref d).1 = true := by
  have hnow : t ≤ now := by grind
  have hgo : t ≤ now - p.grace - 1 := by grind
  have han := lookback_le_anchor now s ref
  have han' : now - p.grace - 1 - expectedRunLookback ≤ expectedRunAnchor now s ref := by
    grind
  unfold expectedRun
  rw [hparse]
  dsimp only
  split
  · rfl
  next last hla =>
    rw [if_neg (runsSince_finds_run ht hnow han hla)]
    split
    · rfl
    · rename_i missed hmi
      simpa using runsSince_finds_run ht hgo han' hmi

/-- The expected runs cannot be told, or one of them is older than the grace period. -/
theorem cause_of_expectedRun (h : (expectedRun lib now p s ref d).1 = true) :
    expectedRunsLoop sched now maxExpectedRunSteps (expectedRunAnchor now s ref) zeroTime = none ∨
      ∃ t, ExpectedAfter sched (expectedRunAnchor now s ref) t ∧ p.grace < now - t := by
  have han := lookback_le_anchor now s ref
  have han' : now - p.grace - 1 - expectedRunLookback ≤ expectedRunAnchor now s ref := by
    grind
  unfold expectedRun at h
  rw [hparse] at h
  simp only [expectedRunsSince, if_neg (sub_le_lookback han), if_neg (sub_le_lookback han')] at h
  split at h
  · exact .inl ‹_›
  next last hla =>
    split at h
    · cases h
    · split at h
      · -- an unfinished walk to an earlier end is unfinished now
        rename_i hno
        have hle : now - p.grace - 1 ≤ now := by grind
        cases (loop_none_later hle hno).symm.trans hla
      · rename_i missed hmi
        have hmissedNe : missed ≠ zeroTime := by simpa using h
        rcases exists_run_of_loop hmi with heq | ⟨t, ht, hle⟩
        · exact absurd heq hmissedNe
        · exact .inr ⟨t, ht, by grind⟩

/-- The evaluator looks back to the point since which runs are expected, or the runs of the
lookback cannot be told, or one of them was missed as well. -/
def Sees (sched : Cron) (p : BackupAssurancePolicy) (s : Schedule) (now : Time)
    (ref : Option Time) : Prop :=
  now - expectedSince s ref ≤ expectedRunLookback ∨
    expectedRunsSince sched (now - expectedRunLookback) now maxExpectedRunSteps = none ∨
    ∃ t, ExpectedAfter sched (now - expectedRunLookback) t ∧ p.grace < now - t

omit hgr in
theorem expectedRun_of_unknown
    (h : expectedRunsSince sched (expectedRunAnchor now s ref) now maxExpectedRunSteps = none) :
    (expectedRun lib now p s ref d).1 = true := by
  unfold expectedRun
  rw [hparse]
  dsimp only
  rw [h]

/-- Runs older than the lookback do not matter where the evaluator sees without
them. -/
theorem Sees.old (h : Sees sched p s now ref)
    (hold : ¬now - expectedRunLookback ≤ expectedSince s ref) :
    (expectedRun lib now p s ref d).1 = true := by
  have han : expectedRunAnchor now s ref = now - expectedRunLookback := by
    rw [expectedRunAnchor_eq, max_eq_left (le_of_not_ge hold)]
  rcases h with h | h | ⟨t, ht, hmi⟩
  · grind
  · exact expectedRun_of_unknown hparse (han ▸ h)
  · exact expectedRun_missed hparse hgr (han ▸ ht) hmi

theorem Sees.missed (h : Sees sched p s now ref) {t : Time}
    (ht : ExpectedAfter sched (expectedSince s ref) t) (hmi : p.grace < now - t) :
    (expectedRun lib now p s ref d).1 = true := by
  by_cases hrc : now - expectedRunLookback ≤ expectedSince s ref
  · refine expectedRun_missed hparse hgr ?_ hmi
    rw [expectedRunAnchor_eq, max_eq_right hrc]
    exact ht
  · exact h.old hparse hgr hrc

theorem Sees.still_missed {now' : Time} {d' : Detail} (h : Sees sched p s now' ref)
    (hle : now ≤ now') (hmi : (expectedRun lib now p s ref d).1 = true) :
    (expectedRun lib now' p s ref d').1 = true := by
  by_cases hrc : now' - expectedRunLookback ≤ expectedSince s ref
  · have han : expectedRunAnchor now' s ref = expectedRunAnchor now s ref := by
      rw [expectedRunAnchor_eq, expectedRunAnchor_eq, max_eq_right hrc, max_eq_right (by grind)]
    rcases cause_of_expectedRun hparse hgr hmi with hno | ⟨t, ht, hold⟩
    · refine expectedRun_of_unknown hparse ?_
      unfold expectedRunsSince
      rw [if_neg (sub_le_lookback (lookback_le_anchor now' s ref)), han]
      exact loop_none_later hle hno
    · exact expectedRun_missed hparse hgr (han ▸ ht) (by grind)
  · exact h.old hparse hgr hrc

theorem sees_of_missed (hmi : (expectedRun lib now p s ref d).1 = true) :
    Sees sched p s now ref := by
  by_cases hrc : now - expectedRunLookback ≤ expectedSince s ref
  · exact .inl (by grind)
  · have han : expectedRunAnchor now s ref = now - expectedRunLookback := by
      rw [expectedRunAnchor_eq, max_eq_left (le_of_not_ge hrc)]
    rcases cause_of_expectedRun hparse hgr hmi with hno | ⟨t, ht, hold⟩
    · refine .inr (.inl ?_)
      unfold expectedRunsSince
      rw [if_neg (sub_le_lookback le_rfl), ← han]
      exact hno
    · exact .inr (.inr ⟨t, han ▸ ht, hold⟩)

end

end Expected

/-! ## The evaluator -/

/-- Everything was read. -/
structure Observation.AllRead (obs : Observation) : Prop where
  collection : obs.collection = .ok
  detected : obs.detected = true
  failedLists : obs.failedLists = []
  locations : obs.locations ≠ none

/-- The policy is on, and about the schedule. -/
structure Names (obs : Observation) (p : BackupAssurancePolicy) (s : Schedule) : Prop where
  active : Active p obs.clusterID
  kind : p.scopeKind = .schedule
  schedule : scheduleOf obs p = some s

def scheduleSubject (s : Schedule) : Subject := ⟨.schedule, s.namespace_, s.name, s.uid⟩

def scheduleRuns (lib : Libraries) (obs : Observation) (s : Schedule) : List Backup :=
  obs.backups.filter fun b =>
    b.namespace_ = s.namespace_ && b.scheduleName = scheduleLabelValue lib.sha256Hex s.name

section

variable (lib : Libraries) (obs : Observation) (p : BackupAssurancePolicy) (s : Schedule)
  (now : Time)

def seenOf : RunsSeen := runsSeen now (p.treatPartialAs = .success) (scheduleRuns lib obs s)

def referenceOf : Option Time := ageReference (seenOf lib obs p s now) (some s)

def Readable : Prop := scheduleRuns lib obs s = [] ∨ (seenOf lib obs p s now).known = true

end

def Reported (lib : Libraries) (obs : Observation) (policies : List BackupAssurancePolicy)
    (s : Schedule) (now : Time) : Prop :=
  ∃ f ∈ evaluate lib obs policies now, f.subject = scheduleSubject s ∧
    (f.condition = .overdue ∨ f.condition = .neverRun)

/-- What makes a policy report a schedule. -/
structure Late (lib : Libraries) (obs : Observation) (p : BackupAssurancePolicy) (s : Schedule)
    (now : Time) : Prop where
  readable : Readable lib obs p s now
  old : ∀ t, referenceOf lib obs p s now = some t → p.maxAge + p.grace < now - t
  missed : (missedRun lib now p (some s) (referenceOf lib obs p s now)
    (seenOf lib obs p s now).base).1 = true

section Reported

variable {lib : Libraries} {obs : Observation} {policies : List BackupAssurancePolicy}
  {p : BackupAssurancePolicy} {s : Schedule} {now : Time}

theorem Observation.AllRead.missing (h : obs.AllRead) (resource : String) :
    missing obs resource = false := by
  refine Bool.eq_false_iff.2 fun hm => ?_
  rcases (missing_iff obs resource).1 hm with hm | ⟨-, hm⟩ | ⟨hm, -⟩
  · rw [h.failedLists] at hm
    cases hm
  · exact h.locations hm
  · rw [h.collection] at hm
    cases hm

theorem Observation.AllRead.observed (h : obs.AllRead) : obs.Observed :=
  ⟨.inl h.collection, h.detected⟩

theorem evaluatePolicy_names (hre : obs.AllRead) (hp : Names obs p s) :
    evaluatePolicy lib obs now p = evaluateSubject lib obs now p (scheduleSubject s)
      (scheduleRuns lib obs s) (some s) := by
  have hs : (obs.schedules.find? fun s => s.namespace_ = p.scopeNamespace &&
      s.name = p.scopeName) = some s := hp.schedule
  simp only [evaluatePolicy, hp.kind, evaluateSchedule, hre.missing, hs, Bool.or_self,
    Bool.false_eq_true, if_false]
  rfl

theorem age_exceeds (hsd : p.Stored) (ref : Option Time) :
    (ref.all fun t => now.sub t > wrapInt64 (p.maxAge + p.grace)) = true ↔
      ∀ t, ref = some t → p.maxAge + p.grace < now - t := by
  cases ref with
  | none => simp
  | some ref => simp [← hsd.exceeds now ref]

theorem exists_ageFinding (subj : Subject) (runs : List Backup) {s : Option Schedule} {r : RunsSeen}
    (hold : ((ageReference r s).all fun t => now.sub t > wrapInt64 (p.maxAge + p.grace)) = true)
    (hmi : (missedRun lib now p s (ageReference r s) r.base).1 = true) :
    ∃ f ∈ ageFindings lib now p subj runs s r,
      f.condition = .overdue ∨ f.condition = .neverRun := by
  unfold ageFindings
  rw [if_pos (by rw [hold, hmi]; rfl)]
  refine ⟨_, mem_singleton.2 rfl, ?_⟩
  split
  · exact .inr rfl
  · exact .inl rfl

theorem late_iff (hre : obs.AllRead) (hp : Names obs p s) (hsd : p.Stored) :
    (∃ f ∈ evaluatePolicy lib obs now p, f.condition = .overdue ∨ f.condition = .neverRun) ↔
      Late lib obs p s now := by
  rw [evaluatePolicy_names hre hp]
  constructor
  · rintro ⟨f, hf, hcn⟩
    rcases (mem_evaluateSubject rfl).1 hf with hf | hf | ⟨-, rfl⟩ | ⟨hrd, hf | hf⟩
    · rw [mem_pausedFindings hf] at hcn
      rcases hcn with h | h <;> cases h
    · obtain ⟨d, rfl⟩ := mem_location hf
      rcases hcn with h | h <;> cases h
    · rcases hcn with h | h <;> cases h
    · rcases mem_outcomeFindings hf with rfl | rfl <;> rcases hcn with h | h <;> cases h
    · unfold ageFindings at hf
      dsimp only at hf
      split at hf
      next hlt =>
        obtain ⟨hold, hmi⟩ := Bool.and_eq_true_iff.1 hlt
        exact ⟨hrd, (age_exceeds hsd _).1 hold, hmi⟩
      · cases hf
  · intro hlt
    obtain ⟨f, hf, hcn⟩ := exists_ageFinding (scheduleSubject s) (scheduleRuns lib obs s)
      ((age_exceeds hsd _).2 hlt.old) hlt.missed
    exact ⟨f, (mem_evaluateSubject rfl).2 (.inr (.inr (.inr ⟨hlt.readable, .inr hf⟩))), hcn⟩

theorem scope_of_scheduleOf (h : scheduleOf obs p = some s) :
    s.namespace_ = p.scopeNamespace ∧ s.name = p.scopeName := by
  simpa [scheduleOf] using find?_some h

theorem names_of_subject {q} (hre : obs.AllRead) (hp : scheduleOf obs p = some s)
    (hq : Active q obs.clusterID) (hsj : subjectOf obs q = some (scheduleSubject s)) :
    Names obs q s := by
  have hk : q.scopeKind = .schedule := (subjectOf_kind hsj).symm
  refine ⟨hq, hk, ?_⟩
  simp only [subjectOf, hk, hre.missing, Bool.false_eq_true, if_false] at hsj
  obtain ⟨s', hs', heq⟩ := Option.map_eq_some_iff.1 hsj
  obtain ⟨hns', hna'⟩ := scope_of_scheduleOf hs'
  obtain ⟨hns, hna⟩ := scope_of_scheduleOf hp
  simp only [scheduleSubject, Subject.mk.injEq, true_and] at heq
  -- both policies look for one namespace and name
  have hsc : q.scopeNamespace = p.scopeNamespace ∧ q.scopeName = p.scopeName :=
    ⟨hns'.symm.trans (heq.1.trans hns), hna'.symm.trans (heq.2.1.trans hna)⟩
  have hsm : scheduleOf obs q = scheduleOf obs p := by
    simp only [scheduleOf, hsc.1, hsc.2]
  rw [hsm, hp]

theorem reported_iff (hre : obs.AllRead) (hp : scheduleOf obs p = some s)
    (hsd : ∀ p ∈ policies, p.Stored) :
    Reported lib obs policies s now ↔ ∃ q ∈ policies, Names obs q s ∧ Late lib obs q s now := by
  constructor
  · rintro ⟨f, hf, hsj, hcn⟩
    obtain ⟨q, hq, hac, hfq⟩ := exists_policy_of_mem hre.observed hf
    have hnm := names_of_subject hre hp hac (hsj ▸ (subject_of_mem hfq).1)
    exact ⟨q, hq, hnm, (late_iff hre hnm (hsd q hq)).1 ⟨f, hfq, hcn⟩⟩
  · rintro ⟨q, hq, hnm, hlt⟩
    obtain ⟨f, hf, hcn⟩ := (late_iff hre hnm (hsd q hq)).2 hlt
    have hmem : f ∈ (activePolicies obs.clusterID policies).flatMap (evaluatePolicy lib obs now) :=
      mem_flatMap.2 ⟨q, mem_activePolicies.2 ⟨hq, hnm.active⟩, hf⟩
    obtain ⟨g, hg, hsm, hsameCondition⟩ := exists_mem_normalizeFindings hmem
    rw [← evaluate_observed hre.observed] at hg
    refine ⟨g, hg, ?_, hsameCondition ▸ hcn⟩
    rw [evaluatePolicy_names hre hnm] at hf
    exact hsm.trans (about_of_mem_evaluateSubject hf).1

theorem effectiveOutcome_later {b : Backup} {now' : Time} {partialIsSuccess : Bool}
    (hle : now ≤ now') (hb : ∀ ts, runTimestamp b = some ts → ts ≤ now) :
    effectiveOutcome b now' partialIsSuccess = effectiveOutcome b now partialIsSuccess := by
  have hsk : (0 : Int) ≤ maxClockSkew := by decide
  unfold effectiveOutcome
  cases hts : runTimestamp b with
  | none => rfl
  | some ts =>
    dsimp only
    rw [if_neg (show ¬ts > now' + maxClockSkew by grind),
      if_neg (show ¬ts > now + maxClockSkew by grind)]

theorem seenOf_later {now' : Time} (hle : now ≤ now')
    (hps : ∀ b ∈ obs.backups, ∀ ts, runTimestamp b = some ts → ts ≤ now) :
    seenOf lib obs p s now' = seenOf lib obs p s now := by
  refine foldl_ext _ _ _ fun r b hb => ?_
  have hb : b ∈ obs.backups := (mem_filter.1 hb).1
  simp only [RunsSeen.add, effectiveOutcome_later hle (hps b hb)]

end Reported

theorem late_iff_sees {lib obs} {p : BackupAssurancePolicy} {s : Schedule} {sched : Cron}
    {now : Time} (hparse : parseCron lib s.schedule = .ok sched) (hcr : s.schedule ≠ "")
    (hsd : p.Stored) (hrd : Readable lib obs p s now)
    (hold : ∀ t, referenceOf lib obs p s now = some t → p.maxAge + p.grace < now - t) {t : Time}
    (ht : ExpectedAfter sched (expectedSince s (referenceOf lib obs p s now)) t)
    (hmi : p.grace < now - t) :
    Late lib obs p s now ↔ Sees sched p s now (referenceOf lib obs p s now) := by
  have hrun : missedRun lib now p (some s) (referenceOf lib obs p s now)
      (seenOf lib obs p s now).base = expectedRun lib now p s (referenceOf lib obs p s now)
      (seenOf lib obs p s now).base := if_pos hcr
  constructor
  · intro hlt
    exact sees_of_missed hparse hsd.grace (hrun ▸ hlt.missed)
  · intro hse
    exact ⟨hrd, hold, hrun ▸ hse.missed hparse hsd.grace ht hmi⟩

/-- A missed run is remembered as long as the evaluator can see it: a schedule
that is not reported has missed none, and a schedule once reported stays
reported. -/
theorem missed_run_remembered (lib : Libraries) (obs : Observation)
    (policies : List BackupAssurancePolicy) (s : Schedule) (sched : Cron)
    (hread : obs.AllRead) (hparse : parseCron lib s.schedule = .ok sched)
    (hstored : ∀ p ∈ policies, p.Stored) :
    (∀ p ∈ policies, Names obs p s → ∀ now, Readable lib obs p s now →
      (∀ ref, referenceOf lib obs p s now = some ref → p.maxAge + p.grace < now - ref) →
      Sees sched p s now (referenceOf lib obs p s now) →
      ¬Reported lib obs policies s now →
      ∀ t, ExpectedAfter sched (expectedSince s (referenceOf lib obs p s now)) t →
        ¬p.grace < now - t) ∧
    ∀ now now', now ≤ now' → (∀ b ∈ obs.backups, ∀ ts, runTimestamp b = some ts → ts ≤ now) →
      (∀ p ∈ policies, Names obs p s → Sees sched p s now' (referenceOf lib obs p s now')) →
      (∃ p ∈ policies, Names obs p s) →
      Reported lib obs policies s now → Reported lib obs policies s now' := by
  constructor
  · intro p hmem hp now hrd hold hse hnot t ht hmi
    refine hnot ((reported_iff hread hp.schedule hstored).2 ⟨p, hmem, hp, hrd, hold, ?_⟩)
    unfold missedRun
    dsimp only
    split
    · exact hse.missed hparse (hstored p hmem).grace ht hmi
    · rfl
  · rintro now now' hle hps hse ⟨p₀, -, hp₀⟩ hrp
    obtain ⟨p, hmem, hp, hlt⟩ := (reported_iff hread hp₀.schedule hstored).1 hrp
    have hsn : seenOf lib obs p s now' = seenOf lib obs p s now := seenOf_later hle hps
    have href : referenceOf lib obs p s now' = referenceOf lib obs p s now := by
      unfold referenceOf
      rw [hsn]
    refine (reported_iff hread hp.schedule hstored).2 ⟨p, hmem, hp, ?_, fun ref hr => ?_, ?_⟩
    · unfold Readable
      rw [hsn]
      exact hlt.readable
    · have hold := hlt.old ref (href ▸ hr)
      grind
    · have hmi := hlt.missed
      have hse := hse p hmem hp
      rw [href] at hse ⊢
      unfold missedRun at hmi ⊢
      dsimp only at hmi ⊢
      split
      next hcr =>
        rw [if_pos hcr] at hmi
        exact hse.still_missed hparse (hstored p hmem).grace hle hmi
      · rfl

/-! ## A run that is forgotten

A schedule for New Year's midnight is created on 30 December 2025. Its first run,
on 1 January 2026, never happens. -/

def newYears : List Time :=
  [1767225600, 1798761600, 1830297600, 1861920000, 1893456000].map (· * second)

/-- `0 0 1 1 *`, over those years. -/
def newYearCron : Cron where
  next t := (newYears.find? (· > t)).getD zeroTime
  location := none
  next_after := by
    intro t hne
    cases hfind : newYears.find? (· > t) with
    | none => simp [hfind] at hne
    | some u => simpa using find?_some hfind

def newYearLibraries : Libraries where
  sha256Hex := id
  parseStandard expr := if expr = "0 0 1 1 *" then .ok newYearCron else .error "not here"

def newYearSchedule : Schedule where
  name := "yearly"
  namespace_ := "velero"
  uid := "5e1f"
  schedule := "0 0 1 1 *"
  paused := false
  lastBackup := none
  storageLocation := ""
  created := 1767052800 * second

def newYearObservation : Observation where
  clusterID := "local"
  collection := .ok
  failedLists := []
  detected := true
  backups := []
  schedules := [newYearSchedule]
  locations := some [⟨"default", "velero", "Available", true, ""⟩]

def newYearPolicy : BackupAssurancePolicy where
  id := 7
  clusterID := "local"
  scopeKind := .schedule
  scopeNamespace := "velero"
  scopeName := "yearly"
  maxAge := 7 * 24 * hour
  grace := hour
  treatPartialAs := .failure
  alertOnPaused := true
  enabled := true

def january : Time := 1768003200 * second

def march : Time := 1772323200 * second

theorem newYear_allRead : newYearObservation.AllRead := ⟨rfl, rfl, rfl, nofun⟩

theorem newYear_stored : newYearPolicy.Stored := ⟨by rfl, by decide, by decide⟩

theorem newYear_names : Names newYearObservation newYearPolicy newYearSchedule :=
  ⟨⟨rfl, rfl⟩, rfl, rfl⟩

theorem newYear_reported_in_january :
    Reported newYearLibraries newYearObservation [newYearPolicy] newYearSchedule january := by
  have hev : ∃ f, evaluate newYearLibraries newYearObservation [newYearPolicy] january = [f] ∧
      f.subject = scheduleSubject newYearSchedule ∧ f.condition = .neverRun := ⟨_, rfl, rfl, rfl⟩
  obtain ⟨f, hf, hsj, hcn⟩ := hev
  exact ⟨f, by rw [hf]; exact mem_singleton.2 rfl, hsj, .inr hcn⟩

/-- Ten days on, the evaluator still sees the missed run. -/
theorem missed_run_remembered_newYear :
    Reported newYearLibraries newYearObservation [newYearPolicy] newYearSchedule
      (january + 10 * 24 * hour) := by
  have hsd : ∀ p ∈ [newYearPolicy], p.Stored := by
    intro p hp
    rw [mem_singleton.1 hp]
    exact newYear_stored
  have hse : ∀ p ∈ [newYearPolicy], Names newYearObservation p newYearSchedule →
      Sees newYearCron p newYearSchedule (january + 10 * 24 * hour)
        (referenceOf newYearLibraries newYearObservation p newYearSchedule
          (january + 10 * 24 * hour)) := by
    intro p hp _
    rw [mem_singleton.1 hp]
    exact .inl (by decide)
  exact (missed_run_remembered newYearLibraries newYearObservation [newYearPolicy] newYearSchedule
    newYearCron newYear_allRead (by rfl) hsd).2 january (january + 10 * 24 * hour) (by decide)
    nofun hse ⟨newYearPolicy, mem_singleton.2 rfl, newYear_names⟩
    newYear_reported_in_january

/-- Reported on 10 January, and not on 1 March, though the run of 1 January is still missing. -/
theorem yearly_run_forgotten : newYearObservation.AllRead ∧ newYearPolicy.Stored ∧
      Names newYearObservation newYearPolicy newYearSchedule ∧
      parseCron newYearLibraries newYearSchedule.schedule = .ok newYearCron ∧
      Readable newYearLibraries newYearObservation newYearPolicy newYearSchedule march ∧
      referenceOf newYearLibraries newYearObservation newYearPolicy newYearSchedule march =
        some newYearSchedule.created ∧
      newYearPolicy.maxAge + newYearPolicy.grace < march - newYearSchedule.created ∧
      ExpectedAfter newYearCron
        (expectedSince newYearSchedule (some newYearSchedule.created)) (1767225600 * second) ∧
      newYearPolicy.grace < march - 1767225600 * second ∧
      Reported newYearLibraries newYearObservation [newYearPolicy] newYearSchedule january ∧
      ¬Reported newYearLibraries newYearObservation [newYearPolicy] newYearSchedule march := by
  refine ⟨newYear_allRead, newYear_stored, newYear_names, by rfl, .inl rfl, by rfl, by decide,
    ⟨.next (by decide), by decide⟩, by decide, newYear_reported_in_january, ?_⟩
  rintro ⟨f, hf, -⟩
  cases hf

end KubeCenter.Velero
