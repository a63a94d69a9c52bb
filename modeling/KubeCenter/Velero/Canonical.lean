import KubeCenter.Lib.Canonical
import KubeCenter.Velero.Assurance

/-! # The evaluator claims nothing from missing evidence, in one canonical answer

1. The answer is the same for every order of the policies and of the lists.
2. Findings are strictly sorted by subject and condition.
3. A subject that depends on an unread list has `collection_unknown` as its only finding. -/
namespace KubeCenter.Velero

open Lib Go Store List

/-! ## 1. Choices -/

def runKey (b : Backup) : Time ×ₗ Time ×ₗ String := toLex (runTime b, toLex (b.created, b.name))

theorem newerRun_iff (a b : Backup) : newerRun a b = true ↔ runKey b < runKey a := by
  unfold newerRun runKey
  rw [Prod.Lex.toLex_lt_toLex, Prod.Lex.toLex_lt_toLex]
  split
  next h =>
    simp only [decide_eq_true_eq]
    constructor
    · exact .inl
    · rintro (h' | ⟨h', -⟩)
      · exact h'
      · exact absurd h'.symm h
  next h =>
    have h : runTime a = runTime b := by simpa using h
    split
    · rename_i hc
      simp only [decide_eq_true_eq, h, lt_irrefl, false_or, true_and]
      constructor
      · exact .inl
      · rintro (h' | ⟨h', -⟩)
        · exact h'
        · exact absurd h'.symm hc
    · rename_i hc
      have hc : a.created = b.created := by simpa using hc
      simp [h, hc]

theorem newestRun_eq (newest : Option (Backup × FreshnessOutcome)) (b : Backup)
    (o : FreshnessOutcome) :
    newestRun newest b o = keepMax (fun p => runKey p.1) newest (b, o) := by
  cases newest with
  | none => rfl
  | some n =>
    simp only [newestRun, keepMax]
    by_cases h : runKey n.1 < runKey b
    · rw [if_pos h, if_pos ((newerRun_iff b n.1).2 h)]
    · rw [if_neg h, if_neg fun h' => h ((newerRun_iff b n.1).1 h')]

theorem laterOf_comm (z x y : Option Time) : laterOf (laterOf z x) y = laterOf (laterOf z y) x := by
  cases z <;> cases x <;> cases y <;> simp [laterOf] <;> grind

def FreshnessOutcome.terminal (o : FreshnessOutcome) : Bool := o ≠ .unknown && o ≠ .inFlight

theorem RunsSeen.add_eq (now : Time) (partialIsSuccess : Bool) (r : RunsSeen) (b : Backup) {o}
    (ho : effectiveOutcome b now partialIsSuccess = o) : r.add now partialIsSuccess b =
      { newest := if o.terminal then newestRun r.newest b o else r.newest
        lastSuccess :=
          if o.counts partialIsSuccess then laterOf r.lastSuccess (runTimestamp b)
          else r.lastSuccess
        inFlight := r.inFlight || o = .inFlight
        known := r.known || o ≠ .unknown } := by
  unfold RunsSeen.add
  rw [ho]
  cases o <;> simp [FreshnessOutcome.terminal, FreshnessOutcome.counts]

theorem guarded_comm {β : Type} {f g : β → β} (h : ∀ z, f (g z) = g (f z)) (c d : Bool) (z : β) :
    (if c then f (if d then g z else z) else if d then g z else z) =
      if d then g (if c then f z else z) else if c then f z else z := by
  cases c <;> cases d <;> simp [h]

/-- Two runs can be seen in either order, if they can be told apart. -/
theorem RunsSeen.add_comm (now : Time) (partialIsSuccess : Bool) {x y : Backup}
    (hxy : runKey x = runKey y → x = y) (r : RunsSeen) :
    (r.add now partialIsSuccess x).add now partialIsSuccess y =
      (r.add now partialIsSuccess y).add now partialIsSuccess x := by
  set ox := effectiveOutcome x now partialIsSuccess with hox
  set oy := effectiveOutcome y now partialIsSuccess with hoy
  have hnw (z : Option (Backup × FreshnessOutcome)) :
      newestRun (newestRun z x ox) y oy = newestRun (newestRun z y oy) x ox := by
    simp only [newestRun_eq]
    refine keepMax_comm (fun hkey => ?_) z
    have hsm := hxy hkey
    rw [hox, hoy, hsm]
  rw [RunsSeen.add_eq _ _ _ _ hoy.symm, RunsSeen.add_eq _ _ _ _ hox.symm,
    RunsSeen.add_eq _ _ _ _ hox.symm, RunsSeen.add_eq _ _ _ _ hoy.symm]
  simp only [RunsSeen.mk.injEq]
  refine ⟨?_, ?_, ?_, ?_⟩
  · exact guarded_comm (f := (newestRun · y oy)) (g := (newestRun · x ox)) hnw _ _ _
  · exact guarded_comm (f := (laterOf · (runTimestamp y))) (g := (laterOf · (runTimestamp x)))
      (fun z => laterOf_comm z _ _) _ _ _
  · exact Bool.or_right_comm _ _ _
  · exact Bool.or_right_comm _ _ _

theorem runsSeen_perm (now : Time) (partialIsSuccess : Bool) {runs runs' : List Backup}
    (h : runs.Perm runs') (hkey : ∀ a ∈ runs, ∀ b ∈ runs, runKey a = runKey b → a = b) :
    runsSeen now partialIsSuccess runs = runsSeen now partialIsSuccess runs' :=
  h.foldl_eq' (fun x hx y hy r => RunsSeen.add_comm now partialIsSuccess (hkey x hx y hy) r) {}

theorem chooseLocation_named {s : Schedule} (h : s.storageLocation ≠ "")
    (z : Option BackupStorageLocation) (l : BackupStorageLocation) :
    chooseLocation s z l =
      if l.namespace_ = s.namespace_ ∧ l.name = s.storageLocation then some l else z := by
  unfold chooseLocation
  by_cases hns : l.namespace_ = s.namespace_ <;> simp [hns, h]

def locationKey (l : BackupStorageLocation) : Stringᵒᵈ := OrderDual.toDual l.name

theorem chooseLocation_default {s : Schedule} (h : s.storageLocation = "")
    (z : Option BackupStorageLocation) (l : BackupStorageLocation) :
    chooseLocation s z l =
      if decide (l.namespace_ = s.namespace_) && l.default_ then
        keepMax locationKey z l
      else z := by
  unfold chooseLocation
  by_cases hns : l.namespace_ = s.namespace_
  · cases hdef : l.default_ with
    | false => simp [hns, h]
    | true => cases z <;> simp [hns, h, keepMax, locationKey]
  · simp [hns]

theorem chooseLocation_comm (s : Schedule) {x y : BackupStorageLocation}
    (hxy : x.namespace_ = y.namespace_ → x.name = y.name → x = y)
    (z : Option BackupStorageLocation) :
    chooseLocation s (chooseLocation s z x) y = chooseLocation s (chooseLocation s z y) x := by
  by_cases hna : s.storageLocation = ""
  · by_cases hx : x.namespace_ = s.namespace_
    · by_cases hy : y.namespace_ = s.namespace_
      · have hnm : locationKey x = locationKey y → x = y := hxy (hx.trans hy.symm)
        have hcm := keepMax_comm hnm
        simp only [chooseLocation_default hna]
        exact guarded_comm (f := (keepMax _ · y)) (g := (keepMax _ · x)) hcm _ _ _
      · simp [chooseLocation, hy]
    · simp [chooseLocation, hx]
  · simp only [chooseLocation_named hna]
    by_cases hx : x.namespace_ = s.namespace_ ∧ x.name = s.storageLocation
    · by_cases hy : y.namespace_ = s.namespace_ ∧ y.name = s.storageLocation
      · rw [hxy (hx.1.trans hy.1.symm) (hx.2.trans hy.2.symm)]
      · rw [if_pos hx, if_neg hy, if_neg hy, if_pos hx]
    · simp only [if_neg hx]

/-! ## 2. The order of the lists -/

/-- Names tell the objects of a list apart, and run time, creation and name the
backups. -/
structure Observation.Distinct (obs : Observation) : Prop where
  schedules : (obs.schedules.map fun s => (s.namespace_, s.name)).Nodup
  locations : ((obs.locations.getD []).map fun l => (l.namespace_, l.name)).Nodup
  backups : (obs.backups.map fun b => (b.namespace_, b.name)).Nodup
  runs : (obs.backups.map runKey).Nodup

/-- The same evidence, its lists in another order. -/
structure Observation.Reordered (obs obs' : Observation) : Prop where
  clusterID : obs'.clusterID = obs.clusterID
  collection : obs'.collection = obs.collection
  failedLists : obs'.failedLists = obs.failedLists
  detected : obs'.detected = obs.detected
  backups : obs'.backups.Perm obs.backups
  schedules : obs'.schedules.Perm obs.schedules
  locations : Option.Rel List.Perm obs'.locations obs.locations

section Reordered

variable {lib : Libraries} {obs obs' : Observation} {now : Time} {p : BackupAssurancePolicy}
  {subj : Subject}

theorem Observation.Reordered.missing (h : obs.Reordered obs') (resource : String) :
    missing obs' resource = missing obs resource := by
  have hno : obs'.locations.isNone = obs.locations.isNone := by
    have hl := h.locations
    generalize obs'.locations = l', obs.locations = l at hl
    cases hl <;> rfl
  simp only [Velero.missing, h.failedLists, h.collection, hno]

theorem Observation.Reordered.locations_perm (h : obs.Reordered obs') :
    (obs'.locations.getD []).Perm (obs.locations.getD []) := by
  have hl := h.locations
  generalize obs'.locations = l', obs.locations = l at hl ⊢
  cases hl with
  | none => exact .refl _
  | some hpm => exact hpm

section

variable (hd : obs.Distinct) (h : obs.Reordered obs')
include h hd

theorem location_reordered (s : Schedule)
    (base : Detail) : location obs' p subj s base = location obs p subj s base := by
  have hfl : (obs'.locations.getD []).foldl (chooseLocation s) none =
      (obs.locations.getD []).foldl (chooseLocation s) none := by
    refine (h.locations_perm.symm.foldl_eq' (fun x hx y hy z => ?_) none).symm
    refine chooseLocation_comm s (fun hns hnm => ?_) z
    exact inj_on_of_nodup_map hd.locations hx hy (Prod.ext hns hnm)
  simp only [location, hfl]

theorem locationFindings_reordered (s : Option Schedule) (base : Detail) :
    locationFindings obs' p subj s base = locationFindings obs p subj s base := by
  cases s with
  | none => rfl
  | some s => exact location_reordered hd h s base

theorem evaluateSubject_reordered (keep : Backup → Bool) (s : Option Schedule) :
    evaluateSubject lib obs' now p subj (obs'.backups.filter keep) s =
      evaluateSubject lib obs now p subj (obs.backups.filter keep) s := by
  have hpm : (obs'.backups.filter keep).Perm (obs.backups.filter keep) := h.backups.filter keep
  have hem : (obs'.backups.filter keep).isEmpty = (obs.backups.filter keep).isEmpty := by
    rw [Bool.eq_iff_iff, List.isEmpty_iff, List.isEmpty_iff, ← List.length_eq_zero_iff,
      ← length_eq_zero_iff, hpm.length_eq]
  have hsn (partialIsSuccess : Bool) : runsSeen now partialIsSuccess (obs'.backups.filter keep) =
        runsSeen now partialIsSuccess (obs.backups.filter keep) := by
    refine (runsSeen_perm now partialIsSuccess hpm.symm fun a ha b hb hkey => ?_).symm
    exact inj_on_of_nodup_map hd.runs (mem_filter.1 ha).1 (mem_filter.1 hb).1 hkey
  have hage (r : RunsSeen) : ageFindings lib now p subj (obs'.backups.filter keep) s r =
      ageFindings lib now p subj (obs.backups.filter keep) s r := by
    simp only [ageFindings, hem]
  simp only [evaluateSubject, hem, hsn, hage, locationFindings_reordered hd h]

theorem evaluatePolicy_reordered (p : BackupAssurancePolicy) :
    evaluatePolicy lib obs' now p = evaluatePolicy lib obs now p := by
  have hfd : (obs'.schedules.find? fun s => s.namespace_ = p.scopeNamespace &&
      s.name = p.scopeName) = obs.schedules.find? fun s => s.namespace_ = p.scopeNamespace &&
      s.name = p.scopeName := by
    refine (find?_eq_of_perm h.schedules.symm fun a ha b hb hpa hpb => ?_).symm
    simp only [Bool.and_eq_true, decide_eq_true_eq] at hpa hpb
    exact inj_on_of_nodup_map hd.schedules ha hb
      (Prod.ext (hpa.1.trans hpb.1.symm) (hpa.2.trans hpb.2.symm))
  simp only [evaluatePolicy, evaluateSchedule, h.missing, hfd, evaluateSubject_reordered hd h]

end

theorem activePolicies_perm (clusterID : String) {policies policies' : List BackupAssurancePolicy}
    (h : policies'.Perm policies) (hid : (policies.map (·.id)).Nodup) :
    activePolicies clusterID policies' = activePolicies clusterID policies := by
  refine (insertionSort_eq_of_perm (h.symm.filter _) fun a ha b hb hkey => ?_).symm
  have hid' : a.id.toNat = b.id.toNat := congrArg (fun k => (ofLex k).2) hkey
  exact inj_on_of_nodup_map hid (mem_filter.1 ha).1 (mem_filter.1 hb).1 (BitVec.eq_of_toNat_eq hid')

theorem evaluate_reordered (hd : obs.Distinct) (h : obs.Reordered obs')
    {policies policies' : List BackupAssurancePolicy} (hp : policies'.Perm policies)
    (hid : (policies.map (·.id)).Nodup) :
    evaluate lib obs' policies' now = evaluate lib obs policies now := by
  have hpl : evaluatePolicy lib obs' now = evaluatePolicy lib obs now :=
    funext fun p => evaluatePolicy_reordered hd h p
  simp only [evaluate, h.clusterID, activePolicies_perm _ hp hid, h.collection, h.detected, hpl]

end Reordered

/-! ## 3. Identities -/

theorem scopeKind_text_injective {k k' : AssuranceScopeKind} (h : k.text = k'.text) : k = k' := by
  cases k <;> cases k' <;> first | rfl | exact absurd h (by decide)

theorem condition_text_injective {c c' : AssuranceCondition} (h : c.text = c'.text) : c = c' := by
  cases c <;> cases c' <;> first | rfl | exact absurd h (by decide)

theorem Finding.identity_eq_iff (a b : Finding) :
    a.identity = b.identity ↔ a.subject = b.subject ∧ a.condition = b.condition := by
  constructor
  · intro h
    simp only [Finding.identity, List.cons.injEq, and_true] at h
    obtain ⟨hk, hns, hnm, huid, hcn⟩ := h
    refine ⟨?_, condition_text_injective hcn⟩
    have hk := scopeKind_text_injective hk
    cases ha : a.subject
    cases hb : b.subject
    simp_all
  · rintro ⟨hsj, hco⟩
    simp only [Finding.identity, hsj, hco]

theorem mem_of_mem_normalizeFindings {f : Finding} {fs} (h : f ∈ normalizeFindings fs) : f ∈ fs :=
  (perm_insertionSort _ _).mem_iff.1 ((destutter_sublist _ _).subset h)

theorem exists_mem_normalizeFindings {f : Finding} {fs} (h : f ∈ fs) :
    ∃ g ∈ normalizeFindings fs, g.subject = f.subject ∧ g.condition = f.condition := by
  have hmem : f ∈ fs.insertionSort fun a b => a.sortKey ≤ b.sortKey :=
    (perm_insertionSort _ _).mem_iff.2 h
  obtain ⟨g, hg, hsm⟩ := exists_mem_destutter
    (R := fun a b : Finding => ¬(a.subject = b.subject ∧ a.condition = b.condition)) hmem
  refine ⟨g, hg, ?_⟩
  rcases hsm with rfl | hsm
  · exact ⟨rfl, rfl⟩
  · exact not_not.1 hsm

theorem normalizeFindings_sorted (fs : List Finding) :
    (normalizeFindings fs).Pairwise fun a b => a.identity < b.identity := by
  refine pairwise_lt_destutter (fun a b h he => h ((Finding.identity_eq_iff a b).1 he)) ?_
  refine (pairwise_insertionSort _ fs).imp fun {a b} hab => ?_
  rcases Prod.Lex.toLex_le_toLex.1 hab with h | h
  · exact h.le
  · exact h.1.le

theorem evaluate_sorted (lib : Libraries) (obs : Observation)
    (policies : List BackupAssurancePolicy) (now : Time) :
    (evaluate lib obs policies now).Pairwise fun a b => a.identity < b.identity := by
  unfold evaluate
  split
  · exact .nil
  · split
    · exact pairwise_singleton _ _
    · exact normalizeFindings_sorted _

theorem evaluate_distinct (lib : Libraries) (obs : Observation)
    (policies : List BackupAssurancePolicy) (now : Time) :
    (evaluate lib obs policies now).Pairwise fun a b =>
      ¬(a.subject = b.subject ∧ a.condition = b.condition) :=
  (evaluate_sorted lib obs policies now).imp fun {a b} h he =>
    h.ne ((Finding.identity_eq_iff a b).2 he)

/-! ## 4. Missing evidence -/

/-- It is named, it is the location list and there is none, or nothing says where the gap is. -/
def ListUnread (obs : Observation) (resource : String) : Prop :=
  resource ∈ obs.failedLists ∨ (resource = "backupstoragelocations" ∧ obs.locations = none) ∨
    (obs.collection = .degraded ∧ obs.failedLists = [])

theorem missing_iff (obs : Observation) (resource : String) :
    missing obs resource = true ↔ ListUnread obs resource := by
  simp only [missing, Bool.or_eq_true, Bool.and_eq_true, decide_eq_true_eq, or_assoc,
    Option.isNone_iff_eq_none, List.isEmpty_iff]
  rfl

def dependsOn : AssuranceScopeKind → List String
  | .schedule => ["schedules", "backups", "backupstoragelocations"]
  | .namespace_ | .cluster => ["backups"]

def Unread (obs : Observation) (kind : AssuranceScopeKind) : Prop :=
  ∃ resource ∈ dependsOn kind, ListUnread obs resource

def scheduleOf (obs : Observation) (p : BackupAssurancePolicy) : Option Schedule :=
  obs.schedules.find? fun s => s.namespace_ = p.scopeNamespace && s.name = p.scopeName

/-- Nothing, for a schedule that is not in the list. -/
def subjectOf (obs : Observation) (p : BackupAssurancePolicy) : Option Subject :=
  match p.scopeKind with
  | .cluster => some { kind := .cluster }
  | .namespace_ => some { kind := .namespace_, namespace_ := p.scopeNamespace }
  | .schedule =>
    if missing obs scheduleGVR then
      some { kind := .schedule, namespace_ := p.scopeNamespace, name := p.scopeName }
    else (scheduleOf obs p).map fun s => ⟨.schedule, s.namespace_, s.name, s.uid⟩

section Unread

variable {lib : Libraries} {obs : Observation} {now : Time} {p : BackupAssurancePolicy}
  {subj : Subject} {f : Finding}

theorem subjectOf_kind (h : subjectOf obs p = some subj) : subj.kind = p.scopeKind := by
  unfold subjectOf at h
  split at h
  · cases h; exact ‹p.scopeKind = _›.symm
  · cases h; exact ‹p.scopeKind = _›.symm
  · split at h
    · cases h; exact ‹p.scopeKind = _›.symm
    · obtain ⟨s, -, rfl⟩ := Option.map_eq_some_iff.1 h
      exact ‹p.scopeKind = _›.symm

theorem unread_schedule : Unread obs .schedule ↔ missing obs scheduleGVR = true ∨
    missing obs backupGVR = true ∨ missing obs backupStorageLocationGVR = true := by
  simp [Unread, dependsOn, missing_iff, scheduleGVR, backupGVR, backupStorageLocationGVR]

theorem unread_backups {kind} (h : kind ≠ .schedule) :
    Unread obs kind ↔ missing obs backupGVR = true := by
  cases kind with
  | schedule => exact absurd rfl h
  | namespace_ | cluster => simp [Unread, dependsOn, missing_iff, backupGVR]

variable {s : Option Schedule} {runs : List Backup} {r : RunsSeen}

theorem mem_pausedFindings (hf : f ∈ pausedFindings p subj s r) :
    f = ⟨subj, p.id, .paused, .warning, r.base, false⟩ := by
  unfold pausedFindings at hf
  split at hf
  · exact mem_singleton.1 hf
  · cases hf

theorem mem_location {s : Schedule} {base : Detail} (hf : f ∈ location obs p subj s base) :
    ∃ d, f = ⟨subj, p.id, .locationUnavailable, .critical, d, false⟩ := by
  unfold location at hf
  dsimp only at hf
  split at hf
  · cases hf
  · exact ⟨_, mem_singleton.1 hf⟩

theorem mem_outcomeFindings (hf : f ∈ outcomeFindings p subj r) :
    f = ⟨subj, p.id, .failed, .critical, r.base, false⟩ ∨
      f = ⟨subj, p.id, .partiallyFailed, .warning, r.base, false⟩ := by
  unfold outcomeFindings at hf
  split at hf
  · exact .inl (mem_singleton.1 hf)
  · split at hf
    · cases hf
    · exact .inr (mem_singleton.1 hf)
  · cases hf

theorem mem_ageFindings (hf : f ∈ ageFindings lib now p subj runs s r) : ∃ c d held,
      f = ⟨subj, p.id, c, .warning, d, held⟩ ∧ (c = .neverRun ∨ c = .overdue) ∧
        (held = true → ∃ sched, s = some sched ∧ sched.paused = true) := by
  unfold ageFindings at hf
  dsimp only at hf
  split at hf
  · refine ⟨_, _, _, mem_singleton.1 hf, ?_, fun hhd => ?_⟩
    · split
      · exact .inl rfl
      · exact .inr rfl
    · cases s with
      | none => cases hhd
      | some sched => exact ⟨sched, rfl, hhd⟩
  · cases hf

theorem mem_evaluateSubject (hr : runsSeen now (p.treatPartialAs = .success) runs = r) :
    f ∈ evaluateSubject lib obs now p subj runs s ↔
      f ∈ pausedFindings p subj s r ∨ f ∈ locationFindings obs p subj s r.base ∨
      (¬(runs = [] ∨ r.known = true) ∧
        f = ⟨subj, p.id, .collectionUnknown, .warning, r.base, false⟩) ∨
      ((runs = [] ∨ r.known = true) ∧
        (f ∈ outcomeFindings p subj r ∨ f ∈ ageFindings lib now p subj runs s r)) := by
  have hunk : (!runs.isEmpty && !r.known) = true ↔ ¬(runs = [] ∨ r.known = true) := by
    rw [Bool.and_eq_true, Bool.not_eq_true', Bool.not_eq_true', isEmpty_eq_false_iff, not_or,
      Bool.not_eq_true]
  unfold evaluateSubject
  rw [hr]
  dsimp only
  split
  next h =>
    have h := hunk.1 h
    simp [h]
  next h =>
    have h := not_not.1 (mt hunk.2 h)
    simp [h]

theorem about_of_mem_evaluateSubject (hf : f ∈ evaluateSubject lib obs now p subj runs s) :
    f.subject = subj ∧ f.policyID = p.id := by
  rcases (mem_evaluateSubject rfl).1 hf with hf | hf | ⟨-, rfl⟩ | ⟨-, hf | hf⟩
  · rw [mem_pausedFindings hf]
    exact ⟨rfl, rfl⟩
  · cases s with
    | none => cases hf
    | some s =>
      obtain ⟨d, rfl⟩ := mem_location hf
      exact ⟨rfl, rfl⟩
  · exact ⟨rfl, rfl⟩
  · rcases mem_outcomeFindings hf with rfl | rfl <;> exact ⟨rfl, rfl⟩
  · obtain ⟨c, d, held, rfl, -⟩ := mem_ageFindings hf
    exact ⟨rfl, rfl⟩

theorem about_of_mem_guarded {unread : Prop} [Decidable unread] {subj : Subject}
    (hf : f ∈ if unread then [collectionUnknown subj p]
      else evaluateSubject lib obs now p subj runs s) : f.subject = subj ∧ f.policyID = p.id := by
  split at hf
  · rw [mem_singleton.1 hf]
    exact ⟨rfl, rfl⟩
  · exact about_of_mem_evaluateSubject hf

theorem subject_of_mem (hf : f ∈ evaluatePolicy lib obs now p) :
    subjectOf obs p = some f.subject ∧ f.policyID = p.id := by
  unfold evaluatePolicy at hf
  split at hf
  next hk =>
    unfold evaluateSchedule at hf
    split at hf
    · rename_i hms
      rw [mem_singleton.1 hf]
      simp [subjectOf, hk, hms, collectionUnknown]
    · rename_i hms
      split at hf
      · cases hf
      · rename_i s hs
        have hsj : subjectOf obs p = some ⟨.schedule, s.namespace_, s.name, s.uid⟩ := by
          simp [subjectOf, hk, hms, scheduleOf, hs]
        obtain ⟨habo, hid⟩ := about_of_mem_guarded hf
        exact ⟨habo ▸ hsj, hid⟩
  next hk =>
    have hsj : subjectOf obs p = some { kind := .namespace_, namespace_ := p.scopeNamespace } := by
      simp [subjectOf, hk]
    obtain ⟨habo, hid⟩ := about_of_mem_guarded hf
    exact ⟨habo ▸ hsj, hid⟩
  next hk =>
    have hsj : subjectOf obs p = some { kind := .cluster } := by simp [subjectOf, hk]
    obtain ⟨habo, hid⟩ := about_of_mem_guarded hf
    exact ⟨habo ▸ hsj, hid⟩

/-- On an unread list a policy finds `collection_unknown` and nothing else. -/
theorem evaluatePolicy_unread (hun : Unread obs p.scopeKind) (h : subjectOf obs p = some subj) :
    evaluatePolicy lib obs now p = [collectionUnknown subj p] := by
  cases hk : p.scopeKind with
  | schedule =>
    rw [hk, unread_schedule] at hun
    simp only [subjectOf, hk] at h
    simp only [evaluatePolicy, hk, evaluateSchedule]
    split at h
    next hms =>
      cases h
      rw [if_pos hms]
    next hms =>
      obtain ⟨s, hs, rfl⟩ := Option.map_eq_some_iff.1 h
      unfold scheduleOf at hs
      rw [if_neg hms, hs]
      have hls := hun.resolve_left hms
      simp only [Bool.or_eq_true, hls, if_true]
  | namespace_ | cluster =>
    rw [hk, unread_backups (by decide)] at hun
    simp only [subjectOf, hk, Option.some.injEq] at h
    simp only [evaluatePolicy, hk, hun, if_true, h]

end Unread

/-! ## 5. The evaluator -/

section Evaluate

variable {lib : Libraries} {obs : Observation} {policies : List BackupAssurancePolicy} {now : Time}

def Active (p : BackupAssurancePolicy) (clusterID : String) : Prop :=
  p.enabled = true ∧ p.clusterID = clusterID

theorem mem_activePolicies {clusterID : String} {p} : p ∈ activePolicies clusterID policies ↔
      p ∈ policies ∧ Active p clusterID := by
  unfold activePolicies
  rw [(perm_insertionSort _ _).mem_iff, mem_filter, Bool.and_eq_true, decide_eq_true_eq]
  rfl

def Observation.Observed (obs : Observation) : Prop :=
  (obs.collection = .ok ∨ obs.collection = .degraded) ∧ obs.detected = true

instance (obs : Observation) : Decidable obs.Observed :=
  inferInstanceAs (Decidable (_ ∧ _))

theorem evaluate_unobserved (lib : Libraries) (now : Time) (h : ¬obs.Observed)
    (hac : activePolicies obs.clusterID policies ≠ []) :
    ∃ p ∈ activePolicies obs.clusterID policies,
      evaluate lib obs policies now = [collectionUnknown { kind := .cluster } p] := by
  unfold evaluate
  cases hl : activePolicies obs.clusterID policies with
  | nil => exact absurd hl hac
  | cons p rest =>
    refine ⟨p, mem_cons_self, if_pos ?_⟩
    unfold Observation.Observed at h
    by_cases hok : obs.collection = .ok
    · simpa [hok] using h
    · by_cases hdg : obs.collection = .degraded
      · simpa [hdg] using h
      · simp [hok, hdg]

theorem evaluate_observed (h : obs.Observed) : evaluate lib obs policies now = normalizeFindings
      ((activePolicies obs.clusterID policies).flatMap (evaluatePolicy lib obs now)) := by
  unfold evaluate
  cases hl : activePolicies obs.clusterID policies with
  | nil => rfl
  | cons p rest =>
    refine if_neg ?_
    obtain ⟨hcl, hdet⟩ := h
    rcases hcl with hc | hc <;> simp [hc, hdet]

theorem exists_policy_of_mem (hobs : obs.Observed) {f : Finding}
    (hf : f ∈ evaluate lib obs policies now) :
    ∃ p ∈ policies, Active p obs.clusterID ∧ f ∈ evaluatePolicy lib obs now p := by
  rw [evaluate_observed hobs] at hf
  obtain ⟨p, hp, hf⟩ := mem_flatMap.1 (mem_of_mem_normalizeFindings hf)
  obtain ⟨hmem, hac⟩ := mem_activePolicies.1 hp
  exact ⟨p, hmem, hac, hf⟩

theorem unknown_of_unread (hobs : obs.Observed) {f : Finding}
    (hf : f ∈ evaluate lib obs policies now) (hun : Unread obs f.subject.kind) :
    f.condition = .collectionUnknown := by
  obtain ⟨p, -, -, hfp⟩ := exists_policy_of_mem hobs hf
  obtain ⟨hsj, -⟩ := subject_of_mem hfp
  rw [subjectOf_kind hsj] at hun
  rw [evaluatePolicy_unread hun hsj] at hfp
  rw [mem_singleton.1 hfp]
  rfl

/-- The only finding of a subject that depends on an unread list. -/
theorem only_unknown_of_unread (hobs : obs.Observed) {p} (hp : p ∈ policies)
    (hac : Active p obs.clusterID) {subj : Subject} (hsj : subjectOf obs p = some subj)
    (hun : Unread obs p.scopeKind) :
    ∃ f, (evaluate lib obs policies now).filter (·.subject = subj) = [f] ∧
      f.condition = .collectionUnknown := by
  have hall : ∀ f ∈ (evaluate lib obs policies now).filter (·.subject = subj),
      f.subject = subj ∧ f.condition = .collectionUnknown := by
    intro f hf
    obtain ⟨hf, hs⟩ := mem_filter.1 hf
    have hs : f.subject = subj := by simpa using hs
    refine ⟨hs, unknown_of_unread hobs hf ?_⟩
    rw [hs, subjectOf_kind hsj]
    exact hun
  have hfo : collectionUnknown subj p ∈
      (activePolicies obs.clusterID policies).flatMap (evaluatePolicy lib obs now) := by
    refine mem_flatMap.2 ⟨p, mem_activePolicies.2 ⟨hp, hac⟩, ?_⟩
    rw [evaluatePolicy_unread hun hsj]
    exact mem_singleton.2 rfl
  obtain ⟨g, hg, hgs, -⟩ := exists_mem_normalizeFindings hfo
  rw [← evaluate_observed hobs] at hg
  have hmem : g ∈ (evaluate lib obs policies now).filter (·.subject = subj) :=
    mem_filter.2 ⟨hg, by simpa [collectionUnknown] using hgs⟩
  have hds := (evaluate_distinct lib obs policies now).filter (·.subject = subj)
  -- two findings of the subject would have one identity
  match hl : (evaluate lib obs policies now).filter (·.subject = subj) with
  | [] =>
    rw [hl] at hmem
    cases hmem
  | [f] =>
    rw [hl] at hall
    exact ⟨f, hl, (hall f (mem_singleton.2 rfl)).2⟩
  | f :: f' :: rest =>
    rw [hl] at hall hds
    have hf := hall f (by simp)
    have hf' := hall f' (by simp)
    have hne := (pairwise_cons.1 hds).1 f' mem_cons_self
    exact absurd ⟨hf.1.trans hf'.1.symm, hf.2.trans hf'.2.symm⟩ hne

end Evaluate

/-- The evaluator never claims from missing evidence, and its answer is
canonical. -/
theorem evaluate_unknown_and_canonical (lib : Libraries) (obs : Observation)
    (policies : List BackupAssurancePolicy) (now : Time) :
    ((∀ p ∈ policies, ¬Active p obs.clusterID) → evaluate lib obs policies now = []) ∧
    ((∃ p ∈ policies, Active p obs.clusterID) → ¬obs.Observed →
      ∃ f, evaluate lib obs policies now = [f] ∧ f.subject = { kind := .cluster } ∧
        f.condition = .collectionUnknown) ∧
    (obs.Observed → (∀ f ∈ evaluate lib obs policies now, Unread obs f.subject.kind →
        f.condition = .collectionUnknown) ∧
      ∀ p ∈ policies, Active p obs.clusterID → ∀ subj, subjectOf obs p = some subj →
        Unread obs p.scopeKind →
        ∃ f, (evaluate lib obs policies now).filter (·.subject = subj) = [f] ∧
          f.condition = .collectionUnknown) ∧
    ((evaluate lib obs policies now).Pairwise fun a b => a.identity < b.identity) ∧
    ((evaluate lib obs policies now).Pairwise fun a b =>
      ¬(a.subject = b.subject ∧ a.condition = b.condition)) ∧
    (obs.Distinct → (policies.map (·.id)).Nodup →
      ∀ obs' policies', obs.Reordered obs' → policies'.Perm policies →
        evaluate lib obs' policies' now = evaluate lib obs policies now) := by
  refine ⟨fun h => ?_, fun hex hobs => ?_, fun hobs => ⟨fun f hf hun => ?_, ?_⟩,
    evaluate_sorted lib obs policies now, evaluate_distinct lib obs policies now, ?_⟩
  · have hnil : activePolicies obs.clusterID policies = [] := by
      refine eq_nil_iff_forall_not_mem.2 fun p hp => ?_
      obtain ⟨hmem, hac⟩ := mem_activePolicies.1 hp
      exact h p hmem hac
    unfold evaluate
    rw [hnil]
  · obtain ⟨p, hp, hac⟩ := hex
    have hne : activePolicies obs.clusterID policies ≠ [] :=
      ne_nil_of_mem (mem_activePolicies.2 ⟨hp, hac⟩)
    obtain ⟨q, -, hq⟩ := evaluate_unobserved lib now hobs hne
    exact ⟨_, hq, rfl, rfl⟩
  · exact unknown_of_unread hobs hf hun
  · intro p hp hac subj hsj hun
    exact only_unknown_of_unread hobs hp hac hsj hun
  · intro hd hid obs' policies' hrd hpm
    exact evaluate_reordered hd hrd hpm hid

/-! A namespace and a cluster policy over a collection that could not read the backups. -/

def shopPolicy : BackupAssurancePolicy where
  id := 7
  clusterID := "local"
  scopeKind := .namespace_
  scopeNamespace := "shop"
  scopeName := ""
  maxAge := 24 * hour
  grace := hour
  treatPartialAs := .failure
  alertOnPaused := true
  enabled := true

def clusterPolicy : BackupAssurancePolicy :=
  { shopPolicy with id := 8, scopeKind := .cluster, scopeNamespace := "" }

def shopUnread : Observation where
  clusterID := "local"
  collection := .degraded
  failedLists := ["backups"]
  detected := true
  backups := []
  schedules := []
  locations := some []

def shopLibraries : Libraries := ⟨id, fun _ => .error "no cron here"⟩

theorem evaluate_unknown_and_canonical_shop :
    let found := evaluate shopLibraries shopUnread [shopPolicy, clusterPolicy] 0
    found.map (fun f => (f.subject, f.condition)) = [({ kind := .cluster }, .collectionUnknown),
        ({ kind := .namespace_, namespace_ := "shop" }, .collectionUnknown)] ∧
      (∃ f, found.filter (·.subject = { kind := .namespace_, namespace_ := "shop" }) = [f] ∧
        f.condition = .collectionUnknown) ∧
      found.Pairwise (fun a b => a.identity < b.identity) ∧
      evaluate shopLibraries shopUnread [clusterPolicy, shopPolicy] 0 = found := by
  obtain ⟨-, -, hun, hsorted, -, hcan⟩ :=
    evaluate_unknown_and_canonical shopLibraries shopUnread [shopPolicy, clusterPolicy] 0
  refine ⟨by decide +kernel, ?_, hsorted, ?_⟩
  · exact (hun ⟨.inr rfl, rfl⟩).2 shopPolicy mem_cons_self ⟨rfl, rfl⟩ _ rfl
      ⟨"backups", mem_singleton.2 rfl, .inl (mem_singleton.2 rfl)⟩
  · exact hcan ⟨by decide, by decide, by decide, by decide⟩ (by decide) shopUnread _
      ⟨rfl, rfl, rfl, rfl, .refl _, .refl _, .some (.refl _)⟩ (.swap ..)

end KubeCenter.Velero
