import KubeCenter.Velero.Reconciliation

/-! # Rows of a subject whose state is unknown

A tick resolves an open row because no finding has its key. The evaluator also stops reporting a
condition it can no longer tell: the subject is then `collection_unknown`, and no finding is about
its runs. -/
namespace KubeCenter.Velero

open Lib Go Store

def AboutRuns (c : AssuranceCondition) : Prop :=
  c = .overdue ∨ c = .neverRun ∨ c = .failed ∨ c = .partiallyFailed

def ReportedUnknown (findings : List Finding) (subject : Subject) : Prop :=
  ⟨subject, .collectionUnknown⟩ ∈ findings.map (·.key)

/-- The policies as the table holds them: scopes are valid, and none is there twice
(`idx_backup_assurance_policies_scope`). -/
structure Scoped (policies : List BackupAssurancePolicy) : Prop where
  valid : ∀ p ∈ policies, scopeProblem p = none
  unique : ∀ p ∈ policies, ∀ q ∈ policies, p.clusterID = q.clusterID → p.scopeKind = q.scopeKind →
    p.scopeNamespace = q.scopeNamespace → p.scopeName = q.scopeName → p = q

section Evaluate

variable {lib : Libraries} {obs : Observation} {policies : List BackupAssurancePolicy} {now : Time}
  {p : BackupAssurancePolicy} {subj : Subject} {f g : Finding}

theorem scope_of_subject (hv : scopeProblem p = none) (h : subjectOf obs p = some subj) :
    p.scopeKind = subj.kind ∧ p.scopeNamespace = subj.namespace_ ∧ p.scopeName = subj.name := by
  refine ⟨(subjectOf_kind h).symm, ?_⟩
  unfold scopeProblem at hv
  unfold subjectOf at h
  cases hk : p.scopeKind with
  | cluster =>
    simp only [hk] at h hv
    cases h
    simpa using hv
  | namespace_ =>
    simp only [hk] at h hv
    cases h
    simp at hv
    exact ⟨rfl, hv.2⟩
  | schedule =>
    simp only [hk] at h
    split at h
    · cases h
      exact ⟨rfl, rfl⟩
    · obtain ⟨s, hs, rfl⟩ := Option.map_eq_some_iff.1 h
      have hn := List.find?_some hs
      simp at hn
      exact ⟨hn.1.symm, hn.2.symm⟩

theorem Scoped.eq_of_subject (hsc : Scoped policies) {q} (hp : p ∈ policies) (hq : q ∈ policies)
    (hcl : p.clusterID = q.clusterID) (h : subjectOf obs p = some subj)
    (h' : subjectOf obs q = some subj) : p = q := by
  obtain ⟨hk, hns, hnm⟩ := scope_of_subject (hsc.valid p hp) h
  obtain ⟨hk', hns', hnm'⟩ := scope_of_subject (hsc.valid q hq) h'
  exact hsc.unique p hp q hq hcl (hk.trans hk'.symm) (hns.trans hns'.symm) (hnm.trans hnm'.symm)

variable (lib obs now p) in
theorem evaluatePolicy_guarded : evaluatePolicy lib obs now p = [] ∨
    ∃ (unread : Bool) (subj : Subject) (runs : List Backup) (s : Option Schedule),
      evaluatePolicy lib obs now p = if unread then [collectionUnknown subj p]
        else evaluateSubject lib obs now p subj runs s := by
  unfold evaluatePolicy
  split
  · unfold evaluateSchedule
    split
    · exact .inr ⟨true, _, [], none, rfl⟩
    · split
      · exact .inl rfl
      · exact .inr ⟨_, _, _, _, rfl⟩
  · exact .inr ⟨_, _, _, _, rfl⟩
  · exact .inr ⟨_, _, _, _, rfl⟩

theorem not_aboutRuns_of_subject {runs : List Backup} {s : Option Schedule}
    (hf : f ∈ evaluateSubject lib obs now p subj runs s)
    (hg : g ∈ evaluateSubject lib obs now p subj runs s) (hc : g.condition = .collectionUnknown) :
    ¬AboutRuns f.condition := by
  have hother : ∀ {r} {f : Finding}, f ∈ pausedFindings p subj s r ∨
      f ∈ locationFindings obs p subj s r.base →
      f.condition = .paused ∨ f.condition = .locationUnavailable := by
    rintro r f (hf | hf)
    · exact .inl (by rw [mem_pausedFindings hf])
    · cases s with
      | none => cases hf
      | some s =>
        obtain ⟨d, rfl⟩ := mem_location hf
        exact .inr rfl
  have hun : ¬(runs = [] ∨ (runsSeen now (p.treatPartialAs = .success) runs).known = true) := by
    rcases (mem_evaluateSubject rfl).1 hg with hg | hg | ⟨hun, -⟩ | ⟨-, hg | hg⟩
    · rcases hother (.inl hg) with h | h <;> cases hc.symm.trans h
    · rcases hother (.inr hg) with h | h <;> cases hc.symm.trans h
    · exact hun
    · rcases mem_outcomeFindings hg with rfl | rfl <;> cases hc
    · obtain ⟨c, d, held, rfl, rfl | rfl, -⟩ := mem_ageFindings hg <;> cases hc
  rcases (mem_evaluateSubject rfl).1 hf with hf | hf | ⟨-, rfl⟩ | ⟨hkn, -⟩
  · rcases hother (.inl hf) with h | h <;> simp [h, AboutRuns]
  · rcases hother (.inr hf) with h | h <;> simp [h, AboutRuns]
  · simp [AboutRuns]
  · exact absurd hkn hun

/-- A policy that reports `collection_unknown` reports nothing about runs. -/
theorem not_aboutRuns_of_policy (hf : f ∈ evaluatePolicy lib obs now p)
    (hg : g ∈ evaluatePolicy lib obs now p) (hc : g.condition = .collectionUnknown) :
    ¬AboutRuns f.condition := by
  rcases evaluatePolicy_guarded lib obs now p with h | ⟨unread, subj, runs, s, h⟩
  · rw [h] at hf
    cases hf
  · rw [h] at hf hg
    cases unread with
    | true =>
      rw [List.mem_singleton.1 hf]
      simp [AboutRuns, collectionUnknown]
    | false => exact not_aboutRuns_of_subject hf hg hc

theorem not_aboutRuns_of_unknown (hsc : Scoped policies)
    (hun : ReportedUnknown (evaluate lib obs policies now) f.subject)
    (hf : f ∈ evaluate lib obs policies now) : ¬AboutRuns f.condition := by
  obtain ⟨g, hg, hkey⟩ := List.mem_map.1 hun
  obtain ⟨hgs, hgc⟩ := ExceptionKey.mk.inj hkey
  by_cases hob : obs.Observed
  · obtain ⟨p, hp, hac, hfp⟩ := exists_policy_of_mem hob hf
    obtain ⟨q, hq, hac', hgq⟩ := exists_policy_of_mem hob hg
    have hsj := (subject_of_mem hgq).1
    rw [hgs] at hsj
    obtain rfl := hsc.eq_of_subject hp hq (hac.2.trans hac'.2.symm) (subject_of_mem hfp).1 hsj
    exact not_aboutRuns_of_policy hfp hgq hgc
  · have hne : activePolicies obs.clusterID policies ≠ [] := fun hnil => by
      rw [evaluate, hnil] at hf
      cases hf
    obtain ⟨p, -, hev⟩ := evaluate_unobserved lib now hob hne
    rw [hev] at hf
    rw [List.mem_singleton.1 hf]
    simp [AboutRuns, collectionUnknown]

end Evaluate

section Tick

variable {newSHA1 : Uuid → String → Uuid} {clusterID : String} {now : Time} {obs : Observation}
  {findings : List Finding} {t u : AssuranceTables Detail} {e : BackupAssuranceException Detail}

theorem row_of_runs {α : Type} {p} {a : α} {r : LedgerRow}
    (h : Ran newSHA1 p t a u) (hp : p.Only fun c => ¬Resolves r.id c)
    (hr : r ∈ t.ledger.rows) : r ∈ u.ledger.rows :=
  h.keeps (P := fun t => r ∈ t.ledger.rows) (fun _ w _ hc ht => row_kept w hc ht) hp hr

theorem row_of_findings {rows} {p : Progress} {a r} (h : Ran newSHA1
      (Program.loop (reconcileFinding clusterID now rows) findings p) t a u)
    (hr : r ∈ t.ledger.rows) : r ∈ u.ledger.rows := by
  refine row_of_runs h (Program.only_loop (fun f _ p => ?_) p) hr
  refine (only_reconcileFinding clusterID now rows p f).mono fun c hc => ?_
  cases c with
  | updateResolved id time reason => exact hc.elim
  | _ => exact id

theorem row_of_not_ok {a} (hcl : obs.collection ≠ .ok) (he : e ∈ listOpen t clusterID)
    (h : Ran newSHA1 (reconcileTick clusterID now obs findings) t a u) :
    e.row ∈ u.ledger.rows := by
  have hrow : e.row ∈ t.ledger.rows := mem_rows (mem_listOpen.1 he).1
  cases tickRun_of_runs h with
  | unread => exact hrow
  | stopped hfd | unresolved _ hfd => exact row_of_findings hfd hrow
  | resolved hok => exact absurd hok hcl

theorem resolved_of_not_found (hky : t.ledger.Keyed) (he : e ∈ listOpen t clusterID)
    (hcl : obs.collection = .ok) (hno : ¬∃ f ∈ findings, f.key = keyOfException e)
    (h : Ran newSHA1 (reconcileTick clusterID now obs findings) t
      (.ok []) u) : ResolvedOnce u e := by
  obtain ⟨p, m, new, hrc, hm, hmt, -, hcs⟩ := runs_tick h hky
  obtain ⟨hmem, -, hop⟩ := mem_listOpen.1 he
  refine (hcs hcl).resolvedOnce (keyed_of_runs h hky) (hrc.kept (mem_rows hmem)) hop ?_
  refine mem_unmatchedIDs.2 ⟨fun hid => hno ?_, e, he, rfl⟩
  exact (hrc.matched_iff hky hm hmt he).1 hid

theorem ResolvedOnce.not_open (h : ResolvedOnce u e) (hky : u.ledger.Keyed)
    (hop : e.state = .stateOpen) : e.row ∉ u.ledger.rows := by
  intro hrow
  have hres := congrArg LedgerRow.state (hky.eq_of_id hrow h.1 rfl)
  rw [show e.row.state = .stateOpen from hop] at hres
  cases hres

end Tick

/-- An open row about the runs of a subject that is reported as unknown. -/
def UnknownRow (t : AssuranceTables Detail) (clusterID : String) (findings : List Finding)
    (e : BackupAssuranceException Detail) : Prop :=
  e ∈ listOpen t clusterID ∧ AboutRuns e.condition ∧
    ReportedUnknown findings (keyOfException e).subject

/-- **Unknown is reported as cleared by every tick whose collection is ok.** A tick leaves such a
row open where the collection is not ok, whatever the store answers, and without a store error only
there. -/
theorem unknown_rows_kept_iff_not_ok (newSHA1 : Uuid → String → Uuid) (lib : Libraries)
    (clusterID : String) (obs : Observation) (policies : List BackupAssurancePolicy) (now : Time)
    (t : AssuranceTables Detail) (hkeyed : t.ledger.Keyed) (hscoped : Scoped policies)
    (e : BackupAssuranceException Detail)
    (he : UnknownRow t clusterID (evaluate lib obs policies now) e) :
    (obs.collection ≠ .ok → ∀ a u, Program.Runs (assuranceExec newSHA1)
      (reconcileTick clusterID now obs (evaluate lib obs policies now)) t a u →
        e.row ∈ u.ledger.rows) ∧
    ∀ u, Program.Runs (assuranceExec newSHA1)
      (reconcileTick clusterID now obs (evaluate lib obs policies now)) t (.ok []) u →
      (e.row ∈ u.ledger.rows ↔ obs.collection ≠ .ok) := by
  obtain ⟨hopen, hruns, hun⟩ := he
  refine ⟨fun hcl a u hrun => row_of_not_ok hcl hopen hrun, fun u hrun => ⟨fun hrow hcl => ?_,
    fun hcl => row_of_not_ok hcl hopen hrun⟩⟩
  refine (resolved_of_not_found hkeyed hopen hcl ?_ hrun).not_open (keyed_of_runs hrun hkeyed)
    (mem_listOpen.1 hopen).2.2 hrow
  rintro ⟨f, hf, hkey⟩
  have hcond : f.condition = e.condition := congrArg ExceptionKey.condition hkey
  rw [← show f.subject = (keyOfException e).subject from congrArg ExceptionKey.subject hkey] at hun
  exact not_aboutRuns_of_unknown hscoped hun hf (hcond ▸ hruns)

/-! ## A run that cannot be read -/

/-- The only run of the schedule is being deleted; every list was read. -/
def nightlyDeleting : Observation where
  clusterID := "local"
  collection := .ok
  failedLists := []
  detected := true
  backups := [⟨"nightly-1", "velero", "Deleting", [], [], none, none, "nightly", nightlyNow - hour⟩]
  schedules := [{ nightlySchedule with paused := false }]
  locations := some [⟨"default", "velero", "Available", true, ""⟩]

theorem nightlyFailed_unknown : UnknownRow nightlyTables "local"
      (evaluate shopLibraries nightlyDeleting [nightlyPolicy] nightlyNow) nightlyFailed := by
  obtain ⟨f, hev, hkey⟩ : ∃ f,
      evaluate shopLibraries nightlyDeleting [nightlyPolicy] nightlyNow = [f] ∧
        f.key = ⟨(keyOfException nightlyFailed).subject, .collectionUnknown⟩ := ⟨_, rfl, rfl⟩
  refine ⟨List.mem_cons_self, .inr (.inr (.inl rfl)), ?_⟩
  rw [hev, ReportedUnknown, ← hkey]
  exact List.mem_cons_self

/-- The tick reports the schedule as unknown and resolves its failure as cleared. -/
theorem failure_cleared_by_unknown_run : nightlyTables.ledger.Keyed ∧
    UnknownRow nightlyTables "local"
      (evaluate shopLibraries nightlyDeleting [nightlyPolicy] nightlyNow) nightlyFailed ∧
    ∃ u, Program.Runs (assuranceExec nightlySHA1) (reconcileTick "local" nightlyNow nightlyDeleting
          (evaluate shopLibraries nightlyDeleting [nightlyPolicy] nightlyNow)) nightlyTables
        (.ok []) u ∧
      nightlyFailed.asResolved nightlyNow assuranceResolutionConditionCleared ∈ u.exceptions ∧
      nightlyFailed.row ∉ u.ledger.rows := by
  refine ⟨nightlyTables_keyed, nightlyFailed_unknown, _,
    Program.runs_of_run [{}, { newID := 2 }, {}, {}] rfl, ?_, ?_⟩
  · exact List.mem_cons_self
  · decide

/-- The same, from a collection that did not read a list the evaluator does not use. -/
def nightlyDegraded : Observation :=
  { nightlyDeleting with collection := .degraded, failedLists := ["volumesnapshotlocations"] }

theorem nightlyPolicy_scoped : Scoped [nightlyPolicy] := by
  refine ⟨by decide, fun p hp q hq _ _ _ _ => ?_⟩
  rw [List.mem_singleton.1 hp, List.mem_singleton.1 hq]

theorem unknown_rows_kept_iff_not_ok_nightly :
    (∃ u, NightlyTick nightlyDegraded u ∧ nightlyFailed.row ∈ u.ledger.rows) ∧
    ∃ u, NightlyTick nightlyDeleting u ∧ nightlyFailed.row ∉ u.ledger.rows := by
  obtain ⟨u, hrun⟩ : ∃ u, NightlyTick nightlyDegraded u :=
    ⟨_, Program.runs_of_run [{}, { newID := 2 }, {}] rfl⟩
  obtain ⟨v, hrun'⟩ : ∃ v, NightlyTick nightlyDeleting v :=
    ⟨_, Program.runs_of_run [{}, { newID := 2 }, {}, {}] rfl⟩
  have hsame : evaluate shopLibraries nightlyDegraded [nightlyPolicy] nightlyNow =
      evaluate shopLibraries nightlyDeleting [nightlyPolicy] nightlyNow := rfl
  refine ⟨⟨u, hrun, (unknown_rows_kept_iff_not_ok nightlySHA1 shopLibraries "local" nightlyDegraded
    [nightlyPolicy] nightlyNow nightlyTables nightlyTables_keyed nightlyPolicy_scoped nightlyFailed
    (hsame ▸ nightlyFailed_unknown)).1 (by decide) _ u hrun⟩, v, hrun', fun hrow => ?_⟩
  exact ((unknown_rows_kept_iff_not_ok nightlySHA1 shopLibraries "local" nightlyDeleting
    [nightlyPolicy] nightlyNow nightlyTables nightlyTables_keyed nightlyPolicy_scoped nightlyFailed
    nightlyFailed_unknown).2 v hrun').1 hrow rfl

end KubeCenter.Velero
