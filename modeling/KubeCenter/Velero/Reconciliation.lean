import KubeCenter.Store.AssuranceLedger
import KubeCenter.Velero.AssuranceService
import KubeCenter.Velero.Canonical

/-! # What one tick makes of the ledger

A tick that runs alone and whose store calls report no error. `Reached` is what the loop over the
findings has done, `Closed` what the loop over the loaded rows has done. -/
namespace KubeCenter.Velero

open Lib Go Store Program List

/-! ## Keys -/

def ExceptionKey.identity (clusterID : String) (k : ExceptionKey) : AssuranceIdentity :=
  ⟨clusterID, k.subject.kind, k.subject.namespace_, k.subject.name, k.subject.uid, k.condition⟩

theorem ExceptionKey.identity_inj {clusterID : String} {k k' : ExceptionKey}
    (h : k.identity clusterID = k'.identity clusterID) : k = k' := by
  obtain ⟨⟨kind, ns, name, uid⟩, condition⟩ := k
  obtain ⟨⟨kind', ns', name', uid'⟩, condition'⟩ := k'
  cases h
  rfl

variable {t u : AssuranceTables Detail} {clusterID : String}
  {e : BackupAssuranceException Detail} {newSHA1 : Uuid → String → Uuid}

theorem identity_eq (h : e.clusterID = clusterID) :
    e.identity = (keyOfException e).identity clusterID := by
  subst h
  rfl

theorem mem_listOpen : e ∈ listOpen t clusterID ↔
      e ∈ t.exceptions ∧ e.clusterID = clusterID ∧ e.state = .stateOpen := by
  simp [listOpen]

variable {key : ExceptionKey}

theorem isOpen_iff_listed : t.ledger.IsOpen (key.identity clusterID) ↔
      ∃ e ∈ listOpen t clusterID, keyOfException e = key := by
  rw [isOpen_iff]
  constructor
  · rintro ⟨e, he, hkey, hop⟩
    have hcu : e.clusterID = clusterID := congrArg AssuranceIdentity.clusterID hkey
    rw [identity_eq hcu] at hkey
    exact ⟨e, mem_listOpen.2 ⟨he, hcu, hop⟩, ExceptionKey.identity_inj hkey⟩
  · rintro ⟨e, he, rfl⟩
    obtain ⟨he, hcu, hop⟩ := mem_listOpen.1 he
    exact ⟨e, he, identity_eq hcu, hop⟩

theorem openByKey_some {rows} (h : openByKey rows key = some e) :
    e ∈ rows ∧ keyOfException e = key := by
  refine ⟨mem_reverse.1 (mem_of_find?_eq_some h), ?_⟩
  simpa using find?_some h

theorem openByKey_none {rows} (h : openByKey rows key = none) (he : e ∈ rows) :
    keyOfException e ≠ key := by
  simpa using find?_eq_none.1 h e (mem_reverse.2 he)

theorem id_eq_of_key (hky : t.ledger.Keyed) {e e' : BackupAssuranceException Detail}
    (he : e ∈ listOpen t clusterID) (he' : e' ∈ listOpen t clusterID)
    (h : keyOfException e = keyOfException e') : e.id = e'.id := by
  obtain ⟨he, hcu, hop⟩ := mem_listOpen.1 he
  obtain ⟨he', hcu', hop'⟩ := mem_listOpen.1 he'
  have hi : e.row.identity = e'.row.identity := by
    show e.identity = e'.identity
    rw [identity_eq hcu, identity_eq hcu', h]
  exact congrArg LedgerRow.id (hky.eq_of_identity (mem_rows he) (mem_rows he') hop hop' hi)

/-! ## The loop over the findings -/

/-- The findings in `done` were reconciled against the loaded rows: `new` was opened. -/
structure Reached (clusterID : String) (rows : List (BackupAssuranceException Detail))
    (L : Ledger) (done : List Finding) (p : Progress) (t : AssuranceTables Detail)
    (new : List LedgerRow) : Prop where
  rows_eq : t.ledger.rows = L.rows ++ new
  intents_eq : t.ledger.intents = L.intents ++ new.map fun r => (r.id, .opened)
  wanted : ∀ r ∈ new, r.state = .stateOpen ∧
    ∃ f ∈ done, f.hold = false ∧ r.identity = f.key.identity clusterID
  opened : ∀ f ∈ done, f.hold = false → t.ledger.IsOpen (f.key.identity clusterID)
  accounted : ∀ id ∈ p.matched,
    (∃ f ∈ done, ∃ e, openByKey rows f.key = some e ∧ e.id = id) ∨ ∃ r ∈ new, r.id = id

theorem reached_start (t : AssuranceTables Detail) (rows : List (BackupAssuranceException Detail)) :
    Reached clusterID rows t.ledger [] {} t [] where
  rows_eq := by rw [append_nil]
  intents_eq := by rw [map_nil, append_nil]
  wanted _ h := absurd h not_mem_nil
  opened _ h := absurd h not_mem_nil
  accounted _ h := absurd h not_mem_nil

section Step

variable {rows : List (BackupAssuranceException Detail)} {L : Ledger} {done : List Finding}
  {p p' : Progress} {f : Finding} {new : List LedgerRow} {now : Time}

variable {id : Uuid}

theorem runs_observe {r} (h : Ran newSHA1 (observe id now f) t r u) : u.ledger = t.ledger := by
  obtain ⟨a, m, hm, hth⟩ := runs_bind.1 h
  have hu : u = m := by
    split at hth <;> exact (runs_done.1 hth).2
  rw [hu]
  exact runs_observeException hm

theorem runs_observed {r} (h : Ran newSHA1 (p.observed id now f) t r u) : u.ledger = t.ledger ∧
      ∀ p', r = .ok p' → p'.matched = id :: p.matched ∧ (p'.skipped = [] → p.skipped = []) := by
  rcases runs_andThen.1 h with ⟨skipped, m, hm, hth⟩ | ⟨err, hm, rfl⟩
  · obtain ⟨rfl, rfl⟩ := runs_done.1 hth
    refine ⟨runs_observe hm, fun p' hp' => ?_⟩
    cases hp'
    exact ⟨rfl, fun hsk => (append_eq_nil_iff.1 hsk).1⟩
  · exact ⟨runs_observe hm, nofun⟩

/-- A held finding that is not among the rows is passed over, and so is one whose row is open. -/
theorem Reached.passed (h : Reached clusterID rows L done p t new)
    (hop : f.hold = false → t.ledger.IsOpen (f.key.identity clusterID)) :
    Reached clusterID rows L (done ++ [f]) p t new where
  rows_eq := h.rows_eq
  intents_eq := h.intents_eq
  wanted r hr := by
    obtain ⟨hsa, g, hg, hwn⟩ := h.wanted r hr
    exact ⟨hsa, g, mem_append_left _ hg, hwn⟩
  opened g hg hh := by
    rcases mem_concat hg with hg | rfl
    · exact h.opened g hg hh
    · exact hop hh
  accounted id hid := by
    rcases h.accounted id hid with ⟨g, hg, he⟩ | hnew
    · exact .inl ⟨g, mem_append_left _ hg, he⟩
    · exact .inr hnew

theorem Reached.observed (h : Reached clusterID rows L done p t new) (hld : u.ledger = t.ledger)
    (hma : p'.matched = id :: p.matched) (hop : u.ledger.IsOpen (f.key.identity clusterID))
    (hac : (∃ e, openByKey rows f.key = some e ∧ e.id = id) ∨ ∃ r ∈ new, r.id = id) :
    Reached clusterID rows L (done ++ [f]) p' u new := by
  have hps := h.passed fun _ => hld ▸ hop
  refine ⟨by rw [hld, h.rows_eq], by rw [hld, h.intents_eq], hps.wanted,
    hld ▸ hps.opened, fun id' hid' => ?_⟩
  rw [hma] at hid'
  rcases mem_cons.1 hid' with rfl | hid'
  · rcases hac with ⟨e, he⟩ | hnew
    · exact .inl ⟨f, mem_append_right _ mem_cons_self, e, he⟩
    · exact .inr hnew
  · exact hps.accounted id' hid'

theorem Reached.opens (h : Reached clusterID rows L done p t new) (hh : f.hold = false)
    (hld : u.ledger = t.ledger.openRow id (f.key.identity clusterID)) :
    Reached clusterID rows L (done ++ [f]) { p with matched := id :: p.matched } u
      (new ++ [⟨id, f.key.identity clusterID, .stateOpen⟩]) where
  rows_eq := by rw [hld, Ledger.openRow, h.rows_eq, append_assoc]
  intents_eq := by
    rw [hld, Ledger.openRow, h.intents_eq, map_append, append_assoc]
    rfl
  wanted r hr := by
    rcases mem_concat hr with hr | hr
    · obtain ⟨hsa, g, hg, hwn⟩ := h.wanted r hr
      exact ⟨hsa, g, mem_append_left _ hg, hwn⟩
    · rw [hr]
      exact ⟨rfl, f, mem_append_right _ mem_cons_self, hh, rfl⟩
  opened g hg hg' := by
    rw [hld]
    rcases mem_concat hg with hg | hg
    · obtain ⟨r, hr, hrow⟩ := h.opened g hg hg'
      exact ⟨r, mem_append_left _ hr, hrow⟩
    · rw [hg]
      exact ⟨_, mem_append_right _ mem_cons_self, rfl, rfl⟩
  accounted id' hid' := by
    rcases mem_cons.1 hid' with rfl | hid'
    · exact .inr ⟨_, mem_append_right _ mem_cons_self, rfl⟩
    · rcases h.accounted id' hid' with ⟨g, hg, he⟩ | ⟨r, hr, hid⟩
      · exact .inl ⟨g, mem_append_left _ hg, he⟩
      · exact .inr ⟨r, mem_append_left _ hr, hid⟩

end Step

variable {rows : List (BackupAssuranceException Detail)} {s : AssuranceTables Detail}
  {p p' : Progress} {ids : List Uuid} {f : Finding} {r : LedgerRow} {now : Time}

section FindingRun

variable (clusterID rows t p f)

/-- Its row was loaded, it is held, no row can be opened, one is opened, or found open. -/
inductive FindingRun : Except AssuranceError Progress → AssuranceTables Detail → Prop
  | listed {e a u} : openByKey rows f.key = some e → u.ledger = t.ledger →
      (∀ p', a = .ok p' → p'.matched = e.id :: p.matched ∧ (p'.skipped = [] → p.skipped = [])) →
      FindingRun a u
  | held : openByKey rows f.key = none → f.hold = true → FindingRun (.ok p) t
  | skipped (err : AssuranceError) {u} : openByKey rows f.key = none → f.hold = false →
      FindingRun (.ok (p.skip err)) u
  | failed (err : AssuranceError) {u} : openByKey rows f.key = none → f.hold = false →
      FindingRun (.error err) u
  | opened {id u} : openByKey rows f.key = none → f.hold = false →
      u.ledger = t.ledger.openRow id (f.key.identity clusterID) →
      FindingRun (.ok { p with matched := id :: p.matched }) u
  | found {r a u} : openByKey rows f.key = none → f.hold = false → r ∈ t.ledger.rows →
      r.identity = f.key.identity clusterID → r.state = .stateOpen → u.ledger = t.ledger →
      (∀ p', a = .ok p' → p'.matched = r.id :: p.matched ∧ (p'.skipped = [] → p.skipped = [])) →
      FindingRun a u

end FindingRun

theorem findingRun_of_runs {a} (h : Ran newSHA1
      (reconcileFinding clusterID now rows p f) t a u) : FindingRun t clusterID rows p f a u := by
  unfold reconcileFinding at h
  split at h
  next e hfo =>
    obtain ⟨hld, hp⟩ := runs_observed h
    exact .listed hfo hld hp
  next hfo =>
    cases hh : f.hold with
    | true =>
      rw [hh, if_pos rfl] at h
      obtain ⟨rfl, rfl⟩ := runs_done.1 h
      exact .held hfo hh
    | false =>
      simp only [hh, Bool.false_eq_true, if_false] at h
      obtain ⟨id, m, hid, hth⟩ := runs_bind.1 h
      obtain ⟨w, hid⟩ := runs_request.1 hid
      cases hid
      obtain ⟨r, m, hop, hth⟩ := runs_bind.1 hth
      split at hth
      case h_5 =>
        obtain ⟨rfl, rfl⟩ := runs_done.1 hth
        rcases runs_openException hop with ⟨-, hgot, -, -, -, hld⟩ | ⟨hfa, -⟩
        · rw [hgot]
          exact .opened hfo hh hld
        · cases hfa
      case h_6 =>
        obtain ⟨hld, hp⟩ := runs_observed hth
        rcases runs_openException hop with ⟨htr, -⟩ | ⟨-, rfl, hrow, hi, hsa⟩
        · cases htr
        · exact .found hfo hh hrow hi hsa hld hp
      case h_4 =>
        rw [(runs_done.1 hth).1]
        exact .failed _ hfo hh
      all_goals
        rw [(runs_done.1 hth).1]
        exact .skipped _ hfo hh

theorem FindingRun.of_skipped (h : FindingRun t clusterID rows p f (.ok p') u)
    (hsk : p'.skipped = []) : p.skipped = [] := by
  cases h with
  | listed _ _ hp | found _ _ _ _ _ _ hp => exact (hp p' rfl).2 hsk
  | held | opened => exact hsk
  | skipped => exact (append_eq_nil_iff.1 hsk).1

theorem FindingRun.matched (h : FindingRun t clusterID rows p f (.ok p') u) :
    (∀ id ∈ p.matched, id ∈ p'.matched) ∧
      ∀ e, openByKey rows f.key = some e → e.id ∈ p'.matched := by
  have hno : openByKey rows f.key = none →
      ∀ e, openByKey rows f.key = some e → e.id ∈ p'.matched := by
    intro hfo e he
    rw [hfo] at he
    cases he
  cases h with
  | listed hfo _ hp =>
    rw [(hp p' rfl).1]
    refine ⟨fun _ => mem_cons_of_mem _, fun e he => ?_⟩
    rw [hfo] at he
    cases he
    exact mem_cons_self
  | held hfo | skipped _ hfo => exact ⟨fun _ hid => hid, hno hfo⟩
  | opened hfo => exact ⟨fun _ => mem_cons_of_mem _, hno hfo⟩
  | found hfo _ _ _ _ _ hp =>
    refine ⟨?_, hno hfo⟩
    rw [(hp p' rfl).1]
    exact fun _ => mem_cons_of_mem _

/-- At the end of the findings a loaded row is matched if a finding has its key. -/
theorem matched_of_findings {findings} (hky : s.ledger.Keyed) (h : Ran newSHA1
      (loop (reconcileFinding clusterID now (listOpen s clusterID)) findings {}) t
      (.ok p) u) (he : e ∈ listOpen s clusterID) (hf : f ∈ findings)
    (hkey : f.key = keyOfException e) : e.id ∈ p.matched := by
  let I (done : List Finding) (p : Progress) (_ : AssuranceTables Detail) : Prop :=
    ∀ f ∈ done, ∀ e, openByKey (listOpen s clusterID) f.key = some e → e.id ∈ p.matched
  have hma : I findings p u := by
    refine runs_loop (I := I) ?_ (fun _ hf => absurd hf not_mem_nil) h
    intro before f after p t p' v _ hI hrun g hg e he
    obtain ⟨hgr, hf⟩ := (findingRun_of_runs hrun).matched
    rcases mem_concat hg with hg | hg
    · exact hgr _ (hI g hg e he)
    · rw [hg] at he
      exact hf e he
  cases hfo : openByKey (listOpen s clusterID) f.key with
  | none => exact absurd hkey.symm (openByKey_none hfo he)
  | some e' =>
    obtain ⟨hmem, hkey'⟩ := openByKey_some hfo
    rw [← id_eq_of_key hky hmem he (hkey'.trans hkey)]
    exact hma f hf e' hfo

theorem Reached.step {done new} (h : Reached clusterID (listOpen s clusterID) s.ledger done p t new)
    (hrun : FindingRun t clusterID (listOpen s clusterID) p f (.ok p') u)
    (hsk : p'.skipped = []) :
    ∃ new', Reached clusterID (listOpen s clusterID) s.ledger (done ++ [f]) p' u new' := by
  cases hrun with
  | listed hfo hld hp =>
    obtain ⟨hmem, hkey⟩ := openByKey_some hfo
    obtain ⟨r, hr, hop⟩ := isOpen_iff_listed.2 ⟨_, hmem, hkey⟩
    refine ⟨new, h.observed hld (hp p' rfl).1 ?_ (.inl ⟨_, hfo, rfl⟩)⟩
    rw [hld]
    refine ⟨r, ?_, hop⟩
    rw [h.rows_eq]
    exact mem_append_left _ hr
  | held _ hh => exact ⟨new, h.passed fun hop => nomatch hh.symm.trans hop⟩
  | skipped => simp [Progress.skip] at hsk
  | opened _ hh hld => exact ⟨_, h.opens hh hld⟩
  | found hfo _ hrow hi hsa hld hp =>
    -- an open row that was not loaded is one this tick opened
    refine ⟨new, h.observed hld (hp p' rfl).1 ?_ (.inr ?_)⟩
    · rw [hld]
      exact ⟨_, hrow, hi, hsa⟩
    · rw [h.rows_eq] at hrow
      rcases mem_append.1 hrow with hold | hnew
      · obtain ⟨e, he, hkey⟩ := isOpen_iff_listed.1
          (⟨_, hold, hi, hsa⟩ : s.ledger.IsOpen (f.key.identity clusterID))
        exact absurd hkey (openByKey_none hfo he)
      · exact ⟨_, hnew, rfl⟩

theorem runs_findings {findings} (h : Ran newSHA1
      (loop (reconcileFinding clusterID now (listOpen s clusterID)) findings {}) s
      (.ok p) u) (hsk : p.skipped = []) :
    ∃ new, Reached clusterID (listOpen s clusterID) s.ledger findings p u new := by
  let I (done : List Finding) (p : Progress) (t : AssuranceTables Detail) : Prop :=
    p.skipped = [] → ∃ new, Reached clusterID (listOpen s clusterID) s.ledger done p t new
  refine runs_loop (I := I) ?_ (fun _ => ⟨[], reached_start s _⟩) h hsk
  intro before f after p t p' u _ hI hst hsk
  have hrun := findingRun_of_runs hst
  obtain ⟨new, hrc⟩ := hI (hrun.of_skipped hsk)
  exact hrc.step hrun hsk

/-! ## The loop over the loaded rows -/

/-- A row after the rows of `ids` were resolved. -/
def resolveIn (ids : List Uuid) (r : LedgerRow) : LedgerRow :=
  ids.foldl (fun r id => r.resolve id) r

theorem resolveIn_append (ids : List Uuid) (id : Uuid) (r : LedgerRow) :
    resolveIn (ids ++ [id]) r = (resolveIn ids r).resolve id := foldl_append

theorem resolveIn_eq (ids : List Uuid) (r : LedgerRow) : resolveIn ids r =
    if r.id ∈ ids ∧ r.state = .stateOpen then { r with state := .stateResolved } else r := by
  induction ids generalizing r with
  | nil => simp [resolveIn]
  | cons id ids ih =>
    show resolveIn ids (r.resolve id) = _
    rw [ih]
    unfold LedgerRow.resolve
    by_cases hid : r.id = id <;> by_cases hop : r.state = .stateOpen <;> simp [hid, hop]

theorem resolveIn_of_notMem (h : r.id ∉ ids) : resolveIn ids r = r :=
  (resolveIn_eq ids r).trans (if_neg fun hr => h hr.1)

theorem resolveIn_state (h : r.id ∈ ids) : (resolveIn ids r).state = .stateResolved := by
  rw [resolveIn_eq]
  cases hsa : r.state <;> simp [h, hsa]

/-- The rows of `ids` were resolved, each that was open with its intent. -/
structure Closed (L : Ledger) (ids : List Uuid) (t : AssuranceTables Detail) : Prop where
  rows_eq : t.ledger.rows = L.rows.map (resolveIn ids)
  intents : ∀ r ∈ L.rows, r.state = .stateOpen → r.id ∈ ids → (r.id, .resolved) ∈ t.ledger.intents

theorem closed_start (t : AssuranceTables Detail) : Closed t.ledger [] t where
  rows_eq := (map_id' _).symm
  intents _ _ _ h := absurd h not_mem_nil

theorem Closed.step {L : Ledger} {id : Uuid} {time : Time} {reason : String} {b : Bool}
    (h : Closed L ids t)
    (hrun : Ran newSHA1 (resolveExceptionAndEnqueue id time reason) t
      (.ok b) u) : Closed L (ids ++ [id]) u := by
  rcases runs_resolveException hrun with ⟨rfl, hno⟩ | hld
  · have hsm : ∀ r ∈ L.rows, (resolveIn ids r).resolve id = resolveIn ids r := by
      intro r hr
      refine if_neg fun hop => hno (resolveIn ids r) ?_ hop.1 hop.2
      rw [h.rows_eq]
      exact mem_map_of_mem hr
    refine ⟨?_, ?_⟩
    · rw [h.rows_eq]
      refine map_congr_left fun r hr => ?_
      rw [resolveIn_append, hsm r hr]
    · intro r hr hop hid
      refine h.intents r hr hop ?_
      -- the row is not open any more, so it was resolved before
      by_contra hnew
      rcases mem_concat hid with hid | hid
      · exact hnew hid
      · have hrow : resolveIn ids r = r := resolveIn_of_notMem hnew
        refine hno r ?_ hid hop
        rw [h.rows_eq]
        exact mem_map.2 ⟨r, hr, hrow⟩
  · refine ⟨?_, ?_⟩
    · rw [hld, Ledger.resolveRow, h.rows_eq, map_map]
      exact map_congr_left fun r _ => (resolveIn_append ids id r).symm
    · intro r hr hop hid
      rw [hld]
      rcases mem_concat hid with hid | hid
      · exact mem_append_left _ (h.intents r hr hop hid)
      · rw [hid]
        exact mem_append_right _ mem_cons_self

def unmatchedIDs (matched : List Uuid) (rows : List (BackupAssuranceException Detail)) :
    List Uuid :=
  (rows.filter fun e => !matched.contains e.id).map (·.id)

theorem mem_unmatchedIDs {matched} {id : Uuid} :
    id ∈ unmatchedIDs matched rows ↔ id ∉ matched ∧ ∃ e ∈ rows, e.id = id := by
  simp only [unmatchedIDs, mem_map, mem_filter, Bool.not_eq_true']
  constructor
  · rintro ⟨e, ⟨he, hma⟩, rfl⟩
    exact ⟨by simpa using hma, e, he, rfl⟩
  · rintro ⟨hma, e, he, rfl⟩
    exact ⟨e, ⟨he, by simpa using hma⟩, rfl⟩

theorem runs_unmatched {obs matched} (h : Ran newSHA1
      (loop (resolveUnmatched now obs matched) rows ()) s (.ok ()) u) :
    Closed s.ledger (unmatchedIDs matched rows) u := by
  let I (done : List (BackupAssuranceException Detail)) (_ : Unit)
      (t : AssuranceTables Detail) : Prop := Closed s.ledger (unmatchedIDs matched done) t
  refine runs_loop (I := I) ?_ (closed_start s) h
  intro before e after _ t _ u _ hI hst
  show Closed s.ledger (unmatchedIDs matched (before ++ [e])) u
  unfold resolveUnmatched at hst
  by_cases hma : matched.contains e.id = true
  · rw [if_pos hma] at hst
    obtain ⟨-, rfl⟩ := runs_done.1 hst
    have hids : unmatchedIDs matched (before ++ [e]) = unmatchedIDs matched before := by
      simp [unmatchedIDs, hma, -contains_eq_mem]
    rw [hids]
    exact hI
  · rw [if_neg hma] at hst
    have hids : unmatchedIDs matched (before ++ [e]) = unmatchedIDs matched before ++ [e.id] := by
      simp [unmatchedIDs, hma, -contains_eq_mem]
    rw [hids]
    obtain ⟨b, m, hres, hth⟩ := runs_andThen_ok.1 hst
    obtain ⟨-, rfl⟩ := runs_done.1 hth
    exact hI.step hres

/-! ## The tick -/

theorem keyed_of_runs {α : Type} {p : AssuranceProgram Detail α} {a : α}
    (h : Ran newSHA1 p t a u) (hky : t.ledger.Keyed) :
    u.ledger.Keyed :=
  h.keeps (P := fun t => t.ledger.Keyed) (fun c w t _ ht => ht.move (ledger_move c w t))
    (only_true p) hky

section Tick

variable {now : Time} {obs : Observation} {findings : List Finding}

section TickRun

variable (newSHA1 : Uuid → String → Uuid) (clusterID : String) (now : Time) (obs : Observation)
  (findings : List Finding) (t : AssuranceTables Detail)

/-- How far a tick that is alone gets. The rows it works on are those it loaded. -/
inductive TickRun : Except AssuranceError (List AssuranceError) → AssuranceTables Detail → Prop
  | unread (err : AssuranceError) : TickRun (.error err) t
  | stopped {err u} : Program.Runs (assuranceExec newSHA1)
        (Program.loop (reconcileFinding clusterID now (listOpen t clusterID)) findings {}) t
        (.error err) u → TickRun (.error err) u
  | unresolved {p : Progress} {u} : obs.collection ≠ .ok → Program.Runs (assuranceExec newSHA1)
        (Program.loop (reconcileFinding clusterID now (listOpen t clusterID)) findings {}) t
        (.ok p) u → TickRun (.ok p.skipped) u
  | resolved {p : Progress} {m r u} : obs.collection = .ok → Program.Runs (assuranceExec newSHA1)
        (Program.loop (reconcileFinding clusterID now (listOpen t clusterID)) findings {}) t
        (.ok p) m →
      Program.Runs (assuranceExec newSHA1)
        (Program.loop (resolveUnmatched now obs p.matched) (listOpen t clusterID) ()) m
        r u → TickRun (r.map fun _ => p.skipped) u

end TickRun

theorem tickRun_of_runs {a} (h : Ran newSHA1 (reconcileTick clusterID now obs findings) t a u) :
    TickRun newSHA1 clusterID now obs findings t a u := by
  rcases runs_andThen.1 h with ⟨rows, t', hls, hrec⟩ | ⟨err, hls, rfl⟩
  · obtain ⟨rfl, hrw | hrw⟩ := runs_listOpen hls
    · obtain rfl := Except.ok.inj hrw
      rcases runs_andThen.1 hrec with ⟨p, m, hfd, hth⟩ | ⟨err, hfd, rfl⟩
      · by_cases hcl : obs.collection ≠ .ok
        · rw [if_pos hcl] at hth
          obtain ⟨rfl, rfl⟩ := runs_done.1 hth
          exact .unresolved hcl hfd
        · rw [if_neg hcl] at hth
          rw [not_not] at hcl
          rcases runs_andThen.1 hth with ⟨_, v, hrs, hdn⟩ | ⟨err, hrs, rfl⟩
          · obtain ⟨rfl, rfl⟩ := runs_done.1 hdn
            exact .resolved hcl hfd hrs
          · exact .resolved hcl hfd hrs
      · exact .stopped hfd
    · cases hrw
  · rw [(runs_listOpen hls).1]
    exact .unread err

def Matching (clusterID : String) (t : AssuranceTables Detail) (findings : List Finding)
    (p : Progress) : Prop :=
  ∀ e ∈ listOpen t clusterID, ∀ f ∈ findings, f.key = keyOfException e → e.id ∈ p.matched

/-- The findings loop, and if the collection was ok the loop that resolves. -/
theorem runs_tick (h : Ran newSHA1 (reconcileTick clusterID now obs findings) t
      (.ok []) u) (hky : t.ledger.Keyed) :
    ∃ p m new, Reached clusterID (listOpen t clusterID) t.ledger findings p m new ∧
      m.ledger.Keyed ∧ Matching clusterID t findings p ∧ (obs.collection ≠ .ok → u = m) ∧
      (obs.collection = .ok →
        Closed m.ledger (unmatchedIDs p.matched (listOpen t clusterID)) u) := by
  generalize han : Except.ok [] = a at h
  cases tickRun_of_runs h with
  | unread | stopped => cases han
  | unresolved hcl hfd =>
    obtain ⟨new, hrc⟩ := runs_findings hfd (Except.ok.inj han).symm
    exact ⟨_, u, new, hrc, keyed_of_runs hfd hky,
      fun e he f hf hkey => matched_of_findings hky hfd he hf hkey, fun _ => rfl,
      fun hok => absurd hok hcl⟩
  | @resolved p m r _ hcl hfd hunm =>
    cases r with
    | error err => cases han
    | ok _ =>
      obtain ⟨new, hrc⟩ := runs_findings hfd (Except.ok.inj han).symm
      exact ⟨p, m, new, hrc, keyed_of_runs hfd hky,
        fun e he f hf hkey => matched_of_findings hky hfd he hf hkey,
        absurd hcl, fun _ => runs_unmatched hunm⟩

variable {p : Progress} {m : AssuranceTables Detail} {new : List LedgerRow}

section

variable (h : Reached clusterID (listOpen t clusterID) t.ledger findings p m new)
include h

theorem Reached.kept {r : LedgerRow} (hr : r ∈ t.ledger.rows) : r ∈ m.ledger.rows := by
  rw [h.rows_eq]
  exact mem_append_left _ hr

/-- Exactly the loaded rows whose key a finding has are matched. -/
theorem Reached.matched_iff (hky : t.ledger.Keyed) (hm : m.ledger.Keyed)
    (hmt : Matching clusterID t findings p)
    (he : e ∈ listOpen t clusterID) :
    e.id ∈ p.matched ↔ ∃ f ∈ findings, f.key = keyOfException e := by
  constructor
  · intro hid
    rcases h.accounted e.id hid with ⟨f, hf, e', he', hid'⟩ | ⟨r, hr, hid'⟩
    · obtain ⟨hmem, hkey⟩ := openByKey_some he'
      obtain ⟨hmem, -⟩ := mem_listOpen.1 hmem
      have hrow : e'.row = e.row :=
        hky.eq_of_id (mem_rows hmem) (mem_rows (mem_listOpen.1 he).1) hid'
      refine ⟨f, hf, ?_⟩
      rw [← hkey]
      have hi : e'.identity = e.identity := congrArg LedgerRow.identity hrow
      have hcu : e'.clusterID = e.clusterID := congrArg AssuranceIdentity.clusterID hi
      rw [identity_eq hcu] at hi
      exact ExceptionKey.identity_inj hi
    · -- an id this tick gave to a row of its own
      have hds := hm.ids
      rw [h.rows_eq, map_append, nodup_append'] at hds
      have hmem : e.id ∈ t.ledger.rows.map (·.id) := mem_map_of_mem (mem_rows (mem_listOpen.1 he).1)
      rw [← hid'] at hmem
      exact (hds.2.2 hmem (mem_map_of_mem hr)).elim
  · rintro ⟨f, hf, hkey⟩
    exact hmt e he f hf hkey

theorem Reached.isOpen_iff (key : ExceptionKey) : m.ledger.IsOpen (key.identity clusterID) ↔
      t.ledger.IsOpen (key.identity clusterID) ∨ ∃ f ∈ findings, f.key = key ∧ f.hold = false := by
  constructor
  · rintro ⟨r, hr, hi, hop⟩
    rw [h.rows_eq] at hr
    rcases mem_append.1 hr with hr | hr
    · exact .inl ⟨r, hr, hi, hop⟩
    · obtain ⟨-, f, hf, hh, hkey⟩ := h.wanted r hr
      rw [hi] at hkey
      exact .inr ⟨f, hf, (ExceptionKey.identity_inj hkey).symm, hh⟩
  · rintro (⟨r, hr, hop⟩ | ⟨f, hf, rfl, hh⟩)
    · exact ⟨r, h.kept hr, hop⟩
    · exact h.opened f hf hh

end

theorem Closed.isOpen_iff {L : Ledger} {ids : List Uuid} (h : Closed L ids u) {identity} :
    u.ledger.IsOpen identity ↔
      ∃ r ∈ L.rows, r.identity = identity ∧ r.state = .stateOpen ∧ r.id ∉ ids := by
  constructor
  · rintro ⟨r', hr', hi, hop⟩
    rw [h.rows_eq] at hr'
    obtain ⟨r, hr, rfl⟩ := mem_map.1 hr'
    have hid : r.id ∉ ids := by
      intro hid
      rw [resolveIn_state hid] at hop
      cases hop
    rw [resolveIn_of_notMem hid] at hi hop
    exact ⟨r, hr, hi, hop, hid⟩
  · rintro ⟨r, hr, hi, hop, hid⟩
    refine ⟨r, ?_, hi, hop⟩
    rw [h.rows_eq]
    exact mem_map.2 ⟨r, hr, resolveIn_of_notMem hid⟩

/-- With resolving: the findings that are not held or were open. -/
theorem Reached.isOpen_iff_of_closed
    (h : Reached clusterID (listOpen t clusterID) t.ledger findings p m new)
    (hky : t.ledger.Keyed) (hm : m.ledger.Keyed) (hmt : Matching clusterID t findings p)
    (hcs : Closed m.ledger (unmatchedIDs p.matched (listOpen t clusterID)) u)
    (key : ExceptionKey) :
    u.ledger.IsOpen (key.identity clusterID) ↔ ∃ f ∈ findings, f.key = key ∧
        (f.hold = false ∨ t.ledger.IsOpen (key.identity clusterID)) := by
  rw [hcs.isOpen_iff]
  constructor
  · rintro ⟨r, hr, hi, hop, hid⟩
    rw [h.rows_eq] at hr
    rcases mem_append.1 hr with hr | hr
    · have hwas : t.ledger.IsOpen (key.identity clusterID) := ⟨r, hr, hi, hop⟩
      obtain ⟨e, he, hkey⟩ := isOpen_iff_listed.1 hwas
      obtain ⟨hmem, hcu, hsa⟩ := mem_listOpen.1 he
      have hrow : r = e.row := by
        refine hky.eq_of_identity hr (mem_rows hmem) hop hsa ?_
        rw [hi, ← hkey]
        exact (identity_eq hcu).symm
      have hma : e.id ∈ p.matched := by
        by_contra hma
        refine hid (mem_unmatchedIDs.2 ?_)
        rw [hrow]
        exact ⟨hma, e, he, rfl⟩
      obtain ⟨f, hf, hfk⟩ := (h.matched_iff hky hm hmt he).1 hma
      exact ⟨f, hf, hfk.trans hkey, .inr hwas⟩
    · obtain ⟨-, f, hf, hh, hkey⟩ := h.wanted r hr
      rw [hi] at hkey
      exact ⟨f, hf, (ExceptionKey.identity_inj hkey).symm, .inl hh⟩
  · rintro ⟨f, hf, rfl, hwn⟩
    have hop : m.ledger.IsOpen (f.key.identity clusterID) := by
      refine (h.isOpen_iff f.key).2 ?_
      rcases hwn with hh | hwas
      · exact .inr ⟨f, hf, rfl, hh⟩
      · exact .inl hwas
    obtain ⟨r, hr, hi, hop⟩ := hop
    refine ⟨r, hr, hi, hop, fun hid => ?_⟩
    -- were it resolved, it would be a loaded row, with the key of a finding
    obtain ⟨hunm, e, he, heid⟩ := mem_unmatchedIDs.1 hid
    obtain ⟨hmem, hcu, -⟩ := mem_listOpen.1 he
    have hrow : e.row = r := hm.eq_of_id (h.kept (mem_rows hmem)) hr heid
    refine hunm ?_
    rw [← heid]
    refine (h.matched_iff hky hm hmt he).2 ⟨f, hf, ?_⟩
    rw [← hrow, show e.row.identity = e.identity from rfl, identity_eq hcu] at hi
    exact (ExceptionKey.identity_inj hi).symm

/-- A row was resolved, and one intent says so. -/
def ResolvedOnce (u : AssuranceTables Detail) (e : BackupAssuranceException Detail) : Prop :=
  ⟨e.id, e.identity, .stateResolved⟩ ∈ u.ledger.rows ∧ u.ledger.intents.count (e.id, .resolved) = 1

theorem Closed.resolvedOnce {ids : List Uuid} (h : Closed m.ledger ids u)
    (hky : u.ledger.Keyed) (hrow : e.row ∈ m.ledger.rows) (hop : e.state = .stateOpen)
    (hid : e.id ∈ ids) : ResolvedOnce u e := by
  refine ⟨?_, ?_⟩
  · rw [h.rows_eq]
    exact mem_map.2 ⟨e.row, hrow, (resolveIn_eq ids e.row).trans (if_pos ⟨hid, hop⟩)⟩
  · exact count_eq_one_of_mem hky.once (h.intents e.row hrow hop hid)

/-! ## A tick with nothing to do -/

variable {v : AssuranceTables Detail}

theorem FindingRun.settled {f : Finding} {r : Except AssuranceError Progress}
    (h : FindingRun t clusterID (listOpen u clusterID) p f r v)
    (hop : f.hold = false → u.ledger.IsOpen (f.key.identity clusterID)) :
    v.ledger = t.ledger := by
  cases h with
  | listed _ hld | found _ _ _ _ _ hld => exact hld
  | held => rfl
  | skipped _ hfo hh | failed _ hfo hh | opened hfo hh =>
    obtain ⟨e, he, hkey⟩ := isOpen_iff_listed.1 (hop hh)
    exact absurd hkey (openByKey_none hfo he)

/-- A tick with nothing to open and nothing to resolve leaves the ledger, wherever it stops. -/
theorem runs_settled {r : Except AssuranceError (List AssuranceError)} (hky : u.ledger.Keyed)
    (hop : ∀ f ∈ findings, f.hold = false → u.ledger.IsOpen (f.key.identity clusterID))
    (hwn : obs.collection = .ok → ∀ e ∈ listOpen u clusterID,
      ∃ f ∈ findings, f.key = keyOfException e)
    (h : Ran newSHA1 (reconcileTick clusterID now obs findings) u r v) :
    v.ledger = u.ledger := by
  have hlp : ∀ {r v}, Ran newSHA1
      (loop (reconcileFinding clusterID now (listOpen u clusterID)) findings {}) u r v →
      v.ledger = u.ledger := by
    intro r v hrun
    refine runs_loop_keeps (P := fun v => v.ledger = u.ledger) ?_ rfl hrun
    intro f hf p t r v ht hrun
    exact ((findingRun_of_runs hrun).settled (hop f hf)).trans ht
  cases tickRun_of_runs h with
  | unread => rfl
  | stopped hfd | unresolved _ hfd => exact hlp hfd
  | resolved hcl hfd hunm =>
    refine runs_loop_keeps (P := fun v => v.ledger = u.ledger) ?_ (hlp hfd) hunm
    intro e he _ t r v ht hrun
    -- every loaded row is matched, so there is none left to resolve
    obtain ⟨f, hf, hkey⟩ := hwn hcl e he
    have hma := matched_of_findings hky hfd he hf hkey
    unfold resolveUnmatched at hrun
    rw [if_pos (by simpa using hma)] at hrun
    obtain ⟨-, rfl⟩ := runs_done.1 hrun
    exact ht

end Tick

/-! ## The evaluated state -/

/-- A tick that is alone and meets no store error. If the collection was ok, open afterwards are
the findings that are not held and the held ones that were open, and every other row is resolved
once. Otherwise nothing is resolved, and the findings that are not held are open too. A second tick
changes nothing. -/
theorem tick_reaches_findings (newSHA1 : Uuid → String → Uuid) (lib : Libraries)
    (clusterID : String) (obs : Observation) (policies : List BackupAssurancePolicy) (now : Time)
    (t u : AssuranceTables Detail) (hkeyed : t.ledger.Keyed)
    (hrun : Program.Runs (assuranceExec newSHA1)
      (reconcileTick clusterID now obs (evaluate lib obs policies now)) t (.ok []) u) :
    (obs.collection = .ok → (∀ key : ExceptionKey, u.ledger.IsOpen (key.identity clusterID) ↔
        ∃ f ∈ evaluate lib obs policies now, f.key = key ∧
          (f.hold = false ∨ t.ledger.IsOpen (key.identity clusterID))) ∧
      ∀ e ∈ listOpen t clusterID,
        (∀ f ∈ evaluate lib obs policies now, f.key ≠ keyOfException e) → ResolvedOnce u e) ∧
    (obs.collection ≠ .ok → (∀ r ∈ t.ledger.rows, r ∈ u.ledger.rows) ∧
      (∀ id, (id, .resolved) ∈ u.ledger.intents → (id, .resolved) ∈ t.ledger.intents) ∧
      ∀ key : ExceptionKey, u.ledger.IsOpen (key.identity clusterID) ↔
        t.ledger.IsOpen (key.identity clusterID) ∨
          ∃ f ∈ evaluate lib obs policies now, f.key = key ∧ f.hold = false) ∧
    ∀ now' r v, Program.Runs (assuranceExec newSHA1)
      (reconcileTick clusterID now' obs (evaluate lib obs policies now)) u r v →
      v.ledger = u.ledger := by
  have hu := keyed_of_runs hrun hkeyed
  obtain ⟨p, m, new, hrc, hm, hmt, hkp, hcs⟩ := runs_tick hrun hkeyed
  have hok := fun hcl => hrc.isOpen_iff_of_closed hkeyed hm hmt (hcs hcl)
  refine ⟨fun hcl => ⟨hok hcl, ?_⟩, fun hcl => ?_, ?_⟩
  · intro e he hno
    obtain ⟨hmem, -, hop⟩ := mem_listOpen.1 he
    refine (hcs hcl).resolvedOnce hu (hrc.kept (mem_rows hmem)) hop ?_
    refine mem_unmatchedIDs.2 ⟨fun hid => ?_, e, he, rfl⟩
    obtain ⟨f, hf, hkey⟩ := (hrc.matched_iff hkeyed hm hmt he).1 hid
    exact hno f hf hkey
  · rw [hkp hcl]
    refine ⟨fun r hr => hrc.kept hr, fun id hid => ?_, hrc.isOpen_iff⟩
    rw [hrc.intents_eq] at hid
    simpa using hid
  · intro now' r v hrun'
    by_cases hcl : obs.collection = .ok
    · refine runs_settled hu ?_ ?_ hrun'
      · intro f hf hh
        exact (hok hcl f.key).2 ⟨f, hf, rfl, .inl hh⟩
      · intro _ e he
        obtain ⟨f, hf, hkey, -⟩ := (hok hcl (keyOfException e)).1 (isOpen_iff_listed.2 ⟨e, he, rfl⟩)
        exact ⟨f, hf, hkey⟩
    · refine runs_settled hu ?_ (fun h => absurd h hcl) hrun'
      intro f hf hh
      rw [hkp hcl]
      exact hrc.opened f hf hh

/-! ## A schedule that never ran -/

def nightlySchedule : Schedule where
  name := "nightly"
  namespace_ := "velero"
  uid := "5e1f"
  schedule := ""
  paused := true
  lastBackup := none
  storageLocation := ""
  created := 1767052800 * second

def nightlyPolicy : BackupAssurancePolicy where
  id := 7
  clusterID := "local"
  scopeKind := .schedule
  scopeNamespace := "velero"
  scopeName := "nightly"
  maxAge := 24 * hour
  grace := hour
  treatPartialAs := .failure
  alertOnPaused := false
  enabled := true

def nightlyNow : Time := (1767052800 + 30 * 24 * 3600) * second

/-- Everything was read, and the schedule is not paused any more. -/
def nightlyResumed : Observation where
  clusterID := "local"
  collection := .ok
  failedLists := []
  detected := true
  backups := []
  schedules := [{ nightlySchedule with paused := false }]
  locations := some [⟨"default", "velero", "Available", true, ""⟩]

def nightlyFailed : BackupAssuranceException Detail where
  id := 1
  clusterID := "local"
  policyID := 7
  subjectKind := .schedule
  subjectNamespace := "velero"
  subjectName := "nightly"
  subjectUID := "5e1f"
  condition := .failed
  severity := .critical
  openedAt := nightlyNow - hour
  lastSuccessAt := none
  detail := .object none none

def nightlyTables : AssuranceTables Detail where
  policies := [nightlyPolicy]
  exceptions := [nightlyFailed]
  deliveries := [⟨17, 1, .opened, .delivered, 1, nightlyNow - hour⟩]

def nightlySHA1 (id : Uuid) (text : String) : Uuid := id + if text = "opened" then 16 else 32

theorem nightlyTables_keyed : nightlyTables.ledger.Keyed := ⟨by decide, by decide, by decide⟩

abbrev NightlyTick (obs : Observation) (u : AssuranceTables Detail) : Prop :=
  Ran nightlySHA1 (reconcileTick "local" nightlyNow obs
    (evaluate shopLibraries obs [nightlyPolicy] nightlyNow)) nightlyTables (.ok []) u

/-- The failure is over, and the schedule that never ran is reported. -/
theorem tick_reaches_findings_nightly : ∃ u, Program.Runs (assuranceExec nightlySHA1)
        (reconcileTick "local" nightlyNow nightlyResumed
          (evaluate shopLibraries nightlyResumed [nightlyPolicy] nightlyNow)) nightlyTables
        (.ok []) u ∧
      u.ledger.IsOpen ⟨"local", .schedule, "velero", "nightly", "5e1f", .neverRun⟩ ∧
      ResolvedOnce u nightlyFailed := by
  obtain ⟨u, hrun⟩ : ∃ u, NightlyTick nightlyResumed u :=
    ⟨_, runs_of_run [{}, { newID := 2 }, {}, {}] rfl⟩
  have hre := (tick_reaches_findings nightlySHA1 shopLibraries "local" nightlyResumed
    [nightlyPolicy] nightlyNow nightlyTables u nightlyTables_keyed hrun).1 rfl
  have hev : ∃ f, evaluate shopLibraries nightlyResumed [nightlyPolicy] nightlyNow = [f] ∧
      f.hold = false ∧ f.key = ⟨⟨.schedule, "velero", "nightly", "5e1f"⟩, .neverRun⟩ :=
    ⟨_, rfl, rfl, rfl⟩
  obtain ⟨f, hev, hh, hkey⟩ := hev
  rw [hev] at hre
  refine ⟨u, hrun, ?_, ?_⟩
  · have hop := (hre.1 f.key).2 ⟨f, mem_cons_self, rfl, .inl hh⟩
    rw [hkey] at hop
    exact hop
  · refine hre.2 nightlyFailed mem_cons_self fun g hg => ?_
    rw [mem_singleton.1 hg, hkey]
    decide

/-- Everything was read, except for a list the evaluator does not use. -/
def nightlyPaused : Observation where
  clusterID := "local"
  collection := .degraded
  failedLists := ["volumesnapshotlocations"]
  detected := true
  backups := []
  schedules := [nightlySchedule]
  locations := some [⟨"default", "velero", "Available", true, ""⟩]

/-- The never-run finding of a paused schedule is held: the tick opens no row. -/
theorem held_finding_opens_nothing : nightlyTables.ledger.Keyed ∧ nightlyPaused.collection ≠ .ok ∧
    ∃ u, Program.Runs (assuranceExec nightlySHA1) (reconcileTick "local" nightlyNow nightlyPaused
          (evaluate shopLibraries nightlyPaused [nightlyPolicy] nightlyNow)) nightlyTables
        (.ok []) u ∧
      ¬∀ key : ExceptionKey, u.ledger.IsOpen (key.identity "local") ↔
        nightlyTables.ledger.IsOpen (key.identity "local") ∨
          ∃ f ∈ evaluate shopLibraries nightlyPaused [nightlyPolicy] nightlyNow, f.key = key := by
  have hev : ∃ f, evaluate shopLibraries nightlyPaused [nightlyPolicy] nightlyNow = [f] ∧
      f.condition = .neverRun := ⟨_, rfl, rfl⟩
  obtain ⟨f, hev, hcn⟩ := hev
  refine ⟨nightlyTables_keyed, by decide, nightlyTables,
    Program.runs_of_run [{}] rfl, fun hall => ?_⟩
  have hfo := (hall f.key).2 (.inr ⟨f, by rw [hev]; exact mem_cons_self, rfl⟩)
  obtain ⟨r, hr, hi, -⟩ := hfo
  -- the only row is that of the failure
  rw [mem_singleton.1 hr] at hi
  have hfl : AssuranceCondition.failed = f.condition := congrArg AssuranceIdentity.condition hi
  rw [hcn] at hfl
  cases hfl

end KubeCenter.Velero
