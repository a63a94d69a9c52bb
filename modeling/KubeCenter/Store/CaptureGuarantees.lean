import KubeCenter.Store.ExactTotals

/-! # What a caller of `InsertBatch` can rely on

A definite error left no trace, a success is within its limits, and sending a committed batch again
costs nothing. -/
namespace KubeCenter.Store

open Lib Go

variable {validateRow : IncidentEvidenceRow → Option String} {s t : Captures} {c : CallId}
  {q : CaptureRequest} {a : CaptureAction} {p p' : CapturePhase} {db : EvidenceDb}

/-! ## The calls after a step -/

theorem moved_calls_self : (s.moved c q p p' db).calls c = some ⟨q, p'⟩ := by
  simp [Captures.moved]

theorem moved_calls_of_ne {d : CallId} (h : d ≠ c) : (s.moved c q p p' db).calls d = s.calls d := by
  simp [Captures.moved, h]

theorem go_calls_self : (s.go c q p).calls c = some ⟨q, p⟩ := by simp [Captures.go]

theorem go_calls_of_ne {d : CallId} (h : d ≠ c) : (s.go c q p).calls d = s.calls d := by
  simp [Captures.go, h]

theorem result_of_calls (h : s.calls c = some ⟨q, p⟩) : s.result c = p.result := by
  simp [Captures.result, h]

theorem Move.caller (hm : Move s c q a p p' db) : a.caller = some c := by
  cases hm <;> rfl

theorem Stepped.of_caller (h : Stepped validateRow s a t) (ha : a.caller = some c) :
    (∃ q p, a = .call c q ∧ s.calls c = none ∧ Opens validateRow q p ∧ t = s.go c q p) ∨
      ∃ q p p' db, s.calls c = some ⟨q, p⟩ ∧ Move s c q a p p' db ∧ t = s.moved c q p p' db := by
  cases h with
  | create | setStatus | delete => cases ha
  | @call d q hnon =>
    cases ha
    obtain ⟨p, hp, he⟩ := begin_opens validateRow s c q
    exact .inl ⟨q, p, rfl, hnon, hp, he⟩
  | move hc hm =>
    cases hm.caller.symm.trans ha
    exact .inr ⟨_, _, _, _, hc, hm, rfl⟩

theorem Stepped.calls_of_ne (h : Stepped validateRow s a t) (ha : a.caller ≠ some c) :
    t.calls c = s.calls c := by
  cases h with
  | create | setStatus | delete => rfl
  | @call d q hnon =>
    have hne : c ≠ d := fun h => ha (h ▸ rfl)
    obtain ⟨p, -, he⟩ := begin_opens validateRow s d q
    rw [he, go_calls_of_ne hne]
  | move hc hm => exact moved_calls_of_ne fun h => ha (h ▸ hm.caller)

/-! ## Results are final, and definite errors leave no trace -/

theorem Move.result_eq (hm : Move s c q a p p' db) {r} (h : p.result = some r) :
    p'.result = some r := by
  cases hm with
  | failed _ hst =>
    cases p with
    | inDoubt | returned => cases hst
    | begun | locked | inserted | counted | updated => cases h
  | landedUnseen | undone => exact h
  | notFound | unfit | lock | duplicate | overTotals | insert | overScopes | count | update
  | commit | rolledBack | lost => cases h

theorem result_stable (s : Captures) (a : CaptureAction) (t : Captures) {r}
    (hr : s.result c = some r) (h : (captures validateRow).next s a = some t) :
    t.result c = some r := by
  have h := stepped_of_next h
  by_cases ha : a.caller = some c
  · rcases h.of_caller ha with ⟨q, p, -, hnon, -⟩ | ⟨q, p, p', db, hc, hm, rfl⟩
    · simp [Captures.result, hnon] at hr
    · rw [result_of_calls moved_calls_self]
      exact hm.result_eq ((result_of_calls hc).symm.trans hr)
  · rw [← hr]
    simp only [Captures.result, h.calls_of_ne ha]

theorem Captures.Inv.db_eq_or (hs : s.Inv validateRow) (h : Stepped validateRow s a t)
    (ha : a.caller = some c) : t.db = s.db ∨ (∃ n, t.result c = some (.ok n)) ∨
      ∃ err, t.result c = some (.error (.commitOutcomeUnknown err)) := by
  rcases h.of_caller ha with ⟨q, p, -, -, -, rfl⟩ | ⟨q, p, p', db, hc, hm, rfl⟩
  · exact .inl rfl
  · rw [result_of_calls moved_calls_self]
    rcases hm.db_cases with h | ⟨fresh, totals, -, ⟨-, rfl⟩ | ⟨err, rfl, rfl⟩⟩
    · exact .inl h
    · exact .inr (.inl ⟨_, rfl⟩)
    · have herr := (hs.knows c q _ hc).2
      refine .inr (.inr ⟨err, ?_⟩)
      rw [CapturePhase.result, busyIfLockTimeout_classifyCommitError herr]

theorem step_db_of_error (hs : s.Inv validateRow) (ha : a.caller = some c) {bs e}
    (hr : ((captures validateRow).runFrom ((captures validateRow).step s a) bs).result c =
      some (.error e)) (he : ∀ err, e ≠ .commitOutcomeUnknown err) :
    ((captures validateRow).step s a).db = s.db := by
  set M := captures validateRow
  rcases M.step_eq_or s a with h | h
  · rw [h]
  · -- a result the step left would still be the call's at the end
    have final : ∀ r, (M.step s a).result c = some r → r = .error e := fun r hres =>
      Option.some.inj ((Machine.runFrom_inv (P := fun u => u.result c = some r)
        (fun u b v hu hv => result_stable u b v hu hv) bs hres).symm.trans hr)
    rcases hs.db_eq_or (stepped_of_next h) ha with hdb | ⟨n, hn⟩ | ⟨err, herr⟩
    · exact hdb
    · cases final _ hn
    · cases final _ herr
      exact absurd rfl (he err)

/-! ## A success is within its limits -/

/-- Bytes and items within the limits, scopes within the limit or as they were. -/
structure EvidenceLimits.Allows (limits : EvidenceLimits) (before after : Totals) : Prop where
  count : (after.count : Int) ≤ limits.maxItems
  bytes : (after.bytes : Int) ≤ limits.maxIncidentBytes
  scopes : (after.scopes : Int) ≤ limits.maxScopes ∨ after.scopes = before.scopes

theorem IncidentView.Ready.allows {v : IncidentView} {fresh} {totals : Totals}
    (h : v.Ready c q fresh totals) : q.limits.Allows (totalsOf v.evidence) totals := by
  obtain ⟨-, ⟨-, hft⟩, hsc, -, rfl⟩ := h
  obtain ⟨hcn, hby⟩ := checkTotals_ok_iff.1 hft
  refine ⟨?_, ?_, scopes_of_checkScopes hsc⟩
  · simpa [totalsOf] using hcn
  · simpa [totalsOf, addedBytes] using hby

theorem Move.commits (hm : Move s c q a p p' db) {n : Nat} (hp : p.result = none)
    (hp' : p'.result = some (.ok n)) (hn : 0 < n) :
    ∃ fresh totals, p = .updated fresh totals ∧ db = s.db.land q.incidentID fresh totals := by
  cases hm with
  | commit => exact ⟨_, _, rfl, rfl⟩
  | duplicate => cases hp'; exact absurd hn (Nat.lt_irrefl 0)
  | landedUnseen | undone => cases hp
  | failed | notFound | unfit | lock | overTotals | insert | overScopes | count | update
  | rolledBack | lost => cases hp'

theorem Captures.Inv.success_allowed (hs : s.Inv validateRow) (h : Stepped validateRow s a t)
    {n : Nat} (hnon : s.result c = none) (hok : t.result c = some (.ok n)) (hn : 0 < n) :
    ∃ call row row', t.calls c = some call ∧ s.db.incidents call.request.incidentID = some row ∧
      t.db.incidents call.request.incidentID = some row' ∧
      call.request.limits.Allows row.totals row'.totals := by
  by_cases ha : a.caller = some c
  · rcases h.of_caller ha with ⟨q, p, -, -, hp, rfl⟩ | ⟨q, p, p', db, hc, hm, rfl⟩
    · rw [result_of_calls go_calls_self] at hok
      cases hp with
      | refused | begun => cases hok
      | empty => cases hok; exact absurd hn (Nat.lt_irrefl 0)
    · rw [result_of_calls hc] at hnon
      rw [result_of_calls moved_calls_self] at hok
      obtain ⟨fresh, totals, rfl, rfl⟩ := hm.commits hnon hok hn
      have hrd := hs.ready hc (.inl rfl)
      obtain ⟨-, row, hrow, -⟩ := hrd.1
      refine ⟨⟨q, p'⟩, row, { row with totals }, moved_calls_self, hrow, land_incident hrow, ?_⟩
      rw [(hs.exact _).totals row hrow]
      exact hrd.allows
  · have hca := h.calls_of_ne ha
    rw [Captures.result, hca, ← Captures.result, hnon] at hok
    cases hok

/-! ## A committed batch can be sent again -/

/-- The batch was accepted and its keys are in the table, under an incident of
its owner. -/
structure Recorded (validateRow : IncidentEvidenceRow → Option String) (q : CaptureRequest)
    (db : EvidenceDb) : Prop where
  valid : validateBatch validateRow q.ownerID q.rows q.limits = .ok (q.rows.map prepareRow)
  keys : ∀ r ∈ q.rows.map prepareRow,
    r.captureKey ∈ (db.evidence q.incidentID).map IncidentEvidenceRow.captureKey
  owned : q.rows ≠ [] → ∃ row, db.incidents q.incidentID = some row ∧ row.ownerID = q.ownerID

theorem Recorded.congr {db' : EvidenceDb} (h : Recorded validateRow q db)
    (hi : db'.incidents q.incidentID = db.incidents q.incidentID)
    (he : db'.evidence q.incidentID = db.evidence q.incidentID) : Recorded validateRow q db' :=
  ⟨h.valid, by rw [he]; exact h.keys, by rw [hi]; exact h.owned⟩

theorem Recorded.land (h : Recorded validateRow q db) (id : Uuid)
    (fresh : List IncidentEvidenceRow) (totals : Totals) :
    Recorded validateRow q (db.land id fresh totals) := by
  by_cases hid : q.incidentID = id
  · subst hid
    refine ⟨h.valid, fun r hr => ?_, fun hne => ?_⟩
    · rw [land_evidence, List.map_append]
      exact List.mem_append_left _ (h.keys r hr)
    · obtain ⟨row, hrow, how⟩ := h.owned hne
      exact ⟨_, land_incident hrow, how⟩
  · exact h.congr (land_of_ne hid).1 (land_of_ne hid).2

theorem Recorded.stepped (hrec : Recorded validateRow q s.db) (h : Stepped validateRow s a t)
    (ha : a ≠ .delete q.incidentID) : Recorded validateRow q t.db := by
  have write : ∀ {id row evidence}, q.incidentID ≠ id →
      Recorded validateRow q (s.write id row evidence).db := fun hne =>
    hrec.congr (by simp [hne]) (by simp [hne])
  cases h with
  | @create id ownerID hnon =>
    by_cases hid : q.incidentID = id
    · subst hid
      refine ⟨hrec.valid, by simpa using hrec.keys, fun hne => ?_⟩
      obtain ⟨row, hrow, -⟩ := hrec.owned hne
      cases hrow.symm.trans hnon
    · exact write hid
  | @setStatus id status row hfr hrow =>
    by_cases hid : q.incidentID = id
    · subst hid
      refine ⟨hrec.valid, by simpa using hrec.keys, fun hne => ?_⟩
      obtain ⟨row', hrow', how⟩ := hrec.owned hne
      cases hrow.symm.trans hrow'
      exact ⟨{ row with status }, by simp, how⟩
    · exact write hid
  | @delete id hfr => exact write fun hid => ha (hid ▸ rfl)
  | @call d r hnon =>
    obtain ⟨p, -, he⟩ := begin_opens validateRow s d r
    rw [he]
    exact hrec
  | @move _ d r _ _ db hc hm =>
    rcases hm.db_cases with rfl | ⟨fresh, totals, rfl, -⟩
    · exact hrec
    · exact hrec.land _ _ _

theorem prepared_keys_mem (q : CaptureRequest) (evidence : List IncidentEvidenceRow) :
    ∀ r ∈ q.rows.map prepareRow, r.captureKey ∈
      (evidence ++ insertEvidenceRows evidence (q.rows.map prepareRow)).map
        IncidentEvidenceRow.captureKey :=
  fun _ hr => key_mem_append_freshRows hr

theorem Captures.Inv.recorded (hs : s.Inv validateRow) (h : Stepped validateRow s a t)
    (hno : ¬ s.Committed c) (hyes : t.Committed c) :
    ∃ call, t.calls c = some call ∧ Recorded validateRow call.request t.db := by
  obtain ⟨call, hcl, hcom⟩ := hyes
  refine ⟨call, hcl, ?_⟩
  by_cases ha : a.caller = some c
  · rcases h.of_caller ha with ⟨q, p, -, -, hp, rfl⟩ | ⟨q, p, p', db, hc, hm, rfl⟩
    · cases go_calls_self.symm.trans hcl
      cases hp with
      | refused | begun => rcases hcom with ⟨n, h⟩ | h <;> cases h
      | empty hvl hrw => exact ⟨hvl, by simp [hrw], absurd hrw⟩
    · cases moved_calls_self.symm.trans hcl
      have hvl := hs.valid_moved hm hc
      have hk := hs.knows c q p hc
      have hln : ∀ {fresh totals}, (s.view q.incidentID).Ready c q fresh totals →
          Recorded validateRow q (s.db.land q.incidentID fresh totals) := by
        rintro fresh totals ⟨⟨-, row, hrow, how⟩, -, -, rfl, -⟩
        refine ⟨hvl, ?_, fun _ => ⟨_, land_incident hrow, how⟩⟩
        rw [land_evidence]
        exact prepared_keys_mem q _
      cases hm with
      | commit => exact hln hk
      | landedUnseen => exact hln hk.1
      | duplicate hnil =>
        obtain ⟨⟨-, hrow⟩, rfl, -⟩ := hk
        refine ⟨hvl, ?_, fun _ => hrow⟩
        have hks := prepared_keys_mem q (s.db.evidence q.incidentID)
        rwa [hnil, List.append_nil] at hks
      | failed | notFound | unfit | lock | overTotals | insert | overScopes | count | update
      | rolledBack | lost | undone => rcases hcom with ⟨n, h⟩ | h <;> cases h
  · rw [h.calls_of_ne ha] at hcl
    exact absurd ⟨call, hcl, hcom⟩ hno

def CapturePhase.idle : CapturePhase → Bool
  | .begun _ | .locked _ _ | .returned _ _ => true
  | _ => false

/-- Nothing inserted, or no answer about room: a statement failed or the incident is closed. -/
def ResendResult (s : Captures) (c : CallId) (id : Uuid) (a : CaptureAction)
    (r : CaptureResult) : Prop :=
  r = .ok 0 ∨ (∃ stmt err, a = .fail c stmt err) ∨
    r = .error .incidentClosed ∧ ∃ row, s.db.incidents id = some row ∧ row.status = .closed

section Resend

-- the batch is sent again under limits that are valid and hold its items
variable {limits : EvidenceLimits} {d : CallId} (hl : limits.validate = .ok ())
  (hitems : ∀ r ∈ q.rows, (r.payload.length : Int) ≤ limits.maxItemBytes)

include hl hitems in
theorem Recorded.revalid (hrec : Recorded validateRow q db) :
    validateBatch validateRow q.ownerID q.rows limits = .ok (q.rows.map prepareRow) := by
  obtain ⟨how, -, hlen, hrw, -, -⟩ := validateBatch_ok_iff.1 hrec.valid
  exact validateBatch_ok_iff.2 ⟨how, hl, hlen, hrw, hitems, rfl⟩

/-- The owner check of a re-sent batch can only find the incident closed. -/
theorem checkIncident_error {ownerID : String} {row : IncidentRow} {e}
    (how : row.ownerID = ownerID) (h : checkIncident ownerID row = .error e) :
    e = .incidentClosed ∧ row.status = .closed := by
  unfold checkIncident at h
  split at h
  · contradiction
  · split at h
    · cases h
      exact ⟨rfl, ‹_›⟩
    · cases h

theorem Recorded.move (hrec : Recorded validateRow q s.db) (hs : s.Inv validateRow)
    (hc : s.calls d = some ⟨{ q with limits }, p⟩) (hidl : p.idle = true)
    (hm : Move s d { q with limits } a p p' db) :
    db = s.db ∧ p'.idle = true ∧
      ∀ r, p.result = none → p'.result = some r → ResendResult s d q.incidentID a r := by
  have hk := hs.knows d _ p hc
  cases hm with
  | failed => exact ⟨rfl, rfl, fun r _ _ => .inr (.inl ⟨_, _, rfl⟩)⟩
  | notFound hnon =>
    obtain ⟨row, hrow, -⟩ := hrec.owned hk.2
    cases hrow.symm.trans hnon
  | unfit hrow he =>
    obtain ⟨row, hrow', how⟩ := hrec.owned hk.2
    cases hrow.symm.trans hrow'
    obtain ⟨rfl, hclo⟩ := checkIncident_error how he
    exact ⟨rfl, rfl, fun r _ hr => .inr (.inr ⟨(Option.some.inj hr).symm, _, hrow, hclo⟩)⟩
  | lock => exact ⟨rfl, rfl, nofun⟩
  | duplicate => exact ⟨rfl, rfl, fun r _ hr => .inl (Option.some.inj hr).symm⟩
  | overTotals hne | insert hne =>
    obtain ⟨-, rfl, -⟩ := hk
    exact absurd (freshRows_eq_nil hrec.keys) hne
  | overScopes | count | update | commit | rolledBack | lost | landedUnseen | undone => cases hidl

include hl hitems in
theorem Recorded.opens (hrec : Recorded validateRow q db)
    (hp : Opens validateRow { q with limits } p) :
    (p = .returned (.ok 0) false ∧ q.rows = []) ∨
      (p = .begun (q.rows.map prepareRow) ∧ q.rows ≠ []) := by
  cases hp with
  | refused h => cases h.symm.trans (hrec.revalid (q := q) hl hitems)
  | empty _ hrw => exact .inl ⟨rfl, hrw⟩
  | begun _ hrw => exact .inr ⟨rfl, hrw⟩

/-- From the moment a batch is recorded, a call that sends it again has never
inserted anything. -/
def Resends (validateRow : IncidentEvidenceRow → Option String) (q : CaptureRequest)
    (d : CallId) (s : Captures) : Prop :=
  s.Inv validateRow ∧ Recorded validateRow q s.db ∧
    ∀ limits p, s.calls d = some ⟨{ q with limits }, p⟩ → p.idle = true

theorem Resends.stepped (hres : Resends validateRow q d s) (h : Stepped validateRow s a t)
    (ha : a ≠ .delete q.incidentID) : Resends validateRow q d t := by
  obtain ⟨hs, hrec, hidl⟩ := hres
  refine ⟨hs.stepped h, hrec.stepped h ha, fun limits p hp => ?_⟩
  by_cases hd : a.caller = some d
  · rcases h.of_caller hd with ⟨r, u, -, -, hu, rfl⟩ | ⟨r, u, u', db, hc, hm, rfl⟩
    · cases go_calls_self.symm.trans hp
      cases hu <;> rfl
    · cases moved_calls_self.symm.trans hp
      exact (hrec.move hs hc (hidl limits u hc) hm).2.1
  · exact hidl limits p (h.calls_of_ne hd ▸ hp)

theorem Resends.runFrom (hres : Resends validateRow q d s) {cs}
    (hcs : CaptureAction.delete q.incidentID ∉ cs) :
    Resends validateRow q d ((captures validateRow).runFrom s cs) := by
  induction cs generalizing s with
  | nil => exact hres
  | cons a cs ih =>
    rw [List.mem_cons, not_or] at hcs
    refine ih ?_ hcs.2
    rcases (captures validateRow).step_eq_or s a with h | h
    · rw [h]
      exact hres
    · exact hres.stepped (stepped_of_next h) (Ne.symm hcs.1)

include hl hitems in
theorem Resends.step (hres : Resends validateRow q d s) (h : Stepped validateRow s a t)
    (ha : a.caller = some d) (ht : t.calls d = some ⟨{ q with limits }, p⟩) :
    t.db = s.db ∧
      ∀ r, s.result d = none → t.result d = some r → ResendResult s d q.incidentID a r := by
  obtain ⟨hs, hrec, hidl⟩ := hres
  rcases h.of_caller ha with ⟨r, u, -, -, hu, rfl⟩ | ⟨r, u, u', db, hc, hm, rfl⟩
  · cases go_calls_self.symm.trans ht
    refine ⟨rfl, fun r _ hr => ?_⟩
    rw [result_of_calls go_calls_self] at hr
    rcases hrec.opens hl hitems hu with ⟨rfl, -⟩ | ⟨rfl, -⟩
    · exact .inl (Option.some.inj hr).symm
    · cases hr
  · cases moved_calls_self.symm.trans ht
    obtain ⟨hdb, -, hrs⟩ := hrec.move hs hc (hidl limits u hc) hm
    refine ⟨hdb, fun r hnon hr => hrs r ?_ ?_⟩
    · rwa [result_of_calls hc] at hnon
    · rwa [result_of_calls moved_calls_self] at hr

theorem step_call (h : s.calls d = none) :
    (captures validateRow).step s (.call d q) = s.begin d q validateRow := by
  simp [Machine.step, captures, Captures.next, h]

theorem step_lock {rows row} (h : s.calls d = some ⟨q, .begun rows⟩)
    (hfr : s.holder q.incidentID = none) (hrow : s.db.incidents q.incidentID = some row)
    (hok : checkIncident q.ownerID row = .ok ()) : (captures validateRow).step s (.lock d) =
      (s.setHolder q.incidentID (some d)).go d q (.locked rows row.totals) := by
  simp [Machine.step, captures, Captures.next, h, Captures.advance, hfr, Captures.lock, hrow, hok]

theorem step_insert_duplicate {rows} {cur : Totals} (h : s.calls d = some ⟨q, .locked rows cur⟩)
    (hnil : insertEvidenceRows (s.db.evidence q.incidentID) rows = []) :
    (captures validateRow).step s (.insert d) = s.finish d q (.ok 0) false := by
  simp [Machine.step, captures, Captures.next, h, Captures.advance, Captures.insert, hnil]

theorem step_of_returned {r} {landed : Bool} (h : s.calls d = some ⟨q, .returned r landed⟩)
    (ha : a.caller = some d) : (captures validateRow).step s a = s := by
  rcases (captures validateRow).step_eq_or s a with he | he
  · exact he
  · rcases (stepped_of_next he).of_caller ha with ⟨_, _, -, hnon, -⟩ | ⟨_, _, _, _, hc, hm, -⟩
    · cases hnon.symm.trans h
    · cases hc.symm.trans h
      cases hm with
      | failed _ hst => cases hst

include hl hitems in
/-- Undisturbed, a re-sent batch for an open incident is answered with zero
rows. -/
theorem Recorded.resend (hrec : Recorded validateRow q s.db) (hd : s.calls d = none)
    (hfr : s.holder q.incidentID = none)
    (hop : ∀ row, s.db.incidents q.incidentID = some row → row.status = .opened) :
    let u := (captures validateRow).runFrom s [.call d { q with limits }, .lock d, .insert d]
    u.result d = some (.ok 0) ∧ u.db = s.db := by
  obtain ⟨p, hp, he⟩ := begin_opens validateRow s d { q with limits }
  simp only [Machine.runFrom_cons, Machine.runFrom_nil, step_call hd, he]
  rcases hrec.opens hl hitems hp with ⟨rfl, -⟩ | ⟨rfl, hrw⟩
  · -- an empty batch has returned already
    rw [step_of_returned (a := .lock d) go_calls_self rfl,
      step_of_returned (a := .insert d) go_calls_self rfl]
    exact ⟨result_of_calls go_calls_self, rfl⟩
  · obtain ⟨row, hrow, how⟩ := hrec.owned hrw
    have hok : checkIncident q.ownerID row = .ok () := by
      simp [checkIncident, how, hop row hrow]
    have hcl : (s.go d { q with limits } (.begun (q.rows.map prepareRow))).calls d =
        some ⟨{ q with limits }, .begun (q.rows.map prepareRow)⟩ := go_calls_self
    rw [step_lock hcl hfr hrow hok, step_insert_duplicate go_calls_self]
    · exact ⟨result_of_calls go_calls_self, rfl⟩
    · exact freshRows_eq_nil hrec.keys

end Resend

/-! ## The contract of a capture -/

/-- The counters are exact; an error other than an unknown commit outcome means that no action of
the call changed a row or a counter; a success that inserted something is within its limits; and
from the commit of a batch on, while the incident is not deleted, sending it again under limits its
items fit changes nothing and finds room. -/
theorem captures_exact_bounded_idempotent (validateRow : IncidentEvidenceRow → Option String)
    (as : List CaptureAction) :
    let M := captures validateRow
    let s := M.run as
    (∀ id row, s.db.incidents id = some row → row.totals.count = (s.db.evidence id).length ∧
      row.totals.bytes = ((s.db.evidence id).map fun r => r.payload.length).sum ∧
      row.totals.scopes = ((s.db.evidence id).map IncidentEvidenceRow.scope).dedup.length) ∧
    (∀ a c bs e, a.caller = some c → (M.runFrom (M.step s a) bs).result c = some (.error e) →
      (∀ err, e ≠ .commitOutcomeUnknown err) → (M.step s a).db = s.db) ∧
    (∀ a c n t, M.next s a = some t → s.result c = none → t.result c = some (.ok n) → 0 < n →
      ∃ call row row', t.calls c = some call ∧ s.db.incidents call.request.incidentID = some row ∧
        t.db.incidents call.request.incidentID = some row' ∧
        call.request.limits.Allows row.totals row'.totals) ∧
    (∀ a c call d cs limits, ¬ s.Committed c → (M.step s a).Committed c →
      (M.step s a).calls c = some call → (M.step s a).calls d = none →
      .delete call.request.incidentID ∉ cs → limits.validate = .ok () →
      (∀ r ∈ call.request.rows, (r.payload.length : Int) ≤ limits.maxItemBytes) →
      let t := M.runFrom (M.step s a) cs
      (∀ b u p, b.caller = some d → M.next t b = some u →
        u.calls d = some ⟨{ call.request with limits }, p⟩ → u.db = t.db ∧
          ∀ r, t.result d = none → u.result d = some r →
            ResendResult t d call.request.incidentID b r) ∧
      (t.calls d = none → t.holder call.request.incidentID = none →
        (∀ row, t.db.incidents call.request.incidentID = some row → row.status = .opened) →
        let u := M.runFrom t [.call d { call.request with limits }, .lock d, .insert d]
        u.result d = some (.ok 0) ∧ u.db = t.db)) := by
  intro M s
  have hs : s.Inv validateRow := inv_run as
  refine ⟨fun id row hrow => ?_, fun a c bs e ha hr he => step_db_of_error hs ha hr he,
    fun a c n t h hnon hok hn => hs.success_allowed (stepped_of_next h) hnon hok hn,
    fun a c call d cs limits hno hyes hcl hd hcs hl hitems => ?_⟩
  · have hby := List.map_congr_left (hs.exact id).measured
    rw [(hs.exact id).totals row hrow]
    exact ⟨rfl, congrArg List.sum hby, rfl⟩
  · have hnx : M.next s a = some (M.step s a) :=
      (M.step_eq_or s a).resolve_left fun h => hno (h ▸ hyes)
    have hste := stepped_of_next hnx
    obtain ⟨call', hcl', hrec⟩ := hs.recorded hste hno hyes
    cases hcl.symm.trans hcl'
    have hres : Resends validateRow call.request d (M.step s a) :=
      ⟨hs.stepped hste, hrec, fun _ _ h => by cases hd.symm.trans h⟩
    have hres := hres.runFrom hcs
    exact ⟨fun b u p hb hu hp => hres.step hl hitems (stepped_of_next hu) hb hp,
      hres.2.1.resend hl hitems⟩

def linkRow (namespace_ name captureKey : String) : IncidentEvidenceRow where
  evidenceKind := "object_summary"
  mode := "live_link"
  clusterID := "local"
  apiGroup := "apps"
  resource := "deployments"
  sourceKind := "Deployment"
  namespace_
  name
  sourceUID := ""
  resourceVersion := ""
  secretDerived := false
  sourceObservedAt := none
  completeness := "complete"
  completenessDetail := ""
  redaction := []
  payload := []
  payloadBytes := 0
  captureKey

def shopCapture : CaptureRequest where
  incidentID := 7
  ownerID := "ann"
  rows := [linkRow "shop" "web" "k1", linkRow "db" "pg" "k2", linkRow "shop" "web" "k1"]
  limits := ⟨1024, 4096, 10, 2⟩

def shopCaptureRun : List CaptureAction :=
  [.create 7 "ann", .call 0 shopCapture, .lock 0, .insert 0, .countScopes 0, .update 0]

/-- A rolled back COMMIT changes nothing; under limits of one item and one scope the batch is
accepted. -/
theorem captures_exact_bounded_idempotent_shop : let M := captures fun _ => none
    let s := M.run shopCaptureRun
    let t := M.step s (.commit 0 none)
    let u := M.runFrom t [.call 1 { shopCapture with limits := ⟨1, 1, 1, 1⟩ }, .lock 1, .insert 1]
    (M.step s (.commit 0 (some .txCommitRollback))).db = s.db ∧
      t.result 0 = some (.ok 2) ∧ u.result 1 = some (.ok 0) ∧ u.db = t.db := by
  obtain ⟨-, herr, -, hide⟩ := captures_exact_bounded_idempotent (fun _ => none) shopCaptureRun
  refine ⟨herr _ 0 [] (.database .commit .txCommitRollback) rfl rfl nofun, rfl, ?_⟩
  refine (hide (.commit 0 none) 0 ⟨shopCapture, .returned (.ok 2) true⟩ 1 [] ⟨1, 1, 1, 1⟩
    ?_ ?_ rfl rfl nofun rfl ?_).2 rfl rfl ?_
  · rintro ⟨call, hcl, hcom⟩
    cases hcl
    rcases hcom with ⟨n, h⟩ | h <;> cases h
  · exact ⟨_, rfl, .inr rfl⟩
  · decide
  · intro row hrow
    cases hrow
    rfl

end KubeCenter.Store
