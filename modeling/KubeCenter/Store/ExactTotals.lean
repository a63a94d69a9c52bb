import KubeCenter.Lib.Calls
import KubeCenter.Store.Captures

/-! # Exact totals, kept limits, idempotent captures

`Move` lists what the transaction of a call can do; every step is a move or a write of another kind
(`next_cases`). The counters of every incident are those of its rows, and what a call under the
lock has computed is still true of the tables. -/
namespace KubeCenter.Store

open Lib Go

/-! ## What a step does -/

def CapturePhase.holds : CapturePhase → Bool
  | .begun _ | .returned _ _ => false
  | _ => true

abbrev failure (e : EvidenceError) : CapturePhase := .returned (.error (busyIfLockTimeout e)) false

/-- The action, the phase before, the phase after, and the tables after. -/
inductive Move (s : Captures) (c : CallId) (q : CaptureRequest) :
    CaptureAction → CapturePhase → CapturePhase → EvidenceDb → Prop
  | failed {p stmt} (err : DriverError) (h : stmt ∈ p.statements) :
    Move s c q (.fail c stmt err) p (failure (.database stmt err)) s.db
  | notFound {rows} (h : s.db.incidents q.incidentID = none) :
    Move s c q (.lock c) (.begun rows) (failure .incidentNotFound) s.db
  | unfit {rows row e} (h : s.db.incidents q.incidentID = some row)
    (he : checkIncident q.ownerID row = .error e) :
    Move s c q (.lock c) (.begun rows) (failure e) s.db
  | lock {rows row} (hfree : s.holder q.incidentID = none)
    (h : s.db.incidents q.incidentID = some row) (hok : checkIncident q.ownerID row = .ok ()) :
    Move s c q (.lock c) (.begun rows) (.locked rows row.totals) s.db
  | duplicate {rows cur} (h : insertEvidenceRows (s.db.evidence q.incidentID) rows = []) :
    Move s c q (.insert c) (.locked rows cur) (.returned (.ok 0) false) s.db
  | overTotals {rows cur e} (hne : insertEvidenceRows (s.db.evidence q.incidentID) rows ≠ [])
    (h : checkTotals q.limits cur (insertEvidenceRows (s.db.evidence q.incidentID) rows) =
      .error e) :
    Move s c q (.insert c) (.locked rows cur) (failure e) s.db
  | insert {rows cur} (hne : insertEvidenceRows (s.db.evidence q.incidentID) rows ≠ [])
    (h : checkTotals q.limits cur (insertEvidenceRows (s.db.evidence q.incidentID) rows) = .ok ()) :
    Move s c q (.insert c) (.locked rows cur)
      (.inserted cur (insertEvidenceRows (s.db.evidence q.incidentID) rows)) s.db
  | overScopes {cur fresh e}
    (h : checkScopes q.limits cur (countScopes (s.db.evidence q.incidentID ++ fresh)) = .error e) :
    Move s c q (.countScopes c) (.inserted cur fresh) (failure e) s.db
  | count {cur fresh}
    (h : checkScopes q.limits cur (countScopes (s.db.evidence q.incidentID ++ fresh)) = .ok ()) :
    Move s c q (.countScopes c) (.inserted cur fresh)
      (.counted cur fresh (countScopes (s.db.evidence q.incidentID ++ fresh))) s.db
  | update {cur fresh n} :
    Move s c q (.update c) (.counted cur fresh n) (.updated fresh (newTotals cur fresh n)) s.db
  | commit {fresh totals} :
    Move s c q (.commit c none) (.updated fresh totals) (.returned (.ok fresh.length) true)
      (s.db.land q.incidentID fresh totals)
  | rolledBack {fresh totals err} (h : err.provesRollback = true) :
    Move s c q (.commit c (some err)) (.updated fresh totals) (failure (classifyCommitError err))
      s.db
  | lost {fresh totals err} (h : err.provesRollback = false) :
    Move s c q (.commit c (some err)) (.updated fresh totals) (.inDoubt fresh totals err) s.db
  | landedUnseen {fresh totals err} : Move s c q (.settle c true) (.inDoubt fresh totals err)
      (.returned (.error (busyIfLockTimeout (classifyCommitError err))) true)
      (s.db.land q.incidentID fresh totals)
  | undone {fresh totals err} : Move s c q (.settle c false) (.inDoubt fresh totals err)
      (failure (classifyCommitError err)) s.db

/-- The state after a move: the lock is taken and given back with the phase. -/
def Captures.moved (s : Captures) (c : CallId) (q : CaptureRequest) (p p' : CapturePhase)
    (db : EvidenceDb) : Captures where
  db
  holder :=
    match p.holds, p'.holds with
    | false, true => Function.update s.holder q.incidentID (some c)
    | true, false => Function.update s.holder q.incidentID none
    | _, _ => s.holder
  calls := Function.update s.calls c (some ⟨q, p'⟩)

theorem fail_eq_moved {s : Captures} {c : CallId} {q} {p : CapturePhase} {stmt} (err : DriverError)
    (h : stmt ∈ p.statements) :
    s.fail c q p stmt err = s.moved c q p (failure (.database stmt err)) s.db := by
  cases p with
  | begun | locked | inserted | counted => rfl
  | updated | inDoubt | returned => cases h

theorem advance_move {s t : Captures} {c : CallId} {call : Capture} {a : CaptureAction}
    (ha : a.caller = some c) (h : s.advance c call a = some t) :
    ∃ p db, Move s c call.request a call.phase p db ∧
      t = s.moved c call.request call.phase p db := by
  obtain ⟨q, p⟩ := call
  cases a <;> cases ha <;> simp only [Captures.advance] at h
  case call => cases h
  case lock =>
    split at h <;> [skip; cases h]
    split at h <;> cases h
    rename_i hfr
    unfold Captures.lock
    split
    · exact ⟨_, _, .notFound ‹_›, rfl⟩
    · split
      · exact ⟨_, _, .unfit ‹_› ‹_›, rfl⟩
      · exact ⟨_, _, .lock hfr ‹_› ‹_›, rfl⟩
  case insert =>
    split at h <;> cases h
    unfold Captures.insert
    dsimp only
    split
    · exact ⟨_, _, .duplicate ‹_›, rfl⟩
    · split
      · exact ⟨_, _, .overTotals ‹_› ‹_›, rfl⟩
      · exact ⟨_, _, .insert ‹_› ‹_›, rfl⟩
  case countScopes =>
    split at h <;> cases h
    unfold Captures.countScopes
    dsimp only
    split
    · exact ⟨_, _, .overScopes ‹_›, rfl⟩
    · exact ⟨_, _, .count ‹_›, rfl⟩
  case update =>
    split at h <;> cases h
    exact ⟨_, _, .update, rfl⟩
  case fail stmt err =>
    split at h <;> cases h
    exact ⟨_, _, .failed err ‹_›, fail_eq_moved err ‹_›⟩
  case commit reply =>
    split at h <;> cases h
    cases reply with
    | none => exact ⟨_, _, .commit, rfl⟩
    | some err =>
      simp only [Captures.commit]
      split
      · exact ⟨_, _, .rolledBack ‹_›, rfl⟩
      · exact ⟨_, _, .lost (Bool.eq_false_iff.2 ‹_›), rfl⟩
  case settle landed =>
    split at h <;> cases h
    cases landed with
    | false => exact ⟨_, _, .undone, rfl⟩
    | true => exact ⟨_, _, .landedUnseen, rfl⟩

/-- Every step: a write of another kind, a new call, or a move of a call. -/
inductive Stepped (validateRow : IncidentEvidenceRow → Option String) (s : Captures) :
    CaptureAction → Captures → Prop
  | create {id ownerID} (h : s.db.incidents id = none) : Stepped validateRow s (.create id ownerID)
      (s.write id (some ⟨ownerID, .opened, ⟨0, 0, 0⟩⟩) (s.db.evidence id))
  | setStatus {id status row} (hfree : s.holder id = none) (h : s.db.incidents id = some row) :
    Stepped validateRow s (.setStatus id status)
      (s.write id (some { row with status }) (s.db.evidence id))
  | delete {id} (hfree : s.holder id = none) :
    Stepped validateRow s (.delete id) (s.write id none [])
  | call {c q} (h : s.calls c = none) : Stepped validateRow s (.call c q) (s.begin c q validateRow)
  | move {a c q p p' db} (h : s.calls c = some ⟨q, p⟩) (hm : Move s c q a p p' db) :
    Stepped validateRow s a (s.moved c q p p' db)

inductive Opens (validateRow : IncidentEvidenceRow → Option String) (q : CaptureRequest) :
    CapturePhase → Prop
  | refused {e} (h : validateBatch validateRow q.ownerID q.rows q.limits = .error e) :
    Opens validateRow q (.returned (.error e) false)
  | empty (h : validateBatch validateRow q.ownerID q.rows q.limits = .ok (q.rows.map prepareRow))
    (hrows : q.rows = []) : Opens validateRow q (.returned (.ok 0) false)
  | begun (h : validateBatch validateRow q.ownerID q.rows q.limits = .ok (q.rows.map prepareRow))
    (hrows : q.rows ≠ []) : Opens validateRow q (.begun (q.rows.map prepareRow))

variable {validateRow : IncidentEvidenceRow → Option String} {s t : Captures} {c : CallId}
  {q : CaptureRequest} {a : CaptureAction} {p p' : CapturePhase} {db : EvidenceDb}

theorem begin_opens (validateRow : IncidentEvidenceRow → Option String) (s : Captures)
    (c : CallId) (q : CaptureRequest) :
    ∃ p, Opens validateRow q p ∧ s.begin c q validateRow = s.go c q p := by
  have prepared : ∀ {out}, validateBatch validateRow q.ownerID q.rows q.limits = .ok out →
      out = q.rows.map prepareRow := fun h => (validateBatch_ok_iff.1 h).2.2.2.2.2
  unfold Captures.begin
  split
  · exact ⟨_, .refused ‹_›, rfl⟩
  next h =>
    have hnil := prepared h
    exact ⟨_, .empty (hnil ▸ h) (List.map_eq_nil_iff.1 hnil.symm), rfl⟩
  next rows hne h =>
    have hrw := prepared h
    subst hrw
    exact ⟨_, .begun h fun hnil => hne (by rw [hnil]; rfl), rfl⟩

theorem stepped_of_next (h : s.next validateRow a = some t) : Stepped validateRow s a t := by
  have move : ∀ {c} (_ : a.caller = some c) {call} (_ : s.calls c = some call)
      (_ : s.advance c call a = some t), Stepped validateRow s a t := by
    intro c ha call hc hadv
    obtain ⟨p, db, hm, rfl⟩ := advance_move ha hadv
    exact .move hc hm
  unfold Captures.next at h
  cases a with
  | create id ownerID =>
    dsimp only at h
    split at h <;> cases h
    exact .create ‹_›
  | setStatus id status =>
    dsimp only at h
    split at h <;> cases h
    exact .setStatus ‹_› ‹_›
  | delete id =>
    dsimp only at h
    split at h <;> cases h
    exact .delete ‹_›
  | call c q =>
    dsimp only at h
    split at h <;> cases h
    exact .call ‹_›
  | lock | insert | countScopes | update | fail | commit | settle =>
    dsimp only at h
    split at h
    · cases h
    · exact move rfl ‹_› h

/-! ## What holds between steps -/

/-- What the tables and the locks say about one incident. -/
structure IncidentView where
  holder : Option CallId
  row : Option IncidentRow
  evidence : List IncidentEvidenceRow

def Captures.view (s : Captures) (id : Uuid) : IncidentView :=
  ⟨s.holder id, s.db.incidents id, s.db.evidence id⟩

section

variable (v : IncidentView)

def IncidentView.fresh (q : CaptureRequest) : List IncidentEvidenceRow :=
  insertEvidenceRows v.evidence (q.rows.map prepareRow)

def IncidentView.HeldBy (c : CallId) (q : CaptureRequest) : Prop :=
  v.holder = some c ∧ ∃ row, v.row = some row ∧ row.ownerID = q.ownerID

def IncidentView.Fits (q : CaptureRequest) : Prop :=
  v.fresh q ≠ [] ∧ checkTotals q.limits (totalsOf v.evidence) (v.fresh q) = .ok ()

def IncidentView.FitsScopes (q : CaptureRequest) : Prop :=
  checkScopes q.limits (totalsOf v.evidence) (countScopes (v.evidence ++ v.fresh q)) = .ok ()

/-- The call has checked its batch and may commit it with these totals. -/
def IncidentView.Ready (c : CallId) (q : CaptureRequest)
    (fresh : List IncidentEvidenceRow) (totals : Totals) : Prop :=
  v.HeldBy c q ∧ v.Fits q ∧ v.FitsScopes q ∧ fresh = v.fresh q ∧
    totals = totalsOf (v.evidence ++ v.fresh q)

/-- What a call's variables say about the incident while it has the lock. -/
def IncidentView.Knows (c : CallId) (q : CaptureRequest) : CapturePhase → Prop
  | .begun rows => rows = q.rows.map prepareRow ∧ q.rows ≠ []
  | .locked rows cur => v.HeldBy c q ∧ rows = q.rows.map prepareRow ∧ cur = totalsOf v.evidence
  | .inserted cur fresh => v.HeldBy c q ∧ v.Fits q ∧ cur = totalsOf v.evidence ∧ fresh = v.fresh q
  | .counted cur fresh newScopes =>
    v.HeldBy c q ∧ v.Fits q ∧ v.FitsScopes q ∧ cur = totalsOf v.evidence ∧ fresh = v.fresh q ∧
      newScopes = countScopes (v.evidence ++ v.fresh q)
  | .updated fresh totals => v.Ready c q fresh totals
  | .inDoubt fresh totals err => v.Ready c q fresh totals ∧ err.provesRollback = false
  | .returned _ _ => True

end

theorem IncidentView.Knows.held {v : IncidentView} (h : v.Knows c q p) (hp : p.holds = true) :
    v.HeldBy c q := by
  cases p with
  | begun | returned => cases hp
  | locked | inserted | counted | updated => exact h.1
  | inDoubt => exact h.1.1

theorem IncidentView.Knows.of_not_holds {v w : IncidentView} (h : v.Knows c q p)
    (hp : p.holds = false) : w.Knows c q p := by
  cases p with
  | begun | returned => exact h
  | locked | inserted | counted | updated | inDoubt => cases hp

/-- The counters are those of the rows, no two rows of an incident have one key, every row is
measured and has an incident. -/
structure EvidenceDb.Exact (db : EvidenceDb) (id : Uuid) : Prop where
  totals : ∀ row, db.incidents id = some row → row.totals = totalsOf (db.evidence id)
  orphan : db.incidents id = none → db.evidence id = []
  nodup : ((db.evidence id).map IncidentEvidenceRow.captureKey).Nodup
  measured : ∀ r ∈ db.evidence id, r.payloadBytes = r.payload.length

structure Captures.Inv (validateRow : IncidentEvidenceRow → Option String) (s : Captures) :
    Prop where
  exact : ∀ id, s.db.Exact id
  knows : ∀ c q p, s.calls c = some ⟨q, p⟩ → (s.view q.incidentID).Knows c q p
  valid : ∀ c q p, s.calls c = some ⟨q, p⟩ → (∃ e, p = .returned (.error e) false) ∨
    validateBatch validateRow q.ownerID q.rows q.limits = .ok (q.rows.map prepareRow)

/-! ### Writes of the tables -/

variable {fresh : List IncidentEvidenceRow} {id j : Uuid} {totals : Totals}

theorem EvidenceDb.Exact.congr {db' : EvidenceDb} (h : db.Exact id)
    (hi : db'.incidents id = db.incidents id) (he : db'.evidence id = db.evidence id) :
    db'.Exact id :=
  ⟨by rw [hi, he]; exact h.totals, by rw [hi, he]; exact h.orphan, by rw [he]; exact h.nodup,
    by rw [he]; exact h.measured⟩

theorem land_of_ne (h : j ≠ id) : (db.land id fresh totals).incidents j = db.incidents j ∧
      (db.land id fresh totals).evidence j = db.evidence j := by
  simp [EvidenceDb.land, h]

theorem land_evidence : (db.land id fresh totals).evidence id = db.evidence id ++ fresh := by
  simp [EvidenceDb.land]

theorem land_incident {row} (h : db.incidents id = some row) :
    (db.land id fresh totals).incidents id = some { row with totals } := by
  simp [EvidenceDb.land, h]

theorem EvidenceDb.Exact.land {rows : List IncidentEvidenceRow} (h : db.Exact j)
    (hrow : (db.incidents id).isSome = true) :
    let fresh := insertEvidenceRows (db.evidence id) (rows.map prepareRow)
    (db.land id fresh (totalsOf (db.evidence id ++ fresh))).Exact j := by
  intro fresh
  by_cases hj : j = id
  · subst hj
    obtain ⟨row, hrow⟩ := Option.isSome_iff_exists.1 hrow
    refine ⟨fun row' h' => ?_, fun h' => ?_, ?_, fun r hr => ?_⟩
    · rw [land_incident hrow] at h'
      rw [land_evidence, ← Option.some.inj h']
    · rw [land_incident hrow] at h'
      cases h'
    · rw [land_evidence]
      exact nodup_append_freshRows h.nodup
    · rw [land_evidence, List.mem_append] at hr
      rcases hr with hr | hr
      · exact h.measured r hr
      · obtain ⟨r, -, rfl⟩ := List.mem_map.1 (freshRows_subset hr)
        rfl
  · exact h.congr (land_of_ne hj).1 (land_of_ne hj).2

/-! ### Moves keep the invariant -/

theorem moved_view_self (hp : p.holds = true → s.holder q.incidentID = some c)
    (hp' : p'.holds = true) : (s.moved c q p p' s.db).view q.incidentID =
      ⟨some c, s.db.incidents q.incidentID, s.db.evidence q.incidentID⟩ := by
  unfold Captures.moved Captures.view
  rw [hp']
  cases h : p.holds with
  | false => simp
  | true => simp [hp h]

section

variable (hm : Move s c q a p p' db)
include hm

theorem Move.db_cases : db = s.db ∨ ∃ fresh totals, db = s.db.land q.incidentID fresh totals ∧
      ((p = .updated fresh totals ∧ p' = .returned (.ok fresh.length) true) ∨
        ∃ err, p = .inDoubt fresh totals err ∧
          p' = .returned (.error (busyIfLockTimeout (classifyCommitError err))) true) := by
  cases hm with
  | commit => exact .inr ⟨_, _, rfl, .inl ⟨rfl, rfl⟩⟩
  | landedUnseen => exact .inr ⟨_, _, rfl, .inr ⟨_, rfl, rfl⟩⟩
  | failed | notFound | unfit | lock | duplicate | overTotals | insert | overScopes | count
  | update | rolledBack | lost | undone => exact .inl rfl

theorem moved_view_of_ne (hj : j ≠ q.incidentID) : (s.moved c q p p' db).view j = s.view j := by
  have hhl : (s.moved c q p p' db).holder j = s.holder j := by
    unfold Captures.moved
    cases p.holds <;> cases p'.holds <;> simp [hj]
  have hdb : db.incidents j = s.db.incidents j ∧ db.evidence j = s.db.evidence j := by
    rcases hm.db_cases with rfl | ⟨fresh, totals, rfl, -⟩
    · exact ⟨rfl, rfl⟩
    · exact land_of_ne hj
  simp only [Captures.view, hhl]
  rw [show (s.moved c q p p' db).db = db from rfl, hdb.1, hdb.2]

theorem moved_view_of_not_holds (hp : p.holds = false)
    (hp' : p'.holds = false) (j : Uuid) : (s.moved c q p p' db).view j = s.view j := by
  have hdb : db = s.db := by
    rcases hm.db_cases with h | ⟨_, _, -, ⟨rfl, -⟩ | ⟨_, rfl, -⟩⟩
    · exact h
    · cases hp
    · cases hp
  subst hdb
  unfold Captures.moved Captures.view
  rw [hp, hp']

theorem Move.free (hp : p.holds = false) (hp' : p'.holds = true) :
    s.holder q.incidentID = none := by
  cases hm with
  | lock hfr => exact hfr
  | failed | notFound | unfit | duplicate | overTotals | overScopes | commit | rolledBack
  | landedUnseen | undone => cases hp'
  | insert | count | update | lost => cases hp

variable (hs : s.Inv validateRow) (hc : s.calls c = some ⟨q, p⟩)
include hc hs

theorem Captures.Inv.knows_moved : ((s.moved c q p p' db).view q.incidentID).Knows c q p' := by
  have hk := hs.knows c q p hc
  have hhd : p.holds = true → s.holder q.incidentID = some c := fun hp => (hk.held hp).1
  cases hm with
  | failed | notFound | unfit | duplicate | overTotals | overScopes | commit | rolledBack
  | landedUnseen | undone => trivial
  | lock hfr hrow hok =>
    rw [moved_view_self hhd rfl]
    exact ⟨⟨rfl, _, hrow, (checkIncident_ok hok).1⟩, hk.1, (hs.exact _).totals _ hrow⟩
  | insert hne hok =>
    rw [moved_view_self hhd rfl]
    obtain ⟨⟨-, hrow⟩, rfl, rfl⟩ := hk
    exact ⟨⟨rfl, hrow⟩, ⟨hne, hok⟩, rfl, rfl⟩
  | count hok =>
    rw [moved_view_self hhd rfl]
    obtain ⟨⟨-, hrow⟩, hft, rfl, rfl⟩ := hk
    exact ⟨⟨rfl, hrow⟩, hft, hok, rfl, rfl, rfl⟩
  | update =>
    rw [moved_view_self hhd rfl]
    obtain ⟨⟨-, hrow⟩, hft, hsc, rfl, rfl, rfl⟩ := hk
    exact ⟨⟨rfl, hrow⟩, hft, hsc, rfl, newTotals_totalsOf _ _⟩
  | lost herr =>
    rw [moved_view_self hhd rfl]
    obtain ⟨⟨-, hrow⟩, hrd⟩ := hk
    exact ⟨⟨⟨rfl, hrow⟩, hrd⟩, herr⟩

omit hm in
theorem Captures.Inv.ready (hp : p = .updated fresh totals ∨ ∃ err, p = .inDoubt fresh totals err) :
    (s.view q.incidentID).Ready c q fresh totals := by
  have hk := hs.knows c q p hc
  rcases hp with rfl | ⟨err, rfl⟩
  · exact hk
  · exact hk.1

theorem Captures.Inv.exact_moved (id : Uuid) : db.Exact id := by
  rcases hm.db_cases with rfl | ⟨fresh, totals, rfl, hp⟩
  · exact hs.exact id
  · have hp : p = .updated fresh totals ∨ ∃ err, p = .inDoubt fresh totals err :=
      hp.imp And.left (Exists.imp fun _ => And.left)
    obtain ⟨⟨-, row, hrow, -⟩, -, -, rfl, rfl⟩ := hs.ready hc hp
    exact (hs.exact id).land (Option.isSome_iff_exists.2 ⟨row, hrow⟩)

/-- The phases a valid call can be in stay valid; only a failure may be invalid. -/
theorem Captures.Inv.valid_moved :
    validateBatch validateRow q.ownerID q.rows q.limits = .ok (q.rows.map prepareRow) := by
  rcases hs.valid c q p hc with ⟨e, rfl⟩ | h
  · cases hm with
    | failed _ h => cases h
  · exact h

theorem Captures.Inv.moved : (s.moved c q p p' db).Inv validateRow := by
  refine ⟨hs.exact_moved hm hc, fun d r u hd => ?_, fun d r u hd => ?_⟩
  · rcases update_some_cases hd with ⟨rfl, he⟩ | ⟨hdc, hd⟩
    · cases he
      exact hs.knows_moved hm hc
    · have hk := hs.knows d r u hd
      -- another call with the lock of this incident would have to be this call
      by_cases hu : u.holds = true
      · by_cases hr : r.incidentID = q.incidentID
        · have hhd := (hk.held hu).1
          rw [hr] at hhd
          cases hp : p.holds with
          | true =>
            have := ((hs.knows c q p hc).held hp).1
            exact absurd (Option.some.inj (hhd.symm.trans this)) hdc
          | false =>
            cases hp' : p'.holds with
            | true => exact absurd (hhd.symm.trans (hm.free hp hp')) nofun
            | false => rw [moved_view_of_not_holds hm hp hp']; exact hk
        · rw [moved_view_of_ne hm hr]; exact hk
      · exact hk.of_not_holds (Bool.eq_false_iff.2 hu)
  · rcases update_some_cases hd with ⟨rfl, he⟩ | ⟨-, hd⟩
    · cases he
      exact .inr (hs.valid_moved hm hc)
    · exact hs.valid d r u hd

end

/-! ### Every step keeps the invariant -/

theorem Captures.Inv.go (hs : s.Inv validateRow) (hp : Opens validateRow q p) :
    (s.go c q p).Inv validateRow := by
  refine ⟨hs.exact, fun d r u hd => ?_, fun d r u hd => ?_⟩
  · rcases update_some_cases hd with ⟨rfl, he⟩ | ⟨-, hd⟩
    · cases he
      cases hp with
      | refused | empty => trivial
      | begun h hrw => exact ⟨rfl, hrw⟩
    · exact hs.knows d r u hd
  · rcases update_some_cases hd with ⟨rfl, he⟩ | ⟨-, hd⟩
    · cases he
      cases hp with
      | refused => exact .inl ⟨_, rfl⟩
      | empty h | begun h => exact .inr h
    · exact hs.valid d r u hd

/-- The other writers find the row unlocked or missing, so no call relies on it. -/
theorem Captures.Inv.write (hs : s.Inv validateRow) {row evidence}
    (hfr : s.holder id = none ∨ s.db.incidents id = none)
    (hex : (s.write id row evidence).db.Exact id) :
    (s.write id row evidence).Inv validateRow := by
  refine ⟨fun j => ?_, fun d r u hd => ?_, hs.valid⟩
  · by_cases hj : j = id
    · exact hj ▸ hex
    · exact (hs.exact j).congr (by simp [hj]) (by simp [hj])
  · have hk := hs.knows d r u hd
    by_cases hu : u.holds = true
    · have hne : r.incidentID ≠ id := by
        rintro rfl
        obtain ⟨hhd, row', hrow, -⟩ := hk.held hu
        rcases hfr with h | h
        · exact absurd (hhd.symm.trans h) nofun
        · exact absurd (hrow.symm.trans h) nofun
      have hvw : (s.write id row evidence).view r.incidentID = s.view r.incidentID := by
        simp [Captures.view, hne]
      rw [hvw]
      exact hk
    · exact hk.of_not_holds (Bool.eq_false_iff.2 hu)

theorem Captures.Inv.stepped (hs : s.Inv validateRow) (h : Stepped validateRow s a t) :
    t.Inv validateRow := by
  cases h with
  | @create id ownerID hno =>
    have hnil := (hs.exact id).orphan hno
    refine hs.write (.inr hno) ⟨?_, ?_, ?_, ?_⟩ <;> simp [hnil]
  | @setStatus id status row hfr hrow =>
    have hex := hs.exact id
    refine hs.write (.inl hfr) ⟨?_, ?_, ?_, ?_⟩
    · simpa using hex.totals row hrow
    · simp
    · simpa using hex.nodup
    · simpa using hex.measured
  | delete hfr => refine hs.write (.inl hfr) ⟨?_, ?_, ?_, ?_⟩ <;> simp
  | @call c q hno =>
    obtain ⟨p, hp, he⟩ := begin_opens validateRow s c q
    rw [he]
    exact hs.go hp
  | move hc hm => exact hs.moved hm hc

theorem Captures.Inv.empty : Captures.empty.Inv validateRow := by
  refine ⟨fun id => ⟨fun row h => ?_, fun _ => rfl, .nil, fun r hr => ?_⟩, fun c q p h => ?_,
    fun c q p h => ?_⟩
  · cases h
  · cases hr
  · cases h
  · cases h

theorem Captures.Inv.next (s : Captures) (a : CaptureAction) (t : Captures)
    (hs : s.Inv validateRow) (h : (captures validateRow).next s a = some t) : t.Inv validateRow :=
  hs.stepped (stepped_of_next h)

theorem inv_run (as : List CaptureAction) : ((captures validateRow).run as).Inv validateRow :=
  Machine.run_inv Captures.Inv.empty Captures.Inv.next as

end KubeCenter.Store
