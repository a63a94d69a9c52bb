import KubeCenter.Store.BackupAssuranceDelivery

/-! # The ledger of transitions

A row is opened once and resolved at most once, and each of the two leaves one intent. `Ledger`
keeps only that of the tables. -/
namespace KubeCenter.Store

open Lib Go Program List

/-! ## The abstract ledger -/

structure LedgerRow where
  id : Uuid
  identity : AssuranceIdentity
  state : AssuranceState
deriving DecidableEq

structure Ledger where
  rows : List LedgerRow
  intents : List (Uuid × AssuranceTransition)
deriving DecidableEq

namespace Ledger

variable {L M : Ledger} {id : Uuid} {key : AssuranceIdentity}

def IsOpen (L : Ledger) (key : AssuranceIdentity) : Prop :=
  ∃ r ∈ L.rows, r.identity = key ∧ r.state = .stateOpen

def openRow (L : Ledger) (id : Uuid) (key : AssuranceIdentity) : Ledger :=
  ⟨L.rows ++ [⟨id, key, .stateOpen⟩], L.intents ++ [(id, .opened)]⟩

end Ledger

def LedgerRow.resolve (id : Uuid) (r : LedgerRow) : LedgerRow :=
  if r.id = id ∧ r.state = .stateOpen then { r with state := .stateResolved } else r

@[simp] theorem LedgerRow.resolve_id (id : Uuid) (r : LedgerRow) : (r.resolve id).id = r.id := by
  unfold LedgerRow.resolve
  split <;> rfl

theorem LedgerRow.resolve_of_ne {id : Uuid} {r : LedgerRow} (h : r.id ≠ id) : r.resolve id = r :=
  if_neg fun hr => h hr.1

theorem LedgerRow.resolve_state {id : Uuid} {r : LedgerRow} (h : r.id = id) :
    (r.resolve id).state = .stateResolved := by
  unfold LedgerRow.resolve
  split
  · rfl
  next hope =>
    cases hsa : r.state with
    | stateOpen => exact absurd ⟨h, hsa⟩ hope
    | stateResolved => rfl

namespace Ledger

variable {L M : Ledger} {id : Uuid} {key : AssuranceIdentity}

def resolveRow (L : Ledger) (id : Uuid) : Ledger :=
  ⟨L.rows.map (LedgerRow.resolve id), L.intents ++ [(id, .resolved)]⟩

inductive Move (L : Ledger) : Ledger → Prop where
  | same : Move L L
  | opened (id : Uuid) (key : AssuranceIdentity) (hid : ∀ r ∈ L.rows, r.id ≠ id)
      (hkey : ¬L.IsOpen key) (hintent : (id, .opened) ∉ L.intents) : Move L (L.openRow id key)
  | resolved (id : Uuid) (hopen : ∃ r ∈ L.rows, r.id = id ∧ r.state = .stateOpen)
      (hintent : (id, .resolved) ∉ L.intents) : Move L (L.resolveRow id)

/-- The keys of the tables. -/
structure Keyed (L : Ledger) : Prop where
  ids : (L.rows.map (·.id)).Nodup
  identities : ((L.rows.filter (·.state = .stateOpen)).map (·.identity)).Nodup
  once : L.intents.Nodup

variable {r : LedgerRow}

theorem Keyed.eq_of_id (h : L.Keyed) {r'} (hr : r ∈ L.rows) (hr' : r' ∈ L.rows)
    (hid : r.id = r'.id) : r = r' :=
  inj_on_of_nodup_map h.ids hr hr' hid

theorem Keyed.eq_of_identity (h : L.Keyed) {r'} (hr : r ∈ L.rows) (hr' : r' ∈ L.rows)
    (hope : r.state = .stateOpen) (hope' : r'.state = .stateOpen)
    (hide : r.identity = r'.identity) : r = r' := by
  refine inj_on_of_nodup_map h.identities ?_ ?_ hide
  · exact mem_filter.2 ⟨hr, decide_eq_true hope⟩
  · exact mem_filter.2 ⟨hr', decide_eq_true hope'⟩

/-- Transitions and intents are in step. -/
structure InStep (L : Ledger) : Prop extends Keyed L where
  owned : ∀ i ∈ L.intents, ∃ r ∈ L.rows, r.id = i.1
  opened : ∀ r ∈ L.rows, (r.id, .opened) ∈ L.intents
  resolved : ∀ r ∈ L.rows, r.state = .stateResolved ↔ (r.id, .resolved) ∈ L.intents

theorem filter_map_resolve (rows : List LedgerRow) (id : Uuid) :
    (rows.map (LedgerRow.resolve id)).filter (·.state = .stateOpen) =
      rows.filter fun r => r.id ≠ id ∧ r.state = .stateOpen := by
  induction rows with
  | nil => rfl
  | cons r rows ih =>
    rw [map_cons, filter_cons, filter_cons, ih]
    by_cases hid : r.id = id
    · simp [LedgerRow.resolve_state hid, hid]
    · simp [LedgerRow.resolve_of_ne hid, hid]

theorem Keyed.move (h : L.Keyed) (hmv : L.Move M) : M.Keyed := by
  cases hmv with
  | same => exact h
  | opened id key hid hkey hintent =>
    refine ⟨?_, ?_, ?_⟩
    · rw [openRow, map_append, nodup_append']
      refine ⟨h.ids, nodup_singleton _, ?_⟩
      simpa [disjoint_singleton] using hid
    · have hop : (L.openRow id key).rows.filter (·.state = .stateOpen) =
          L.rows.filter (·.state = .stateOpen) ++ [⟨id, key, .stateOpen⟩] := by
        simp [openRow]
      rw [hop, map_append, nodup_append']
      refine ⟨h.identities, nodup_singleton _, ?_⟩
      simp only [map_cons, map_nil, disjoint_singleton]
      intro hmem
      obtain ⟨r, hr, hrk⟩ := mem_map.1 hmem
      obtain ⟨hr, hope⟩ := mem_filter.1 hr
      exact hkey ⟨r, hr, hrk, by simpa using hope⟩
    · rw [openRow, nodup_append']
      exact ⟨h.once, nodup_singleton _, by simpa using hintent⟩
  | resolved id hope hintent =>
    refine ⟨?_, ?_, ?_⟩
    · have hids : (L.resolveRow id).rows.map (·.id) = L.rows.map (·.id) := by
        simp [resolveRow, Function.comp_def]
      rw [hids]
      exact h.ids
    · show (((L.rows.map (LedgerRow.resolve id)).filter (·.state = .stateOpen)).map
        (·.identity)).Nodup
      rw [filter_map_resolve]
      refine h.identities.sublist (List.Sublist.map _ ?_)
      exact monotone_filter_right _ fun r hr => by
        simp only [decide_eq_true_eq] at hr ⊢
        exact hr.2
    · rw [resolveRow, nodup_append']
      exact ⟨h.once, nodup_singleton _, by simpa using hintent⟩

theorem InStep.move (h : L.InStep) (hmv : L.Move M) : M.InStep := by
  refine { toKeyed := h.toKeyed.move hmv, owned := ?_, opened := ?_, resolved := ?_ }
  · cases hmv with
    | same => exact h.owned
    | opened id key hid hkey hintent =>
      intro i hi
      rcases mem_append.1 hi with hi | hi
      · obtain ⟨r, hr, hrid⟩ := h.owned i hi
        exact ⟨r, mem_append_left _ hr, hrid⟩
      · rw [mem_singleton] at hi
        exact ⟨⟨id, key, .stateOpen⟩, mem_append_right _ mem_cons_self, by rw [hi]⟩
    | resolved id hope hintent =>
      intro i hi
      have how : ∃ r ∈ L.rows, r.id = i.1 := by
        rcases mem_append.1 hi with hi | hi
        · exact h.owned i hi
        · rw [mem_singleton] at hi
          obtain ⟨r, hr, hrid, -⟩ := hope
          exact ⟨r, hr, by rw [hi, hrid]⟩
      obtain ⟨r, hr, hrid⟩ := how
      exact ⟨r.resolve id, mem_map_of_mem hr, by rw [LedgerRow.resolve_id, hrid]⟩
  · cases hmv with
    | same => exact h.opened
    | opened id key hid hkey hintent =>
      intro r hr
      rcases mem_append.1 hr with hr | hr
      · exact mem_append_left _ (h.opened r hr)
      · rw [mem_singleton] at hr
        exact mem_append_right _ (by rw [hr]; exact mem_cons_self)
    | resolved id hope hintent =>
      intro r' hr'
      obtain ⟨r, hr, rfl⟩ := mem_map.1 hr'
      rw [LedgerRow.resolve_id]
      exact mem_append_left _ (h.opened r hr)
  · cases hmv with
    | same => exact h.resolved
    | opened id key hid hkey hintent =>
      intro r hr
      have hints : (r.id, .resolved) ∈ (L.openRow id key).intents ↔
          (r.id, .resolved) ∈ L.intents := by simp [openRow]
      rw [hints]
      rcases mem_append.1 hr with hr | hr
      · exact h.resolved r hr
      · rw [mem_singleton] at hr
        subst hr
        refine iff_of_false nofun fun hmem => ?_
        -- the id is new, so no intent has it yet
        obtain ⟨r, hr, hrid⟩ := h.owned _ hmem
        exact hid r hr hrid
    | resolved id hope hintent =>
      intro r' hr'
      obtain ⟨r, hr, rfl⟩ := mem_map.1 hr'
      rw [LedgerRow.resolve_id]
      by_cases hid : r.id = id
      · refine iff_of_true (LedgerRow.resolve_state hid) ?_
        rw [hid]
        exact mem_append_right _ mem_cons_self
      · rw [LedgerRow.resolve_of_ne hid, h.resolved r hr]
        simp [resolveRow, hid]

theorem Move.keeps_resolved (hmv : L.Move M) (hr : r ∈ L.rows) (hsa : r.state = .stateResolved)
    : r ∈ M.rows := by
  cases hmv with
  | same => exact hr
  | opened id key hid hkey hintent => exact mem_append_left _ hr
  | resolved id hope hintent =>
    refine mem_map.2 ⟨r, hr, if_neg fun h => ?_⟩
    rw [hsa] at h
    cases h.2

end Ledger

/-! ## The ledger of the tables -/

section Tables

variable {δ : Type} {newSHA1 : Uuid → String → Uuid} {t u : AssuranceTables δ}

def BackupAssuranceException.row (e : BackupAssuranceException δ) : LedgerRow :=
  ⟨e.id, e.identity, e.state⟩

def AssuranceDelivery.intent (d : AssuranceDelivery) : Uuid × AssuranceTransition :=
  (d.exceptionID, d.transition)

@[local simp] def AssuranceTables.ledger (t : AssuranceTables δ) : Ledger :=
  ⟨t.exceptions.map (·.row), t.deliveries.map (·.intent)⟩

variable {e : BackupAssuranceException δ} {α : Type} {r : Option (α × AssuranceTables δ)}
  {fault : AssuranceFault} {id : Uuid} {now time : Time} {reason : String}

theorem mem_rows (h : e ∈ t.exceptions) : e.row ∈ t.ledger.rows := mem_map_of_mem h

theorem isOpen_iff {key} :
    t.ledger.IsOpen key ↔ ∃ e ∈ t.exceptions, e.identity = key ∧ e.state = .stateOpen := by
  constructor
  · rintro ⟨r, hr, hkey, hope⟩
    obtain ⟨e, he, rfl⟩ := mem_map.1 hr
    exact ⟨e, he, hkey, hope⟩
  · rintro ⟨e, he, hkey, hope⟩
    exact ⟨e.row, mem_rows he, hkey, hope⟩

theorem enqueueDelivery_spec {transition} (h : enqueueDelivery newSHA1 now id transition t = some u)
    : (id, transition) ∉ t.ledger.intents ∧ u = { t with
        deliveries := t.deliveries ++
          [⟨deliveryIDFor newSHA1 id transition, id, transition, .pending, 0, now⟩] } ∧
      ∀ d ∈ t.deliveries, d.id ≠ deliveryIDFor newSHA1 id transition := by
  simp only [enqueueDelivery] at h
  split at h
  · cases h
  next hfr =>
    simp only [any_eq_true, Bool.or_eq_true, Bool.and_eq_true, decide_eq_true_eq, not_exists,
      not_and, not_or] at hfr
    cases h
    refine ⟨?_, rfl, fun d hd => (hfr d hd).1⟩
    intro hmem
    obtain ⟨d, hd, hintent⟩ := mem_map.1 hmem
    cases hintent
    exact (hfr d hd).2 rfl rfl

theorem insertOpenException_spec {r : Option (BackupAssuranceException δ)}
    (h : insertOpenException newSHA1 now e t = some (r, u)) :
    (r = none ∧ u = t) ∨
    (r = some e.asOpened ∧ (∀ x ∈ t.ledger.rows, x.id ≠ e.id) ∧ ¬t.ledger.IsOpen e.identity ∧
      enqueueDelivery newSHA1 now e.id .opened
        { t with exceptions := t.exceptions ++ [e.asOpened] } = some u) := by
  unfold insertOpenException at h
  split at h
  · cases h
    exact .inl ⟨rfl, rfl⟩
  next hgr =>
    simp only [Bool.or_eq_true, not_or] at hgr
    obtain ⟨⟨-, hid⟩, hkey⟩ := hgr
    obtain ⟨u', hu, h⟩ := Option.map_eq_some_iff.1 h
    cases h
    refine .inr ⟨rfl, ?_, ?_, hu⟩
    · intro x hx
      obtain ⟨y, hy, rfl⟩ := mem_map.1 hx
      intro hxid
      exact hid (any_eq_true.2 ⟨y, hy, decide_eq_true hxid⟩)
    · intro hope
      obtain ⟨y, hy, hyk, hyp⟩ := isOpen_iff.1 hope
      refine hkey (find?_isSome.2 ⟨y, hy, ?_⟩)
      simp [hyk, hyp]

theorem ledger_of_opened (h : enqueueDelivery newSHA1 now e.id .opened
      { t with exceptions := t.exceptions ++ [e.asOpened] } = some u) :
    (e.id, .opened) ∉ t.ledger.intents ∧ u.ledger = t.ledger.openRow e.id e.identity := by
  obtain ⟨hintent, rfl, -⟩ := enqueueDelivery_spec h
  refine ⟨hintent, ?_⟩
  simp [Ledger.openRow, BackupAssuranceException.row, AssuranceDelivery.intent,
    BackupAssuranceException.asOpened, BackupAssuranceException.identity]

theorem updateResolved_spec {b : Bool}
    (h : updateResolved newSHA1 now id time reason t = some (b, u)) :
    (b = false ∧ u = t ∧ ∀ r ∈ t.ledger.rows, r.id = id → r.state ≠ .stateOpen) ∨
    (b = true ∧ (∃ r ∈ t.ledger.rows, r.id = id ∧ r.state = .stateOpen) ∧
      enqueueDelivery newSHA1 now id .resolved { t with
          exceptions := t.exceptions.map fun e =>
            if openWithID id e then e.asResolved time reason else e } = some u) := by
  unfold updateResolved at h
  split at h
  next hope =>
    obtain ⟨u', hu, h⟩ := Option.map_eq_some_iff.1 h
    cases h
    obtain ⟨e, he, hope⟩ := any_eq_true.1 hope
    simp only [openWithID, Bool.and_eq_true, decide_eq_true_eq] at hope
    exact .inr ⟨rfl, ⟨e.row, mem_rows he, hope⟩, hu⟩
  next hope =>
    cases h
    refine .inl ⟨rfl, rfl, ?_⟩
    intro r hr hid hsa
    obtain ⟨e, he, rfl⟩ := mem_map.1 hr
    exact hope (any_eq_true.2 ⟨e, he, by
      simp only [openWithID, Bool.and_eq_true, decide_eq_true_eq]
      exact ⟨hid, hsa⟩⟩)

theorem ledger_of_resolved (h : enqueueDelivery newSHA1 now id .resolved { t with
        exceptions := t.exceptions.map fun e =>
          if openWithID id e then e.asResolved time reason else e } = some u) :
    (id, .resolved) ∉ t.ledger.intents ∧ u.ledger = t.ledger.resolveRow id := by
  obtain ⟨hintent, rfl, -⟩ := enqueueDelivery_spec h
  refine ⟨hintent, ?_⟩
  have hrow : ∀ e : BackupAssuranceException δ,
      (if openWithID id e then e.asResolved time reason else e).row = e.row.resolve id := by
    intro e
    simp only [openWithID, LedgerRow.resolve, Bool.and_eq_true, decide_eq_true_eq]
    show _ = if e.id = id ∧ e.state = .stateOpen then _ else _
    split <;> rfl
  simp [Ledger.resolveRow, AssuranceDelivery.intent, Function.comp_def, hrow]

theorem ledger_updateObserved (id : Uuid) (o : AssuranceObservation δ) :
    (updateObserved id o t).2.ledger = t.ledger := by
  have hrow : ∀ e : BackupAssuranceException δ,
      (if observable id o e then e.observed o else e).row = e.row := by
    intro e
    split <;> rfl
  simp [updateObserved, Function.comp_def, hrow]

theorem ledger_of_map {f} (hf : ∀ d, (f d).intent = d.intent) :
    ({ t with deliveries := t.deliveries.map f } : AssuranceTables δ).ledger = t.ledger := by
  simp [Function.comp_def, hf]

theorem ledger_updateClaimed (clusterID : String) (maxAttempts limit : ℕ) (locked : List Uuid) :
    (updateClaimed clusterID maxAttempts limit locked t).2.ledger = t.ledger := by
  refine ledger_of_map fun d => ?_
  split <;> rfl

theorem ledger_updatePending (id : Uuid) (f : AssuranceDelivery → AssuranceDeliveryState) :
    (updatePending id f t).2.ledger = t.ledger := by
  refine ledger_of_map fun d => ?_
  split <;> rfl

theorem transact_cases {a} (h : fault.transact r t = (a, u)) :
    (a = .error .database ∧ u = t) ∨ ∃ x, r = some (x, u) ∧ (a = .ok x ∨ a = .error .database) := by
  unfold AssuranceFault.transact at h
  split at h
  · cases h
    exact .inr ⟨_, rfl, .inl rfl⟩
  · cases h
    exact .inr ⟨_, rfl, .inr rfl⟩
  · cases h
    exact .inl ⟨rfl, rfl⟩

theorem transact_ok {x : α} (h : fault.transact r t = (.ok x, u)) : r = some (x, u) := by
  rcases transact_cases h with ⟨h, -⟩ | ⟨y, hr, h | h⟩
  · cases h
  · cases h
    exact hr
  · cases h

theorem query_cases {x : α} {a} (h : fault.query x t = (a, u)) :
    u = t ∧ (a = .ok x ∨ a = .error .database) := by
  unfold AssuranceFault.query at h
  split at h
  · cases h
    exact ⟨rfl, .inl rfl⟩
  · cases h
    exact ⟨rfl, .inr rfl⟩

theorem transact_keeps {P : AssuranceTables δ → Prop} (fault : AssuranceFault) (ht : P t)
    (h : ∀ x u, r = some (x, u) → P u) : P (fault.transact r t).2 := by
  rcases hre : fault.transact r t with ⟨a, u⟩
  rcases transact_cases hre with ⟨-, hu⟩ | ⟨x, hr, -⟩
  · show P u
    rw [hu]
    exact ht
  · exact h x u hr

theorem transact_some_keeps {P : AssuranceTables δ → Prop} (fault : AssuranceFault)
    {x : α × AssuranceTables δ} (ht : P t) (h : P x.2) : P (fault.transact (some x) t).2 := by
  refine transact_keeps fault ht fun y u hy => ?_
  cases hy
  exact h

/-- An insert may open its row, a resolution may resolve its row, and nothing else is done. -/
inductive LedgerEffect (t : AssuranceTables δ) : AssuranceCall δ → Ledger → Prop where
  | same (c : AssuranceCall δ) : LedgerEffect t c t.ledger
  | opened (e : BackupAssuranceException δ) (hid : ∀ r ∈ t.ledger.rows, r.id ≠ e.id)
      (hkey : ¬t.ledger.IsOpen e.identity) (hintent : (e.id, .opened) ∉ t.ledger.intents) :
      LedgerEffect t (.insertOpen e) (t.ledger.openRow e.id e.identity)
  | resolved (id : Uuid) (time : Time) (reason : String)
      (hopen : ∃ r ∈ t.ledger.rows, r.id = id ∧ r.state = .stateOpen)
      (hintent : (id, .resolved) ∉ t.ledger.intents) :
      LedgerEffect t (.updateResolved id time reason) (t.ledger.resolveRow id)

theorem ledger_effect (c : AssuranceCall δ) (w : AssuranceChoice) (t : AssuranceTables δ) :
    LedgerEffect t c (assuranceExec newSHA1 c w t).2.ledger := by
  let P (u : AssuranceTables δ) : Prop := LedgerEffect t c u.ledger
  cases c with
  | insertOpen e =>
    refine transact_keeps (P := P) _ (.same _) fun r u h => ?_
    show LedgerEffect t _ u.ledger
    rcases insertOpenException_spec h with ⟨-, rfl⟩ | ⟨-, hid, hkey, h⟩
    · exact .same _
    · obtain ⟨hintent, hld⟩ := ledger_of_opened h
      rw [hld]
      exact .opened e hid hkey hintent
  | updateResolved id time reason =>
    refine transact_keeps (P := P) _ (.same _) fun b u h => ?_
    show LedgerEffect t _ u.ledger
    rcases updateResolved_spec h with ⟨-, rfl, -⟩ | ⟨-, hope, h⟩
    · exact .same _
    · obtain ⟨hintent, hld⟩ := ledger_of_resolved h
      rw [hld]
      exact .resolved id time reason hope hintent
  | updateObserved id o =>
    refine transact_some_keeps (P := P) _ (.same _) ?_
    show LedgerEffect t _ (updateObserved id o t).2.ledger
    rw [ledger_updateObserved]
    exact .same _
  | claim clusterID maxAttempts limit =>
    refine transact_some_keeps (P := P) _ (.same _) ?_
    show LedgerEffect t _ (updateClaimed clusterID maxAttempts limit w.locked t).2.ledger
    rw [ledger_updateClaimed]
    exact .same _
  | updateDelivered id | updateFailed id =>
    refine transact_some_keeps (P := P) _ (.same _) ?_
    show LedgerEffect t _ (updatePending id _ t).2.ledger
    rw [ledger_updatePending]
    exact .same _
  | findOpen | probeID | probePolicy | probeState | listOpen | newID | ctxErr | emitSync =>
    exact .same _

theorem ledger_move (c : AssuranceCall δ) (w : AssuranceChoice) (t : AssuranceTables δ) :
    t.ledger.Move (assuranceExec newSHA1 c w t).2.ledger := by
  have hef : LedgerEffect t c (assuranceExec newSHA1 c w t).2.ledger := ledger_effect c w t
  generalize (assuranceExec newSHA1 c w t).2.ledger = M at hef ⊢
  cases hef with
  | same => exact .same
  | opened e hid hkey hintent => exact .opened e.id e.identity hid hkey hintent
  | resolved id time reason hope hintent => exact .resolved id hope hintent

def Resolves (id : Uuid) : AssuranceCall δ → Prop
  | .updateResolved id' _ _ => id' = id
  | _ => False

theorem row_kept {c} (w : AssuranceChoice) {r : LedgerRow} (hc : ¬Resolves r.id c)
    (hr : r ∈ t.ledger.rows) : r ∈ (assuranceExec newSHA1 c w t).2.ledger.rows := by
  have hef : LedgerEffect t c (assuranceExec newSHA1 c w t).2.ledger := ledger_effect c w t
  generalize (assuranceExec newSHA1 c w t).2.ledger = M at hef ⊢
  cases hef with
  | same => exact hr
  | opened e hid hkey hintent => exact mem_append_left _ hr
  | resolved id time reason hope hintent =>
    exact mem_map.2 ⟨r, hr, LedgerRow.resolve_of_ne fun h => hc h.symm⟩

/-! ## Methods, alone -/

/-- A method, alone on the tables, may return `a` and leave `u`. -/
abbrev Ran (newSHA1 : Uuid → String → Uuid) (p : AssuranceProgram δ α) (t : AssuranceTables δ)
    (a : α) (u : AssuranceTables δ) : Prop :=
  Runs (assuranceExec newSHA1) p t a u

theorem runs_findOpen {key} {r : Option (BackupAssuranceException δ)}
    (h : Ran newSHA1 (ask (.findOpen key)) t (.ok r) u) :
    u = t ∧ r = findOpenException t key := by
  obtain ⟨w, h⟩ := runs_request.1 h
  obtain ⟨rfl, h | h⟩ := query_cases h
  · cases h
    exact ⟨rfl, rfl⟩
  · cases h

theorem probes {r : Option (BackupAssuranceException δ × Bool)} (h : Ran newSHA1
      ((ask (.probeID e.id)).andThen fun
        | true =>
          .done (.error (.exceptionInvalid s!"id {e.id.text} already belongs to another exception"))
        | false =>
          (ask (.probePolicy e.policyID e.clusterID)).andThen fun
            | true => .done (.ok none)
            | false => .done (.error .policyNotFound)) t (.ok r) u) : r = none ∧ u = t := by
  obtain ⟨taken, m, hpr, hth⟩ := runs_andThen_ok.1 h
  obtain ⟨w, hpr⟩ := runs_request.1 hpr
  obtain ⟨rfl, -⟩ := query_cases hpr
  cases taken with
  | true => cases (runs_done.1 hth).1
  | false =>
    obtain ⟨there, m', hpr', hth'⟩ := runs_andThen_ok.1 hth
    obtain ⟨w, hpr'⟩ := runs_request.1 hpr'
    obtain ⟨rfl, -⟩ := query_cases hpr'
    cases there with
    | true =>
      obtain ⟨hr, rfl⟩ := runs_done.1 hth'
      cases hr
      exact ⟨rfl, rfl⟩
    | false => cases (runs_done.1 hth').1

/-- What an opener is told: its row was opened, or an open row was there. -/
def OpenedOrFound (t u : AssuranceTables δ) (e got : BackupAssuranceException δ) (opened : Bool) :
    Prop :=
  (opened = true ∧ got.id = e.id ∧ (∀ r ∈ t.ledger.rows, r.id ≠ e.id) ∧
    ¬t.ledger.IsOpen e.identity ∧ (e.id, .opened) ∉ t.ledger.intents ∧
    u.ledger = t.ledger.openRow e.id e.identity) ∨
  (opened = false ∧ u = t ∧ got.row ∈ t.ledger.rows ∧ got.identity = e.identity ∧
    got.state = .stateOpen)

theorem runs_openTransaction {r : Option (BackupAssuranceException δ × Bool)}
    (h : Ran newSHA1 (openTransaction e) t (.ok r) u) :
    (r = none ∧ u = t) ∨ ∃ got opened, r = some (got, opened) ∧ OpenedOrFound t u e got opened := by
  obtain ⟨inserted, m, hin, hth⟩ := runs_andThen_ok.1 h
  obtain ⟨w, hin⟩ := runs_request.1 hin
  rcases insertOpenException_spec (transact_ok hin) with ⟨rfl, rfl⟩ | ⟨rfl, hid, hkey, hm⟩
  · obtain ⟨existing, m', hfd, hth'⟩ := runs_andThen_ok.1 hth
    obtain ⟨rfl, rfl⟩ := runs_findOpen hfd
    cases hfo : findOpenException m' e.identity with
    | some got =>
      rw [hfo] at hth'
      obtain ⟨hr, rfl⟩ := runs_done.1 hth'
      cases hr
      have hope := find?_some hfo
      simp only [Bool.and_eq_true, decide_eq_true_eq] at hope
      exact .inr ⟨got, false, rfl, .inr ⟨rfl, rfl, mem_rows (mem_of_find?_eq_some hfo), hope⟩⟩
    | none =>
      rw [hfo] at hth'
      exact .inl (probes hth')
  · obtain ⟨hr, rfl⟩ := runs_done.1 hth
    cases hr
    obtain ⟨hintent, hld⟩ := ledger_of_opened hm
    exact .inr ⟨e.asOpened, true, rfl, .inl ⟨rfl, rfl, hid, hkey, hintent, hld⟩⟩

theorem runs_openAttempts {got} {opened : Bool} {n : ℕ}
    (h : Ran newSHA1 (openAttempts e n) t (.ok (got, opened)) u) :
    OpenedOrFound t u e got opened := by
  induction n with
  | zero => cases (runs_done.1 h).1
  | succ n ih =>
    obtain ⟨r, m, htx, hth⟩ := runs_andThen_ok.1 h
    rcases runs_openTransaction htx with ⟨rfl, rfl⟩ | ⟨got, opened, rfl, hop⟩
    · exact ih hth
    · obtain ⟨hr, rfl⟩ := runs_done.1 hth
      cases hr
      exact hop

theorem runs_openException {got} {opened : Bool}
    (h : Ran newSHA1 (openExceptionAndEnqueue e) t (.ok (got, opened)) u) :
    OpenedOrFound t u e got opened := by
  unfold openExceptionAndEnqueue at h
  split at h
  · cases (runs_done.1 h).1
  · exact runs_openAttempts (e := { e with detail := e.detail.orEmpty }) h

theorem runs_resolveException {b : Bool}
    (h : Ran newSHA1 (resolveExceptionAndEnqueue id time reason) t (.ok b) u) :
    (u = t ∧ ∀ r ∈ t.ledger.rows, r.id = id → r.state ≠ .stateOpen) ∨
      u.ledger = t.ledger.resolveRow id := by
  unfold resolveExceptionAndEnqueue at h
  by_cases htm : time = zeroTime
  · rw [if_pos htm] at h
    cases (runs_done.1 h).1
  · rw [if_neg htm] at h
    by_cases hrs : reason = ""
    · rw [if_pos hrs] at h
      cases (runs_done.1 h).1
    · rw [if_neg hrs] at h
      obtain ⟨w, hup⟩ := runs_request.1 h
      rcases updateResolved_spec (transact_ok hup) with ⟨-, rfl, hno⟩ | ⟨-, -, hu⟩
      · exact .inl ⟨rfl, hno⟩
      · exact .inr (ledger_of_resolved hu).2

theorem runs_updateObserved {o : AssuranceObservation δ} {r : Except AssuranceError Bool}
    (h : Ran newSHA1 (ask (.updateObserved id o)) t r u) :
    u.ledger = t.ledger := by
  obtain ⟨w, h⟩ := runs_request.1 h
  have hkp := transact_some_keeps (P := fun u => u.ledger = t.ledger) w.fault rfl
    (ledger_updateObserved (t := t) id o)
  rwa [show w.fault.transact (some (updateObserved id o t)) t = (r, u) from h] at hkp

theorem runs_observeException {o} {r : Except AssuranceError Unit}
    (h : Ran newSHA1 (observeException id o) t r u) :
    u.ledger = t.ledger := by
  unfold observeException at h
  split at h
  · rw [(runs_done.1 h).2]
  · rcases runs_andThen.1 h with ⟨b, m, hm, hth⟩ | ⟨err, hm, -⟩
    · rw [← runs_updateObserved hm]
      cases b with
      | true => rw [(runs_done.1 hth).2]
      | false =>
        rcases runs_andThen.1 hth with ⟨state, m', hm', hend⟩ | ⟨err, hm', -⟩
        · obtain ⟨w, hm'⟩ := runs_request.1 hm'
          obtain ⟨rfl, -⟩ := query_cases hm'
          split at hend
          · rw [(runs_done.1 hend).2]
          · rw [(runs_done.1 hend).2]
        · obtain ⟨w, hm'⟩ := runs_request.1 hm'
          obtain ⟨rfl, -⟩ := query_cases hm'
          rfl
    · exact runs_updateObserved hm

theorem runs_listOpen {clusterID : String} {r : Except AssuranceError _}
    (h : Ran newSHA1 (listOpenExceptions clusterID) t r u) :
    u = t ∧ (r = .ok (listOpen t clusterID) ∨ r = .error .database) := by
  obtain ⟨w, h⟩ := runs_request.1 h
  exact query_cases h

end Tables

end KubeCenter.Store
