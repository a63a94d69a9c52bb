import KubeCenter.Changes.System

/-! # A tracked apply runs its engine at most once

The row is the lock: only the call whose `Insert` created it gets past the insert, and it enters
the engine only through a mark that met the row unfinished. -/
namespace KubeCenter.Changes
open Lib Go Store List

/-! ## Rows stay -/

/-- No row is lost on the way from `rs` to `rs'`. -/
def Kept (rs rs' : Receipts) : Prop := ∀ id, rs id ≠ none → rs' id ≠ none

theorem Kept.refl (rs : Receipts) : Kept rs rs := fun _ h => h

theorem Kept.update (rs : Receipts) (id : Uuid) (r : ChangeReceipt) :
    Kept rs (Function.update rs id (some r)) := by
  intro id' h
  by_cases he : id' = id
  · subst he; simp
  · simpa [Function.update_of_ne he] using h

variable {a : Except ReceiptError Unit} {rs rs' : Receipts} {f : Fault} {now : Time} {id : Uuid}

theorem kept_setVerification {state payload}
    (h : rs.setVerification id state payload f now = (rs', a)) : Kept rs rs' := by
  rcases Receipts.setVerification_cases h with ⟨rfl, _⟩ | ⟨r, _, _, rfl⟩
  · exact .refl _
  · exact .update _ _ _

theorem kept_reconcile {olderThan : Duration} (h : rs.reconcileOrphans olderThan f now = (rs', a)) :
    Kept rs rs' := by
  rcases Receipts.reconcileOrphans_cases h with rfl | rfl
  · exact .refl _
  · intro id hid
    simpa using hid

variable {d : Deps} {s : Sys d.engine.State} {c : Nat} {req : TrackedApplyRequest}
  {pc pc' : CallPc d.engine.State} {rs : Receipts} {events : List Event}

theorem CallMove.kept (h : CallMove d s c req pc pc' rs events) : Kept s.receipts rs := by
  cases h.writes with
  | nothing => exact .refl _
  | insert | update => exact .update _ _ _

theorem PollMove.kept {row} {persist : Bool} {p p' : PollPc}
    (h : PollMove d s row persist p p' rs) : Kept s.receipts rs := by
  cases h with
  | write write => exact kept_setVerification write
  | evaluate | readBack | readBackFails | crash => exact .refl _

/-! ## Who may be where -/

def CallPc.holds {σ : Type} : CallPc σ → Bool
  | .mark | .close | .invoke | .engine .. | .append .. | .finalize .. => true
  | _ => false

def CallPc.stamped {σ : Type} : CallPc σ → Bool
  | .invoke | .engine .. | .append .. | .finalize .. => true
  | _ => false

def CallPc.waits {σ : Type} : CallPc σ → Bool
  | .insert | .get | .mark | .close | .invoke => true
  | _ => false

variable {σ : Type}

theorem observe_stamped (obs : ApplyObservation) (k : Option RecordingError → σ) (rec : Recorder) :
    (CallPc.observe obs k rec).stamped = true := by
  unfold CallPc.observe
  split <;> rfl

theorem afterEngine_stamped (rec : Recorder) (ec : EngineCall σ) :
    (CallPc.afterEngine rec ec).1.stamped = true := by
  cases ec with
  | go | ret => rfl
  | observe obs k => exact observe_stamped obs k rec

theorem holds_of_stamped {pc : CallPc σ} (h : pc.stamped = true) : pc.holds = true := by
  cases pc <;> first | rfl | cases h

theorem not_waits_of_stamped {pc : CallPc σ} (h : pc.stamped = true) (hne : pc ≠ .invoke) :
    pc.waits = false := by
  cases pc <;> first | rfl | exact absurd rfl hne | cases h

theorem afterEngine_ne_invoke (rec : Recorder) (ec : EngineCall σ) :
    (CallPc.afterEngine rec ec).1 ≠ .invoke := by
  cases ec with
  | go | ret => exact nofun
  | observe obs k =>
    change CallPc.observe obs k rec ≠ .invoke
    unfold CallPc.observe
    split <;> exact nofun

theorem start_cases (available : Bool) (req : TrackedApplyRequest) :
    (CallPc.start available req : CallPc σ) = .insert ∨
      ∃ e, (CallPc.start available req : CallPc σ) = .returned (.error e) := by
  unfold CallPc.start
  split
  · exact .inr ⟨_, rfl⟩
  · split
    · exact .inr ⟨_, rfl⟩
    · exact .inl rfl

theorem CallMove.holds_cases (h : CallMove d s c req pc pc' rs events) (hp : pc'.holds = true) :
    pc.holds = true ∨ (s.receipts req.operationID = none ∧
      Event.inserted c req.operationID ∈ events) := by
  cases h with
  | @insert f now rs answer write =>
    cases answer with
    | error e => cases e <;> cases hp
    | ok u =>
      rcases Receipts.insert_cases write with ⟨_, hne⟩ | ⟨hno, rfl⟩
      · exact absurd rfl hne
      · refine .inr ⟨hno, ?_⟩
        have hid : s.receipts req.operationID = none := hno
        simp [Sys.insertedBy, hid, newReceipt]
  | mark | close | invoke | engine | append | finalize => exact .inl rfl
  | get | crash => cases hp

theorem CallMove.stamped_cases (h : CallMove d s c req pc pc' rs events) (hp : pc'.stamped = true) :
    pc.stamped = true ∨ ∃ row, s.receipts req.operationID = some row ∧
      Event.marked c req.operationID row ∈ events ∧ row.completedAt = none := by
  cases h with
  | insert write =>
    rename_i answer
    cases answer with
    | error e => cases e <;> cases hp
    | ok u => cases hp
  | @mark f now rs answer write =>
    cases answer with
    | error e => cases e <;> cases hp
    | ok u =>
      rcases Receipts.markMutationStarted_cases write with ⟨_, hok⟩ | ⟨r, hr, _, hc, _⟩
      · obtain ⟨r, hr, _, hc⟩ := hok rfl
        exact .inr ⟨r, hr, by simp [Sys.markedBy, hr], hc⟩
      · exact .inr ⟨r, hr, by simp [Sys.markedBy, hr], hc⟩
  | invoke | engine | append | finalize => exact .inl rfl
  | get | close | crash => cases hp

theorem replayedBy_cases {c : Nat} {req : TrackedApplyRequest} {existing} {digest : String}
    {e : Event} (h : e ∈ Sys.replayedBy c req existing digest) :
    ∃ r, existing = .ok (some r) ∧ (∃ res, resolveExisting existing req digest = .ok res) ∧
      e = .responded c req.operationID (replayUnattempted r req) := by
  unfold Sys.replayedBy at h
  split at h
  next r res hres => exact ⟨r, rfl, ⟨res, hres⟩, mem_singleton.mp h⟩
  · cases h

section

variable (h : CallMove d s c req pc pc' rs events)
include h

theorem CallMove.invoked_cases :
    (pc = .invoke ∧ events = [.engineInvoked c req.operationID] ∧ pc'.waits = false) ∨
      ∀ c' id, Event.engineInvoked c' id ∉ events := by
  cases h with
  | invoke => exact .inl ⟨rfl, rfl, rfl⟩
  | insert write =>
    refine .inr fun c' id hm => ?_
    unfold Sys.insertedBy at hm
    split at hm <;> simp at hm
  | mark write =>
    refine .inr fun c' id hm => ?_
    unfold Sys.markedBy at hm
    split at hm <;> simp at hm
  | engine | finalize => exact .inr fun c' id hm => by simp at hm
  | get existing read =>
    refine .inr fun c' id hm => ?_
    obtain ⟨r, _, _, he⟩ := replayedBy_cases hm
    cases he
  | close | append | crash => exact .inr fun c' id hm => by cases hm

theorem CallMove.waits_of (hp : pc'.waits = true) : pc.waits = true := by
  cases h with
  | insert | get | mark | close | invoke => rfl
  | @engine e choice ec rec speaks =>
    rw [not_waits_of_stamped (afterEngine_stamped rec ec) (afterEngine_ne_invoke rec ec)] at hp
    cases hp
  | append | finalize | crash => cases hp

theorem CallMove.insert_of_inserted {c' : Nat}
    {id : Uuid} (hm : Event.inserted c' id ∈ events) : pc = .insert := by
  cases h with
  | insert => rfl
  | mark write =>
    unfold Sys.markedBy at hm
    split at hm <;> simp at hm
  | engine | invoke | finalize => simp at hm
  | get existing read =>
    obtain ⟨r, _, _, he⟩ := replayedBy_cases hm
    cases he
  | close | append | crash => cases hm

theorem CallMove.inserted_cases {c' : Nat} {id : Uuid} (hm : Event.inserted c' id ∈ events) :
    c' = c ∧ s.receipts id = none ∧ rs id ≠ none ∧ events = [.inserted c' id] := by
  obtain rfl := h.insert_of_inserted hm
  cases h with
  | insert write =>
    unfold Sys.insertedBy at hm ⊢
    split at hm
    next hg =>
      simp only [Bool.and_eq_true, Option.isNone_iff_eq_none] at hg
      simp only [mem_singleton, Event.inserted.injEq] at hm
      obtain ⟨rfl, rfl⟩ := hm
      refine ⟨rfl, hg.1, Option.isSome_iff_ne_none.mp hg.2, ?_⟩
      simp [hg.1, hg.2]
    · cases hm
  | crash => cases hm

end

/-! ## The history of a run -/

/-- What must have happened before call `c` may invoke the engine under `id`. -/
def Licensed (c : Nat) (id : Uuid) (past : List Event) : Prop :=
  Event.inserted c id ∈ past ∧ ∃ row, Event.marked c id row ∈ past ∧ row.completedAt = none

/-- Every invocation is licensed by what came before it and is the first under
its id. -/
def Ordered : List Event → Prop
  | [] => True
  | e :: past => (∀ c id, e = .engineInvoked c id →
      Licensed c id past ∧ ∀ c', Event.engineInvoked c' id ∉ past) ∧ Ordered past

variable {log : List Event}

theorem Ordered.append {events} (hq : ∀ c id, Event.engineInvoked c id ∉ events) (h : Ordered log) :
    Ordered (events ++ log) := by
  induction events with
  | nil => exact h
  | cons e es ih =>
    refine ⟨fun c id he => absurd (by simp [he]) (hq c id), ih fun c id hm => ?_⟩
    exact hq c id (mem_cons_of_mem _ hm)

theorem Ordered.licensed (h : Ordered log) {pre post}
    (he : log = post ++ .engineInvoked c id :: pre) : Licensed c id pre := by
  induction post generalizing log with
  | nil => subst he; exact (h.1 c id rfl).1
  | cons e post ih => subst he; exact ih h.2 rfl

theorem Ordered.inserted (h : Ordered log) (hm : Event.engineInvoked c id ∈ log) :
    Event.inserted c id ∈ log := by
  obtain ⟨post, pre, rfl⟩ := append_of_mem hm
  exact mem_append_right _ (mem_cons_of_mem _ (h.licensed rfl).1)

def Event.invokes (id : Uuid) : Event → Bool
  | .engineInvoked _ id' => id' == id
  | _ => false

theorem invokes_iff {e : Event} : e.invokes id = true ↔ ∃ c, e = .engineInvoked c id := by
  cases e <;> simp [Event.invokes]

theorem Ordered.once (h : Ordered log) (id : Uuid) :
    (log.filter (Event.invokes id)).length ≤ 1 := by
  induction log with
  | nil => exact Nat.zero_le _
  | cons e past ih =>
    cases he : e.invokes id with
    | false => rw [filter_cons_of_neg (by simp [he])]; exact ih h.2
    | true =>
      obtain ⟨c, rfl⟩ := invokes_iff.mp he
      have hno : past.filter (Event.invokes id) = [] := by
        refine filter_eq_nil_iff.mpr fun x hx hinv => ?_
        obtain ⟨c', rfl⟩ := invokes_iff.mp hinv
        exact (h.1 c id rfl).2 c' hx
      rw [filter_cons_of_pos he, hno]
      exact Nat.le_refl 1

/-! ## The invariant -/

structure Once {σ : Type} (s : Sys σ) : Prop where
  row : ∀ c id, Event.inserted c id ∈ s.log → s.receipts id ≠ none
  creator : ∀ c c' id, Event.inserted c id ∈ s.log → Event.inserted c' id ∈ s.log → c = c'
  holder : ∀ c req pc, s.calls c = some ⟨req, pc⟩ → pc.holds = true →
    Event.inserted c req.operationID ∈ s.log
  stamped : ∀ c req pc, s.calls c = some ⟨req, pc⟩ → pc.stamped = true →
    ∃ row, Event.marked c req.operationID row ∈ s.log ∧ row.completedAt = none
  entered : ∀ c id, Event.engineInvoked c id ∈ s.log →
    ∃ req pc, s.calls c = some ⟨req, pc⟩ ∧ pc.waits = false
  ordered : Ordered s.log

theorem Once.transfer {σ : Type} {s t : Sys σ} (h : Once s) (hk : Kept s.receipts t.receipts)
    (hc : t.calls = s.calls) (hl : t.log = s.log) : Once t where
  row c id hm := hk id (h.row c id (hl ▸ hm))
  creator c c' id hm hm' := h.creator c c' id (hl ▸ hm) (hl ▸ hm')
  holder c req pc hs hp := hl ▸ h.holder c req pc (hc ▸ hs) hp
  stamped c req pc hs hp := hl ▸ h.stamped c req pc (hc ▸ hs) hp
  entered c id hm := hc ▸ h.entered c id (hl ▸ hm)
  ordered := hl ▸ h.ordered

theorem Once.start {σ : Type} {s : Sys σ} (h : Once s) (available : Bool)
    (req : TrackedApplyRequest) (fresh : s.calls c = none) :
    Once (s.setCall c ⟨req, .start available req⟩) := by
  have hsta : (CallPc.start available req : CallPc σ).holds = false := by
    rcases start_cases (σ := σ) available req with he | ⟨e, he⟩ <;> rw [he] <;> rfl
  have other : ∀ {c' req' pc'}, (s.setCall c ⟨req, .start available req⟩).calls c' =
      some ⟨req', pc'⟩ → pc'.holds = true → s.calls c' = some ⟨req', pc'⟩ := by
    intro c' req' pc' hs hp
    rcases update_some_cases hs with ⟨_, he⟩ | ⟨_, hs⟩
    · cases he
      rw [hsta] at hp
      cases hp
    · exact hs
  refine ⟨h.row, h.creator, fun c' req' pc' hs hp => h.holder c' req' pc' (other hs hp) hp,
    fun c' req' pc' hs hp => h.stamped c' req' pc' (other hs (holds_of_stamped hp)) hp,
    fun c' id hm => ?_, h.ordered⟩
  obtain ⟨req', pc', hs, hw⟩ := h.entered c' id hm
  have hne : c' ≠ c := fun he => by rw [he, fresh] at hs; cases hs
  exact ⟨req', pc', by simpa [Sys.setCall, Function.update_of_ne hne] using hs, hw⟩

/-- The event that could break the order comes from a call that holds the row, as whoever invoked
before did. -/
theorem Once.ordered_move (h : Once s) (stands : s.calls c = some ⟨req, pc⟩)
    (moves : CallMove d s c req pc pc' rs events) : Ordered (events ++ s.log) := by
  rcases moves.invoked_cases with ⟨rfl, rfl, _⟩ | hq
  · refine ⟨fun c₁ id he => ?_, h.ordered⟩
    cases he
    have mine := h.holder c req .invoke stands rfl
    refine ⟨⟨mine, h.stamped c req .invoke stands rfl⟩, fun c' hm => ?_⟩
    have same : c' = c := h.creator c' c _ (h.ordered.inserted hm) mine
    obtain ⟨req', pc₁, hs, hw⟩ := h.entered c' _ hm
    rw [same, stands] at hs
    cases hs
    cases hw
  · exact h.ordered.append hq

theorem Once.move (h : Once s) (stands : s.calls c = some ⟨req, pc⟩)
    (moves : CallMove d s c req pc pc' rs events) :
    Once (⟨rs, Function.update s.calls c (some ⟨req, pc'⟩), s.polls, events ++ s.log⟩ :
      Sys d.engine.State) := by
  have fresh : ∀ c₁ c₂ id, Event.inserted c₁ id ∈ events → Event.inserted c₂ id ∉ s.log :=
    fun c₁ c₂ id h₁ h₂ => h.row c₂ id h₂ (moves.inserted_cases h₁).2.1
  refine ⟨fun c₁ id hm => ?_, fun c₁ c₂ id h₁ h₂ => ?_, fun c₁ req₁ pc₁ hs hp => ?_,
    fun c₁ req₁ pc₁ hs hp => ?_, fun c₁ id hm => ?_, h.ordered_move stands moves⟩
  · rcases mem_append.mp hm with hm | hm
    · exact (moves.inserted_cases hm).2.2.1
    · exact moves.kept id (h.row c₁ id hm)
  · rcases mem_append.mp h₁ with h₁ | h₁ <;> rcases mem_append.mp h₂ with h₂ | h₂
    · rw [(moves.inserted_cases h₁).1, (moves.inserted_cases h₂).1]
    · exact absurd h₂ (fresh c₁ c₂ id h₁)
    · exact absurd h₁ (fresh c₂ c₁ id h₂)
    · exact h.creator c₁ c₂ id h₁ h₂
  · rcases update_some_cases hs with ⟨rfl, he⟩ | ⟨_, hs⟩
    · cases he
      rcases moves.holds_cases hp with hold | ⟨_, hm⟩
      · exact mem_append_right _ (h.holder c₁ req pc stands hold)
      · exact mem_append_left _ hm
    · exact mem_append_right _ (h.holder c₁ req₁ pc₁ hs hp)
  · rcases update_some_cases hs with ⟨rfl, he⟩ | ⟨_, hs⟩
    · cases he
      rcases moves.stamped_cases hp with hold | ⟨row, _, hm, hc⟩
      · obtain ⟨row, hm, hc⟩ := h.stamped c₁ req pc stands hold
        exact ⟨row, mem_append_right _ hm, hc⟩
      · exact ⟨row, mem_append_left _ hm, hc⟩
    · obtain ⟨row, hm, hc⟩ := h.stamped c₁ req₁ pc₁ hs hp
      exact ⟨row, mem_append_right _ hm, hc⟩
  · by_cases he : c₁ = c
    · subst he
      refine ⟨req, pc', by simp, ?_⟩
      rcases moves.invoked_cases with ⟨_, _, hw⟩ | hq
      · exact hw
      · rcases mem_append.mp hm with hm | hm
        · exact absurd hm (hq c₁ id)
        · obtain ⟨req₁, pc₁, hs, hw⟩ := h.entered c₁ id hm
          rw [stands] at hs
          cases hs
          cases hw' : pc'.waits with
          | false => rfl
          | true => rw [moves.waits_of hw'] at hw; cases hw
    · rcases mem_append.mp hm with hm | hm
      · rcases moves.invoked_cases with ⟨_, rfl, _⟩ | hq
        · simp only [mem_singleton, Event.engineInvoked.injEq] at hm
          exact absurd hm.1 he
        · exact absurd hm (hq c₁ id)
      · obtain ⟨req₁, pc₁, hs, hw⟩ := h.entered c₁ id hm
        exact ⟨req₁, pc₁, (Function.update_of_ne he _ _).trans hs, hw⟩

theorem Once.step {t} (h : Once s) (hs : Step d s t) : Once t := by
  cases hs with
  | start available req fresh => exact h.start available req fresh
  | move stands moves => exact h.move stands moves
  | reconcile write => exact h.transfer (kept_reconcile write) rfl rfl
  | poll persist fresh read => exact h.transfer (.refl _) rfl rfl
  | pollMove stands moves => exact h.transfer moves.kept rfl rfl

theorem once_init (d : Deps) : Once (system d).init where
  row _ _ h := nomatch h
  creator _ _ _ h := nomatch h
  holder _ _ _ h := nomatch h
  stamped _ _ _ h := nomatch h
  entered _ _ h := nomatch h
  ordered := trivial

theorem once_run (d : Deps) (acts : List (Act d.engine.Choice)) : Once ((system d).run acts) :=
  Machine.run_inv (once_init d) (fun _ _ _ hs ht => hs.step (step_of_next ht)) acts

/-- **At most once.** In every interleaving the engine is invoked at most once per operation id, by
a call whose insert created the row and whose mark met it unfinished. -/
theorem tracked_apply_at_most_once (d : Deps) (acts : List (Act d.engine.Choice)) (id : Uuid) :
    (((system d).run acts).log.filter (Event.invokes id)).length ≤ 1 ∧
      ∀ c pre post, ((system d).run acts).log = post ++ .engineInvoked c id :: pre →
        Event.inserted c id ∈ pre ∧ ∃ row, Event.marked c id row ∈ pre ∧ row.completedAt = none :=
  have h := (once_run d acts).ordered
  ⟨h.once id, fun _ _ _ he => h.licensed he⟩

end KubeCenter.Changes
