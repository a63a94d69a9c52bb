import KubeCenter.Changes.AtMostOnce
import KubeCenter.Yaml.Applier

/-! # Receipts claim neither less nor more than what reached the cluster

`RowOk` is what a row may claim given the history, `Follows` is how far its call has taken it. -/
namespace KubeCenter.Changes
open Lib Go Store List
open Yaml (trackedApplyEngine Consecutive Honest Spoke)
open Function (update update_of_ne update_self)

abbrev trackedDeps (computeDigest : List UInt8 → String) : Deps :=
  ⟨computeDigest, trackedApplyEngine⟩

/-- `e` happened on the cluster in call `c` under `id`. -/
def Reached (log : List Event) (c : Nat) (id : Uuid) (e : ClusterEvent) : Prop :=
  Event.cluster c id e ∈ log

/-! ## What a row may claim -/

structure RowOk (log : List Event) (id : Uuid) (r : ChangeReceipt) : Prop where
  inFlight : r.completedAt = none → r.state = .applying
  finished : r.completedAt ≠ none → r.state.isTerminal = true
  increasing : (r.objects.map (·.index)).Pairwise (· < ·)
  settled : ∀ o ∈ r.objects, ∃ c obs secret now, Reached log c id (.settled obs) ∧
    o = receiptObjectFor obs secret now
  stamped : ∀ c e, Reached log c id e → r.mutationStartedAt ≠ none
  covered : r.state = .applied ∨ r.state = .partlyApplied ∨ r.state = .failed →
    ∀ c i, Reached log c id (.patch i) → ∃ o ∈ r.objects, o.index = (i : Int)

variable {r r' : ChangeReceipt} {id : Uuid}

theorem RowOk.extend {log log'} (h : RowOk log id r)
    (hiff : ∀ c e, Reached log' c id e ↔ Reached log c id e) : RowOk log' id r where
  inFlight := h.inFlight
  finished := h.finished
  increasing := h.increasing
  settled o ho := by
    obtain ⟨c, obs, secret, now, hr, he⟩ := h.settled o ho
    exact ⟨c, obs, secret, now, (hiff _ _).mpr hr, he⟩
  stamped c e he := h.stamped c e ((hiff _ _).mp he)
  covered hs c i hp := h.covered hs c i ((hiff _ _).mp hp)

/-- What the reconciler and the verifier may do to a row. -/
inductive Evolves (r r' : ChangeReceipt) : Prop
  | kept (objects : r'.objects = r.objects) (mark : r'.mutationStartedAt = r.mutationStartedAt)
      (state : r'.state = r.state) (completed : r'.completedAt = r.completedAt)
  | reaped (objects : r'.objects = r.objects) (mark : r'.mutationStartedAt = r.mutationStartedAt)
      (state : r'.state = if r.mutationStartedAt.isNone then .failed else .unknown)
      (completed : r'.completedAt ≠ none) (inFlight : r.completedAt = none)

theorem Evolves.objects (h : Evolves r r') : r'.objects = r.objects := by
  cases h <;> assumption

theorem Evolves.mark (h : Evolves r r') : r'.mutationStartedAt = r.mutationStartedAt := by
  cases h <;> assumption

theorem Evolves.refl (r : ChangeReceipt) : Evolves r r := .kept rfl rfl rfl rfl

theorem evolves_reconcileRow (now : Time) (olderThan : Duration) (r : ChangeReceipt) :
    Evolves r (Receipts.reconcileRow now olderThan r) := by
  rcases Receipts.reconcileRow_cases now olderThan r with he | ⟨hc, _, he⟩
  · rw [he]; exact .refl r
  · rw [he]; exact .reaped rfl rfl rfl (by simp) hc

theorem RowOk.evolve {log} (h : RowOk log id r) (he : Evolves r r') : RowOk log id r' where
  inFlight hn := by
    cases he with
    | kept _ _ state completed => rw [state]; exact h.inFlight (completed ▸ hn)
    | reaped _ _ _ completed => exact absurd hn completed
  finished hc := by
    cases he with
    | kept _ _ state completed => rw [state]; exact h.finished (completed ▸ hc)
    | reaped _ _ state => rw [state]; split <;> rfl
  increasing := by rw [he.objects]; exact h.increasing
  settled := by rw [he.objects]; exact h.settled
  stamped c e hr := by rw [he.mark]; exact h.stamped c e hr
  covered hs c i hp := by
    rw [he.objects]
    cases he with
    | kept _ _ state => exact h.covered (state ▸ hs) c i hp
    | reaped _ _ state =>
      -- something reached the cluster, so the row was stamped and is closed as unknown
      have hne := h.stamped c _ hp
      rw [state] at hs
      simp [hne] at hs

/-! ## How far the holder has taken the row -/

/-- Row, recorder and engine agree on the documents that are done. -/
structure InStep (r : ChangeReceipt) (attempted : List ApplyObservation) (rec : Recorder) :
    Prop where
  row : r.objects.map (·.index) = attempted.map (·.index)
  refs : rec.refs.map (·.index) = attempted.map (·.index)
  last : rec.lastIndex = (attempted.length : Int) - 1

def Follows (req : TrackedApplyRequest) (E : ClusterEvent → Prop) (r : ChangeReceipt) :
    CallPc Yaml.State → Prop
  | .mark | .invoke => r.objects = [] ∧ ∀ e, ¬ E e
  | .close => ∀ e, ¬ E e
  | .engine e rec => e.Ok req.docs E ∧ rec.docCount = req.docs.length ∧
      (rec.err = none → InStep r e.attempted rec) ∧ (rec.err ≠ none → e.pc = .halted)
  | .append obs k rec => rec.docCount = req.docs.length ∧ rec.err = none ∧
      ∃ e : Yaml.State, k = e.observed obs ∧ InStep r e.attempted rec ∧
        obs.index = (e.attempted.length : Int) ∧ E (.settled obs) ∧
        ∀ answer, (e.observed obs answer).Ok req.docs E
  | .finalize out rec => Consecutive out.attempted ∧
      (∀ i, E (.patch i) → i < out.attempted.length) ∧
      (rec.err = none → r.objects.map (·.index) = rec.refs.map (·.index))
  | _ => True

theorem InStep.evolve {attempted} {rec : Recorder} (h : InStep r attempted rec)
    (he : r'.objects = r.objects) : InStep r' attempted rec :=
  ⟨by rw [he]; exact h.row, h.refs, h.last⟩

theorem Follows.evolve {req E pc} (h : Follows req E r pc) (he : r'.objects = r.objects) :
    Follows req E r' pc := by
  cases pc with
  | mark | invoke => exact ⟨he.trans h.1, h.2⟩
  | engine e rec => exact ⟨h.1, h.2.1, fun hn => (h.2.2.1 hn).evolve he, h.2.2.2⟩
  | append obs k rec =>
    obtain ⟨hd, hn, e, hk, hin, rest⟩ := h
    exact ⟨hd, hn, e, hk, hin.evolve he, rest⟩
  | finalize out rec => exact ⟨h.1, h.2.1, fun hn => by rw [he]; exact h.2.2 hn⟩
  | close => exact h
  | insert | get | returned | crashed => trivial

/-- The call at `pc` holds `r`, whose window is open or was closed as unknown. -/
structure Holds (req : TrackedApplyRequest) (E : ClusterEvent → Prop) (r : ChangeReceipt)
    (pc : CallPc Yaml.State) : Prop where
  marked : pc.stamped = true → r.mutationStartedAt ≠ none
  window : pc.stamped = true → r.completedAt = none ∨ r.state = .unknown
  follows : Follows req E r pc

theorem Holds.evolve {req E pc} (h : Holds req E r pc) (he : Evolves r r') : Holds req E r' pc where
  marked hp := by rw [he.mark]; exact h.marked hp
  window hp := by
    cases he with
    | kept _ _ state completed => rw [state, completed]; exact h.window hp
    | reaped _ _ state => exact .inr (by rw [state]; simp [h.marked hp])
  follows := h.follows.evolve he.objects

/-! ## The invariant -/

/-- Nobody can reach the cluster under `id` any more. -/
structure Quiet (s : Sys Yaml.State) (id : Uuid) : Prop where
  row : s.receipts id ≠ none
  calls : ∀ c req pc, s.calls c = some ⟨req, pc⟩ → req.operationID = id →
    pc.stamped = false ∧ (pc.holds = true → ∀ r, s.receipts id = some r → r.completedAt ≠ none)

structure Truth (s : Sys Yaml.State) : Prop where
  once : Once s
  source : ∀ c id e, Reached s.log c id e → Event.inserted c id ∈ s.log
  honest : ∀ c id obs, Reached s.log c id (.settled obs) → Honest (Reached s.log c id) obs
  rows : ∀ id r, s.receipts id = some r → RowOk s.log id r
  holders : ∀ c req pc, s.calls c = some ⟨req, pc⟩ → pc.holds = true →
    ∃ r, s.receipts req.operationID = some r ∧ Holds req (Reached s.log c req.operationID) r pc
  quiet : ∀ c id docs, Event.responded c id docs ∈ s.log → docs ≠ [] → Quiet s id
  counted : ∀ c id docs, Event.responded c id docs ∈ s.log →
    ∀ i ∈ docs, ∀ c', ¬ Reached s.log c' id (.patch i)

theorem exists_evolved {o : Option ChangeReceipt} (h : Option.Rel Evolves o (some r')) :
    ∃ r, o = some r ∧ Evolves r r' := by
  cases h with
  | some he => exact ⟨_, rfl, he⟩

theorem Quiet.evolve {s t : Sys Yaml.State} (h : Quiet s id) (hc : t.calls = s.calls)
    (hrow : Option.Rel Evolves (s.receipts id) (t.receipts id)) : Quiet t id := by
  obtain ⟨r, hr⟩ := Option.ne_none_iff_exists'.mp h.row
  rw [hr] at hrow
  refine ⟨fun hn => (by rw [hn] at hrow; cases hrow), fun c req pc hs hid => ?_⟩
  obtain ⟨hst, hdn⟩ := h.calls c req pc (hc ▸ hs) hid
  refine ⟨hst, fun hh r' hr' => ?_⟩
  rw [hr'] at hrow
  cases Option.rel_some_some.mp hrow with
  | kept _ _ _ completed => rw [completed]; exact hdn hh r hr
  | reaped _ _ _ completed => exact completed

theorem Truth.evolve {s t} (h : Truth s) (ho : Once t) (hc : t.calls = s.calls) (hl : t.log = s.log)
    (hrow : ∀ id, Option.Rel Evolves (s.receipts id) (t.receipts id)) : Truth t where
  once := ho
  source := by rw [hl]; exact h.source
  honest := by rw [hl]; exact h.honest
  rows id r hr := by
    obtain ⟨r₀, hr₀, he⟩ := exists_evolved (hr ▸ hrow id)
    rw [hl]
    exact (h.rows id r₀ hr₀).evolve he
  holders c req pc hs hp := by
    obtain ⟨r, hr, hh⟩ := h.holders c req pc (hc ▸ hs) hp
    have hrel := hrow req.operationID
    rw [hr] at hrel
    rw [hl]
    cases hr' : t.receipts req.operationID with
    | none =>
      rw [hr'] at hrel
      cases hrel
    | some r' =>
      rw [hr'] at hrel
      exact ⟨r', rfl, hh.evolve (Option.rel_some_some.mp hrel)⟩
  quiet c id docs hm hne := (h.quiet c id docs (hl ▸ hm) hne).evolve hc (hrow id)
  counted := by rw [hl]; exact h.counted

theorem evolves_same (o : Option ChangeReceipt) : Option.Rel Evolves o o := by
  cases o with
  | none => exact .none
  | some r => exact .some (.refl r)

theorem evolves_reconcile {rs rs' : Receipts} {olderThan : Duration} {f : Fault} {now : Time} {a}
    (h : rs.reconcileOrphans olderThan f now = (rs', a)) (id : Uuid) :
    Option.Rel Evolves (rs id) (rs' id) := by
  rcases Receipts.reconcileOrphans_cases h with rfl | rfl
  · exact evolves_same _
  · cases hr : rs id with
    | none => simp [hr]
    | some r => simpa [hr] using evolves_reconcileRow now olderThan r

theorem evolves_setVerification {rs rs' : Receipts} {id₀ : Uuid} {state payload} {f : Fault}
    {now : Time} {a} (h : rs.setVerification id₀ state payload f now = (rs', a)) (id : Uuid) :
    Option.Rel Evolves (rs id) (rs' id) := by
  rcases Receipts.setVerification_cases h with ⟨rfl, _⟩ | ⟨r, hr, _, rfl⟩
  · exact evolves_same _
  · by_cases he : id = id₀
    · subst he
      rw [hr, update_self]
      exact .some (.kept rfl rfl rfl rfl)
    · rw [update_of_ne he]
      exact evolves_same _

theorem Truth.start {s} (h : Truth s) {c : Nat} (available : Bool) (req : TrackedApplyRequest)
    (fresh : s.calls c = none) : Truth (s.setCall c ⟨req, .start available req⟩) where
  once := h.once.start available req fresh
  source := h.source
  honest := h.honest
  rows := h.rows
  holders c₁ req₁ pc₁ hs hp := by
    rcases update_some_cases hs with ⟨_, he⟩ | ⟨_, hs⟩
    · cases he
      rcases start_cases (σ := Yaml.State) available req with he | ⟨e, he⟩ <;>
        rw [he] at hp <;> cases hp
    · exact h.holders c₁ req₁ pc₁ hs hp
  quiet c₁ id docs hm hne := by
    have hq := h.quiet c₁ id docs hm hne
    refine ⟨hq.row, fun c₂ req₂ pc₂ hs hid => ?_⟩
    rcases update_some_cases hs with ⟨_, he⟩ | ⟨_, hs⟩
    · cases he
      rcases start_cases (σ := Yaml.State) available req with he | ⟨e, he⟩ <;> rw [he] <;>
        exact ⟨rfl, nofun⟩
    · exact hq.calls c₂ req₂ pc₂ hs hid
  counted := h.counted

/-! ## What a move leaves alone -/

section

variable {d : Deps} {s : Sys d.engine.State} {c : Nat} {req : TrackedApplyRequest}
  {pc pc' : CallPc d.engine.State} {rs : Receipts} {events : List Event}

variable (h : CallMove d s c req pc pc' rs events)
include h

theorem CallMove.elsewhere {id : Uuid} (hid : id ≠ req.operationID) : rs id = s.receipts id := by
  cases h.writes with
  | nothing => rfl
  | insert | update => exact update_of_ne hid _ _

theorem CallMove.holds_or_same :
    pc.holds = true ∨ ∀ r, s.receipts req.operationID = some r → rs req.operationID = some r := by
  cases h with
  | insert write =>
    refine .inr fun r hr => ?_
    rcases Receipts.insert_cases write with ⟨rfl, _⟩ | ⟨hno, _⟩
    · exact hr
    · exact absurd (hr.symm.trans hno) (by simp)
  | mark | close | invoke | engine | append | finalize => exact .inl rfl
  | get | crash => exact .inr fun _ hr => hr

theorem CallMove.finished {r r' : ChangeReceipt} (hr : s.receipts req.operationID = some r)
    (hc : r.completedAt ≠ none)
    (hr' : rs req.operationID = some r') : r'.completedAt ≠ none := by
  cases h.writes with
  | nothing =>
    rw [hr] at hr'
    cases hr'
    exact hc
  | insert now free =>
    rw [free] at hr
    cases hr
  | update row unfinished =>
    rw [hr] at row
    cases row
    exact absurd unfinished hc

theorem CallMove.cluster_cases {c' : Nat} {id : Uuid} {e} (hm : Event.cluster c' id e ∈ events) :
    c' = c ∧ id = req.operationID ∧ pc.stamped = true := by
  cases h with
  | engine speaks =>
    simp only [mem_reverse, mem_map, Event.cluster.injEq] at hm
    obtain ⟨_, _, rfl, rfl, _⟩ := hm
    exact ⟨rfl, rfl, rfl⟩
  | insert write =>
    unfold Sys.insertedBy at hm
    split at hm <;> simp at hm
  | mark write =>
    unfold Sys.markedBy at hm
    split at hm <;> simp at hm
  | get existing read =>
    obtain ⟨r, _, _, he⟩ := replayedBy_cases hm
    cases he
  | invoke | finalize => simp at hm
  | close | append | crash => cases hm

end

section

variable {dg : List UInt8 → String} {s : Sys (trackedDeps dg).engine.State} {c : Nat}
  {req : TrackedApplyRequest} {pc pc' : CallPc (trackedDeps dg).engine.State} {rs : Receipts}
  {events : List Event}

def moved (s : Sys (trackedDeps dg).engine.State) (c : Nat) (req : TrackedApplyRequest)
    (pc' : CallPc (trackedDeps dg).engine.State) (rs : Receipts) (events : List Event) :
    Sys (trackedDeps dg).engine.State :=
  ⟨rs, update s.calls c (some ⟨req, pc'⟩), s.polls, events ++ s.log⟩

variable {answer : Except ReceiptError Unit} {r : ChangeReceipt} {rec : Recorder} {f : Fault}
  {id : Uuid} {now : Time} {c' : Nat}

theorem reached_append {log e} :
    Reached (events ++ log) c' id e ↔ Event.cluster c' id e ∈ events ∨ Reached log c' id e :=
  mem_append

theorem CallMove.reached_other (moves : CallMove (trackedDeps dg) s c req pc pc' rs events)
    (hne : c' ≠ c ∨ id ≠ req.operationID) (e : ClusterEvent) :
    Reached (events ++ s.log) c' id e ↔ Reached s.log c' id e := by
  refine ⟨fun h => ?_, fun h => reached_append.mpr (.inr h)⟩
  rcases reached_append.mp h with hm | hm
  · obtain ⟨hc, hid, _⟩ := moves.cluster_cases hm
    rcases hne with hne | hne
    · exact absurd hc hne
    · exact absurd hid hne
  · exact hm

theorem Quiet.move (h : Quiet s id) (stands : s.calls c = some ⟨req, pc⟩)
    (moves : CallMove (trackedDeps dg) s c req pc pc' rs events) :
    Quiet (moved s c req pc' rs events) id := by
  refine ⟨moves.kept id h.row, fun c₁ req₁ pc₁ hs hid => ?_⟩
  have finished : ∀ r, s.receipts id = some r → r.completedAt ≠ none →
      ∀ r', rs id = some r' → r'.completedAt ≠ none := by
    intro r hr hc r' hr'
    by_cases he : id = req.operationID
    · subst he
      exact moves.finished hr hc hr'
    · rw [moves.elsewhere he, hr] at hr'
      cases hr'
      exact hc
  have settle : ∀ {c₂ : Nat} {req₂ pc₂}, s.calls c₂ = some ⟨req₂, pc₂⟩ → req₂.operationID = id →
      pc₂.holds = true → ∀ r', rs id = some r' → r'.completedAt ≠ none := by
    intro c₂ req₂ pc₂ hs₂ hid₂ hh r' hr'
    obtain ⟨r, hr⟩ := Option.ne_none_iff_exists'.mp h.row
    exact finished r hr ((h.calls c₂ req₂ pc₂ hs₂ hid₂).2 hh r hr) r' hr'
  rcases update_some_cases hs with ⟨rfl, he⟩ | ⟨_, hs⟩
  · cases he
    obtain ⟨hst, hdn⟩ := h.calls c₁ req pc stands hid
    constructor
    · cases hp : pc'.stamped with
      | false => rfl
      | true =>
        rcases moves.stamped_cases hp with hold | ⟨row, hr, hm, hn⟩
        · rw [hold] at hst; cases hst
        · rcases moves.holds_cases (holds_of_stamped hp) with hh | ⟨hno, _⟩
          · exact absurd hn (hdn hh row (hid ▸ hr))
          · rw [hno] at hr; cases hr
    · intro hp
      rcases moves.holds_cases hp with hh | ⟨hno, _⟩
      · exact settle stands hid hh
      · exact absurd (hid ▸ hno) h.row
  · exact ⟨(h.calls c₁ req₁ pc₁ hs hid).1, settle hs hid⟩

section

variable (h : Truth s) (stands : s.calls c = some ⟨req, pc⟩)
include h stands

variable (dg) in
/-- The frame: a move is right about everything but its own row and call, for
which it has to answer. -/
theorem Truth.moved (moves : CallMove (trackedDeps dg) s c req pc pc' rs events)
    (row : ∀ r, rs req.operationID = some r → RowOk (events ++ s.log) req.operationID r)
    (honest : ∀ obs, Reached (events ++ s.log) c req.operationID (.settled obs) →
      Honest (Reached (events ++ s.log) c req.operationID) obs)
    (holds : pc'.holds = true → ∃ r, rs req.operationID = some r ∧
      Holds req (Reached (events ++ s.log) c req.operationID) r pc')
    (responds : ∀ c' id docs, Event.responded c' id docs ∈ events →
      (docs ≠ [] → Quiet (Changes.moved s c req pc' rs events) id) ∧
        ∀ i ∈ docs, ∀ c'', ¬ Reached (events ++ s.log) c'' id (.patch i)) :
    Truth (Changes.moved s c req pc' rs events) where
  once := h.once.move stands moves
  source c₁ id e hr := by
    refine mem_append_right _ ?_
    rcases reached_append.mp hr with hm | hm
    · obtain ⟨rfl, rfl, hst⟩ := moves.cluster_cases hm
      exact h.once.holder c₁ req pc stands (holds_of_stamped hst)
    · exact h.source c₁ id e hm
  honest c₁ id obs hr := by
    by_cases hne : c₁ ≠ c ∨ id ≠ req.operationID
    · have hiff := moves.reached_other hne
      exact (h.honest c₁ id obs ((hiff _).mp hr)).mono fun e => (hiff e).mpr
    · simp only [not_or, not_not] at hne
      obtain ⟨rfl, rfl⟩ := hne
      exact honest obs hr
  rows id r hr := by
    by_cases hid : id = req.operationID
    · subst hid
      exact row r hr
    · refine (h.rows id r ((moves.elsewhere hid).symm.trans hr)).extend fun c₁ e => ?_
      exact moves.reached_other (.inr hid) e
  holders c₁ req₁ pc₁ hs hp := by
    rcases update_some_cases hs with ⟨rfl, he⟩ | ⟨hne, hs⟩
    · cases he
      exact holds hp
    · obtain ⟨r, hr, hh⟩ := h.holders c₁ req₁ pc₁ hs hp
      have hE : Reached (events ++ s.log) c₁ req₁.operationID = Reached s.log c₁ req₁.operationID :=
        funext fun e => propext (moves.reached_other (.inl hne) e)
      have hh' : Holds req₁ (Reached (events ++ s.log) c₁ req₁.operationID) r pc₁ := by
        rw [hE]; exact hh
      refine ⟨r, ?_, hh'⟩
      by_cases hid : req₁.operationID = req.operationID
      · rcases moves.holds_or_same with mine | same
        · -- both would hold one row, and a row has one creator
          have a := h.once.holder c₁ req₁ pc₁ hs hp
          have b := h.once.holder c req pc stands mine
          rw [hid] at a
          exact absurd (h.once.creator c₁ c _ a b) hne
        · exact hid ▸ same r (hid ▸ hr)
      · exact (moves.elsewhere hid).trans hr
  quiet c₁ id docs hm hne := by
    rcases mem_append.mp hm with hm | hm
    · exact (responds c₁ id docs hm).1 hne
    · exact (h.quiet c₁ id docs hm hne).move stands moves
  counted c₁ id docs hm i hi c₂ hr := by
    rcases mem_append.mp hm with hm | hm
    · exact (responds c₁ id docs hm).2 i hi c₂ hr
    · rcases reached_append.mp hr with hnew | hold
      · obtain ⟨_, rfl, hst⟩ := moves.cluster_cases hnew
        rw [((h.quiet c₁ _ docs hm (ne_nil_of_mem hi)).calls c req pc stands rfl).1] at hst
        cases hst
      · exact h.counted c₁ id docs hm i hi c₂ hold

/-! ## What each move does to its own row -/

variable (dg) in
/-- A move that reaches nothing only has to answer in terms of the old history. -/
theorem Truth.movedQuietly (moves : CallMove (trackedDeps dg) s c req pc pc' rs events)
    (silent : ∀ c' id e, Event.cluster c' id e ∉ events)
    (row : ∀ r, rs req.operationID = some r → RowOk s.log req.operationID r)
    (holds : pc'.holds = true → ∃ r, rs req.operationID = some r ∧
      Holds req (Reached s.log c req.operationID) r pc')
    (responds : ∀ c' id docs, Event.responded c' id docs ∈ events →
      (docs ≠ [] → Quiet (Changes.moved s c req pc' rs events) id) ∧
        ∀ i ∈ docs, ∀ c'', ¬ Reached s.log c'' id (.patch i)) :
    Truth (Changes.moved s c req pc' rs events) := by
  have hiff : ∀ c' id e, Reached (events ++ s.log) c' id e ↔ Reached s.log c' id e :=
    fun c' id e => ⟨fun hr => (reached_append.mp hr).resolve_left (silent c' id e),
      fun hr => reached_append.mpr (.inr hr)⟩
  have hE : Reached (events ++ s.log) c req.operationID = Reached s.log c req.operationID :=
    funext fun e => propext (hiff _ _ e)
  refine h.moved dg stands moves (fun r hr => (row r hr).extend fun c' e => hiff c' _ e)
    (fun obs hr => ?_) (fun hp => ?_) (fun c' id docs hm => ?_)
  · rw [hE] at hr ⊢
    exact h.honest c _ obs hr
  · rw [hE]
    exact holds hp
  · obtain ⟨hq, hc⟩ := responds c' id docs hm
    exact ⟨hq, fun i hi c'' hr => hc i hi c'' ((hiff _ _ _).mp hr)⟩

theorem Truth.reached_by_holder (hp : pc.holds = true) {e}
    (hr : Reached s.log c' req.operationID e) : c' = c :=
  h.once.creator c' c _ (h.source c' _ e hr) (h.once.holder c req pc stands hp)

end

theorem afterInsert_holds {σ : Type} (hp : (CallPc.afterInsert answer : CallPc σ).holds = true) :
    answer = .ok () := by
  cases answer with
  | ok u => rfl
  | error e => cases e <;> cases hp

theorem afterMark_holds {σ : Type} (hp : (CallPc.afterMark answer : CallPc σ).holds = true) :
    answer = .ok () ∨ (CallPc.afterMark answer : CallPc σ) = .close := by
  cases answer with
  | ok u => exact .inl rfl
  | error e =>
    cases e with
    | receiptAlreadyFinal => cases hp
    | receiptExists | receiptNotFound | receiptInvalid | database => exact .inr rfl

theorem finalState_isTerminal (docs : List Document) (rec : Recorder) (out : TrackedApplyOutcome) :
    (finalState docs rec out).isTerminal = true := by
  unfold finalState stateFor
  split
  · rfl
  · split
    · rfl
    · split <;> rfl

theorem consecutive_increasing {attempted} (h : Consecutive attempted) :
    (attempted.map (·.index)).Pairwise (· < ·) := by
  rw [h, pairwise_map]
  exact pairwise_lt_range.imp fun hlt => by exact_mod_cast hlt

theorem not_covered {log} (h : RowOk log id r) (hw : r.completedAt = none ∨ r.state = .unknown) :
    ¬ (r.state = .applied ∨ r.state = .partlyApplied ∨ r.state = .failed) := by
  have hs : r.state = .applying ∨ r.state = .unknown := hw.imp_left h.inFlight
  rcases hs with hs | hs <;> simp [hs]

theorem Truth.insert (h : Truth s) (stands : s.calls c = some ⟨req, .insert⟩)
    (write : s.receipts.insert (newReceipt req (dg req.rawBody)) f now = (rs, answer)) :
    Truth (Changes.moved s c req (.afterInsert answer) rs (s.insertedBy c req.operationID rs)) := by
  have unreached : s.receipts req.operationID = none →
      ∀ c' e, ¬ Reached s.log c' req.operationID e :=
    fun hno c' e hr => h.once.row c' _ (h.source c' _ e hr) hno
  refine h.movedQuietly dg stands (.insert write) (fun c' id e hm => ?_) (fun r hr => ?_)
    (fun hp => ?_) (fun c' id docs hm => ?_)
  · unfold Sys.insertedBy at hm
    split at hm <;> simp at hm
  · rcases Receipts.insert_cases write with ⟨rfl, _⟩ | ⟨hno, rfl⟩
    · exact h.rows _ r hr
    · rw [show req.operationID = (newReceipt req (dg req.rawBody)).id from rfl, update_self] at hr
      cases hr
      exact ⟨fun _ => rfl, absurd rfl, .nil, nofun,
        fun c' e hr => (unreached hno c' e hr).elim, fun hs => by simp [NewReceipt.row] at hs⟩
  · rcases Receipts.insert_cases write with ⟨_, hne⟩ | ⟨hno, rfl⟩
    · exact absurd (afterInsert_holds hp) hne
    · refine ⟨_, update_self .., ?_⟩
      rw [afterInsert_holds hp]
      exact ⟨nofun, nofun, rfl, unreached hno c⟩
  · unfold Sys.insertedBy at hm
    split at hm <;> simp at hm

theorem Truth.mark (h : Truth s) (stands : s.calls c = some ⟨req, .mark⟩)
    (write : s.receipts.markMutationStarted req.operationID f now = (rs, answer)) :
    Truth (Changes.moved s c req (.afterMark answer) rs (s.markedBy c req.operationID answer)) := by
  obtain ⟨r, hr, hh⟩ := h.holders c req .mark stands rfl
  obtain ⟨hob, hno⟩ := hh.follows
  have hrow := h.rows _ r hr
  refine h.movedQuietly dg stands (.mark write) (fun c' id e hm => ?_) (fun r' hr' => ?_)
    (fun hp => ?_) (fun c' id docs hm => ?_)
  · unfold Sys.markedBy at hm
    split at hm <;> simp at hm
  · rcases Receipts.markMutationStarted_cases write with ⟨rfl, _⟩ | ⟨r₀, hr₀, _, hc, rfl⟩
    · exact h.rows _ r' hr'
    · rw [hr] at hr₀
      cases hr₀
      rw [update_self] at hr'
      cases hr'
      exact ⟨hrow.inFlight, hrow.finished, hrow.increasing, hrow.settled,
        fun _ _ _ => by simp, hrow.covered⟩
  · have closed : ∀ {r'}, Holds req (Reached s.log c req.operationID) r'
        (.close : CallPc (trackedDeps dg).engine.State) :=
      ⟨nofun, nofun, hno⟩
    rcases Receipts.markMutationStarted_cases write with ⟨rfl, hok⟩ | ⟨r₀, hr₀, _, hc, rfl⟩
    · refine ⟨r, hr, ?_⟩
      rcases afterMark_holds hp with rfl | he
      · obtain ⟨r₁, hr₁, hm, hc⟩ := hok rfl
        rw [hr] at hr₁
        cases hr₁
        exact ⟨fun _ => hm, fun _ => .inl hc, hob, hno⟩
      · rw [he]; exact closed
    · rw [hr] at hr₀
      cases hr₀
      refine ⟨_, update_self .., ?_⟩
      rcases afterMark_holds hp with rfl | he
      · exact ⟨fun _ => by simp, fun _ => .inl hc, hob, hno⟩
      · rw [he]; exact closed
  · unfold Sys.markedBy at hm
    split at hm <;> simp at hm

theorem Truth.close (h : Truth s) (stands : s.calls c = some ⟨req, .close⟩)
    (write : s.receipts.finalize req.operationID .failed f now = (rs, answer)) :
    Truth (Changes.moved s c req (.returned (.error (.storeUnavailable .mark))) rs []) := by
  obtain ⟨r, hr, hh⟩ := h.holders c req .close stands rfl
  have unreached : ∀ c' e, ¬ Reached s.log c' req.operationID e := by
    intro c' e hre
    have hc := h.reached_by_holder stands rfl hre
    exact hh.follows e (hc ▸ hre)
  have hrow := h.rows _ r hr
  refine h.movedQuietly dg stands (.close write) nofun (fun r' hr' => ?_) nofun nofun
  rcases Receipts.finalize_cases write with ⟨rfl, _⟩ | ⟨r₀, hr₀, _, rfl⟩
  · exact h.rows _ r' hr'
  · rw [hr] at hr₀
    cases hr₀
    rw [update_self] at hr'
    cases hr'
    exact ⟨nofun, fun _ => rfl, hrow.increasing, hrow.settled,
      fun c' e hre => (unreached c' e hre).elim, fun _ c' i hp => (unreached c' _ hp).elim⟩

theorem Truth.invoke (h : Truth s) (stands : s.calls c = some ⟨req, .invoke⟩) :
    Truth (Changes.moved s c req
      (.engine ((trackedDeps dg).engine.init req) (.start req.docs.length)) s.receipts
      [.engineInvoked c req.operationID]) := by
  obtain ⟨r, hr, hh⟩ := h.holders c req .invoke stands rfl
  obtain ⟨hob, hno⟩ := hh.follows
  refine h.movedQuietly dg stands .invoke (fun _ _ _ hm => by simp at hm) (h.rows _) (fun _ => ?_)
    (fun _ _ _ hm => by simp at hm)
  have hE : Reached s.log c req.operationID = fun _ => False := funext fun e => eq_false (hno e)
  refine ⟨r, hr, fun _ => hh.marked rfl, fun _ => hh.window rfl, ?_, rfl, fun _ => ?_, absurd rfl⟩
  · rw [hE]; exact Yaml.init_ok req
  · exact ⟨by rw [hob]; rfl, rfl, rfl⟩

theorem Truth.append (h : Truth s) {obs k} (stands : s.calls c = some ⟨req, .append obs k rec⟩)
    (write : s.receipts.appendObject req.operationID
      (receiptObjectFor obs (bundleContainsSecret req.docs) now) f = (rs, answer)) :
    Truth (Changes.moved s c req (.afterAppend obs k rec answer) rs []) := by
  obtain ⟨r, hr, hh⟩ := h.holders c req _ stands rfl
  obtain ⟨hdoc, herr, e, rfl, hin, hi, hset, hok⟩ := hh.follows
  have hrow := h.rows _ r hr
  -- the row with the new outcome is still in step with what the engine attempted
  have grown : (r.objects ++ [receiptObjectFor obs (bundleContainsSecret req.docs) now]).map
      (·.index) = (e.attempted ++ [obs]).map (·.index) := by
    simp [hin.row, receiptObjectFor]
  have hcn : Consecutive (e.attempted ++ [obs]) := (hok none).indices
  rcases Receipts.appendObject_cases write with ⟨rfl, hls⟩ | ⟨r₀, hr₀, hc, rfl⟩
  · refine h.movedQuietly dg stands (.append write) nofun (h.rows _)
      (fun _ => ⟨r, hr, fun _ => hh.marked rfl, fun _ => hh.window rfl, ?_⟩) nofun
    cases answer with
    | error err => exact ⟨hok _, hdoc, nofun, fun _ => rfl⟩
    | ok u => exact absurd rfl hls
  · cases hr.symm.trans hr₀
    refine h.movedQuietly dg stands (.append write) nofun (fun r' hr' => ?_)
      (fun _ => ⟨_, update_self .., fun _ => hh.marked rfl, fun _ => .inl hc, ?_⟩) nofun
    · rw [update_self] at hr'
      cases hr'
      refine ⟨hrow.inFlight, hrow.finished, ?_, fun o ho => ?_, hrow.stamped,
        fun hs => (not_covered (r := r) hrow (.inl hc) hs).elim⟩
      · rw [grown]; exact consecutive_increasing hcn
      · rcases mem_concat ho with ho | ho
        · exact hrow.settled o ho
        · exact ⟨c, obs, _, now, hset, ho⟩
    · cases answer with
      | error err => exact ⟨hok _, hdoc, nofun, fun _ => rfl⟩
      | ok u =>
        have hno : (rec.recordAnswer obs (.ok u)).err = none := herr
        refine ⟨hok _, hdoc, fun _ => ⟨?_, ?_, ?_⟩, absurd hno⟩
        · rw [hno]; exact grown
        · rw [hno]
          simp [Recorder.recordAnswer, refFor, hin.refs, Yaml.State.observed]
        · rw [hno]
          simp [Recorder.recordAnswer, Yaml.State.observed, hi]

theorem halted_next {e : Yaml.State} (hpc : e.pc = .halted) (choice : Yaml.Choice) :
    e.next choice = some (.ret ⟨e.attempted, e.stopped⟩) := by
  simp [Yaml.State.next, hpc]

theorem refusal_none {obs : ApplyObservation} {n : Nat} (herr : rec.err = none)
    (hi : obs.index = (n : Int)) (hlt : n < rec.docCount) (hla : rec.lastIndex = (n : Int) - 1) :
    rec.refusal obs = none := by
  have hlow : ¬ (obs.index < 0) := by omega
  have hhg : ¬ (obs.index ≥ (rec.docCount : Int)) := by omega
  have hnew : ¬ (obs.index ≤ rec.lastIndex) := by omega
  simp [Recorder.refusal, herr, hlow, hhg, hnew]

theorem Truth.engine (h : Truth s) {e} (stands : s.calls c = some ⟨req, .engine e rec⟩) {choice ec}
    (speaks : (trackedDeps dg).engine.next e choice = some ec) :
    Truth (Changes.moved s c req (CallPc.afterEngine rec ec).1 s.receipts
      (((CallPc.afterEngine rec ec).2.map (Event.cluster c req.operationID)).reverse)) := by
  obtain ⟨r, hr, hh⟩ := h.holders c req _ stands rfl
  obtain ⟨hok, hdoc, hin, hhl⟩ := hh.follows
  have hrow := h.rows _ r hr
  have running : e.pc ≠ .halted → rec.err = none := fun hne => by
    by_contra herr
    exact hne (hhl herr)
  cases hok.next speaks with
  | @go events t kept ok =>
    have hE : Reached ((events.map (Event.cluster c req.operationID)).reverse ++ s.log) c
        req.operationID = Yaml.after (Reached s.log c req.operationID) events :=
      funext fun x => propext (by simp [Reached, Yaml.after])
    refine h.moved dg stands (.engine speaks) (fun r' hr' => ?_) (fun obs hre => ?_) (fun _ => ?_)
      (fun c' id docs hm => ?_)
    · rw [hr] at hr'
      cases hr'
      refine ⟨hrow.inFlight, hrow.finished, hrow.increasing, fun o ho => ?_,
        fun _ _ _ => hh.marked rfl, fun hs => absurd hs (not_covered hrow (hh.window rfl))⟩
      obtain ⟨c', obs, secret, now, hre, he⟩ := hrow.settled o ho
      exact ⟨c', obs, secret, now, mem_append_right _ hre, he⟩
    · change Honest (Reached ((events.map _).reverse ++ s.log) c req.operationID) obs
      change Reached ((events.map _).reverse ++ s.log) c req.operationID _ at hre
      rw [hE] at hre ⊢
      exact ok.honest obs hre
    · refine ⟨r, hr, fun _ => hh.marked rfl, fun _ => hh.window rfl, ?_⟩
      change Follows req (Reached ((events.map _).reverse ++ s.log) c req.operationID) r
        (.engine t rec)
      rw [hE]
      refine ⟨ok, hdoc, fun hn => kept ▸ hin hn, fun herr => ?_⟩
      have hret := halted_next (hhl herr) choice
      rw [show e.next choice = some (.go events t) from speaks] at hret
      cases hret
    · simp at hm
  | @observe obs hrun hi hlt hset hall =>
    have herr := running hrun
    have hobs : (CallPc.afterEngine rec (.observe obs (e.observed obs))).1 =
        .append obs (e.observed obs) rec := by
      change CallPc.observe obs (e.observed obs) rec = _
      rw [CallPc.observe, refusal_none herr hi (hdoc ▸ hlt) (hin herr).last]
    refine h.movedQuietly dg stands (.engine speaks)
      (fun _ _ _ hm => by simp at hm) (h.rows _) (fun _ => ⟨r, hr, ?_⟩)
      (fun _ _ _ hm => by simp at hm)
    rw [hobs]
    exact ⟨fun _ => hh.marked rfl, fun _ => hh.window rfl, hdoc, herr, e, rfl, hin herr, hi, hset,
      hall⟩
  | ret patched =>
    refine h.movedQuietly dg stands (.engine speaks) (fun _ _ _ hm => by simp at hm) (h.rows _)
      (fun _ => ⟨r, hr, fun _ => hh.marked rfl, fun _ => hh.window rfl, hok.indices, patched,
        fun hn => ?_⟩)
      (fun _ _ _ hm => by simp at hm)
    rw [(hin hn).row, (hin hn).refs]

theorem Truth.finalize (h : Truth s) {out} (stands : s.calls c = some ⟨req, .finalize out rec⟩)
    (write : s.receipts.finalize req.operationID (finalState req.docs rec out) f now = (rs, answer))
    : Truth (Changes.moved s c req
      (.returned (.ok (liveResult req (dg req.rawBody) rec out answer))) rs
      [.responded c req.operationID (unattempted req.docs out.attempted)]) := by
  obtain ⟨r, hr, hh⟩ := h.holders c req _ stands rfl
  obtain ⟨hcn, hpt, hrf⟩ := hh.follows
  have hrow := h.rows _ r hr
  have attempted_of : ∀ c' i, Reached s.log c' req.operationID (.patch i) →
      ∃ o ∈ out.attempted, o.index = (i : Int) := by
    intro c' i hre
    have hc := h.reached_by_holder stands rfl hre
    exact hcn.exists_of_lt (hpt i (hc ▸ hre))
  have moves := CallMove.finalize (d := trackedDeps dg) (c := c) write
  refine h.movedQuietly dg stands moves (fun _ _ _ hm => by simp at hm) (fun r' hr' => ?_)
    nofun (fun c' id docs hm => ?_)
  · rcases Receipts.finalize_cases write with ⟨rfl, _⟩ | ⟨r₀, hr₀, _, rfl⟩
    · exact h.rows _ r' hr'
    · rw [hr] at hr₀
      cases hr₀
      rw [update_self] at hr'
      cases hr'
      refine ⟨nofun, fun _ => finalState_isTerminal _ _ _, hrow.increasing,
        hrow.settled, hrow.stamped, fun hs c' i hre => ?_⟩
      -- a state other than unknown means that row, recorder and engine agree
      have clean : recordingFailed rec out = false := by
        by_contra hf
        have hf : recordingFailed rec out = true := by simpa using hf
        simp [finalState, hf] at hs
      simp only [recordingFailed, Bool.or_eq_false_iff, Option.isSome_eq_false_iff,
        Option.isNone_iff_eq_none, Bool.not_eq_false', recordedMatches, beq_iff_eq] at clean
      obtain ⟨o, ho, hi⟩ := attempted_of c' i hre
      have hm : (i : Int) ∈ r.objects.map (·.index) := by
        rw [hrf clean.1, clean.2]
        exact mem_map.mpr ⟨o, ho, hi⟩
      obtain ⟨o', ho', hi'⟩ := mem_map.mp hm
      exact ⟨o', ho', hi'⟩
  · simp only [mem_singleton, Event.responded.injEq] at hm
    obtain ⟨rfl, rfl, rfl⟩ := hm
    refine ⟨fun _ => ⟨moves.kept _ (by rw [hr]; simp), fun c₁ req₁ pc₁ hs hid => ?_⟩,
      fun i hi c'' hre => ?_⟩
    · rcases update_some_cases hs with ⟨_, he⟩ | ⟨hne, hs⟩
      · cases he
        exact ⟨rfl, nofun⟩
      · have idle : pc₁.holds = false := by
          by_contra hp
          have a := h.once.holder c₁ req₁ pc₁ hs (by simpa using hp)
          rw [hid] at a
          exact hne (h.once.creator c₁ _ _ a (h.once.holder _ req _ stands rfl))
        refine ⟨?_, fun hp => by rw [idle] at hp; cases hp⟩
        by_contra hst
        rw [holds_of_stamped (by simpa using hst)] at idle
        cases idle
    · obtain ⟨o, ho, hidx⟩ := attempted_of c'' i hre
      have hno := (mem_filter.mp hi).2
      simp only [Option.isNone_iff_eq_none, find?_eq_none] at hno
      exact hno o ho (by simp [hidx])

theorem resolveExisting_ok {digest : String} {res}
    (h : resolveExisting (.ok (some r)) req digest = .ok res) :
    r.state.isTerminal = true ∧ res = replay r req := by
  unfold resolveExisting at h
  simp only at h
  split at h
  · cases h
  · split at h
    · cases h
    · split at h
      · cases h
      next htr =>
        cases h
        exact ⟨by simpa using htr, rfl⟩

theorem Truth.quiet_of_terminal (h : Truth s) (hr : s.receipts id = some r)
    (htr : r.state.isTerminal = true) (hne : r.state ≠ .unknown) : Quiet s id := by
  have hrow := h.rows id r hr
  have hdn : r.completedAt ≠ none := fun hn => by rw [hrow.inFlight hn] at htr; cases htr
  refine ⟨by rw [hr]; simp, fun c₁ req₁ pc₁ hs hid => ⟨?_, fun _ r' hr' => ?_⟩⟩
  · by_contra hst
    have hst : pc₁.stamped = true := by simpa using hst
    obtain ⟨r', hr', hh⟩ := h.holders c₁ req₁ pc₁ hs (holds_of_stamped hst)
    rw [hid, hr] at hr'
    cases hr'
    exact (hh.window hst).elim hdn hne
  · rw [hr] at hr'
    cases hr'
    exact hdn

theorem terminal_cases {state : ReceiptState} (htr : state.isTerminal = true)
    (hne : state ≠ .unknown) :
    state = .applied ∨ state = .partlyApplied ∨ state = .failed := by
  cases state with
  | applied => exact .inl rfl
  | partlyApplied => exact .inr (.inl rfl)
  | failed => exact .inr (.inr rfl)
  | unknown => exact absurd rfl hne
  | previewed | applying => cases htr

theorem Truth.get (h : Truth s) (stands : s.calls c = some ⟨req, .get⟩) {existing}
    (read : ∀ r, existing = .ok (some r) → s.receipts req.operationID = some r) :
    Truth (Changes.moved s c req (.returned (resolveExisting existing req (dg req.rawBody)))
      s.receipts (Sys.replayedBy c req existing (dg req.rawBody))) := by
  have moves := CallMove.get (d := trackedDeps dg) (c := c) existing read
  refine h.movedQuietly dg stands moves (fun _ _ _ hm => ?_) (h.rows _)
    nofun (fun c' id docs hm => ?_)
  · have hst := (moves.cluster_cases hm).2.2
    cases hst
  · obtain ⟨r, rfl, ⟨res, hres⟩, he⟩ := replayedBy_cases hm
    cases he
    have hr := read r rfl
    obtain ⟨htr, _⟩ := resolveExisting_ok hres
    by_cases hunk : r.state = .unknown
    · have hnil : replayUnattempted r req = [] := by simp [replayUnattempted, hunk]
      rw [hnil]
      exact ⟨absurd rfl, nofun⟩
    · refine ⟨fun _ => (h.quiet_of_terminal hr htr hunk).move stands moves, fun i hi c'' hre => ?_⟩
      obtain ⟨o, ho, hidx⟩ := (h.rows _ r hr).covered (terminal_cases htr hunk) c'' i hre
      have hho : i ∈ holes r req := by simpa [replayUnattempted, hunk] using hi
      have hno := (mem_filter.mp hho).2
      simp only [recordedOutcome, Option.isNone_iff_eq_none, getLast?_eq_none_iff,
        filter_eq_nil_iff] at hno
      exact hno o ho (by simp [hidx])

theorem Truth.crash (h : Truth s) (stands : s.calls c = some ⟨req, pc⟩) :
    Truth (Changes.moved s c req (.crashed : CallPc (trackedDeps dg).engine.State) s.receipts []) :=
  h.movedQuietly dg stands (.crash pc) nofun (h.rows _) nofun nofun

theorem Truth.move (h : Truth s) (stands : s.calls c = some ⟨req, pc⟩)
    (moves : CallMove (trackedDeps dg) s c req pc pc' rs events) :
    Truth (Changes.moved s c req pc' rs events) := by
  cases moves with
  | insert write => exact h.insert stands write
  | get existing read => exact h.get stands read
  | mark write => exact h.mark stands write
  | close write => exact h.close stands write
  | invoke => exact h.invoke stands
  | engine speaks => exact h.engine stands speaks
  | append write => exact h.append stands write
  | finalize write => exact h.finalize stands write
  | crash => exact h.crash stands

end

theorem Truth.step {dg s t} (h : Truth s) (hs : Step (trackedDeps dg) s t) : Truth t := by
  have ho : Once t := h.once.step hs
  cases hs with
  | start available req fresh => exact h.start available req fresh
  | move stands moves => exact h.move stands moves
  | reconcile write => exact h.evolve ho rfl rfl (evolves_reconcile write)
  | poll persist fresh read => exact h.evolve ho rfl rfl fun _ => evolves_same _
  | pollMove stands moves =>
    refine h.evolve ho rfl rfl fun id => ?_
    cases moves with
    | write write => exact evolves_setVerification write id
    | evaluate | readBack | readBackFails | crash => exact evolves_same _

theorem truth_init (dg : List UInt8 → String) : Truth (system (trackedDeps dg)).init where
  once := once_init _
  source _ _ _ h := nomatch h
  honest _ _ _ h := nomatch h
  rows _ _ h := nomatch h
  holders _ _ _ h := nomatch h
  quiet _ _ _ h := nomatch h
  counted _ _ _ h := nomatch h

theorem truth_run (dg : List UInt8 → String) (acts : List (Act Yaml.Choice)) :
    Truth ((system (trackedDeps dg)).run acts) :=
  Machine.run_inv (truth_init dg) (fun _ _ _ hs ht => hs.step (step_of_next ht)) acts

/-! ## Responses and their counts -/

def Answered {σ : Type} (s : Sys σ) : Prop :=
  ∀ c req res, s.calls c = some ⟨req, .returned (.ok res)⟩ →
    ∃ docs, Event.responded c req.operationID docs ∈ s.log ∧ res.tracking.notAttempted = docs.length

theorem afterEngine_holds {σ : Type} (rec : Recorder) (ec : EngineCall σ) {answer} :
    (CallPc.afterEngine rec ec).1 ≠ .returned answer := fun he => by
  have hst := afterEngine_stamped rec ec
  rw [he] at hst
  cases hst

theorem CallMove.answered {d : Deps} {s} {c : Nat} {req pc pc'} {rs : Receipts} {events}
    (h : CallMove d s c req pc pc' rs events) {res} (hp : pc' = .returned (.ok res)) :
    ∃ docs, Event.responded c req.operationID docs ∈ events ∧
      res.tracking.notAttempted = docs.length := by
  cases h with
  | insert write | mark write =>
    rename_i answer
    cases answer with
    | ok u => cases hp
    | error e => cases e <;> cases hp
  | get existing read =>
    have hres : resolveExisting existing req (d.computeDigest req.rawBody) = .ok res := by
      simpa using hp
    match existing, hres with
    | .ok (some r), hres =>
      obtain ⟨_, rfl⟩ := resolveExisting_ok hres
      exact ⟨_, by simp [Sys.replayedBy, hres], replay_notAttempted r req⟩
    | .ok none, hres => cases hres
    | .error e, hres => cases hres
  | finalize write =>
    cases hp
    exact ⟨_, mem_singleton.mpr rfl, rfl⟩
  | engine speaks => exact absurd hp (afterEngine_holds _ _)
  | close | invoke | append | crash => cases hp

theorem Answered.step {d : Deps} {s t} (h : Answered s) (hs : Step d s t) : Answered t := by
  cases hs with
  | start available req fresh =>
    intro c₁ req₁ res hc
    rcases update_some_cases hc with ⟨_, he⟩ | ⟨_, hc⟩
    · have hpc := congrArg Call.pc he
      rcases start_cases (σ := d.engine.State) available req with hst | ⟨e, hst⟩ <;>
        rw [hst] at hpc <;> cases hpc
    · exact h c₁ req₁ res hc
  | move stands moves =>
    intro c₁ req₁ res hc
    rcases update_some_cases hc with ⟨rfl, he⟩ | ⟨_, hc⟩
    · cases he
      obtain ⟨docs, hm, hn⟩ := moves.answered rfl
      exact ⟨docs, mem_append_left _ hm, hn⟩
    · obtain ⟨docs, hm, hn⟩ := h c₁ req₁ res hc
      exact ⟨docs, mem_append_right _ hm, hn⟩
  | reconcile | poll | pollMove => exact h

/-- **Receipts never claim less or more than what reached the cluster.** Recorded outcomes are in
increasing index order, each of a document whose PATCH was issued or that failed before it; a
document counted as not attempted never had one issued under that id; a row that is applied,
partial or failed records every document whose PATCH was issued. -/
theorem receipts_claim_what_reached_cluster (dg : List UInt8 → String)
    (acts : List (Act Yaml.Choice)) :
    (∀ id r, ((system (trackedDeps dg)).run acts).receipts id = some r →
      (r.objects.map (·.index)).Pairwise (· < ·) ∧
      ∀ o ∈ r.objects, ∃ c obs secret now, o = receiptObjectFor obs secret now ∧
        Reached ((system (trackedDeps dg)).run acts).log c id (.settled obs) ∧
        Honest (Reached ((system (trackedDeps dg)).run acts).log c id) obs) ∧
    (∀ c req res, ((system (trackedDeps dg)).run acts).calls c = some ⟨req, .returned (.ok res)⟩ →
      ∃ docs, Event.responded c req.operationID docs ∈ ((system (trackedDeps dg)).run acts).log ∧
        res.tracking.notAttempted = docs.length ∧
        ∀ i ∈ docs, ∀ c',
          ¬ Reached ((system (trackedDeps dg)).run acts).log c' req.operationID (.patch i)) ∧
    (∀ id r, ((system (trackedDeps dg)).run acts).receipts id = some r →
      ∀ c i, Reached ((system (trackedDeps dg)).run acts).log c id (.patch i) →
        (∃ o ∈ r.objects, o.index = (i : Int)) ∨ r.state = .applying ∨ r.state = .unknown) := by
  have h := truth_run dg acts
  have ha : Answered ((system (trackedDeps dg)).run acts) :=
    Machine.run_inv (fun _ _ _ hc => nomatch hc) (fun _ _ _ hs ht => hs.step (step_of_next ht)) acts
  refine ⟨fun id r hr => ⟨(h.rows id r hr).increasing, fun o ho => ?_⟩,
    fun c req res hc => ?_, fun id r hr c i hp => ?_⟩
  · obtain ⟨c, obs, secret, now, hre, he⟩ := (h.rows id r hr).settled o ho
    exact ⟨c, obs, secret, now, he, hre, h.honest c id obs hre⟩
  · obtain ⟨docs, hm, hn⟩ := ha c req res hc
    exact ⟨docs, hm, hn, h.counted c _ docs hm⟩
  · have hrow := h.rows id r hr
    by_cases hn : r.completedAt = none
    · exact .inr (.inl (hrow.inFlight hn))
    · by_cases hu : r.state = .unknown
      · exact .inr (.inr hu)
      · exact .inl (hrow.covered (terminal_cases (hrow.finished hn) hu) c i hp)

end KubeCenter.Changes
