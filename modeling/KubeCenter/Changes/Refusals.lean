import KubeCenter.Changes.AtMostOnce

/-! # What a refusal proves

Some answers of `TrackedApply` settle an operation id without a result. After any of them no call
with the same request has run the engine under that id, or ever will. -/
namespace KubeCenter.Changes
open Lib Go Store List

/-- Every error but an operation in flight and a store that failed at the insert or the read. The
verification step is not one of `TrackedApply`'s; the handler treats it like a failed mark. -/
def ApplyError.settles : ApplyError → Bool
  | .invalidRequest _ => true
  | .operationConflict .operationInFlight _ _ => false
  | .operationConflict _ _ _ => true
  | .storeUnavailable .mark | .storeUnavailable .verification => true
  | .storeUnavailable .insert | .storeUnavailable .read => false

def RowOf (d : Deps) (req : TrackedApplyRequest) (r : ChangeReceipt) : Prop :=
  r.ownerID = (req.user.map (·.id)).getD "" ∧ r.contentDigest = d.computeDigest req.rawBody ∧
    r.clusterID = normalizedClusterID req.clusterID

def Valid (d : Deps) (req : TrackedApplyRequest) : Prop :=
  validateRequest req = .ok () ∧ (newReceipt req (d.computeDigest req.rawBody)).validate = .ok ()

def SameIdentity (rs rs' : Receipts) : Prop :=
  ∀ id r, rs id = some r → ∃ r', rs' id = some r' ∧ r'.ownerID = r.ownerID ∧
    r'.contentDigest = r.contentDigest ∧ r'.clusterID = r.clusterID

theorem SameIdentity.refl (rs : Receipts) : SameIdentity rs rs :=
  fun _ r hr => ⟨r, hr, rfl, rfl, rfl⟩

theorem SameIdentity.update {rs : Receipts} {id : Uuid} {r r' : ChangeReceipt}
    (hr : rs id = some r) (ho : r'.ownerID = r.ownerID)
    (hd : r'.contentDigest = r.contentDigest) (hc : r'.clusterID = r.clusterID) :
    SameIdentity rs (Function.update rs id (some r')) := by
  intro id₁ r₁ hr₁
  refine Receipts.exists_of_update (R := fun r r' => r'.ownerID = r.ownerID ∧
    r'.contentDigest = r.contentDigest ∧ r'.clusterID = r.clusterID) ?_ hr ?_ hr₁
  · exact ⟨rfl, rfl, rfl⟩
  · exact ⟨ho, hd, hc⟩

theorem sameIdentity_reconcile {rs rs' : Receipts} {olderThan : Duration} {f : Fault} {now : Time}
    {a} (h : rs.reconcileOrphans olderThan f now = (rs', a)) : SameIdentity rs rs' := by
  rcases Receipts.reconcileOrphans_cases h with rfl | rfl
  · exact .refl _
  · intro id r hr
    refine ⟨Receipts.reconcileRow now olderThan r, by simp [hr], ?_⟩
    rcases Receipts.reconcileRow_cases now olderThan r with he | ⟨_, _, he⟩ <;> rw [he] <;>
      exact ⟨rfl, rfl, rfl⟩

variable {d : Deps} {s : Sys d.engine.State} {c : Nat} {req : TrackedApplyRequest}
  {pc pc' : CallPc d.engine.State} {rs : Receipts} {events : List Event}

theorem CallMove.sameIdentity (h : CallMove d s c req pc pc' rs events) :
    SameIdentity s.receipts rs := by
  cases h.writes with
  | nothing => exact .refl _
  | insert now free => exact fun id r hr => ⟨r, Receipts.get_of_fresh free _ hr, rfl, rfl, rfl⟩
  | update row => exact .update row rfl rfl rfl

theorem PollMove.sameIdentity {row} {persist : Bool} {p p' : PollPc}
    (h : PollMove d s row persist p p' rs) : SameIdentity s.receipts rs := by
  cases h with
  | write write =>
    rcases Receipts.setVerification_cases write with ⟨rfl, _⟩ | ⟨r, hr, _, rfl⟩
    · exact .refl _
    · exact .update hr rfl rfl rfl
  | evaluate | readBack | readBackFails | crash => exact .refl _

/-! ## What is known of a call that was refused -/

/-- Why a settled refusal of call `c` rules the engine out. -/
inductive RuledOut (d : Deps) (s : Sys d.engine.State) (c : Nat) (req : TrackedApplyRequest) : Prop
  | invalid (h : ¬ Valid d req)
  | foreign (r : ChangeReceipt) (row : s.receipts req.operationID = some r)
      (other : ¬ RowOf d req r)
  | closed (mine : Event.inserted c req.operationID ∈ s.log)

/-- Where a call that invoked the engine can be: never at a refusal. -/
def CallPc.refused {σ : Type} : CallPc σ → Bool
  | .returned (.error _) => true
  | _ => false

structure Refuted (d : Deps) (s : Sys d.engine.State) : Prop where
  once : Once s
  valid : ∀ c req pc, s.calls c = some ⟨req, pc⟩ → pc.holds = true ∨ pc = .insert →
    validateRequest req = .ok ()
  owned : ∀ c req pc, s.calls c = some ⟨req, pc⟩ → Event.inserted c req.operationID ∈ s.log →
    Valid d req ∧ ∃ r, s.receipts req.operationID = some r ∧ RowOf d req r
  own : ∀ c id req pc, s.calls c = some ⟨req, pc⟩ → Event.inserted c id ∈ s.log →
    id = req.operationID
  silent : ∀ c id req pc, s.calls c = some ⟨req, pc⟩ → Event.engineInvoked c id ∈ s.log →
    pc.refused = false
  refused : ∀ c req e, s.calls c = some ⟨req, .returned (.error e)⟩ → e.settles = true →
    RuledOut d s c req
  fresh : ∀ c, s.calls c = none → ∀ id, Event.inserted c id ∉ s.log

theorem RuledOut.mono {d : Deps} {s t : Sys d.engine.State} {c : Nat} {req} (h : RuledOut d s c req)
    (hi : SameIdentity s.receipts t.receipts) (hl : ∀ e ∈ s.log, e ∈ t.log) :
    RuledOut d t c req := by
  cases h with
  | invalid h => exact .invalid h
  | foreign r row other =>
    obtain ⟨r', row', ho, hd, hc⟩ := hi _ r row
    refine .foreign r' row' fun hrow => other ?_
    exact ⟨ho ▸ hrow.1, hd ▸ hrow.2.1, hc ▸ hrow.2.2⟩
  | closed mine => exact .closed (hl _ mine)

theorem normalizedClusterID_ne_empty (clusterID : String) : normalizedClusterID clusterID ≠ "" := by
  unfold normalizedClusterID
  split
  · decide
  next h =>
    simp only [Bool.or_eq_true, decide_eq_true_eq, not_or] at h
    exact h.1

theorem insert_created {rs rs' : Receipts} {r} {f : Fault} {now : Time} {a}
    (h : rs.insert r f now = (rs', a)) (hn : rs r.id = none) (hs : rs' r.id ≠ none) :
    r.validate = .ok () ∧ rs' r.id = some (r.row now) := by
  rcases Receipts.insert_cases h with ⟨rfl, _⟩ | ⟨_, rfl⟩
  · exact absurd hn hs
  · refine ⟨?_, Function.update_self ..⟩
    cases hv : r.validate with
    | ok u => rfl
    | error e =>
      simp only [Receipts.insert, hv, Prod.mk.injEq] at h
      exact absurd (by rw [← h.1]; exact hn) hs

section

variable (h : CallMove d s c req pc pc' rs events)
include h

theorem CallMove.waits_of_refused (hp : pc'.refused = true) : pc.waits = true := by
  cases h with
  | insert | get | mark | close | invoke => rfl
  | @engine e choice ec rec speaks =>
    have hst := afterEngine_stamped rec ec
    cases hpc : (CallPc.afterEngine rec ec).1 <;> rw [hpc] at hst hp <;>
      first | cases hp | cases hst
  | append | finalize | crash => cases hp

theorem CallMove.holds_or_insert (hp : pc'.holds = true ∨ pc' = .insert) :
    pc.holds = true ∨ pc = .insert := by
  cases h with
  | insert => exact .inr rfl
  | mark | close | invoke | engine | append | finalize => exact .inl rfl
  | get | crash => rcases hp with hp | hp <;> cases hp

theorem CallMove.created {c' : Nat} {id : Uuid} (hm : Event.inserted c' id ∈ events) :
    c' = c ∧ id = req.operationID ∧ pc = .insert ∧
      (newReceipt req (d.computeDigest req.rawBody)).validate = .ok () ∧
      ∃ r, rs req.operationID = some r ∧ RowOf d req r := by
  obtain ⟨hc, hno, hsm, _⟩ := h.inserted_cases hm
  obtain rfl := h.insert_of_inserted hm
  cases h with
  | @insert f now rs answer write =>
    unfold Sys.insertedBy at hm
    split at hm
    · simp only [mem_singleton, Event.inserted.injEq] at hm
      obtain ⟨rfl, rfl⟩ := hm
      obtain ⟨hv, hrow⟩ := insert_created write hno hsm
      refine ⟨rfl, rfl, rfl, hv, _, hrow, rfl, rfl, ?_⟩
      simp [NewReceipt.row, newReceipt, normalizedClusterID_ne_empty]
    · cases hm
  | crash => cases hm

theorem CallMove.ruledOut {e} (hp : pc' = .returned (.error e)) (he : e.settles = true)
    (mine : pc.holds = true → Event.inserted c req.operationID ∈ s.log) :
    RuledOut d ⟨rs, Function.update s.calls c (some ⟨req, pc'⟩), s.polls, events ++ s.log⟩ c
      req := by
  cases h with
  | @insert f now rs answer write =>
    cases answer with
    | ok u => cases hp
    | error err =>
      cases err with
      | receiptInvalid text =>
        refine .invalid fun hvl => ?_
        -- past its own checks the statement never answers that the row is invalid
        simp only [Receipts.insert, hvl.2] at write
        split at write <;> rcases Receipts.write_cases write with ⟨_, hb | hb⟩ | ⟨_, hb⟩ <;>
          cases hb
      | receiptExists => cases hp
      | receiptNotFound | receiptAlreadyFinal | database => cases hp; cases he
  | get existing read =>
    have hres : resolveExisting existing req (d.computeDigest req.rawBody) = .error e := by
      simpa using hp
    match existing, read, hres with
    | .error _, _, hres => cases hres; cases he
    | .ok none, _, hres => cases hres; cases he
    | .ok (some r), read, hres =>
      refine .foreign r (read r rfl) fun hrow => ?_
      obtain ⟨ho, hd, hc⟩ := hrow
      simp only [resolveExisting, ho, hd, hc, ne_eq, not_true_eq_false, if_false, decide_false,
        Bool.or_self, Bool.false_eq_true] at hres
      split at hres
      · cases hres; cases he
      · cases hres
  | mark | close => exact .closed (mem_append_right _ (mine rfl))
  | @engine e choice ec rec speaks =>
    have hst := afterEngine_stamped rec ec
    rw [hp] at hst
    cases hst
  | invoke | append | finalize | crash => cases hp

end

/-! ## The invariant -/

theorem Refuted.transfer {t} (h : Refuted d s) (ho : Once t) (hc : t.calls = s.calls)
    (hl : t.log = s.log) (hi : SameIdentity s.receipts t.receipts) : Refuted d t where
  once := ho
  valid c req pc hs := h.valid c req pc (hc ▸ hs)
  owned c req pc hs hm := by
    obtain ⟨hv, r, hr, hrow⟩ := h.owned c req pc (hc ▸ hs) (hl ▸ hm)
    obtain ⟨r', hr', e₁, e₂, e₃⟩ := hi _ r hr
    exact ⟨hv, r', hr', e₁.trans hrow.1, e₂.trans hrow.2.1, e₃.trans hrow.2.2⟩
  own c id req pc hs hm := h.own c id req pc (hc ▸ hs) (hl ▸ hm)
  silent c id req pc hs hm := h.silent c id req pc (hc ▸ hs) (hl ▸ hm)
  refused c req e hs he := (h.refused c req e (hc ▸ hs) he).mono hi fun x hx => hl ▸ hx
  fresh c hs := hl ▸ h.fresh c (hc ▸ hs)

theorem start_refused {σ : Type} {available : Bool} {e}
    (h : (CallPc.start available req : CallPc σ) = .returned (.error e)) (he : e.settles = true) :
    validateRequest req ≠ .ok () := by
  unfold CallPc.start at h
  split at h
  · cases h; cases he
  · split at h
    next hv =>
      rw [hv]
      exact nofun
    · cases h

theorem start_valid {σ : Type} {available : Bool}
    (h : (CallPc.start available req : CallPc σ).holds = true ∨
      (CallPc.start available req : CallPc σ) = .insert) : validateRequest req = .ok () := by
  unfold CallPc.start at h
  split at h
  · rcases h with h | h <;> cases h
  · split at h
    · rcases h with h | h <;> cases h
    · assumption

theorem Refuted.start (h : Refuted d s) (available : Bool) (req : TrackedApplyRequest)
    (fresh : s.calls c = none) : Refuted d (s.setCall c ⟨req, .start available req⟩) := by
  -- a call that has not started is nowhere in the history
  have unheard : ∀ id, Event.engineInvoked c id ∉ s.log := fun id hm => by
    obtain ⟨_, _, hs, _⟩ := h.once.entered c id hm
    rw [fresh] at hs
    cases hs
  have uninserted : ∀ id, Event.inserted c id ∉ s.log := h.fresh c fresh
  refine ⟨h.once.start available req fresh, fun c₁ req₁ pc₁ hs hp => ?_,
    fun c₁ req₁ pc₁ hs hm => ?_, fun c₁ id req₁ pc₁ hs hm => ?_, fun c₁ id req₁ pc₁ hs hm => ?_,
    fun c₁ req₁ e hs he => ?_, fun c₁ hs => h.fresh c₁ ?_⟩
  case refine_6 =>
    by_cases he : c₁ = c
    · rw [he]; exact fresh
    · exact (Function.update_of_ne he _ _).symm.trans hs
  all_goals rcases update_some_cases hs with ⟨rfl, heq⟩ | ⟨_, hs⟩
  · cases heq; exact start_valid hp
  · exact h.valid c₁ req₁ pc₁ hs hp
  · exact absurd hm (uninserted _)
  · exact h.owned c₁ req₁ pc₁ hs hm
  · exact absurd hm (uninserted _)
  · exact h.own c₁ id req₁ pc₁ hs hm
  · exact absurd hm (unheard _)
  · exact h.silent c₁ id req₁ pc₁ hs hm
  · have hreq : req₁ = req := congrArg Call.req heq
    have hpc := congrArg Call.pc heq
    subst hreq
    exact .invalid fun hv => start_refused hpc.symm he hv.1
  · exact (h.refused c₁ req₁ e hs he).mono (.refl _) fun _ hx => hx

theorem Refuted.move {pc pc'} {rs : Receipts} {events} (h : Refuted d s)
    (stands : s.calls c = some ⟨req, pc⟩) (moves : CallMove d s c req pc pc' rs events) :
    Refuted d ⟨rs, Function.update s.calls c (some ⟨req, pc'⟩), s.polls, events ++ s.log⟩ := by
  have hi := moves.sameIdentity
  have kept : ∀ {c₁ req₁ pc₁}, s.calls c₁ = some ⟨req₁, pc₁⟩ →
      Event.inserted c₁ req₁.operationID ∈ s.log →
      Valid d req₁ ∧ ∃ r, rs req₁.operationID = some r ∧ RowOf d req₁ r := by
    intro c₁ req₁ pc₁ hs hm
    obtain ⟨hv, r, hr, hrow⟩ := h.owned c₁ req₁ pc₁ hs hm
    obtain ⟨r', hr', e₁, e₂, e₃⟩ := hi _ r hr
    exact ⟨hv, r', hr', e₁.trans hrow.1, e₂.trans hrow.2.1, e₃.trans hrow.2.2⟩
  refine ⟨h.once.move stands moves, fun c₁ req₁ pc₁ hs hp => ?_, fun c₁ req₁ pc₁ hs hm => ?_,
    fun c₁ id req₁ pc₁ hs hm => ?_, fun c₁ id req₁ pc₁ hs hm => ?_, fun c₁ req₁ e hs he => ?_,
    fun c₁ hs id hm => ?_⟩
  · rcases update_some_cases hs with ⟨rfl, heq⟩ | ⟨_, hs⟩
    · cases heq
      exact h.valid c₁ req pc stands (moves.holds_or_insert hp)
    · exact h.valid c₁ req₁ pc₁ hs hp
  · rcases update_some_cases hs with ⟨rfl, heq⟩ | ⟨hne, hs⟩
    · cases heq
      rcases mem_append.mp hm with hm | hm
      · obtain ⟨_, _, hpc, hv, hrow⟩ := moves.created hm
        exact ⟨⟨h.valid c₁ req pc stands (.inr hpc), hv⟩, hrow⟩
      · exact kept stands hm
    · rcases mem_append.mp hm with hm | hm
      · exact absurd (moves.created hm).1 hne
      · exact kept hs hm
  · rcases update_some_cases hs with ⟨rfl, heq⟩ | ⟨hne, hs⟩
    · cases heq
      rcases mem_append.mp hm with hm | hm
      · exact (moves.created hm).2.1
      · exact h.own c₁ id req pc stands hm
    · rcases mem_append.mp hm with hm | hm
      · exact absurd (moves.created hm).1 hne
      · exact h.own c₁ id req₁ pc₁ hs hm
  · rcases update_some_cases hs with ⟨rfl, heq⟩ | ⟨hne, hs⟩
    · cases heq
      cases hr : pc'.refused with
      | false => rfl
      | true =>
        have hw := moves.waits_of_refused hr
        rcases mem_append.mp hm with hm | hm
        · rcases moves.invoked_cases with ⟨rfl, _, hw'⟩ | hq
          · cases moves with
            | invoke | crash => cases hr
          · exact absurd hm (hq c₁ id)
        · obtain ⟨req₂, pc₂, hs₂, hw₂⟩ := h.once.entered c₁ id hm
          rw [stands] at hs₂
          cases hs₂
          rw [hw] at hw₂
          cases hw₂
    · rcases mem_append.mp hm with hm | hm
      · rcases moves.invoked_cases with ⟨_, rfl, _⟩ | hq
        · simp only [mem_singleton, Event.engineInvoked.injEq] at hm
          exact absurd hm.1 hne
        · exact absurd hm (hq c₁ id)
      · exact h.silent c₁ id req₁ pc₁ hs hm
  · rcases update_some_cases hs with ⟨rfl, heq⟩ | ⟨_, hs⟩
    · cases heq
      exact moves.ruledOut rfl he (h.once.holder c₁ req pc stands)
    · exact (h.refused c₁ req₁ e hs he).mono hi fun x hx => mem_append_right _ hx
  · have hne : c₁ ≠ c := fun he => by rw [he] at hs; simp at hs
    have hs : s.calls c₁ = none := (Function.update_of_ne hne _ _).symm.trans hs
    rcases mem_append.mp hm with hm | hm
    · exact absurd (moves.created hm).1 hne
    · exact h.fresh c₁ hs id hm

theorem Refuted.step {t} (h : Refuted d s) (hs : Step d s t) : Refuted d t := by
  have ho : Once t := h.once.step hs
  cases hs with
  | start available req fresh => exact h.start available req fresh
  | move stands moves => exact h.move stands moves
  | reconcile write => exact h.transfer ho rfl rfl (sameIdentity_reconcile write)
  | poll persist fresh read => exact h.transfer ho rfl rfl (.refl _)
  | pollMove stands moves => exact h.transfer ho rfl rfl moves.sameIdentity

theorem refuted_init (d : Deps) : Refuted d (system d).init where
  once := once_init d
  valid _ _ _ h := nomatch h
  owned _ _ _ h := nomatch h
  own _ _ _ _ h := nomatch h
  silent _ _ _ _ h := nomatch h
  refused _ _ _ h := nomatch h
  fresh _ _ _ h := nomatch h

/-- **A settled refusal applied nothing** under its id, by any call with the refused request. -/
theorem Refuted.ran_nothing (h : Refuted d s) {c' : Nat} {e pc}
    (refused : s.calls c = some ⟨req, .returned (.error e)⟩) (he : e.settles = true)
    (other : s.calls c' = some ⟨req, pc⟩) : Event.engineInvoked c' req.operationID ∉ s.log := by
  intro hm
  have hins := h.once.ordered.inserted hm
  obtain ⟨hv, r, hr, hrow⟩ := h.owned c' req pc other hins
  cases h.refused c req e refused he with
  | invalid hn => exact hn hv
  | foreign r' row hot =>
    rw [hr] at row
    cases row
    exact hot hrow
  | closed mine =>
    have same := h.once.creator c c' _ mine hins
    subst same
    rw [refused] at other
    cases other
    have := h.silent c _ req _ refused hm
    cases this

end KubeCenter.Changes
