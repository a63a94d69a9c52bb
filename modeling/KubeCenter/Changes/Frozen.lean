import KubeCenter.Changes.System

/-! # A receipt's history is frozen step by step

Three writers race on one row: the tracked call, guarded by `completed_at`, the verifier, by the
stored verification state, the reconciler, by `completed_at` alone. `Advances`: what they allow. -/
namespace KubeCenter.Changes
open Lib Go Store

/-- What later writes leave of a row. -/
structure Advances (r r' : ChangeReceipt) : Prop where
  id : r'.id = r.id
  closed : r.completedAt ≠ none →
    r'.completedAt = r.completedAt ∧ r'.state = r.state ∧ r'.objects = r.objects
  judged : r.verificationState.isFinal = true →
    r'.verificationState = r.verificationState ∧ r'.verification = r.verification

theorem Advances.refl (r : ChangeReceipt) : Advances r r :=
  ⟨rfl, fun _ => ⟨rfl, rfl, rfl⟩, fun _ => ⟨rfl, rfl⟩⟩

theorem Advances.trans {r₁ r₂ r₃} (h : Advances r₁ r₂) (h' : Advances r₂ r₃) : Advances r₁ r₃ where
  id := h'.id.trans h.id
  closed hc := by
    obtain ⟨hat, hsa, hob⟩ := h.closed hc
    obtain ⟨hat', hsa', hob'⟩ := h'.closed (by rw [hat]; exact hc)
    exact ⟨hat'.trans hat, hsa'.trans hsa, hob'.trans hob⟩
  judged hf := by
    obtain ⟨hsa, hch⟩ := h.judged hf
    obtain ⟨hsa', hch'⟩ := h'.judged (by rw [hsa]; exact hf)
    exact ⟨hsa'.trans hsa, hch'.trans hch⟩

def Advancing (rs rs' : Receipts) : Prop :=
  ∀ id r, rs id = some r → ∃ r', rs' id = some r' ∧ Advances r r'

theorem Advancing.refl (rs : Receipts) : Advancing rs rs := fun _ r hr => ⟨r, hr, .refl r⟩

theorem Advancing.trans {rs₁ rs₂ rs₃ : Receipts} (h : Advancing rs₁ rs₂)
    (h' : Advancing rs₂ rs₃) : Advancing rs₁ rs₃ := by
  intro id r hr
  obtain ⟨r', hr', ha⟩ := h id r hr
  obtain ⟨r'', hr'', ha'⟩ := h' id r' hr'
  exact ⟨r'', hr'', ha.trans ha'⟩

variable {r' r : ChangeReceipt} {rs : Receipts} {id : Uuid}

theorem Advancing.update (hr : rs id = some r) (h : Advances r r') :
    Advancing rs (Function.update rs id (some r')) :=
  fun _ r₁ hr₁ => Receipts.exists_of_update (.refl r₁) hr h hr₁

/-- A row stands under its own id, and has no verdict before it is completed. -/
structure RowSound (id : Uuid) (r : ChangeReceipt) : Prop where
  keyed : r.id = id
  unjudged : r.completedAt = none → r.verificationState.isFinal = false

def TableSound (rs : Receipts) : Prop := ∀ id r, rs id = some r → RowSound id r

theorem TableSound.update (h : TableSound rs) (hr' : RowSound id r') :
    TableSound (Function.update rs id (some r')) :=
  forall_update h hr'

/-- The frame of every write: the table stays sound and only advances. -/
structure Safe (rs rs' : Receipts) : Prop where
  sound : TableSound rs'
  advancing : Advancing rs rs'

theorem Safe.refl (h : TableSound rs) : Safe rs rs := ⟨h, .refl rs⟩

theorem Safe.update (h : TableSound rs) (hr : rs id = some r) (hrow : RowSound id r')
    (ha : Advances r r') :
    Safe rs (Function.update rs id (some r')) := ⟨h.update hrow, .update hr ha⟩

theorem advances_of_open (hid : r'.id = r.id) (ho : r.completedAt = none)
    (hv : r.verificationState.isFinal = false) : Advances r r' :=
  ⟨hid, absurd ho, fun hf => by rw [hv] at hf; cases hf⟩

theorem safe_reconcile {rs' : Receipts} {olderThan : Duration} {f : Fault} {now : Time} {a}
    (h : TableSound rs) (hw : rs.reconcileOrphans olderThan f now = (rs', a)) : Safe rs rs' := by
  rcases Receipts.reconcileOrphans_cases hw with rfl | rfl
  · exact .refl h
  · have row : ∀ id r, rs id = some r → RowSound id (Receipts.reconcileRow now olderThan r) ∧
        Advances r (Receipts.reconcileRow now olderThan r) := by
      intro id r hr
      have hrow := h id r hr
      rcases Receipts.reconcileRow_cases now olderThan r with he | ⟨ho, _, he⟩ <;> rw [he]
      · exact ⟨hrow, .refl r⟩
      · exact ⟨⟨hrow.keyed, nofun⟩, advances_of_open rfl ho (hrow.unjudged ho)⟩
    refine ⟨fun id r' hr' => ?_, fun id r hr => ?_⟩
    · obtain ⟨r, hr, rfl⟩ := Option.map_eq_some_iff.mp hr'
      exact (row id r hr).1
    · exact ⟨_, by simp [hr], (row id r hr).2⟩

section

variable {d : Deps} {s : Sys d.engine.State} {rs : Receipts}

theorem CallMove.safe {c : Nat} {req pc pc' events} (h : CallMove d s c req pc pc' rs events)
    (ht : TableSound s.receipts) : Safe s.receipts rs := by
  cases h.writes with
  | nothing => exact .refl ht
  | insert now free =>
    refine ⟨ht.update ⟨rfl, fun _ => rfl⟩, fun id r hr => ?_⟩
    exact ⟨r, Receipts.get_of_fresh free _ hr, .refl r⟩
  | @update r row unfinished =>
    have hrow := ht _ r row
    have hop := hrow.unjudged unfinished
    exact .update ht row ⟨hrow.keyed, fun _ => hop⟩ (advances_of_open rfl unfinished hop)

theorem PollMove.safe {row} {persist : Bool} {pc pc' : PollPc}
    (h : PollMove d s row persist pc pc' rs) (ht : TableSound s.receipts)
    (hdn : ∀ r, s.receipts row.id = some r → ∀ res, pc = .write res → r.completedAt ≠ none) :
    Safe s.receipts rs := by
  cases h with
  | @write res f now rs answer write =>
    rcases Receipts.setVerification_cases write with ⟨rfl, _⟩ | ⟨r, hr, hv, rfl⟩
    · exact .refl ht
    · refine .update ht hr ⟨(ht _ r hr).keyed, fun hn => absurd hn (hdn r hr res rfl)⟩ ?_
      exact ⟨rfl, fun _ => ⟨rfl, rfl, rfl⟩, fun hf => by rw [hv] at hf; cases hf⟩
  | evaluate | readBack | readBackFails | crash => exact .refl ht

end

/-! ## Polls -/

@[local simp] def PollPc.persisted : PollPc → Option VerificationResult
  | .returned (.ok res) => if res.persisted then some res else none
  | _ => none

def PollPc.active : PollPc → Bool
  | .evaluate | .write _ | .readBack => true
  | .returned _ | .crashed => false

/-- What is known of a poll while the table moves on. -/
structure PollSound (rs : Receipts) (poll : Poll) : Prop where
  row : ∃ r, rs poll.row.id = some r ∧ Advances poll.row r ∧
    ∀ res, poll.pc.persisted = some res → res.state.isFinal = true ∧
      r.verificationState = res.state ∧ r.verification = res.checks
  completed : poll.pc.active = true → poll.row.completedAt ≠ none

variable {r : ChangeReceipt} {rs : Receipts}

theorem PollSound.advance {rs' : Receipts} {poll : Poll} (h : PollSound rs poll)
    (ha : Advancing rs rs') : PollSound rs' poll := by
  obtain ⟨r, hr, hrow, hvr⟩ := h.row
  obtain ⟨r', hr', hadv⟩ := ha _ r hr
  refine ⟨⟨r', hr', hrow.trans hadv, fun res hp => ?_⟩, h.completed⟩
  obtain ⟨hfn, hsa, hch⟩ := hvr res hp
  obtain ⟨hsa', hch'⟩ := hadv.judged (by rw [hsa]; exact hfn)
  exact ⟨hfn, hsa'.trans hsa, hch'.trans hch⟩

theorem PollSound.silent {poll : Poll} (hr : rs poll.row.id = some r) (ha : Advances poll.row r)
    (hp : poll.pc.persisted = none) (hc : poll.pc.active = true → poll.row.completedAt ≠ none) :
    PollSound rs poll := ⟨⟨r, hr, ha, fun res he => by rw [hp] at he; cases he⟩, hc⟩

theorem verifyFromRow_persisted {res} (h : verifyFromRow r = some res) : res.persisted = false := by
  unfold verifyFromRow at h
  split at h
  · cases h; rfl
  · split at h
    · cases h; rfl
    · cases h

theorem verifyFromRow_none (h : verifyFromRow r = none) : r.completedAt ≠ none := by
  unfold verifyFromRow at h
  split at h
  · cases h
  · split at h
    · cases h
    next hc =>
      intro hn
      simp [hn] at hc

theorem pollSound_start {id : Uuid} {row : ChangeReceipt} (persist : Bool) (hid : row.id = id)
    (hr : rs id = some row) : PollSound rs (Poll.start row persist) := by
  subst hid
  cases hv : verifyFromRow row with
  | some res =>
    have hp := verifyFromRow_persisted hv
    refine .silent hr (.refl row) ?_ ?_ <;> simp [Poll.start, hv, hp, PollPc.active]
  | none =>
    have hc := verifyFromRow_none hv
    exact .silent hr (.refl row) (by simp [Poll.start, hv]) fun _ => hc

section

variable {d : Deps} {s : Sys d.engine.State} {rs : Receipts} {row : ChangeReceipt} {persist : Bool}
  {pc pc' : PollPc}

theorem PollMove.sound (h : PollMove d s row persist pc pc' rs)
    (hp : PollSound s.receipts ⟨row, persist, pc⟩) (ha : Advancing s.receipts rs) :
    PollSound rs ⟨row, persist, pc'⟩ := by
  obtain ⟨r, hr, hrow, _⟩ := hp.row
  obtain ⟨r', hr', hadv⟩ := ha _ r hr
  have hcur : Advances row r' := hrow.trans hadv
  cases h with
  | evaluate live now completed =>
    exact .silent hr' hcur (by cases persist <;> rfl) fun _ => hp.completed rfl
  | @write res f now rs answer write =>
    cases answer with
    | ok u =>
      refine ⟨⟨r', hr', hcur, fun res' hres => ?_⟩, nofun⟩
      simp only [PollPc.afterWrite, PollPc.persisted] at hres
      split at hres
      next hfn =>
        cases hres
        rcases Receipts.setVerification_cases write with ⟨_, hne⟩ | ⟨r₀, hr₀, _, rfl⟩
        · exact absurd rfl hne
        · rw [Function.update_self] at hr'
          cases hr'
          exact ⟨hfn, rfl, rfl⟩
      · cases hres
    | error e =>
      cases e with
      | receiptAlreadyFinal => exact .silent hr' hcur rfl fun _ => hp.completed rfl
      | receiptExists | receiptNotFound | receiptInvalid | database =>
        exact .silent hr' hcur rfl fun hact => nomatch hact
  | readBack | readBackFails | crash => exact .silent hr' hcur rfl fun hact => nomatch hact

theorem PollMove.stored (h : PollMove d s row persist pc pc' rs) {res}
    (hp : pc'.persisted = some res) :
    ∃ r, s.receipts row.id = some r ∧ r.verificationState.isFinal = false := by
  cases h with
  | evaluate => cases persist <;> cases hp
  | @write res f now rs answer write =>
    cases answer with
    | ok u =>
      rcases Receipts.setVerification_cases write with ⟨_, hne⟩ | ⟨r, hr, hv, _⟩
      · exact absurd rfl hne
      · exact ⟨r, hr, hv⟩
    | error e => cases e <;> cases hp
  | readBack | readBackFails | crash => cases hp

end

/-! ## The invariant -/

structure History {σ : Type} (s : Sys σ) : Prop where
  table : TableSound s.receipts
  polls : ∀ v poll, s.polls v = some poll → PollSound s.receipts poll
  once : ∀ v v' poll poll' res res', s.polls v = some poll → s.polls v' = some poll' →
    poll.pc.persisted = some res → poll'.pc.persisted = some res' →
    poll.row.id = poll'.row.id → v = v'

theorem History.transfer {σ : Type} {s t : Sys σ} (h : History s) (hs : Safe s.receipts t.receipts)
    (hp : t.polls = s.polls) : History t where
  table := hs.sound
  polls v poll hv := (h.polls v poll (hp ▸ hv)).advance hs.advancing
  once v v' poll poll' res res' hv hv' := h.once v v' poll poll' res res' (hp ▸ hv) (hp ▸ hv')

theorem History.setPoll {σ : Type} {s : Sys σ} {v : Nat} {poll : Poll} {rs : Receipts}
    (h : History s) (hs : Safe s.receipts rs) (hp : PollSound rs poll)
    (hnew : ∀ res, poll.pc.persisted = some res → ∃ r, s.receipts poll.row.id = some r ∧
      r.verificationState.isFinal = false) :
    History { s with receipts := rs, polls := Function.update s.polls v (some poll) } := by
  -- a poll that claims the row already contradicts the row having no verdict
  have alone : ∀ v' poll' res res', s.polls v' = some poll' → poll.pc.persisted = some res →
      poll'.pc.persisted = some res' → poll.row.id ≠ poll'.row.id := by
    intro v' poll' res res' hv' hres hres' he
    obtain ⟨r, hr, hv⟩ := hnew res hres
    obtain ⟨r', hr', _, hvr⟩ := (h.polls v' poll' hv').row
    rw [← he, hr] at hr'
    cases hr'
    obtain ⟨hfn, hsa, _⟩ := hvr res' hres'
    rw [hsa, hfn] at hv
    cases hv
  refine ⟨hs.sound, fun v₁ poll₁ hv₁ => ?_, fun v₁ v₂ poll₁ poll₂ res₁ res₂ hv₁ hv₂ h₁ h₂ he => ?_⟩
  · rcases update_some_cases hv₁ with ⟨_, rfl⟩ | ⟨_, hv₁⟩
    · exact hp
    · exact (h.polls v₁ poll₁ hv₁).advance hs.advancing
  · rcases update_some_cases hv₁ with ⟨rfl, rfl⟩ | ⟨_, old₁⟩ <;>
      rcases update_some_cases hv₂ with ⟨rfl, rfl⟩ | ⟨_, old₂⟩
    · rfl
    · exact absurd he (alone v₂ poll₂ res₁ res₂ old₂ h₁ h₂)
    · exact absurd he.symm (alone v₁ poll₁ res₂ res₁ old₁ h₂ h₁)
    · exact h.once v₁ v₂ poll₁ poll₂ res₁ res₂ old₁ old₂ h₁ h₂ he

theorem History.step {d : Deps} {s t} (h : History s) (hs : Step d s t) :
    History t ∧ Advancing s.receipts t.receipts := by
  cases hs with
  | start available req fresh => exact ⟨h.transfer (.refl h.table) rfl, .refl _⟩
  | move stands moves =>
    have hsf := moves.safe h.table
    exact ⟨h.transfer hsf rfl, hsf.advancing⟩
  | reconcile write =>
    have hsf := safe_reconcile h.table write
    exact ⟨h.transfer hsf rfl, hsf.advancing⟩
  | @poll v id row persist fresh read =>
    refine ⟨h.setPoll (.refl h.table) (pollSound_start persist (h.table id row read).keyed read) ?_,
      .refl _⟩
    intro res hres
    unfold Poll.start at hres
    cases hv : verifyFromRow row with
    | some res' => simp [hv, verifyFromRow_persisted hv] at hres
    | none => simp [hv] at hres
  | @pollMove v row persist pc pc' rs stands moves =>
    have hpl := h.polls v _ stands
    have hsf := moves.safe h.table fun r hr res hpc => by
      obtain ⟨r', hr', ha, _⟩ := hpl.row
      have hc : row.completedAt ≠ none := hpl.completed (by rw [hpc]; rfl)
      rw [hr] at hr'
      cases hr'
      rw [(ha.closed hc).1]
      exact hc
    exact ⟨h.setPoll hsf (moves.sound hpl hsf.advancing) fun res hres => moves.stored hres,
      hsf.advancing⟩

theorem history_init (d : Deps) : History (system d).init where
  table _ _ h := nomatch h
  polls _ _ h := nomatch h
  once _ _ _ _ _ _ h := nomatch h

theorem history_run (d : Deps) (acts : List (Act d.engine.Choice)) :
    History ((system d).run acts) :=
  Machine.run_inv (history_init d) (fun _ _ _ hs ht => (hs.step (step_of_next ht)).1) acts

theorem advancing_run (d : Deps) (acts later : List (Act d.engine.Choice)) :
    Advancing ((system d).run acts).receipts ((system d).run (acts ++ later)).receipts :=
  Machine.run_stable (P := fun s => History s)
    (Q := fun s => Advancing ((system d).run acts).receipts s.receipts)
    (history_init d) (fun _ _ _ hs ht => (hs.step (step_of_next ht)).1)
    (fun _ _ _ hs hq ht => hq.trans (hs.step (step_of_next ht)).2) acts later (.refl _)

/-- **A receipt's history is frozen step by step.** A completed row keeps its state and objects, a
final verdict its state and checks; no row has a verdict before it is completed; at most one poll
per receipt says it stored the verdict, the one stored. -/
theorem receipt_history_frozen (d : Deps) (acts later : List (Act d.engine.Choice)) :
    let s := (system d).run acts
    let t := (system d).run (acts ++ later)
    (∀ id r, s.receipts id = some r → ∃ r', t.receipts id = some r' ∧
      (r.completedAt ≠ none → r'.completedAt = r.completedAt ∧ r'.state = r.state ∧
        r'.objects = r.objects) ∧
      (r.verificationState.isFinal = true → r'.verificationState = r.verificationState ∧
        r'.verification = r.verification)) ∧
    (∀ id r, s.receipts id = some r → r.completedAt = none → r.verificationState.isFinal = false) ∧
    (∀ v poll res, s.polls v = some poll → poll.pc = .returned (.ok res) → res.persisted = true →
      (∃ r, s.receipts poll.row.id = some r ∧ r.verificationState = res.state ∧
        r.verification = res.checks) ∧
      ∀ v' poll' res', s.polls v' = some poll' → poll'.pc = .returned (.ok res') →
        res'.persisted = true → poll'.row.id = poll.row.id → v' = v) := by
  have hs := history_run d acts
  have claims : ∀ {poll : Poll} {res}, poll.pc = .returned (.ok res) → res.persisted = true →
      poll.pc.persisted = some res := by
    intro poll res hpc hp
    rw [hpc]
    exact if_pos hp
  refine ⟨fun id r hr => ?_, fun id r hr ho => (hs.table id r hr).unjudged ho, ?_⟩
  · obtain ⟨r', hr', ha⟩ := advancing_run d acts later id r hr
    exact ⟨r', hr', ha.closed, ha.judged⟩
  · intro v poll res hv hpc hp
    refine ⟨?_, fun v' poll' res' hv' hpc' hp' he => ?_⟩
    · obtain ⟨r, hr, _, hvr⟩ := (hs.polls v poll hv).row
      exact ⟨r, hr, (hvr res (claims hpc hp)).2⟩
    · exact hs.once v' v poll' poll res' res hv' hv (claims hpc' hp') (claims hpc hp) he

end KubeCenter.Changes
