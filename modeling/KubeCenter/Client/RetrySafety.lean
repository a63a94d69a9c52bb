import KubeCenter.Changes.Truthful
import KubeCenter.Client.Retry

/-! # A retry keeps its operation id

As long as no answer gives a reused id up before `TrackedApply` saw the send, the sends of
unreported outcome carry one id, and at most one of them runs the engine. -/
namespace KubeCenter.Client
open Lib Go Store Changes List Option

/-! ## What an answer does to the id -/

theorem releases_reused {err : Failure} (h : KeepsId err) : releases err true = false := by
  cases err with
  | noResponse => rfl
  | api status reason applied retrySame =>
    rcases h with ⟨h500, hfl⟩ | ⟨rfl, rfl⟩
    · by_cases hsto : status = 503 ∧ reason = "receipt_store_unavailable"
      · obtain ⟨rfl, rfl⟩ := hsto
        cases retrySame with
        | none => rfl
        | some b =>
          cases b with
          | true => rfl
          | false => exact absurd ⟨rfl, rfl, rfl⟩ hfl
      · have hne : status ≠ 409 := by omega
        simp [releases, isIndeterminateApplyFailure, releaseStoreFailure, trackedApplyRefusal,
          hsto, hne, h500]
    · rfl

theorem releases_unanswered (proxy : Option Nat) (reused : Bool) :
    releases (unanswered proxy) reused = false := by
  cases proxy with
  | none => rfl
  | some n =>
    have hne : 500 + n ≠ 409 := by omega
    simp [unanswered, releases, isIndeterminateApplyFailure, releaseStoreFailure,
      trackedApplyRefusal, hne]

section

variable {ed : Editor}

variable {w : ed.World} {c : Nat} {reads stores : Bool} {now : Int} {minted id : Uuid}

theorem lookup_requestKey {mem} {st st' : Storage} {a}
    (h : lookup ed mem st reads now = (some a, st')) : a.requestKey = ed.requestKey := by
  have stored : ∀ {st'}, readStoredAttempt ed.sha256Hex st reads ed.requestKey now =
      (some a, st') → a.requestKey = ed.requestKey := by
    intro st' h
    unfold readStoredAttempt at h
    split at h
    · cases h
    · simp only at h
      split at h
      · cases h
      · split at h <;> cases h
        rfl
      · cases h
  unfold lookup at h
  split at h
  · split at h
    next hm =>
      cases h
      exact hm.1
    · exact stored h
  · exact stored h

/-! ## The invariant -/

def attemptOf (ed : Editor) (w : ed.World) (id : Uuid) : PendingAttempt :=
  ⟨id, ed.requestKey, w.openedAt⟩

structure Steady (ed : Editor) (w : ed.World) : Prop where
  server : Refuted ed.deps w.server
  known : ∀ c, w.server.calls c ≠ none → c ∈ w.used
  same : ∀ p ∈ w.pending, ∀ q ∈ w.pending, p.2 = q.2
  carried : ∀ p ∈ w.pending, p.1 ∈ w.used ∧
    ∀ call, w.server.calls p.1 = some call → call.req = ed.under p.2
  routed : ∀ p ∈ w.network, p.1 ∈ w.used ∧ ∀ q ∈ w.pending, q.1 = p.1 → q.2 = p.2
  memory : w.mounted = true → ∀ p ∈ w.pending, w.mem = some (attemptOf ed w p.2)
  unmounted : w.mounted = false → w.mem = none
  disk : w.stored = true → ∀ p ∈ w.pending, w.storage (ed.sha256Hex ed.requestKey) =
    some (.attempt p.2 w.openedAt (ed.sha256Hex ed.requestKey))
  awaited : ∀ send, w.waiting = some send → (send.c, send.id) ∈ w.pending ∧
    (send.reused = false → ∀ p ∈ w.pending, p.1 = send.c)

theorem Steady.fewer (h : Steady ed w) (network pending : List (Nat × Uuid)) (waiting : Option Send)
    (hn : ∀ p ∈ network, p ∈ w.network) (hp : ∀ p ∈ pending, p ∈ w.pending)
    (hw : ∀ send, waiting = some send → (send.c, send.id) ∈ pending ∧
      (send.reused = false → ∀ p ∈ pending, p.1 = send.c)) :
    Steady ed { w with network := network, pending := pending, waiting := waiting } where
  server := h.server
  known := h.known
  same p hp' q hq := h.same p (hp p hp') q (hp q hq)
  carried p hp' := h.carried p (hp p hp')
  routed p hp' := ⟨(h.routed p (hn p hp')).1, fun q hq => (h.routed p (hn p hp')).2 q (hp q hq)⟩
  memory hm p hp' := h.memory hm p (hp p hp')
  unmounted := h.unmounted
  disk hs p hp' := h.disk hs p (hp p hp')
  awaited := hw

theorem Steady.release (h : Steady ed w) (hp : w.pending = []) (clears : Bool) :
    Steady ed (w.release ed clears) := by
  have hno : ∀ p ∈ (w.release ed clears).pending, False := by
    rw [show (w.release ed clears).pending = [] from hp]
    nofun
  exact { h with
    memory := fun _ p hm => (hno p hm).elim
    unmounted := fun _ => rfl
    disk := fun _ p hm => (hno p hm).elim }

theorem Steady.serve (h : Steady ed w) {t a} (ht : (system ed.deps).next w.server a = some t)
    (network : List (Nat × Uuid)) (used : List Nat) (hn : ∀ p ∈ network, p ∈ w.network)
    (hu : ∀ c ∈ w.used, c ∈ used) (hcl : ∀ c available req, a = .call c available req → c ∈ used ∧
      ∀ p ∈ w.pending, p.1 = c → req = ed.under p.2) :
    Steady ed { w with server := t, network := network, used := used } := by
  refine { h with
    server := h.server.step (step_of_next ht)
    known := ?_
    carried := ?_
    routed := fun p hp => ⟨hu _ (h.routed p (hn p hp)).1, (h.routed p (hn p hp)).2⟩ }
  · intro c hc
    obtain ⟨call, hcl'⟩ := ne_none_iff_exists'.mp hc
    rcases calls_of_next ht hcl' with ⟨call₀, hs, _⟩ | ⟨available, ha, _⟩
    · exact hu c (h.known c (by rw [hs]; simp))
    · exact (hcl c available _ ha).1
  · intro p hp
    refine ⟨hu _ (h.carried p hp).1, fun call hc => ?_⟩
    rcases calls_of_next ht hc with ⟨call₀, hs, hreq⟩ | ⟨available, ha, _⟩
    · rw [← hreq]; exact (h.carried p hp).2 call₀ hs
    · exact (hcl p.1 available _ ha).2 p hp rfl

/-! ## The moves -/

theorem Steady.finds (h : Steady ed w) {p} (hp : p ∈ w.pending)
    (hr : Retained w (.press c minted now reads stores : Move ed.deps.engine.Choice)) :
    lookup ed w.mem w.storage reads now = (some (attemptOf ed w p.2), w.storage) := by
  obtain ⟨⟨hlow, hhg⟩, hcp⟩ := hr (ne_nil_of_mem hp)
  have hle : w.openedAt ≤ now := by omega
  cases hm : w.mounted with
  | true =>
    rw [h.memory hm p hp]
    simp [lookup, attemptOf, hhg]
  | false =>
    rcases hcp with hc | ⟨hstr, rfl⟩
    · rw [hm] at hc; cases hc
    · rw [h.unmounted hm]
      simp [lookup, readStoredAttempt, h.disk hstr p hp, attemptOf, hle, hhg]

/-- What a press sends, and what it is to the pending sends. -/
structure Continues (ed : Editor) (w : ed.World) (found : Option PendingAttempt) (st : Storage)
    (attempt : PendingAttempt) : Prop where
  key : attempt.requestKey = ed.requestKey
  pending : ∀ p ∈ w.pending, found.isSome = true ∧ st = w.storage ∧ attempt = attemptOf ed w p.2

theorem Steady.continues (h : Steady ed w)
    (hr : Retained w (.press c minted now reads stores : Move ed.deps.engine.Choice)) :
    Continues ed w (lookup ed w.mem w.storage reads now).1 (lookup ed w.mem w.storage reads now).2
      ((lookup ed w.mem w.storage reads now).1.getD ⟨minted, ed.requestKey, now⟩) where
  key := by
    cases hl : lookup ed w.mem w.storage reads now with
    | mk found st =>
      cases found with
      | none => rfl
      | some a => exact lookup_requestKey hl
  pending p hp := by rw [h.finds hp hr]; exact ⟨rfl, rfl, rfl⟩

theorem Steady.press (h : Steady ed w) (hc : c ∉ w.used)
    (hr : Retained w (.press c minted now reads stores : Move ed.deps.engine.Choice)) :
    Steady ed (w.press ed c minted now reads stores) := by
  have hcn := h.continues hr
  unfold World.press
  generalize lookup ed w.mem w.storage reads now = found at hcn ⊢
  obtain ⟨found, st⟩ := found
  simp only at hcn ⊢
  generalize found.getD ⟨minted, ed.requestKey, now⟩ = attempt at hcn ⊢
  have hid : ∀ p ∈ w.pending, p.2 = attempt.id := fun p hp => by
    rw [(hcn.pending p hp).2.2]; rfl
  have hnew : ∀ p ∈ w.pending, p.1 ≠ c := fun p hp he => hc (he ▸ (h.carried p hp).1)
  -- the attempt as the pending sends, old and new, know it
  have hop : attempt.at_ = if w.pending.isEmpty then attempt.at_ else w.openedAt := by
    cases hp : w.pending with
    | nil => rfl
    | cons p ps => rw [(hcn.pending p (by rw [hp]; exact .head _)).2.2]; rfl
  refine ⟨h.server, fun c' hc' => .tail _ (h.known c' hc'), ?_, ?_, ?_, ?_, ?_, ?_, ?_⟩
  · have every : ∀ p ∈ (c, attempt.id) :: w.pending, p.2 = attempt.id :=
      forall_mem_cons.mpr ⟨rfl, hid⟩
    intro p hp q hq
    rw [every p hp, every q hq]
  · refine forall_mem_cons.mpr ⟨⟨.head _, fun call hcl => ?_⟩, fun p hp => ?_⟩
    · exact absurd (h.known c (by rw [hcl]; simp)) hc
    · exact ⟨.tail _ (h.carried p hp).1, (h.carried p hp).2⟩
  · refine forall_mem_cons.mpr ⟨⟨.head _, ?_⟩, fun p hp => ⟨.tail _ (h.routed p hp).1, ?_⟩⟩
    · exact forall_mem_cons.mpr ⟨fun _ => rfl, fun q hq he => absurd he (hnew q hq)⟩
    · refine forall_mem_cons.mpr ⟨fun he => ?_, (h.routed p hp).2⟩
      exact absurd ((h.routed p hp).1) (by rw [← show c = p.1 from he]; exact hc)
  · have hmem : ∀ id, id = attempt.id → some attempt = some (⟨id, ed.requestKey,
        if w.pending.isEmpty then attempt.at_ else w.openedAt⟩ : PendingAttempt) := by
      rintro id rfl
      rw [← hop, ← hcn.key]
    intro _
    exact forall_mem_cons.mpr ⟨hmem _ rfl, fun p hp => hmem _ (hid p hp)⟩
  · intro hm
    cases hm
  · intro hs
    have hds : ∀ id, id = attempt.id →
        writeStoredAttempt ed.sha256Hex st stores attempt (ed.sha256Hex ed.requestKey) =
          some (.attempt id (if w.pending.isEmpty then attempt.at_ else w.openedAt)
            (ed.sha256Hex ed.requestKey)) := by
      rintro id rfl
      rw [← hop]
      cases stores with
      | true => simp [writeStoredAttempt, hcn.key]
      | false =>
        -- only an attempt that is already pending counts as stored without a write
        simp only [Bool.false_or, Bool.and_eq_true] at hs
        cases hp : w.pending with
        | nil => rw [hp] at hs; cases hs.2
        | cons p ps =>
          have hmem : p ∈ w.pending := by rw [hp]; exact .head _
          obtain ⟨_, hst, hat⟩ := hcn.pending p hmem
          rw [hst, hat]
          exact h.disk hs.1 p hmem
    exact forall_mem_cons.mpr ⟨hds _ rfl, fun p hp => hds _ (hid p hp)⟩
  · intro send hsd
    cases hsd
    refine ⟨.head _, fun hfs => forall_mem_cons.mpr ⟨rfl, fun p hp => ?_⟩⟩
    rw [(hcn.pending p hp).1] at hfs
    cases hfs

theorem lookup_mem {network : List (Nat × Uuid)} (h : network.lookup c = some id) :
    (c, id) ∈ network := by
  obtain ⟨before, after, rfl, _⟩ := lookup_eq_some_iff.mp h
  exact mem_append_right _ (.head _)

theorem mem_of_mem_filter_ne {ps : List (Nat × Uuid)} :
    ∀ p ∈ ps.filter (·.1 ≠ c), p ∈ ps := fun _ hp => (mem_filter.mp hp).1

theorem Steady.arrive (h : Steady ed w) (hn : w.network.lookup c = some id) {t}
    (ht : (system ed.deps).next w.server (.call c true (ed.under id)) = some t) :
    Steady ed { w with server := t, network := w.network.filter (·.1 ≠ c) } := by
  refine h.serve ht _ w.used mem_of_mem_filter_ne (fun _ hu => hu) ?_
  rintro c' available req ⟨⟩
  obtain ⟨hus, hrt⟩ := h.routed _ (lookup_mem hn)
  refine ⟨hus, fun p hp he => ?_⟩
  rw [hrt p hp he]

/-- Either the answer keeps the id, or the send it answers was the only one unaccounted for. -/
theorem Steady.refuse (h : Steady ed w) {err : Failure} (clears : Bool)
    (hk : (∃ p ∈ w.pending, p.1 ≠ c) → KeepsId err) :
    Steady ed (match w.waiting with
      | some send => if send.c = c then (w.discard c).fail ed send err clears else w.discard c
      | none => w.discard c) := by
  have forgotten := h.fewer (w.network.filter (·.1 ≠ c)) (w.pending.filter (·.1 ≠ c)) none
    mem_of_mem_filter_ne mem_of_mem_filter_ne nofun
  split
  next send hwt =>
    obtain ⟨hsd, hfs⟩ := h.awaited send hwt
    split
    · rename_i hc
      unfold World.fail
      split
      · rename_i hrel
        have hno : (w.discard c).pending = [] := by
          refine filter_eq_nil_iff.mpr fun p hp hne => ?_
          have hne : p.1 ≠ c := by simpa using hne
          cases hre : send.reused with
          | false => exact hne ((hfs hre p hp).trans hc)
          | true =>
            rw [hre, releases_reused (hk ⟨p, hp, hne⟩)] at hrel
            cases hrel
        exact forgotten.release hno clears
      · exact forgotten
    · rename_i hc
      refine h.fewer _ _ _ mem_of_mem_filter_ne mem_of_mem_filter_ne fun send' hs => ?_
      have hs : send = send' := Option.some.inj (hwt.symm.trans hs)
      subst hs
      exact ⟨mem_filter.mpr ⟨hsd, by simpa using hc⟩,
        fun hre p hp => hfs hre p ((mem_filter.mp hp).1)⟩
  next hwt =>
    refine h.fewer _ _ _ mem_of_mem_filter_ne mem_of_mem_filter_ne fun send hs => ?_
    rw [hwt] at hs
    cases hs

theorem Steady.refresh (h : Steady ed w) {send : Send} (hwt : w.waiting = some send)
    (hc : c ∉ w.used) :
    Steady ed { w.discard send.c with
      waiting := some { send with c := c }
      network := (c, send.id) :: (w.discard send.c).network
      used := c :: w.used
      pending := (c, send.id) :: (w.discard send.c).pending } := by
  obtain ⟨hsd, hfs⟩ := h.awaited send hwt
  have kept : ∀ p ∈ (w.discard send.c).pending, p ∈ w.pending := mem_of_mem_filter_ne
  have hid : ∀ p ∈ (c, send.id) :: (w.discard send.c).pending, p.2 = send.id :=
    forall_mem_cons.mpr ⟨rfl, fun p hp => h.same p (kept p hp) _ hsd⟩
  refine ⟨h.server, fun c' hc' => .tail _ (h.known c' hc'), ?_, ?_, ?_, ?_, h.unmounted, ?_, ?_⟩
  · intro p hp q hq
    rw [hid p hp, hid q hq]
  · refine forall_mem_cons.mpr ⟨⟨.head _, fun call hcl => ?_⟩, fun p hp => ?_⟩
    · exact absurd (h.known c (by rw [show w.server.calls c = some call from hcl]; simp)) hc
    · exact ⟨.tail _ (h.carried p (kept p hp)).1, (h.carried p (kept p hp)).2⟩
  · refine forall_mem_cons.mpr ⟨⟨.head _, fun q hq _ => hid q hq⟩, fun p hp => ?_⟩
    obtain ⟨hus, hrt⟩ := h.routed p (mem_of_mem_filter_ne p hp)
    refine ⟨.tail _ hus, forall_mem_cons.mpr ⟨fun he => ?_, fun q hq => ?_⟩⟩
    · exact absurd hus (by rw [← show c = p.1 from he]; exact hc)
    · exact hrt q (kept q hq)
  · intro hm p hp
    rw [hid p hp]
    exact h.memory hm _ hsd
  · intro hs p hp
    rw [hid p hp]
    exact h.disk hs _ hsd
  · intro send' hs
    cases hs
    refine ⟨.head _, fun hre => forall_mem_cons.mpr ⟨rfl, fun p hp => ?_⟩⟩
    have hne := (mem_filter.mp hp).2
    exact absurd (hfs hre p (kept p hp)) (by simpa using hne)

theorem Steady.deliver {t : ed.World} (h : Steady ed w) {clears : Bool}
    (ht : nextWorld ed w (.deliver clears) = some t) : Steady ed t := by
  have reported := h.fewer w.network [] none (fun _ hn => hn) nofun nofun
  have unreported := h.fewer w.network w.pending none (fun _ hn => hn) (fun _ hp => hp) nofun
  simp only [nextWorld] at ht
  split at ht
  · split at ht
    · cases ht
      exact reported.release rfl clears
    · obtain ⟨err, herr, rfl⟩ := map_eq_some_iff.mp ht
      unfold World.fail
      rw [releases_trackedReply herr]
      split
      · exact reported.release rfl clears
      · exact unreported
    · cases ht
  · cases ht

theorem Steady.step {t : ed.World} {m} (h : Steady ed w) (hr : Retained w m)
    (hn : NotTurnedAway w m) (ht : (retrying ed).next w m = some t) : Steady ed t := by
  change nextWorld ed w m = some t at ht
  cases m with
  | press c minted now reads stores =>
    simp only [nextWorld] at ht
    split at ht
    next hgr =>
      cases ht
      exact h.press hgr.2 hr
    · cases ht
  | arrive c =>
    obtain ⟨id, hid, ht⟩ := bind_eq_some_iff.mp ht
    obtain ⟨s, hs, rfl⟩ := map_eq_some_iff.mp ht
    exact h.arrive hid hs
  | refuse c err clears =>
    obtain ⟨_, _, rfl⟩ := map_eq_some_iff.mp ht
    exact h.refuse clears hn
  | refresh c =>
    simp only [nextWorld] at ht
    split at ht
    next send hwt =>
      split at ht
      · rename_i hgr
        cases ht
        exact h.refresh hwt hgr.2
      · cases ht
    · cases ht
  | lose proxy =>
    obtain ⟨send, _, rfl⟩ := map_eq_some_iff.mp ht
    unfold World.fail
    rw [releases_unanswered]
    exact h.fewer _ _ _ (fun _ hn => hn) (fun _ hp => hp) nofun
  | deliver clears => exact h.deliver ht
  | reload =>
    cases ht
    exact ⟨h.server, h.known, h.same, h.carried, h.routed, nofun, fun _ => rfl, h.disk, nofun⟩
  | server a =>
    simp only [nextWorld] at ht
    split at ht
    next c available req =>
      split at ht
      · cases ht
      · rename_i hc
        obtain ⟨s, hs, rfl⟩ := map_eq_some_iff.mp ht
        refine h.serve hs _ _ (fun _ hn => hn) (fun _ hu => .tail _ hu) ?_
        rintro c' available' req' ⟨⟩
        exact ⟨.head _, fun p hp he => absurd (h.carried p hp).1 (by rw [he]; exact hc)⟩
    next hot =>
      obtain ⟨s, hs, rfl⟩ := map_eq_some_iff.mp ht
      exact h.serve hs _ _ (fun _ hn => hn) (fun _ hu => hu)
        fun c available req ha => absurd ha (hot c available req)

theorem steady_init (ed : Editor) : Steady ed (retrying ed).init where
  server := refuted_init ed.deps
  known _ h := absurd rfl h
  same _ h := nomatch h
  carried _ h := nomatch h
  routed _ h := nomatch h
  memory h := nomatch h
  unmounted _ := rfl
  disk h := nomatch h
  awaited _ h := nomatch h

theorem steady_run (ms : List (Move ed.deps.engine.Choice))
    (hm : (retrying ed).Meets (fun w m => Retained w m ∧ NotTurnedAway w m)
      (retrying ed).init ms) : Steady ed ((retrying ed).run ms) :=
  Machine.run_inv_of_meets (steady_init ed) (fun _ _ _ hc h ht => h.step hc.1 hc.2 ht) ms hm

theorem engineInvoked_operationID {d : Deps} {s} (h : Refuted d s)
    (hm : Event.engineInvoked c id ∈ s.log) :
    ∃ call, s.calls c = some call ∧ id = call.req.operationID := by
  obtain ⟨req, pc, hs, _⟩ := h.once.entered c id hm
  exact ⟨⟨req, pc⟩, hs, h.own c id req pc hs (h.once.ordered.inserted hm)⟩

theorem Steady.engineRuns_le_one (h : Steady ed w) : w.engineRuns ≤ 1 := by
  cases hp : w.pending with
  | nil =>
    have hno : w.engineRuns = 0 := by
      refine countP_eq_zero.mpr fun e _ he => ?_
      rw [hp] at he
      cases e <;> cases he
    omega
  | cons p ps =>
    have hmem : p ∈ w.pending := by rw [hp]; exact .head _
    have hle : w.engineRuns ≤ w.server.log.countP (Event.invokes p.2) := by
      refine countP_mono_left fun e he hran => ?_
      cases e with
      | engineInvoked c id =>
        obtain ⟨q, hq, hqc⟩ := any_eq_true.mp hran
        obtain ⟨call, hs, hid⟩ := engineInvoked_operationID h.server he
        have hqc : q.1 = c := by simpa using hqc
        have hreq := (h.carried q hq).2 call (by rw [hqc]; exact hs)
        refine invokes_iff.mpr ⟨c, ?_⟩
        rw [hid, hreq, h.same p hmem q hq]
        rfl
      | inserted | marked | cluster | responded => cases hran
    rw [countP_eq_length_filter] at hle
    exact Nat.le_trans hle (h.server.once.ordered.once p.2)

end

/-! ## The result -/

/-- **A retry keeps its id.** In every run inside the window in which no send is turned away with
an answer that gives the id up while an earlier one is unaccounted for: the sends of unreported
outcome carry one operation id and run the engine at most once, and after a refusal nothing ran
under its id. -/
theorem retry_keeps_operation_id (ed : Editor) (ms : List (Move ed.deps.engine.Choice))
    (hm : (retrying ed).Meets (fun w m => Retained w m ∧ NotTurnedAway w m) (retrying ed).init ms) :
    let w := (retrying ed).run ms
    (∀ p ∈ w.pending, ∀ q ∈ w.pending, p.2 = q.2) ∧ w.engineRuns ≤ 1 ∧
      ∀ c c' req e pc, w.server.calls c = some ⟨req, .returned (.error e)⟩ → e.settles = true →
        w.server.calls c' = some ⟨req, pc⟩ →
          Event.engineInvoked c' req.operationID ∉ w.server.log :=
  have h := steady_run ms hm
  ⟨h.same, h.engineRuns_le_one, fun _ _ _ _ _ hr he ho => h.server.ran_nothing hr he ho⟩

/-! ## A retry that is turned away -/

def firstId : Uuid := BitVec.ofNat 128 (4 <<< 76 + 1)
def secondId : Uuid := BitVec.ofNat 128 (4 <<< 76 + 2)

def oneDocumentEditor : Editor where
  deps := trackedDeps fun _ => "sha256:x"
  sha256Hex key := key
  requestKey := "k"
  request := ⟨0, none, some ⟨"u", "u"⟩, "", "", [], [⟨"", "v1", "ConfigMap", "ns", "a"⟩], false,
    .ok []⟩

abbrev OneDocumentMove := Move oneDocumentEditor.deps.engine.Choice

/-- Send `c` arrives and its call gets as far as the engine. -/
def reachesEngine (c : Nat) : List OneDocumentMove :=
  [.arrive c, .server (.insert c .none 1), .server (.mark c .none 2), .server (.invoke c)]

/-- The first send's answer is lost; the second is answered `err` in front of `TrackedApply`; the
third arrives. -/
def lostThenTurnedAway (err : Failure) : List OneDocumentMove :=
  [.press 0 firstId 0 true true] ++ reachesEngine 0 ++
    [.lose none, .press 1 secondId 1000 true true, .refuse 1 err true,
      .press 2 secondId 2000 true true] ++ reachesEngine 2

/-- A gateway's 502 keeps the id: the third send replays. -/
theorem retry_keeps_operation_id_badGateway : let ms := lostThenTurnedAway (.api 502 "" none none)
    (retrying oneDocumentEditor).Meets (fun w m => Retained w m ∧ NotTurnedAway w m)
        (retrying oneDocumentEditor).init ms ∧
      ((retrying oneDocumentEditor).run ms).pending = [(2, firstId), (0, firstId)] ∧
      ((retrying oneDocumentEditor).run ms).engineRuns ≤ 1 :=
  ⟨by decide, by decide, (retry_keeps_operation_id oneDocumentEditor _ (by decide)).2.1⟩

/-- A 429 gives the id up: the next press mints another, and the manifest is applied again. -/
theorem retry_after_rate_limit_applies_twice : let ms := lostThenTurnedAway (.api 429 "" none none)
    (retrying oneDocumentEditor).Meets Retained (retrying oneDocumentEditor).init ms ∧
      ((retrying oneDocumentEditor).run ms).pending = [(2, secondId), (0, firstId)] ∧
      ((retrying oneDocumentEditor).run ms).engineRuns = 2 := by
  decide

end KubeCenter.Client
