import KubeCenter.Notifications.Digest
import Mathlib.Tactic.IntervalCases

/-! # What the digests of a channel hold

The window of a digest starts at the `last_sent_at` of the cached channel, and the advance goes to
the database only. The windows tile where the cache is reloaded between the digests and no
notification is written between the query of a digest and its advance. -/
namespace KubeCenter.Notifications
open Lib Go List

/-! ## Exactly once -/

@[local simp] def DigestEvent.Holds (c id : ℕ) : DigestEvent → Prop
  | .sent _ c' rows => c' = c ∧ id ∈ rows.map Row.id
  | _ => False

instance (c id : ℕ) : DecidablePred (DigestEvent.Holds c id)
  | .sent _ _ _ => inferInstanceAs (Decidable (_ ∧ _))
  | .idle | .created _ | .committed _ | .passBegan _ _ | .passEnded _ | .queried _ _ _
  | .advanced _ _ _ => inferInstanceAs (Decidable False)

/-- The filters of the channel's rules let the row pass. -/
def digestSelects (rules : List Rule) (c : ℕ) (r : Row) : Bool :=
  ((digestSources rules c).isEmpty || (digestSources rules c).contains r.notification.source) &&
    ((digestSeverities rules c).isEmpty ||
      (digestSeverities rules c).contains r.notification.severity)

/-- No notification is held by two digests of the channel, and one that is created after a
digest of the run and is there when a later one begins is held by a digest when that one has
ended. -/
structure ExactlyOnce (rules : List Rule) (c : ℕ) (es : List DigestEvent) : Prop where
  atMost : ∀ (p p' : ℕ) (ev ev' : DigestEvent) (id : ℕ), es[p]? = some ev →
    es[p']? = some ev' → ev.Holds c id → ev'.Holds c id → p = p'
  atLeast : ∀ (w x x' y z k₀ k : ℕ) (t : Time) (r : Row),
    es[w]? = some (.passEnded k₀) → w < x → es[x]? = some (.created r) → x < x' →
    es[x']? = some (.committed r) → x' < y →
    es[y]? = some (.passBegan k t) → y < z → es[z]? = some (.passEnded k) →
    digestSelects rules c r = true →
    ∃ (p : ℕ) (ev : DigestEvent), p < z ∧ es[p]? = some ev ∧ ev.Holds c r.id

def Deliverable (channels : List Channel) (c : ℕ) : Prop :=
  c ∈ channels.map Channel.id ∧
    ∀ ch ∈ channels, ch.id = c → ch.type = .email ∧ channelRecipients ch ≠ []

def FewBetween (c : ℕ) (es : List DigestEvent) : Prop :=
  ∀ (w q k k' : ℕ) (t : Time) (total : ℕ), es[w]? = some (.advanced k c t) → w < q →
    es[q]? = some (.queried k' c total) → total ≤ maxSince

/-- What a query does not see is created after the advance that follows the query. -/
def Calm (c : ℕ) (es : List DigestEvent) : Prop :=
  ∀ (q a x k total : ℕ) (t : Time) (r : Row), es[q]? = some (.queried k c total) →
    es[a]? = some (.advanced k c t) → q < x → es[x]? = some (.committed r) → t < r.createdAt

/-- The cache is up to date whenever a digest begins, and no operation of a digest fails. A reload
between two digests is a restart or a save of a channel or rule that changes nothing: the source has
no other. -/
structure Smooth (start : DigestStart) (history : List DigestAction) : Prop where
  upToDate : ∀ before smtp after, history = before ++ .sendDigests smtp :: after →
    ((digestService start).run before).cachedChannels =
        ((digestService start).run before).channels ∧
      ((digestService start).run before).cachedRules = ((digestService start).run before).rules
  succeeds : ∀ ok appNow, .step ok appNow ∈ history → ok = true

/-! ## The steps of a smooth run -/

inductive DigestMove (s : DigestService) : DigestEvent → DigestService → Prop
  /-- A rollback, a reload, time, or nothing. -/
  | quiet {s'} (hrows : s'.rows = s.rows) (hwriting : s'.writing.Sublist s.writing)
      (hchannels : s'.channels = s.channels) (hrules : s'.rules = s.rules)
      (hpass : s'.pass = s.pass) (hpasses : s'.passes = s.passes)
      (hinserted : s'.inserted = s.inserted) (hnow : s.now ≤ s'.now) : DigestMove s .idle s'
  | created (n : Notification) : DigestMove s (.created ⟨s.inserted, n, s.now⟩) { s with
          writing := s.writing ++ [⟨s.inserted, n, s.now⟩], inserted := s.inserted + 1 }
  | committed {r} (hr : r ∈ s.writing) : DigestMove s (.committed r)
        { s with rows := s.rows ++ [r], writing := s.writing.filter (·.id ≠ r.id) }
  | began (hpass : s.pass = none) (hchannels : s.cachedChannels = s.channels)
      (hrules : s.cachedRules = s.rules) :
      DigestMove s (.passBegan s.passes s.now) { s with
          passes := s.passes + 1
          pass := some ⟨s.passes, s.cachedRules, s.cachedChannels, .next⟩ }
  | ended {p} (hpass : s.pass = some p) (hstage : p.stage = .next) (hrest : p.rest = []) :
      DigestMove s (.passEnded p.number) { s with pass := none }
  | skipped {p ch rest} (hpass : s.pass = some p) (hstage : p.stage = .next)
      (hrest : p.rest = ch :: rest) (hskip : ch.type ≠ .email ∨ channelRecipients ch = []) :
      DigestMove s .idle { s with pass := some { p with rest } }
  | queried {p ch rest} (since : Time) (hpass : s.pass = some p) (hstage : p.stage = .next)
      (hrest : p.rest = ch :: rest) (hsince : ∀ t, ch.lastSentAt = some t → since = t) :
      DigestMove s (.queried p.number ch.id (digestTotal p.rules ch.id s.rows since)) { s with
          pass := some { p with
            rest, stage := .advance ch.id (digestRows p.rules ch.id s.rows since) } }
  | advanced {p c rows} (hpass : s.pass = some p) (hstage : p.stage = .advance c rows) :
      DigestMove s (.advanced p.number c s.now) { s with
          channels := updateChannelLastSent s.channels c s.now
          pass := some { p with stage := if rows = [] then .next else .send c rows } }
  | sent {p c rows} (hpass : s.pass = some p) (hstage : p.stage = .send c rows) :
      DigestMove s (.sent p.number c (sanitizeForEmailDigest rows))
        { s with pass := some { p with stage := .next } }

theorem DigestMove.same (s : DigestService) : DigestMove s .idle s :=
  .quiet rfl (.refl _) rfl rfl rfl rfl rfl le_rfl

theorem move_of_react {s : DigestService} {a} (hca : ∀ smtp, a = .sendDigests smtp →
      s.cachedChannels = s.channels ∧ s.cachedRules = s.rules)
    (hok : ∀ ok appNow, a = .step ok appNow → ok = true) :
    DigestMove s (s.react a).1 (s.react a).2 := by
  cases a with
  | insert n => exact .created n
  | commit id =>
    simp only [DigestService.react, DigestService.commit]
    split
    next r hr =>
      have hid : r.id = id := by simpa using find?_some hr
      subst hid
      exact .committed (mem_of_find?_eq_some hr)
    · exact .same s
  | rollback id => exact .quiet rfl filter_sublist rfl rfl rfl rfl rfl le_rfl
  | loadCache => exact .quiet rfl (.refl _) rfl rfl rfl rfl rfl le_rfl
  | storeCache i =>
    simp only [DigestService.react]
    split
    · exact .quiet rfl (.refl _) rfl rfl rfl rfl rfl le_rfl
    · exact .same s
  | sendDigests smtp =>
    obtain ⟨hcha, hrl⟩ := hca smtp rfl
    simp only [DigestService.react]
    split
    next hbeg => exact .began (Option.isNone_iff_eq_none.mp hbeg.1) hcha hrl
    · exact .same s
  | step ok appNow =>
    obtain rfl := hok ok appNow rfl
    simp only [DigestService.react]
    split
    next p hpa =>
      unfold DigestService.step
      split
      · rename_i hsta
        unfold DigestService.visit
        split
        · rename_i hrs
          exact .ended hpa hsta hrs
        · rename_i ch rest hrs
          split
          · rename_i hsk
            exact .skipped hpa hsta hrs hsk
          · exact .queried _ hpa hsta hrs fun t ht => by rw [ht]; rfl
      · rename_i hsta
        exact .advanced hpa hsta
      · rename_i hsta
        exact .sent hpa hsta
    · exact .same s
  | elapse d =>
    exact .quiet rfl (.refl _) rfl rfl rfl rfl rfl
      (Int.le_add_of_nonneg_right (Int.natCast_nonneg d))

/-! ## The shape of the state -/

/-- The stored `last_sent_at` of a channel. -/
def cursor (channels : List Channel) (c : ℕ) : Option Time :=
  (channels.find? (·.id = c)).bind Channel.lastSentAt

variable {channels : List Channel} {c : ℕ}

theorem cursor_of_mem (hids : (channels.map Channel.id).Nodup) {ch : Channel} (hch : ch ∈ channels)
    : cursor channels ch.id = ch.lastSentAt := by
  induction channels with
  | nil => cases hch
  | cons x xs ih =>
    obtain ⟨hx, hxs⟩ := nodup_cons.mp hids
    rcases mem_cons.mp hch with rfl | hmem
    · simp [cursor]
    · have hne : x.id ≠ ch.id := fun h => hx (h ▸ mem_map_of_mem hmem)
      have hrs := ih hxs hmem
      simpa [cursor, find?_cons, hne] using hrs

theorem cursor_update_self (hc : c ∈ channels.map Channel.id) (now : Time) :
    cursor (updateChannelLastSent channels c now) c = some now := by
  induction channels with
  | nil => cases hc
  | cons x xs ih =>
    by_cases hx : x.id = c
    · simp [cursor, updateChannelLastSent, hx]
    · have hrs := ih (by simpa [Ne.symm hx] using hc)
      simpa [cursor, updateChannelLastSent, find?_cons, hx] using hrs

theorem cursor_update_of_ne {c' : ℕ} (hne : c' ≠ c) (now : Time) :
    cursor (updateChannelLastSent channels c' now) c = cursor channels c := by
  induction channels with
  | nil => rfl
  | cons x xs ih =>
    by_cases hx : x.id = c'
    · simpa [cursor, updateChannelLastSent, find?_cons, hx, hne] using ih
    · by_cases hxc : x.id = c
      · simp [cursor, updateChannelLastSent, hxc, hne.symm]
      · simpa [cursor, updateChannelLastSent, find?_cons, hx, hxc] using ih

theorem updateChannelLastSent_ids (channels : List Channel) (c : ℕ) (now : Time) :
    (updateChannelLastSent channels c now).map Channel.id = channels.map Channel.id := by
  simp only [updateChannelLastSent, map_map]
  refine map_congr_left fun ch _ => ?_
  simp only [Function.comp]
  split <;> rfl

theorem Deliverable.update (h : Deliverable channels c) (c' : ℕ) (now : Time) :
    Deliverable (updateChannelLastSent channels c' now) c := by
  refine ⟨by rw [updateChannelLastSent_ids]; exact h.1, fun ch hch hid => ?_⟩
  obtain ⟨old, hold, rfl⟩ := mem_map.mp hch
  by_cases hsm : old.id = c'
  · rw [if_pos hsm] at hid ⊢
    exact h.2 old hold hid
  · rw [if_neg hsm] at hid ⊢
    exact h.2 old hold hid

@[local simp] def PassStage.channel : PassStage → Option ℕ
  | .next => none
  | .advance c _ => some c
  | .send c _ => some c

/-- A pass that began with what is stored. -/
structure PassShaped (c : ℕ) (s : DigestService) (p : Pass) : Prop where
  number : p.number < s.passes
  rules : p.rules = s.rules
  restIDs : (p.rest.map Channel.id).Nodup
  current : ∀ ch ∈ p.rest, ch.id = c → ch ∈ s.channels
  behind : ∀ c', p.stage.channel = some c' → c' ∉ p.rest.map Channel.id

structure Shaped (start : DigestStart) (c : ℕ) (s : DigestService) : Prop where
  rules : s.rules = start.rules
  channelIDs : (s.channels.map Channel.id).Nodup
  deliverable : Deliverable s.channels c
  rowIDs : ((s.rows ++ s.writing).map Row.id).Nodup
  created : ∀ r ∈ s.rows ++ s.writing, r.id < s.inserted ∧ r.createdAt ≤ s.now
  pass : ∀ p, s.pass = some p → PassShaped c s p

section Shape

variable {start : DigestStart} {c : ℕ} {s s' : DigestService} {ev : DigestEvent}

theorem Shaped.created_move (h : Shaped start c s) (n : Notification) : Shaped start c { s with
      writing := s.writing ++ [⟨s.inserted, n, s.now⟩], inserted := s.inserted + 1 } where
  rules := h.rules
  channelIDs := h.channelIDs
  deliverable := h.deliverable
  rowIDs := by
    rw [← append_assoc, map_append, nodup_append]
    refine ⟨h.rowIDs, by simp, fun id hid id' hid' => ?_⟩
    obtain ⟨r, hr, rfl⟩ := mem_map.mp hid
    obtain rfl : id' = s.inserted := by simpa using hid'
    exact ne_of_lt (h.created r hr).1
  created r hr := by
    rw [← append_assoc] at hr
    rcases mem_concat hr with hold | rfl
    · exact ⟨Nat.lt_succ_of_lt (h.created r hold).1, (h.created r hold).2⟩
    · exact ⟨Nat.lt_succ_self _, le_rfl⟩
  pass p hp := { h.pass p hp with }

theorem Shaped.committed_move (h : Shaped start c s) {r : Row} (hr : r ∈ s.writing) :
    Shaped start c { s with
      rows := s.rows ++ [r], writing := s.writing.filter (·.id ≠ r.id) } where
  rules := h.rules
  channelIDs := h.channelIDs
  deliverable := h.deliverable
  rowIDs := by
    obtain ⟨hrw, hwr, hds⟩ := nodup_append.mp (map_append ▸ h.rowIDs)
    rw [append_assoc, map_append, nodup_append, singleton_append, map_cons, nodup_cons]
    refine ⟨hrw, ⟨by simp, hwr.sublist (filter_sublist.map _)⟩, ?_⟩
    intro id hid id' hid'
    refine hds id hid id' ?_
    rcases mem_cons.mp hid' with rfl | hid'
    · exact mem_map_of_mem hr
    · exact (filter_sublist.map _).subset hid'
  created r' hr' := by
    refine h.created r' ?_
    rw [append_assoc, mem_append, singleton_append, mem_cons] at hr'
    rcases hr' with hold | rfl | hop
    · exact mem_append_left _ hold
    · exact mem_append_right _ hr
    · exact mem_append_right _ (mem_of_mem_filter hop)
  pass p hp := { h.pass p hp with }

theorem Shaped.setPass (h : Shaped start c s) {p' : Pass} (hp' : PassShaped c s p') :
    Shaped start c { s with pass := some p' } :=
  { h with
    pass := fun p hp => by
      cases hp
      exact { hp' with } }

theorem Shaped.move (h : Shaped start c s) (hm : DigestMove s ev s') : Shaped start c s' := by
  cases hm with
  | quiet hrw hwr hcha hrl hpa hpas hins hnow =>
    have hsub : (s'.rows ++ s'.writing).Sublist (s.rows ++ s.writing) := by
      rw [hrw]
      exact (List.Sublist.refl _).append hwr
    refine ⟨hrl.trans h.rules, hcha ▸ h.channelIDs, hcha ▸ h.deliverable,
      h.rowIDs.sublist (hsub.map _), fun r hr => ?_, fun p hp => ?_⟩
    · rw [hins]
      exact ⟨(h.created r (hsub.subset hr)).1, le_trans (h.created r (hsub.subset hr)).2 hnow⟩
    · have hsh := h.pass p (hpa ▸ hp)
      exact ⟨hpas ▸ hsh.number, hsh.rules.trans hrl.symm, hsh.restIDs,
        hcha ▸ hsh.current, hsh.behind⟩
  | created n => exact h.created_move n
  | committed hr => exact h.committed_move hr
  | began hpa hcha hrl =>
    refine { h with pass := fun p hp => ?_ }
    cases hp
    exact ⟨Nat.lt_succ_self _, hrl, by rw [hcha]; exact h.channelIDs,
      fun ch hch _ => hcha ▸ hch, by simp⟩
  | ended hpa hsta hrs => exact { h with pass := fun p hp => by cases hp }
  | @skipped p ch rest hpa hsta hrs hsk =>
    obtain ⟨hnm, hrl, hids, hcu, -⟩ := h.pass p hpa
    rw [hrs] at hids hcu
    exact h.setPass ⟨hnm, hrl, (nodup_cons.mp hids).2,
      fun x hx => hcu x (mem_cons_of_mem _ hx), by simp [hsta]⟩
  | @queried p ch rest since hpa hsta hrs hsi =>
    obtain ⟨hnm, hrl, hids, hcu, -⟩ := h.pass p hpa
    rw [hrs] at hids hcu
    refine h.setPass ⟨hnm, hrl, (nodup_cons.mp hids).2,
      fun x hx => hcu x (mem_cons_of_mem _ hx), fun c' hc' => ?_⟩
    cases hc'
    exact (nodup_cons.mp hids).1
  | @advanced p c' rows hpa hsta =>
    obtain ⟨hnm, hrl, hids, hcu, hbh⟩ := h.pass p hpa
    have hgo := hbh c' (by rw [hsta]; rfl)
    refine ⟨h.rules, by rw [updateChannelLastSent_ids]; exact h.channelIDs,
      h.deliverable.update c' s.now, h.rowIDs, h.created, fun p' hp' => ?_⟩
    cases hp'
    refine ⟨hnm, hrl, hids, fun ch hch hid => ?_, fun c'' hc'' => ?_⟩
    · -- A channel still to come is another one, so its row is as it was.
      have hne : ch.id ≠ c' := fun heq => hgo (heq ▸ mem_map_of_mem hch)
      exact mem_map.mpr ⟨ch, hcu ch hch hid, if_neg hne⟩
    · dsimp only at hc''
      split at hc''
      · cases hc''
      · cases hc''
        exact hgo
  | @sent p c' rows hpa hsta =>
    obtain ⟨hnm, hrl, hids, hcu, -⟩ := h.pass p hpa
    exact h.setPass ⟨hnm, hrl, hids, hcu, by simp⟩

end Shape

/-! ## Windows that tile -/

def Held (c : ℕ) (es : List DigestEvent) (id : ℕ) : Prop := ∃ ev ∈ es, ev.Holds c id

def Late (c : ℕ) (es : List DigestEvent) (r : Row) : Prop :=
  ∃ (w x k : ℕ) (t : Time), w < x ∧ es[w]? = some (.advanced k c t) ∧ es[x]? = some (.committed r)

def Behind (channels : List Channel) (c : ℕ) (r : Row) : Prop :=
  ∃ a, cursor channels c = some a ∧ r.createdAt ≤ a

def Ahead (channels : List Channel) (c : ℕ) (r : Row) : Prop :=
  ∀ a, cursor channels c = some a → a < r.createdAt

@[local simp] def DigestService.stage (s : DigestService) : PassStage :=
  match s.pass with
  | some p => p.stage
  | none => .next

/-- The pass `k` is not running, or is done with the channel. -/
def DoneWith (s : DigestService) (c k : ℕ) : Prop :=
  ∀ p, s.pass = some p → p.number = k →
    c ∉ p.rest.map Channel.id ∧ ∀ rows, p.stage ≠ .advance c rows

/-- What was sent is behind the cursor, and what came late and is behind it was sent, or is about
to be. -/
structure Tiled (rules : List Rule) (c : ℕ) (s : DigestService) (es : List DigestEvent) :
    Prop where
  seen : ∀ r, .committed r ∈ es → r ∈ s.rows
  held : ∀ id, Held c es id → ∃ r ∈ s.rows, r.id = id ∧ Behind s.channels c r
  once : ∀ (p p' : ℕ) (ev ev' : DigestEvent) (id : ℕ), es[p]? = some ev → es[p']? = some ev' →
    ev.Holds c id → ev'.Holds c id → p = p'
  /-- Every advance follows a query of its pass. -/
  window : ∀ (w k : ℕ) (t : Time), es[w]? = some (.advanced k c t) →
    ∃ q total, q < w ∧ es[q]? = some (.queried k c total)
  /-- The cursor is where an advance left it. -/
  latest : ∀ (k : ℕ) (t : Time), .advanced k c t ∈ es →
    ∃ k' t', .advanced k' c t' ∈ es ∧ cursor s.channels c = some t'
  late : ∀ r, Late c es r → digestSelects rules c r = true → Behind s.channels c r →
    Held c es r.id ∨ ∃ rows, s.stage = .send c rows ∧ r ∈ rows
  /-- All of a queried batch is ahead, and what is ahead and not in it came after the query. -/
  batch : ∀ p rows, s.pass = some p → p.stage = .advance c rows →
    (rows.map Row.id).Nodup ∧ (∀ r ∈ rows, r ∈ s.rows ∧ Ahead s.channels c r) ∧
      ∃ (q total : ℕ), es[q]? = some (.queried p.number c total) ∧
        ∀ r, Late c es r → digestSelects rules c r = true → Ahead s.channels c r →
          r ∈ rows ∨ ∃ x : ℕ, q < x ∧ es[x]? = some (.committed r)
  /-- A batch that is about to be sent is behind the cursor and was not sent before. -/
  outgoing : ∀ rows, s.stage = .send c rows → ∀ r ∈ rows,
    r ∈ s.rows ∧ Behind s.channels c r ∧ ¬ Held c es r.id
  began : ∀ (y k : ℕ) (t : Time), es[y]? = some (.passBegan k t) → k < s.passes ∧ t ≤ s.now ∧
    ∀ (x : ℕ) (r : Row), x < y → es[x]? = some (.committed r) → r.createdAt ≤ t
  /-- A pass that is done with the channel has moved the cursor past its begin. -/
  past : ∀ (k : ℕ) (t : Time), .passBegan k t ∈ es → DoneWith s c k →
    (∃ t', .advanced k c t' ∈ es) ∧ ∃ a, cursor s.channels c = some a ∧ t ≤ a
  ended : ∀ k, .passEnded k ∈ es → (∃ t, .passBegan k t ∈ es) ∧
    ∀ p, s.pass = some p → p.number ≠ k
  running : ∀ p, s.pass = some p → ∃ t, .passBegan p.number t ∈ es

section Tiles

variable {rules : List Rule} {c : ℕ} {s s' : DigestService} {es : List DigestEvent}
  {ev : DigestEvent}

theorem getElem?_append_of_some {rest} {x : ℕ} {e} (h : es[x]? = some e) :
    (es ++ rest)[x]? = some e := by
  rw [List.getElem?_append_left (List.getElem?_eq_some_iff.mp h).1]
  exact h

/-- The event concerns neither the channel nor the passes nor the rows. -/
@[local simp] def DigestEvent.neutral (c : ℕ) : DigestEvent → Bool
  | .idle | .created _ => true
  | .queried _ c' _ | .advanced _ c' _ | .sent _ c' _ => c' != c
  | .committed _ | .passBegan _ _ | .passEnded _ => false

theorem held_concat {id : ℕ} : Held c (es ++ [ev]) id ↔ Held c es id ∨ ev.Holds c id := by
  constructor
  · rintro ⟨e, he, hhl⟩
    rcases mem_concat he with he | he
    · exact .inl ⟨e, he, hhl⟩
    · exact .inr (he ▸ hhl)
  · rintro (⟨e, he, hhl⟩ | h)
    · exact ⟨e, mem_append_left _ he, hhl⟩
    · exact ⟨ev, by simp, h⟩

variable {p : Pass} {r : Row}

theorem late_concat (h : Late c (es ++ [ev]) r) :
    Late c es r ∨ (ev = .committed r ∧ ∃ k t, .advanced k c t ∈ es) := by
  obtain ⟨w, x, k, t, hwx, hw, hx⟩ := h
  rcases getElem?_concat_cases hx with hx | ⟨rfl, hev⟩
  · rcases getElem?_concat_cases hw with hw | ⟨rfl, -⟩
    · exact .inl ⟨w, x, k, t, hwx, hw, hx⟩
    · have := (List.getElem?_eq_some_iff.mp hx).1
      omega
  · rcases getElem?_concat_cases hw with hw | ⟨rfl, -⟩
    · exact .inr ⟨hev.symm, k, t, mem_of_getElem? hw⟩
    · omega

theorem neutral_not_holds (h : ev.neutral c = true) (id : ℕ) : ¬ ev.Holds c id := by
  cases ev <;> simp_all

theorem mem_of_concat_ne {e} (h : e ∈ es ++ [ev]) (hne : ev ≠ e) : e ∈ es :=
  (mem_concat h).resolve_right hne.symm

theorem DoneWith.of_pass {k : ℕ} (hpa : s.pass = some p)
    (h : p.number = k → c ∉ p.rest.map Channel.id ∧ ∀ rows, p.stage ≠ .advance c rows) :
    DoneWith s c k := by
  intro p' hp' hnum
  cases hpa.symm.trans hp'
  exact h hnum

theorem ahead_of_not_behind (hr : ¬ Behind s.channels c r) : Ahead s.channels c r := by
  intro a ha
  by_contra hle
  exact hr ⟨a, ha, not_lt.mp hle⟩

theorem sanitizeForEmailDigest_ids (rows : List Row) :
    (sanitizeForEmailDigest rows).map Row.id = rows.map Row.id := by
  simp only [sanitizeForEmailDigest, map_map]
  refine map_congr_left fun r _ => ?_
  simp only [Function.comp, sanitizeRow]
  split <;> rfl

section

variable (h : Tiled rules c s es)
include h

/-- The step that extends the trace keeps the rows, moves the cursor only by an advance, and
changes the pass only by its begin and its end; what the stage of the pass says is left to show. -/
theorem Tiled.extend (hrw : s.rows ⊆ s'.rows) (hcm : ∀ r, ev = .committed r →
      r ∈ s'.rows ∧ ∀ k t, .advanced k c t ∈ es → ¬ Behind s'.channels c r)
    (hbh : ∀ r ∈ s.rows, Behind s.channels c r → Behind s'.channels c r)
    (hhl : ∀ id, ev.Holds c id →
      (∃ r ∈ s'.rows, r.id = id ∧ Behind s'.channels c r) ∧ ¬ Held c es id)
    (had : ∀ k t, ev = .advanced k c t → s.now ≤ t ∧
      (∃ q total : ℕ, es[q]? = some (.queried k c total)) ∧ cursor s'.channels c = some t)
    (hcr : (∀ k t, ev ≠ .advanced k c t) → cursor s'.channels c = cursor s.channels c)
    (hpas : s.passes ≤ s'.passes) (hnow : s.now ≤ s'.now)
    (hbg : ∀ k t, ev = .passBegan k t → k < s'.passes ∧ t ≤ s'.now ∧
      (∀ r ∈ s.rows, r.createdAt ≤ t) ∧ ¬ DoneWith s' c k)
    (hla : ∀ r, Late c es r → digestSelects rules c r = true → Behind s'.channels c r →
      (Held c es r.id ∨ ev.Holds c r.id) ∨ ∃ rows, s'.stage = .send c rows ∧ r ∈ rows)
    (hbt : ∀ p rows, s'.pass = some p → p.stage = .advance c rows →
      (rows.map Row.id).Nodup ∧ (∀ r ∈ rows, r ∈ s'.rows ∧ Ahead s'.channels c r) ∧
        ∃ (q total : ℕ), (es ++ [ev])[q]? = some (.queried p.number c total) ∧
          ∀ r, Late c es r → digestSelects rules c r = true → Ahead s'.channels c r →
            r ∈ rows ∨ ∃ x : ℕ, q < x ∧ es[x]? = some (.committed r))
    (hout : ∀ rows, s'.stage = .send c rows → ∀ r ∈ rows,
      r ∈ s'.rows ∧ Behind s'.channels c r ∧ ¬ (Held c es r.id ∨ ev.Holds c r.id))
    (hdn : ∀ k, DoneWith s' c k → (∃ t, ev = .advanced k c t) ∨ DoneWith s c k)
    (hpa : ∀ p', s'.pass = some p' → (∃ p, s.pass = some p ∧ p.number = p'.number) ∨
      p'.number = s.passes ∧ ∃ t, ev = .passBegan p'.number t)
    (hend : ∀ k, ev = .passEnded k → s'.pass = none ∧ ∃ p, s.pass = some p ∧ p.number = k) :
    Tiled rules c s' (es ++ [ev]) := by
  have hbe {k : ℕ} (hk : ∃ t, .passBegan k t ∈ es) : ∃ t, .passBegan k t ∈ es ++ [ev] :=
    hk.imp fun _ => mem_append_left _
  refine ⟨?_, ?_, ?_, ?_, ?_, ?_, ?_, ?_, ?_, ?_, ?_, ?_⟩
  · intro r hr
    by_cases hev : ev = .committed r
    · exact (hcm r hev).1
    · exact hrw (h.seen r (mem_of_concat_ne hr hev))
  · intro id hid
    rcases held_concat.mp hid with hold | hnew
    · obtain ⟨r, hr, hrid, hb⟩ := h.held id hold
      exact ⟨r, hrw hr, hrid, hbh r hr hb⟩
    · exact (hhl id hnew).1
  · -- What is sent now was not sent before.
    intro p p' e e' id hp hp' he he'
    rcases getElem?_concat_cases hp with hold | ⟨hls, hnew⟩ <;>
      rcases getElem?_concat_cases hp' with hold' | ⟨hls', hnew'⟩
    · exact h.once p p' e e' id hold hold' he he'
    · exact absurd ⟨e, mem_of_getElem? hold, he⟩ (hhl id (hnew' ▸ he')).2
    · exact absurd ⟨e', mem_of_getElem? hold', he'⟩ (hhl id (hnew ▸ he)).2
    · rw [hls, hls']
  · intro w k t hw
    rcases getElem?_concat_cases hw with hw | ⟨rfl, hev⟩
    · obtain ⟨q, total, hqw, hq⟩ := h.window w k t hw
      exact ⟨q, total, hqw, getElem?_append_of_some hq⟩
    · obtain ⟨-, ⟨q, total, hq⟩, -⟩ := had k t hev.symm
      exact ⟨q, total, (List.getElem?_eq_some_iff.mp hq).1, getElem?_append_of_some hq⟩
  · intro k t hadv
    by_cases hev : ∃ k' t', ev = .advanced k' c t'
    · obtain ⟨k', t', rfl⟩ := hev
      exact ⟨k', t', by simp, (had k' t' rfl).2.2⟩
    · have hno : ∀ k' t', ev ≠ .advanced k' c t' := fun k' t' he => hev ⟨k', t', he⟩
      obtain ⟨k', t', hmem, hcur⟩ := h.latest k t (mem_of_concat_ne hadv (hno k t))
      exact ⟨k', t', mem_append_left _ hmem, (hcr hno).trans hcur⟩
  · intro r hr hsel hb
    rw [held_concat]
    rcases late_concat hr with hr | ⟨hev, k, t, hadv⟩
    · exact hla r hr hsel hb
    · exact absurd hb ((hcm r hev).2 k t hadv)
  · intro p rows hp hsta
    obtain ⟨hnd, hin, q, total, hq, hrs⟩ := hbt p rows hp hsta
    refine ⟨hnd, hin, q, total, hq, fun r hr hsel hah => ?_⟩
    rcases late_concat hr with hr | ⟨rfl, -⟩
    · exact (hrs r hr hsel hah).imp_right fun ⟨x, hqx, hx⟩ => ⟨x, hqx, getElem?_append_of_some hx⟩
    · -- The query was before the step that commits the row.
      rcases getElem?_concat_cases hq with hq | ⟨-, ⟨⟩⟩
      exact .inr ⟨es.length, (List.getElem?_eq_some_iff.mp hq).1, by simp⟩
  · intro rows hsta r hr
    rw [held_concat]
    exact hout rows hsta r hr
  · intro y k t hy
    have her : ∀ (x : ℕ) (r : Row), x < y → (es ++ [ev])[x]? = some (.committed r) →
        es[x]? = some (.committed r) := by
      intro x r hxy hx
      have hyl := (List.getElem?_eq_some_iff.mp hy).1
      rw [length_append, length_singleton] at hyl
      rcases getElem?_concat_cases hx with hx | ⟨rfl, -⟩
      · exact hx
      · omega
    rcases getElem?_concat_cases hy with hy | ⟨rfl, hev⟩
    · obtain ⟨hk, ht, hx⟩ := h.began y k t hy
      exact ⟨Nat.lt_of_lt_of_le hk hpas, le_trans ht hnow,
        fun x r hxy hxr => hx x r hxy (her x r hxy hxr)⟩
    · obtain ⟨hk, ht, hr, -⟩ := hbg k t hev.symm
      exact ⟨hk, ht, fun x r hxy hxr => hr r (h.seen r (mem_of_getElem? (her x r hxy hxr)))⟩
  · intro k t hk hd
    have hold := mem_of_concat_ne hk fun hev => (hbg k t hev).2.2.2 hd
    obtain ⟨y, hy⟩ := mem_iff_getElem?.mp hold
    by_cases hev : ∃ k' t', ev = .advanced k' c t'
    · obtain ⟨k', t', rfl⟩ := hev
      obtain ⟨hle, -, hcur⟩ := had k' t' rfl
      refine ⟨?_, t', hcur, le_trans (h.began y k t hy).2.1 hle⟩
      rcases hdn k hd with ⟨t₁, heq⟩ | hd
      · exact ⟨t₁, by simp [heq]⟩
      · obtain ⟨⟨t₁, ht₁⟩, -⟩ := h.past k t hold hd
        exact ⟨t₁, mem_append_left _ ht₁⟩
    · have hno : ∀ k' t', ev ≠ .advanced k' c t' := fun k' t' he => hev ⟨k', t', he⟩
      have hd := (hdn k hd).resolve_left fun ⟨t', he⟩ => hno k t' he
      obtain ⟨⟨t', ht'⟩, hcur⟩ := h.past k t hold hd
      exact ⟨⟨t', mem_append_left _ ht'⟩, hcr hno ▸ hcur⟩
  · intro k hk
    by_cases hev : ev = .passEnded k
    · obtain ⟨hno, p, hp, rfl⟩ := hend k hev
      exact ⟨hbe (h.running p hp), by simp [hno]⟩
    · obtain ⟨⟨t, ht⟩, hot⟩ := h.ended k (mem_of_concat_ne hk hev)
      refine ⟨hbe ⟨t, ht⟩, fun p' hp' => ?_⟩
      rcases hpa p' hp' with ⟨p, hp, hnum⟩ | ⟨hnum, -⟩
      · exact hnum ▸ hot p hp
      · obtain ⟨y, hy⟩ := mem_iff_getElem?.mp ht
        exact hnum ▸ Nat.ne_of_gt (h.began y k t hy).1
  · intro p' hp'
    rcases hpa p' hp' with ⟨p, hp, hnum⟩ | ⟨-, t, rfl⟩
    · exact hnum ▸ hbe (h.running p hp)
    · exact ⟨t, by simp⟩

theorem Tiled.keep (hev : ev.neutral c = true)
    (hrw : s'.rows = s.rows) (hcr : cursor s'.channels c = cursor s.channels c)
    (hpas : s'.passes = s.passes) (hnow : s.now ≤ s'.now)
    (hsd : ∀ rows, s'.stage = .send c rows ↔ s.stage = .send c rows)
    (hadvance : ∀ p' rows, s'.pass = some p' → p'.stage = .advance c rows →
      ∃ p, s.pass = some p ∧ p.stage = .advance c rows ∧ p'.number = p.number)
    (hdn : ∀ k, DoneWith s' c k → DoneWith s c k)
    (hnm : ∀ p', s'.pass = some p' → ∃ p, s.pass = some p ∧ p.number = p'.number) :
    Tiled rules c s' (es ++ [ev]) := by
  have hbh : ∀ r, Behind s'.channels c r ↔ Behind s.channels c r := by simp [Behind, hcr]
  have hahe : ∀ r, Ahead s'.channels c r ↔ Ahead s.channels c r := by simp [Ahead, hcr]
  have hot : ∀ e : DigestEvent, e.neutral c = false → ev ≠ e := by
    rintro e he rfl
    rw [hev] at he
    cases he
  refine h.extend (by rw [hrw]; exact fun _ => id) ?_ ?_ ?_ ?_ (fun _ => hcr)
    (le_of_eq hpas.symm) hnow ?_ ?_ ?_ ?_ (fun k hd => .inr (hdn k hd))
    (fun p' hp' => .inl (hnm p' hp')) ?_
  · exact fun r hr => absurd hr (hot _ rfl)
  · exact fun r _ => (hbh r).mpr
  · exact fun id hid => absurd hid (neutral_not_holds hev id)
  · exact fun k t ht => absurd ht (hot _ (by simp))
  · exact fun k t ht => absurd ht (hot _ rfl)
  · intro r hr hsel hb
    simp only [hsd]
    exact (h.late r hr hsel ((hbh r).mp hb)).imp_left .inl
  · intro p' rows hp' hsta
    obtain ⟨p, hp, hps, hnum⟩ := hadvance p' rows hp' hsta
    obtain ⟨hnd, hin, q, total, hq, hrs⟩ := h.batch p rows hp hps
    simp only [hrw, hahe]
    exact ⟨hnd, hin, q, total, hnum ▸ getElem?_append_of_some hq, hrs⟩
  · intro rows hsta r hr
    rw [hrw, hbh, or_iff_left (neutral_not_holds hev _)]
    exact h.outgoing rows ((hsd rows).mp hsta) r hr
  · exact fun k hk => absurd hk (hot _ rfl)

theorem Tiled.not_behind_of_committed {k : ℕ} {t : Time}
    (hcal : Calm c (es ++ [.committed r])) (hadv : .advanced k c t ∈ es) :
    ¬ Behind s.channels c r := by
  obtain ⟨k', t', hmem, hcr⟩ := h.latest k t hadv
  obtain ⟨w, hw⟩ := List.mem_iff_getElem?.mp hmem
  obtain ⟨q, total, hqw, hq⟩ := h.window w k' t' hw
  have hln := (List.getElem?_eq_some_iff.mp hq).1
  have haf : t' < r.createdAt := hcal q w es.length k' total t' r (getElem?_append_of_some hq)
    (getElem?_append_of_some hw) hln (by simp)
  rintro ⟨a, ha, hle⟩
  cases ha.symm.trans hcr
  exact absurd haf (not_lt.mpr hle)

theorem Tiled.committed_move (hcal : Calm c (es ++ [.committed r])) (writing : List Row) :
    Tiled rules c { s with rows := s.rows ++ [r], writing } (es ++ [.committed r]) := by
  have hold : s.rows ⊆ s.rows ++ [r] := subset_append_left _ _
  refine h.extend hold ?_ (fun _ _ => id) (by simp) (by simp) (fun _ => rfl)
    le_rfl le_rfl (by simp) (fun r' hr' hsel hb => (h.late r' hr' hsel hb).imp_left .inl)
    ?_ ?_ (fun _ => .inr) (fun p hp => .inl ⟨p, hp, rfl⟩) (by simp)
  · intro r' hr'
    obtain rfl := DigestEvent.committed.inj hr'
    exact ⟨mem_append_right _ mem_cons_self, fun k t hadv => h.not_behind_of_committed hcal hadv⟩
  · intro p rows hp hsta
    obtain ⟨hnd, hin, q, total, hq, hrs⟩ := h.batch p rows hp hsta
    exact ⟨hnd, fun r' hr' => ⟨hold (hin r' hr').1, (hin r' hr').2⟩,
      q, total, getElem?_append_of_some hq, hrs⟩
  · intro rows hsta r' hr'
    obtain ⟨hin, hb, hnot⟩ := h.outgoing rows hsta r' hr'
    exact ⟨hold hin, hb, by simpa using hnot⟩

/-- The rows a query sees that came late and are ahead of the cursor are all in its batch. -/
theorem Tiled.mem_digestRows {ch : Channel} (hid : ch.id = c)
    (hids : (s.channels.map Channel.id).Nodup) (hch : ch ∈ s.channels) {since : Time}
    (hsi : ∀ t, ch.lastSentAt = some t → since = t) {k : ℕ}
    (hfew : FewBetween c (es ++ [.queried k c (digestTotal rules c s.rows since)]))
    (hla : Late c es r) (hsel : digestSelects rules c r = true) (hahe : Ahead s.channels c r) :
    r ∈ digestRows rules c s.rows since := by
  obtain ⟨w, x, k₀, t₀, hwx, hw, hx⟩ := hla
  obtain ⟨k', t', -, hcr⟩ := h.latest k₀ t₀ (mem_of_getElem? hw)
  have hls : ch.lastSentAt = some t' := by
    rw [← cursor_of_mem hids hch, hid]
    exact hcr
  have haf : since < r.createdAt := by
    rw [hsi t' hls]
    exact hahe t' hcr
  refine mem_notificationsSince ?_ (h.seen r (mem_of_getElem? hx)) ?_
  · exact hfew w es.length k₀ k t₀ _ (getElem?_append_of_some hw)
      (List.getElem?_eq_some_iff.mp hw).1 (by simp [digestTotal])
  · simp only [digestSelects, Bool.and_eq_true] at hsel
    simp only [matchesSince, haf, decide_true, isEmpty_nil, Bool.true_or, Bool.true_and]
    rw [hsel.1, hsel.2]
    rfl

/-- Between two digests whatever came late and is behind the cursor was sent. -/
theorem Tiled.held_of_next (hnx : s.stage = .next) (hla : Late c es r)
    (hsel : digestSelects rules c r = true) (hb : Behind s.channels c r) : Held c es r.id := by
  rcases h.late r hla hsel hb with hold | ⟨rows, hsd, -⟩
  · exact hold
  · rw [hnx] at hsd
    cases hsd

theorem Tiled.advanced_move (hc : c ∈ s.channels.map Channel.id)
    (hrowIDs : (s.rows.map Row.id).Nodup) (hcl : ∀ r ∈ s.rows, r.createdAt ≤ s.now)
    {rows : List Row} (hpa : s.pass = some p) (hsta : p.stage = .advance c rows)
    (hcal : Calm c (es ++ [.advanced p.number c s.now])) :
    Tiled rules c { s with
        channels := updateChannelLastSent s.channels c s.now
        pass := some { p with stage := if rows = [] then .next else .send c rows } }
      (es ++ [.advanced p.number c s.now]) := by
  obtain ⟨hnd, hin, q, total, hq, hrs⟩ := h.batch p rows hpa hsta
  have hcr := cursor_update_self hc s.now
  have hbh : ∀ r ∈ s.rows, Behind (updateChannelLastSent s.channels c s.now) c r :=
    fun r hr => ⟨s.now, hcr, hcl r hr⟩
  refine h.extend (fun _ => id) (by simp) (fun r hr _ => hbh r hr)
    (by simp) ?_ ?_ le_rfl le_rfl (by simp) ?_ ?_ ?_ ?_
    (fun p' hp' => .inl ⟨p, hpa, by cases hp'; rfl⟩) (by simp)
  · intro k t hev
    obtain ⟨rfl, -, rfl⟩ := DigestEvent.advanced.inj hev
    exact ⟨le_rfl, ⟨q, total, hq⟩, hcr⟩
  · exact fun hno => absurd rfl (hno p.number s.now)
  · -- What was behind the cursor was sent; what was ahead is in the batch, or came after the
    -- query, and then it is still ahead.
    intro r hr hsel _
    by_cases hb : Behind s.channels c r
    · rcases h.late r hr hsel hb with hold | ⟨rows', hsd, -⟩
      · exact .inl (.inl hold)
      · simp [hpa, hsta] at hsd
    · rcases hrs r hr hsel (ahead_of_not_behind hb) with hmem | ⟨x, hqx, hx⟩
      · have hne : rows ≠ [] := ne_nil_of_mem hmem
        exact .inr ⟨rows, by simp [hne], hmem⟩
      · have haf : s.now < r.createdAt := hcal q es.length x p.number total s.now r
          (getElem?_append_of_some hq) (by simp) hqx (getElem?_append_of_some hx)
        exact absurd haf (not_lt.mpr (hcl r (h.seen r (mem_of_getElem? hx))))
  · intro p' rows' hp' hadv
    cases hp'
    split at hadv <;> cases hadv
  · intro rows' hsd r hr
    have hrw : rows' = rows := by
      split at hsd
      · cases hsd
      · exact (PassStage.send.inj hsd).2.symm
    subst hrw
    obtain ⟨hmem, hah⟩ := hin r hr
    refine ⟨hmem, hbh r hmem, fun hid => ?_⟩
    obtain ⟨r', hr', hrid, a, ha, hle⟩ := h.held r.id (by simpa using hid)
    obtain rfl : r' = r := inj_on_of_nodup_map hrowIDs hr' hmem hrid
    exact absurd (hah a ha) (not_lt.mpr hle)
  · intro k _
    by_cases hnum : p.number = k
    · exact .inl ⟨s.now, by rw [hnum]⟩
    · exact .inr (.of_pass hpa fun heq => absurd heq hnum)

theorem Tiled.sent_move {rows : List Row} (hpa : s.pass = some p)
    (hsta : p.stage = .send c rows) :
    Tiled rules c { s with pass := some { p with stage := .next } }
      (es ++ [.sent p.number c (sanitizeForEmailDigest rows)]) := by
  have hse : s.stage = .send c rows := by simp [hpa, hsta]
  have hhl : ∀ id, DigestEvent.Holds c id (.sent p.number c (sanitizeForEmailDigest rows)) ↔
      ∃ r ∈ rows, r.id = id := fun id => by
    simp [sanitizeForEmailDigest_ids]
  refine h.extend (fun _ => id) (by simp) (fun _ _ => id) ?_ (by simp) (fun _ => rfl) le_rfl
    le_rfl (by simp) ?_ ?_ (by simp) ?_
    (fun p' hp' => .inl ⟨p, hpa, by cases hp'; rfl⟩) (by simp)
  · intro id hid
    obtain ⟨r, hr, rfl⟩ := (hhl id).mp hid
    obtain ⟨hin, hb, hnot⟩ := h.outgoing rows hse r hr
    exact ⟨⟨r, hin, rfl, hb⟩, hnot⟩
  · intro r hr hsel hb
    rcases h.late r hr hsel hb with hold | ⟨rows', hsd, hmem⟩
    · exact .inl (.inl hold)
    · obtain ⟨-, rfl⟩ := PassStage.send.inj (hse.symm.trans hsd)
      exact .inl (.inr ((hhl r.id).mpr ⟨r, hmem, rfl⟩))
  · intro p' rows' hp' hadv
    cases hp'
    cases hadv
  · intro k hdn
    exact .inr (.of_pass hpa fun hnum => ⟨(hdn _ rfl hnum).1, by simp [hsta]⟩)

theorem Tiled.began_move (hcl : ∀ r ∈ s.rows, r.createdAt ≤ s.now)
    (hpa : s.pass = none) (passRules : List Rule) {channels : List Channel}
    (hc : c ∈ channels.map Channel.id) :
    Tiled rules c
      { s with passes := s.passes + 1, pass := some ⟨s.passes, passRules, channels, .next⟩ }
      (es ++ [.passBegan s.passes s.now]) := by
  have hnx : s.stage = .next := by simp [hpa]
  refine h.extend (fun _ => id) (by simp) (fun _ _ => id) (by simp) (by simp)
    (fun _ => rfl) (Nat.le_succ _) le_rfl ?_
    (fun r hr hsel hb => .inl (.inl (h.held_of_next hnx hr hsel hb))) ?_
    (by simp) (fun k _ => .inr fun p hp => by simp [hpa] at hp) ?_ (by simp)
  · intro k t hev
    obtain ⟨rfl, rfl⟩ := DigestEvent.passBegan.inj hev
    exact ⟨Nat.lt_succ_self _, le_rfl, hcl, fun hdn => (hdn _ rfl rfl).1 hc⟩
  · intro p' rows' hp' hadv
    cases hp'
    cases hadv
  · intro p' hp'
    cases hp'
    exact .inr ⟨rfl, s.now, rfl⟩

theorem Tiled.ended_move (hpa : s.pass = some p)
    (hsta : p.stage = .next) (hrs : p.rest = []) :
    Tiled rules c { s with pass := none } (es ++ [.passEnded p.number]) := by
  have hnx : s.stage = .next := by simp [hpa, hsta]
  refine h.extend (fun _ => id) (by simp) (fun _ _ => id) (by simp) (by simp)
    (fun _ => rfl) le_rfl le_rfl (by simp)
    (fun r hr hsel hb => .inl (.inl (h.held_of_next hnx hr hsel hb))) (by simp)
    (by simp) ?_ (by simp) ?_
  · exact fun k _ => .inr (.of_pass hpa fun _ => ⟨by simp [hrs], by simp [hsta]⟩)
  · intro k hk
    exact ⟨rfl, p, hpa, DigestEvent.passEnded.inj hk⟩

theorem Tiled.keepPass (hev : ev.neutral c = true) {p' : Pass}
    (hpa : s.pass = some p) (hcr : cursor s'.channels c = cursor s.channels c)
    (hs' : s'.rows = s.rows ∧ s'.passes = s.passes ∧ s'.now = s.now ∧ s'.pass = some p')
    (hsta : p.stage.channel ≠ some c) (hsta' : p'.stage.channel ≠ some c)
    (hnm : p'.number = p.number)
    (hrs : c ∈ p'.rest.map Channel.id ↔ c ∈ p.rest.map Channel.id) :
    Tiled rules c s' (es ++ [ev]) := by
  obtain ⟨hrw, hpas, hnow, hp'⟩ := hs'
  have hnot : ∀ {x : Pass} (rows : List Row), x.stage.channel ≠ some c →
      x.stage ≠ .send c rows ∧ x.stage ≠ .advance c rows := by
    intro x rows hx
    exact ⟨fun heq => hx (by rw [heq]; rfl), fun heq => hx (by rw [heq]; rfl)⟩
  refine h.keep hev hrw hcr hpas (le_of_eq hnow.symm) ?_ ?_ ?_ ?_
  · intro rows
    simp [hpa, hp', (hnot rows hsta).1, (hnot rows hsta').1]
  · intro x rows hx hadv
    rw [hp'] at hx
    cases hx
    exact absurd hadv (hnot rows hsta').2
  · intro k hdn x hx hnum
    rw [hpa] at hx
    cases hx
    exact ⟨fun hmem => (hdn p' hp' (hnm.trans hnum)).1 (hrs.mpr hmem),
      fun rows => (hnot rows hsta).2⟩
  · intro x hx
    rw [hp'] at hx
    cases hx
    exact ⟨p, hpa, hnm.symm⟩

end

theorem Tiled.queried_move (h : Tiled p.rules c s es) (hids : (s.channels.map Channel.id).Nodup)
    (hrowIDs : (s.rows.map Row.id).Nodup) (hpa : s.pass = some p) (hsta : p.stage = .next)
    {ch : Channel} (hid : ch.id = c) (hch : ch ∈ s.channels) {since : Time}
    (hsi : ∀ t, ch.lastSentAt = some t → since = t) (rest : List Channel)
    (hfew : FewBetween c (es ++ [.queried p.number c (digestTotal p.rules c s.rows since)])) :
    Tiled p.rules c { s with
        pass := some { p with rest, stage := .advance c (digestRows p.rules c s.rows since) } }
      (es ++ [.queried p.number c (digestTotal p.rules c s.rows since)]) := by
  have hnx : s.stage = .next := by simp [hpa, hsta]
  refine h.extend (fun _ => id) (by simp) (fun _ _ => id) (by simp) (by simp)
    (fun _ => rfl) le_rfl le_rfl (by simp)
    (fun r hr hsel hb => .inl (.inl (h.held_of_next hnx hr hsel hb))) ?_
    (by simp) ?_ (fun p' hp' => .inl ⟨p, hpa, by cases hp'; rfl⟩) (by simp)
  · intro p' rows hp' hadv
    cases hp'
    obtain ⟨-, rfl⟩ := PassStage.advance.inj hadv
    refine ⟨nodup_notificationsSince hrowIDs, fun r hr => ?_, es.length,
      digestTotal p.rules c s.rows since, by simp, ?_⟩
    · obtain ⟨hin, hma⟩ := of_mem_notificationsSince hr
      refine ⟨hin, fun a ha => ?_⟩
      have hls : ch.lastSentAt = some a := by
        rw [← cursor_of_mem hids hch, hid]
        exact ha
      rw [← hsi a hls]
      simp only [matchesSince, Bool.and_eq_true, decide_eq_true_eq] at hma
      exact hma.1.1.1
    · intro r hr hsel hah
      exact .inl (h.mem_digestRows hid hids hch hsi hfew hr hsel hah)
  · intro k hdn
    exact .inr (.of_pass hpa fun hnum => absurd rfl ((hdn _ rfl hnum).2 _))

theorem Tiled.move {start : DigestStart} (h : Tiled start.rules c s es) (hs : Shaped start c s)
    (hm : DigestMove s ev s') (hcal : Calm c (es ++ [ev])) (hfew : FewBetween c (es ++ [ev])) :
    Tiled start.rules c s' (es ++ [ev]) := by
  have hrowIDs : (s.rows.map Row.id).Nodup := hs.rowIDs.sublist ((sublist_append_left _ _).map _)
  have hcl : ∀ r ∈ s.rows, r.createdAt ≤ s.now := fun r hr =>
    (hs.created r (mem_append_left _ hr)).2
  cases hm with
  | quiet hrw hwr hcha hrl hpa hpas hins hnow =>
    refine h.keep rfl hrw (by rw [hcha]) hpas hnow ?_ ?_ ?_ ?_
    · simp [hpa]
    · exact fun p rows hp hsta => ⟨p, hpa ▸ hp, hsta, rfl⟩
    · exact fun k hdn p hp => hdn p (hpa.trans hp)
    · exact fun p hp => ⟨p, hpa ▸ hp, rfl⟩
  | created n =>
    exact h.keep rfl rfl rfl rfl le_rfl (fun _ => Iff.rfl)
      (fun p rows hp hsta => ⟨p, hp, hsta, rfl⟩) (fun _ => id) fun p hp => ⟨p, hp, rfl⟩
  | committed hr => exact h.committed_move hcal _
  | began hpa hcha hrl =>
    exact h.began_move hcl hpa _ (by rw [hcha]; exact hs.deliverable.1)
  | ended hpa hsta hrs => exact h.ended_move hpa hsta hrs
  | @skipped p ch rest hpa hsta hrs hsk =>
    have hne : ch.id ≠ c := by
      intro hid
      have hst := (hs.pass p hpa).current ch (by simp [hrs]) hid
      obtain ⟨hem, hrc⟩ := hs.deliverable.2 ch hst hid
      exact hsk.elim (fun h => h hem) hrc
    exact h.keepPass rfl hpa rfl ⟨rfl, rfl, rfl, rfl⟩ (by simp [hsta])
      (by simp [hsta]) rfl (by simp [hrs, hne.symm])
  | @queried p ch rest since hpa hsta hrs hsi =>
    have hsh := hs.pass p hpa
    by_cases hid : ch.id = c
    · subst hid
      have hrl : start.rules = p.rules := (hsh.rules.trans hs.rules).symm
      rw [hrl] at h ⊢
      exact h.queried_move hs.channelIDs hrowIDs hpa hsta rfl
        (hsh.current ch (by simp [hrs]) rfl) hsi rest hfew
    · exact h.keepPass (by simp [hid]) hpa rfl ⟨rfl, rfl, rfl, rfl⟩
        (by simp [hsta]) (by simpa using hid) rfl
        (by simp [hrs, Ne.symm hid])
  | @advanced p c' rows hpa hsta =>
    by_cases hid : c' = c
    · subst hid
      exact h.advanced_move hs.deliverable.1 hrowIDs hcl hpa hsta hcal
    · refine h.keepPass (by simp [hid]) hpa (cursor_update_of_ne hid s.now) ⟨rfl, rfl, rfl, rfl⟩
        (by simpa [hsta] using hid) ?_ rfl Iff.rfl
      split
      · simp
      · simpa using hid
  | @sent p c' rows hpa hsta =>
    by_cases hid : c' = c
    · subst hid
      exact h.sent_move hpa hsta
    · exact h.keepPass (by simp [hid]) hpa rfl ⟨rfl, rfl, rfl, rfl⟩
        (by simpa [hsta] using hid) (by simp) rfl Iff.rfl

end Tiles

/-! ## Smooth runs -/

section Runs

variable {start : DigestStart} {c : ℕ} {history : List DigestAction}

theorem Calm.earlier {es rest} (h : Calm c (es ++ rest)) : Calm c es :=
  fun q a x k total t r hq ha hqx hx => h q a x k total t r (getElem?_append_of_some hq)
    (getElem?_append_of_some ha) hqx (getElem?_append_of_some hx)

theorem FewBetween.earlier {es rest} (h : FewBetween c (es ++ rest)) : FewBetween c es :=
  fun w q k k' t total hw hwq hq => h w q k k' t total (getElem?_append_of_some hw) hwq
    (getElem?_append_of_some hq)

theorem Smooth.move (h : Smooth start history) {as bs a} (hall : history = as ++ a :: bs) :
    DigestMove ((digestService start).run as) ((digestService start).event as a)
      ((digestService start).react ((digestService start).run as) a).2 :=
  move_of_react (fun smtp ha => h.upToDate as smtp bs (ha ▸ hall))
    fun ok appNow ha => h.succeeds ok appNow (by simp [hall, ha])

theorem shaped_init (hc : Deliverable start.channels c) :
    Shaped start c (digestService start).init where
  rules := rfl
  channelIDs := start.nodup_channels
  deliverable := hc
  rowIDs := by simpa [digestService] using start.nodup_rows
  created r hr := start.inserted_rows r (by simpa [digestService] using hr)
  pass p hp := by cases hp

theorem tiled_init : Tiled start.rules c (digestService start).init [] := by
  refine ⟨by simp, ?_, by simp, by simp, by simp, ?_, ?_, ?_, by simp, by simp, by simp, ?_⟩
  · rintro id ⟨ev, hev, -⟩
    cases hev
  · rintro r ⟨w, x, k, t, -, hw, -⟩
    simp at hw
  · intro p rows hp
    cases hp
  · intro rows hsta
    cases hsta
  · intro p hp
    cases hp

theorem tiled_run (hc : Deliverable start.channels c) (hsmo : Smooth start history)
    (hfew : FewBetween c ((digestService start).trace history))
    (hcal : Calm c ((digestService start).trace history)) (before after : List DigestAction)
    (hsp : history = before ++ after) :
    Tiled start.rules c ((digestService start).run before)
      ((digestService start).trace before) := by
  refine (Reactive.run_inv_of_split (P := fun s es => Shaped start c s ∧ Tiled start.rules c s es)
    ⟨shaped_init hc, tiled_init⟩ ?_ before after hsp).2
  rintro as a bs hall ⟨hsh, htl⟩
  have htr : (digestService start).trace history =
      ((digestService start).trace as ++ [(digestService start).event as a]) ++
        (digestService start).traceFrom ((digestService start).run (as ++ [a])) bs := by
    rw [hall, ← (digestService start).trace_concat, ← (digestService start).trace_append]
    simp
  rw [htr] at hfew hcal
  have hmv := hsmo.move hall
  exact ⟨hsh.move hmv, htl.move hsh hmv hcal.earlier hfew.earlier⟩

/-- Digests tile in smooth runs. -/
theorem digests_exactly_once (start : DigestStart) (c : ℕ) (hc : Deliverable start.channels c)
    (history : List DigestAction) (hsmooth : Smooth start history)
    (hfew : FewBetween c ((digestService start).trace history))
    (hcalm : Calm c ((digestService start).trace history)) :
    ExactlyOnce start.rules c ((digestService start).trace history) := by
  have htl := tiled_run hc hsmooth hfew hcalm
  set es := (digestService start).trace history with hes
  have hupTo : ∀ i, Tiled start.rules c ((digestService start).run (history.take i))
      (es.take i) := by
    intro i
    rw [hes, ← (digestService start).trace_take]
    exact htl _ (history.drop i) (take_append_drop _ _).symm
  have hpl : ∀ {x i : ℕ} {e : DigestEvent}, x < i → es[x]? = some e → (es.take i)[x]? = some e := by
    intro x i e hxi hx
    rw [getElem?_take_of_lt hxi]
    exact hx
  refine ⟨(htl history [] (by simp)).once, ?_⟩
  intro w x x' y z k₀ k t r hw hwx hx hxx' hx' hx'y hy hyz hz hsel
  -- The digest that ended before the row was created has advanced.
  obtain ⟨t₀, v, hvw, hv⟩ : ∃ (t₀ : Time) (v : ℕ), v ≤ w ∧ es[v]? = some (.advanced k₀ c t₀) := by
    have hfi := hupTo (w + 1)
    obtain ⟨⟨t₁, ht₁⟩, hot⟩ := hfi.ended k₀ (mem_of_getElem? (hpl (Nat.lt_succ_self w) hw))
    obtain ⟨⟨t₀, ht₀⟩, -⟩ := hfi.past k₀ t₁ ht₁ fun p hp hnum => absurd hnum (hot p hp)
    obtain ⟨v, hv⟩ := mem_iff_getElem?.mp ht₀
    obtain ⟨hvw, hv⟩ := getElem?_of_take hv
    exact ⟨t₀, v, by omega, hv⟩
  -- When the later one has ended, the cursor is past the row.
  have hend := hupTo (z + 1)
  obtain ⟨-, hot⟩ := hend.ended k (mem_of_getElem? (hpl (Nat.lt_succ_self z) hz))
  have hbg : ((es.take (z + 1))[y]? : Option DigestEvent) = some (.passBegan k t) :=
    hpl (by omega) hy
  obtain ⟨-, a, ha, hta⟩ := hend.past k t (mem_of_getElem? hbg)
    fun p hp hnum => absurd hnum (hot p hp)
  have hrow : r.createdAt ≤ t := (hend.began y k t hbg).2.2 x' r hx'y (hpl (by omega) hx')
  have hla : Late c (es.take (z + 1)) r :=
    ⟨v, x', k₀, t₀, by omega, hpl (by omega) hv, hpl (by omega) hx'⟩
  -- Nothing is about to be sent then, so the row was.
  have hno : ((digestService start).run (history.take (z + 1))).pass = none := by
    obtain ⟨act, hsp, heve, hnx⟩ := Reactive.event_at hz
    have hmv := hsmooth.move hsp
    rw [show (digestService start).event (history.take z) act = _ from heve, ← hnx] at hmv
    generalize (digestService start).run (history.take (z + 1)) = s' at hmv
    cases hmv
    rfl
  rcases hend.late r hla hsel ⟨a, ha, le_trans hrow hta⟩ with ⟨ev, hev, hhl⟩ | ⟨rows, hsd, -⟩
  · obtain ⟨p, hp⟩ := mem_iff_getElem?.mp hev
    obtain ⟨hpz, hsn⟩ := getElem?_of_take hp
    refine ⟨p, ev, ?_, hsn, hhl⟩
    rcases Nat.lt_succ_iff_lt_or_eq.mp hpz with hlt | heq
    · exact hlt
    · rw [heq, hz] at hsn
      cases hsn
      exact hhl.elim
  · simp [hno] at hsd

end Runs

/-! ## One channel, one notification -/

def pager : Channel := ⟨1, .email, .strings ["ops@team.com"], some 0⟩

def nodeDown : Notification := ⟨.cluster, .critical, "node down", "", "Node", "", "n1", "", ""⟩

def quietStart (ch : Channel) : DigestStart where
  rows := []
  channels := [ch]
  rules := []
  inserted := 0
  now := 10
  nodup_rows := nodup_nil
  nodup_channels := by simp
  inserted_rows := by simp

/-- A digest in which nothing fails; the service's clock shows `t`. -/
def digestPass (t : Time) (operations : ℕ) : List DigestAction :=
  .sendDigests true :: List.replicate operations (.step true t)

/-- The service is restarted, or a channel saved as it is, between the digests. -/
def reloadedBetween : List DigestAction :=
  [.loadCache, .storeCache 0] ++ digestPass 10 3 ++
    [.elapse 1, .insert nodeDown, .commit 0, .elapse 1, .loadCache, .storeCache 1] ++
    digestPass 12 4

theorem trace_reloadedBetween : (digestService (quietStart pager)).trace reloadedBetween =
    [.idle, .idle, .passBegan 0 10, .queried 0 1 0, .advanced 0 1 10, .passEnded 0, .idle,
      .created ⟨0, nodeDown, 11⟩, .committed ⟨0, nodeDown, 11⟩, .idle, .idle, .idle,
      .passBegan 1 12, .queried 1 1 1, .advanced 1 1 12, .sent 1 1 [⟨0, nodeDown, 11⟩],
      .passEnded 1] := by
  decide

theorem smooth_reloadedBetween : Smooth (quietStart pager) reloadedBetween := by
  refine ⟨fun before smtp after hsp => ?_, fun ok appNow hmem => ?_⟩
  case refine_2 =>
    simp only [reloadedBetween, digestPass, mem_append, mem_cons, not_mem_nil,
      mem_replicate, DigestAction.step.injEq, reduceCtorEq, false_or, or_false] at hmem
    rcases hmem with ⟨-, hok, -⟩ | ⟨-, hok, -⟩ <;> exact hok
  have hpl : reloadedBetween[before.length]? = some (.sendDigests smtp) := by
    rw [hsp]
    simp
  have hbf : before = reloadedBetween.take before.length := by rw [hsp, take_left]
  have hlt : before.length < 17 := (List.getElem?_eq_some_iff.mp hpl).1
  rw [hbf]
  generalize before.length = x at hpl hlt
  interval_cases x <;> first | exact ⟨rfl, rfl⟩ | cases hpl

theorem digests_exactly_once_reloadedBetween :
    ExactlyOnce [] 1 ((digestService (quietStart pager)).trace reloadedBetween) ∧
      ((digestService (quietStart pager)).trace reloadedBetween)[15]? =
        some (.sent 1 1 [⟨0, nodeDown, 11⟩]) := by
  refine ⟨digests_exactly_once (quietStart pager) 1 ⟨by decide, by decide⟩ reloadedBetween
    smooth_reloadedBetween ?_ ?_, by rw [trace_reloadedBetween]; rfl⟩
  · rw [trace_reloadedBetween]
    intro w q k k' t total _ _ hq
    have hmem := mem_of_getElem? hq
    simp only [mem_cons, not_mem_nil, DigestEvent.queried.injEq, reduceCtorEq, false_or,
      or_false, true_and] at hmem
    rcases hmem with ⟨-, rfl⟩ | ⟨-, rfl⟩ <;> decide
  · rw [trace_reloadedBetween]
    intro q a x k total t r hq ha hqx hx
    have hxlt : x < 17 := (List.getElem?_eq_some_iff.mp hx).1
    obtain ⟨rfl, rfl⟩ : x = 8 ∧ r = ⟨0, nodeDown, 11⟩ := by
      interval_cases x <;> first | (cases hx; done) | exact ⟨rfl, by cases hx; rfl⟩
    obtain rfl : q = 3 := by
      interval_cases q <;> first | rfl | cases hq
    cases hq
    have hmem := mem_of_getElem? ha
    simp only [mem_cons, not_mem_nil, DigestEvent.advanced.injEq, reduceCtorEq, false_or,
      or_false, true_and] at hmem
    rcases hmem with ⟨-, rfl⟩ | ⟨hpa, -⟩
    · decide
    · cases hpa

/-! ## Runs that are not smooth -/

/-- The second digest and the third both hold the notification written after the first. -/
def loadedOnce : List DigestAction :=
  [.loadCache, .storeCache 0] ++ digestPass 10 3 ++
    [.elapse 1, .insert nodeDown, .commit 0, .elapse 1] ++ digestPass 12 4 ++
    [.elapse 1] ++ digestPass 13 4

/-- No digest holds the notification written within the second by which a timer is late. -/
def lateTimer : List DigestAction :=
  [.loadCache, .storeCache 0] ++ digestPass 10 3 ++
    [.elapse 1, .insert nodeDown, .commit 0, .elapse 86400999999999] ++
    digestPass (10 + 24 * hour + second) 3

/-- Without a reload a notification is held twice, or not at all. -/
theorem digests_not_exactly_once :
    ¬ ExactlyOnce [] 1 ((digestService (quietStart pager)).trace loadedOnce) ∧ ¬ ExactlyOnce [] 1
        ((digestService (quietStart { pager with lastSentAt := none })).trace lateTimer) := by
  constructor
  · intro h
    have htw : (13 : ℕ) = 19 := h.atMost 13 19 (.sent 1 1 [⟨0, nodeDown, 11⟩])
      (.sent 2 1 [⟨0, nodeDown, 11⟩]) 0 (by decide) (by decide) (by decide)
      (by decide)
    omega
  · intro h
    obtain ⟨p, ev, -, hp, hhl⟩ := h.atLeast 5 7 8 10 13 0 1 86401000000010
      ⟨0, nodeDown, 11⟩ (by decide) (by decide) (by decide) (by decide)
      (by decide) (by decide) (by decide) (by decide) (by decide)
      (by decide)
    have hno : ∀ ev ∈ (digestService (quietStart { pager with lastSentAt := none })).trace
        lateTimer, ¬ ev.Holds 1 0 := by decide
    exact hno ev (mem_of_getElem? hp) hhl

end KubeCenter.Notifications
