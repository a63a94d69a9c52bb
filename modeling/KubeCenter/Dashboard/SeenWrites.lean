import KubeCenter.Dashboard.LayoutStore

/-! # The layout store writes over nothing it has not seen

A write is made under an observation only: a read that was applied, or a save that succeeded, and
no failure since. What one action may do to a page is said once (`Reaction`). -/
namespace KubeCenter.Dashboard
open Lib List Nat

variable {getWidget : String → Option WidgetDef}
variable {defaultLayoutFor : DashboardScope → DashboardLayoutConfig} {cluster : String}

/-! ## What an action does -/

def PageEvent.Idle : PageEvent → Prop
  | .idle | .saveRefused _ => True
  | _ => False

inductive Reaction (p : Page) : PageEvent → Page → Prop where
  | kept (e : PageEvent) (he : e.Idle) (selected : String) (aborted : List ℕ)
      (haborted : p.aborted ⊆ aborted) :
      Reaction p e { p with selectedCluster := selected, aborted := aborted }
  | started (scope : DashboardScope) : Reaction p (.readStarted p.calls) { p with
          aborted := p.inFlight.toList ++ p.aborted
          inFlight := some p.calls
          reads := ⟨p.calls, scope, p.store.commitSeq⟩ :: p.reads
          calls := p.calls + 1 }
  | discarded (r : LayoutRead) (hr : r ∈ p.reads) :
      Reaction p (.readDiscarded r.call) (p.readDone r.call)
  | applied (r : LayoutRead) (hr : r ∈ p.reads) (hlive : r.call ∉ p.aborted)
      (hseq : p.store.commitSeq = r.startedAt) (loaded : LoadedLayout)
      (o : LayoutObservation) :
      Reaction p (.readApplied r.call loaded)
        { p.readDone r.call with store := p.store.applyLoaded loaded o }
  | failed (r : LayoutRead) (hr : r ∈ p.reads) (reason : Option String) :
      Reaction p (.readFailed r.call) { p.readDone r.call with store := p.store.failLoad reason }
  | sent (sv : LayoutSave) (hcall : sv.call = p.calls) (hobserved : p.store.observed ≠ none)
      (hwithheld : p.store.layoutWithheld = []) :
      Reaction p (.putSent p.calls p.store.layoutRevision sv.config)
        { p with saves := sv :: p.saves, calls := p.calls + 1 }
  | saved (sv : LayoutSave) (hsv : sv ∈ p.saves) (answer : LayoutResponse) (o : LayoutObservation) :
      Reaction p (.saveApplied sv.call answer)
        { p.saveDone sv.call with store := p.store.applySaved sv.config answer o }
  | lost (sv : LayoutSave) (hsv : sv ∈ p.saves) : Reaction p (.saveFailed sv.call)
        { p.saveDone sv.call with store := { p.store with observed := none } }

variable {es : List PageEvent} {e : PageEvent} {p q : Page} {before : List PageAction}
  {config : DashboardLayoutConfig} {a : PageAction} {call seq revision : ℕ}

theorem readSettles_of_stale {r : LayoutRead} (outcome : ReadOutcome)
    (h : r.call ∈ p.aborted ∨ p.store.commitSeq ≠ r.startedAt) :
    p.readSettles getWidget defaultLayoutFor r outcome =
      (.readDiscarded r.call, p.readDone r.call) := by
  unfold Page.readSettles
  by_cases hab : r.call ∈ p.aborted
  · rw [if_pos hab]
  · have hseq := h.resolve_left hab
    rw [if_neg hab]
    cases outcome with
    | answer | failure => exact if_pos hseq
    | abortError => rfl

theorem readSettles_reaction {r} (hr : r ∈ p.reads) (outcome : ReadOutcome) :
    Reaction p (p.readSettles getWidget defaultLayoutFor r outcome).1
      (p.readSettles getWidget defaultLayoutFor r outcome).2 := by
  by_cases hst : r.call ∈ p.aborted ∨ p.store.commitSeq ≠ r.startedAt
  · rw [readSettles_of_stale outcome hst]
    exact .discarded r hr
  · obtain ⟨hli, hseq⟩ := not_or.mp hst
    rw [not_not] at hseq
    cases outcome with
    | answer res =>
      simp only [Page.readSettles, hli, hseq, ne_eq, not_true_eq_false, if_false]
      exact .applied r hr hli hseq _ _
    | failure reason =>
      simp only [Page.readSettles, hli, hseq, ne_eq, not_true_eq_false, if_false]
      exact .failed r hr reason
    | abortError =>
      simp only [Page.readSettles, hli, if_false]
      exact .discarded r hr

theorem saveLayout_reaction (p : Page) (scope : DashboardScope) (config : DashboardLayoutConfig) :
    Reaction p (p.saveLayout scope config).1 (p.saveLayout scope config).2 := by
  simp only [Page.saveLayout]
  split
  · exact .kept (.saveRefused _) trivial p.selectedCluster p.aborted (List.Subset.refl _)
  next hob =>
    rw [not_not] at hob
    split
    · exact .kept (.saveRefused _) trivial p.selectedCluster p.aborted (List.Subset.refl _)
    · rename_i hwt
      refine .sent ⟨p.calls, scope, p.selectedCluster, config⟩ rfl ?_ ?_
      · rw [hob]
        exact Option.some_ne_none _
      · exact eq_nil_of_length_eq_zero (Nat.eq_zero_of_not_pos hwt)

theorem react_reaction (p : Page) (a : PageAction) :
    Reaction p (p.react getWidget defaultLayoutFor a).1
      (p.react getWidget defaultLayoutFor a).2 := by
  have hid : Reaction p .idle p :=
    .kept .idle trivial p.selectedCluster p.aborted (List.Subset.refl _)
  cases a with
  | selectCluster cluster => exact .kept .idle trivial cluster p.aborted (List.Subset.refl _)
  | loadLayout scope aborted =>
    cases aborted with
    | true => exact hid
    | false => exact .started scope
  | abort call =>
    simp only [Page.react]
    split
    · exact .kept .idle trivial p.selectedCluster _ (subset_cons_self _ _)
    · exact hid
  | readSettles call outcome =>
    simp only [Page.react]
    split
    · exact hid
    next r hr => exact readSettles_reaction (mem_of_find?_eq_some hr) outcome
  | saveLayout scope config => exact saveLayout_reaction p scope config
  | saveSettles call outcome =>
    simp only [Page.react]
    split
    · exact hid
    next sv hsv =>
      have hmem : sv ∈ p.saves := mem_of_find?_eq_some hsv
      cases outcome with
      | answer saved => exact .saved sv hmem saved _
      | failure => exact .lost sv hmem

def IsPage (M : Reactive Page PageAction PageEvent) : Prop :=
  ∃ getWidget defaultLayoutFor cluster, M = page getWidget defaultLayoutFor cluster

variable {M : Reactive Page PageAction PageEvent}

theorem event_reaction (hM : IsPage M) (h : M.event before a = e) :
    Reaction (M.run before) e (M.run (before ++ [a])) := by
  obtain ⟨_, _, _, rfl⟩ := hM
  subst h
  rw [Reactive.run_concat]
  exact react_reaction _ a

theorem page_runFrom_inv {P : Page → List PageEvent → Prop} (hM : IsPage M) (hsta : P p [])
    (hste : ∀ t es e q, Reaction t e q → P t es → P q (es ++ [e])) (actions : List PageAction) :
    P (M.runFrom p actions) (M.traceFrom p actions) := by
  obtain ⟨_, _, _, rfl⟩ := hM
  exact Reactive.runFrom_inv hsta (fun t es a h => hste t es _ _ (react_reaction t a) h) actions

/-! ## A write is made under an observation -/

def PageEvent.returned : PageEvent → Option ℕ
  | .readApplied _ loaded => some loaded.revision
  | .saveApplied _ saved => some saved.revision
  | _ => none

def PageEvent.loaded : PageEvent → Option LoadedLayout
  | .readApplied _ loaded => some loaded
  | _ => none

def lastLoaded (events : List PageEvent) : Option LoadedLayout :=
  (events.filterMap PageEvent.loaded).getLast?

theorem lastLoaded_concat_none (h : e.loaded = none) : lastLoaded (es ++ [e]) = lastLoaded es := by
  simp [lastLoaded, filterMap_append, h]

theorem lastLoaded_concat_some {l} (h : e.loaded = some l) : lastLoaded (es ++ [e]) = some l := by
  simp [lastLoaded, filterMap_append, h]

/-- What a page knows was seen. A save in flight has an applied read behind it, too. -/
structure Seen (p : Page) (es : List PageEvent) : Prop where
  revision : p.store.observed ≠ none → ∃ e ∈ es, e.returned = some p.store.layoutRevision
  withheld : p.store.observed ≠ none ∨ p.saves ≠ [] →
    ∃ l, lastLoaded es = some l ∧ l.withheld = p.store.layoutWithheld

theorem Seen.of_quiet (h : Seen p es) (he : e.loaded = none)
    (hrev : q.store.layoutRevision = p.store.layoutRevision)
    (hwt : q.store.layoutWithheld = p.store.layoutWithheld)
    (hob : q.store.observed ≠ none → p.store.observed ≠ none)
    (hsa : q.saves ≠ [] → p.store.observed ≠ none ∨ p.saves ≠ []) : Seen q (es ++ [e]) where
  revision := by
    intro hq
    obtain ⟨x, hx, hret⟩ := h.revision (hob hq)
    exact ⟨x, mem_append_left _ hx, by rw [hret, hrev]⟩
  withheld := by
    intro hq
    rw [lastLoaded_concat_none he, hwt]
    apply h.withheld
    rcases hq with hq | hq
    · exact .inl (hob hq)
    · exact hsa hq

theorem saveDone_nonempty (h : (p.saveDone call).saves ≠ []) : p.saves ≠ [] := by
  intro hnil
  exact h (by simp [Page.saveDone, hnil])

theorem Seen.step (hrx : Reaction p e q) (h : Seen p es) : Seen q (es ++ [e]) := by
  cases hrx with
  | kept e he selected aborted hab =>
    refine h.of_quiet ?_ rfl rfl id .inr
    cases e <;> first | rfl | exact he.elim
  | started | discarded => exact h.of_quiet rfl rfl rfl id .inr
  | applied r hr hli hseq loaded o =>
    refine ⟨fun _ => ⟨_, mem_append_right _ (mem_singleton.mpr rfl), rfl⟩, fun _ => ?_⟩
    exact ⟨loaded, lastLoaded_concat_some rfl, rfl⟩
  | failed r hr reason => exact h.of_quiet rfl rfl rfl (absurd rfl) .inr
  | sent sv hcl hob hwt => exact h.of_quiet rfl rfl rfl id fun _ => .inl hob
  | saved sv hsv answer o =>
    refine ⟨fun _ => ⟨_, mem_append_right _ (mem_singleton.mpr rfl), rfl⟩, fun _ => ?_⟩
    rw [lastLoaded_concat_none rfl]
    exact h.withheld (.inr (ne_nil_of_mem hsv))
  | lost sv hsv => exact h.of_quiet rfl rfl rfl (absurd rfl) fun hq => .inr (saveDone_nonempty hq)

theorem seen_after (hM : IsPage M) (before : List PageAction) :
    Seen (M.run before) (M.trace before) := by
  apply page_runFrom_inv hM
  · obtain ⟨_, _, _, rfl⟩ := hM
    exact ⟨absurd rfl, fun h => by rcases h with h | h <;> exact absurd rfl h⟩
  · intro t es e q hrx h
    exact h.step hrx

theorem Reaction.of_putSent (h : Reaction p (.putSent call revision config) q) :
    p.store.observed ≠ none ∧ p.store.layoutWithheld = [] ∧ revision = p.store.layoutRevision := by
  cases h with
  | kept _ he => exact he.elim
  | sent sv hcl hob hwt => exact ⟨hob, hwt, rfl⟩

/-! ## A read that a save overtook is discarded -/

/-- Calls are numbered in order, and at most one read in flight is not aborted. -/
structure OneReader (p : Page) : Prop where
  fresh : ∀ r ∈ p.reads, r.call < p.calls
  sole : ∀ r ∈ p.reads, r.call ∉ p.aborted → p.inFlight = some r.call

theorem OneReader.readDone (h : OneReader p) (call : ℕ) : OneReader (p.readDone call) where
  fresh := by
    intro r hr
    exact h.fresh r (mem_of_mem_filter hr)
  sole := by
    intro r hr hli
    obtain ⟨hmem, hne⟩ := mem_filter.mp hr
    have hft := h.sole r hmem hli
    have hot : r.call ≠ call := of_decide_eq_true hne
    simp only [Page.readDone, hft, Option.some.injEq, if_neg hot]

theorem OneReader.step (hrx : Reaction p e q) (h : OneReader p) : OneReader q := by
  cases hrx with
  | kept e he selected aborted hab =>
    exact ⟨h.fresh, fun r hr hli => h.sole r hr fun hm => hli (hab hm)⟩
  | started scope =>
    refine ⟨?_, ?_⟩
    · intro r hr
      rcases mem_cons.mp hr with rfl | hr
      · exact lt_succ_self _
      · exact lt_succ_of_lt (h.fresh r hr)
    · intro r hr hli
      rcases mem_cons.mp hr with rfl | hr
      · rfl
      · -- the load before this one was in flight, so it is aborted now
        have hft := h.sole r hr fun hm => hli (mem_append_right _ hm)
        exact absurd (mem_append_left _ (by simp [hft])) hli
  | discarded r hr => exact h.readDone r.call
  | applied r | failed r => exact ⟨(h.readDone r.call).fresh, (h.readDone r.call).sole⟩
  | sent sv hcl hob hwt => exact ⟨fun r hr => lt_succ_of_lt (h.fresh r hr), h.sole⟩
  | saved | lost => exact ⟨h.fresh, h.sole⟩

theorem oneReader_after (hM : IsPage M) (before : List PageAction) : OneReader (M.run before) := by
  have hin : OneReader M.init := by
    obtain ⟨_, _, _, rfl⟩ := hM
    exact ⟨fun _ h => absurd h not_mem_nil, fun _ h => absurd h not_mem_nil⟩
  refine page_runFrom_inv (P := fun p _ => OneReader p) hM hin ?_ before
  intro t es e q hrx h
  exact h.step hrx

structure ReadAt (call seq : ℕ) (p : Page) : Prop where
  made : call < p.calls
  startedAt : ∀ r ∈ p.reads, r.call = call → r.startedAt = seq
  seq_le : seq ≤ p.store.commitSeq

theorem ReadAt.step (hrx : Reaction p e q) (h : ReadAt call seq p) : ReadAt call seq q := by
  have hfi : ∀ c, ∀ r ∈ (p.readDone c).reads, r.call = call → r.startedAt = seq :=
    fun c r hr => h.startedAt r (mem_of_mem_filter hr)
  cases hrx with
  | kept | lost => exact ⟨h.made, h.startedAt, h.seq_le⟩
  | started scope =>
    refine ⟨lt_succ_of_lt h.made, ?_, h.seq_le⟩
    intro r hr hcl
    rcases mem_cons.mp hr with rfl | hr
    · exact absurd hcl (ne_of_gt h.made)
    · exact h.startedAt r hr hcl
  | discarded r | failed r => exact ⟨h.made, hfi r.call, h.seq_le⟩
  | applied r hr hli hseq loaded o => exact ⟨h.made, hfi r.call, le_succ_of_le h.seq_le⟩
  | sent sv hcl hob hwt => exact ⟨lt_succ_of_lt h.made, h.startedAt, h.seq_le⟩
  | saved sv hsv answer o => exact ⟨h.made, h.startedAt, le_succ_of_le h.seq_le⟩

theorem ReadAt.run (hM : IsPage M) (h : ReadAt call seq p) (actions : List PageAction) :
    ReadAt call seq (M.runFrom p actions) := by
  refine page_runFrom_inv (P := fun q _ => ReadAt call seq q) hM h ?_ actions
  intro t es e q hrx ht
  exact ht.step hrx

theorem Reaction.readAt (hp : OneReader p) (h : Reaction p (.readStarted call) q) :
    ReadAt call p.store.commitSeq q ∧ q.store = p.store := by
  cases h with
  | kept _ he => exact he.elim
  | started scope =>
    refine ⟨⟨lt_succ_self _, ?_, le_rfl⟩, rfl⟩
    intro r hr hcl
    rcases mem_cons.mp hr with rfl | hr
    · rfl
    · exact absurd hcl (Nat.ne_of_lt (hp.fresh r hr))

theorem Reaction.commitSeq_of_saveApplied {saved} (h : Reaction p (.saveApplied call saved) q) :
    q.store.commitSeq = p.store.commitSeq + 1 := by
  cases h with
  | kept _ he => exact he.elim
  | saved sv hsv answer o => rfl

theorem commitSeq_le (hM : IsPage M) (p : Page) (actions : List PageAction) :
    p.store.commitSeq ≤ (M.runFrom p actions).store.commitSeq := by
  refine page_runFrom_inv (P := fun q _ => p.store.commitSeq ≤ q.store.commitSeq) hM le_rfl ?_
    actions
  intro t es e q hrx h
  cases hrx with
  | applied | saved => exact le_succ_of_le h
  | kept | started | discarded | failed | sent | lost => exact h

theorem ReadAt.settles (h : ReadAt call seq p) (hmv : seq < p.store.commitSeq)
    (outcome : ReadOutcome) :
    (p.react getWidget defaultLayoutFor (.readSettles call outcome)).2.store = p.store := by
  simp only [Page.react]
  split
  · rfl
  next r hr =>
    have hcl : r.call = call := by simpa using find?_some hr
    have hseq := h.startedAt r (mem_of_find?_eq_some hr) hcl
    rw [readSettles_of_stale outcome (.inr (by omega))]
    rfl

/-! ## After a failure no write is made -/

def PageEvent.IsSave : PageEvent → Prop
  | .saveApplied _ _ => True
  | _ => False

/-- What lets a page write again: a read is applied, or a save that was in flight
succeeds. -/
def Restores (p : Page) : PageEvent → Prop
  | .readApplied _ _ => True
  | .saveApplied call _ => ∃ sv ∈ p.saves, sv.call = call
  | _ => False

/-- The page has seen nothing since `p`, and has only the saves of `p` in flight. -/
def Silent (p q : Page) (es : List PageEvent) : Prop :=
  (∃ e ∈ es, Restores p e) ∨ (q.store.observed = none ∧ q.saves ⊆ p.saves)

theorem Silent.step {t : Page} (hrx : Reaction t e q) (h : Silent p t es) :
    Silent p q (es ++ [e]) := by
  have hla : e ∈ es ++ [e] := mem_append_right _ (mem_singleton.mpr rfl)
  rcases h with ⟨x, hx, hrs⟩ | ⟨hn, hsa⟩
  · exact .inl ⟨x, mem_append_left _ hx, hrs⟩
  · cases hrx with
    | kept | started | discarded => exact .inr ⟨hn, hsa⟩
    | applied r hr hli hseq loaded o => exact .inl ⟨_, hla, trivial⟩
    | failed => exact .inr ⟨rfl, hsa⟩
    | sent sv hcl hob => exact absurd hn hob
    | saved sv hsv answer o => exact .inl ⟨_, hla, sv, hsa hsv, rfl⟩
    | lost sv hsv => exact .inr ⟨rfl, fun x hx => hsa (mem_of_mem_filter hx)⟩

theorem silent_after (hM : IsPage M) (hn : p.store.observed = none) (actions : List PageAction) :
    Silent p (M.runFrom p actions) (M.traceFrom p actions) := by
  refine page_runFrom_inv hM (.inr ⟨hn, List.Subset.refl _⟩) ?_ actions
  intro t es e q hrx h
  exact h.step hrx

/-- While a read is in flight and not aborted, only saves move the counter. -/
structure Undisturbed (call seq : ℕ) (p : Page) (es : List PageEvent) : Prop where
  oneReader : OneReader p
  readAt : ReadAt call seq p
  still : (∃ e ∈ es, e.IsSave) ∨ call ∈ p.aborted ∨ (∀ r ∈ p.reads, r.call ≠ call) ∨
    p.store.commitSeq = seq

theorem Undisturbed.step (hrx : Reaction p e q) (h : Undisturbed call seq p es) :
    Undisturbed call seq q (es ++ [e]) := by
  refine ⟨h.oneReader.step hrx, h.readAt.step hrx, ?_⟩
  have hla : e ∈ es ++ [e] := mem_append_right _ (mem_singleton.mpr rfl)
  have hgo : (∀ r ∈ p.reads, r.call ≠ call) → ∀ c, ∀ r ∈ (p.readDone c).reads, r.call ≠ call :=
    fun hno c r hr => hno r (mem_of_mem_filter hr)
  rcases h.still with ⟨x, hx, hsav⟩ | hab | hno | hseq
  · exact .inl ⟨x, mem_append_left _ hx, hsav⟩
  · refine .inr (.inl ?_)
    cases hrx with
    | kept e he selected aborted hsub => exact hsub hab
    | started => exact mem_append_right _ hab
    | discarded | applied | failed | sent | saved | lost => exact hab
  · refine .inr (.inr (.inl ?_))
    cases hrx with
    | kept | sent | saved | lost => exact hno
    | started scope =>
      intro r hr
      rcases mem_cons.mp hr with rfl | hr
      · exact ne_of_gt h.readAt.made
      · exact hno r hr
    | discarded r | applied r | failed r => exact hgo hno r.call
  · cases hrx with
    | kept | started | discarded | failed | sent | lost => exact .inr (.inr (.inr hseq))
    | saved sv hsv answer o => exact .inl ⟨_, hla, trivial⟩
    | applied r hr hli hstr loaded o =>
      -- the read that is applied is the one in flight: this one, or this one is aborted
      by_cases hab : call ∈ p.aborted
      · exact .inr (.inl hab)
      · refine .inr (.inr (.inl ?_))
        intro x hx hcl
        obtain ⟨hmem, hne⟩ := mem_filter.mp hx
        have hxf := h.oneReader.sole x hmem (hcl ▸ hab)
        have hrf := h.oneReader.sole r hr hli
        rw [hrf] at hxf
        exact of_decide_eq_true hne (Option.some.inj hxf).symm

/-- Of a write, and of a read that was not aborted and had no save succeed during it. -/
inductive Fails (M : Reactive Page PageAction PageEvent) (before : List PageAction)
    (a : PageAction) : Prop where
  | write (call : ℕ) (h : M.event before a = .saveFailed call)
  | read (earlier between : List PageAction) (load : PageAction) (call : ℕ)
      (reason : Option String) (hbefore : before = earlier ++ load :: between)
      (hstarted : M.event earlier load = .readStarted call)
      (hquiet : ∀ e ∈ M.traceFrom (M.run (earlier ++ [load])) between, ¬ e.IsSave)
      (hsettles : a = .readSettles call (.failure reason))
      (hinFlight : ∃ r ∈ (M.run before).reads, r.call = call)
      (hlive : call ∉ (M.run before).aborted)

theorem Reaction.observed_of_saveFailed (h : Reaction p (.saveFailed call) q) :
    q.store.observed = none := by
  cases h with
  | kept _ he => exact he.elim
  | lost sv hsv => rfl

/-- A read that fails while the counter stands where it started ends the observation. -/
theorem ReadAt.fails (h : ReadAt call seq p) (hinFlight : ∃ r ∈ p.reads, r.call = call)
    (hli : call ∉ p.aborted) (hseq : p.store.commitSeq = seq) (reason : Option String) :
    (p.react getWidget defaultLayoutFor
      (.readSettles call (.failure reason))).2.store.observed = none := by
  simp only [Page.react]
  split
  next hno =>
    obtain ⟨r, hr, hcl⟩ := hinFlight
    exact absurd hcl (by simpa using find?_eq_none.mp hno r hr)
  next r hr =>
    have hcl : r.call = call := by simpa using find?_some hr
    have hstr := h.startedAt r (mem_of_find?_eq_some hr) hcl
    simp only [Page.readSettles, hcl, hli, hseq, hstr, ne_eq, not_true_eq_false, if_false]
    rfl

theorem undisturbed_after (hM : IsPage M) (hone : OneReader p) (hrd : ReadAt call seq p)
    (hseq : p.store.commitSeq = seq) (actions : List PageAction) :
    Undisturbed call seq (M.runFrom p actions) (M.traceFrom p actions) := by
  refine page_runFrom_inv hM ⟨hone, hrd, .inr (.inr (.inr hseq))⟩ ?_ actions
  intro t es e q hrx h
  exact h.step hrx

theorem Fails.observed (hM : IsPage M) (h : Fails M before a) :
    (M.run (before ++ [a])).store.observed = none := by
  cases h with
  | write call h => exact (event_reaction hM h).observed_of_saveFailed
  | read earlier between load call reason hbe hstr hqu hse hinFlight hli =>
    have hrx := event_reaction hM hstr
    have hone := oneReader_after hM earlier
    obtain ⟨hrd, hsto⟩ := hrx.readAt hone
    have haf := undisturbed_after hM (hone.step hrx) hrd (by rw [hsto]) between
    rw [← Reactive.run_append_cons, ← hbe] at haf
    rw [Reactive.run_concat, hse]
    obtain ⟨_, _, _, rfl⟩ := hM
    -- no save, not aborted, still in flight: the counter stands where the read started
    rcases haf.still with ⟨e, he, hsav⟩ | hab | hno | hseq
    · exact absurd hsav (hqu e he)
    · exact absurd hab hli
    · obtain ⟨r, hr, hcl⟩ := hinFlight
      exact absurd hcl (hno r hr)
    · exact haf.readAt.fails hinFlight hli hseq reason

/-! ## The guarantees -/

theorem put_under_observation (hM : IsPage M)
    (h : M.event before a = .putSent call revision config) :
    (∃ e ∈ M.trace before, e.returned = some revision) ∧
      ∃ loaded, lastLoaded (M.trace before) = some loaded ∧ loaded.withheld = [] := by
  obtain ⟨hob, hwt, hrev⟩ := (event_reaction hM h).of_putSent
  have hsn := seen_after hM before
  obtain ⟨loaded, hla, hsm⟩ := hsn.withheld (.inl hob)
  exact ⟨hrev ▸ hsn.revision hob, loaded, hla, hsm.trans hwt⟩

theorem overtaken_read_ignored {between later load settles} {savedCall : ℕ} {saved}
    (hM : IsPage M) (outcome : ReadOutcome) (hstr : M.event before load = .readStarted call)
    (hsvd : M.event (before ++ load :: between) settles = .saveApplied savedCall saved) :
    (M.run (before ++ load :: between ++ settles :: later ++ [.readSettles call outcome])).store =
      (M.run (before ++ load :: between ++ settles :: later)).store := by
  obtain ⟨hrd, -⟩ := (event_reaction hM hstr).readAt (oneReader_after hM before)
  have hbt := hrd.run hM between
  rw [← Reactive.run_append_cons] at hbt
  have hsav := event_reaction hM hsvd
  have hlt := (hbt.step hsav).run hM later
  have hmv := commitSeq_le hM (M.run (before ++ load :: between ++ [settles])) later
  rw [hsav.commitSeq_of_saveApplied] at hmv
  rw [← Reactive.run_append_cons] at hlt hmv
  rw [Reactive.run_concat]
  obtain ⟨_, _, _, rfl⟩ := hM
  exact hlt.settles (lt_of_le_of_lt hbt.seq_le hmv) outcome

theorem silent_until_restored {later put} (hM : IsPage M) (hfl : Fails M before a)
    (hput : M.event (before ++ a :: later) put = .putSent call revision config) :
    ∃ e ∈ M.traceFrom (M.run (before ++ [a])) later, Restores (M.run (before ++ [a])) e := by
  obtain ⟨hob, -⟩ := (event_reaction hM hput).of_putSent
  rw [Reactive.run_append_cons] at hob
  rcases silent_after hM (hfl.observed hM) later with hre | ⟨hn, -⟩
  · exact hre
  · exact absurd hn hob

/-- A PUT carries a revision that was returned and follows a read with nothing withheld; a read
that a save overtook changes nothing; after a failure there is no PUT until a read is applied or a
save that was in flight succeeds. -/
theorem writes_only_what_it_has_seen (getWidget : String → Option WidgetDef)
    (defaultLayoutFor : DashboardScope → DashboardLayoutConfig) (cluster : String) :
    let M := page getWidget defaultLayoutFor cluster
    (∀ before a call revision config, M.event before a = .putSent call revision config →
      (∃ e ∈ M.trace before, e.returned = some revision) ∧
        ∃ loaded, lastLoaded (M.trace before) = some loaded ∧ loaded.withheld = []) ∧
    (∀ before load between settles later call savedCall saved outcome,
      M.event before load = .readStarted call →
      M.event (before ++ load :: between) settles = .saveApplied savedCall saved →
      (M.run (before ++ load :: between ++ settles :: later ++ [.readSettles call outcome])).store =
        (M.run (before ++ load :: between ++ settles :: later)).store) ∧
    (∀ before a later put call revision config, Fails M before a →
      M.event (before ++ a :: later) put = .putSent call revision config →
      ∃ e ∈ M.traceFrom (M.run (before ++ [a])) later, Restores (M.run (before ++ [a])) e) := by
  intro M
  have hM : IsPage M := ⟨_, _, _, rfl⟩
  refine ⟨?_, ?_, ?_⟩
  · intro before a call revision config hput
    exact put_under_observation hM hput
  · intro before load between settles later call savedCall saved outcome hstr hsvd
    exact overtaken_read_ignored hM outcome hstr hsvd
  · intro before a later put call revision config hfl hput
    exact silent_until_restored hM hfl hput

def emptyLayout : DashboardLayoutConfig := { items := [] }

def emptyPage : Reactive Page PageAction PageEvent :=
  page (fun _ => none) (fun _ => emptyLayout) "local"

/-- A load, and a save that a second load is overtaken by. -/
def savedOverRead : List PageAction :=
  [.loadLayout .overview false, .readSettles 0 (.answer (some ⟨3, emptyLayout, none⟩)),
    .saveLayout .overview emptyLayout, .loadLayout .overview false,
    .saveSettles 1 (.answer ⟨4, emptyLayout, none⟩)]

def savedAgain : List PageAction :=
  savedOverRead ++ [.saveLayout .overview emptyLayout, .saveSettles 3 .failure,
    .loadLayout .overview false, .readSettles 4 (.answer (some ⟨5, emptyLayout, none⟩))]

theorem writes_only_what_it_has_seen_saves :
    emptyPage.event savedOverRead (.saveLayout .overview emptyLayout) = .putSent 3 4 emptyLayout ∧
      (∃ e ∈ emptyPage.trace savedOverRead, e.returned = some 4) ∧
      (emptyPage.run (savedOverRead ++ [.readSettles 2 (.failure none)])).store =
        (emptyPage.run savedOverRead).store ∧
      ∃ e ∈ emptyPage.traceFrom (emptyPage.run (savedAgain.take 7)) (savedAgain.drop 7),
        Restores (emptyPage.run (savedAgain.take 7)) e := by
  obtain ⟨hput, hrd, hsl⟩ :=
    writes_only_what_it_has_seen (fun _ => none) (fun _ => emptyLayout) "local"
  refine ⟨rfl, ?_, ?_, ?_⟩
  · exact (hput savedOverRead (.saveLayout .overview emptyLayout) 3 4 emptyLayout rfl).1
  · exact hrd (savedOverRead.take 3) (.loadLayout .overview false) []
      (.saveSettles 1 (.answer ⟨4, emptyLayout, none⟩)) [] 2 1 ⟨4, emptyLayout, none⟩
      (.failure none) rfl rfl
  · exact hsl (savedAgain.take 6) (.saveSettles 3 .failure) (savedAgain.drop 7)
      (.saveLayout .overview emptyLayout) 5 5 emptyLayout (.write 3 rfl) rfl

end KubeCenter.Dashboard
