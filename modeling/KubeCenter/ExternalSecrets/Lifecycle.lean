import KubeCenter.ExternalSecrets.SyncHistory
import KubeCenter.Lib.Calls
import KubeCenter.Notifications.Store

/-! # Lifecycle notifications of ExternalSecrets

`externalsecrets/poller.go`: `check`, and what `Start` and `tick` do around it. A new
ExternalSecret gets a created or first_synced record, but not in the first tick, which meets the
startup inventory. The flag for that is set whatever the first tick did. A seed of a restart that
nothing claims stays, for whatever comes under its name. -/
namespace KubeCenter.ExternalSecrets.Lifecycle

open Lib Notifications List
open Function (update update_of_ne update_self)

/-- An ExternalSecret as the thresholds left it. -/
structure Watched extends ExternalSecret where
  alertOnRecovery : Option Bool
  alertOnLifecycle : Option Bool

inductive StatusBucket
  | healthy
  | failed
  | stale
  | unknown
deriving DecidableEq

def bucketFor : Status → StatusBucket
  | .synced | .refreshing | .drifted => .healthy
  | .syncFailed => .failed
  | .stale => .stale
  | .unknown => .unknown

def isFailureBucket (b : StatusBucket) : Bool := b = .failed ∨ b = .stale ∨ b = .unknown

inductive EventKind
  | syncFailed
  | stale
  | unhealthy
  | recovered
  | created
  | deleted
  | firstSynced
deriving DecidableEq

def failureEventKind : StatusBucket → EventKind
  | .stale => .stale
  | .failed => .syncFailed
  | .healthy | .unknown => .unhealthy

structure EmitRecord where
  es : Watched
  kind : EventKind
  title : String
  msg : String
  sev : Severity

def failureRecord (es : Watched) (kind : EventKind) : EmitRecord :=
  let (title, msg, sev) : String × String × Severity :=
    match kind with
    | .syncFailed => ("ExternalSecret sync failed",
        "An ExternalSecret could not be reconciled by the controller.", .critical)
    | .stale => ("ExternalSecret stale",
        "An ExternalSecret has not synced within its stale-after window.", .warning)
    | .unhealthy => ("ExternalSecret unhealthy",
        "An ExternalSecret is in an unknown or degraded state.", .warning)
    | _ => ("", "", .warning)
  { es, kind, title, msg, sev }

def recoveryRecord (es : Watched) : EmitRecord :=
  ⟨es, .recovered, "ExternalSecret recovered",
    "An ExternalSecret has resumed syncing successfully.", .info⟩

def lifecycleRecord (es : Watched) (kind : EventKind) : EmitRecord :=
  let (title, msg) :=
    match kind with
    | .firstSynced => ("ExternalSecret first synced",
        "A new ExternalSecret has been reconciled for the first time.")
    | .created => ("ExternalSecret created",
        "A new ExternalSecret has been created (not yet synced).")
    | .deleted => ("ExternalSecret deleted", "An ExternalSecret has been deleted.")
    | _ => ("", "")
  { es, kind, title, msg, sev := .info }

/-- The maps of the poller that `check` reads; an absent `seen` is `false`. -/
structure Poller where
  prevBucket : String → Option StatusBucket
  seen : String → Bool
  initialized : Bool
  seedNSName : String → Option StatusBucket

def Watched.key (es : Watched) : String := es.ns ++ "/" ++ es.name

/-- The previous bucket, whether the UID was seen, and the seeds left: a new UID takes one. -/
def Poller.claimSeed (p : Poller) (es : Watched) :
    Option StatusBucket × Bool × (String → Option StatusBucket) :=
  match p.prevBucket es.uid, p.seen es.uid, p.seedNSName es.key with
  | none, false, some seed => (some seed, true, update p.seedNSName es.key none)
  | prev, wasSeen, _ => (prev, wasSeen, p.seedNSName)

def transition (es : Watched) (prev : Option StatusBucket) (current : StatusBucket) :
    List EmitRecord :=
  match prev with
  | none => []
  | some prev =>
    if prev = current then []
    else if prev = .healthy ∧ isFailureBucket current then
      [failureRecord es (failureEventKind current)]
    else if isFailureBucket prev ∧ current = .healthy then
      if es.alertOnRecovery.getD false then [recoveryRecord es] else []
    else if isFailureBucket prev ∧ isFailureBucket current then
      [failureRecord es (failureEventKind current)]
    else []

def Poller.check (p : Poller) (es : Watched) : List EmitRecord × Poller :=
  let current := bucketFor es.status
  let (prev, wasSeen, seeds) := p.claimSeed es
  (if !wasSeen ∧ p.initialized ∧ es.alertOnLifecycle.getD false then
      [lifecycleRecord es (if current = .healthy then .firstSynced else .created)]
    else transition es prev current,
    { p with
      prevBucket := update p.prevBucket es.uid (some current)
      seen := update p.seen es.uid true
      seedNSName := seeds })

def Poller.checkAll (p : Poller) : List Watched → List EmitRecord × Poller
  | [] => ([], p)
  | es :: ess =>
    let rest := (p.check es).2.checkAll ess
    ((p.check es).1 ++ rest.1, rest.2)

abbrev uids (ess : List Watched) : List String := ess.map fun es => es.uid

/-- What is known of a UID that the list no longer has is dropped. -/
def Poller.prune (p : Poller) (ess : List Watched) : Poller :=
  let gone := fun u => p.prevBucket u ≠ none ∧ u ∉ uids ess
  { p with
    prevBucket := fun u => if gone u then none else p.prevBucket u
    seen := fun u => if gone u then false else p.seen u }

/-- How a tick goes: no operator to ask, an error, or a list. -/
inductive Tick
  | skipped
  | failed
  | listed (ess : List Watched)

def Poller.tick (p : Poller) : Tick → List EmitRecord × Poller
  | .skipped | .failed => ([], p)
  | .listed ess => ((p.checkAll ess).1, (p.checkAll ess).2.prune ess)

/-- `Start`, with the seeds it found. The flag is set after the first tick. -/
def poller (seeds : String → Option StatusBucket) : Reactive Poller Tick (List EmitRecord) where
  init := ⟨fun _ => none, fun _ => false, false, seeds⟩
  react p t := ((p.tick t).1, { (p.tick t).2 with initialized := true })

/-! ## Who gets a lifecycle record -/

def lifecycleCount (u : String) (records : List EmitRecord) : ℕ :=
  records.countP fun r => r.es.uid = u ∧ (r.kind = .created ∨ r.kind = .firstSynced)

def Stays (u : String) (ticks : List Tick) : Prop := ∀ ess, .listed ess ∈ ticks → u ∈ uids ess

def Absent (u : String) (ticks : List Tick) : Prop := ∀ ess, .listed ess ∈ ticks → u ∉ uids ess

/-- What is in the first list gets no lifecycle record; what comes later without a seed gets one,
in the tick that first lists it. No UID comes back. -/
structure OnlyForLater (seeds : String → Option StatusBucket) (ticks : List Tick) : Prop where
  startup : ∀ before ess during after, ticks = before ++ .listed ess :: (during ++ after) →
    (∀ inv, .listed inv ∉ before) → ∀ es ∈ ess, Stays es.uid during → Absent es.uid after →
    ((poller seeds).trace ticks).map (lifecycleCount es.uid) = replicate ticks.length 0
  later : ∀ before pre es post during after,
    ticks = before ++ .listed (pre ++ es :: post) :: (during ++ after) →
    (∃ inv, .listed inv ∈ before) → Absent es.uid before → es.uid ∉ uids pre →
    es.alertOnLifecycle.getD false = true → seeds es.key = none → Stays es.uid during →
    Absent es.uid after → ((poller seeds).trace ticks).map (lifecycleCount es.uid) =
      replicate before.length 0 ++ 1 :: replicate (during ++ after).length 0

section

variable {p : Poller} {es : Watched} {ess : List Watched} {u k : String} {t : Tick}
  {ticks : List Tick} {seeds : String → Option StatusBucket}

theorem transition_quiet (prev : Option StatusBucket) (current : StatusBucket) :
    lifecycleCount u (transition es prev current) = 0 := by
  cases prev with
  | none => rfl
  | some prev =>
    cases prev <;> cases current <;> simp [transition, isFailureBucket, failureEventKind,
      failureRecord, recoveryRecord, lifecycleCount, apply_ite]

theorem check_quiet (h : p.initialized = false ∨ p.seen u = true ∨ u ≠ es.uid) :
    lifecycleCount u (p.check es).1 = 0 := by
  simp only [Poller.check]
  split
  next hnew =>
    have hot : u ≠ es.uid := by
      rintro rfl
      simp [Poller.claimSeed] at hnew
      grind
    simp [lifecycleRecord, lifecycleCount, hot.symm]
  · exact transition_quiet _ _

/-- The poller has not seen the UID and holds no seed of the name. -/
structure Fresh (u k : String) (p : Poller) : Prop where
  unseen : p.seen u = false
  unseeded : p.seedNSName k = none

theorem check_once (h : Fresh es.uid es.key p) (hin : p.initialized = true)
    (hon : es.alertOnLifecycle.getD false = true) : lifecycleCount es.uid (p.check es).1 = 1 := by
  have hcl : (p.claimSeed es).2.1 = false := by simp [Poller.claimSeed, h.unseen, h.unseeded]
  simp only [Poller.check, hcl, hin, hon]
  split <;> simp [lifecycleRecord, lifecycleCount]
  grind

theorem unseeded_check (h : p.seedNSName k = none) : (p.check es).2.seedNSName k = none := by
  simp only [Poller.check, Poller.claimSeed]
  split
  · exact update_none_of_none h
  · exact h

theorem Fresh.check (h : Fresh u k p) (hne : u ≠ es.uid) : Fresh u k (p.check es).2 :=
  ⟨(update_of_ne hne _ _).trans h.unseen, unseeded_check h.unseeded⟩

/-! A list marks its UIDs as seen, and leaves the others as they are. -/

theorem seen_check (h : p.seen u = true ∨ u = es.uid) : (p.check es).2.seen u = true := by
  by_cases hu : u = es.uid
  · rw [hu]
    exact update_self ..
  · exact (update_of_ne hu _ _).trans (h.resolve_right hu)

theorem seen_checkAll (h : p.seen u = true ∨ u ∈ uids ess) : (p.checkAll ess).2.seen u = true := by
  induction ess generalizing p with
  | nil => exact h.resolve_right not_mem_nil
  | cons es ess ih =>
    rw [uids, map_cons, mem_cons, ← or_assoc] at h
    exact ih (h.imp_left seen_check)

theorem checkAll_quiet (h : p.initialized = false ∨ p.seen u = true ∨ u ∉ uids ess) :
    lifecycleCount u (p.checkAll ess).1 = 0 := by
  induction ess generalizing p with
  | nil => rfl
  | cons es ess ih =>
    rw [uids, map_cons, mem_cons, not_or] at h
    rw [Poller.checkAll, lifecycleCount, countP_append]
    exact Nat.add_eq_zero_iff.mpr ⟨check_quiet (h.imp_right (.imp_right And.left)),
      ih (h.imp_right (.imp (seen_check ∘ .inl) And.right))⟩

theorem Fresh.checkAll (h : Fresh u k p) (hu : u ∉ uids ess) : Fresh u k (p.checkAll ess).2 := by
  induction ess generalizing p with
  | nil => exact h
  | cons es ess ih =>
    rw [uids, map_cons, mem_cons, not_or] at hu
    exact ih (h.check hu.1) hu.2

theorem checkAll_once {pre post : List Watched} (h : Fresh es.uid es.key p)
    (hin : p.initialized = true) (hon : es.alertOnLifecycle.getD false = true)
    (hpre : es.uid ∉ uids pre) :
    lifecycleCount es.uid (p.checkAll (pre ++ es :: post)).1 = 1 := by
  induction pre generalizing p with
  | nil =>
    rw [nil_append, Poller.checkAll, lifecycleCount, countP_append]
    exact congrArg₂ (· + ·) (check_once h hin hon)
      (checkAll_quiet (.inr (.inl (seen_check (.inr rfl)))))
  | cons x pre ih =>
    rw [uids, map_cons, mem_cons, not_or] at hpre
    rw [cons_append, Poller.checkAll, lifecycleCount, countP_append]
    exact congrArg₂ (· + ·) (check_quiet (.inr (.inr hpre.1))) (ih (h.check hpre.1) hin hpre.2)

/-! ## Runs -/

theorem tick_quiet (h : p.initialized = false ∨ p.seen u = true ∨ Absent u [t]) :
    lifecycleCount u (p.tick t).1 = 0 := by
  cases t with
  | skipped | failed => rfl
  | listed ess => exact checkAll_quiet (h.imp_right (.imp_right (· ess mem_cons_self)))

theorem seen_listed (hu : u ∈ uids ess) : (p.tick (.listed ess)).2.seen u = true :=
  (if_neg fun hgo => hgo.2 hu).trans (seen_checkAll (.inr hu))

theorem absent_cons : Absent u (t :: ticks) ↔ Absent u [t] ∧ Absent u ticks := by
  simp [Absent, forall_and, or_imp]

theorem quiet_absent (h : Absent u ticks) :
    ((poller seeds).traceFrom p ticks).map (lifecycleCount u) = replicate ticks.length 0 := by
  induction ticks generalizing p with
  | nil => rfl
  | cons t ticks ih =>
    obtain ⟨ht, htc⟩ := absent_cons.mp h
    exact congrArg₂ cons (tick_quiet (.inr (.inr ht))) (ih htc)

theorem Fresh.run (h : Fresh u k p) (ha : Absent u ticks) :
    Fresh u k ((poller seeds).runFrom p ticks) := by
  induction ticks generalizing p with
  | nil => exact h
  | cons t ticks ih =>
    obtain ⟨ht, htc⟩ := absent_cons.mp ha
    refine ih ?_ htc
    cases t with
    | skipped | failed => exact { h with }
    | listed ess =>
      have hall := h.checkAll (ht ess mem_cons_self)
      exact ⟨by simp [poller, Poller.tick, Poller.prune, hall.unseen], hall.unseeded⟩

theorem quiet_once_seen {during after : List Tick} (h : p.seen u = true) (hs : Stays u during)
    (ha : Absent u after) : ((poller seeds).traceFrom p (during ++ after)).map (lifecycleCount u) =
      replicate (during ++ after).length 0 := by
  induction during generalizing p with
  | nil => exact quiet_absent ha
  | cons t during ih =>
    refine congrArg₂ cons (tick_quiet (.inr (.inl h))) (ih ?_ fun ess hess => hs ess (.tail _ hess))
    cases t with
    | skipped | failed => exact h
    | listed ess => exact seen_listed (hs ess mem_cons_self)

end

/-- When the first tick gets its list, lifecycle records are only for what comes later. -/
theorem lifecycle_only_for_later (seeds : String → Option StatusBucket) (inv : List Watched)
    (ticks : List Tick) : OnlyForLater seeds (.listed inv :: ticks) where
  startup before ess during after hsplit hnone es hes hstays hgone := by
    cases before with
    | nil =>
      cases hsplit
      exact congrArg₂ cons (tick_quiet (.inl rfl))
        (quiet_once_seen (seen_listed (mem_map_of_mem hes)) hstays hgone)
    | cons t before =>
      cases hsplit
      exact absurd mem_cons_self (hnone inv)
  later before pre es post during after hsplit hls hab hpre hon hsd hstays hgone := by
    have hfs : Fresh es.uid es.key ((poller seeds).run before) := .run ⟨rfl, hsd⟩ hab
    have hin : ((poller seeds).run before).initialized = true := by
      obtain rfl | ⟨before, t, rfl⟩ := before.eq_nil_or_concat
      · simp at hls
      · rw [concat_eq_append, Reactive.run_concat]
        rfl
    rw [hsplit, Reactive.trace_append, map_append]
    refine congrArg₂ _ (quiet_absent hab) (congrArg₂ cons ?_ ?_)
    · exact checkAll_once hfs hin hon hpre
    · exact quiet_once_seen (seen_listed (by simp)) hstays hgone

private def credentials : Watched :=
  ⟨⟨"u", "apps", "db", .synced, none, "", "", "", ""⟩, none, some true⟩

/-- The same name again, under another UID. -/
private def recreated : Watched := { credentials with uid := "v" }

theorem lifecycle_only_for_later_recreated :
    let ticks : List Tick := [.listed [credentials], .listed [recreated], .failed]
    ((poller fun _ => none).trace ticks).map (lifecycleCount "u") = [0, 0, 0] ∧
      ((poller fun _ => none).trace ticks).map (lifecycleCount "v") = [0, 1, 0] := by
  have h := lifecycle_only_for_later (fun _ => none) [credentials] [.listed [recreated], .failed]
  exact ⟨h.startup [] [credentials] [] _ rfl (by simp) credentials (by simp) (by simp [Stays])
      (by simp [Absent, credentials, recreated]),
    h.later [.listed [credentials]] [] recreated [] [.failed] [] rfl (by simp)
      (by simp [Absent, credentials, recreated]) (by simp) rfl rfl (by simp [Stays])
      (by simp [Absent])⟩

/-- After a first tick without a list the startup inventory gets its records. -/
theorem lifecycle_after_failed_list :
    ¬ OnlyForLater (fun _ => none) [.failed, .listed [credentials]] := by
  intro h
  have hst := h.startup [.failed] [credentials] [] [] rfl (by simp) credentials (by simp)
    (by simp [Stays]) (by simp [Absent])
  exact absurd hst (by decide)

/-! ## Seeds -/

def laterRecords (seeds : String → Option StatusBucket) (before : List Tick) (ess : List Watched)
    (after : List Tick) : List (List EmitRecord) :=
  ((poller seeds).trace (before ++ .listed ess :: after)).drop (before.length + 1)

def Claimed (seeds : String → Option StatusBucket) (ess : List Watched) : Prop :=
  ∀ k, seeds k ≠ none → ∃ pre es post, ess = pre ++ es :: post ∧ es.key = k ∧ es.uid ∉ uids pre

abbrev Poller.seedless (p : Poller) : Poller := { p with seedNSName := fun _ => none }

section

variable {p : Poller} {es : Watched} {ess : List Watched} {ticks : List Tick}
  {seeds : String → Option StatusBucket}

theorem seedless_checkAll : (p.checkAll ess).2.seedless = (p.seedless.checkAll ess).2 := by
  induction ess generalizing p with
  | nil => rfl
  | cons es ess ih =>
    have hes : (p.check es).2.seedless = (p.seedless.check es).2 := by
      simp [Poller.check, Poller.claimSeed]
    exact ih.trans (by rw [hes]; rfl)

theorem unseeded_checkAll {k : String} (h : p.seedNSName k = none) :
    (p.checkAll ess).2.seedNSName k = none := by
  induction ess generalizing p with
  | nil => exact h
  | cons es ess ih => exact ih (unseeded_check h)

theorem claimed_checkAll {pre post : List Watched} (hsn : p.seen es.uid = false)
    (hpr : p.prevBucket es.uid = none) (hpre : es.uid ∉ uids pre) :
    (p.checkAll (pre ++ es :: post)).2.seedNSName es.key = none := by
  induction pre generalizing p with
  | nil =>
    refine unseeded_checkAll (p := (p.check es).2) ?_
    simp only [Poller.check, Poller.claimSeed, hsn, hpr]
    cases hsd : p.seedNSName es.key with
    | none => exact hsd
    | some b => exact update_self ..
  | cons x pre ih =>
    rw [uids, map_cons, mem_cons, not_or] at hpre
    exact ih ((update_of_ne hpre.1 _ _).trans hsn) ((update_of_ne hpre.1 _ _).trans hpr) hpre.2

variable (seeds) in
theorem seedless_run : ((poller seeds).runFrom p ticks).seedless =
    (poller fun _ => none).runFrom p.seedless ticks := by
  induction ticks generalizing p with
  | nil => rfl
  | cons t ticks ih =>
    refine ih.trans (congrArg (Reactive.runFrom _ · ticks) ?_)
    cases t with
    | skipped | failed => rfl
    | listed ess => simp [poller, Poller.tick, Poller.prune, ← seedless_checkAll]

theorem traceFrom_seeds (seeds' : String → Option StatusBucket) :
    (poller seeds).traceFrom p ticks = (poller seeds').traceFrom p ticks := by
  induction ticks generalizing p with
  | nil => rfl
  | cons t ticks ih => exact congrArg ((p.tick t).1 :: ·) ih

variable (seeds) in
theorem run_unlisted (h : ∀ ess, .listed ess ∉ ticks) :
    ∃ b, (poller seeds).runFrom p ticks = { p with initialized := b } := by
  induction ticks generalizing p with
  | nil => exact ⟨p.initialized, rfl⟩
  | cons t ticks ih =>
    have htc := ih (p := { p with initialized := true }) fun ess hess => h ess (.tail _ hess)
    cases t with
    | skipped | failed => exact htc
    | listed ess => exact absurd mem_cons_self (h ess)

end

/-- When the first list has every seeded name, the seeds are forgotten after it. -/
theorem seeds_forgotten (seeds : String → Option StatusBucket) (before : List Tick)
    (hbefore : ∀ inv, .listed inv ∉ before) (ess : List Watched) (hclaimed : Claimed seeds ess)
    (after : List Tick) :
    laterRecords seeds before ess after = laterRecords (fun _ => none) before ess after := by
  have hsa : (poller seeds).run (before ++ [.listed ess]) =
      (poller fun _ => none).run (before ++ [.listed ess]) := by
    refine Eq.trans ?_ (seedless_run (p := (poller seeds).init) seeds)
    obtain ⟨b, hb⟩ := run_unlisted (p := (poller seeds).init) seeds hbefore
    have hno : ((poller seeds).run (before ++ [.listed ess])).seedNSName = fun _ => none := by
      funext k
      rw [Reactive.run_concat, Reactive.run, hb]
      by_cases hk : seeds k = none
      · exact unseeded_checkAll hk
      · obtain ⟨pre, es, post, rfl, rfl, hpre⟩ := hclaimed k hk
        exact claimed_checkAll rfl rfl hpre
    exact congrArg (Poller.mk _ _ _) hno
  have hlt : ∀ seeds', laterRecords seeds' before ess after =
      (poller seeds').traceFrom ((poller seeds').run (before ++ [.listed ess])) after := by
    intro seeds'
    rw [laterRecords, ← singleton_append, ← append_assoc, Reactive.trace_append, drop_left']
    simp [Reactive.length_trace]
  rw [hlt, hlt, hsa, traceFrom_seeds]

private def restarted (k : String) : Option StatusBucket :=
  if k = "apps/db" then some .failed else none

theorem seeds_forgotten_listed :
    laterRecords restarted [.failed] [credentials] [.listed [recreated]] =
      laterRecords (fun _ => none) [.failed] [credentials] [.listed [recreated]] := by
  refine seeds_forgotten restarted [.failed] (by simp) [credentials] (fun k hk => ?_) _
  have hk : "apps/db" = k := by
    unfold restarted at hk
    grind
  exact ⟨[], credentials, [], rfl, hk, by simp⟩

/-- A seed that the first list does not claim is taken by an ExternalSecret that comes later. -/
theorem seed_claimed_late : laterRecords restarted [] [] [.listed [credentials]] ≠
    laterRecords (fun _ => none) [] [] [.listed [credentials]] := by
  intro h
  exact absurd (congrArg (map length) h) (by decide)

end KubeCenter.ExternalSecrets.Lifecycle
