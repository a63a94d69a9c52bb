import KubeCenter.Lib.Calls
import KubeCenter.Lib.Reactive
import KubeCenter.Notifications.Store
import Mathlib.Data.List.Pairwise
import Mathlib.Tactic.Linarith

/-! # Notifications that repeat

`InsertDeduped` of `store.go`: one transaction that takes an advisory lock, known by a hash, on the
notification's identity, looks for a row of that identity in the window, and inserts unless there
is one. A row is created at the start of its transaction, the window ends at the start of the
lookup. -/
namespace KubeCenter.Notifications
open Lib Go List
open Function (update update_of_ne update_self)

/-! ## Identities -/

def localClusterID : String := "local"

def dedupClusterID (clusterID : String) : String :=
  if clusterID = "" ∨ clusterID = localClusterID then localClusterID else clusterID

/-- The empty cluster and the local one are the same. -/
structure DedupIdentity where
  source : Source
  resourceKind : String
  resourceNS : String
  resourceName : String
  title : String
  resourceUID : String
  clusterID : String
deriving DecidableEq

def Notification.identity (n : Notification) : DedupIdentity :=
  ⟨n.source, n.resourceKind, n.resourceNS, n.resourceName, n.title, n.resourceUID,
    dedupClusterID n.clusterID⟩

def Source.text : Source → String
  | .alert => "alert"
  | .policy => "policy"
  | .gitops => "gitops"
  | .diagnostic => "diagnostic"
  | .scan => "scan"
  | .cluster => "cluster"
  | .audit => "audit"
  | .limits => "limits"
  | .velero => "velero"
  | .certManager => "certmanager"
  | .externalSecrets => "external_secrets"

def dedupLockKey (n : Notification) : String :=
  "\x1f".intercalate ["nc_notifications_dedup", n.source.text, n.resourceKind, n.resourceNS,
    n.resourceName, n.title, n.resourceUID, dedupClusterID n.clusterID]

/-- `int(window.Seconds())`. -/
def windowSeconds (window : Duration) : Int := window.tdiv second

/-- The conditions of `dedupExistsQuery` on a row, at the time its statement starts. -/
def dedupMatches (window : Duration) (n : Notification) (statementTimestamp : Time) (r : Row) :
    Bool :=
  r.notification.source = n.source && r.notification.resourceKind = n.resourceKind &&
    r.notification.resourceNS = n.resourceNS && r.notification.resourceName = n.resourceName &&
    r.notification.title = n.title && r.notification.resourceUID = n.resourceUID &&
    (if r.notification.clusterID = "" then localClusterID else r.notification.clusterID) =
      dedupClusterID n.clusterID &&
    statementTimestamp - windowSeconds window * second < r.createdAt

theorem dedupMatches_iff {window : Duration} {n} {ts : Time} {r : Row} :
    dedupMatches window n ts r = true ↔ r.notification.identity = n.identity ∧
        ts - windowSeconds window * second < r.createdAt := by
  have hfl : ∀ clusterID : String,
      (if clusterID = "" then localClusterID else clusterID) = dedupClusterID clusterID := by
    intro clusterID
    unfold dedupClusterID
    by_cases hem : clusterID = ""
    · simp [hem]
    · by_cases hlc : clusterID = localClusterID
      · simp [hlc]
      · simp [hem, hlc]
  simp [dedupMatches, Notification.identity, hfl, and_assoc]

theorem dedupLockKey_of_identity {n n' : Notification} (h : n.identity = n'.identity) :
    dedupLockKey n = dedupLockKey n' := by
  simp only [Notification.identity, DedupIdentity.mk.injEq] at h
  obtain ⟨hsr, hkn, hns, hnm, hti, huid, hcu⟩ := h
  simp only [dedupLockKey, hsr, hkn, hns, hnm, hti, huid, hcu]

/-! ## The transactions -/

/-- The next operation of a call. `ts` is the time of its lookup. -/
inductive DedupStage where
  | lock
  | lookup
  | insert (ts : Time)
  | commit (ts : Time) (r : Row)
deriving DecidableEq

structure DedupCall where
  notification : Notification
  startedAt : Time
  stage : DedupStage
deriving DecidableEq

structure DedupStore where
  rows : List Row
  inserted : ℕ
  now : Time
  calls : ℕ → Option DedupCall := fun _ => none
  locks : ℕ → Option ℕ := fun _ => none
  started : ℕ := 0

inductive DedupAction where
  | insertDeduped (n : Notification)
  /-- The next operation of a call, where it can run. -/
  | step (call : ℕ)
  /-- The operation fails, and the transaction is rolled back. -/
  | fail (call : ℕ)
  /-- The commit fails, and the row is written or not. -/
  | failCommit (call : ℕ) (written : Bool)
  | elapse (d : ℕ)
deriving DecidableEq

inductive DedupEvent where
  | idle
  | started (call : ℕ) (n : Notification) (now : Time)
  /-- The lookup of a call found no row. -/
  | looked (call : ℕ) (ts : Time)
  /-- The call reports that it has not inserted. -/
  | deduped (call : ℕ) (n : Notification) (ts : Time)
  /-- The call reports that it has inserted. -/
  | inserted (call : ℕ) (r : Row) (ts : Time)
  | failed (call : ℕ)
deriving DecidableEq

namespace DedupStore

variable (hash : String → ℕ)

def goto (s : DedupStore) (k : ℕ) (c : DedupCall) (stage : DedupStage) : DedupStore :=
  { s with calls := update s.calls k (some { c with stage }) }

/-- The transaction ends, and its lock is free if it held it. -/
def finish (s : DedupStore) (k : ℕ) (c : DedupCall) : DedupStore :=
  let h := hash (dedupLockKey c.notification)
  { s with
    calls := update s.calls k none
    locks := if s.locks h = some k then update s.locks h none else s.locks }

def step (window : Duration) (s : DedupStore) (k : ℕ) (c : DedupCall) : DedupEvent × DedupStore :=
  match c.stage with
  | .lock =>
    let h := hash (dedupLockKey c.notification)
    if s.locks h = none then
      (.idle, { s with locks := update s.locks h (some k) }.goto k c .lookup)
    else (.idle, s)
  | .lookup =>
    if s.rows.any (dedupMatches window c.notification s.now) then
      (.deduped k c.notification s.now, s.finish hash k c)
    else (.looked k s.now, s.goto k c (.insert s.now))
  | .insert ts =>
    (.idle, { s with inserted := s.inserted + 1 }.goto k c
      (.commit ts ⟨s.inserted, c.notification, c.startedAt⟩))
  | .commit ts r => (.inserted k r ts, { s with rows := s.rows ++ [r] }.finish hash k c)

def failCommit (s : DedupStore) (k : ℕ) (c : DedupCall) (written : Bool) :
    DedupEvent × DedupStore :=
  match c.stage with
  | .commit _ r =>
    (.failed k, { s with rows := if written then s.rows ++ [r] else s.rows }.finish hash k c)
  | _ => (.idle, s)

def react (window : Duration) (s : DedupStore) : DedupAction → DedupEvent × DedupStore
  | .insertDeduped n =>
    (.started s.started n s.now, { s with
        started := s.started + 1
        calls := update s.calls s.started (some ⟨n, s.now, .lock⟩) })
  | .step k =>
    match s.calls k with
    | some c => s.step hash window k c
    | none => (.idle, s)
  | .fail k =>
    match s.calls k with
    | some c => (.failed k, s.finish hash k c)
    | none => (.idle, s)
  | .failCommit k written =>
    match s.calls k with
    | some c => s.failCommit hash k c written
    | none => (.idle, s)
  | .elapse d => (.idle, { s with now := s.now + d })

end DedupStore

/-- The store from given rows on. `hash` is `hashtextextended`, and may collide. -/
def dedupStore (hash : String → ℕ) (window : Duration) (rows : List Row) (now : Time) :
    Reactive DedupStore DedupAction DedupEvent where
  init := { rows, inserted := rows.length, now }
  react := DedupStore.react hash window

/-! ## What a step can do -/

/-- The time of a call's lookup, once it found nothing. -/
@[local simp] def DedupStage.lookedAt : DedupStage → Option Time
  | .lock => none
  | .lookup => none
  | .insert ts => some ts
  | .commit ts _ => some ts

section

variable {hash : String → ℕ} {window : Duration} {s s' : DedupStore} {e : DedupEvent}

def DedupCall.lock (hash : String → ℕ) (c : DedupCall) : ℕ := hash (dedupLockKey c.notification)

variable {c c' : DedupCall} {stage : DedupStage} {ts : Time} {r : Row} {k k' : ℕ}

theorem DedupCall.lock_of_identity (h : c.notification.identity = c'.notification.identity) :
    c.lock hash = c'.lock hash :=
  congrArg hash (dedupLockKey_of_identity h)

variable (hash window s) in
inductive DedupMove : DedupEvent → DedupStore → Prop
  | stay : DedupMove .idle s
  | elapse (d : ℕ) : DedupMove .idle { s with now := s.now + d }
  | start (n : Notification) : DedupMove (.started s.started n s.now) { s with
        started := s.started + 1
        calls := update s.calls s.started (some ⟨n, s.now, .lock⟩) }
  | grant {k : ℕ} {c : DedupCall} (hc : s.calls k = some c) (hstage : c.stage = .lock)
      (hfree : s.locks (c.lock hash) = none) :
      DedupMove .idle ({ s with locks := update s.locks (c.lock hash) (some k) }.goto k c .lookup)
  | look {k : ℕ} {c : DedupCall} (hc : s.calls k = some c) (hstage : c.stage = .lookup)
      (hnone : ∀ r ∈ s.rows, r.notification.identity = c.notification.identity →
        r.createdAt ≤ s.now - windowSeconds window * second) :
      DedupMove (.looked k s.now) (s.goto k c (.insert s.now))
  | dedup {k : ℕ} {c : DedupCall} {r : Row} (hc : s.calls k = some c) (hr : r ∈ s.rows)
      (hidentity : r.notification.identity = c.notification.identity)
      (hrecent : s.now - windowSeconds window * second < r.createdAt) :
      DedupMove (.deduped k c.notification s.now) (s.finish hash k c)
  | insert {k : ℕ} {c : DedupCall} {ts : Time} (hc : s.calls k = some c)
      (hstage : c.stage = .insert ts) :
      DedupMove .idle ({ s with inserted := s.inserted + 1 }.goto k c
        (.commit ts ⟨s.inserted, c.notification, c.startedAt⟩))
  | commit {k : ℕ} {c : DedupCall} {ts : Time} {r : Row} (hc : s.calls k = some c)
      (hstage : c.stage = .commit ts r) :
      DedupMove (.inserted k r ts) ({ s with rows := s.rows ++ [r] }.finish hash k c)
  | fail {k : ℕ} {c : DedupCall} (hc : s.calls k = some c) :
      DedupMove (.failed k) (s.finish hash k c)
  | unsure {k : ℕ} {c : DedupCall} {ts : Time} {r : Row} (hc : s.calls k = some c)
      (hstage : c.stage = .commit ts r) :
      DedupMove (.failed k) ({ s with rows := s.rows ++ [r] }.finish hash k c)

theorem DedupStore.step_move (hc : s.calls k = some c) :
    DedupMove hash window s (s.step hash window k c).1 (s.step hash window k c).2 := by
  unfold DedupStore.step
  split
  case h_1 hstg =>
    dsimp only
    split
    next hfr => exact .grant hc hstg hfr
    · exact .stay
  case h_2 hstg =>
    split
    next hany =>
      obtain ⟨r, hr, hma⟩ := any_eq_true.mp hany
      obtain ⟨hid, hrc⟩ := dedupMatches_iff.mp hma
      exact .dedup hc hr hid hrc
    next hany =>
      refine .look hc hstg fun r hr hid => ?_
      by_contra hrc
      exact hany (any_eq_true.mpr ⟨r, hr, dedupMatches_iff.mpr ⟨hid, Int.not_le.mp hrc⟩⟩)
  case h_3 ts hstg => exact .insert hc hstg
  case h_4 ts r hstg => exact .commit hc hstg

theorem DedupStore.react_move (a : DedupAction) :
    DedupMove hash window s (s.react hash window a).1 (s.react hash window a).2 := by
  cases a with
  | insertDeduped n => exact .start n
  | elapse d => exact .elapse d
  | step k =>
    simp only [DedupStore.react]
    split
    next c hc => exact DedupStore.step_move hc
    · exact .stay
  | fail k =>
    simp only [DedupStore.react]
    split
    next c hc => exact .fail hc
    · exact .stay
  | failCommit k written =>
    simp only [DedupStore.react]
    split
    next c hc =>
      unfold DedupStore.failCommit
      split
      · rename_i ts r hstg
        cases written with
        | true => exact .unsure hc hstg
        | false => exact .fail hc
      · exact .stay
    · exact .stay

/-! ## What the lock protects -/

/-- A call past its lock holds it, and no row of its identity came into its window since its
lookup. -/
structure Locked (hash : String → ℕ) (window : Duration) (s : DedupStore) : Prop where
  unused : ∀ k, s.started ≤ k → s.calls k = none
  held : ∀ k c, s.calls k = some c → c.stage ≠ .lock → s.locks (c.lock hash) = some k
  clear : ∀ k c ts, s.calls k = some c → c.stage.lookedAt = some ts → ∀ r ∈ s.rows,
    r.notification.identity = c.notification.identity →
      r.createdAt ≤ ts - windowSeconds window * second
  row : ∀ k c ts r, s.calls k = some c → c.stage = .commit ts r →
    r.notification = c.notification ∧ r.createdAt = c.startedAt

theorem DedupStore.locks_finish {h : ℕ} (hk : k' ≠ k) (hhd : s.locks h = some k') :
    (s.finish hash k c).locks h = some k' := by
  simp only [finish]
  split
  next hown =>
    have hh : h ≠ hash (dedupLockKey c.notification) := by
      rintro rfl
      rw [hown] at hhd
      exact hk (Option.some.inj hhd).symm
    rw [update_of_ne hh, hhd]
  · exact hhd

section

variable (hs : Locked hash window s)
include hs

theorem Locked.goto (hc : s.calls k = some c) (hhd : s.locks (c.lock hash) = some k)
    (hcle : ∀ ts, stage.lookedAt = some ts → ∀ r ∈ s.rows,
      r.notification.identity = c.notification.identity →
        r.createdAt ≤ ts - windowSeconds window * second) (hrow : ∀ ts r, stage = .commit ts r →
      r.notification = c.notification ∧ r.createdAt = c.startedAt) :
    Locked hash window (s.goto k c stage) where
  unused k' hk' := unused_update hs.unused hc _ hk'
  held := forall_update hs.held fun _ => hhd
  clear k' c' ts hc' hstg := by
    rcases update_some_cases hc' with ⟨rfl, rfl⟩ | ⟨-, hc'⟩
    · exact hcle ts hstg
    · exact hs.clear k' c' ts hc' hstg
  row k' c' ts r hc' hstg := by
    rcases update_some_cases hc' with ⟨rfl, rfl⟩ | ⟨-, hc'⟩
    · exact hrow ts r hstg
    · exact hs.row k' c' ts r hc' hstg

theorem Locked.finish : Locked hash window (s.finish hash k c) where
  unused k' hk' := update_none_of_none (hs.unused k' hk')
  held k' c' hc' hstg := by
    obtain ⟨hne, hc'⟩ := update_none_cases hc'
    exact DedupStore.locks_finish hne (hs.held k' c' hc' hstg)
  clear k' c' ts hc' := hs.clear k' c' ts (update_none_cases hc').2
  row k' c' ts r hc' := hs.row k' c' ts r (update_none_cases hc').2

/-- Another call with a lookup behind it holds another lock: the row is not of its identity. -/
theorem Locked.write (hc : s.calls k = some c) (hstg : c.stage = .commit ts r) :
    Locked hash window ({ s with rows := s.rows ++ [r] }.finish hash k c) where
  unused := (hs.finish (k := k) (c := c)).unused
  held := (hs.finish (k := k) (c := c)).held
  clear k' c' ts' hc' hlk r' hr' hid := by
    obtain ⟨hne, hc'⟩ := update_none_cases hc'
    rcases mem_concat hr' with hr' | hr'
    · exact hs.clear k' c' ts' hc' hlk r' hr' hid
    · rw [hr', (hs.row k c ts r hc hstg).1] at hid
      have hmn : s.locks (c.lock hash) = some k := hs.held k c hc (by simp [hstg])
      have hth : s.locks (c'.lock hash) = some k' := by
        refine hs.held k' c' hc' ?_
        intro hlo
        simp [hlo] at hlk
      rw [DedupCall.lock_of_identity hid, hth] at hmn
      exact absurd (Option.some.inj hmn) hne
  row := (hs.finish (k := k) (c := c)).row

theorem Locked.grant (hc : s.calls k = some c) (hfr : s.locks (c.lock hash) = none) :
    Locked hash window
      ({ s with locks := update s.locks (c.lock hash) (some k) }.goto k c .lookup) := by
  have hloc : Locked hash window { s with locks := update s.locks (c.lock hash) (some k) } :=
    { unused := hs.unused
      clear := hs.clear
      row := hs.row
      held := by
        intro k' c' hc' hstg
        have hth := hs.held k' c' hc' hstg
        have hne : c'.lock hash ≠ c.lock hash := by
          intro heq
          rw [heq, hfr] at hth
          cases hth
        dsimp only
        rw [update_of_ne hne, hth] }
  refine hloc.goto hc ?_ ?_ ?_
  · dsimp only
    rw [update_self]
  · intro ts hts
    cases hts
  · intro ts r hstg
    cases hstg

theorem Locked.start (n : Notification) : Locked hash window { s with
        started := s.started + 1
        calls := update s.calls s.started (some ⟨n, s.now, .lock⟩) } := by
  refine ⟨fun k hk => unused_start hs.unused _ hk, forall_update hs.held (absurd rfl), ?_, ?_⟩
  · intro k c ts hc hlk
    rcases update_some_cases hc with ⟨-, rfl⟩ | ⟨-, hc⟩
    · cases hlk
    · exact hs.clear k c ts hc hlk
  · intro k c ts r hc hstg
    rcases update_some_cases hc with ⟨-, rfl⟩ | ⟨-, hc⟩
    · cases hstg
    · exact hs.row k c ts r hc hstg

theorem Locked.move (hmv : DedupMove hash window s e s') : Locked hash window s' := by
  cases hmv with
  | stay => exact hs
  | elapse d => exact ⟨hs.unused, hs.held, hs.clear, hs.row⟩
  | start n => exact hs.start n
  | grant hc hstg hfr => exact hs.grant hc hfr
  | look hc hstg hno =>
    refine hs.goto hc (hs.held _ _ hc (by simp [hstg])) ?_ ?_
    · intro ts hts
      cases hts
      exact hno
    · intro ts r hcm
      cases hcm
  | dedup | fail => exact hs.finish
  | @insert k c ts hc hstg =>
    have hnx : Locked hash window { s with inserted := s.inserted + 1 } :=
      ⟨hs.unused, hs.held, hs.clear, hs.row⟩
    refine hnx.goto hc (hs.held _ _ hc (by simp [hstg])) ?_ ?_
    · intro ts' hts'
      cases hts'
      exact hs.clear k c ts hc (by simp [hstg])
    · intro ts' r hcm
      cases hcm
      exact ⟨rfl, rfl⟩
  | commit hc hstg | unsure hc hstg => exact hs.write hc hstg

end

/-! ## What the trace tells -/

def Reported (es : List DedupEvent) (k : ℕ) : Prop :=
  .failed k ∈ es ∨ (∃ r ts, .inserted k r ts ∈ es) ∨ ∃ n ts, .deduped k n ts ∈ es

/-- A row inserted later was looked for when the row inserted earlier was out of the
window. -/
def Spaced (window : Duration) : DedupEvent → DedupEvent → Prop
  | .inserted _ r _, .inserted _ r' ts' =>
    r.notification.identity = r'.notification.identity →
      r.createdAt ≤ ts' - windowSeconds window * second
  | _, _ => True

/-- A row of the identity, in the window, and stored from the start or written by another call. -/
def SuppressedBy (rows : List Row) (window : Duration) (es : List DedupEvent) (k : ℕ)
    (n : Notification) (ts : Time) (r : Row) : Prop :=
  r.notification.identity = n.identity ∧ ts - windowSeconds window * second < r.createdAt ∧
    (r ∈ rows ∨ ∃ k', k' ≠ k ∧ .started k' r.notification r.createdAt ∈ es)

structure Told (rows : List Row) (window : Duration) (s : DedupStore) (es : List DedupEvent) :
    Prop where
  numbered : ∀ k n t, .started k n t ∈ es → k < s.started
  begun : ∀ k c, s.calls k = some c → .started k c.notification c.startedAt ∈ es
  looked : ∀ k c ts, s.calls k = some c → c.stage.lookedAt = some ts → .looked k ts ∈ es
  ended : ∀ k n t, .started k n t ∈ es → s.calls k ≠ none ∨ Reported es k
  written : ∀ r ∈ s.rows, r ∈ rows ∨
    ∃ k, s.calls k = none ∧ .started k r.notification r.createdAt ∈ es
  inserted : ∀ k r ts, .inserted k r ts ∈ es → r ∈ s.rows ∧
    .started k r.notification r.createdAt ∈ es ∧ .looked k ts ∈ es
  deduped : ∀ k n ts, .deduped k n ts ∈ es → (∃ t, .started k n t ∈ es) ∧
    ∃ r, SuppressedBy rows window es k n ts r
  spaced : es.Pairwise (Spaced window)

/-- A call goes on, or ends and reports; a new row is that of a call that ends. -/
structure Carries (s : DedupStore) (e : DedupEvent) (s' : DedupStore) : Prop where
  started : s'.started = s.started
  quiet : ∀ k n t, e ≠ .started k n t
  calls : ∀ k c, s'.calls k = some c → ∃ c₀, s.calls k = some c₀ ∧
    c.notification = c₀.notification ∧ c.startedAt = c₀.startedAt ∧
      ∀ ts, c.stage.lookedAt = some ts → c₀.stage.lookedAt = some ts ∨ e = .looked k ts
  ended : ∀ k, s'.calls k = none → s.calls k = none ∨ Reported [e] k
  kept : ∀ r ∈ s.rows, r ∈ s'.rows
  written : ∀ r ∈ s'.rows, r ∈ s.rows ∨ ∃ k c, s.calls k = some c ∧ s'.calls k = none ∧
    r.notification = c.notification ∧ r.createdAt = c.startedAt

theorem Carries.gone (h : Carries s e s') (hk : s.calls k = none) : s'.calls k = none := by
  by_contra hsm
  obtain ⟨c, hc⟩ := Option.ne_none_iff_exists'.mp hsm
  obtain ⟨c₀, hc₀, -⟩ := h.calls k c hc
  rw [hk] at hc₀
  cases hc₀

theorem Carries.of_same (hst : s'.started = s.started) (hcl : s'.calls = s.calls)
    (hrw : s'.rows = s.rows) : Carries s .idle s' where
  started := hst
  quiet k n t := by simp
  calls k c hc := ⟨c, hcl ▸ hc, rfl, rfl, fun ts hts => .inl hts⟩
  ended k hk := .inl (hcl ▸ hk)
  kept r hr := hrw ▸ hr
  written r hr := .inl (hrw ▸ hr)

theorem Carries.goto (hc : s.calls k = some c) (hqu : ∀ k n t, e ≠ .started k n t)
    (hlk : ∀ ts, stage.lookedAt = some ts → c.stage.lookedAt = some ts ∨ e = .looked k ts)
    (hst : s'.started = s.started) (hcl : s'.calls = (s.goto k c stage).calls)
    (hrw : s'.rows = s.rows) : Carries s e s' where
  started := hst
  quiet := hqu
  calls k' c' hc' := by
    rw [hcl] at hc'
    rcases update_some_cases hc' with ⟨rfl, rfl⟩ | ⟨-, hc'⟩
    · exact ⟨c, hc, rfl, rfl, hlk⟩
    · exact ⟨c', hc', rfl, rfl, fun ts hts => .inl hts⟩
  ended k' hk' := by
    rw [hcl] at hk'
    by_cases hk : k' = k
    · subst hk
      simp [DedupStore.goto] at hk'
    · exact .inl (by simpa only [DedupStore.goto, update_of_ne hk] using hk')
  kept r hr := hrw ▸ hr
  written r hr := .inl (hrw ▸ hr)

theorem Carries.finish {rows : List Row} (hc : s.calls k = some c)
    (hqu : ∀ k n t, e ≠ .started k n t) (hrep : Reported [e] k)
    (hkp : ∀ r ∈ s.rows, r ∈ rows) (hwr : ∀ r ∈ rows, r ∈ s.rows ∨
      (r.notification = c.notification ∧ r.createdAt = c.startedAt)) :
    Carries s e ({ s with rows }.finish hash k c) where
  started := rfl
  quiet := hqu
  calls k' c' hc' := ⟨c', (update_none_cases hc').2, rfl, rfl, fun ts hts => .inl hts⟩
  ended k' hk' := by
    by_cases hk : k' = k
    · subst hk
      exact .inr hrep
    · exact .inl (by simpa only [DedupStore.finish, update_of_ne hk] using hk')
  kept := hkp
  written r hr := by
    refine (hwr r hr).imp_right fun hrow => ⟨k, c, hc, ?_, hrow⟩
    simp [DedupStore.finish]

theorem Carries.write (hs : Locked hash window s) (hc : s.calls k = some c)
    (hstg : c.stage = .commit ts r) (hqu : ∀ k n t, e ≠ .started k n t)
    (hrep : Reported [e] k) :
    Carries s e ({ s with rows := s.rows ++ [r] }.finish hash k c) := by
  refine Carries.finish hc hqu hrep (fun _ hr => mem_append_left _ hr) ?_
  intro r' hr'
  rcases mem_concat hr' with hr' | hr'
  · exact .inl hr'
  · rw [hr']
    exact .inr (hs.row k c ts r hc hstg)

theorem Reported.mono {es es'} (h : Reported es k) (hsub : es ⊆ es') : Reported es' k := by
  rcases h with h | ⟨r, ts, h⟩ | ⟨n, ts, h⟩
  · exact .inl (hsub h)
  · exact .inr (.inl ⟨r, ts, hsub h⟩)
  · exact .inr (.inr ⟨n, ts, hsub h⟩)

variable {rows : List Row} {es : List DedupEvent}

theorem SuppressedBy.append {n} (h : SuppressedBy rows window es k n ts r) (es' : List DedupEvent) :
    SuppressedBy rows window (es ++ es') k n ts r :=
  ⟨h.1, h.2.1, h.2.2.imp_right fun ⟨k', hne, hk'⟩ => ⟨k', hne, mem_append_left _ hk'⟩⟩

/-- What a new event has to say. -/
structure Says (rows : List Row) (window : Duration) (s' : DedupStore) (es : List DedupEvent)
    (e : DedupEvent) : Prop where
  inserted : ∀ k r ts, e = .inserted k r ts → r ∈ s'.rows ∧
    .started k r.notification r.createdAt ∈ es ∧ .looked k ts ∈ es
  deduped : ∀ k n ts, e = .deduped k n ts → (∃ t, .started k n t ∈ es) ∧
    ∃ r, SuppressedBy rows window es k n ts r
  spaced : ∀ e₀ ∈ es, Spaced window e₀ e

theorem Told.extend (h : Told rows window s es) (hcr : Carries s e s')
    (hnew : Says rows window s' es e) : Told rows window s' (es ++ [e]) where
  numbered k n t hsta := by
    rcases mem_concat hsta with hsta | hsta
    · exact hcr.started ▸ h.numbered k n t hsta
    · exact absurd hsta.symm (hcr.quiet k n t)
  begun k c hc := by
    obtain ⟨c₀, hc₀, hnt, hstartedAt, -⟩ := hcr.calls k c hc
    rw [hnt, hstartedAt]
    exact mem_append_left _ (h.begun k c₀ hc₀)
  looked k c ts hc hlk := by
    obtain ⟨c₀, hc₀, -, -, hstg⟩ := hcr.calls k c hc
    rcases hstg ts hlk with hold | rfl
    · exact mem_append_left _ (h.looked k c₀ ts hc₀ hold)
    · exact mem_append_right _ (mem_singleton_self _)
  ended k n t hsta := by
    rcases mem_concat hsta with hsta | hsta
    · rcases h.ended k n t hsta with hrun | hrep
      · by_cases hk : s'.calls k = none
        · rcases hcr.ended k hk with hgo | hrep
          · exact absurd hgo hrun
          · exact .inr (hrep.mono (subset_append_right es [e]))
        · exact .inl hk
      · exact .inr (hrep.mono (subset_append_left es [e]))
    · exact absurd hsta.symm (hcr.quiet k n t)
  written r hr := by
    rcases hcr.written r hr with hr | ⟨k, c, hc, hk, hnt, hcre⟩
    · refine (h.written r hr).imp_right ?_
      rintro ⟨k, hk, hsta⟩
      exact ⟨k, hcr.gone hk, mem_append_left _ hsta⟩
    · rw [hnt, hcre]
      exact .inr ⟨k, hk, mem_append_left _ (h.begun k c hc)⟩
  inserted k r ts hins := by
    have hold : r ∈ s'.rows ∧ .started k r.notification r.createdAt ∈ es ∧ .looked k ts ∈ es := by
      rcases mem_concat hins with hins | hins
      · obtain ⟨hr, hev⟩ := h.inserted k r ts hins
        exact ⟨hcr.kept r hr, hev⟩
      · exact hnew.inserted k r ts hins.symm
    exact ⟨hold.1, mem_append_left _ hold.2.1, mem_append_left _ hold.2.2⟩
  deduped k n ts hdp := by
    have hold : (∃ t, .started k n t ∈ es) ∧ ∃ r, SuppressedBy rows window es k n ts r := by
      rcases mem_concat hdp with hdp | hdp
      · exact h.deduped k n ts hdp
      · exact hnew.deduped k n ts hdp.symm
    obtain ⟨⟨t, hsta⟩, r, hr⟩ := hold
    exact ⟨⟨t, mem_append_left _ hsta⟩, r, hr.append [e]⟩
  spaced := by
    rw [pairwise_append]
    refine ⟨h.spaced, pairwise_singleton _ _, ?_⟩
    intro e₀ he₀ e₁ he₁
    rw [mem_singleton.mp he₁]
    exact hnew.spaced e₀ he₀

theorem Says.of_silent (hins : ∀ k r ts, e ≠ .inserted k r ts)
    (hdp : ∀ k n ts, e ≠ .deduped k n ts) : Says rows window s' es e where
  inserted k r ts he := absurd he (hins k r ts)
  deduped k n ts he := absurd he (hdp k n ts)
  spaced e₀ _ := by
    cases e with
    | inserted k r ts => exact absurd rfl (hins k r ts)
    | _ => cases e₀ <;> trivial

theorem Told.start (h : Told rows window s es) (n : Notification) : Told rows window { s with
        started := s.started + 1
        calls := update s.calls s.started (some ⟨n, s.now, .lock⟩) }
      (es ++ [.started s.started n s.now]) := by
  have hot : ∀ {k}, k < s.started →
      update s.calls s.started (some ⟨n, s.now, .lock⟩) k = s.calls k := by
    intro k hk
    exact update_of_ne (Nat.ne_of_lt hk) _ _
  have hold : ∀ {e : DedupEvent}, (∀ n t, e ≠ .started s.started n t) →
      e ∈ es ++ [.started s.started n s.now] → e ∈ es := by
    intro e hne he
    rcases mem_concat he with he | he
    · exact he
    · exact absurd he (hne n s.now)
  refine ⟨?_, ?_, ?_, ?_, ?_, ?_, ?_, ?_⟩
  · intro k n' t hsta
    rcases mem_concat hsta with hsta | hsta
    · exact Nat.lt_succ_of_lt (h.numbered k n' t hsta)
    · cases hsta
      exact Nat.lt_succ_self _
  · intro k c hc
    rcases update_some_cases hc with ⟨rfl, rfl⟩ | ⟨-, hc⟩
    · exact mem_append_right _ (mem_singleton_self _)
    · exact mem_append_left _ (h.begun k c hc)
  · intro k c ts hc hlk
    rcases update_some_cases hc with ⟨rfl, rfl⟩ | ⟨-, hc⟩
    · cases hlk
    · exact mem_append_left _ (h.looked k c ts hc hlk)
  · intro k n' t hsta
    rcases mem_concat hsta with hsta | hsta
    · dsimp only
      rw [hot (h.numbered k n' t hsta)]
      exact (h.ended k n' t hsta).imp_right (·.mono (subset_append_left _ _))
    · cases hsta
      exact .inl (by simp)
  · intro r hr
    refine (h.written r hr).imp_right ?_
    rintro ⟨k, hk, hsta⟩
    refine ⟨k, ?_, mem_append_left _ hsta⟩
    dsimp only
    rw [hot (h.numbered k _ _ hsta), hk]
  · intro k r ts hins
    obtain ⟨hr, hsta, hlk⟩ := h.inserted k r ts (hold (by simp) hins)
    exact ⟨hr, mem_append_left _ hsta, mem_append_left _ hlk⟩
  · intro k n' ts hdp
    obtain ⟨⟨t, hsta⟩, r, hr⟩ := h.deduped k n' ts (hold (by simp) hdp)
    exact ⟨⟨t, mem_append_left _ hsta⟩, r, hr.append _⟩
  · rw [pairwise_append]
    refine ⟨h.spaced, pairwise_singleton _ _, ?_⟩
    intro e₀ _ e₁ he₁
    rw [mem_singleton.mp he₁]
    cases e₀ <;> trivial

/-- A row comes after the rows of its identity have left its call's window. -/
theorem Told.commit (h : Told rows window s es) (hs : Locked hash window s)
    (hc : s.calls k = some c) (hstg : c.stage = .commit ts r) :
    Says rows window ({ s with rows := s.rows ++ [r] }.finish hash k c) es (.inserted k r ts) where
  inserted k' r' ts' he := by
    cases he
    obtain ⟨hnt, hcre⟩ := hs.row k c ts r hc hstg
    refine ⟨mem_append_right _ (mem_singleton_self _), ?_, ?_⟩
    · rw [hnt, hcre]
      exact h.begun k c hc
    · exact h.looked k c ts hc (by simp [hstg])
  deduped k' n ts' he := by cases he
  spaced e₀ he₀ := by
    cases e₀ with
    | inserted k₀ r₀ ts₀ =>
      intro hid
      rw [(hs.row k c ts r hc hstg).1] at hid
      exact hs.clear k c ts hc (by simp [hstg]) r₀ (h.inserted k₀ r₀ ts₀ he₀).1 hid
    | _ => trivial

theorem Told.dedup (h : Told rows window s es) (hc : s.calls k = some c) (hr : r ∈ s.rows)
    (hid : r.notification.identity = c.notification.identity)
    (hrc : s.now - windowSeconds window * second < r.createdAt) :
    Says rows window s' es (.deduped k c.notification s.now) where
  inserted k' r' ts' he := by cases he
  deduped k' n ts' he := by
    cases he
    refine ⟨⟨c.startedAt, h.begun k c hc⟩, r, hid, hrc, ?_⟩
    refine (h.written r hr).imp_right ?_
    rintro ⟨k', hgo, hsta⟩
    refine ⟨k', ?_, hsta⟩
    rintro rfl
    rw [hc] at hgo
    cases hgo
  spaced e₀ _ := by cases e₀ <;> trivial

theorem Told.move (h : Told rows window s es) (hs : Locked hash window s)
    (hmv : DedupMove hash window s e s') : Told rows window s' (es ++ [e]) := by
  cases hmv with
  | stay | elapse => exact h.extend (.of_same rfl rfl rfl) (.of_silent (by simp) (by simp))
  | start n => exact h.start n
  | grant hc hstg hfr =>
    refine h.extend (.goto hc (by simp) ?_ rfl rfl rfl) (.of_silent (by simp) (by simp))
    intro ts hts
    cases hts
  | look hc hstg hno =>
    refine h.extend (.goto hc (by simp) ?_ rfl rfl rfl) (.of_silent (by simp) (by simp))
    intro ts hts
    cases hts
    exact .inr rfl
  | @dedup k c r hc hr hid hrc =>
    refine h.extend ?_ (h.dedup hc hr hid hrc)
    exact Carries.finish hc (by simp) (.inr (.inr ⟨c.notification, s.now, by simp⟩))
      (fun _ hr => hr) (fun _ hr => .inl hr)
  | @insert k c ts hc hstg =>
    refine h.extend (.goto hc (by simp) ?_ rfl rfl rfl) (.of_silent (by simp) (by simp))
    intro ts' hts'
    cases hts'
    exact .inl (by simp [hstg])
  | @commit k c ts r hc hstg =>
    refine h.extend (.write hs hc hstg (by simp) ?_) (h.commit hs hc hstg)
    exact .inr (.inl ⟨r, ts, by simp⟩)
  | @fail k c hc =>
    refine h.extend ?_ (.of_silent (by simp) (by simp))
    exact Carries.finish hc (by simp) (.inl (by simp)) (fun _ hr => hr) (fun _ hr => .inl hr)
  | @unsure k c ts r hc hstg =>
    refine h.extend (.write hs hc hstg (by simp) ?_) (.of_silent (by simp) (by simp))
    exact .inl (by simp)

/-! ## One row for calls close together -/

theorem dedupStore_told (hash : String → ℕ) (window : Duration) (rows : List Row) (now : Time)
    (history : List DedupAction) :
    Told rows window ((dedupStore hash window rows now).run history)
      ((dedupStore hash window rows now).trace history) := by
  have hinv := Reactive.run_inv (M := dedupStore hash window rows now)
    (P := fun s es => Locked hash window s ∧ Told rows window s es) ?_ ?_ history
  · exact hinv.2
  · refine ⟨⟨?_, ?_, ?_, ?_⟩, ⟨?_, ?_, ?_, ?_, ?_, ?_, ?_, ?_⟩⟩ <;> simp [dedupStore]
  · intro s es a ⟨hs, hes⟩
    exact ⟨hs.move (DedupStore.react_move a), hes.move hs (DedupStore.react_move a)⟩

/-- The call's transaction starts and its lookup runs in an interval. -/
structure RunsWithin (es : List DedupEvent) (identity : DedupIdentity) (a b : Time) (k : ℕ) :
    Prop where
  start : ∀ n t, .started k n t ∈ es → n.identity = identity ∧ a ≤ t ∧ t ≤ b
  lookup : ∀ ts, .looked k ts ∈ es → a ≤ ts ∧ ts ≤ b

/-- Of calls that start and look in an interval shorter than a length and do not fail, one at most
inserts and the others report that they have not; a call is suppressed by rows of its own identity
only. -/
structure PersistsOnce (rows : List Row) (window length : Duration) (s : DedupStore)
    (es : List DedupEvent) : Prop where
  reported : ∀ k n t, .started k n t ∈ es → s.calls k = none → Reported es k
  once : ∀ identity a b, b - a < length → ∀ k k' r r' ts ts',
    RunsWithin es identity a b k → RunsWithin es identity a b k' →
      .inserted k r ts ∈ es → .inserted k' r' ts' ∈ es → k = k'
  suppressed : ∀ k n ts, .deduped k n ts ∈ es → (∃ t, .started k n t ∈ es) ∧
    ∃ r, SuppressedBy rows window es k n ts r

theorem Told.spaced_of_ne (h : Told rows window s es) {r' : Row} {ts' : Time}
    (hins : .inserted k r ts ∈ es) (hins' : .inserted k' r' ts' ∈ es) (hne : k ≠ k')
    (hid : r.notification.identity = r'.notification.identity) :
    r.createdAt ≤ ts' - windowSeconds window * second ∨
      r'.createdAt ≤ ts - windowSeconds window * second := by
  have : Std.Symm fun e e' => Spaced window e e' ∨ Spaced window e' e := ⟨fun _ _ => Or.symm⟩
  have hpr := (h.spaced.imp (S := fun e e' => Spaced window e e' ∨ Spaced window e' e)
    .inl).forall hins hins' (by simp [hne])
  exact hpr.imp (fun hsp => hsp hid) (fun hsp => hsp hid.symm)

/-- `InsertDeduped` persists once among the calls within its window in whole seconds. -/
theorem insertDeduped_persists_once (hash : String → ℕ) (window : Duration) (rows : List Row)
    (now : Time) (history : List DedupAction) :
    PersistsOnce rows window (windowSeconds window * second)
      ((dedupStore hash window rows now).run history)
      ((dedupStore hash window rows now).trace history) := by
  have htl := dedupStore_told hash window rows now history
  refine ⟨?_, ?_, htl.deduped⟩
  · intro k n t hsta hgo
    exact (htl.ended k n t hsta).resolve_left (not_not.mpr hgo)
  · intro identity a b hsh k k' r r' ts ts' hk hk' hins hins'
    obtain ⟨-, hsta, hlk⟩ := htl.inserted k r ts hins
    obtain ⟨-, hsta', hlk'⟩ := htl.inserted k' r' ts' hins'
    obtain ⟨hid, hcre, -⟩ := hk.start _ _ hsta
    obtain ⟨hid', hcre', -⟩ := hk'.start _ _ hsta'
    have hla := (hk.lookup ts hlk).2
    have hla' := (hk'.lookup ts' hlk').2
    by_contra hne
    rcases htl.spaced_of_ne hins hins' hne (hid.trans hid'.symm) with
      hsp | hsp
    · linarith
    · linarith

end

/-! A window that is not a whole number of seconds is shorter in the query: with one and a half
seconds, a second call after one and a fifth no longer sees the first row. -/
section

private def failedBackup : Notification where
  source := .velero
  severity := .warning
  title := "Backup failed"
  message := ""
  resourceKind := "Backup"
  resourceNS := "velero"
  resourceName := "nightly"
  resourceUID := ""
  clusterID := ""

private def twice : List DedupAction :=
  [.insertDeduped failedBackup, .step 0, .step 0, .step 0, .step 0, .elapse 1200000000,
    .insertDeduped failedBackup, .step 1, .step 1, .step 1, .step 1]

private def twiceStore : Reactive DedupStore DedupAction DedupEvent :=
  dedupStore (fun _ => 0) 1500000000 [] 0

private theorem twice_trace : twiceStore.trace twice =
      [.started 0 failedBackup 0, .idle, .looked 0 0, .idle, .inserted 0 ⟨0, failedBackup, 0⟩ 0,
        .idle, .started 1 failedBackup 1200000000, .idle, .looked 1 1200000000, .idle,
        .inserted 1 ⟨1, failedBackup, 1200000000⟩ 1200000000] := by
  decide

theorem insertDeduped_twice_in_window :
    ¬ ∀ (hash : String → ℕ) (window : Duration) (rows : List Row) (now : Time)
      (history : List DedupAction),
      PersistsOnce rows window window ((dedupStore hash window rows now).run history)
        ((dedupStore hash window rows now).trace history) := by
  intro h
  have hon := (h (fun _ => 0) 1500000000 [] 0 twice).once failedBackup.identity 0 1200000000
    (by decide) 0 1 ⟨0, failedBackup, 0⟩ ⟨1, failedBackup, 1200000000⟩ 0 1200000000
  rw [show (dedupStore (fun _ => 0) 1500000000 [] 0).trace twice = _ from twice_trace] at hon
  refine absurd (hon ⟨?_, ?_⟩ ⟨?_, ?_⟩ (by simp) (by simp)) (by decide)
  · intro n t hsta
    obtain ⟨rfl, rfl⟩ : n = failedBackup ∧ t = 0 := by simpa using hsta
    decide
  · intro ts hlk
    obtain rfl : ts = 0 := by simpa using hlk
    decide
  · intro n t hsta
    obtain ⟨rfl, rfl⟩ : n = failedBackup ∧ t = 1200000000 := by simpa using hsta
    decide
  · intro ts hlk
    obtain rfl : ts = 1200000000 := by simpa using hlk
    decide

end

end KubeCenter.Notifications
