import KubeCenter.Lib.Go
import KubeCenter.Lib.GoMap
import KubeCenter.Lib.KeyDiff
import KubeCenter.Lib.Reactive

/-! # The sync history of ExternalSecrets

`externalsecrets/poller.go` (`tick`), `persist.go` and `store/eso_history.go` (`Insert`,
`Cleanup`). The poller stores a row for each ExternalSecret whose controller reports a sync attempt
it has not stored yet, with the keys of the target Secret that changed since its last read. -/
namespace KubeCenter.ExternalSecrets

open Lib Lib.Go List
open Function (update update_eq_self update_of_ne update_self)

/-- `Status`, as derived from the conditions and the thresholds. -/
inductive Status
  | synced
  | syncFailed
  | refreshing
  | stale
  | drifted
  | unknown
deriving DecidableEq

inductive Outcome
  | success
  | failure
deriving DecidableEq

structure ExternalSecret where
  uid : String
  ns : String
  name : String
  status : Status
  lastSyncTime : Option Time
  readyReason : String
  readyMessage : String
  targetSecretName : String
  syncedResourceVersion : String
deriving DecidableEq

/-- A list response: a UID names one object. -/
structure Inventory where
  items : List ExternalSecret
  nodup : (items.map ExternalSecret.uid).Nodup

def Inventory.Lists (inv : Inventory) (u : String) : Prop := u ∈ inv.items.map ExternalSecret.uid

instance (inv : Inventory) (u : String) : Decidable (inv.Lists u) :=
  inferInstanceAs (Decidable (u ∈ _))

/-- `sec.Data`. -/
abbrev SecretData := GoMap Bytes

/-- `store.ESOSyncHistoryEntry`. -/
structure Entry where
  clusterID : String
  uid : String
  ns : String
  name : String
  attemptAt : Time
  outcome : Outcome
  reason : String
  message : String
  diffKeys : KeyDiff Bytes
  syncedResourceVersion : String
deriving DecidableEq

/-- How an insert ends. An error may be reported after the row was stored. -/
inductive InsertAnswer
  | stored
  | lost
  | unconfirmed
deriving DecidableEq

structure Answers where
  secret : String → Option SecretData
  insert : String → InsertAnswer

/-- The poller's memory of UIDs: `observed` are the keys of `prevBucket`. -/
structure Poller (H : Type*) where
  observed : List String
  prevAttemptAt : String → Option Time
  prevKeys : String → Option (GoMap H)

structure State (H : Type*) where
  poller : Poller H
  rows : List Entry

def outcomeFor : Status → Option Outcome
  | .synced | .drifted => some .success
  | .syncFailed => some .failure
  | .refreshing | .stale | .unknown => none

/-- `attemptTimeFor`: the controller's time, cut to the second. -/
def attemptTimeFor (es : ExternalSecret) : Option Time :=
  match es.lastSyncTime with
  | some t => if t = zeroTime then none else some (t - t % second)
  | none => none

/-- `attemptCandidate`. -/
structure Candidate where
  es : ExternalSecret
  outcome : Outcome
  attemptAt : Time
deriving DecidableEq

/-- The row, the Secret it was computed from, and whether the table has gained the row. -/
structure Attempt where
  entry : Entry
  read : Option SecretData
  added : Bool
deriving DecidableEq

section Model

variable {H : Type*} [DecidableEq H] (sha256 : Bytes → H) (clusterID : String)

def candidate (p : Poller H) (es : ExternalSecret) : Option Candidate :=
  match outcomeFor es.status, attemptTimeFor es with
  | some outcome, some attemptAt =>
    if p.prevAttemptAt es.uid = some attemptAt then none else some ⟨es, outcome, attemptAt⟩
  | _, _ => none

def hashSecretData (data : SecretData) : GoMap H := data.map fun e => (e.1, sha256 e.2)

/-- `diffKeySets`: each list holds the keys of a map that pass a test, sorted. -/
def diffKeySets (prev current : GoMap H) : KeyDiff Bytes where
  added := current.sortedKeys.filter fun k => prev.get k = none
  removed := prev.sortedKeys.filter fun k => current.get k = none
  changed := current.sortedKeys.filter fun k => prev.get k ≠ none ∧ prev.get k ≠ current.get k

/-- None is asked for after a failure or without a target. -/
def fetchSecret (c : Candidate) (answer : Option SecretData) : Option SecretData :=
  if c.outcome ≠ .success ∨ c.es.targetSecretName = "" then none else answer

/-- `resolveDiffKeys`. The new hashes replace the old ones as soon as they are read. -/
def resolveDiffKeys (p : Poller H) (uid : String) (read : Option SecretData) :
    KeyDiff Bytes × Poller H :=
  match read with
  | none => (.empty, p)
  | some data =>
    let current := hashSecretData sha256 data
    let p' := { p with prevKeys := update p.prevKeys uid (some current) }
    match p.prevKeys uid with
    | none => (.empty, p')
    | some prev => (diffKeySets prev current, p')

def Entry.Conflicts (e r : Entry) : Prop :=
  r.clusterID = e.clusterID ∧ r.uid = e.uid ∧ r.attemptAt = e.attemptAt

instance (e r : Entry) : Decidable (e.Conflicts r) := inferInstanceAs (Decidable (_ ∧ _ ∧ _))

/-- Whether `Insert` adds its row: `ON CONFLICT DO NOTHING`. -/
def inserts (rows : List Entry) (e : Entry) (answer : InsertAnswer) : Bool :=
  answer ≠ .lost ∧ ∀ r ∈ rows, ¬e.Conflicts r

def Candidate.entry (c : Candidate) (diffKeys : KeyDiff Bytes) : Entry where
  clusterID := clusterID
  uid := c.es.uid
  ns := c.es.ns
  name := c.es.name
  attemptAt := c.attemptAt
  outcome := c.outcome
  reason := c.es.readyReason
  message := c.es.readyMessage
  diffKeys := diffKeys
  syncedResourceVersion := c.es.syncedResourceVersion

/-- `persistOne`: `prevAttemptAt` moves only when the insert reports no error. -/
def persistOne (answers : Answers) (s : State H) (c : Candidate) : Attempt × State H :=
  let read := fetchSecret c (answers.secret c.es.uid)
  let (diffKeys, p) := resolveDiffKeys sha256 s.poller c.es.uid read
  let entry := c.entry clusterID diffKeys
  let added := inserts s.rows entry (answers.insert c.es.uid)
  let rows := if added then s.rows ++ [entry] else s.rows
  let p' := if answers.insert c.es.uid = .stored then
      { p with prevAttemptAt := update p.prevAttemptAt c.es.uid (some c.attemptAt) }
    else p
  (⟨entry, read, added⟩, ⟨p', rows⟩)

/-- They run side by side, each on its own UID (`persistEach_eq_map`). -/
def persistEach (answers : Answers) : State H → List Candidate → List Attempt × State H
  | s, [] => ([], s)
  | s, c :: cs =>
    let (a, s') := persistOne sha256 clusterID answers s c
    let (as, s'') := persistEach answers s' cs
    (a :: as, s'')

def persistAttempts (answers : Answers) (s : State H) (inv : Inventory) : List Attempt × State H :=
  persistEach sha256 clusterID answers s (inv.items.filterMap (candidate s.poller))

/-- The end of `tick`: what is known of a UID that the list no longer has is dropped. -/
def Poller.prune (p : Poller H) (inv : Inventory) : Poller H :=
  let gone := fun u => u ∈ p.observed ∧ ¬inv.Lists u
  { observed := p.observed.filter fun u => inv.Lists u
    prevAttemptAt := fun u => if gone u then none else p.prevAttemptAt u
    prevKeys := fun u => if gone u then none else p.prevKeys u }

/-- `check`, of which the history only needs that the UID has been seen. -/
def Poller.check (p : Poller H) (inv : Inventory) : Poller H :=
  { p with observed := p.observed ++ inv.items.map ExternalSecret.uid }

inductive Event
  /-- A tick, with the list it was given, or none if there was an error. -/
  | tick (inventory : Option Inventory) (answers : Answers)
  /-- `RunRetention`: rows from before the instant are deleted. -/
  | retention (oldest : Time)

def tick (s : State H) (inv : Inventory) (answers : Answers) : List Attempt × State H :=
  let (as, s') := persistAttempts sha256 clusterID answers
    { s with poller := s.poller.check inv } inv
  (as, { s' with poller := s'.poller.prune inv })

def react (s : State H) : Event → List Attempt × State H
  | .tick none _ => ([], s)
  | .tick (some inv) answers => tick sha256 clusterID s inv answers
  | .retention oldest => ([], { s with rows := s.rows.filter fun r => oldest ≤ r.attemptAt })

def process (rows : List Entry) : Reactive (State H) Event (List Attempt) where
  init := ⟨⟨[], fun _ => none, fun _ => none⟩, rows⟩
  react := react sha256 clusterID

end Model

/-! ## Workers do not meet

A worker reads and writes what is held of its own UID only, so each acts as if it
were alone. -/

structure Track (H : Type*) where
  prevAttemptAt : Option Time
  prevKeys : Option (GoMap H)
  rows : List Entry

def State.track {H : Type*} (s : State H) (u : String) : Track H where
  prevAttemptAt := s.poller.prevAttemptAt u
  prevKeys := s.poller.prevKeys u
  rows := s.rows.filter fun r => r.uid = u

section Workers

variable {H : Type*} [DecidableEq H] {sha256 : Bytes → H} {clusterID : String}
  {answers : Answers} {s t : State H} {c : Candidate} {u : String}

theorem resolveDiffKeys_prevAttemptAt (p : Poller H) (uid : String) (read : Option SecretData) :
    (resolveDiffKeys sha256 p uid read).2.prevAttemptAt = p.prevAttemptAt := by
  unfold resolveDiffKeys
  cases read with
  | none => rfl
  | some data => cases p.prevKeys uid <;> rfl

theorem resolveDiffKeys_prevKeys (p : Poller H) (uid : String) (read : Option SecretData) :
    (resolveDiffKeys sha256 p uid read).2.prevKeys = update p.prevKeys uid
        ((read.map (hashSecretData sha256)).or (p.prevKeys uid)) := by
  unfold resolveDiffKeys
  cases read with
  | none => simp
  | some data => cases p.prevKeys uid <;> rfl

theorem resolveDiffKeys_diff_congr {p q : Poller H} {uid : String}
    (h : p.prevKeys uid = q.prevKeys uid) (read : Option SecretData) :
    (resolveDiffKeys sha256 p uid read).1 = (resolveDiffKeys sha256 q uid read).1 := by
  unfold resolveDiffKeys
  cases read with
  | none => rfl
  | some data =>
    rw [h]
    cases q.prevKeys uid <;> rfl

theorem inserts_filter (rows : List Entry) (e : Entry) (answer : InsertAnswer) :
    inserts (rows.filter fun r => r.uid = e.uid) e answer = inserts rows e answer := by
  have hiff : (∀ r ∈ rows.filter (fun r => r.uid = e.uid), ¬e.Conflicts r) ↔
      ∀ r ∈ rows, ¬e.Conflicts r := by
    constructor
    · intro h r hr hc
      exact h r (mem_filter.mpr ⟨hr, decide_eq_true hc.2.1⟩) hc
    · intro h r hr
      exact h r (mem_filter.mp hr).1
  simp only [inserts, hiff]

theorem persistOne_rows : (persistOne sha256 clusterID answers s c).2.rows =
    s.rows ++ if (persistOne sha256 clusterID answers s c).1.added
      then [(persistOne sha256 clusterID answers s c).1.entry] else [] := by
  change (if (persistOne sha256 clusterID answers s c).1.added then _ else s.rows) = _
  split
  · rfl
  · rw [append_nil]

theorem persistOne_prevKeys : (persistOne sha256 clusterID answers s c).2.poller.prevKeys =
    update s.poller.prevKeys c.es.uid
      (((fetchSecret c (answers.secret c.es.uid)).map (hashSecretData sha256)).or
        (s.poller.prevKeys c.es.uid)) := by
  rw [← resolveDiffKeys_prevKeys]
  simp only [persistOne]
  split <;> rfl

theorem persistOne_prevAttemptAt :
    (persistOne sha256 clusterID answers s c).2.poller.prevAttemptAt =
      update s.poller.prevAttemptAt c.es.uid
        (if answers.insert c.es.uid = .stored then some c.attemptAt
          else s.poller.prevAttemptAt c.es.uid) := by
  simp only [persistOne]
  split
  · rw [resolveDiffKeys_prevAttemptAt]
  · rw [resolveDiffKeys_prevAttemptAt, update_eq_self]

theorem persistOne_track_of_ne (h : c.es.uid ≠ u) :
    (persistOne sha256 clusterID answers s c).2.track u = s.track u := by
  have hrw : ∀ b : Bool, (s.rows ++ if b
      then [(persistOne sha256 clusterID answers s c).1.entry] else []).filter
        (fun r => r.uid = u) = s.rows.filter fun r => r.uid = u := by
    intro b
    cases b
    · simp
    · simp [persistOne, Candidate.entry, filter_append, h]
  simp only [State.track, persistOne_prevAttemptAt, persistOne_prevKeys,
    update_of_ne (Ne.symm h), persistOne_rows, hrw]

theorem persistOne_congr (h : s.track c.es.uid = t.track c.es.uid) :
    (persistOne sha256 clusterID answers s c).1 = (persistOne sha256 clusterID answers t c).1 ∧
      (persistOne sha256 clusterID answers s c).2.track c.es.uid =
        (persistOne sha256 clusterID answers t c).2.track c.es.uid := by
  obtain ⟨hat, hks, hrw⟩ := Track.mk.injEq .. ▸ h
  have hatt : (persistOne sha256 clusterID answers s c).1 =
      (persistOne sha256 clusterID answers t c).1 := by
    have hdf := @resolveDiffKeys_diff_congr _ _ sha256 _ _ _ hks
      (fetchSecret c (answers.secret c.es.uid))
    have had : ∀ d, inserts s.rows (c.entry clusterID d) (answers.insert c.es.uid) =
        inserts t.rows (c.entry clusterID d) (answers.insert c.es.uid) := by
      intro d
      rw [← inserts_filter s.rows, ← inserts_filter t.rows]
      exact congrArg (inserts · _ _) hrw
    simp only [persistOne, hdf, had]
  refine ⟨hatt, ?_⟩
  simp only [State.track, persistOne_prevAttemptAt, persistOne_prevKeys, persistOne_rows,
    hatt, filter_append, update_self] at hrw ⊢
  rw [hat, hks, hrw]

variable {cs : List Candidate}

theorem persistEach_eq_map (hnd : (cs.map (·.es.uid)).Nodup) :
    (persistEach sha256 clusterID answers s cs).1 =
      cs.map fun c => (persistOne sha256 clusterID answers s c).1 := by
  induction cs generalizing s with
  | nil => rfl
  | cons c cs ih =>
    rw [map_cons, nodup_cons] at hnd
    have hrs := ih (s := (persistOne sha256 clusterID answers s c).2) hnd.2
    refine congrArg _ (hrs.trans (map_congr_left fun d hd => ?_))
    have hne : c.es.uid ≠ d.es.uid := fun he => hnd.1 (he ▸ mem_map_of_mem hd)
    exact (persistOne_congr (persistOne_track_of_ne hne)).1

theorem persistEach_track_of_ne (h : ∀ c ∈ cs, c.es.uid ≠ u) :
    (persistEach sha256 clusterID answers s cs).2.track u = s.track u := by
  induction cs generalizing s with
  | nil => rfl
  | cons c cs ih =>
    have hrs : ∀ d ∈ cs, d.es.uid ≠ u := fun d hd => h d (mem_cons_of_mem c hd)
    exact (ih hrs).trans (persistOne_track_of_ne (h c mem_cons_self))

theorem persistEach_track (hnd : (cs.map (·.es.uid)).Nodup) (hc : c ∈ cs)
    : (persistEach sha256 clusterID answers s cs).2.track c.es.uid =
      (persistOne sha256 clusterID answers s c).2.track c.es.uid := by
  induction cs generalizing s with
  | nil => cases hc
  | cons d cs ih =>
    rw [map_cons, nodup_cons] at hnd
    rcases mem_cons.mp hc with rfl | hc
    · have hne : ∀ d ∈ cs, d.es.uid ≠ c.es.uid := fun d hd he => hnd.1 (he ▸ mem_map_of_mem hd)
      exact persistEach_track_of_ne hne
    · have hne : d.es.uid ≠ c.es.uid := fun he => hnd.1 (he ▸ mem_map_of_mem hc)
      exact (ih hnd.2 hc).trans (persistOne_congr (persistOne_track_of_ne hne)).2

theorem persistEach_rows (cs : List Candidate) :
    (persistEach sha256 clusterID answers s cs).2.rows = s.rows ++
      ((persistEach sha256 clusterID answers s cs).1.filter (·.added)).map (·.entry) := by
  induction cs generalizing s with
  | nil => simp [persistEach]
  | cons c cs ih =>
    have hrs := ih (s := (persistOne sha256 clusterID answers s c).2)
    rw [persistOne_rows] at hrs
    refine hrs.trans ?_
    simp only [persistEach, filter_cons]
    split <;> simp

end Workers

/-! ## One tick -/

section Tick

variable {H : Type*} [DecidableEq H] {sha256 : Bytes → H} {clusterID : String}
  {answers : Answers} {s : State H} {inv : Inventory} {es : ExternalSecret} {c : Candidate}
  {u : String}

variable {p : Poller H}

omit [DecidableEq H] in
theorem candidate_eq_some_iff : candidate p es = some c ↔
    c.es = es ∧ outcomeFor es.status = some c.outcome ∧ attemptTimeFor es = some c.attemptAt ∧
      p.prevAttemptAt es.uid ≠ some c.attemptAt := by
  obtain ⟨ces, outcome, attemptAt⟩ := c
  unfold candidate
  split
  next o t ho ht =>
    rw [ho, ht]
    split
    · rename_i hpr
      simp only [reduceCtorEq, Option.some.injEq, false_iff]
      rintro ⟨-, -, rfl, hne⟩
      exact hne hpr
    · rename_i hpr
      simp only [Option.some.injEq, Candidate.mk.injEq]
      constructor
      · rintro ⟨rfl, rfl, rfl⟩
        exact ⟨rfl, rfl, rfl, hpr⟩
      · rintro ⟨rfl, rfl, rfl, -⟩
        exact ⟨rfl, rfl, rfl⟩
  next hno =>
    simp only [reduceCtorEq, false_iff]
    rintro ⟨-, ho, ht, -⟩
    exact hno _ _ ho ht

omit [DecidableEq H] in
theorem candidates_nodup (p : Poller H) (inv : Inventory) :
    ((inv.items.filterMap (candidate p)).map (·.es.uid)).Nodup := by
  refine List.Nodup.sublist ?_ inv.nodup
  generalize inv.items = items
  induction items with
  | nil => exact .refl _
  | cons es items ih =>
    cases hc : candidate p es with
    | none =>
      rw [filterMap_cons_none hc]
      exact ih.cons _
    | some c =>
      rw [filterMap_cons_some hc, map_cons, (candidate_eq_some_iff.mp hc).1]
      exact ih.cons_cons _

theorem Inventory.eq_of_uid {es'} (hes : es ∈ inv.items) (hes' : es' ∈ inv.items)
    (h : es.uid = es'.uid) : es = es' :=
  inj_on_of_nodup_map inv.nodup hes hes' h

omit [DecidableEq H] in
theorem track_check (s : State H) (inv : Inventory) (u : String) :
    State.track { s with poller := s.poller.check inv } u = s.track u := rfl

theorem tick_attempts : (tick sha256 clusterID s inv answers).1 =
    (inv.items.filterMap (candidate s.poller)).map
      fun c => (persistOne sha256 clusterID answers s c).1 :=
  (persistEach_eq_map (candidates_nodup _ inv)).trans
    (map_congr_left fun c _ => (persistOne_congr (track_check s inv c.es.uid)).1)

theorem mem_tick_attempts {a : Attempt} : a ∈ (tick sha256 clusterID s inv answers).1 ↔
    ∃ es ∈ inv.items, ∃ c, candidate s.poller es = some c ∧
      (persistOne sha256 clusterID answers s c).1 = a := by
  rw [tick_attempts, mem_map]
  constructor
  · rintro ⟨c, hc, rfl⟩
    obtain ⟨es, hes, hcn⟩ := mem_filterMap.mp hc
    exact ⟨es, hes, c, hcn, rfl⟩
  · rintro ⟨es, hes, c, hcn, rfl⟩
    exact ⟨c, mem_filterMap.mpr ⟨es, hes, hcn⟩, rfl⟩

theorem tick_rows : (tick sha256 clusterID s inv answers).2.rows =
    s.rows ++ ((tick sha256 clusterID s inv answers).1.filter (·.added)).map (·.entry) :=
  persistEach_rows _

theorem persisted_track_of_none (h : ∀ es ∈ inv.items, es.uid = u → candidate s.poller es = none) :
    (persistAttempts sha256 clusterID answers
      { s with poller := s.poller.check inv } inv).2.track u = s.track u := by
  refine (persistEach_track_of_ne ?_).trans (track_check s inv u)
  intro c hc he
  obtain ⟨es, hes, hcn⟩ := mem_filterMap.mp hc
  obtain rfl := (candidate_eq_some_iff.mp hcn).1
  exact absurd (h _ hes he) (Option.ne_none_iff_exists'.mpr ⟨c, hcn⟩)

theorem persisted_track_of_some (hes : es ∈ inv.items) (hc : candidate s.poller es = some c) :
    (persistAttempts sha256 clusterID answers
      { s with poller := s.poller.check inv } inv).2.track es.uid =
        (persistOne sha256 clusterID answers s c).2.track es.uid := by
  obtain rfl := (candidate_eq_some_iff.mp hc).1
  have hmem : c ∈ inv.items.filterMap (candidate s.poller) := mem_filterMap.mpr ⟨c.es, hes, hc⟩
  exact (persistEach_track (candidates_nodup _ inv) hmem).trans
    (persistOne_congr (track_check s inv c.es.uid)).2

omit [DecidableEq H] in
theorem prune_prevKeys_of_lists (h : inv.Lists u) : (p.prune inv).prevKeys u = p.prevKeys u :=
  if_neg fun hgo => hgo.2 h

omit [DecidableEq H] in
theorem prune_prevAttemptAt {time : Time} (h : (p.prune inv).prevAttemptAt u = some time) :
    p.prevAttemptAt u = some time := by
  simp only [Poller.prune] at h
  split at h
  · cases h
  · exact h

theorem tick_prevKeys_of_none (hes : es ∈ inv.items) (hc : candidate s.poller es = none) :
    (tick sha256 clusterID s inv answers).2.poller.prevKeys es.uid = s.poller.prevKeys es.uid := by
  refine (prune_prevKeys_of_lists (mem_map_of_mem hes)).trans ?_
  refine congrArg Track.prevKeys (persisted_track_of_none fun es' hes' he => ?_)
  rw [inv.eq_of_uid hes' hes he, hc]

theorem tick_prevKeys_of_some (hes : es ∈ inv.items) (hc : candidate s.poller es = some c) :
    (tick sha256 clusterID s inv answers).2.poller.prevKeys es.uid =
      (persistOne sha256 clusterID answers s c).2.poller.prevKeys es.uid :=
  (prune_prevKeys_of_lists (mem_map_of_mem hes)).trans
    (congrArg Track.prevKeys (persisted_track_of_some hes hc))

theorem tick_prevKeys_of_not_lists (h : ¬inv.Lists u) (hno : s.poller.prevKeys u = none) :
    (tick sha256 clusterID s inv answers).2.poller.prevKeys u = none := by
  refine ite_eq_left_iff.mpr fun _ => ?_
  refine (congrArg Track.prevKeys (persisted_track_of_none ?_)).trans hno
  rintro es hes rfl
  exact absurd (mem_map_of_mem hes) h

theorem tick_prevAttemptAt {time : Time}
    (h : (tick sha256 clusterID s inv answers).2.poller.prevAttemptAt u = some time) :
    s.poller.prevAttemptAt u = some time ∨
      ∃ es ∈ inv.items, es.uid = u ∧ outcomeFor es.status ≠ none ∧
        attemptTimeFor es = some time := by
  have hkp := prune_prevAttemptAt h
  by_cases hmn : ∃ es ∈ inv.items, es.uid = u ∧ candidate s.poller es ≠ none
  · obtain ⟨es, hes, rfl, hne⟩ := hmn
    obtain ⟨c, hc⟩ := Option.ne_none_iff_exists'.mp hne
    obtain ⟨hes', hout, htm, -⟩ := candidate_eq_some_iff.mp hc
    have hone : (persistOne sha256 clusterID answers s c).2.poller.prevAttemptAt es.uid =
        some time :=
      (congrArg Track.prevAttemptAt (persisted_track_of_some hes hc)).symm.trans hkp
    rw [persistOne_prevAttemptAt, hes', update_self] at hone
    split at hone
    · cases hone
      exact .inr ⟨es, hes, rfl, by simp [hout], htm⟩
    · exact .inl hone
  · have hno : ∀ es ∈ inv.items, es.uid = u → candidate s.poller es = none := by
      intro es hes he
      by_contra hne
      exact hmn ⟨es, hes, he, hne⟩
    exact .inl ((congrArg Track.prevAttemptAt (persisted_track_of_none hno)).symm.trans hkp)

end Tick

/-! ## Which attempts are stored

A row or a remembered attempt goes back to a tick that saw the UID report that second, so an
attempt in a second that no tick has seen and no older row holds is stored. -/

def Observed (events : List Event) (u : String) (time : Time) : Prop :=
  ∃ inv answers, Event.tick (some inv) answers ∈ events ∧ ∃ es ∈ inv.items,
    es.uid = u ∧ outcomeFor es.status ≠ none ∧ attemptTimeFor es = some time

def Adds {H : Type*} (before after : State H) (u : String) (o : Outcome) : Prop :=
  ∃ added, after.rows = before.rows ++ added ∧ ∃ e ∈ added, e.uid = u ∧ e.outcome = o

section Stored

variable {H : Type*} [DecidableEq H] (sha256 : Bytes → H) (clusterID : String)
  {rows : List Entry} {events : List Event}

structure Grounded (rows : List Entry) (events : List Event) (s : State H) : Prop where
  stored : ∀ r ∈ s.rows, r ∈ rows ∨ Observed events r.uid r.attemptAt
  remembered : ∀ u time, s.poller.prevAttemptAt u = some time → Observed events u time

variable {sha256 clusterID}

theorem Grounded.tick {s : State H} {inv} {answers : Answers} (h : Grounded rows events s)
    (hmem : Event.tick (some inv) answers ∈ events) :
    Grounded rows events (tick sha256 clusterID s inv answers).2 where
  stored := by
    intro r hr
    rw [tick_rows, mem_append] at hr
    rcases hr with hr | hr
    · exact h.stored r hr
    · obtain ⟨a, ha, rfl⟩ := mem_map.mp hr
      obtain ⟨es, hes, c, hc, rfl⟩ := mem_tick_attempts.mp (mem_filter.mp ha).1
      obtain ⟨rfl, hout, htm, -⟩ := candidate_eq_some_iff.mp hc
      exact .inr ⟨inv, answers, hmem, c.es, hes, rfl, by simp [hout], htm⟩
  remembered := by
    intro u time hu
    rcases tick_prevAttemptAt hu with hu | ⟨es, hes, he, hout, htm⟩
    · exact h.remembered u time hu
    · exact ⟨inv, answers, hmem, es, hes, he, hout, htm⟩

theorem run_grounded (rows : List Entry) (events : List Event) :
    Grounded rows events ((process sha256 clusterID rows).run events) := by
  refine Reactive.run_inv_of_split (P := fun s _ => Grounded rows events s)
    ⟨fun r hr => .inl hr, fun _ _ h => absurd h.symm (Option.some_ne_none _)⟩ ?_ events []
    (append_nil events).symm
  rintro as (⟨_ | inv, answers⟩ | oldest) bs hall h
  · exact h
  · exact h.tick (hall ▸ mem_append_right as mem_cons_self)
  · exact ⟨fun r hr => h.stored r (mem_filter.mp hr).1, h.remembered⟩

variable {inv : Inventory} {answers : Answers} {es : ExternalSecret} {time : Time}

theorem tick_adds {s : State H} {o : Outcome} (hes : es ∈ inv.items)
    (hout : outcomeFor es.status = some o) (htm : attemptTimeFor es = some time)
    (hsd : answers.insert es.uid = .stored) (hpr : s.poller.prevAttemptAt es.uid ≠ some time)
    (hrw : ∀ r ∈ s.rows, ¬(r.clusterID = clusterID ∧ r.uid = es.uid ∧ r.attemptAt = time)) :
    Adds s (tick sha256 clusterID s inv answers).2 es.uid o := by
  have hc : candidate s.poller es = some ⟨es, o, time⟩ :=
    candidate_eq_some_iff.mpr ⟨rfl, hout, htm, hpr⟩
  let a := (persistOne sha256 clusterID answers s ⟨es, o, time⟩).1
  have had : a.added = true := by
    refine decide_eq_true ⟨?_, hrw⟩
    rw [hsd]
    decide
  have hmem : a ∈ (tick sha256 clusterID s inv answers).1 :=
    mem_tick_attempts.mpr ⟨es, hes, _, hc, rfl⟩
  exact ⟨_, tick_rows, a.entry, mem_map_of_mem (mem_filter.mpr ⟨hmem, had⟩), rfl, rfl⟩

/-- An attempt in a second that no earlier tick saw and no older row holds is stored, under its own
outcome. -/
theorem attempt_in_new_second_recorded (hes : es ∈ inv.items)
    (htime : attemptTimeFor es = some time) (hstored : answers.insert es.uid = .stored)
    (hnew : ¬Observed events es.uid time)
    (hrows : ∀ r ∈ rows, ¬(r.clusterID = clusterID ∧ r.uid = es.uid ∧ r.attemptAt = time)) :
    let M := process sha256 clusterID rows
    let tick := Event.tick (some inv) answers
    (es.status = .syncFailed → Adds (M.run events) (M.run (events ++ [tick])) es.uid .failure) ∧
      (es.status = .synced → Adds (M.run events) (M.run (events ++ [tick])) es.uid .success) := by
  intro M tick
  have hgr : Grounded rows events (M.run events) := run_grounded rows events
  have hfs : ∀ r ∈ (M.run events).rows,
      ¬(r.clusterID = clusterID ∧ r.uid = es.uid ∧ r.attemptAt = time) := by
    rintro r hr ⟨hcu, huid, hat⟩
    rcases hgr.stored r hr with hr | hsn
    · exact hrows r hr ⟨hcu, huid, hat⟩
    · rw [huid, hat] at hsn
      exact hnew hsn
  have hadd : ∀ o, outcomeFor es.status = some o →
      Adds (M.run events) (M.run (events ++ [tick])) es.uid o := by
    intro o hout
    rw [M.run_concat]
    exact tick_adds hes hout htime hstored (fun h => hnew (hgr.remembered _ _ h)) hfs
  exact ⟨fun h => hadd .failure (by rw [h]; rfl), fun h => hadd .success (by rw [h]; rfl)⟩

end Stored

/-! A failed sync leaves the controller's time where the last success put it. -/

def sample (status : Status) (time : Time) : ExternalSecret where
  uid := "u"
  ns := "default"
  name := "db"
  status := status
  lastSyncTime := some time
  readyReason := ""
  readyMessage := ""
  targetSecretName := ""
  syncedResourceVersion := ""

def sampleInventory (status : Status) (time : Time) : Inventory :=
  ⟨[sample status time], nodup_singleton _⟩

def sampleTick (status : Status) (time : Time) : Event :=
  .tick (some (sampleInventory status time)) ⟨fun _ => some [], fun _ => .stored⟩

/-- A row from before the start of the process. -/
private def olderRow : Entry :=
  ⟨"local", "u", "default", "db", 0, .success, "", "", ⟨[], [], []⟩, ""⟩

theorem attempt_in_new_second_recorded_recovery : let M := process (fun b => b) "local" [olderRow]
    let synced := sampleTick .synced second
    let failed := sampleTick .syncFailed (2 * second)
    let recovered := sampleTick .synced (3 * second)
    Adds (M.run [synced]) (M.run [synced, failed]) "u" .failure ∧
      Adds (M.run [synced, failed]) (M.run [synced, failed, recovered]) "u" .success := by
  intro M synced failed recovered
  have hmem : ∀ {status time}, sample status time ∈ (sampleInventory status time).items :=
    mem_singleton_self _
  have hnew : ∀ (seen : List (Status × Time)) {time},
      (∀ t ∈ seen, attemptTimeFor (sample t.1 t.2) ≠ some time) →
        ¬Observed (seen.map fun t => sampleTick t.1 t.2) "u" time := by
    rintro seen time hno ⟨inv, answers, hev, es, hes, -, -, htm⟩
    obtain ⟨t, ht, he⟩ := mem_map.mp hev
    cases he
    rw [mem_singleton.mp hes] at htm
    exact hno t ht htm
  have hrows : ∀ {time : Time}, 0 ≠ time → ∀ r ∈ [olderRow],
      ¬(r.clusterID = "local" ∧ r.uid = "u" ∧ r.attemptAt = time) := by
    intro time hne r hr
    rw [mem_singleton.mp hr]
    exact fun h => hne h.2.2
  constructor
  · exact (attempt_in_new_second_recorded hmem rfl rfl
      (hnew [(.synced, second)] (by decide)) (hrows (by decide))).1 rfl
  · exact (attempt_in_new_second_recorded hmem rfl rfl
      (hnew [(.synced, second), (.syncFailed, 2 * second)] (by decide))
      (hrows (by decide))).2 rfl

/-- Neither a failure under the time of the last success nor a recovery in the second of the
failure. -/
theorem attempt_in_same_second_unrecorded : let M := process (fun b => b) "local" []
    let synced := sampleTick .synced second
    let failed := sampleTick .syncFailed second
    let recovered := sampleTick .synced (second + 500000000)
    ¬Adds (M.run [synced]) (M.run [synced, failed]) "u" .failure ∧
      Adds (M.run []) (M.run [failed]) "u" .failure ∧
        ¬Adds (M.run [failed]) (M.run [failed, recovered]) "u" .success := by
  intro M synced failed recovered
  have hno : ∀ {a b : State Bytes} {o : Outcome}, b.rows = a.rows → ¬Adds a b "u" o := by
    rintro a b o hrw ⟨added, hb, e, he, -⟩
    rw [hrw] at hb
    rw [self_eq_append_right.mp hb] at he
    cases he
  refine ⟨hno (by decide), ⟨(M.run [failed]).rows, rfl, ?_⟩, hno (by decide)⟩
  decide

end KubeCenter.ExternalSecrets
