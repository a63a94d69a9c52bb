import KubeCenter.ExternalSecrets.SyncHistory
import KubeCenter.Lib.Calls

/-! # Observing the outcome of a force-sync

`frontend/lib/eso-refresh-observer.ts`: the reducer that decides what a sample says about a
request, and the poller around it, with two timers and one abortable read at a time. An aborted
read may still settle. -/
namespace KubeCenter.ExternalSecrets.RefreshObserver

open Lib List
open Function (update update_apply update_of_ne update_self)

/-! ## The reducer -/

inductive Correlation
  | strong
  | weak
deriving DecidableEq

structure Baseline where
  uid : String
  refreshTime : Option String
  syncedResourceVersion : Option String
deriving DecidableEq

structure Sample where
  uid : String
  status : Status
  lastSyncTime : Option String
  syncedResourceVersion : Option String
  readyReason : Option String
  readyMessage : Option String
deriving DecidableEq

inductive ObserverPhase
  | idle
  | requested
  | awaitingObservation
  | observedSuccess
  | observedFailure
  | timeout
  | cancelled
  | accessLost
  | targetChanged
deriving DecidableEq

structure ObserverOutcome where
  reason : Option String
  message : Option String
  attributable : Bool
deriving DecidableEq

structure ObserverState where
  phase : ObserverPhase
  baseline : Option Baseline := none
  correlation : Option Correlation := none
  priorStatus : Option Status := none
  attempt : ℕ := 0
  consecutiveErrors : ℕ := 0
  deadlineMs : Option Int := none
  /-- `detail` is `observation_unavailable`. -/
  unavailable : Bool := false
  outcome : Option ObserverOutcome := none
deriving DecidableEq

inductive ObserverEvent
  | request
  | requestFailed
  | accepted (baseline : Baseline) (correlation : Correlation) (priorStatus : Option Status)
      (nowMs : Int)
  | sample (sample : Sample) (nowMs : Int)
  | forbidden
  | notFound
  | error
  | clusterChanged
  | tick (nowMs : Int)
  | cancel
deriving DecidableEq

def observeTimeoutMs : Int := 90000

def maxConsecutiveErrors : ℕ := 3

def initialObserverState : ObserverState := { phase := .idle }

def isTerminal : ObserverPhase → Bool
  | .observedSuccess | .observedFailure | .timeout | .cancelled | .accessLost | .targetChanged =>
    true
  | .idle | .requested | .awaitingObservation => false

section Reducer

-- `Date.parse`, with `none` for `NaN`
variable (parse : String → Option Int)

def parseMs : Option String → Option Int
  | none => none
  | some t => if t = "" then none else parse t

def isNewEvidence (b : Baseline) (s : Sample) : Correlation → Bool
  | .strong =>
    match parseMs parse b.refreshTime, parseMs parse s.lastSyncTime with
    | some before, some after => before < after
    | _, _ => false
  | .weak => s.syncedResourceVersion ≠ none ∧ s.syncedResourceVersion ≠ some "" ∧
      s.syncedResourceVersion ≠ b.syncedResourceVersion

def isNewFailure (prior : Option Status) (s : Sample) : Bool :=
  s.status = .syncFailed ∧ prior ≠ some .syncFailed

def expired (st : ObserverState) (nowMs : Int) : Bool :=
  match st.deadlineMs with
  | some deadline => deadline ≤ nowMs
  | none => false

def applySample (st : ObserverState) (s : Sample) (nowMs : Int) : ObserverState :=
  match st.baseline, st.correlation with
  | some b, some c =>
    if s.uid ≠ b.uid then { st with phase := .targetChanged }
    else
      let polled := { st with attempt := st.attempt + 1, consecutiveErrors := 0 }
      if expired polled nowMs then { polled with phase := .timeout }
      else if isNewEvidence parse b s c then
        if s.status = .syncFailed then
          { polled with
            phase := .observedFailure
            outcome := some ⟨s.readyReason, s.readyMessage, c = .strong⟩ }
        else { polled with phase := .observedSuccess }
      else if isNewFailure st.priorStatus s then
        { polled with
          phase := .observedFailure
          outcome := some ⟨s.readyReason, s.readyMessage, false⟩ }
      else polled
  | _, _ => st

/-- The second `switch`, for an observer that waits. -/
def reduceAwaiting (st : ObserverState) : ObserverEvent → ObserverState
  | .sample s nowMs => applySample parse st s nowMs
  | .forbidden => { st with phase := .accessLost }
  | .notFound => { st with phase := .targetChanged }
  | .error =>
    if maxConsecutiveErrors ≤ st.consecutiveErrors + 1 then
      { st with
        consecutiveErrors := st.consecutiveErrors + 1
        phase := .timeout
        unavailable := true }
    else
      { st with consecutiveErrors := st.consecutiveErrors + 1, attempt := st.attempt + 1 }
  | .tick nowMs => if expired st nowMs then { st with phase := .timeout } else st
  | _ => st

def reduceObserver (st : ObserverState) (e : ObserverEvent) : ObserverState :=
  if e = .request then { initialObserverState with phase := .requested }
  else if isTerminal st.phase ∨ st.phase = .idle then st
  else match e with
    | .requestFailed => if st.phase = .requested then initialObserverState else st
    | .accepted baseline correlation priorStatus nowMs =>
      if st.phase ≠ .requested then st
      else
        { initialObserverState with
          phase := .awaitingObservation
          baseline := some baseline
          correlation := some correlation
          priorStatus := priorStatus
          deadlineMs := some (nowMs + observeTimeoutMs) }
    | .cancel => { st with phase := .cancelled }
    | .clusterChanged => { st with phase := .targetChanged }
    | e => if st.phase ≠ .awaitingObservation then st else reduceAwaiting parse st e

end Reducer

/-! ## The poller -/

def nextPollDelayMs : ℕ → Int
  | 0 => 1000
  | 1 => 2000
  | 2 => 3000
  | _ => 5000

/-- What an armed timer will call: `poll`, or the deadline callback with its `deadlineMs`. -/
inductive TimerCall
  | poll
  | deadline (deadlineMs : Int)
deriving DecidableEq

structure Timer where
  call : TimerCall
  delayMs : Int
deriving DecidableEq

/-- A read that has not settled, and the number of the request it was made for. -/
structure Read where
  aborted : Bool
  request : ℕ
deriving DecidableEq

/-- What `fetchSample` settles with. -/
inductive ReadResult
  | sample (s : Sample)
  | empty
  | failed (status : Option ℕ)
deriving DecidableEq

/-- The observer, the cells of the poller, and the timers and reads of the platform. -/
structure Observation where
  observer : ObserverState
  pollTimer : Option ℕ
  deadlineTimer : Option ℕ
  inFlight : Option ℕ
  running : Bool
  timers : ℕ → Option Timer
  reads : ℕ → Option Read
  next : ℕ
  requests : ℕ

/-- The page dispatches an event of its own, calls `begin` or `stop`, a timer fires, or a read
settles. -/
inductive ObserverAction
  | request
  | requestFailed
  | accepted (baseline : Baseline) (correlation : Correlation) (priorStatus : Option Status)
      (nowMs : Int)
  | cancel
  | clusterChanged
  | begin (state : ObserverState) (nowMs : Int)
  | stop
  | fire (timer : ℕ) (nowMs : Int)
  | settle (read : ℕ) (result : ReadResult) (nowMs : Int)

def clearTimer (timers : ℕ → Option Timer) : Option ℕ → ℕ → Option Timer
  | some k => update timers k none
  | none => timers

def abortRead (reads : ℕ → Option Read) : Option ℕ → ℕ → Option Read
  | some k => update reads k ((reads k).map fun r => { r with aborted := true })
  | none => reads

section Poller

variable (parse : String → Option Int)

def stopPoller (s : Observation) : Observation :=
  { s with
    timers := clearTimer (clearTimer s.timers s.pollTimer) s.deadlineTimer
    reads := abortRead s.reads s.inFlight
    pollTimer := none
    deadlineTimer := none
    inFlight := none
    running := false }

def dispatch (s : Observation) (e : ObserverEvent) : Observation :=
  { s with observer := reduceObserver parse s.observer e }

def stillWaiting (s : Observation) (follow : Observation → Observation) : Observation :=
  if s.observer.phase = .awaitingObservation then follow s else stopPoller s

def schedule (s : Observation) (attempt : ℕ) : Observation :=
  { s with
    pollTimer := some s.next
    timers := update s.timers s.next (some ⟨.poll, nextPollDelayMs attempt⟩)
    next := s.next + 1 }

def poll (s : Observation) (nowMs : Int) : Observation :=
  stillWaiting (dispatch parse { s with pollTimer := none } (.tick nowMs)) fun s =>
    { s with
      inFlight := some s.next
      reads := update s.reads s.next (some ⟨false, s.requests⟩)
      next := s.next + 1 }

def ReadResult.event (nowMs : Int) : ReadResult → ObserverEvent
  | .sample s => .sample s nowMs
  | .empty => .error
  | .failed status =>
    if status = some 403 then .forbidden else if status = some 404 then .notFound else .error

def afterSettle (s : Observation) (e : ObserverEvent) : Observation :=
  stillWaiting { dispatch parse s e with inFlight := none } fun s => schedule s s.observer.attempt

def passDeadline (s : Observation) (deadlineMs nowMs : Int) : Observation :=
  stillWaiting (dispatch parse
    { s with deadlineTimer := none, reads := abortRead s.reads s.inFlight }
    (.tick (max nowMs deadlineMs))) id

/-- `begin`. -/
def beginPoller (s : Observation) (state : ObserverState) (nowMs : Int) : Observation :=
  if s.running ∨ state.phase ≠ .awaitingObservation then s
  else
    let deadlineMs := state.deadlineMs.getD nowMs
    schedule { s with
        running := true
        deadlineTimer := some s.next
        timers := update s.timers s.next (some ⟨.deadline deadlineMs, max 0 (deadlineMs - nowMs)⟩)
        next := s.next + 1 }
      state.attempt

def observe (s : Observation) : ObserverAction → Option ObserverEvent × Observation
  | .request => (none, { dispatch parse s .request with requests := s.requests + 1 })
  | .requestFailed => (none, dispatch parse s .requestFailed)
  | .accepted b c prior nowMs => (none, dispatch parse s (.accepted b c prior nowMs))
  | .cancel => (none, dispatch parse s .cancel)
  | .clusterChanged => (none, dispatch parse s .clusterChanged)
  | .begin state nowMs => (none, beginPoller s state nowMs)
  | .stop => (none, stopPoller s)
  | .fire k nowMs =>
    match s.timers k with
    | none => (none, s)
    | some timer =>
      let s := { s with timers := update s.timers k none }
      match timer.call with
      | .poll => (some (.tick nowMs), poll parse s nowMs)
      | .deadline deadlineMs =>
        (some (.tick (max nowMs deadlineMs)), passDeadline parse s deadlineMs nowMs)
  | .settle k result nowMs =>
    match s.reads k with
    | none => (none, s)
    | some read =>
      let s := { s with reads := update s.reads k none }
      if read.aborted then (none, s)
      else (some (result.event nowMs), afterSettle parse s (result.event nowMs))

def refreshObserver : Reactive Observation ObserverAction (Option ObserverEvent) where
  init := ⟨initialObserverState, none, none, none, false, fun _ => none, fun _ => none, 0, 0⟩
  react := observe parse

@[simp] theorem react_eq (s : Observation) (a : ObserverAction) :
    (refreshObserver parse).react s a = observe parse s a := rfl

end Poller

/-! ## What an event of the poller does -/

section Reducing

variable {parse : String → Option Int} {st : ObserverState} {e : ObserverEvent}

def ObserverEvent.FromPoller : ObserverEvent → Prop
  | .sample _ _ | .forbidden | .notFound | .error | .tick _ => True
  | .request | .requestFailed | .accepted _ _ _ _ | .clusterChanged | .cancel => False

theorem ReadResult.fromPoller (result : ReadResult) (nowMs : Int) :
    (result.event nowMs).FromPoller := by
  cases result with
  | sample s => trivial
  | empty => trivial
  | failed status =>
    simp only [ReadResult.event]
    split
    · trivial
    · split <;> trivial

variable {nowMs : Int}

theorem ReadResult.eq_sample {result : ReadResult} {now : Int} {s : Sample}
    (h : result.event now = .sample s nowMs) : result = .sample s ∧ now = nowMs := by
  cases result with
  | sample s' =>
    cases h
    exact ⟨rfl, rfl⟩
  | empty => cases h
  | failed status =>
    simp only [ReadResult.event] at h
    split at h
    · cases h
    · split at h <;> cases h

theorem reduceObserver_of_terminal (hph : isTerminal st.phase = true) (he : e ≠ .request) :
    reduceObserver parse st e = st := by
  unfold reduceObserver
  rw [if_neg he, if_pos (.inl hph)]

theorem reduceObserver_poller (he : e.FromPoller) : reduceObserver parse st e =
    if st.phase = .awaitingObservation then reduceAwaiting parse st e else st := by
  unfold reduceObserver
  cases e with
  | request | requestFailed | accepted | clusterChanged | cancel => exact he.elim
  | _ => by_cases hph : st.phase = .awaitingObservation <;> simp [hph, isTerminal]

def Opened (phase : ObserverPhase) : Prop := phase = .awaitingObservation ∨ isTerminal phase = true

theorem applySample_opened (s : Sample) (nowMs : Int) (h : Opened st.phase) :
    Opened (applySample parse st s nowMs).phase ∧
      (applySample parse st s nowMs).deadlineMs = st.deadlineMs := by
  unfold applySample
  split
  · split
    · exact ⟨.inr rfl, rfl⟩
    · dsimp only
      split
      · exact ⟨.inr rfl, rfl⟩
      · split
        · split <;> exact ⟨.inr rfl, rfl⟩
        · split
          · exact ⟨.inr rfl, rfl⟩
          · exact ⟨h, rfl⟩
  · exact ⟨h, rfl⟩

theorem reduceAwaiting_opened (h : Opened st.phase) : Opened (reduceAwaiting parse st e).phase ∧
      (reduceAwaiting parse st e).deadlineMs = st.deadlineMs := by
  cases e with
  | sample s nowMs => exact applySample_opened s nowMs h
  | forbidden | notFound => exact ⟨.inr rfl, rfl⟩
  | error | tick nowMs =>
    simp only [reduceAwaiting]
    split
    · exact ⟨.inr rfl, rfl⟩
    · exact ⟨h, rfl⟩
  | _ => exact ⟨h, rfl⟩

/-- An opened observation stays opened, with its deadline, until a new request. -/
theorem reduceObserver_opened (h : Opened st.phase) (he : e ≠ .request) :
    Opened (reduceObserver parse st e).phase ∧
      (reduceObserver parse st e).deadlineMs = st.deadlineMs ∧
      ((reduceObserver parse st e).phase = .awaitingObservation →
        st.phase = .awaitingObservation) := by
  rcases h with h | h
  · by_cases hpo : e.FromPoller
    · rw [reduceObserver_poller hpo, if_pos h]
      obtain ⟨hph, hdd⟩ := reduceAwaiting_opened (.inl h)
      exact ⟨hph, hdd, fun _ => h⟩
    · cases e with
      | request => exact absurd rfl he
      | requestFailed | accepted | clusterChanged | cancel =>
        simp [reduceObserver, h, isTerminal, Opened]
      | _ => exact absurd trivial hpo
  · rw [reduceObserver_of_terminal h he]
    exact ⟨.inr h, rfl, id⟩

def Dated (st : ObserverState) : Prop :=
  st.phase = .awaitingObservation → ∃ deadlineMs, st.deadlineMs = some deadlineMs

/-- It leaves the observer, or one that did not succeed and, if it waits, has a deadline. -/
theorem reduceObserver_page (he : ¬e.FromPoller) : reduceObserver parse st e = st ∨
    ((reduceObserver parse st e).phase ≠ .observedSuccess ∧ Dated (reduceObserver parse st e)) := by
  unfold reduceObserver
  split
  · exact .inr ⟨nofun, nofun⟩
  next hreq =>
    split
    · exact .inl rfl
    · cases e with
      | request => exact absurd rfl hreq
      | requestFailed =>
        dsimp only
        split
        · exact .inr ⟨nofun, nofun⟩
        · exact .inl rfl
      | accepted b c prior nowMs =>
        dsimp only
        split
        · exact .inl rfl
        · exact .inr ⟨nofun, fun _ => ⟨_, rfl⟩⟩
      | clusterChanged | cancel => exact .inr ⟨nofun, nofun⟩
      | _ => exact absurd trivial he

theorem Dated.reduce (h : Dated st) : Dated (reduceObserver parse st e) := by
  by_cases hpo : e.FromPoller
  · intro hph
    by_cases hwt : st.phase = .awaitingObservation
    · rw [reduceObserver_poller hpo, if_pos hwt, (reduceAwaiting_opened (.inl hwt)).2]
      exact h hwt
    · rw [reduceObserver_poller hpo, if_neg hwt] at hph
      exact absurd hph hwt
  · rcases reduceObserver_page hpo with hsm | ⟨-, hdt⟩
    · rwa [hsm]
    · exact hdt

/-- The time of the last sync is later than at the baseline (strong), or the synced version is
another one (weak). -/
def Moved (parse : String → Option Int) (b : Baseline) (s : Sample) : Correlation → Prop
  | .strong => ∃ before after, parseMs parse b.refreshTime = some before ∧
    parseMs parse s.lastSyncTime = some after ∧ before < after
  | .weak => ∃ version, s.syncedResourceVersion = some version ∧ version ≠ "" ∧
    b.syncedResourceVersion ≠ some version

theorem Moved.of_isNewEvidence {b : Baseline} {s : Sample} {c : Correlation}
    (h : isNewEvidence parse b s c = true) : Moved parse b s c := by
  cases c with
  | strong =>
    simp only [isNewEvidence] at h
    split at h
    next before after hb ha => exact ⟨before, after, hb, ha, of_decide_eq_true h⟩
    · cases h
  | weak =>
    obtain ⟨hsome, hne, hnew⟩ := of_decide_eq_true h
    obtain ⟨version, hv⟩ := Option.ne_none_iff_exists'.mp hsome
    rw [hv] at hne hnew
    exact ⟨version, hv, fun he => hne (by rw [he]), hnew.symm⟩

/-- What a sample shows when it makes an observation succeed. -/
structure Shows (parse : String → Option Int) (st : ObserverState) (s : Sample) (nowMs : Int) :
    Prop where
  baseline : ∃ b c, st.baseline = some b ∧ st.correlation = some c ∧ s.uid = b.uid ∧
    Moved parse b s c
  inTime : expired st nowMs = false

theorem applySample_success {s : Sample} (hbe : st.phase ≠ .observedSuccess)
    (h : (applySample parse st s nowMs).phase = .observedSuccess) : Shows parse st s nowMs := by
  unfold applySample at h
  split at h
  next b c hb hc =>
    split at h
    · cases h
    · rename_i huid
      dsimp only at h
      split at h
      · cases h
      · rename_i hti
        split at h
        · rename_i hnew
          exact ⟨⟨b, c, hb, hc, not_not.mp huid, .of_isNewEvidence hnew⟩, eq_false_of_ne_true hti⟩
        · split at h
          · cases h
          · exact absurd h hbe
  · exact absurd h hbe

theorem reduceAwaiting_success (hbe : st.phase ≠ .observedSuccess)
    (h : (reduceAwaiting parse st e).phase = .observedSuccess) :
    ∃ s nowMs, e = .sample s nowMs ∧ Shows parse st s nowMs := by
  cases e with
  | sample s nowMs => exact ⟨s, nowMs, rfl, applySample_success hbe h⟩
  | forbidden | notFound => cases h
  | error | tick nowMs =>
    simp only [reduceAwaiting] at h
    split at h
    · cases h
    · exact absurd h hbe
  | _ => exact absurd h hbe

/-- Only a sample that shows new evidence in time, while the observer waits, makes it succeed. -/
theorem reduceObserver_success (hbe : st.phase ≠ .observedSuccess)
    (h : (reduceObserver parse st e).phase = .observedSuccess) :
    st.phase = .awaitingObservation ∧ ∃ s nowMs, e = .sample s nowMs ∧ Shows parse st s nowMs := by
  by_cases hpo : e.FromPoller
  · rw [reduceObserver_poller hpo] at h
    split at h
    next hph => exact ⟨hph, reduceAwaiting_success hbe h⟩
    · exact absurd h hbe
  · rcases reduceObserver_page hpo with hsm | ⟨hne, -⟩
    · rw [hsm] at h
      exact absurd h hbe
    · exact absurd h hne

theorem reduceObserver_deadline {deadlineMs : Int} (hop : Opened st.phase)
    (hdd : st.deadlineMs = some deadlineMs) (hnow : deadlineMs ≤ nowMs) :
    isTerminal (reduceObserver parse st (.tick nowMs)).phase = true := by
  rcases hop with hph | hph
  · have hexp : expired st nowMs = true := by simp [expired, hdd, hnow]
    have hpo : (ObserverEvent.tick nowMs).FromPoller := trivial
    rw [reduceObserver_poller hpo, if_pos hph, reduceAwaiting, if_pos hexp]
    rfl
  · have hreq : ObserverEvent.tick nowMs ≠ .request := nofun
    rwa [reduceObserver_of_terminal hph hreq]

end Reducing

/-! ## One chain of timers and reads -/

variable {k : ℕ}

theorem clearTimer_eq_some {timers cell} {t : Timer} (h : clearTimer timers cell k = some t) :
    cell ≠ some k ∧ timers k = some t := by
  cases cell with
  | none => exact ⟨nofun, h⟩
  | some j =>
    obtain ⟨hne, ht⟩ := update_none_cases h
    exact ⟨fun heq => hne (Option.some.inj heq).symm, ht⟩

theorem clearTimer_of_none {timers} (h : timers k = none) (cell : Option ℕ) :
    clearTimer timers cell k = none := by
  cases cell with
  | none => exact h
  | some j => exact update_none_of_none h

theorem abortRead_of_none {reads} (h : reads k = none) (cell : Option ℕ) :
    abortRead reads cell k = none := by
  cases cell with
  | none => exact h
  | some j =>
    rw [abortRead, update_apply]
    split
    next hj =>
      rw [← hj, h]
      rfl
    · exact h

theorem abortRead_eq_some {reads cell} {r : Read} (h : abortRead reads cell k = some r) :
    (cell = some k ∧ r.aborted = true) ∨ (cell ≠ some k ∧ reads k = some r) := by
  cases cell with
  | none => exact .inr ⟨nofun, h⟩
  | some j =>
    by_cases hj : k = j
    · subst hj
      rw [abortRead, update_self] at h
      obtain ⟨r', -, rfl⟩ := Option.map_eq_some_iff.mp h
      exact .inl ⟨rfl, rfl⟩
    · rw [abortRead, update_of_ne hj] at h
      exact .inr ⟨fun heq => hj (Option.some.inj heq).symm, h⟩

def AllAborted (s : Observation) : Prop := ∀ k r, s.reads k = some r → r.aborted = true

/-- The cells name all that is armed or on its way, and a poll timer is not armed beside a read. -/
structure Chained (s : Observation) : Prop where
  timers : ∀ k t, s.timers k = some t →
    (t.call = .poll ∧ s.pollTimer = some k) ∨ (t.call ≠ .poll ∧ s.deadlineTimer = some k)
  reads : ∀ k r, s.reads k = some r → r.aborted = false → s.inFlight = some k
  serial : s.pollTimer ≠ none → AllAborted s
  stopped : s.running = false → s.pollTimer = none ∧ s.deadlineTimer = none ∧ s.inFlight = none
  fresh : ∀ k, s.next ≤ k → s.timers k = none ∧ s.reads k = none

/-- A poller that is not running has nothing armed and nothing on its way. -/
structure Quiet (s : Observation) : Prop where
  stopped : s.running = false
  timers : ∀ k, s.timers k = none
  reads : AllAborted s

section Chain

variable {parse : String → Option Int} {s : Observation}

theorem Chained.quiet (h : Chained s) (hrun : s.running = false) : Quiet s := by
  obtain ⟨hpl, hdd, hrd⟩ := h.stopped hrun
  refine ⟨hrun, fun k => ?_, fun k r hr => ?_⟩
  · cases ht : s.timers k with
    | none => rfl
    | some t =>
      rcases h.timers k t ht with ⟨-, hk⟩ | ⟨-, hk⟩
      · rw [hpl] at hk
        cases hk
      · rw [hdd] at hk
        cases hk
  · cases hab : r.aborted with
    | true => rfl
    | false =>
      have hk := h.reads k r hr hab
      rw [hrd] at hk
      cases hk

variable {follow : Observation → Observation} {t : Timer} {r : Read} {k : ℕ}

theorem Chained.running_of_timer (h : Chained s) (ht : s.timers k = some t) : s.running = true := by
  by_contra hrun
  rw [(h.quiet (eq_false_of_ne_true hrun)).timers k] at ht
  cases ht

theorem Chained.running_of_read (h : Chained s) (hr : s.reads k = some r)
    (hab : r.aborted = false) : s.running = true := by
  by_contra hrun
  have := (h.quiet (eq_false_of_ne_true hrun)).reads k r hr
  rw [hab] at this
  cases this

theorem Chained.of_observer (h : Chained s) (observer : ObserverState) (requests : ℕ) :
    Chained { s with observer := observer, requests := requests } :=
  { h with }

theorem Chained.stop (h : Chained s) : Chained (stopPoller s) where
  timers := by
    intro k t ht
    obtain ⟨hdd, ht⟩ := clearTimer_eq_some ht
    obtain ⟨hpl, ht⟩ := clearTimer_eq_some ht
    rcases h.timers k t ht with ⟨-, hk⟩ | ⟨-, hk⟩
    · exact absurd hk hpl
    · exact absurd hk hdd
  reads := by
    intro k r hr hab
    rcases abortRead_eq_some hr with ⟨-, ha⟩ | ⟨hne, hr⟩
    · rw [hab] at ha
      cases ha
    · exact absurd (h.reads k r hr hab) hne
  serial := absurd rfl
  stopped := fun _ => ⟨rfl, rfl, rfl⟩
  fresh := by
    intro k hk
    obtain ⟨htm, hrd⟩ := h.fresh k hk
    exact ⟨clearTimer_of_none (clearTimer_of_none htm _) _, abortRead_of_none hrd _⟩

theorem stillWaiting_observer (hfo : ∀ s, (follow s).observer = s.observer) :
    (stillWaiting s follow).observer = s.observer := by
  unfold stillWaiting
  split
  · exact hfo s
  · rfl

theorem stillWaiting_stops (hph : s.observer.phase ≠ .awaitingObservation) :
    (stillWaiting s follow).running = false := by
  rw [stillWaiting, if_neg hph]
  rfl

section

variable (h : Chained s)
include h

theorem Chained.waited (hfo : s.observer.phase = .awaitingObservation → Chained (follow s)) :
    Chained (stillWaiting s follow) := by
  unfold stillWaiting
  split
  next hph => exact hfo hph
  · exact h.stop

theorem Chained.popPoll (ht : s.timers k = some t) (hcl : t.call = .poll) :
    Chained { s with timers := update s.timers k none, pollTimer := none } ∧ AllAborted s := by
  have hpl : s.pollTimer = some k := by
    rcases h.timers k t ht with ⟨-, hk⟩ | ⟨hne, -⟩
    · exact hk
    · exact absurd hcl hne
  refine ⟨⟨?_, h.reads, absurd rfl, ?_, ?_⟩, h.serial (by rw [hpl]; nofun)⟩
  · intro j u hu
    obtain ⟨hj, hu⟩ := update_none_cases hu
    rcases h.timers j u hu with ⟨-, hce⟩ | hdd
    · rw [hpl] at hce
      exact absurd (Option.some.inj hce).symm hj
    · exact .inr hdd
  · intro hrun
    obtain ⟨-, hdd, hrd⟩ := h.stopped hrun
    exact ⟨rfl, hdd, hrd⟩
  · intro j hj
    obtain ⟨htm, hrd⟩ := h.fresh j hj
    exact ⟨update_none_of_none htm, hrd⟩

theorem Chained.popDeadline (ht : s.timers k = some t) (hcl : t.call ≠ .poll) : Chained { s with
      timers := update s.timers k none
      deadlineTimer := none
      reads := abortRead s.reads s.inFlight } := by
  have hdd : s.deadlineTimer = some k := by
    rcases h.timers k t ht with ⟨hpl, -⟩ | ⟨-, hk⟩
    · exact absurd hpl hcl
    · exact hk
  have hab : ∀ j r, abortRead s.reads s.inFlight j = some r → r.aborted = true := by
    intro j r hr
    rcases abortRead_eq_some hr with ⟨-, ha⟩ | ⟨hne, hr⟩
    · exact ha
    · cases ha : r.aborted with
      | true => rfl
      | false => exact absurd (h.reads j r hr ha) hne
  refine ⟨?_, ?_, fun _ => hab, ?_, ?_⟩
  · intro j u hu
    obtain ⟨hj, hu⟩ := update_none_cases hu
    rcases h.timers j u hu with hpl | ⟨-, hce⟩
    · exact .inl hpl
    · rw [hdd] at hce
      exact absurd (Option.some.inj hce).symm hj
  · intro j r hr hfl
    rw [hab j r hr] at hfl
    cases hfl
  · intro hrun
    obtain ⟨hpl, -, hrd⟩ := h.stopped hrun
    exact ⟨hpl, rfl, hrd⟩
  · intro j hj
    obtain ⟨htm, hrd⟩ := h.fresh j hj
    exact ⟨update_none_of_none htm, abortRead_of_none hrd _⟩

theorem Chained.popRead (hr : s.reads k = some r) (hab : r.aborted = false) :
    Chained { s with reads := update s.reads k none, inFlight := none } ∧
      AllAborted { s with reads := update s.reads k none, inFlight := none } ∧
      s.pollTimer = none := by
  have hpl : s.pollTimer = none := by
    by_contra hne
    rw [h.serial hne k r hr] at hab
    cases hab
  have hall : ∀ j q, update s.reads k none j = some q → q.aborted = true := by
    intro j q hq
    obtain ⟨hj, hq⟩ := update_none_cases hq
    cases ha : q.aborted with
    | true => rfl
    | false =>
      have hce := h.reads j q hq ha
      rw [h.reads k r hr hab] at hce
      exact absurd (Option.some.inj hce).symm hj
  refine ⟨⟨h.timers, ?_, fun _ => hall, ?_, ?_⟩, hall, hpl⟩
  · intro j q hq hfl
    rw [hall j q hq] at hfl
    cases hfl
  · intro hrun
    obtain ⟨hce, hdd, -⟩ := h.stopped hrun
    exact ⟨hce, hdd, rfl⟩
  · intro j hj
    obtain ⟨htm, hrd⟩ := h.fresh j hj
    exact ⟨htm, update_none_of_none hrd⟩

theorem Chained.popAborted (k : ℕ) : Chained { s with reads := update s.reads k none } :=
  { h with
    reads := fun j q hq => h.reads j q (update_none_cases hq).2
    serial := fun hpl j q hq => h.serial hpl j q (update_none_cases hq).2
    fresh := fun j hj => ⟨(h.fresh j hj).1, update_none_of_none (h.fresh j hj).2⟩ }

theorem Chained.scheduled (hrun : s.running = true) (hpl : s.pollTimer = none)
    (hab : AllAborted s) (attempt : ℕ) : Chained (schedule s attempt) where
  timers := by
    intro k t ht
    rcases update_some_cases ht with ⟨rfl, rfl⟩ | ⟨-, ht⟩
    · exact .inl ⟨rfl, rfl⟩
    · rcases h.timers k t ht with ⟨-, hk⟩ | hdd
      · rw [hpl] at hk
        cases hk
      · exact .inr hdd
  reads := h.reads
  serial := fun _ => hab
  stopped := fun hst => nomatch hrun.symm.trans hst
  fresh k hk :=
    ⟨unused_start (fun j hj => (h.fresh j hj).1) _ hk, (h.fresh k (Nat.le_of_succ_le hk)).2⟩

theorem Chained.startRead (hrun : s.running = true)
    (hpl : s.pollTimer = none) (hab : AllAborted s) (r : Read) :
    Chained { s with
      inFlight := some s.next
      reads := update s.reads s.next (some r)
      next := s.next + 1 } where
  timers := h.timers
  reads := by
    intro k q hq hfl
    rcases update_some_cases hq with ⟨rfl, -⟩ | ⟨-, hq⟩
    · rfl
    · rw [hab k q hq] at hfl
      cases hfl
  serial := absurd hpl
  stopped := fun hst => nomatch hrun.symm.trans hst
  fresh k hk :=
    ⟨(h.fresh k (Nat.le_of_succ_le hk)).1, unused_start (fun j hj => (h.fresh j hj).2) _ hk⟩

theorem Chained.armDeadline (hst : s.running = false) (deadlineMs : Int) (delayMs : Int) :
    Chained { s with
      running := true
      deadlineTimer := some s.next
      timers := update s.timers s.next (some ⟨.deadline deadlineMs, delayMs⟩)
      next := s.next + 1 } where
  timers := by
    intro k t ht
    rcases update_some_cases ht with ⟨rfl, rfl⟩ | ⟨-, ht⟩
    · exact .inr ⟨nofun, rfl⟩
    · rw [(h.quiet hst).timers k] at ht
      cases ht
  reads := h.reads
  serial := h.serial
  stopped := nofun
  fresh k hk :=
    ⟨unused_start (fun j hj => (h.fresh j hj).1) _ hk, (h.fresh k (Nat.le_of_succ_le hk)).2⟩

theorem Chained.begin (state : ObserverState) (nowMs : Int) :
    Chained (beginPoller s state nowMs) := by
  unfold beginPoller
  split
  · exact h
  next hsta =>
    rw [not_or] at hsta
    have hst := eq_false_of_ne_true hsta.1
    exact (h.armDeadline hst _ _).scheduled rfl (h.stopped hst).1 (h.quiet hst).reads _

theorem Chained.polled (ht : s.timers k = some t) (hcl : t.call = .poll) (nowMs : Int) :
    Chained (poll parse { s with timers := update s.timers k none } nowMs) := by
  obtain ⟨hpp, hab⟩ := h.popPoll ht hcl
  have htc := hpp.of_observer (reduceObserver parse s.observer (.tick nowMs)) s.requests
  exact htc.waited fun _ => htc.startRead (h.running_of_timer ht) rfl hab _

theorem Chained.pastDeadline (ht : s.timers k = some t) (hcl : t.call ≠ .poll)
    (deadlineMs nowMs : Int) :
    Chained (passDeadline parse { s with timers := update s.timers k none } deadlineMs nowMs) := by
  have htc := (h.popDeadline ht hcl).of_observer
    (reduceObserver parse s.observer (.tick (max nowMs deadlineMs))) s.requests
  exact htc.waited fun _ => htc

theorem Chained.settled (hr : s.reads k = some r) (hab : r.aborted = false) (e : ObserverEvent) :
    Chained (afterSettle parse { s with reads := update s.reads k none } e) := by
  obtain ⟨hpp, hall, hpl⟩ := h.popRead hr hab
  have hred := hpp.of_observer (reduceObserver parse s.observer e) s.requests
  exact hred.waited fun _ => hred.scheduled (h.running_of_read hr hab) hpl hall _

theorem Chained.step (a : ObserverAction) : Chained (observe parse s a).2 := by
  cases a with
  | request | requestFailed | accepted | cancel | clusterChanged => exact h.of_observer _ _
  | begin state nowMs => exact h.begin state nowMs
  | stop => exact h.stop
  | fire k nowMs =>
    simp only [observe]
    split
    · exact h
    next t ht =>
      split
      · rename_i hcl
        exact h.polled ht hcl nowMs
      · rename_i deadlineMs hcl
        exact h.pastDeadline ht (by rw [hcl]; nofun) deadlineMs nowMs
  | settle k result nowMs =>
    simp only [observe]
    split
    · exact h
    next r hr =>
      split
      · exact h.popAborted k
      · rename_i hab
        exact h.settled hr (eq_false_of_ne_true hab) _

/-! ## What the poller dispatches -/

omit h in
/-- An event comes from a timer or from a read that was not aborted. The observer takes it, and the
poller stops unless it still waits. -/
theorem observe_event {a e} (he : (observe parse s a).1 = some e) :
    ((∃ k t nowMs now, a = .fire k nowMs ∧ s.timers k = some t ∧ e = .tick now) ∨
      ∃ k r result nowMs, a = .settle k result nowMs ∧ s.reads k = some r ∧
        r.aborted = false ∧ e = result.event nowMs) ∧
    (observe parse s a).2.observer = reduceObserver parse s.observer e ∧
    ((reduceObserver parse s.observer e).phase ≠ .awaitingObservation →
      (observe parse s a).2.running = false) := by
  cases a with
  | fire k nowMs =>
    simp only [observe] at he ⊢
    split at he
    · cases he
    next t ht =>
      split at he <;> cases he
      · exact ⟨.inl ⟨k, t, nowMs, _, rfl, ht, rfl⟩, stillWaiting_observer fun _ => rfl,
          fun hen => stillWaiting_stops hen⟩
      · exact ⟨.inl ⟨k, t, nowMs, _, rfl, ht, rfl⟩, stillWaiting_observer fun _ => rfl,
          fun hen => stillWaiting_stops hen⟩
  | settle k result nowMs =>
    simp only [observe] at he ⊢
    split at he
    · cases he
    next r hr =>
      split at he
      · cases he
      · rename_i hab
        cases he
        rw [if_neg hab]
        exact ⟨.inr ⟨k, r, result, nowMs, rfl, hr, eq_false_of_ne_true hab, rfl⟩,
          stillWaiting_observer fun _ => rfl, fun hen => stillWaiting_stops hen⟩
  | _ => cases he

theorem Chained.dispatches {a e} (he : (observe parse s a).1 = some e) :
    s.running = true ∧ e.FromPoller ∧
      (observe parse s a).2.observer = reduceObserver parse s.observer e := by
  obtain ⟨hfr, hobs, -⟩ := observe_event he
  rcases hfr with ⟨k, t, nowMs, now, -, ht, rfl⟩ | ⟨k, r, result, nowMs, -, hr, hab, rfl⟩
  · exact ⟨h.running_of_timer ht, trivial, hobs⟩
  · exact ⟨h.running_of_read hr hab, result.fromPoller nowMs, hobs⟩

theorem Chained.ignored {a e} (he : (observe parse s a).1 = some e)
    (hph : s.observer.phase ≠ .awaitingObservation) :
    (observe parse s a).2.observer = s.observer ∧ (observe parse s a).2.running = false := by
  obtain ⟨-, hpo, -⟩ := h.dispatches he
  obtain ⟨-, hobs, hsto⟩ := observe_event he
  rw [reduceObserver_poller hpo, if_neg hph] at hobs hsto
  exact ⟨hobs, hsto hph⟩

end

end Chain

/-! ## The request that is observed -/

/-- What the poller holds is for the current request, and its deadline is the observer's. -/
structure Current (s : Observation) : Prop where
  request : ∀ k r, s.reads k = some r → r.aborted = false → r.request = s.requests
  opened : s.running = true → Opened s.observer.phase
  deadline : ∀ k t deadlineMs, s.timers k = some t → t.call = .deadline deadlineMs →
    s.observer.deadlineMs = some deadlineMs
  armed : s.running = true → s.observer.phase = .awaitingObservation →
    ∃ k t deadlineMs, s.timers k = some t ∧ t.call = .deadline deadlineMs

/-- A new request only while the poller does not run, and `begin` with the state that is shown. -/
def Allowed (s : Observation) : ObserverAction → Prop
  | .request => s.running = false
  | .begin state _ => state = s.observer
  | _ => True

def Guarded (parse : String → Option Int) : Observation → List ObserverAction → Prop
  | _, [] => True
  | s, a :: as => Allowed s a ∧ Guarded parse (observe parse s a).2 as

section Guard

variable {parse : String → Option Int} {s : Observation}

theorem Quiet.current (h : Quiet s) : Current s where
  request := by
    intro k r hr hfl
    rw [h.reads k r hr] at hfl
    cases hfl
  opened := fun hrun => nomatch hrun.symm.trans h.stopped
  deadline := by
    intro k t deadlineMs ht
    rw [h.timers k] at ht
    cases ht
  armed := fun hrun => nomatch hrun.symm.trans h.stopped

theorem Current.reduce (h : Current s) (hrun : s.running = true) {e} (he : e ≠ .request) :
    Current (dispatch parse s e) := by
  obtain ⟨hop, hdd, hwa⟩ := reduceObserver_opened (h.opened hrun) he
  refine ⟨h.request, fun _ => hop, ?_, fun _ hph => h.armed hrun (hwa hph)⟩
  intro k t deadlineMs ht hcl
  exact hdd.trans (h.deadline k t deadlineMs ht hcl)

theorem Current.dispatched (h : Current s) (hch : Chained s) {e} (he : e ≠ .request) :
    Current (dispatch parse s e) := by
  by_cases hrun : s.running = true
  · exact h.reduce hrun he
  · have hqu := hch.quiet (eq_false_of_ne_true hrun)
    exact Quiet.current { hqu with }

theorem Current.waited (hch : Chained s) {follow}
    (hfo : s.observer.phase = .awaitingObservation → Current (follow s)) :
    Current (stillWaiting s follow) := by
  unfold stillWaiting
  split
  next hph => exact hfo hph
  · exact (hch.stop.quiet rfl).current

variable {t : Timer} {k : ℕ}

theorem Current.popPoll (h : Current s) (ht : s.timers k = some t) (hcl : t.call = .poll) :
    Current { s with timers := update s.timers k none, pollTimer := none } where
  request := h.request
  opened := h.opened
  deadline := fun j u deadlineMs hu => h.deadline j u deadlineMs (update_none_cases hu).2
  armed := by
    intro hrun hph
    obtain ⟨j, u, deadlineMs, hu, hdd⟩ := h.armed hrun hph
    have hj : j ≠ k := by
      rintro rfl
      rw [ht, Option.some.injEq] at hu
      subst hu
      rw [hcl] at hdd
      cases hdd
    exact ⟨j, u, deadlineMs, (update_of_ne hj _ _).trans hu, hdd⟩

theorem Current.popRead (h : Current s) (k : ℕ) (cell : Option ℕ) :
    Current { s with reads := update s.reads k none, inFlight := cell } :=
  { h with request := fun j r hr => h.request j r (update_none_cases hr).2 }

theorem Current.startRead (h : Current s) : Current { s with
      inFlight := some s.next
      reads := update s.reads s.next (some ⟨false, s.requests⟩)
      next := s.next + 1 } :=
  { h with request := forall_update h.request fun _ => rfl }

section

variable (h : Current s) (hch : Chained s)
include h hch

theorem Current.scheduled (attempt : ℕ) : Current (schedule s attempt) where
  request := h.request
  opened := h.opened
  deadline := by
    intro k t deadlineMs ht hcl
    rcases update_some_cases ht with ⟨-, rfl⟩ | ⟨-, ht⟩
    · cases hcl
    · exact h.deadline k t deadlineMs ht hcl
  armed := by
    intro hrun hph
    obtain ⟨k, t, deadlineMs, ht, hcl⟩ := h.armed hrun hph
    have hk := ne_of_unused (hch.fresh _ le_rfl).1 ht
    exact ⟨k, t, deadlineMs, (update_of_ne hk _ _).trans ht, hcl⟩

theorem Current.armDeadline (hst : s.running = false)
    (hph : s.observer.phase = .awaitingObservation) {deadlineMs : Int}
    (hdd : s.observer.deadlineMs = some deadlineMs) (delayMs : Int) :
    Current { s with
      running := true
      deadlineTimer := some s.next
      timers := update s.timers s.next (some ⟨.deadline deadlineMs, delayMs⟩)
      next := s.next + 1 } where
  request := h.request
  opened := fun _ => .inl hph
  deadline := by
    intro k t due ht hcl
    rcases update_some_cases ht with ⟨-, rfl⟩ | ⟨-, ht⟩
    · cases hcl
      exact hdd
    · rw [(hch.quiet hst).timers k] at ht
      cases ht
  armed := fun _ _ => ⟨s.next, _, deadlineMs, update_self _ _ _, rfl⟩

theorem Current.begin (hdt : Dated s.observer)
    (nowMs : Int) : Current (beginPoller s s.observer nowMs) := by
  unfold beginPoller
  split
  · exact h
  next hsta =>
    rw [not_or, not_not] at hsta
    have hst := eq_false_of_ne_true hsta.1
    obtain ⟨deadlineMs, hdd⟩ := hdt hsta.2
    have hgetD : s.observer.deadlineMs.getD nowMs = deadlineMs := by
      rw [hdd]
      rfl
    rw [hgetD]
    exact (h.armDeadline hch hst hsta.2 hdd _).scheduled (hch.armDeadline hst _ _) _

theorem Current.polled (ht : s.timers k = some t) (hcl : t.call = .poll) (nowMs : Int) :
    Current (poll parse { s with timers := update s.timers k none } nowMs) := by
  have hreq : ObserverEvent.tick nowMs ≠ .request := nofun
  have htc := (hch.popPoll ht hcl).1.of_observer
    (reduceObserver parse s.observer (.tick nowMs)) s.requests
  exact Current.waited htc fun _ =>
    ((h.popPoll ht hcl).reduce (hch.running_of_timer ht) hreq).startRead

theorem Current.settled {r : Read} (hr : s.reads k = some r)
    (hab : r.aborted = false) (result : ReadResult) (nowMs : Int) :
    Current (afterSettle parse { s with reads := update s.reads k none } (result.event nowMs)) := by
  have hreq : result.event nowMs ≠ .request := by
    intro heq
    have hpo := result.fromPoller nowMs
    rw [heq] at hpo
    exact hpo
  have hred := (hch.popRead hr hab).1.of_observer
    (reduceObserver parse s.observer (result.event nowMs)) s.requests
  refine Current.waited hred fun _ => ?_
  exact ((h.popRead k none).reduce (hch.running_of_read hr hab) hreq).scheduled hred _

/-- The deadline that fires is the observer's, so the wait is over. -/
theorem Current.pastDeadline {deadlineMs : Int}
    (ht : s.timers k = some t) (hcl : t.call = .deadline deadlineMs) (nowMs : Int) :
    isTerminal (observe parse s (.fire k nowMs)).2.observer.phase = true ∧
      Quiet (observe parse s (.fire k nowMs)).2 := by
  have hen : isTerminal (reduceObserver parse s.observer
      (.tick (max nowMs deadlineMs))).phase = true :=
    reduceObserver_deadline (h.opened (hch.running_of_timer ht))
      (h.deadline k t deadlineMs ht hcl) (le_max_right _ _)
  have hph : (reduceObserver parse s.observer
      (.tick (max nowMs deadlineMs))).phase ≠ .awaitingObservation := by
    intro hwt
    rw [hwt] at hen
    cases hen
  have hev : (observe parse s (.fire k nowMs)).1 = some (.tick (max nowMs deadlineMs)) := by
    simp only [observe, ht, hcl]
  have hsto : (observe parse s (.fire k nowMs)).2.running = false := by
    simp only [observe, ht, hcl]
    exact stillWaiting_stops hph
  rw [(hch.dispatches hev).2.2]
  exact ⟨hen, (hch.step _).quiet hsto⟩

theorem Current.step (hdt : Dated s.observer) {a} (hal : Allowed s a) :
    Current (observe parse s a).2 := by
  cases a with
  | request =>
    have hqu := hch.quiet hal
    exact Quiet.current { hqu with }
  | requestFailed | accepted | cancel | clusterChanged => exact h.dispatched hch nofun
  | begin state nowMs =>
    cases hal
    exact h.begin hch hdt nowMs
  | stop => exact (hch.stop.quiet rfl).current
  | fire k nowMs =>
    cases ht : s.timers k with
    | none =>
      simp only [observe, ht]
      exact h
    | some t =>
      cases hcl : t.call with
      | poll =>
        simp only [observe, ht, hcl]
        exact h.polled hch ht hcl nowMs
      | deadline deadlineMs => exact (h.pastDeadline hch ht hcl nowMs).2.current
  | settle k result nowMs =>
    cases hr : s.reads k with
    | none =>
      simp only [observe, hr]
      exact h
    | some r =>
      simp only [observe, hr]
      split
      · exact h.popRead k s.inFlight
      next hab => exact h.settled hch hr (eq_false_of_ne_true hab) result nowMs

end

end Guard

/-! ## Whole schedules -/

def ObserverAction.Begins : ObserverAction → Prop
  | .begin _ _ => True
  | _ => False

def ObserverAction.hostEvent : ObserverAction → Option ObserverEvent
  | .request => some .request
  | .requestFailed => some .requestFailed
  | .accepted b c prior nowMs => some (.accepted b c prior nowMs)
  | .cancel => some .cancel
  | .clusterChanged => some .clusterChanged
  | _ => none

section Runs

variable {parse : String → Option Int} {s : Observation} {a : ObserverAction}

/-- The observer moves by an event of the poller or of the page, or not at all. -/
theorem Chained.observer_cases (h : Chained s) (a : ObserverAction) :
    (observe parse s a).2.observer = s.observer ∨
      ∃ e, ((observe parse s a).1 = some e ∨ a.hostEvent = some e) ∧
        (observe parse s a).2.observer = reduceObserver parse s.observer e := by
  cases hev : (observe parse s a).1 with
  | some e => exact .inr ⟨e, .inl rfl, (h.dispatches hev).2.2⟩
  | none =>
    cases a with
    | request => exact .inr ⟨.request, .inr rfl, rfl⟩
    | requestFailed => exact .inr ⟨.requestFailed, .inr rfl, rfl⟩
    | accepted b c prior nowMs => exact .inr ⟨.accepted b c prior nowMs, .inr rfl, rfl⟩
    | cancel => exact .inr ⟨.cancel, .inr rfl, rfl⟩
    | clusterChanged => exact .inr ⟨.clusterChanged, .inr rfl, rfl⟩
    | begin state nowMs =>
      refine .inl ?_
      simp only [observe, beginPoller]
      split <;> rfl
    | stop => exact .inl rfl
    | fire k nowMs =>
      refine .inl ?_
      simp only [observe] at hev ⊢
      split at hev
      · rfl
      · split at hev <;> cases hev
    | settle k result nowMs =>
      refine .inl ?_
      simp only [observe] at hev ⊢
      split at hev
      · rfl
      · split at hev
        next hab => rw [if_pos hab]
        · cases hev

structure Kept (s : Observation) : Prop where
  chain : Chained s
  dated : Dated s.observer

theorem Kept.step (h : Kept s) (a : ObserverAction) : Kept (observe parse s a).2 := by
  refine ⟨h.chain.step a, ?_⟩
  rcases h.chain.observer_cases a with hsm | ⟨e, -, hmv⟩
  · rw [hsm]
    exact h.dated
  · rw [hmv]
    exact h.dated.reduce

theorem Kept.init : Kept (refreshObserver parse).init :=
  ⟨⟨nofun, nofun, fun _ => nofun, fun _ => ⟨rfl, rfl, rfl⟩, fun _ _ => ⟨rfl, rfl⟩⟩, nofun⟩

theorem Kept.runFrom (h : Kept s) (acts : List ObserverAction) :
    Kept ((refreshObserver parse).runFrom s acts) :=
  Reactive.runFrom_inv (P := fun t _ => Kept t) h (fun _ _ a ht => ht.step a) acts

variable {acts : List ObserverAction}

theorem Kept.current_runFrom (h : Kept s) (hcur : Current s) (hgr : Guarded parse s acts) :
    Current ((refreshObserver parse).runFrom s acts) := by
  induction acts generalizing s with
  | nil => exact hcur
  | cons a as ih => exact ih (h.step a) (hcur.step h.chain h.dated hgr.1) hgr.2

/-- Without a `begin`, a poller that does not run dispatches nothing and does not start. -/
theorem Chained.stays_stopped (h : Chained s) (hst : s.running = false)
    (ha : ¬a.Begins) : (observe parse s a).1 = none ∧ (observe parse s a).2.running = false := by
  have hqu := h.quiet hst
  refine ⟨?_, ?_⟩
  · cases hev : (observe parse s a).1 with
    | none => rfl
    | some e => exact nomatch (h.dispatches hev).1.symm.trans hst
  · cases a with
    | begin state nowMs => exact absurd trivial ha
    | fire k nowMs =>
      simp only [observe, hqu.timers k]
      exact hst
    | settle k result nowMs =>
      simp only [observe]
      split
      · exact hst
      next r hr =>
        rw [if_pos (hqu.reads k r hr)]
        exact hst
    | stop => rfl
    | _ => exact hst

theorem Chained.silent (h : Chained s) (hst : s.running = false)
    (hac : ∀ a ∈ acts, ¬a.Begins) : ∀ o ∈ (refreshObserver parse).traceFrom s acts, o = none := by
  induction acts generalizing s with
  | nil => nofun
  | cons a as ih =>
    have hsty : (observe parse s a).1 = none ∧ (observe parse s a).2.running = false :=
      h.stays_stopped hst (hac a (mem_cons_self ..))
    intro o ho
    rcases mem_cons.mp ho with rfl | ho
    · exact hsty.1
    · exact ih (h.step a) hsty.2 (fun b hb => hac b (mem_cons_of_mem _ hb)) o ho

/-! ## The observer that a page may rely on -/

def Trailing (s : Observation) : Prop := s.running = false ∨ s.observer.phase ≠ .awaitingObservation

/-- Without a `begin`, an observation that has ended is not taken up again. -/
theorem Trailing.step (h : Trailing s) (hch : Chained s) (hcur : Current s)
    (ha : ¬a.Begins) (hal : Allowed s a) : Trailing (observe parse s a).2 := by
  by_cases hrun : s.running = true
  · have hph : s.observer.phase ≠ .awaitingObservation := by
      rcases h with hst | hph
      · exact nomatch hrun.symm.trans hst
      · exact hph
    have hen : isTerminal s.observer.phase = true := by
      rcases hcur.opened hrun with hwt | hen
      · exact absurd hwt hph
      · exact hen
    have hsm : (observe parse s a).2.observer = s.observer := by
      rcases hch.observer_cases a with hsm | ⟨e, he, hmv⟩
      · exact hsm
      · rw [hmv]
        refine reduceObserver_of_terminal hen ?_
        rintro rfl
        rcases he with he | he
        · exact (hch.dispatches he).2.1
        · cases a with
          | request => exact nomatch hrun.symm.trans hal
          | _ => cases he
    exact .inr (by rwa [hsm])
  · exact .inl (hch.stays_stopped (eq_false_of_ne_true hrun) ha).2

theorem Trailing.countP_le (h : Trailing s) (hkp : Kept s) (hcur : Current s)
    (hac : ∀ a ∈ acts, ¬a.Begins) (hgr : Guarded parse s acts) :
    ((refreshObserver parse).traceFrom s acts).countP Option.isSome ≤ 1 := by
  induction acts generalizing s with
  | nil => exact Nat.zero_le _
  | cons a as ih =>
    have ha := hac a (mem_cons_self ..)
    have has : ∀ b ∈ as, ¬b.Begins := fun b hb => hac b (mem_cons_of_mem _ hb)
    have hch : Chained (observe parse s a).2 := hkp.chain.step a
    simp only [Reactive.traceFrom, countP_cons, react_eq]
    cases hev : (observe parse s a).1 with
    | none =>
      have htl := ih (h.step hkp.chain hcur ha hgr.1) (hkp.step a)
        (hcur.step hkp.chain hkp.dated hgr.1) has hgr.2
      simpa using htl
    | some e =>
      -- an event is dispatched only while the poller runs, so the observer no longer waits
      have hph : s.observer.phase ≠ .awaitingObservation := by
        rcases h with hst | hph
        · cases (hkp.chain.dispatches hev).1.symm.trans hst
        · exact hph
      have hsl : ∀ o ∈ (refreshObserver parse).traceFrom (observe parse s a).2 as, o = none :=
        hch.silent (hkp.chain.ignored hev hph).2 has
      have hno : ((refreshObserver parse).traceFrom (observe parse s a).2 as).countP
          Option.isSome = 0 := by
        rw [countP_eq_zero]
        intro o ho
        rw [hsl o ho]
        exact Bool.false_ne_true
      rw [hno]
      exact le_rfl

structure Observes (parse : String → Option Int) (s : Observation) : Prop where
  success : ∀ a, s.observer.phase ≠ .observedSuccess →
    (observe parse s a).2.observer.phase = .observedSuccess →
    ∃ k r sample nowMs b c deadlineMs, a = .settle k (.sample sample) nowMs ∧
      s.reads k = some r ∧ r.aborted = false ∧ s.observer.baseline = some b ∧
      s.observer.correlation = some c ∧ s.observer.deadlineMs = some deadlineMs ∧
      nowMs < deadlineMs ∧ sample.uid = b.uid ∧ Moved parse b sample c
  terminal : ∀ a, isTerminal s.observer.phase = true →
    (observe parse s a).2.observer ≠ s.observer → a = .request
  single : ∀ k k' r r', s.reads k = some r → s.reads k' = some r' → r.aborted = false →
    r'.aborted = false → k = k'
  stopped : ∀ acts : List ObserverAction, (∀ a ∈ acts, ¬a.Begins) →
    ∀ o ∈ (refreshObserver parse).traceFrom (observe parse s .stop).2 acts, o = none
  ignored : ∀ a, s.observer.phase ≠ .awaitingObservation → (observe parse s a).1 ≠ none →
    (observe parse s a).2.observer = s.observer ∧ (observe parse s a).2.running = false

structure Attributes (parse : String → Option Int) (s : Observation) : Prop where
  current : ∀ k r, s.reads k = some r → r.aborted = false → r.request = s.requests
  trailing : ∀ acts : List ObserverAction, s.observer.phase ≠ .awaitingObservation →
    (∀ a ∈ acts, ¬a.Begins) → Guarded parse s acts →
    ((refreshObserver parse).traceFrom s acts).countP Option.isSome ≤ 1
  deadline : ∀ k t deadlineMs nowMs, s.timers k = some t → t.call = .deadline deadlineMs →
    isTerminal (observe parse s (.fire k nowMs)).2.observer.phase = true ∧
      (∀ j, (observe parse s (.fire k nowMs)).2.timers j = none) ∧
      AllAborted (observe parse s (.fire k nowMs)).2
  armed : s.running = true → s.observer.phase = .awaitingObservation →
    ∃ k t deadlineMs, s.timers k = some t ∧ t.call = .deadline deadlineMs ∧
      s.observer.deadlineMs = some deadlineMs

theorem Kept.success (h : Kept s) (hbe : s.observer.phase ≠ .observedSuccess)
    (haf : (observe parse s a).2.observer.phase = .observedSuccess) :
    ∃ k r sample nowMs, a = .settle k (.sample sample) nowMs ∧ s.reads k = some r ∧
      r.aborted = false ∧ s.observer.phase = .awaitingObservation ∧
      Shows parse s.observer sample nowMs := by
  rcases h.chain.observer_cases a with hsm | ⟨e, he, hmv⟩
  · rw [hsm] at haf
    exact absurd haf hbe
  · rw [hmv] at haf
    obtain ⟨hph, sample, nowMs, rfl, hsh⟩ := reduceObserver_success hbe haf
    rcases he with he | he
    · obtain ⟨⟨_, _, _, _, -, -, heq⟩ | ⟨k, r, result, now, rfl, hr, hli, heq⟩, -⟩ :=
        observe_event he
      · cases heq
      · obtain ⟨rfl, rfl⟩ := ReadResult.eq_sample heq.symm
        exact ⟨k, r, sample, now, rfl, hr, hli, hph, hsh⟩
    · cases a <;> cases he

theorem Kept.observes (h : Kept s) : Observes parse s where
  success := by
    intro a hbe haf
    obtain ⟨k, r, sample, nowMs, rfl, hr, hab, hph, hsh⟩ := h.success hbe haf
    obtain ⟨b, c, hb, hc, huid, hnew⟩ := hsh.baseline
    obtain ⟨deadlineMs, hdd⟩ := h.dated hph
    have hti : nowMs < deadlineMs := by
      have hexp := hsh.inTime
      rw [expired, hdd] at hexp
      exact Int.not_le.mp (of_decide_eq_false hexp)
    exact ⟨k, r, sample, nowMs, b, c, deadlineMs, rfl, hr, hab, hb, hc, hdd, hti, huid, hnew⟩
  terminal := by
    intro a hen hchg
    rcases h.chain.observer_cases a with hsm | ⟨e, he, hmv⟩
    · exact absurd hsm hchg
    · have hreq : e = .request := by
        by_contra hne
        exact hchg (hmv.trans (reduceObserver_of_terminal hen hne))
      subst hreq
      rcases he with he | he
      · exact (h.chain.dispatches he).2.1.elim
      · cases a with
        | request => rfl
        | _ => cases he
  single := by
    intro k k' r r' hr hr' hab hab'
    have hk := h.chain.reads k r hr hab
    rw [h.chain.reads k' r' hr' hab'] at hk
    exact (Option.some.inj hk).symm
  stopped := fun _ hac => h.chain.stop.silent rfl hac
  ignored := by
    intro a hph hev
    obtain ⟨e, he⟩ := Option.ne_none_iff_exists'.mp hev
    exact h.chain.ignored he hph

theorem Kept.attributes (h : Kept s) (hcur : Current s) : Attributes parse s where
  current := hcur.request
  trailing := fun _ hph hac hgr => Trailing.countP_le (.inr hph) h hcur hac hgr
  deadline := by
    intro k t deadlineMs nowMs ht hcl
    obtain ⟨hen, hqu⟩ := hcur.pastDeadline h.chain ht hcl nowMs
    exact ⟨hen, hqu.timers, hqu.reads⟩
  armed := by
    intro hrun hph
    obtain ⟨k, t, deadlineMs, ht, hcl⟩ := hcur.armed hrun hph
    exact ⟨k, t, deadlineMs, ht, hcl, hcur.deadline k t deadlineMs ht hcl⟩

end Runs

/-- The observer succeeds only on new evidence in time, ends for good, and is polled by one chain.
Where the page guards its requests, the reads are the current request's and the deadline ends the
observation. -/
theorem refresh_observed (parse : String → Option Int) (actions : List ObserverAction) :
    Observes parse ((refreshObserver parse).run actions) ∧
      (Guarded parse (refreshObserver parse).init actions →
        Attributes parse ((refreshObserver parse).run actions)) := by
  have hkp : Kept ((refreshObserver parse).run actions) := Kept.init.runFrom actions
  refine ⟨hkp.observes, fun hgr => hkp.attributes ?_⟩
  have hqu : Quiet (refreshObserver parse).init := ⟨rfl, fun _ => rfl, nofun⟩
  exact Kept.init.current_runFrom hqu.current hgr

/-! ## A guarded schedule, and what an unguarded one does -/

def sampleBaseline : Baseline := ⟨"a1", none, some "1-0"⟩

def sampleRead : Sample := ⟨"a1", .synced, none, some "2-0", none, none⟩

def sampleAwaiting (nowMs : Int) : ObserverState :=
  { phase := .awaitingObservation
    baseline := some sampleBaseline
    correlation := some .weak
    deadlineMs := some (nowMs + observeTimeoutMs) }

def samplePolling : List ObserverAction :=
  [.request, .accepted sampleBaseline .weak none 0, .begin (sampleAwaiting 0) 0, .fire 1 1000]

theorem refresh_observed_first_poll :
    Guarded (fun _ => none) (refreshObserver fun _ => none).init samplePolling ∧
      Attributes (fun _ => none) ((refreshObserver fun _ => none).run samplePolling) ∧
      ((refreshObserver fun _ => none).run
        (samplePolling ++ [.settle 2 (.sample sampleRead) 1200])).observer.phase =
          .observedSuccess := by
  have hgr : Guarded (fun _ => none) (refreshObserver fun _ => none).init samplePolling :=
    ⟨rfl, trivial, rfl, trivial, trivial⟩
  exact ⟨hgr, (refresh_observed _ _).2 hgr, by decide⟩

/-- A second request that the page dispatches, and has accepted, while the first is polled. -/
def sampleOverlap : List ObserverAction :=
  samplePolling ++ [.cancel, .request, .accepted sampleBaseline .weak none 2000]

/-- A timer that fires after a cancel dispatches a tick; the read of the first request makes the
second succeed, its deadline leaves the second waiting. -/
theorem refresh_unguarded :
    (refreshObserver fun _ => none).event
        [.request, .accepted sampleBaseline .weak none 0, .begin (sampleAwaiting 0) 0, .cancel]
        (.fire 1 1000) = some (.tick 1000) ∧
      ((refreshObserver fun _ => none).run sampleOverlap).reads 2 = some ⟨false, 1⟩ ∧
      ((refreshObserver fun _ => none).run sampleOverlap).requests = 2 ∧
      ((refreshObserver fun _ => none).run
        (sampleOverlap ++ [.settle 2 (.sample sampleRead) 2100])).observer.phase =
          .observedSuccess ∧
      ((refreshObserver fun _ => none).run (sampleOverlap ++ [.fire 0 90000])).observer =
        sampleAwaiting 2000 := by
  refine ⟨?_, ?_, ?_, ?_, ?_⟩ <;> decide

end KubeCenter.ExternalSecrets.RefreshObserver
