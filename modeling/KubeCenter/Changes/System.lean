import KubeCenter.Lib.Calls
import KubeCenter.Lib.Machine
import KubeCenter.Changes.Verifier

/-! # The receipt system

Any number of `TrackedApply` calls and verification polls over one receipt table. Every database
statement, engine step and crash is one action. A write may be lost before its commit or answered
with an error after it. The retention sweep is not an action. -/
namespace KubeCenter.Changes
open Lib Go Store

variable {σ : Type}

/-- What `TrackedApply` is built from: the digest of a body, and the engine. -/
structure Deps where
  computeDigest : List UInt8 → String
  engine : Engine

/-- Where a call stands: the next thing it does, with what it holds. -/
inductive CallPc (σ : Type) where
  | insert
  | get
  | mark
  | close
  | invoke
  | engine (s : σ) (rec : Recorder)
  | append (obs : ApplyObservation) (k : Option RecordingError → σ) (rec : Recorder)
  | finalize (out : TrackedApplyOutcome) (rec : Recorder)
  | returned (answer : Except ApplyError TrackedApplyResult)
  | crashed

structure Call (σ : Type) where
  req : TrackedApplyRequest
  pc : CallPc σ

def Call.goto (call : Call σ) (pc : CallPc σ) : Call σ := { call with pc := pc }

inductive PollPc where
  | evaluate
  | write (res : VerificationResult)
  | readBack
  | returned (answer : Except ApplyError VerificationResult)
  | crashed

structure Poll where
  row : ChangeReceipt
  persist : Bool
  pc : PollPc

def Poll.goto (poll : Poll) (pc : PollPc) : Poll := { poll with pc := pc }

/-- The history a run leaves behind; nothing in the system reads it. -/
inductive Event where
  | inserted (c : Nat) (id : Uuid)
  | marked (c : Nat) (id : Uuid) (row : ChangeReceipt)
  | engineInvoked (c : Nat) (id : Uuid)
  | cluster (c : Nat) (id : Uuid) (e : ClusterEvent)
  /-- A result was returned that counts `docs` as not attempted. -/
  | responded (c : Nat) (id : Uuid) (docs : List Nat)

/-- Calls and polls are keyed by an arbitrary number; `log` is newest first. -/
structure Sys (σ : Type) where
  receipts : Receipts
  calls : Nat → Option (Call σ)
  polls : Nat → Option Poll
  log : List Event

inductive Act (χ : Type) where
  | call (c : Nat) (available : Bool) (req : TrackedApplyRequest)
  | insert (c : Nat) (f : Fault) (now : Time)
  | get (c : Nat) (fails : Bool)
  | mark (c : Nat) (f : Fault) (now : Time)
  | close (c : Nat) (f : Fault) (now : Time)
  | invoke (c : Nat)
  | engine (c : Nat) (choice : χ)
  | append (c : Nat) (f : Fault) (now : Time)
  | finalize (c : Nat) (f : Fault) (now : Time)
  | crash (c : Nat)
  | reconcile (olderThan : Duration) (f : Fault) (now : Time)
  | poll (v : Nat) (id : Uuid) (persist : Bool)
  | evaluate (v : Nat) (live : ReceiptObject → LiveRead) (now : Time)
  | setVerification (v : Nat) (f : Fault) (now : Time)
  | readBack (v : Nat) (fails : Bool)
  | crashPoll (v : Nat)

/-! ## What a call does with an answer -/

def CallPc.start (available : Bool) (req : TrackedApplyRequest) : CallPc σ :=
  if !available then .returned (.error (.storeUnavailable .insert))
  else match validateRequest req with
  | .error e => .returned (.error e)
  | .ok () => .insert

def CallPc.afterInsert : Except ReceiptError Unit → CallPc σ
  | .ok () => .mark
  | .error .receiptExists => .get
  | .error (.receiptInvalid text) =>
    .returned (.error (errInvalidRequest ("invalid change receipt: " ++ text)))
  | .error _ => .returned (.error (.storeUnavailable .insert))

def CallPc.afterMark : Except ReceiptError Unit → CallPc σ
  | .ok () => .invoke
  | .error .receiptAlreadyFinal =>
    .returned (.error (.operationConflict .operationIDReused
      "this operation id was already finalized; generate a new operation id" none))
  | .error _ => .close

/-- `observe` up to its write: a refusal is sticky and answered at once. -/
def CallPc.observe (obs : ApplyObservation) (k : Option RecordingError → σ)
    (rec : Recorder) : CallPc σ :=
  match rec.refusal obs with
  | some e => .engine (k (some e)) { rec with err := some e }
  | none => .append obs k rec

def CallPc.afterAppend (obs : ApplyObservation) (k : Option RecordingError → σ)
    (rec : Recorder) (answer : Except ReceiptError Unit) : CallPc σ :=
  .engine (k (rec.recordAnswer obs answer).err) (rec.recordAnswer obs answer)

/-- The next point of a call after its engine spoke, and what reached the cluster. -/
@[simp] def CallPc.afterEngine (rec : Recorder) : EngineCall σ → CallPc σ × List ClusterEvent
  | .go events s => (.engine s rec, events)
  | .observe obs k => (.observe obs k rec, [])
  | .ret out => (.finalize out rec, [])

def PollPc.afterWrite (res : VerificationResult) : Except ReceiptError Unit → PollPc
  | .ok () => .returned (.ok { res with persisted := res.state.isFinal })
  | .error .receiptAlreadyFinal => .readBack
  | .error _ => .returned (.error (.storeUnavailable .verification))

namespace Sys

variable {σ : Type}

def setCall (s : Sys σ) (c : Nat) (call : Call σ) : Sys σ :=
  { s with calls := Function.update s.calls c (some call) }

def setPoll (s : Sys σ) (v : Nat) (poll : Poll) : Sys σ :=
  { s with polls := Function.update s.polls v (some poll) }

def insertedBy (s : Sys σ) (c : Nat) (id : Uuid) (rs : Receipts) : List Event :=
  if (s.receipts id).isNone && (rs id).isSome then [.inserted c id] else []

def markedBy (s : Sys σ) (c : Nat) (id : Uuid) (answer : Except ReceiptError Unit) : List Event :=
  match answer, s.receipts id with
  | .ok (), some row => [.marked c id row]
  | _, _ => []

def replayedBy (c : Nat) (req : TrackedApplyRequest)
    (existing : Except ReceiptError (Option ChangeReceipt)) (digest : String) : List Event :=
  match existing, resolveExisting existing req digest with
  | .ok (some r), .ok _ => [.responded c req.operationID (replayUnattempted r req)]
  | _, _ => []

end Sys

def Poll.start (row : ChangeReceipt) (persist : Bool) : Poll :=
  ⟨row, persist, match verifyFromRow row with
    | some res => .returned (.ok res)
    | none => .evaluate⟩

/-! ## The machine -/

section Next

variable (d : Deps)

def nextCall (s : Sys d.engine.State) (c : Nat) (call : Call d.engine.State) :
    Act d.engine.Choice → Option (Sys d.engine.State)
  | .insert _ f now =>
    match call.pc with
    | .insert =>
      let (rs, answer) := s.receipts.insert
        (newReceipt call.req (d.computeDigest call.req.rawBody)) f now
      some { s.setCall c (call.goto (.afterInsert answer)) with
        receipts := rs
        log := s.insertedBy c call.req.operationID rs ++ s.log }
    | _ => none
  | .get _ fails =>
    match call.pc with
    | .get =>
      let existing := if fails then .error .database else .ok (s.receipts call.req.operationID)
      some { s.setCall c (call.goto (.returned
          (resolveExisting existing call.req (d.computeDigest call.req.rawBody)))) with
        log := Sys.replayedBy c call.req existing (d.computeDigest call.req.rawBody) ++ s.log }
    | _ => none
  | .mark _ f now =>
    match call.pc with
    | .mark =>
      let (rs, answer) := s.receipts.markMutationStarted call.req.operationID f now
      some { s.setCall c (call.goto (.afterMark answer)) with
        receipts := rs
        log := s.markedBy c call.req.operationID answer ++ s.log }
    | _ => none
  | .close _ f now =>
    match call.pc with
    | .close =>
      let (rs, _) := s.receipts.finalize call.req.operationID .failed f now
      some { s.setCall c (call.goto (.returned (.error (.storeUnavailable .mark)))) with
        receipts := rs }
    | _ => none
  | .invoke _ =>
    match call.pc with
    | .invoke =>
      some { s.setCall c (call.goto
          (.engine (d.engine.init call.req) (.start call.req.docs.length))) with
        log := .engineInvoked c call.req.operationID :: s.log }
    | _ => none
  | .engine _ choice =>
    match call.pc with
    | .engine e rec =>
      (d.engine.next e choice).map fun ec =>
        let (pc, events) := CallPc.afterEngine rec ec
        { s.setCall c (call.goto pc) with
          log := (events.map (Event.cluster c call.req.operationID)).reverse ++ s.log }
    | _ => none
  | .append _ f now =>
    match call.pc with
    | .append obs k rec =>
      let (rs, answer) := s.receipts.appendObject call.req.operationID
        (receiptObjectFor obs (bundleContainsSecret call.req.docs) now) f
      some { s.setCall c (call.goto (.afterAppend obs k rec answer)) with receipts := rs }
    | _ => none
  | .finalize _ f now =>
    match call.pc with
    | .finalize out rec =>
      let (rs, answer) := s.receipts.finalize call.req.operationID
        (finalState call.req.docs rec out) f now
      some { s.setCall c (call.goto (.returned (.ok
          (liveResult call.req (d.computeDigest call.req.rawBody) rec out answer)))) with
        receipts := rs
        log := .responded c call.req.operationID (unattempted call.req.docs out.attempted) ::
          s.log }
    | _ => none
  | .crash _ => some (s.setCall c (call.goto (.crashed)))
  | _ => none

def nextPoll (s : Sys d.engine.State) (v : Nat) (poll : Poll) :
    Act d.engine.Choice → Option (Sys d.engine.State)
  | .evaluate _ live now =>
    match poll.pc, poll.row.completedAt with
    | .evaluate, some completedAt =>
      let res := evaluateReceipt poll.row completedAt live now
      some (s.setPoll v (poll.goto (if poll.persist then .write res else .returned (.ok res))))
    | _, _ => none
  | .setVerification _ f now =>
    match poll.pc with
    | .write res =>
      let (rs, answer) := s.receipts.setVerification poll.row.id res.state res.checks f now
      some { s.setPoll v (poll.goto (.afterWrite res answer)) with receipts := rs }
    | _ => none
  | .readBack _ fails =>
    match poll.pc with
    | .readBack =>
      let answer := match (if fails then none else s.receipts poll.row.id) with
        | some current => .ok (storedVerdict current)
        | none => .error (.storeUnavailable .verification)
      some (s.setPoll v (poll.goto (.returned answer)))
    | _ => none
  | .crashPoll _ => some (s.setPoll v (poll.goto (.crashed)))
  | _ => none

def next (s : Sys d.engine.State) (a : Act d.engine.Choice) : Option (Sys d.engine.State) :=
  match a with
  | .call c available req =>
    match s.calls c with
    | none => some (s.setCall c ⟨req, .start available req⟩)
    | some _ => none
  | .insert c .. | .get c .. | .mark c .. | .close c .. | .invoke c | .engine c ..
  | .append c .. | .finalize c .. | .crash c => (s.calls c).bind fun call => nextCall d s c call a
  | .reconcile olderThan f now =>
    some { s with receipts := (s.receipts.reconcileOrphans olderThan f now).1 }
  | .poll v id persist =>
    match s.polls v, s.receipts id with
    | none, some row => some (s.setPoll v (.start row persist))
    | _, _ => none
  | .evaluate v .. | .setVerification v .. | .readBack v .. | .crashPoll v =>
    (s.polls v).bind fun poll => nextPoll d s v poll a

def system : Machine (Sys d.engine.State) (Act d.engine.Choice) where
  init := ⟨fun _ => none, fun _ => none, fun _ => none, []⟩
  next := next d

/-! ## What a step can do -/

/-- Where the call stood and stands, the table it leaves, and what it adds to the history. -/
inductive CallMove (s : Sys d.engine.State) (c : Nat) (req : TrackedApplyRequest) :
    CallPc d.engine.State → CallPc d.engine.State → Receipts → List Event → Prop
  | insert {f now rs answer}
      (write : s.receipts.insert (newReceipt req (d.computeDigest req.rawBody)) f now =
        (rs, answer)) :
      CallMove s c req .insert (.afterInsert answer) rs (s.insertedBy c req.operationID rs)
  | get (existing) (read : ∀ r, existing = .ok (some r) → s.receipts req.operationID = some r) :
      CallMove s c req .get
        (.returned (resolveExisting existing req (d.computeDigest req.rawBody))) s.receipts
        (Sys.replayedBy c req existing (d.computeDigest req.rawBody))
  | mark {f now rs answer}
      (write : s.receipts.markMutationStarted req.operationID f now = (rs, answer)) :
      CallMove s c req .mark (.afterMark answer) rs (s.markedBy c req.operationID answer)
  | close {f now rs answer}
      (write : s.receipts.finalize req.operationID .failed f now = (rs, answer)) :
      CallMove s c req .close (.returned (.error (.storeUnavailable .mark))) rs []
  | invoke :
      CallMove s c req .invoke (.engine (d.engine.init req) (.start req.docs.length)) s.receipts
        [.engineInvoked c req.operationID]
  | engine {e choice ec rec} (speaks : d.engine.next e choice = some ec) :
      CallMove s c req (.engine e rec) (CallPc.afterEngine rec ec).1 s.receipts
        (((CallPc.afterEngine rec ec).2.map (Event.cluster c req.operationID)).reverse)
  | append {obs k rec f now rs answer} (write : s.receipts.appendObject req.operationID
        (receiptObjectFor obs (bundleContainsSecret req.docs) now) f = (rs, answer)) :
      CallMove s c req (.append obs k rec) (.afterAppend obs k rec answer) rs []
  | finalize {out rec f now rs answer}
      (write : s.receipts.finalize req.operationID (finalState req.docs rec out) f now =
        (rs, answer)) :
      CallMove s c req (.finalize out rec)
        (.returned (.ok (liveResult req (d.computeDigest req.rawBody) rec out answer))) rs
        [.responded c req.operationID (unattempted req.docs out.attempted)]
  | crash (pc) : CallMove s c req pc .crashed s.receipts []

/-- Nothing, its own new row, or a change of that row while it is unfinished. -/
inductive CallWrite (rs : Receipts) (req : TrackedApplyRequest) (digest : String) :
    Receipts → Prop
  | nothing : CallWrite rs req digest rs
  | insert (now : Time) (free : rs req.operationID = none) : CallWrite rs req digest
        (Function.update rs req.operationID (some ((newReceipt req digest).row now)))
  | update {r} (row : rs req.operationID = some r) (unfinished : r.completedAt = none)
      (state : ReceiptState) (objects : List ReceiptObject)
      (mutationStartedAt completedAt : Option Time) :
      CallWrite rs req digest (Function.update rs req.operationID
        (some { r with state, objects, mutationStartedAt, completedAt }))

inductive PollMove (s : Sys d.engine.State) (row : ChangeReceipt) (persist : Bool) :
    PollPc → PollPc → Receipts → Prop
  | evaluate {completedAt} (live : ReceiptObject → LiveRead) (now : Time)
      (completed : row.completedAt = some completedAt) :
      PollMove s row persist .evaluate
        (if persist then .write (evaluateReceipt row completedAt live now)
          else .returned (.ok (evaluateReceipt row completedAt live now))) s.receipts
  | write {res f now rs answer}
      (write : s.receipts.setVerification row.id res.state res.checks f now = (rs, answer)) :
      PollMove s row persist (.write res) (.afterWrite res answer) rs
  | readBack {current} (read : s.receipts row.id = some current) :
      PollMove s row persist .readBack (.returned (.ok (storedVerdict current))) s.receipts
  | readBackFails :
      PollMove s row persist .readBack (.returned (.error (.storeUnavailable .verification)))
        s.receipts
  | crash (pc) : PollMove s row persist pc .crashed s.receipts

inductive Step (s : Sys d.engine.State) : Sys d.engine.State → Prop
  | start {c} (available : Bool) (req : TrackedApplyRequest) (fresh : s.calls c = none) :
      Step s (s.setCall c ⟨req, .start available req⟩)
  | move {c req pc pc' rs events} (stands : s.calls c = some ⟨req, pc⟩)
      (moves : CallMove d s c req pc pc' rs events) :
      Step s ⟨rs, Function.update s.calls c (some ⟨req, pc'⟩), s.polls, events ++ s.log⟩
  | reconcile {olderThan f now rs answer}
      (write : s.receipts.reconcileOrphans olderThan f now = (rs, answer)) :
      Step s { s with receipts := rs }
  | poll {v id row} (persist : Bool) (fresh : s.polls v = none) (read : s.receipts id = some row) :
      Step s (s.setPoll v (.start row persist))
  | pollMove {v row persist pc pc' rs} (stands : s.polls v = some ⟨row, persist, pc⟩)
      (moves : PollMove d s row persist pc pc' rs) :
      Step s ⟨rs, s.calls, Function.update s.polls v (some ⟨row, persist, pc'⟩), s.log⟩

variable {d}

theorem CallMove.writes {s} {c : Nat} {req pc pc'} {rs : Receipts} {events}
    (h : CallMove d s c req pc pc' rs events) :
    CallWrite s.receipts req (d.computeDigest req.rawBody) rs := by
  cases h with
  | insert write =>
    rcases Receipts.insert_cases write with ⟨rfl, _⟩ | ⟨hno, rfl⟩
    · exact .nothing
    · exact .insert _ hno
  | mark write =>
    rcases Receipts.markMutationStarted_cases write with ⟨rfl, _⟩ | ⟨r, hr, _, hop, rfl⟩
    · exact .nothing
    · exact .update hr hop r.state r.objects _ r.completedAt
  | append write =>
    rcases Receipts.appendObject_cases write with ⟨rfl, _⟩ | ⟨r, hr, hop, rfl⟩
    · exact .nothing
    · exact .update hr hop r.state _ r.mutationStartedAt r.completedAt
  | close write | finalize write =>
    rcases Receipts.finalize_cases write with ⟨rfl, _⟩ | ⟨r, hr, hop, rfl⟩
    · exact .nothing
    · exact .update hr hop _ r.objects r.mutationStartedAt _
  | get | invoke | engine | crash => exact .nothing

theorem step_of_nextCall {s t : Sys d.engine.State} {c : Nat} {call a} (hc : s.calls c = some call)
    (h : nextCall d s c call a = some t) : Step d s t := by
  obtain ⟨req, pc⟩ := call
  unfold nextCall at h
  split at h
  case h_9 => cases h; exact .move hc (.crash pc)
  case h_10 => cases h
  all_goals
    simp only at h
    split at h
    rotate_left
    · cases h
  · cases h; exact .move hc (.insert rfl)
  · cases h
    refine .move hc (.get _ fun r hr => ?_)
    split at hr
    · cases hr
    · exact Except.ok.inj hr
  · cases h; exact .move hc (.mark rfl)
  · cases h; exact .move hc (.close rfl)
  · cases h; exact .move hc .invoke
  · obtain ⟨ec, hec, ht⟩ := Option.map_eq_some_iff.mp h
    cases ht
    exact .move hc (.engine hec)
  · cases h; exact .move hc (.append rfl)
  · cases h; exact .move hc (.finalize rfl)

theorem step_of_nextPoll {s t : Sys d.engine.State} {v : Nat} {poll : Poll} {a}
    (hv : s.polls v = some poll) (h : nextPoll d s v poll a = some t) : Step d s t := by
  obtain ⟨row, persist, pc⟩ := poll
  unfold nextPoll at h
  split at h
  · simp only at h
    split at h
    next hcm =>
      cases h
      exact .pollMove hv (.evaluate _ _ hcm)
    · cases h
  · simp only at h
    split at h
    · cases h
      exact .pollMove hv (.write rfl)
    · cases h
  · simp only at h
    split at h
    · cases h
      split
      next hrd =>
        split at hrd
        · cases hrd
        · exact .pollMove hv (.readBack hrd)
      · exact .pollMove hv .readBackFails
    · cases h
  · cases h; exact .pollMove hv (.crash pc)
  · cases h

theorem step_of_next {s t a} (h : (system d).next s a = some t) : Step d s t := by
  change next d s a = some t at h
  unfold next at h
  split at h
  case h_1 =>
    split at h
    · cases h; exact .start _ _ (by assumption)
    · cases h
  case h_11 => cases h; exact .reconcile rfl
  case h_12 =>
    split at h
    · cases h; exact .poll _ (by assumption) (by assumption)
    · cases h
  all_goals obtain ⟨x, hx, h⟩ := Option.bind_eq_some_iff.mp h
  all_goals first
    | exact step_of_nextCall hx h
    | exact step_of_nextPoll hx h

/-! ## Who carries which request -/

variable {a : Act d.engine.Choice} {s t : Sys d.engine.State}

theorem calls_of_nextCall {c : Nat} {call} (h : nextCall d s c call a = some t) :
    ∃ pc', t.calls = Function.update s.calls c (some ⟨call.req, pc'⟩) := by
  unfold nextCall at h
  split at h
  case h_9 => cases h; exact ⟨_, rfl⟩
  case h_10 => cases h
  all_goals
    split at h
    rotate_left
    · cases h
  -- only the engine's own move can be refused at the right place
  all_goals first
    | (cases h; exact ⟨_, rfl⟩)
    | (obtain ⟨ec, _, ht⟩ := Option.map_eq_some_iff.mp h
       cases ht
       exact ⟨_, rfl⟩)

theorem calls_of_nextPoll {v : Nat} {poll : Poll} (h : nextPoll d s v poll a = some t) :
    t.calls = s.calls := by
  unfold nextPoll at h
  split at h
  case h_4 => cases h; rfl
  case h_5 => cases h
  all_goals
    split at h
    · cases h; rfl
    · cases h

theorem calls_of_next (h : (system d).next s a = some t) {c : Nat} {call}
    (hc : t.calls c = some call) : (∃ call₀, s.calls c = some call₀ ∧ call₀.req = call.req) ∨
      ∃ available, a = .call c available call.req ∧ s.calls c = none := by
  change next d s a = some t at h
  unfold next at h
  split at h
  case h_1 c₁ available req =>
    split at h
    next hno =>
      cases h
      rcases update_some_cases hc with ⟨rfl, he⟩ | ⟨_, hc⟩
      · rw [he]; exact .inr ⟨available, rfl, hno⟩
      · exact .inl ⟨call, hc, rfl⟩
    · cases h
  case h_11 => cases h; exact .inl ⟨call, hc, rfl⟩
  case h_12 =>
    split at h
    · cases h; exact .inl ⟨call, hc, rfl⟩
    · cases h
  all_goals obtain ⟨x, hx, h⟩ := Option.bind_eq_some_iff.mp h
  case h_13 | h_14 | h_15 | h_16 =>
    rw [calls_of_nextPoll h] at hc
    exact .inl ⟨call, hc, rfl⟩
  all_goals
    obtain ⟨pc', ht⟩ := calls_of_nextCall h
    rw [ht] at hc
    rcases update_some_cases hc with ⟨rfl, he⟩ | ⟨_, hc⟩
    · rw [he]; exact .inl ⟨x, hx, rfl⟩
    · exact .inl ⟨call, hc, rfl⟩

end Next

end KubeCenter.Changes
