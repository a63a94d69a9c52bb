import KubeCenter.Client.YamlApply

/-! # Retrying a tracked apply

One editor that presses Apply for one unchanged request, the network, the middleware and the
receipt system. A send may be lost, delayed past its own answer, refused before `TrackedApply`, or
answered while the call still runs; the page may be reloaded. -/
namespace KubeCenter.Client
open Lib Go Store Changes

/-- What the editor sends: one request, under ids it mints. -/
structure Editor where
  deps : Deps
  sha256Hex : String → String
  requestKey : String
  request : TrackedApplyRequest

def Editor.under (ed : Editor) (id : Uuid) : TrackedApplyRequest :=
  { ed.request with operationID := id }

structure Send where
  c : Nat
  id : Uuid
  reused : Bool

/-- `network` holds the sends that have neither arrived nor been refused. History: `pending`, the
sends of unreported outcome; `openedAt`, when their id was first sent; `mounted`, no reload since
the last press; `stored`, the storage took the attempt. -/
structure World (σ : Type) where
  server : Sys σ
  mem : Option PendingAttempt
  storage : Storage
  waiting : Option Send
  network : List (Nat × Uuid)
  used : List Nat
  pending : List (Nat × Uuid)
  openedAt : Int
  mounted : Bool
  stored : Bool

inductive Move (χ : Type) where
  /-- Apply is pressed; `minted` is what `uuidv4()` would return. -/
  | press (c : Nat) (minted : Uuid) (now : Int) (reads stores : Bool)
  | arrive (c : Nat)
  /-- A send is answered by something in front of `TrackedApply`. -/
  | refuse (c : Nat) (err : Failure) (clears : Bool)
  /-- A send is answered 401, the session refreshed, and the request sent again. -/
  | refresh (c : Nat)
  /-- No response, or a proxy's own 5xx, whatever became of the send. -/
  | lose (proxy : Option Nat)
  | deliver (clears : Bool)
  | reload
  | server (a : Act χ)

section

variable (ed : Editor)

/-- The attempt a press continues, if any, and the storage after looking. -/
def lookup (mem : Option PendingAttempt) (st : Storage) (reads : Bool) (now : Int) :
    Option PendingAttempt × Storage :=
  match mem with
  | some a =>
    if a.requestKey = ed.requestKey ∧ now - a.at_ < pendingAttemptTtlMs then (some a, st)
    else readStoredAttempt ed.sha256Hex st reads ed.requestKey now
  | none => readStoredAttempt ed.sha256Hex st reads ed.requestKey now

variable {σ : Type}

/-- `releaseAttempt`. -/
def World.release (w : World σ) (clears : Bool) : World σ :=
  { w with mem := none, storage := clearStoredAttempt ed.sha256Hex w.storage clears ed.requestKey }

def World.fail (w : World σ) (send : Send) (err : Failure) (clears : Bool) : World σ :=
  { (if releases err send.reused then w.release ed clears else w) with waiting := none }

def unanswered : Option Nat → Failure
  | none => .noResponse
  | some n => .api (500 + n) "" none none

def World.discard (w : World σ) (c : Nat) : World σ :=
  { w with
    network := w.network.filter (·.1 ≠ c)
    pending := w.pending.filter (·.1 ≠ c) }

def World.press (w : World σ) (c : Nat) (minted : Uuid) (now : Int) (reads stores : Bool) :
    World σ :=
  let (found, st) := lookup ed w.mem w.storage reads now
  let attempt := found.getD ⟨minted, ed.requestKey, now⟩
  { w with
    mem := some attempt
    storage := writeStoredAttempt ed.sha256Hex st stores attempt
    waiting := some ⟨c, attempt.id, found.isSome⟩
    network := (c, attempt.id) :: w.network
    used := c :: w.used
    pending := (c, attempt.id) :: w.pending
    openedAt := if w.pending.isEmpty then attempt.at_ else w.openedAt
    mounted := true
    stored := stores || (w.stored && !w.pending.isEmpty) }

end

section

variable (ed : Editor)

abbrev Editor.World (ed : Editor) := Client.World ed.deps.engine.State

def nextWorld (w : ed.World) : Move ed.deps.engine.Choice → Option ed.World
  | .press c minted now reads stores =>
    if w.waiting.isNone ∧ c ∉ w.used then some (w.press ed c minted now reads stores) else none
  | .arrive c =>
    (w.network.lookup c).bind fun id =>
      ((system ed.deps).next w.server (.call c true (ed.under id))).map fun t =>
        { w with server := t, network := w.network.filter (·.1 ≠ c) }
  | .refuse c err clears =>
    (w.network.lookup c).map fun _ =>
      match w.waiting with
      | some send => if send.c = c then (w.discard c).fail ed send err clears else w.discard c
      | none => w.discard c
  | .refresh c' =>
    match w.waiting with
    | some send =>
      if (w.network.lookup send.c).isSome ∧ c' ∉ w.used then
        some { w.discard send.c with
          waiting := some { send with c := c' }
          network := (c', send.id) :: (w.discard send.c).network
          used := c' :: w.used
          pending := (c', send.id) :: (w.discard send.c).pending }
      else none
    | none => none
  | .lose proxy => w.waiting.map fun send => w.fail ed send (unanswered proxy) true
  | .deliver clears =>
    match w.waiting with
    | some send =>
      match w.server.calls send.c with
      | some ⟨_, .returned (.ok _)⟩ =>
        some { w.release ed clears with waiting := none, pending := [] }
      | some ⟨_, .returned (.error e)⟩ =>
        (trackedReply (.error e)).map fun err =>
          { w.fail ed send err clears with pending := if e.settles then [] else w.pending }
      | _ => none
    | none => none
  | .reload => some { w with mem := none, waiting := none, mounted := false }
  | .server a =>
    match a with
    | .call c _ _ =>
      if c ∈ w.used then none
      else ((system ed.deps).next w.server a).map fun t =>
        { w with server := t, used := c :: w.used }
    | _ => ((system ed.deps).next w.server a).map fun t => { w with server := t }

def retrying : Machine ed.World (Move ed.deps.engine.Choice) where
  init := ⟨(system ed.deps).init, none, fun _ => none, none, [], [], [], 0, false, false⟩
  next := nextWorld ed

def ranBy (sends : List (Nat × Uuid)) : Event → Bool
  | .engineInvoked c _ => sends.any (·.1 == c)
  | _ => false

def World.engineRuns {σ : Type} (w : Client.World σ) : Nat := w.server.log.countP (ranBy w.pending)

/-- The press comes inside the window, with a copy of the attempt in memory or in a readable
storage. -/
def Retained {σ : Type} {χ : Type} (w : Client.World σ) : Move χ → Prop
  | .press _ _ now reads _ => w.pending ≠ [] →
    (0 ≤ now - w.openedAt ∧ now - w.openedAt < pendingAttemptTtlMs) ∧
      (w.mounted = true ∨ (w.stored = true ∧ reads = true))
  | _ => True

instance {σ χ : Type} (w : Client.World σ) : (m : Move χ) → Decidable (Retained w m)
  | .press _ _ now reads _ => inferInstanceAs (Decidable (w.pending ≠ [] →
    (0 ≤ now - w.openedAt ∧ now - w.openedAt < pendingAttemptTtlMs) ∧
      (w.mounted = true ∨ (w.stored = true ∧ reads = true))))
  | .arrive _ | .refuse .. | .refresh _ | .lose _ | .deliver _ | .reload | .server _ =>
    isTrue trivial

/-- No response, most of the 5xx, or an operation still in flight. -/
def KeepsId : Failure → Prop
  | .noResponse => True
  | .api status reason _ retrySame =>
    (500 ≤ status ∧ ¬ (status = 503 ∧ reason = "receipt_store_unavailable" ∧
      retrySame = some false)) ∨
    (status = 409 ∧ reason = "operation_in_flight")

instance : (err : Failure) → Decidable (KeepsId err)
  | .noResponse => isTrue trivial
  | .api status reason _ retrySame => inferInstanceAs (Decidable
    ((500 ≤ status ∧ ¬ (status = 503 ∧ reason = "receipt_store_unavailable" ∧
      retrySame = some false)) ∨
    (status = 409 ∧ reason = "operation_in_flight")))

/-- No answer gives the id up while an earlier send under it is unaccounted for. -/
def NotTurnedAway {σ : Type} {χ : Type} (w : Client.World σ) : Move χ → Prop
  | .refuse c err _ => (∃ p ∈ w.pending, p.1 ≠ c) → KeepsId err
  | _ => True

instance {σ χ : Type} (w : Client.World σ) : (m : Move χ) → Decidable (NotTurnedAway w m)
  | .refuse c err _ => inferInstanceAs (Decidable ((∃ p ∈ w.pending, p.1 ≠ c) → KeepsId err))
  | .press .. | .arrive _ | .refresh _ | .lose _ | .deliver _ | .reload | .server _ =>
    isTrue trivial

end

end KubeCenter.Client
