import KubeCenter.Lib.Machine
import Mathlib.Data.List.Nodup

/-! # The WebSocket hub and the pumps of its clients

One goroutine owns the client set and the subscription table and takes work from its channels in
any order; each connection has a read pump and a write pump. The hub's loops over targets, removals
and clients stop between two elements. A Go map is ranged over in any order, so the action names
the element. -/
namespace KubeCenter.Websocket
open Lib List

/-! ## Wire format and kinds -/

/-- A connection; the source compares `*Client` pointers. -/
abbrev ClientID := Nat

/-- A subscription topic; an empty namespace stands for all of them. -/
structure SubKey where
  kind : String
  namespace_ : String
deriving DecidableEq

structure ResourceEvent where
  eventType : String
  kind : String
  namespace_ : String
  /-- The object's JSON, unless it does not marshal. -/
  object : Option String

inductive MsgType where
  | subscribed
  | event
  | error
  | resyncRequired
deriving DecidableEq

structure OutgoingMessage where
  type : MsgType
  id : String := ""
  eventType : String := ""
  code : Nat := 0
  message : String := ""
  object : String := ""
deriving DecidableEq

structure IncomingMessage where
  type : String
  id : String := ""
  kind : String := ""
  namespace_ : String := ""

/-- With the API group of those that are custom resources. -/
structure Kinds where
  allowedKinds : List String :=
    ["notifications", "pods", "services", "configmaps", "namespaces", "nodes",
      "persistentvolumeclaims", "pvcs", "persistentvolumes", "pvs", "endpoints", "events",
      "deployments", "replicasets", "statefulsets", "daemonsets", "jobs", "cronjobs",
      "ingresses", "networkpolicies", "horizontalpodautoscalers", "hpas", "storageclasses",
      "roles", "clusterroles", "rolebindings", "clusterrolebindings", "resourcequotas",
      "limitranges", "serviceaccounts", "poddisruptionbudgets", "pdbs", "endpointslices",
      "alerts", "validatingwebhookconfigurations", "mutatingwebhookconfigurations"]
  crdKindGroups : List (String × String) := []

def registerAllowedKind (k : Kinds) (kind apiGroup : String) : Kinds :=
  if kind ∈ k.allowedKinds then k
  else
    { allowedKinds := kind :: k.allowedKinds
      crdKindGroups :=
        if apiGroup ≠ "" then (kind, apiGroup) :: k.crdKindGroups else k.crdKindGroups }

def unregisterAllowedKind (k : Kinds) (kind : String) : Kinds :=
  { allowedKinds := k.allowedKinds.filter (· ≠ kind)
    crdKindGroups := k.crdKindGroups.filter (·.1 ≠ kind) }

def isAllowedKind (k : Kinds) (kind : String) : Bool := kind ∈ k.allowedKinds

def crdAPIGroup (k : Kinds) (kind : String) : String := (k.crdKindGroups.lookup kind).getD ""

def kindAliases : List (String × String) :=
  [("pvcs", "persistentvolumeclaims"), ("pvs", "persistentvolumes"),
    ("hpas", "horizontalpodautoscalers"), ("pdbs", "poddisruptionbudgets")]

def normalizeKind (kind : String) : String := (kindAliases.lookup kind).getD kind

def alwaysAllowKinds : List String := ["alerts", "notifications"]

def maxSubscriptions : Nat := 25
def sendBufferSize : Nat := 256
/-- The capacity of `addSub` and of `unsubByID`. -/
def requestBufferSize : Nat := 256

/-! ## Connections -/

/-- Where a connection's read pump stands. -/
inductive Pump where
  /-- The handler waits for the hub to take the registration. -/
  | dialing
  | authenticating
  | reading
  /-- At the send to `addSub`. -/
  | subscribing (key : SubKey) (id : String)
  /-- After that send, before the acknowledgement. -/
  | acking (id : String)
  /-- At the send to `unsubByID`. -/
  | unsubscribing (id : String)
  /-- In the deferred function, at the send to `unregister`. -/
  | leaving
  | gone
deriving DecidableEq

structure Client where
  pump : Pump := .dialing
  user : Option String := none
  subCount : Nat := 0
  send : List OutgoingMessage := []
  closed : Bool := false

/-- What a `select` with a default does with a send. -/
inductive TrySend where
  | panics
  | full
  | buffered (send : List OutgoingMessage)

def Client.trySend (c : Client) (m : OutgoingMessage) : TrySend :=
  if c.closed then .panics
  else if c.send.length < sendBufferSize then .buffered (c.send ++ [m])
  else .full

/-! ## The hub -/

/-- An entry of the subscription table, also the change that adds it. -/
structure Subscription where
  key : SubKey
  client : ClientID
  id : String
deriving DecidableEq

def Subscription.slot (t : Subscription) : SubKey × ClientID := (t.key, t.client)

structure UnsubRequest where
  client : ClientID
  id : String
deriving DecidableEq

structure Target where
  client : ClientID
  subID : String
deriving DecidableEq

/-- Where the hub's goroutine stands. -/
inductive Loop where
  | select
  /-- In `broadcastEvent`, with the targets still to be served. -/
  | sending (event : ResourceEvent) (targets : List Target)
  /-- In `sendResync` for a target whose buffer was full. -/
  | resyncing (event : ResourceEvent) (t : Target) (targets : List Target)
  /-- In `revalidateSubscriptions`, with the removals still to be made. -/
  | revoking (removals : List Subscription)
  | closing (clients : List ClientID)
  | stopped
  /-- The goroutine has no recover: the process is gone. -/
  | panicked

inductive Request where
  | add (key : SubKey) (id : String)
  | drop (id : String)
deriving DecidableEq

inductive HubEvent where
  /-- The answer to a `list` check made for a subscribe message. -/
  | checked (c : ClientID) (apiGroup kind namespace_ : String) (allowed : Bool)
  /-- The read pump accepted a message. -/
  | asked (c : ClientID) (r : Request)
  /-- The hub took it from its channel. -/
  | took (c : ClientID) (r : Request)
  | revoked (c : ClientID) (key : SubKey) (id : String)
  | delivered (c : ClientID) (kind namespace_ : String)
  | closed (c : ClientID)
deriving DecidableEq

structure Hub where
  clients : List ClientID := []
  subscriptions : List Subscription := []
  clientCount : Int := 0
  addSub : List Subscription := []
  unsubByID : List UnsubRequest := []
  conns : ClientID → Client := fun _ => {}
  kinds : Kinds := {}
  loop : Loop := .select
  log : List HubEvent := []

namespace Hub

section

variable (h : Hub) (c : ClientID)

@[simp] def put (conn : Client) : Hub := { h with conns := Function.update h.conns c conn }

/-- On a closed channel the send panics, and the pump's recover goes on to unregister. -/
def reply (m : OutgoingMessage) : Hub :=
  match (h.conns c).trySend m with
  | .panics => h.put c { h.conns c with pump := .leaving }
  | .full => h.put c { h.conns c with pump := .reading }
  | .buffered send => h.put c { h.conns c with pump := .reading, send }

def sendError (id : String) (code : Nat) (message : String) : Hub :=
  h.reply c { type := .error, id, code, message }

def accept (key : SubKey) (id : String) : Hub :=
  { h.put c { h.conns c with pump := .subscribing key id, subCount := (h.conns c).subCount + 1 }
    with log := h.log ++ [.asked c (.add key id)] }

def check (kind ns : String) (answer : Option Bool) : Hub :=
  { h with log := h.log ++ [.checked c (crdAPIGroup h.kinds kind) kind ns (answer == some true)] }

end

/-- `quote` is what `%q` prints; `answer` is the access checker's, `none` when
it fails. -/
def handleSubscribe (quote : String → String) (h : Hub) (c : ClientID) (msg : IncomingMessage)
    (answer : Option Bool) : Hub :=
  if msg.id = "" ∨ msg.kind = "" then
    h.sendError c msg.id 400 "subscribe requires id and kind"
  else if maxSubscriptions ≤ (h.conns c).subCount then
    h.sendError c msg.id 429 "too many subscriptions"
  else if !isAllowedKind h.kinds msg.kind then
    h.sendError c msg.id 400 ("subscription to " ++ quote msg.kind ++ " is not allowed")
  else
    let kind := normalizeKind msg.kind
    let key : SubKey := ⟨kind, msg.namespace_⟩
    if kind ∈ alwaysAllowKinds then h.accept c key msg.id
    else
      let h := h.check c kind msg.namespace_ answer
      match answer with
      | none => h.sendError c msg.id 500 "RBAC check failed"
      | some false => h.sendError c msg.id 403 "subscription denied"
      | some true => h.accept c key msg.id

def handleUnsubscribe (h : Hub) (c : ClientID) (msg : IncomingMessage) : Hub :=
  if msg.id = "" then h.sendError c msg.id 400 "unsubscribe requires id"
  else h.put c { h.conns c with pump := .unsubscribing msg.id }

/-- One round of the read loop; `none` is a message that does not unmarshal. -/
def readMessage (quote : String → String) (h : Hub) (c : ClientID) (answer : Option Bool) :
    Option IncomingMessage → Hub
  | none => h.sendError c "" 400 "invalid message format"
  | some msg =>
    if msg.type = "subscribe" then handleSubscribe quote h c msg answer
    else if msg.type = "unsubscribe" then h.handleUnsubscribe c msg
    else h.sendError c "" 400 ("unknown message type: " ++ msg.type)

/-- The pump's blocking send on a request channel, once there is room. -/
def enqueue (h : Hub) (c : ClientID) : Option Hub :=
  match (h.conns c).pump with
  | .subscribing key id =>
    if h.addSub.length < requestBufferSize then
      some { h.put c { h.conns c with pump := .acking id } with
        addSub := h.addSub ++ [⟨key, c, id⟩] }
    else none
  | .unsubscribing id =>
    if h.unsubByID.length < requestBufferSize then
      some { h.put c { h.conns c with pump := .reading, subCount := (h.conns c).subCount - 1 } with
        unsubByID := h.unsubByID ++ [⟨c, id⟩], log := h.log ++ [.asked c (.drop id)] }
    else none
  | _ => none

def removeClient (h : Hub) (c : ClientID) : Hub :=
  let h := { h with
    subscriptions := h.subscriptions.filter (·.client ≠ c)
    clients := h.clients.erase c
    clientCount := h.clientCount - 1 }
  if (h.conns c).closed then { h with loop := .panicked }
  else { h.put c { h.conns c with closed := true } with log := h.log ++ [.closed c] }

def takeSub (h : Hub) (t : Subscription) (rest : List Subscription) : Hub :=
  { h with
    addSub := rest
    subscriptions := h.subscriptions.filter (·.slot ≠ t.slot) ++ [t]
    log := h.log ++ [.took t.client (.add t.key t.id)] }

/-- `found` is the first key the range visits whose entry of the client has
the id. -/
def takeUnsub (h : Hub) (req : UnsubRequest) (rest : List UnsubRequest) (found : Option SubKey) :
    Option Hub :=
  let h' := { h with unsubByID := rest, log := h.log ++ [.took req.client (.drop req.id)] }
  match found with
  | some key =>
    if ⟨key, req.client, req.id⟩ ∈ h.subscriptions then
      some { h' with subscriptions := h.subscriptions.filter (·.slot ≠ (key, req.client)) }
    else none
  | none => if ∃ t ∈ h.subscriptions, t.client = req.client ∧ t.id = req.id then none else some h'

section

variable (h : Hub) (event : ResourceEvent)

/-- The clients an event goes to, an exact namespace before all namespaces. -/
def targets : List Target :=
  let exact := h.subscriptions.filter (·.key = ⟨event.kind, event.namespace_⟩)
  let all := h.subscriptions.filter fun t =>
    t.key = ⟨event.kind, ""⟩ ∧ t.client ∉ exact.map (·.client)
  (exact ++ all).map fun t => ⟨t.client, t.id⟩

def broadcastEvent : Hub :=
  if event.object.isSome then { h with loop := .sending event (h.targets event) } else h

/-- The element of the range over the targets that belongs to `c`. -/
def sendTo (ts : List Target) (c : ClientID) : Option Hub :=
  (ts.find? (·.client = c)).map fun t =>
    let rest := ts.filter (·.client ≠ c)
    match (h.conns c).trySend
        { type := .event, id := t.subID, eventType := event.eventType,
          object := event.object.getD "" } with
    | .panics => { h with loop := .panicked }
    | .full => { h with loop := .resyncing event t rest }
    | .buffered send =>
      { h.put c { h.conns c with send } with
        loop := .sending event rest
        log := h.log ++ [.delivered c event.kind event.namespace_] }

def sendResync (t : Target) (rest : List Target) : Hub :=
  let h := { h with loop := .sending event rest }
  match (h.conns t.client).trySend
      { type := .resyncRequired, id := t.subID, message := event.kind } with
  | .panics => { h with loop := .panicked }
  | .full => h.removeClient t.client
  | .buffered send => h.put t.client { h.conns t.client with send }

end

/-- `answers` are those of the access checks; a check that fails keeps the
subscription. -/
def removals (h : Hub) (answers : Subscription → Option Bool) : List Subscription :=
  h.subscriptions.filter fun t =>
    t.key.kind ∉ alwaysAllowKinds ∧ (h.conns t.client).user.isSome ∧ answers t = some false

def revoke (h : Hub) (r : Subscription) (rest : List Subscription) : Hub :=
  let h : Hub := { h with
    subscriptions := h.subscriptions.filter (·.slot ≠ r.slot)
    loop := .revoking rest
    log := h.log ++ [.revoked r.client r.key r.id] }
  match (h.conns r.client).trySend
      { type := .error, id := r.id, code := 403,
        message := "subscription revoked: access denied" } with
  | .panics => { h with loop := .panicked }
  | .full => h
  | .buffered send => h.put r.client { h.conns r.client with send }

end Hub

/-! ## The machine -/

inductive HubAction where
  /-- `Register` meets the hub's loop, and the handler starts the pumps. -/
  | register (c : ClientID)
  /-- `waitForAuth`, with the user of the token when it succeeds. -/
  | authenticate (c : ClientID) (user : Option String)
  | read (c : ClientID) (msg : Option IncomingMessage) (answer : Option Bool)
  | enqueue (c : ClientID)
  | acknowledge (c : ClientID)
  /-- Reading the connection fails. -/
  | hangUp (c : ClientID)
  /-- The write pump takes a message. -/
  | write (c : ClientID)
  | unregister (c : ClientID)
  | takeSub
  | takeUnsub (found : Option SubKey)
  | event (e : ResourceEvent)
  | sendTo (c : ClientID)
  | sendResync
  | revalidate (answers : Subscription → Option Bool)
  | revoke (r : Subscription)
  | shutdown
  | close (c : ClientID)
  /-- A range of the hub's goroutine ends. -/
  | done
  | registerKind (kind apiGroup : String)
  | unregisterKind (kind : String)

/-- What the pumps and the discovery goroutines do. -/
def Hub.pumpStep (quote : String → String) (h : Hub) : HubAction → Option Hub
  | .authenticate c user =>
    if (h.conns c).pump = .authenticating then
      some (h.put c { h.conns c with pump := if user.isSome then .reading else .leaving, user })
    else none
  | .read c msg answer =>
    if (h.conns c).pump = .reading then some (h.readMessage quote c answer msg) else none
  | .enqueue c => h.enqueue c
  | .acknowledge c =>
    match (h.conns c).pump with
    | .acking id => some (h.reply c { type := .subscribed, id })
    | _ => none
  | .hangUp c =>
    if (h.conns c).pump = .reading then some (h.put c { h.conns c with pump := .leaving })
    else none
  | .write c => some (h.put c { h.conns c with send := (h.conns c).send.tail })
  | .registerKind kind apiGroup =>
    some { h with kinds := registerAllowedKind h.kinds kind apiGroup }
  | .unregisterKind kind => some { h with kinds := unregisterAllowedKind h.kinds kind }
  | _ => none

/-- What the hub's goroutine does where it stands. -/
def Hub.loopStep (h : Hub) : Loop → HubAction → Option Hub
  | .select, .register c =>
    if (h.conns c).pump = .dialing then
      some { h.put c { h.conns c with pump := .authenticating } with
        clients := h.clients.insert c, clientCount := h.clientCount + 1 }
    else none
  | .select, .unregister c =>
    if (h.conns c).pump = .leaving then
      let h := h.put c { h.conns c with pump := .gone }
      some (if c ∈ h.clients then h.removeClient c else h)
    else none
  | .select, .takeSub =>
    match h.addSub with
    | t :: rest => some (h.takeSub t rest)
    | [] => none
  | .select, .takeUnsub found =>
    match h.unsubByID with
    | req :: rest => h.takeUnsub req rest found
    | [] => none
  | .select, .event e => some (h.broadcastEvent e)
  | .select, .revalidate answers => some { h with loop := .revoking (h.removals answers) }
  | .select, .shutdown => some { h with loop := .closing h.clients }
  | .sending e ts, .sendTo c => h.sendTo e ts c
  | .sending _ [], .done => some { h with loop := .select }
  | .resyncing e t rest, .sendResync => some (h.sendResync e t rest)
  | .revoking rs, .revoke r => if r ∈ rs then some (h.revoke r (rs.erase r)) else none
  | .revoking [], .done => some { h with loop := .select }
  | .closing cs, .close c =>
    if c ∈ cs then some ({ h with loop := .closing (cs.erase c) }.removeClient c) else none
  | .closing [], .done => some { h with loop := .stopped }
  | _, _ => none

/-- The hub with its pumps. Nothing moves once the process has panicked. -/
def hub (quote : String → String) : Machine Hub HubAction where
  init := {}
  next h a :=
    match h.loop with
    | .panicked => none
    | loop => (h.pumpStep quote a).or (h.loopStep loop a)

/-! ## What a step can do -/

def Pump.asking : Pump → Option Request
  | .subscribing key id => some (.add key id)
  | _ => none

/-- The clients the hub will still send to or close before it selects again. -/
def Loop.waiting : Loop → List ClientID
  | .sending _ ts => ts.map (·.client)
  | .resyncing _ t ts => t.client :: ts.map (·.client)
  | .revoking rs => rs.map (·.client)
  | .closing cs => cs
  | _ => []

/-- A `list` check for the key was answered with yes, or it needs none. -/
def Cleared (log : List HubEvent) (c : ClientID) (kind ns : String) : Prop :=
  kind ∈ alwaysAllowKinds ∨ ∃ group, .checked c group kind ns true ∈ log

/-- Events that only note a check. -/
def OnlyChecks (es : List HubEvent) : Prop :=
  ∀ e ∈ es, ∃ c group kind ns b, e = .checked c group kind ns b

/-- A move of the hub's goroutine that changes nothing but its position. -/
inductive Turn (h : Hub) : Loop → Prop
  | announce (e : ResourceEvent) (hsel : h.loop = .select) : Turn h (.sending e (h.targets e))
  | stall {e ts} (hloop : h.loop = .sending e ts) {t : Target} (ht : t ∈ ts) :
      Turn h (.resyncing e t (ts.filter (·.client ≠ t.client)))
  | review (answers : Subscription → Option Bool) (hsel : h.loop = .select) :
      Turn h (.revoking (h.removals answers))
  | windDown (hsel : h.loop = .select) : Turn h (.closing h.clients)
  | rest {l} (hl : l = .select ∨ l = .stopped) : Turn h l

/-- How the hub goes on after it closed the channel of `c`. -/
inductive Leave (h : Hub) (c : ClientID) : Loop → Prop
  | unregistered (hsel : h.loop = .select) (hc : c ∈ h.clients) : Leave h c .select
  | stuck {e t rest} (hloop : h.loop = .resyncing e t rest) (hc : t.client = c) :
      Leave h c (.sending e rest)
  | shut {cs} (hloop : h.loop = .closing cs) (hc : c ∈ cs) : Leave h c (.closing (cs.erase c))

inductive HubMove (h : Hub) : Hub → Prop
  | kinds (kinds : Kinds) : HubMove h { h with kinds }
  | pump {c conn es} (hclosed : conn.closed = (h.conns c).closed)
      (hcount : conn.subCount = (h.conns c).subCount)
      (hask : conn.pump.asking = (h.conns c).pump.asking)
      (hdial : conn.pump = .dialing ↔ (h.conns c).pump = .dialing) (hes : OnlyChecks es) :
      HubMove h { h.put c conn with log := h.log ++ es }
  | accept {c} (key : SubKey) (id : String) {es : List HubEvent}
      (hread : (h.conns c).pump = .reading) (hcount : (h.conns c).subCount < maxSubscriptions)
      (hes : OnlyChecks es) (hclear : Cleared es c key.kind key.namespace_) :
      HubMove h ({ h with log := h.log ++ es }.accept c key id)
  | enqueueSub {c key id} (hpump : (h.conns c).pump = .subscribing key id) :
      HubMove h { h.put c { h.conns c with pump := .acking id } with
        addSub := h.addSub ++ [⟨key, c, id⟩] }
  | enqueueUnsub {c id} (hpump : (h.conns c).pump = .unsubscribing id) : HubMove h
        { h.put c { h.conns c with pump := .reading, subCount := (h.conns c).subCount - 1 } with
          unsubByID := h.unsubByID ++ [⟨c, id⟩], log := h.log ++ [.asked c (.drop id)] }
  | register {c} (hsel : h.loop = .select) (hdial : (h.conns c).pump = .dialing) :
      HubMove h { h.put c { h.conns c with pump := .authenticating } with
        clients := h.clients.insert c, clientCount := h.clientCount + 1 }
  | takeSub {t rest} (hsel : h.loop = .select) (hq : h.addSub = t :: rest) :
      HubMove h (h.takeSub t rest)
  /-- `p` keeps all rows but the one found, if the client has one with the id. -/
  | takeUnsub {req rest p} (hsel : h.loop = .select) (hq : h.unsubByID = req :: rest)
      (hgone : ∀ t ∈ h.subscriptions, p t = false →
        t.client = req.client ∧ ⟨t.key, req.client, req.id⟩ ∈ h.subscriptions)
      (hfound : ∀ key, ⟨key, req.client, req.id⟩ ∈ h.subscriptions →
        ∃ key', ⟨key', req.client, req.id⟩ ∈ h.subscriptions ∧
          p ⟨key', req.client, req.id⟩ = false) :
      HubMove h { h with
        subscriptions := h.subscriptions.filter p
        unsubByID := rest
        log := h.log ++ [.took req.client (.drop req.id)] }
  | turn {l} (hturn : Turn h l) : HubMove h { h with loop := l }
  | deliver {e ts} (hloop : h.loop = .sending e ts) {t : Target} (ht : t ∈ ts)
      (hopen : (h.conns t.client).closed = false) (send : List OutgoingMessage) :
      HubMove h { h.put t.client { h.conns t.client with send } with
        loop := .sending e (ts.filter (·.client ≠ t.client))
        log := h.log ++ [.delivered t.client e.kind e.namespace_] }
  | resynced {e t rest} (hloop : h.loop = .resyncing e t rest) (send : List OutgoingMessage) :
      HubMove h { h.put t.client { h.conns t.client with send } with loop := .sending e rest }
  | revoke {rs} (hloop : h.loop = .revoking rs) {r : Subscription} (hr : r ∈ rs)
      (send : List OutgoingMessage) : HubMove h { h.put r.client { h.conns r.client with send } with
        subscriptions := h.subscriptions.filter (·.slot ≠ r.slot)
        loop := .revoking (rs.erase r)
        log := h.log ++ [.revoked r.client r.key r.id] }
  | remove {c pump l} (hopen : (h.conns c).closed = false)
      (hpump : pump = (h.conns c).pump ∨ (h.conns c).pump = .leaving ∧ pump = .gone)
      (hl : Leave h c l) : HubMove h { h.put c { h.conns c with pump, closed := true } with
        subscriptions := h.subscriptions.filter (·.client ≠ c)
        clients := h.clients.erase c
        clientCount := h.clientCount - 1
        loop := l
        log := h.log ++ [.closed c] }
  | crash {h' c} (es : List HubEvent) (hloop : h'.loop = .panicked)
      (hwait : c ∈ h.clients ∨ c ∈ h.loop.waiting) (hclosed : (h.conns c).closed = true)
      (hlog : h'.log = h.log ++ es) (hes : ∀ e ∈ es, ∃ c key id, e = .revoked c key id)
      (hask : ∀ x, (h'.conns x).pump.asking = (h.conns x).pump.asking) (hq : h'.addSub = h.addSub)
      (hsubs : h'.subscriptions ⊆ h.subscriptions) : HubMove h h'

@[simp] theorem OnlyChecks.nil : OnlyChecks [] := by simp [OnlyChecks]

variable {h h' : Hub} {c : ClientID}

variable {quote : String → String} {a : HubAction} {conn : Client}

theorem Client.trySend_panics {m} (h : conn.trySend m = .panics) : conn.closed = true := by
  unfold Client.trySend at h
  split at h
  · assumption
  · split at h <;> cases h

theorem Client.trySend_open {m} (h : conn.trySend m ≠ .panics) : conn.closed = false := by
  by_contra hc
  exact h (by simp [Client.trySend, hc])

theorem HubMove.reply {es} (hes : OnlyChecks es) (hask : (h.conns c).pump.asking = none)
    (hdi : (h.conns c).pump ≠ .dialing) (m : OutgoingMessage) :
    HubMove h (Hub.reply { h with log := h.log ++ es } c m) := by
  unfold Hub.reply
  split <;> exact .pump rfl rfl hask.symm ⟨nofun, fun hd => absurd hd hdi⟩ hes

theorem HubMove.put (hcs : conn.closed = (h.conns c).closed)
    (hcn : conn.subCount = (h.conns c).subCount)
    (hask : conn.pump.asking = (h.conns c).pump.asking)
    (hdi : conn.pump = .dialing ↔ (h.conns c).pump = .dialing) : HubMove h (h.put c conn) := by
  have hmv := HubMove.pump hcs hcn hask hdi .nil
  rw [append_nil] at hmv
  exact hmv

theorem HubMove.refuse (hrd : (h.conns c).pump = .reading) (m : OutgoingMessage) :
    HubMove h (h.reply c m) := by
  simpa using HubMove.reply (h := h) .nil (by rw [hrd]; rfl) (by rw [hrd]; nofun) m

theorem HubMove.subscribe (quote : String → String) (hrd : (h.conns c).pump = .reading)
    (msg : IncomingMessage) (answer : Option Bool) :
    HubMove h (h.handleSubscribe quote c msg answer) := by
  have hask : (h.conns c).pump.asking = none := by rw [hrd]; rfl
  have hdi : (h.conns c).pump ≠ .dialing := by rw [hrd]; nofun
  unfold Hub.handleSubscribe
  split
  · exact .refuse hrd _
  · split
    · exact .refuse hrd _
    next hcn =>
      split
      · exact .refuse hrd _
      · by_cases hkn : normalizeKind msg.kind ∈ alwaysAllowKinds
        · simp only [if_pos hkn]
          simpa using HubMove.accept (h := h) ⟨normalizeKind msg.kind, msg.namespace_⟩ msg.id hrd
            (by omega) .nil (.inl hkn)
        · -- the check is noted whatever its answer
          have hone (kind : String) (b : Bool) :
              OnlyChecks [.checked c (crdAPIGroup h.kinds kind) kind msg.namespace_ b] :=
            fun e he => ⟨_, _, _, _, _, mem_singleton.1 he⟩
          simp only [if_neg hkn]
          cases answer with
          | none => exact .reply (hone _ _) hask hdi _
          | some allowed =>
            cases allowed with
            | false => exact .reply (hone _ _) hask hdi _
            | true =>
              exact .accept _ msg.id hrd (by omega) (hone _ _) (.inr ⟨_, mem_singleton.2 rfl⟩)

theorem HubMove.read (quote : String → String) (hrd : (h.conns c).pump = .reading)
    (answer : Option Bool) (msg : Option IncomingMessage) :
    HubMove h (h.readMessage quote c answer msg) := by
  cases msg with
  | none => exact .refuse hrd _
  | some msg =>
    simp only [Hub.readMessage]
    split
    · exact .subscribe quote hrd msg answer
    · split
      · unfold Hub.handleUnsubscribe
        split
        · exact .refuse hrd _
        · exact .put rfl rfl (by rw [hrd]; rfl) (by simp [hrd])
      · exact .refuse hrd _

theorem HubMove.of_pumpStep (hst : h.pumpStep quote a = some h') : HubMove h h' := by
  cases a <;> simp only [Hub.pumpStep, Option.ite_none_right_eq_some, Option.some.injEq,
    reduceCtorEq] at hst
  case authenticate c user =>
    obtain ⟨hat, rfl⟩ := hst
    cases user <;> exact .put rfl rfl (by rw [hat]; rfl) (by simp [hat])
  case read c msg answer =>
    obtain ⟨hrd, rfl⟩ := hst
    exact .read quote hrd answer msg
  case enqueue c =>
    unfold Hub.enqueue at hst
    split at hst
    next key id hpm =>
      obtain ⟨-, ⟨⟩⟩ := Option.ite_none_right_eq_some.1 hst
      exact .enqueueSub hpm
    next id hpm =>
      obtain ⟨-, ⟨⟩⟩ := Option.ite_none_right_eq_some.1 hst
      exact .enqueueUnsub hpm
    · cases hst
  case acknowledge c =>
    split at hst
    next id hpm =>
      cases hst
      simpa using HubMove.reply (h := h) .nil (by rw [hpm]; rfl) (by rw [hpm]; nofun) _
    · cases hst
  case hangUp c =>
    obtain ⟨hrd, rfl⟩ := hst
    exact .put rfl rfl (by rw [hrd]; rfl) (by simp [hrd])
  case write c => subst hst; exact .put rfl rfl rfl .rfl
  case registerKind => subst hst; exact .kinds _
  case unregisterKind => subst hst; exact .kinds _

theorem Hub.put_agrees {β : Type} (f : Client → β) (conn : Client)
    (hc : f conn = f (h.conns c)) (x : ClientID) : f ((h.put c conn).conns x) = f (h.conns x) := by
  rcases eq_or_ne x c with rfl | hne
  · simp [hc]
  · simp [hne]

/-- The state a removal starts from may differ from `h` in the position and in the pump. -/
theorem HubMove.removal (pump : Pump) {l : Loop} (hl : Leave h c l)
    (hpm : pump = (h.conns c).pump ∨ (h.conns c).pump = .leaving ∧ pump = .gone) :
    HubMove h (Hub.removeClient { h.put c { h.conns c with pump } with loop := l } c) := by
  have hwt : c ∈ h.clients ∨ c ∈ h.loop.waiting := by
    cases hl with
    | unregistered _ hc => exact .inl hc
    | stuck hlp hc => exact .inr (by simp [hlp, Loop.waiting, hc])
    | shut hlp hc => exact .inr (by simpa [hlp, Loop.waiting] using hc)
  cases hop : (h.conns c).closed with
  | true =>
    have hask : pump.asking = (h.conns c).pump.asking := by
      rcases hpm with rfl | ⟨hlv, rfl⟩
      · rfl
      · rw [hlv]; rfl
    refine .crash [] ?_ hwt hop ?_ nofun (fun x => ?_) ?_ ?_ <;>
      simp only [Hub.removeClient, Hub.put, Function.update_self, hop, if_true, append_nil]
    · exact Hub.put_agrees (fun k => k.pump.asking) _ (by exact hask) x
    · exact filter_sublist.subset
  | false =>
    have := HubMove.remove hop hpm hl
    simpa [Hub.removeClient, hop] using this

theorem HubMove.of_sendTo {e ts} (hlp : h.loop = .sending e ts)
    (hst : h.sendTo e ts c = some h') : HubMove h h' := by
  obtain ⟨t, hfd, rfl⟩ := Option.map_eq_some_iff.1 hst
  have ht := mem_of_find?_eq_some hfd
  obtain rfl : t.client = c := by simpa using find?_some hfd
  split
  next hsd =>
    exact .crash [] rfl (.inr (by rw [hlp]; exact mem_map_of_mem ht))
      (Client.trySend_panics hsd) (by simp) nofun (fun _ => rfl) rfl fun _ => id
  · exact .turn (.stall hlp ht)
  next send hsd => exact .deliver hlp ht (Client.trySend_open (by rw [hsd]; nofun)) send

theorem HubMove.of_sendResync {e} {t : Target} {rest} (hlp : h.loop = .resyncing e t rest) :
    HubMove h (h.sendResync e t rest) := by
  simp only [Hub.sendResync]
  split
  next hsd =>
    exact .crash [] rfl (.inr (by simp [hlp, Loop.waiting]))
      (Client.trySend_panics hsd) (by simp) nofun (fun _ => rfl) rfl fun _ => id
  · simpa using HubMove.removal _ (.stuck hlp rfl) (.inl rfl)
  · exact .resynced hlp _

theorem HubMove.of_revoke {rs} (hlp : h.loop = .revoking rs) {r} (hr : r ∈ rs) :
    HubMove h (h.revoke r (rs.erase r)) := by
  simp only [Hub.revoke]
  split
  next hsd =>
    refine .crash (c := r.client) [.revoked r.client r.key r.id] rfl (.inr ?_)
      (Client.trySend_panics hsd) rfl (by simp) (fun _ => rfl) rfl filter_sublist.subset
    rw [hlp]
    exact mem_map_of_mem hr
  · simpa using HubMove.revoke hlp hr (h.conns r.client).send
  · exact .revoke hlp hr _

theorem HubMove.of_takeUnsub {req rest found} (hsel : h.loop = .select)
    (hq : h.unsubByID = req :: rest) (hst : h.takeUnsub req rest found = some h') :
    HubMove h h' := by
  simp only [Hub.takeUnsub] at hst
  split at hst
  next key =>
    obtain ⟨hmem, ⟨⟩⟩ := Option.ite_none_right_eq_some.1 hst
    refine .takeUnsub hsel hq (fun t _ hp => ?_) fun _ _ => ⟨key, hmem, by simp [Subscription.slot]⟩
    obtain ⟨rfl, hc⟩ := Prod.mk.inj (show t.slot = (key, req.client) by simpa using hp)
    exact ⟨hc, hmem⟩
  · split at hst
    · cases hst
    next hno =>
      cases hst
      have hmv := HubMove.takeUnsub (p := fun _ => true) hsel hq nofun
        fun key hmem => absurd ⟨_, hmem, rfl, rfl⟩ hno
      rwa [filter_true] at hmv

theorem HubMove.of_loopStep {l : Loop} (hl : h.loop = l) (hst : h.loopStep l a = some h') :
    HubMove h h' := by
  unfold Hub.loopStep at hst
  split at hst
  · obtain ⟨hdi, ⟨⟩⟩ := Option.ite_none_right_eq_some.1 hst
    exact .register hl hdi
  next c =>
    obtain ⟨hpm, hput⟩ := Option.ite_none_right_eq_some.1 hst
    cases hput
    split
    · rename_i hc
      have hmv := HubMove.removal .gone (.unregistered hl hc) (.inr ⟨hpm, rfl⟩)
      rw [← hl] at hmv
      exact hmv
    · exact .put rfl rfl (by rw [hpm]; rfl) (by simp [hpm])
  · split at hst
    next hq =>
      cases hst
      exact .takeSub hl hq
    · cases hst
  · split at hst
    next hq => exact .of_takeUnsub hl hq hst
    · cases hst
  next e =>
    cases hst
    unfold Hub.broadcastEvent
    split
    · exact .turn (.announce e hl)
    · exact .kinds h.kinds
  · cases hst; exact .turn (.review _ hl)
  · cases hst; exact .turn (.windDown hl)
  · exact .of_sendTo hl hst
  · cases hst; exact .turn (.rest (.inl rfl))
  · cases hst; exact .of_sendResync hl
  · obtain ⟨hr, ⟨⟩⟩ := Option.ite_none_right_eq_some.1 hst
    exact .of_revoke hl hr
  · cases hst; exact .turn (.rest (.inl rfl))
  next cs c =>
    obtain ⟨hc, ⟨⟩⟩ := Option.ite_none_right_eq_some.1 hst
    simpa using HubMove.removal _ (.shut hl hc) (.inl rfl)
  · cases hst; exact .turn (.rest (.inr rfl))
  · cases hst

theorem hub_move (hst : (hub quote).next h a = some h') : h.loop ≠ .panicked ∧ HubMove h h' := by
  simp only [hub] at hst
  split at hst
  · cases hst
  next hlp =>
    refine ⟨hlp, ?_⟩
    rcases Option.or_eq_some_iff.1 hst with hpm | ⟨-, htr⟩
    · exact .of_pumpStep hpm
    · exact .of_loopStep rfl htr

theorem HubMove.log (hm : HubMove h h') : ∃ es, h'.log = h.log ++ es := by
  cases hm with
  | kinds => exact ⟨[], by simp⟩
  | accept => exact ⟨_, append_assoc ..⟩
  | enqueueSub | register => exact ⟨[], by simp⟩
  | turn => exact ⟨[], by simp⟩
  | resynced => exact ⟨[], by simp⟩
  | crash es _ _ _ hlog => exact ⟨es, hlog⟩
  | _ => exact ⟨_, rfl⟩

/-- A row of the table is where its key and client say, and nowhere else. -/
def Keyed (h : Hub) : Prop := (h.subscriptions.map Subscription.slot).Nodup

theorem Keyed.filter (hk : Keyed h) (p : Subscription → Bool) :
    ((h.subscriptions.filter p).map Subscription.slot).Nodup :=
  hk.sublist (filter_sublist.map _)

theorem Keyed.move (hk : Keyed h) (hm : HubMove h h') (hli : h'.loop ≠ .panicked) : Keyed h' := by
  cases hm with
  | crash _ hlp => exact absurd hlp hli
  | @takeSub t rest =>
    unfold Keyed Hub.takeSub
    rw [map_append, map_singleton]
    refine nodup_append.2 ⟨hk.filter _, nodup_singleton _, ?_⟩
    intro s hs s' hs' heq
    obtain ⟨u, hu, rfl⟩ := mem_map.1 hs
    simp_all
  | takeUnsub | revoke | remove => exact hk.filter _
  | _ => exact hk

theorem Keyed.clients_nodup (hk : Keyed h) (key : SubKey) :
    ((h.subscriptions.filter (·.key = key)).map (·.client)).Nodup := by
  refine List.Nodup.of_map (Prod.mk key) ?_
  have heq : ((h.subscriptions.filter (·.key = key)).map (·.client)).map (Prod.mk key) =
      (h.subscriptions.filter (·.key = key)).map Subscription.slot := by
    rw [map_map]
    refine map_congr_left fun t ht => ?_
    have hkey : t.key = key := by simpa using (mem_filter.1 ht).2
    simp [Subscription.slot, hkey]
  rw [heq]
  exact hk.filter _

end KubeCenter.Websocket
