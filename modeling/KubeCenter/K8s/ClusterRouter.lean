import KubeCenter.K8s.RemoteCache

/-! # Clients and schemas of remote clusters

`ClusterRouter` of `cluster_router.go` with the schema cache of `discovery_cache.go`. A client or a
schema is known by the reading of the cluster record it was made from. The steps of a call are the
operations on the caches, the two singleflight groups and the cluster store. The function of a
flight runs in the call that started it. `EvictCluster` visits every key that is in the `sync.Map`
all the time, each at a moment of its own. -/
namespace KubeCenter.K8s
open Lib Go Resources
open Function (update)

def clientCacheTTL : Duration := 5 * minute

def maxSchemaCacheEntries : ℕ := 128

/-! ## What is made and cached -/

/-- A record, and the number of steps taken before it was read. -/
structure Reading (ρ : Type) where
  record : ρ
  readAt : ℕ
deriving DecidableEq

/-- The typed client of `remoteCache`, or the dynamic one of `remoteDynCache`. -/
inductive ClientKind where
  | typed
  | dynamic
deriving DecidableEq

structure CachedClient (ρ : Type) where
  reading : Reading ρ
  expiresAt : Time
deriving DecidableEq

/-- The record is read once for the generation and once for the client. -/
structure SchemaCacheEntry (ρ : Type) where
  generation : Reading ρ
  reading : Reading ρ
  expiresAt : Time
deriving DecidableEq

inductive Part where
  | client (kind : ClientKind)
  | schema
deriving DecidableEq

inductive RouterCall where
  | clientForCluster
  | dynamicClientForCluster
  | routerFor
  | targetSchemaFor
  | targetFor
deriving DecidableEq

def RouterCall.parts : RouterCall → List Part
  | .clientForCluster => [.client .typed]
  | .dynamicClientForCluster => [.client .dynamic]
  | .routerFor => [.client .typed, .client .dynamic]
  | .targetSchemaFor => [.schema]
  | .targetFor => [.client .typed, .client .dynamic, .schema]

inductive Yield (ρ : Type) where
  | client (kind : ClientKind) (reading : Reading ρ)
  | schema (generation reading : Reading ρ)
deriving DecidableEq

def Yield.readings {ρ : Type} : Yield ρ → List (Reading ρ)
  | .client _ reading => [reading]
  | .schema generation reading => [generation, reading]

inductive RouterError where
  | noClusterStore
  | noUser
  | notFound
  | config
  | client
deriving DecidableEq

inductive Goal (ρ : Type) where
  | client (kind : ClientKind)
  | schema (generation : Reading ρ)

inductive RoutePc (ρ : Type) where
  | look (part : Part)
  | joinSchema
  | waitSchema
  | relook
  | generation
  | joinConfig (goal : Goal ρ)
  | waitConfig (goal : Goal ρ)
  | read (goal : Goal ρ)
  | build (goal : Goal ρ) (reading : Reading ρ)
  | make (goal : Goal ρ) (reading : Reading ρ)
  | landSchema (result : Except RouterError (Yield ρ))
  | answered (result : Except RouterError (Yield ρ))

/-- A call on a remote cluster: local ones are answered at once. -/
structure RouteCall (ρ : Type) where
  request : ReadRequest
  rest : List Part
  got : List (Yield ρ)
  pc : RoutePc ρ
  remote : isLocalClusterID request.clusterID = false

/-- Where `EvictCluster` stands, and which keys of a client cache it has visited. -/
inductive EvictPhase where
  | clients (kind : ClientKind) (visited : List Bytes)
  | schemas
deriving DecidableEq

structure Eviction where
  clusterID : Bytes
  phase : EvictPhase
deriving DecidableEq

structure Router (ρ : Type) where
  records : Bytes → Option ρ := fun _ => none
  clients : ClientKind → Bytes → Option (CachedClient ρ) := fun _ _ => none
  schemas : FifoMap ReadKey (SchemaCacheEntry ρ) := {}
  configFlights : Bytes → Bool := fun _ => false
  schemaFlights : ReadKey → Bool := fun _ => false
  calls : ℕ → Option (RouteCall ρ) := fun _ => none
  evictions : ℕ → Option Eviction := fun _ => none
  started : ℕ := 0
  evicted : ℕ := 0
  now : Time := 0
  steps : ℕ := 0

inductive RouterAction (ρ : Type) where
  | call (call : RouterCall) (request : ReadRequest)
  /-- What a step asks of the store, of the config checks or of client-go may fail. -/
  | step (call : ℕ) (ok : Bool)
  /-- The stored record of a cluster is written or deleted. -/
  | update (clusterID : Bytes) (record : Option ρ)
  | evictCluster (clusterID : Bytes)
  | visit (eviction : ℕ) (key : Bytes)
  | endPhase (eviction : ℕ)
  /-- The sweeper, or a call that found an expired client a moment ago, deletes an entry. -/
  | deleteClient (kind : ClientKind) (key : Bytes)
  | sweepSchemas
  | elapse (d : ℕ)

inductive RouterEvent (ρ : Type) where
  | idle
  | started (call : ℕ) (request : ReadRequest)
  | read (clusterID : Bytes) (record : ρ)
  /-- The shared local clients need no record. -/
  | returnedLocal (call : ℕ)
  | returned (call : ℕ) (request : ReadRequest) (result : Except RouterError (List (Yield ρ)))
  | updated (clusterID : Bytes)
  | evictBegan (eviction : ℕ) (clusterID : Bytes)
  | evictReturned (eviction : ℕ)
deriving DecidableEq

/-! ## Keys -/

def ReadRequest.clientKey (sha256 : Bytes → Bytes) (q : ReadRequest) : Bytes :=
  q.clusterID ++ [0] ++ cacheKey sha256 q.identity

/-- `strings.HasPrefix(k, clusterID+"\x00")`. -/
def ofCluster (clusterID key : Bytes) : Bool := (clusterID ++ [0]).isPrefixOf key

/-! ## The steps of a call -/

namespace Router

variable {ρ : Type}

def goto (s : Router ρ) (n : ℕ) (c : RouteCall ρ) (pc : RoutePc ρ) : Router ρ :=
  { s with calls := update s.calls n (some { c with pc }) }

def setClient (s : Router ρ) (kind : ClientKind) (key : Bytes) (e : Option (CachedClient ρ)) :
    Router ρ :=
  { s with clients := update s.clients kind (update (s.clients kind) key e) }

/-- The first half of `remoteTypedClient` and of `remoteDynamicClient`. -/
def lookClient (sha256 : Bytes → Bytes) (s : Router ρ) (n : ℕ) (c : RouteCall ρ)
    (kind : ClientKind) : Router ρ :=
  let key := c.request.clientKey sha256
  match s.clients kind key with
  | some e =>
    if s.now < e.expiresAt then s.goto n c (.answered (.ok (.client kind e.reading)))
    else (s.setClient kind key none).goto n c (.joinConfig (.client kind))
  | none => s.goto n c (.joinConfig (.client kind))

/-- `targetSchemaCache.get`. -/
def getSchema (s : Router ρ) (k : ReadKey) : Option (SchemaCacheEntry ρ) :=
  match s.schemas.entries k with
  | some e => if e.expiresAt < s.now then none else some e
  | none => none

section

variable (sha256 : Bytes → Bytes) (s : Router ρ) (n : ℕ) (c : RouteCall ρ)

def lookSchema : Router ρ :=
  match s.getSchema (c.request.key sha256) with
  | some e => s.goto n c (.answered (.ok (.schema e.generation e.reading)))
  | none => s.goto n c .joinSchema

def joinSchema : Router ρ :=
  let k := c.request.key sha256
  if s.schemaFlights k then s.goto n c .waitSchema
  else { s with schemaFlights := update s.schemaFlights k true }.goto n c .relook

def relook : Router ρ :=
  match s.getSchema (c.request.key sha256) with
  | some e => s.goto n c (.landSchema (.ok (.schema e.generation e.reading)))
  | none => s.goto n c .generation

end

variable (sha256 : Bytes → Bytes)

def failed (goal : Goal ρ) (err : RouterError) : RoutePc ρ :=
  match goal with
  | .client _ => .answered (.error err)
  | .schema _ => .landSchema (.error err)

/-- `clusterStore.Get`. -/
def getRecord (s : Router ρ) (clusterID : Bytes) (ok : Bool) : Option (Reading ρ) :=
  if ok then (s.records clusterID).map fun record => ⟨record, s.steps⟩ else none

def readGeneration (s : Router ρ) (n : ℕ) (c : RouteCall ρ) (ok : Bool) :
    RouterEvent ρ × Router ρ :=
  match s.getRecord c.request.clusterID ok with
  | some r => (.read c.request.clusterID r.record, s.goto n c (.joinConfig (.schema r)))
  | none => (.idle, s.goto n c (.landSchema (.error .notFound)))

def joinConfig (s : Router ρ) (n : ℕ) (c : RouteCall ρ) (goal : Goal ρ) : Router ρ :=
  let key := c.request.clientKey sha256
  if c.request.identity.username = [] then s.goto n c (failed goal .noUser)
  else if s.configFlights key then s.goto n c (.waitConfig goal)
  else { s with configFlights := update s.configFlights key true }.goto n c (.read goal)

def withConfig (goal : Goal ρ) : Except RouterError (Reading ρ) → RoutePc ρ
  | .ok reading => .make goal reading
  | .error err => failed goal err

def deliverConfig (key : Bytes)
    (result : Except RouterError (Reading ρ)) (c : RouteCall ρ) : RouteCall ρ :=
  match c.pc with
  | .waitConfig goal =>
    if c.request.clientKey sha256 = key then { c with pc := withConfig goal result } else c
  | _ => c

/-- The flight ends; its result goes to the call that ran it and to those that joined. -/
def landConfig (s : Router ρ) (n : ℕ) (c : RouteCall ρ)
    (goal : Goal ρ) (result : Except RouterError (Reading ρ)) : Router ρ :=
  let key := c.request.clientKey sha256
  { s with
    configFlights := update s.configFlights key false
    calls := fun m => (s.calls m).map (deliverConfig sha256 key result)
    }.goto n c (withConfig goal result)

def readRecord (s : Router ρ) (n : ℕ) (c : RouteCall ρ)
    (goal : Goal ρ) (ok : Bool) : RouterEvent ρ × Router ρ :=
  match s.getRecord c.request.clusterID ok with
  | some r => (.read c.request.clusterID r.record, s.goto n c (.build goal r))
  | none => (.idle, s.landConfig sha256 n c goal (.error .notFound))

def make (s : Router ρ) (n : ℕ) (c : RouteCall ρ) (goal : Goal ρ)
    (reading : Reading ρ) : Router ρ :=
  match goal with
  | .client kind =>
    (s.setClient kind (c.request.clientKey sha256)
      (some ⟨reading, s.now + clientCacheTTL⟩)).goto n c (.answered (.ok (.client kind reading)))
  | .schema generation =>
    { s with
      schemas := s.schemas.put maxSchemaCacheEntries (c.request.key sha256)
        ⟨generation, reading, s.now + clientCacheTTL⟩
      }.goto n c (.landSchema (.ok (.schema generation reading)))

def deliverSchema (k : ReadKey) (result : Except RouterError (Yield ρ))
    (c : RouteCall ρ) : RouteCall ρ :=
  match c.pc with
  | .waitSchema => if c.request.key sha256 = k then { c with pc := .answered result } else c
  | _ => c

def landSchema (s : Router ρ) (n : ℕ) (c : RouteCall ρ)
    (result : Except RouterError (Yield ρ)) : Router ρ :=
  let k := c.request.key sha256
  { s with
    schemaFlights := update s.schemaFlights k false
    calls := fun m => (s.calls m).map (deliverSchema sha256 k result)
    }.goto n c (.answered result)

def resume (s : Router ρ) (n : ℕ) (c : RouteCall ρ) (result : Except RouterError (Yield ρ)) :
    RouterEvent ρ × Router ρ :=
  let gone := { s with calls := update s.calls n none }
  match result, c.rest with
  | .error err, _ => (.returned n c.request (.error err), gone)
  | .ok y, [] => (.returned n c.request (.ok (c.got ++ [y])), gone)
  | .ok y, part :: rest => (.idle, s.goto n { c with rest, got := c.got ++ [y] } (.look part))

def step (s : Router ρ) (n : ℕ) (c : RouteCall ρ) (ok : Bool) : RouterEvent ρ × Router ρ :=
  match c.pc with
  | .look (.client kind) => (.idle, s.lookClient sha256 n c kind)
  | .look .schema => (.idle, s.lookSchema sha256 n c)
  | .joinSchema => (.idle, s.joinSchema sha256 n c)
  | .waitSchema => (.idle, s)
  | .relook => (.idle, s.relook sha256 n c)
  | .generation => s.readGeneration n c ok
  | .joinConfig goal => (.idle, s.joinConfig sha256 n c goal)
  | .waitConfig _ => (.idle, s)
  | .read goal => s.readRecord sha256 n c goal ok
  | .build goal reading =>
    (.idle, s.landConfig sha256 n c goal (if ok then .ok reading else .error .config))
  | .make goal reading =>
    (.idle, if ok then s.make sha256 n c goal reading else s.goto n c (failed goal .client))
  | .landSchema result => (.idle, s.landSchema sha256 n c result)
  | .answered result => s.resume n c result

/-! ## Calls, evictions, sweeps -/

def call (wired : Bool) (s : Router ρ) (call : RouterCall) (q : ReadRequest) :
    RouterEvent ρ × Router ρ :=
  let counted := { s with started := s.started + 1 }
  if hlocal : isLocalClusterID q.clusterID then (.returnedLocal s.started, counted)
  else if !wired then (.returned s.started q (.error .noClusterStore), counted)
  else
    match call.parts with
    | [] => (.idle, counted)
    | part :: rest =>
      (.started s.started q, { counted with
          calls := update s.calls s.started
            (some ⟨q, rest, [], .look part, Bool.eq_false_iff.mpr hlocal⟩) })

def setPhase (s : Router ρ) (e : ℕ) (ev : Eviction) (phase : EvictPhase) : Router ρ :=
  { s with evictions := update s.evictions e (some { ev with phase }) }

def visit (s : Router ρ) (e : ℕ) (ev : Eviction) (key : Bytes) : Router ρ :=
  match ev.phase with
  | .clients kind visited =>
    if ofCluster ev.clusterID key then
      (s.setClient kind key none).setPhase e ev (.clients kind (key :: visited))
    else s
  | .schemas => s

/-- The keys of the cluster that the walk has not visited yet go now. -/
def dropUnvisited (s : Router ρ) (kind : ClientKind) (clusterID : Bytes) (visited : List Bytes) :
    Router ρ :=
  { s with
    clients := update s.clients kind fun key =>
      if ofCluster clusterID key && !visited.contains key then none else s.clients kind key }

def endPhase (s : Router ρ) (e : ℕ) (ev : Eviction) : RouterEvent ρ × Router ρ :=
  match ev.phase with
  | .clients .typed visited =>
    (.idle, (s.dropUnvisited .typed ev.clusterID visited).setPhase e ev (.clients .dynamic []))
  | .clients .dynamic visited =>
    (.idle, (s.dropUnvisited .dynamic ev.clusterID visited).setPhase e ev .schemas)
  | .schemas =>
    (.evictReturned e, { s with
        schemas := s.schemas.filter fun k _ => k.clusterID ≠ ev.clusterID
        evictions := update s.evictions e none })

def react (wired : Bool) (s : Router ρ) : RouterAction ρ → RouterEvent ρ × Router ρ
  | .call c q => s.call wired c q
  | .step n ok =>
    match s.calls n with
    | some c => s.step sha256 n c ok
    | none => (.idle, s)
  | .update clusterID record =>
    (.updated clusterID, { s with records := update s.records clusterID record })
  | .evictCluster clusterID =>
    (.evictBegan s.evicted clusterID, { s with
        evicted := s.evicted + 1
        evictions := update s.evictions s.evicted (some ⟨clusterID, .clients .typed []⟩) })
  | .visit e key =>
    match s.evictions e with
    | some ev => (.idle, s.visit e ev key)
    | none => (.idle, s)
  | .endPhase e =>
    match s.evictions e with
    | some ev => s.endPhase e ev
    | none => (.idle, s)
  | .deleteClient kind key => (.idle, s.setClient kind key none)
  | .sweepSchemas =>
    (.idle, { s with schemas := s.schemas.filter fun _ e => !(e.expiresAt < s.now) })
  | .elapse d => (.idle, { s with now := s.now + d })

end Router

/-- Every action is one step. `wired` says whether there is a cluster store. -/
def clusterRouter (sha256 : Bytes → Bytes) (wired : Bool) (ρ : Type) :
    Reactive (Router ρ) (RouterAction ρ) (RouterEvent ρ) where
  init := {}
  react s a :=
    let r := s.react sha256 wired a
    (r.1, { r.2 with steps := s.steps + 1 })

end KubeCenter.K8s
