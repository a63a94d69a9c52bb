import KubeCenter.K8s.Keys
import KubeCenter.Lib.FifoMap

/-! # The shared read cache of remote clusters

`remotecache/cache.go`. Every section under the mutex is one action, and every operation on the
singleflight group: joining or starting a flight, and its end. Actions carry the time. A fetch may
never end. -/
namespace KubeCenter.K8s
open Lib Go Resources

/-! ## Keys, entries, flights -/

def defaultTTL : Duration := 30 * second

def defaultMaxEntries : ℕ := 128

structure CacheConfig where
  ttl : Duration
  maxEntries : ℕ
deriving DecidableEq

def newCache (ttl : Duration) (maxEntries : Int) : CacheConfig where
  ttl := if ttl ≤ 0 then defaultTTL else ttl
  maxEntries := if maxEntries ≤ 0 then defaultMaxEntries else maxEntries.toNat

structure ReadRequest where
  clusterID : Bytes
  identity : Identity
deriving DecidableEq

@[ext]
structure ReadKey where
  clusterID : Bytes
  identity : Bytes
deriving DecidableEq

def ReadRequest.key (sha256 : Bytes → Bytes) (q : ReadRequest) : ReadKey :=
  ⟨normalizedClusterID q.clusterID, cacheKey sha256 q.identity⟩

def ReadKey.flightKey (k : ReadKey) (gen : ℕ) : Bytes :=
  k.clusterID ++ [0] ++ formatUint gen ++ [0] ++ k.identity

structure ReadEntry (T : Type) where
  value : T
  expiresAt : Time
deriving DecidableEq

inductive FetchOutcome (T ε : Type) where
  | ok (value : T)
  | failed (err : ε)
  | panicked
deriving DecidableEq

inductive GetError (ε : Type) where
  | fetch (err : ε)
  | fetchPanicked
  /-- `ctx.Err()` of the caller. -/
  | context
deriving DecidableEq

inductive FlightStage (T ε : Type) where
  | lookup
  | fetch (number : ℕ)
  | store (value : T)
  | ended (result : Except (GetError ε) T)

/-- `safeFetch` turns a panic into an error. -/
def FetchOutcome.next {T ε : Type} : FetchOutcome T ε → FlightStage T ε
  | .ok v => .store v
  | .failed err => .ended (.error (.fetch err))
  | .panicked => .ended (.error .fetchPanicked)

/-- A flight runs the fetch of the `Get` that started it. -/
structure Flight (T ε : Type) where
  request : ReadRequest
  gen : ℕ
  stage : FlightStage T ε

inductive GetStage (T ε : Type) where
  | missed
  | keyed (gen : ℕ)
  | waiting (flight : Bytes)
  | answered (result : Except (GetError ε) T)

structure GetCall (T ε : Type) where
  request : ReadRequest
  stage : GetStage T ε

structure ReadCache (T ε : Type) where
  map : FifoMap ReadKey (ReadEntry T) := {}
  /-- A `uint64` in the source, which does not wrap in fewer than `2^64` evictions. -/
  gens : Bytes → ℕ := fun _ => 0
  flights : Bytes → Option (Flight T ε) := fun _ => none
  calls : ℕ → Option (GetCall T ε) := fun _ => none
  started : ℕ := 0
  fetches : ℕ := 0

inductive CacheAction (T ε : Type) where
  | get (request : ReadRequest)
  | generation (call : ℕ)
  | join (call : ℕ)
  | flightLookup (flight : Bytes)
  | fetched (flight : Bytes) (outcome : FetchOutcome T ε)
  | store (flight : Bytes)
  | land (flight : Bytes)
  | receive (call : ℕ)
  | cancel (call : ℕ)
  | evictCluster (clusterID : Bytes)

inductive CacheEvent (T ε : Type) where
  | idle
  | hit (call : ℕ) (request : ReadRequest) (value : T)
  | missed (call : ℕ) (request : ReadRequest)
  | flightHit (key : ReadKey) (value : T)
  | fetchStarted (number : ℕ) (request : ReadRequest)
  | fetched (number : ℕ) (outcome : FetchOutcome T ε)
  | stored (key : ReadKey) (value : T)
  | returned (call : ℕ) (request : ReadRequest) (result : Except (GetError ε) T)
  | evicted (clusterID : Bytes)

/-! ## The sections -/

namespace ReadCache

variable {T ε : Type} (sha256 : Bytes → Bytes)

def lookup (s : ReadCache T ε) (now : Time) (k : ReadKey) : Option T :=
  match s.map.entries k with
  | none => none
  | some e => if now < e.expiresAt then some e.value else none

def get (s : ReadCache T ε) (now : Time) (q : ReadRequest) : CacheEvent T ε × ReadCache T ε :=
  match s.lookup now (q.key sha256) with
  | some v => (.hit s.started q v, { s with started := s.started + 1 })
  | none =>
    (.missed s.started q, { s with
        started := s.started + 1
        calls := Function.update s.calls s.started (some ⟨q, .missed⟩) })

def setCall (s : ReadCache T ε) (n : ℕ) (q : ReadRequest) (stage : GetStage T ε) : ReadCache T ε :=
  { s with calls := Function.update s.calls n (some ⟨q, stage⟩) }

def setFlight (s : ReadCache T ε) (f : Bytes) (fl : Flight T ε) (stage : FlightStage T ε) :
    ReadCache T ε :=
  { s with flights := Function.update s.flights f (some { fl with stage }) }

/-- `DoChan`: the flight of the key is joined, or started with this call's fetch. -/
def join (s : ReadCache T ε) (n : ℕ) (q : ReadRequest) (gen : ℕ) : ReadCache T ε :=
  let f := (q.key sha256).flightKey gen
  let s := s.setCall n q (.waiting f)
  if (s.flights f).isSome then s
  else { s with flights := Function.update s.flights f (some ⟨q, gen, .lookup⟩) }

/-- The lookup of a flight; on a miss its fetch begins. -/
def flightLookup (s : ReadCache T ε) (now : Time) (f : Bytes)
    (fl : Flight T ε) : CacheEvent T ε × ReadCache T ε :=
  let k := fl.request.key sha256
  match s.lookup now k with
  | some v => (.flightHit k v, s.setFlight f fl (.ended (.ok v)))
  | none =>
    (.fetchStarted s.fetches fl.request,
      { s.setFlight f fl (.fetch s.fetches) with fetches := s.fetches + 1 })

/-- The value is stored unless the cluster was evicted after the generation was read. -/
def store (cfg : CacheConfig) (s : ReadCache T ε) (now : Time)
    (f : Bytes) (fl : Flight T ε) (v : T) : CacheEvent T ε × ReadCache T ε :=
  let k := fl.request.key sha256
  let done := s.setFlight f fl (.ended (.ok v))
  if s.gens k.clusterID ≠ fl.gen then (.idle, done)
  else (.stored k v, { done with map := s.map.put cfg.maxEntries k ⟨v, now + cfg.ttl⟩ })

def deliver (f : Bytes) (result : Except (GetError ε) T) (c : GetCall T ε) : GetCall T ε :=
  match c.stage with
  | .waiting f' => if f' = f then { c with stage := .answered result } else c
  | _ => c

def land (s : ReadCache T ε) (f : Bytes) (result : Except (GetError ε) T) : ReadCache T ε :=
  { s with
    flights := Function.update s.flights f none
    calls := fun n => (s.calls n).map (deliver f result) }

def finish (s : ReadCache T ε) (n : ℕ) : ReadCache T ε :=
  { s with calls := Function.update s.calls n none }

def evictCluster (s : ReadCache T ε) (clusterID : Bytes) : ReadCache T ε :=
  let c := normalizedClusterID clusterID
  { s with
    gens := Function.update s.gens c (s.gens c + 1)
    map := s.map.remove fun k => k.clusterID = c }

/-- An action that is not possible changes nothing. -/
def react (cfg : CacheConfig) (s : ReadCache T ε) (now : Time) :
    CacheAction T ε → CacheEvent T ε × ReadCache T ε
  | .get q => s.get sha256 now q
  | .generation n =>
    match s.calls n with
    | some ⟨q, .missed⟩ => (.idle, s.setCall n q (.keyed (s.gens (q.key sha256).clusterID)))
    | _ => (.idle, s)
  | .join n =>
    match s.calls n with
    | some ⟨q, .keyed gen⟩ => (.idle, s.join sha256 n q gen)
    | _ => (.idle, s)
  | .flightLookup f =>
    match s.flights f with
    | some ⟨q, gen, .lookup⟩ => s.flightLookup sha256 now f ⟨q, gen, .lookup⟩
    | _ => (.idle, s)
  | .fetched f outcome =>
    match s.flights f with
    | some ⟨q, gen, .fetch number⟩ =>
      (.fetched number outcome, s.setFlight f ⟨q, gen, .fetch number⟩ outcome.next)
    | _ => (.idle, s)
  | .store f =>
    match s.flights f with
    | some ⟨q, gen, .store v⟩ => s.store sha256 cfg now f ⟨q, gen, .store v⟩ v
    | _ => (.idle, s)
  | .land f =>
    match s.flights f with
    | some ⟨_, _, .ended result⟩ => (.idle, s.land f result)
    | _ => (.idle, s)
  | .receive n =>
    match s.calls n with
    | some ⟨q, .answered result⟩ => (.returned n q result, s.finish n)
    | _ => (.idle, s)
  | .cancel n =>
    match s.calls n with
    | some ⟨q, .waiting _⟩ => (.returned n q (.error .context), s.finish n)
    | some ⟨q, .answered _⟩ => (.returned n q (.error .context), s.finish n)
    | _ => (.idle, s)
  | .evictCluster clusterID => (.evicted (normalizedClusterID clusterID), s.evictCluster clusterID)

end ReadCache

def remoteCache (sha256 : Bytes → Bytes) (cfg : CacheConfig) (T ε : Type) :
    Reactive (ReadCache T ε) (Time × CacheAction T ε) (Time × CacheEvent T ε) where
  init := {}
  react s a :=
    let r := s.react sha256 cfg a.1 a.2
    ((a.1, r.1), r.2)

end KubeCenter.K8s
