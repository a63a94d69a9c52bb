import KubeCenter.Lib.Bytes
import KubeCenter.Lib.Go
import KubeCenter.Lib.Reactive
import Mathlib.Data.List.Sort

/-! # Permission checks and their cache

`AccessChecker.CanAccess` and `CanAccessGroupResource` of `access.go`, with the key under which
`client.go` and `cluster_router.go` share impersonating clients. A call may get any
client made for arguments with its key. -/
namespace KubeCenter.Resources
open Lib Go

def accessCacheTTL : Duration := 60 * second

/-! ## Questions -/

structure Identity where
  username : Bytes
  groups : List Bytes
deriving DecidableEq

/-- The entry point, and the resource it is asked about. -/
inductive AccessTarget where
  | resource (resource : Bytes)
  | groupResource (apiGroup resource : Bytes)
deriving DecidableEq

/-- `CanAccess` or `CanAccessGroupResource` with its arguments. -/
structure AccessCall where
  clusterID : Bytes
  identity : Identity
  verb : Bytes
  target : AccessTarget
  namespace_ : Bytes
deriving DecidableEq

structure ResourceAttributes where
  namespace_ : Bytes
  verb : Bytes
  resource : Bytes
  subresource : Bytes
  group : Bytes
deriving DecidableEq

/-- The API server it goes to, whom its client impersonates, and what it asks. -/
structure Review where
  cluster : Bytes
  identity : Identity
  attributes : ResourceAttributes
deriving DecidableEq

def isLocalClusterID (clusterID : Bytes) : Bool := clusterID = [] || clusterID = ascii "local"

/-- `clientForCluster`: the cluster whose API server is asked. -/
def targetCluster (clusterID : Bytes) : Bytes :=
  if isLocalClusterID clusterID then ascii "local" else clusterID

def apiGroupForResource (resource : Bytes) : Bytes :=
  if resource ∈ ["deployments", "statefulsets", "daemonsets", "replicasets"].map ascii then
    ascii "apps"
  else if resource ∈ ["jobs", "cronjobs"].map ascii then ascii "batch"
  else if resource ∈ ["ingresses", "networkpolicies"].map ascii then ascii "networking.k8s.io"
  else if resource = ascii "poddisruptionbudgets" then ascii "policy"
  else if resource = ascii "storageclasses" then ascii "storage.k8s.io"
  else if resource ∈ ["roles", "clusterroles", "rolebindings", "clusterrolebindings"].map ascii then
    ascii "rbac.authorization.k8s.io"
  else if resource ∈ ["prometheusrules", "servicemonitors", "podmonitors", "alertmanagers",
      "alertmanagerconfigs"].map ascii then
    ascii "monitoring.coreos.com"
  else if resource ∈ ["ciliumnetworkpolicies", "ciliumclusterwidenetworkpolicies"].map ascii then
    ascii "cilium.io"
  else []

def slash : UInt8 := byte '/'
def comma : UInt8 := byte ','

/-- `strings.Index(resource, "/")`, when it is positive. -/
def splitResource (resource : Bytes) : Bytes × Bytes :=
  let idx := resource.idxOf slash
  if 0 < idx ∧ idx < resource.length then (resource.take idx, resource.drop (idx + 1))
  else (resource, [])

def AccessCall.attributes (c : AccessCall) : ResourceAttributes :=
  match c.target with
  | .resource resource =>
    let (res, subres) := splitResource resource
    ⟨c.namespace_, c.verb, res, subres, apiGroupForResource res⟩
  | .groupResource apiGroup resource => ⟨c.namespace_, c.verb, resource, [], apiGroup⟩

/-- The review asks the question of the call, for its identity. -/
def Review.asks (r : Review) (c : AccessCall) : Bool :=
  r.cluster = targetCluster c.clusterID && r.identity.username = c.identity.username &&
    r.identity.groups.all (· ∈ c.identity.groups) &&
    c.identity.groups.all (· ∈ r.identity.groups) && r.attributes = c.attributes

/-! ## Keys -/

structure AccessCacheKey where
  clusterID : Bytes
  username : Bytes
  groups : Bytes
  resource : Bytes
  namespace_ : Bytes
  verb : Bytes
deriving DecidableEq

def sortStrings (groups : List Bytes) : List Bytes := groups.insertionSort (· ≤ ·)

def sortedGroups (groups : List Bytes) : Bytes :=
  if groups.length = 0 then [] else [comma].intercalate (sortStrings groups)

def AccessCall.key (c : AccessCall) : AccessCacheKey where
  clusterID := c.clusterID
  username := c.identity.username
  groups := sortedGroups c.identity.groups
  resource :=
    match c.target with
    | .resource resource => resource
    | .groupResource apiGroup resource => apiGroup ++ [slash] ++ resource
  namespace_ := c.namespace_
  verb := c.verb

/-- What `cacheKey` of `client.go` hashes. -/
def Identity.text (i : Identity) : Bytes :=
  i.username ++ [0] ++ [(0 : UInt8)].intercalate (sortStrings i.groups)

/-! ## The checker -/

structure AccessCacheEntry where
  allowed : Bool
  expiresAt : Time
deriving DecidableEq

structure PendingReview where
  number : ℕ
  call : AccessCall
  review : Review
  issuedAt : Time
deriving DecidableEq

structure Checker where
  cache : AccessCacheKey → Option AccessCacheEntry := fun _ => none
  waiting : List (ℕ × AccessCall) := []
  reviews : List PendingReview := []
  calls : ℕ := 0

inductive AccessAction where
  | call (c : AccessCall)
  /-- A client is there for the call, made for an identity, or could not be made. -/
  | client (number : ℕ) (made : Option Identity)
  /-- The API server answered the review, or the request failed. -/
  | reviewed (number : ℕ) (allowed : Option Bool)
  /-- The sweeper, or a call that found an expired entry a moment ago, deletes an entry. -/
  | delete (key : AccessCacheKey)
deriving DecidableEq

inductive AccessEvent where
  | idle
  | hit (c : AccessCall) (allowed : Bool)
  | missed (c : AccessCall)
  | failed (c : AccessCall)
  | issued (number : ℕ) (review : Review)
  | returned (number : ℕ) (c : AccessCall) (allowed : Bool)
deriving DecidableEq

def AccessEvent.answer : AccessEvent → Option (AccessCall × Bool)
  | .hit c allowed => some (c, allowed)
  | .returned _ c allowed => some (c, allowed)
  | _ => none

namespace Checker

def miss (s : Checker) (c : AccessCall) : AccessEvent × Checker :=
  (.missed c, { s with waiting := (s.calls, c) :: s.waiting, calls := s.calls + 1 })

def lookup (s : Checker) (now : Time) (c : AccessCall) : AccessEvent × Checker :=
  match s.cache c.key with
  | some entry =>
    if now < entry.expiresAt then (.hit c entry.allowed, s)
    else { s with cache := Function.update s.cache c.key none }.miss c
  | none => s.miss c

/-- By a client that was handed out under the key of the call's identity. -/
def issue (sha256 : Bytes → Bytes) (s : Checker) (now : Time) (number : ℕ) (c : AccessCall)
    (made : Option Identity) : AccessEvent × Checker :=
  let rest := { s with waiting := s.waiting.filter (·.1 ≠ number) }
  match made with
  | none => (.failed c, rest)
  | some i =>
    if sha256 i.text = sha256 c.identity.text then
      let review : Review := ⟨targetCluster c.clusterID, i, c.attributes⟩
      (.issued number review, { rest with reviews := ⟨number, c, review, now⟩ :: s.reviews })
    else (.idle, s)

def settle (s : Checker) (now : Time) (p : PendingReview) (allowed : Option Bool) :
    AccessEvent × Checker :=
  let rest := { s with reviews := s.reviews.filter (·.number ≠ p.number) }
  match allowed with
  | none => (.failed p.call, rest)
  | some b =>
    (.returned p.number p.call b, { rest with
        cache := Function.update s.cache p.call.key (some ⟨b, now + accessCacheTTL⟩) })

def react (sha256 : Bytes → Bytes) (s : Checker) (now : Time) : AccessAction → AccessEvent × Checker
  | .call c => s.lookup now c
  | .client number made =>
    match s.waiting.find? (·.1 = number) with
    | none => (.idle, s)
    | some w => s.issue sha256 now number w.2 made
  | .reviewed number allowed =>
    match s.reviews.find? (·.number = number) with
    | none => (.idle, s)
    | some p => s.settle now p allowed
  | .delete key => (.idle, { s with cache := Function.update s.cache key none })

end Checker

def accessChecker (sha256 : Bytes → Bytes) :
    Reactive Checker (Time × AccessAction) (Time × AccessEvent) where
  init := {}
  react s a :=
    let r := s.react sha256 a.1 a.2
    ((a.1, r.1), r.2)

end KubeCenter.Resources
