import KubeCenter.Lib.Search

/-! # The blast radius of a resource

`ComputeBlastRadius` of `diagnostics/blast.go`: one search over the edges of a topology graph, down
from the target through what is not idle, and one up. An edge may end at an id without a node: the
search goes on there, and lists nothing. -/
namespace KubeCenter.Diagnostics
open Lib List

inductive EdgeType
  | owner
  | selector
  | mount
  | ingress
  /-- Of an overlay. -/
  | other (text : String)

structure Node where
  id : String
  kind : String
  name : String
  health : String
  idle : Bool

structure Edge where
  source : String
  target : String
  type : EdgeType

structure Graph where
  nodes : List Node
  edges : List Edge

structure AffectedResource where
  kind : String
  name : String
  health : String
  impact : String

structure BlastResult where
  directlyAffected : List AffectedResource
  potentiallyAffected : List AffectedResource

inductive Direction
  | downstream
  | upstream

def Edge.ends (e : Edge) : Direction → String × String
  | .downstream => (e.source, e.target)
  | .upstream => (e.target, e.source)

def impactDescription : EdgeType → Direction → String
  | .owner, .downstream => "Owned resource — will fail with parent"
  | .owner, .upstream => "Owner — may be degraded by child failure"
  | .selector, .downstream => "Selected resource — traffic may be affected"
  | .selector, .upstream => "Selector source — routing depends on this resource"
  | .mount, .downstream => "Mounted volume — data dependency"
  | .mount, .upstream => "Mount consumer — depends on this volume"
  | .ingress, .downstream => "Backend service — ingress traffic affected"
  | .ingress, .upstream => "Ingress — external traffic may be affected"
  | .other _, .downstream => "Related (downstream)"
  | .other _, .upstream => "Related (upstream)"

namespace Graph

variable (g : Graph)

/-- `nodeMap`: of nodes with one id the last. -/
def node (id : String) : Option Node := g.nodes.reverse.find? (·.id = id)

/-- `children` or `parents`. -/
def neighbours (dir : Direction) (id : String) : List (String × EdgeType) :=
  (g.edges.filter fun e => (e.ends dir).1 = id).map fun e => ((e.ends dir).2, e.type)

/-- What the search passes over: going down, idle nodes. -/
def passedOver (dir : Direction) (id : String) : Bool :=
  match dir with
  | .downstream => (g.node id).any (·.idle)
  | .upstream => false

def affected (dir : Direction) (e : String × EdgeType) : Option AffectedResource :=
  (g.node e.1).map fun n => ⟨n.kind, n.name, n.health, impactDescription e.2 dir⟩

/-- One of the two loops. The number of edges bounds its rounds. -/
def loop (dir : Direction) (targetID : String) : Frontier String EdgeType :=
  Frontier.search (g.passedOver dir) (g.neighbours dir) (g.edges.length + 1)
    ⟨[targetID], [targetID], []⟩

def reached (dir : Direction) (targetID : String) : List AffectedResource :=
  (g.loop dir targetID).found.filterMap (g.affected dir)

end Graph

def computeBlastRadius (g : Option Graph) (targetID : String) : BlastResult :=
  match g with
  | none => ⟨[], []⟩
  | some g =>
    if targetID = "" then ⟨[], []⟩
    else ⟨g.reached .downstream targetID, g.reached .upstream targetID⟩

/-- The list names, once each, the nodes but the target that are reached from it in a direction,
each as an edge from a reached vertex shows it. -/
def ListsReached (g : Graph) (dir : Direction) (targetID : String)
    (affected : List AffectedResource) : Prop :=
  ∃ found : List (String × EdgeType), affected = found.filterMap (g.affected dir) ∧
    (found.map Prod.fst).Nodup ∧
    (∀ id, id ∈ found.map Prod.fst ↔
      id ≠ targetID ∧ Frontier.Reach (g.passedOver dir) (g.neighbours dir) targetID id) ∧
    ∀ e ∈ found, ∃ u, Frontier.Reach (g.passedOver dir) (g.neighbours dir) targetID u ∧
      e ∈ g.neighbours dir u

theorem listsReached (g : Graph) (dir : Direction) (targetID : String) :
    (g.loop dir targetID).queue = [] ∧ ListsReached g dir targetID (g.reached dir targetID) := by
  have hlen : (g.edges.map fun e => (e.ends dir).2).length < g.edges.length + 1 := by simp
  obtain ⟨hend, hfound⟩ :=
    Frontier.search_exact (g.passedOver dir) (g.neighbours dir) targetID hlen fun u e he => by
      obtain ⟨x, hx, rfl⟩ := mem_map.mp he
      exact mem_map.mpr ⟨x, mem_of_mem_filter hx, rfl⟩
  exact ⟨hend, _, rfl, hfound⟩

/-- **The blast radius is exact** for every graph, with cycles, parallel edges and loose ends: both
loops end with an empty queue. -/
theorem blast_radius_exact (g : Graph) (targetID : String) (h : targetID ≠ "") :
    (∀ dir, (g.loop dir targetID).queue = []) ∧
    ListsReached g .downstream targetID (computeBlastRadius (some g) targetID).directlyAffected ∧
    ListsReached g .upstream targetID
      (computeBlastRadius (some g) targetID).potentiallyAffected := by
  simp only [computeBlastRadius, if_neg h]
  exact ⟨fun dir => (listsReached g dir targetID).1, (listsReached g .downstream targetID).2,
    (listsReached g .upstream targetID).2⟩

/-- A Service, a Pod that leads back to it, and a volume without a node. -/
private def shopGraph : Graph where
  nodes := [⟨"svc", "Service", "shop", "healthy", false⟩, ⟨"pod", "Pod", "web", "failing", false⟩]
  edges := [⟨"svc", "pod", .selector⟩, ⟨"pod", "svc", .other "mesh"⟩, ⟨"pod", "pvc", .mount⟩]

theorem blast_radius_exact_shop :
    (computeBlastRadius (some shopGraph) "svc").directlyAffected =
      [⟨"Pod", "web", "failing", "Selected resource — traffic may be affected"⟩] ∧
    ListsReached shopGraph .downstream "svc"
      (computeBlastRadius (some shopGraph) "svc").directlyAffected :=
  ⟨by rfl, (blast_radius_exact shopGraph "svc" (by decide)).2.1⟩

end KubeCenter.Diagnostics
