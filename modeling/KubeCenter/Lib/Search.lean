import Mathlib.Data.List.Nodup
import Mathlib.Logic.Relation
import Mathlib.Tactic.Common

/-! # Breadth-first search

A queue search over labelled neighbours. A vertex that `stop` names is marked and left alone; any
other new vertex is queued and recorded with the label it was found by. Each vertex is queued once,
so a round for the start and for each neighbour there is empties the queue. -/
namespace KubeCenter.Lib
open List Relation

structure Frontier (α ε : Type*) where
  visited : List α
  queue : List α
  found : List (α × ε)

namespace Frontier

variable {α ε : Type*} [DecidableEq α] (stop : α → Bool) (adj : α → List (α × ε))

def meet (s : Frontier α ε) (e : α × ε) : Frontier α ε :=
  if e.1 ∈ s.visited then s
  else if stop e.1 then { s with visited := e.1 :: s.visited }
  else ⟨e.1 :: s.visited, s.queue ++ [e.1], s.found ++ [e]⟩

def search : ℕ → Frontier α ε → Frontier α ε
  | 0, s => s
  | fuel + 1, s =>
    match s.queue with
    | [] => s
    | current :: queue => search fuel ((adj current).foldl (meet stop) { s with queue })

/-- The search goes from `u` on to `v`. -/
def Step (u v : α) : Prop := stop v = false ∧ ∃ label, (v, label) ∈ adj u

/-- The vertices a search from `start` gets to. -/
def Reach (start : α) : α → Prop := ReflTransGen (Step stop adj) start

variable {stop adj} {start : α} {s : Frontier α ε} {todo : List (α × ε)} {current : α}

/-- In the round of `current`, with the neighbours in `todo` still to be met. -/
structure Inv (stop : α → Bool) (adj : α → List (α × ε)) (start current : α) (todo : List (α × ε))
    (s : Frontier α ε) : Prop where
  started : start ∈ s.visited
  queued : ∀ v ∈ s.queue, Reach stop adj start v ∧ v ∈ s.visited
  closed : ∀ v ∈ s.visited, v ∈ s.queue ∨ (stop v = true ∧ v ≠ start) ∨
    ∀ e ∈ adj v, e.1 ∈ s.visited ∨ v = current ∧ e ∈ todo
  found : ∀ e ∈ s.found, ∃ u, Reach stop adj start u ∧ e ∈ adj u
  nodup : (s.found.map Prod.fst).Nodup
  mem_found : ∀ v, v ∈ s.found.map Prod.fst ↔ v ∈ s.visited ∧ v ≠ start ∧ stop v = false

theorem Inv.meet {e : α × ε} (h : Inv stop adj start current (e :: todo) s)
    (hc : Reach stop adj start current) (he : e ∈ adj current) :
    Inv stop adj start current todo (s.meet stop e) := by
  obtain ⟨started, queued, closed, found, nodup, mem_found⟩ := h
  unfold Frontier.meet
  split
  next hv =>
    exact ⟨started, queued, by grind, found, nodup, mem_found⟩
  next hv =>
    split
    next hs => exact ⟨by grind, by grind, by grind, found, nodup, by grind⟩
    next hs =>
      have hreach : Reach stop adj start e.1 := ReflTransGen.tail hc ⟨by simpa using hs, _, he⟩
      refine ⟨by grind, by grind, by grind, by grind, ?_, by grind⟩
      simp only [map_append, map_cons, map_nil]
      grind

/-- The rounds to come: one for each vertex in the queue, and for each that may still be met. -/
def rounds (ids : List α) (s : Frontier α ε) : ℕ :=
  s.queue.length + (ids.filter (· ∉ s.visited)).length

theorem rounds_meet {ids : List α} {e : α × ε} (he : e.1 ∈ ids) :
    rounds ids (s.meet stop e) ≤ rounds ids s := by
  have hlt : e.1 ∉ s.visited → (ids.filter (· ∉ e.1 :: s.visited)).length <
      (ids.filter (· ∉ s.visited)).length := by
    intro hv
    have heq : ids.filter (· ∉ e.1 :: s.visited) =
        (ids.filter (· ∉ s.visited)).filter (· ≠ e.1) := by
      rw [filter_filter]
      exact filter_congr fun v _ => by simp
    rw [heq]
    exact length_filter_lt_length_iff_exists.mpr ⟨e.1, by simp [he, hv], by simp⟩
  unfold rounds Frontier.meet
  grind

theorem Inv.meets {ids : List α} (h : Inv stop adj start current todo s)
    (hc : Reach stop adj start current) (hsub : todo ⊆ adj current)
    (hids : ∀ e ∈ adj current, e.1 ∈ ids) :
    Inv stop adj start current [] (todo.foldl (Frontier.meet stop) s) ∧
    rounds ids (todo.foldl (Frontier.meet stop) s) ≤ rounds ids s := by
  induction todo generalizing s with
  | nil => exact ⟨h, Nat.le_refl _⟩
  | cons e todo ih =>
    obtain ⟨he, hsub⟩ := cons_subset.mp hsub
    obtain ⟨hinv, hle⟩ := ih (h.meet hc he) hsub
    exact ⟨hinv, Nat.le_trans hle (rounds_meet (hids e he))⟩

theorem Inv.search {ids : List α} (hids : ∀ u, ∀ e ∈ adj u, e.1 ∈ ids) {fuel : ℕ}
    (h : Inv stop adj start current [] s) (hfuel : rounds ids s ≤ fuel) :
    ∃ current, Inv stop adj start current [] (search stop adj fuel s) ∧
      (search stop adj fuel s).queue = [] := by
  induction fuel generalizing s current with
  | zero =>
    unfold rounds at hfuel
    exact ⟨current, h, length_eq_zero_iff.mp (show s.queue.length = 0 by omega)⟩
  | succ fuel ih =>
    unfold Frontier.search
    cases hq : s.queue with
    | nil => exact ⟨current, h, hq⟩
    | cons v queue =>
      have hstart : Inv stop adj start v (adj v) { s with queue } := by
        obtain ⟨started, queued, closed, found, nodup, mem_found⟩ := h
        exact ⟨started, by grind, by grind, found, nodup, mem_found⟩
      have hreach : Reach stop adj start v := (h.queued v (by grind)).1
      obtain ⟨hinv, hle⟩ := hstart.meets hreach (Subset.refl _) (hids v)
      refine ih hinv (Nat.le_trans hle ?_)
      unfold rounds at hfuel ⊢
      grind

variable (stop adj) in
/-- The search ends, and every vertex it gets to but the start is recorded, once, by an edge from
such a one. -/
theorem search_exact (start : α) {ids : List α} {fuel : ℕ} (hfuel : ids.length < fuel)
    (hids : ∀ u, ∀ e ∈ adj u, e.1 ∈ ids) :
    let found := (search stop adj fuel ⟨[start], [start], []⟩).found
    (search stop adj fuel ⟨[start], [start], []⟩).queue = [] ∧ (found.map Prod.fst).Nodup ∧
    (∀ v, v ∈ found.map Prod.fst ↔ v ≠ start ∧ Reach stop adj start v) ∧
    ∀ e ∈ found, ∃ u, Reach stop adj start u ∧ e ∈ adj u := by
  have hinit : Inv stop adj start start [] ⟨[start], [start], []⟩ :=
    ⟨by simp, by simp [Reach, ReflTransGen.refl], by simp, by simp, by simp, by grind⟩
  have hrounds : rounds ids (⟨[start], [start], []⟩ : Frontier α ε) ≤ fuel := by
    have := length_filter_le (· ∉ [start]) ids
    simp only [rounds, length_singleton]
    omega
  obtain ⟨current, h, hq⟩ := hinit.search hids hrounds
  have hvisited : ∀ v, Reach stop adj start v → (v = start ∨ stop v = false) ∧
      v ∈ (search stop adj fuel ⟨[start], [start], []⟩).visited := by
    intro v hv
    induction hv with
    | refl => exact ⟨.inl rfl, h.started⟩
    | @tail u v _ hstep ih =>
      obtain ⟨hs, label, hmem⟩ := hstep
      have hclosed := h.closed u ih.2
      exact ⟨.inr hs, by grind⟩
  refine ⟨hq, h.nodup, fun v => ⟨fun hv => ?_, fun ⟨hne, hv⟩ => ?_⟩, h.found⟩
  · obtain ⟨-, hne, hs⟩ := (h.mem_found v).mp hv
    obtain ⟨e, he, rfl⟩ := mem_map.mp hv
    obtain ⟨u, hu, hmem⟩ := h.found e he
    exact ⟨hne, ReflTransGen.tail hu ⟨hs, _, hmem⟩⟩
  · obtain ⟨hs, hmem⟩ := hvisited v hv
    exact (h.mem_found v).mpr ⟨hmem, hne, hs.resolve_left hne⟩

end Frontier

end KubeCenter.Lib
