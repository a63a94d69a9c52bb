import Mathlib.Data.List.Induction
import KubeCenter.Lib.Machine

/-! # Machines that answer every action with an event

A reactive machine is an initial state and a total step that also says what happened. A run has a
last state and a trace, the events in order; the rules carry an invariant over both. -/
namespace KubeCenter.Lib
open List

theorem getElem?_concat_cases {α : Type*} {l : List α} {a b : α} {x : ℕ}
    (h : (l ++ [a])[x]? = some b) : l[x]? = some b ∨ (x = l.length ∧ b = a) := by
  by_cases hx : x < l.length
  · rw [getElem?_append_left hx] at h
    exact .inl h
  · rw [List.getElem?_append_right (Nat.not_lt.mp hx)] at h
    obtain ⟨hzr, hb⟩ := List.getElem?_eq_some_iff.mp h
    have hln : x = l.length := by
      rw [length_singleton] at hzr
      omega
    subst hln
    exact .inr ⟨rfl, by simpa using hb.symm⟩

theorem getElem?_of_take {α : Type*} {l : List α} {a : α} {i x : ℕ}
    (h : (l.take i)[x]? = some a) : x < i ∧ l[x]? = some a := by
  rw [getElem?_take] at h
  split at h
  next hx => exact ⟨hx, h⟩
  · cases h

structure Reactive (σ α ε : Type*) where
  init : σ
  react : σ → α → ε × σ

namespace Reactive

variable {σ α ε : Type*} (M : Reactive σ α ε)

def runFrom (s : σ) (as : List α) : σ := as.foldl (fun t a => (M.react t a).2) s

def traceFrom : σ → List α → List ε
  | _, [] => []
  | s, a :: as => (M.react s a).1 :: traceFrom (M.react s a).2 as

def run (as : List α) : σ := M.runFrom M.init as

def trace (as : List α) : List ε := M.traceFrom M.init as

def event (as : List α) (a : α) : ε := (M.react (M.run as) a).1

theorem runFrom_append (s : σ) (as bs : List α) :
    M.runFrom s (as ++ bs) = M.runFrom (M.runFrom s as) bs := foldl_append

theorem run_append (as bs : List α) : M.run (as ++ bs) = M.runFrom (M.run as) bs :=
  M.runFrom_append M.init as bs

theorem run_append_cons (as : List α) (a : α) (bs : List α) :
    M.run (as ++ a :: bs) = M.runFrom (M.run (as ++ [a])) bs := by
  rw [← M.run_append, append_assoc, singleton_append]

theorem run_concat (as : List α) (a : α) : M.run (as ++ [a]) = (M.react (M.run as) a).2 :=
  M.run_append as [a]

theorem traceFrom_append (s : σ) (as bs : List α) :
    M.traceFrom s (as ++ bs) = M.traceFrom s as ++ M.traceFrom (M.runFrom s as) bs := by
  induction as generalizing s with
  | nil => rfl
  | cons a as ih => exact congrArg ((M.react s a).1 :: ·) (ih _)

theorem trace_append (as bs : List α) :
    M.trace (as ++ bs) = M.trace as ++ M.traceFrom (M.run as) bs :=
  M.traceFrom_append M.init as bs

theorem trace_concat (as : List α) (a : α) : M.trace (as ++ [a]) = M.trace as ++ [M.event as a] :=
  M.trace_append as [a]

variable {M}

variable {P : σ → List ε → Prop} {as : List α} {i : ℕ}

/-- What holds with no event yet and is kept by every action holds of last state and trace. -/
theorem runFrom_inv {s : σ} (hsta : P s [])
    (hst : ∀ t es a, P t es → P (M.react t a).2 (es ++ [(M.react t a).1])) (as : List α) :
    P (M.runFrom s as) (M.traceFrom s as) := by
  induction as using List.reverseRecOn with
  | nil => exact hsta
  | append_singleton as a ih =>
    rw [M.runFrom_append, M.traceFrom_append]
    exact hst _ _ a ih

theorem run_inv (hin : P M.init [])
    (hst : ∀ t es a, P t es → P (M.react t a).2 (es ++ [(M.react t a).1])) (as : List α) :
    P (M.run as) (M.trace as) :=
  runFrom_inv hin hst as

theorem run_inv_of_split {all : List α} (hin : P M.init [])
    (hst : ∀ as a bs, all = as ++ a :: bs → P (M.run as) (M.trace as) →
      P (M.react (M.run as) a).2 (M.trace as ++ [M.event as a])) (as bs : List α)
    (hall : all = as ++ bs) : P (M.run as) (M.trace as) := by
  induction as using List.reverseRecOn generalizing bs with
  | nil => exact hin
  | append_singleton as a ih =>
    rw [append_assoc, singleton_append] at hall
    rw [run_concat, trace_concat]
    exact hst as a bs hall (ih (a :: bs) hall)

/-! ## Positions in a trace -/

theorem split_of_trace {e : ε} (h : (M.trace as)[i]? = some e) :
    ∃ before a after, as = before ++ a :: after ∧ M.event before a = e ∧
      M.trace before = (M.trace as).take i := by
  induction as using List.reverseRecOn with
  | nil => simp [trace, traceFrom] at h
  | append_singleton as a ih =>
    rw [trace_concat] at h ⊢
    rcases getElem?_concat_cases h with h | ⟨rfl, rfl⟩
    · obtain ⟨before, b, after, rfl, he, htr⟩ := ih h
      have hi := (List.getElem?_eq_some_iff.mp h).1
      refine ⟨before, b, after ++ [a], by simp, he, ?_⟩
      rw [take_append_of_le_length (Nat.le_of_lt hi), htr]
    · exact ⟨as, a, [], rfl, rfl, by rw [take_left]⟩

theorem length_trace (as : List α) : (M.trace as).length = as.length := by
  induction as using List.reverseRecOn with
  | nil => rfl
  | append_singleton as a ih => rw [trace_concat, length_append, length_append, ih]; rfl

theorem trace_take (as : List α) (i : ℕ) : M.trace (as.take i) = (M.trace as).take i := by
  have hsp := M.trace_append (as.take i) (as.drop i)
  rw [take_append_drop] at hsp
  rw [hsp, take_append, length_trace, length_take]
  have hfi : (M.trace (as.take i)).take i = M.trace (as.take i) :=
    take_of_length_le (by rw [length_trace, length_take]; omega)
  rw [hfi]
  by_cases hi : i ≤ as.length
  · simp [hi]
  · rw [drop_of_length_le (by omega)]
    simp [traceFrom]

theorem event_at {e : ε} (h : (M.trace as)[i]? = some e) :
    ∃ a, as = as.take i ++ a :: as.drop (i + 1) ∧ (M.react (M.run (as.take i)) a).1 = e ∧
      M.run (as.take (i + 1)) = (M.react (M.run (as.take i)) a).2 := by
  have hi : i < as.length := by
    rw [← M.length_trace]
    exact (List.getElem?_eq_some_iff.mp h).1
  obtain ⟨before, a, after, rfl, he, htr⟩ := split_of_trace h
  have hln : before.length = i := by
    rw [← M.length_trace, htr, length_take, length_trace]
    omega
  subst hln
  have hnx : (before ++ a :: after).take (before.length + 1) = before ++ [a] := by
    rw [take_length_add_append]
    rfl
  refine ⟨a, by simp, ?_, ?_⟩
  · rw [take_left]
    exact he
  · rw [take_left, hnx, run_concat]

theorem run_take_inv {P : σ → Prop} (hst : ∀ s a, P s → P (M.react s a).2) {j : ℕ} (hij : i ≤ j)
    (h : P (M.run (as.take i))) : P (M.run (as.take j)) := by
  have hsp := take_append_drop i (as.take j)
  rw [take_take, Nat.min_eq_left hij] at hsp
  rw [← hsp, run_append]
  exact runFrom_inv (P := fun s _ => P s) h (fun s _ a => hst s a) _

end Reactive

/-- An event of a kind stands before a place that at least as many events of the kind
precede as precede a later place. -/
theorem lt_of_countP_take_le {α : Type*} {p} {l : List α} {x j k : ℕ} {a : α} (hx : l[x]? = some a)
    (hp : p a = true) (hj : x < j) (h : (l.take j).countP p ≤ (l.take k).countP p) : x < k := by
  by_contra hk
  rw [Nat.not_lt] at hk
  have hone : (l.take (x + 1)).countP p = (l.take x).countP p + 1 := by
    rw [take_add_one, hx, countP_append]
    simp [hp]
  have hlt : (l.take (x + 1)).countP p ≤ (l.take j).countP p :=
    (take_sublist_take_left hj).countP_le
  have her : (l.take k).countP p ≤ (l.take x).countP p := (take_sublist_take_left hk).countP_le
  omega

end KubeCenter.Lib
