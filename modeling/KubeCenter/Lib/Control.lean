import Mathlib.Data.Nat.Notation
import Mathlib.Tactic.Common

/-! # Checks, loops and tallies

Rules for straight code: a chain of checks in `Except` ends well when every check does; the
invariant of a loop over a list speaks of the elements it has done; a tally kept on the way to a
value never feeds back into it. -/
namespace KubeCenter.Lib

/-! ## Chains of checks -/

section Checks

variable {ε ε' α γ : Type}

theorem ite_error_ok_iff {c : Prop} [Decidable c] {e : ε} {k : Except ε α} {a : α} :
    (if c then .error e else k) = .ok a ↔ ¬ c ∧ k = .ok a := by
  by_cases hc : c <;> simp [hc]

theorem bind_ok_iff {x y : Except ε Unit} : (do x; y) = Except.ok () ↔ x = .ok () ∧ y = .ok () := by
  cases x with
  | error e => exact ⟨nofun, fun h => (nomatch h.1)⟩
  | ok u => exact ⟨fun h => ⟨rfl, h⟩, fun h => h.2⟩

theorem except_bind_eq_ok {x : Except ε α} {f} {b : γ} :
    (x >>= f) = .ok b ↔ ∃ a, x = .ok a ∧ f a = .ok b := by
  cases x with
  | error | ok => simp [bind, Except.bind]

theorem guard_eq_ok {p : Prop} [Decidable p] {e : ε} {f : α → Except ε γ} {rest : Except ε γ}
    {b : γ} : (if p then (throw e >>= f) else rest) = .ok b ↔ ¬ p ∧ rest = .ok b :=
  ite_error_ok_iff

theorem mapError_eq_ok {f : ε → ε'} {x : Except ε α} {a : α} :
    x.mapError f = .ok a ↔ x = .ok a := by
  cases x <;> simp [Except.mapError]

theorem map_eq_ok {f} {x : Except ε α} {b : γ} : x.map f = .ok b ↔ ∃ a, x = .ok a ∧ f a = b := by
  cases x <;> simp [Except.map]

end Checks

/-! ## Loops that remember what they have done -/

section Loops

variable {α σ : Type*}

theorem foldl_inv {f : σ → α → σ} {P : List α → σ → Prop}
    (step : ∀ done a s, P done s → P (done ++ [a]) (f s a)) {xs done : List α} {s : σ}
    (hs : P done s) : P (done ++ xs) (xs.foldl f s) := by
  induction xs generalizing s done with
  | nil => simpa using hs
  | cons a xs ih => simpa using ih (step done a s hs)

theorem foldlM_inv {f : σ → α → Option σ} {P : List α → σ → Prop} {xs done : List α} {s t : σ}
    (step : ∀ a ∈ xs, ∀ done s t, P done s → f s a = some t → P (done ++ [a]) t)
    (hs : P done s) (h : xs.foldlM f s = some t) : P (done ++ xs) t := by
  induction xs generalizing s done with
  | nil =>
    cases h
    simpa using hs
  | cons a xs ih =>
    rw [List.foldlM_cons] at h
    obtain ⟨u, hu, h⟩ := Option.bind_eq_some_iff.1 h
    have hrs := ih (fun b hb => step b (List.mem_cons_of_mem a hb))
      (step a List.mem_cons_self done s u hs hu) h
    simpa using hrs

theorem foldlM_append_some {f} {xs ys : List α} {s u : σ} (h : (xs ++ ys).foldlM f s = some u) :
    ∃ t, xs.foldlM f s = some t ∧ ys.foldlM f t = some u := by
  rw [List.foldlM_append] at h
  exact Option.bind_eq_some_iff.1 h

end Loops

/-! ## Computations that keep a tally -/

structure Logged (ω α : Type*) where
  value : α
  log : ω

namespace Logged

variable {ω α β : Type} [Zero ω] [Add ω]

instance : Monad (Logged ω) where
  pure a := ⟨a, 0⟩
  bind x f := ⟨(f x.value).value, x.log + (f x.value).log⟩

def tell (w : ω) : Logged ω Unit := ⟨(), w⟩

@[simp] theorem value_pure (a : α) : (pure a : Logged ω α).value = a := rfl

@[simp] theorem value_bind (x : Logged ω α) (f : α → Logged ω β) :
    (x >>= f).value = (f x.value).value := rfl

@[simp] theorem value_foldlM (f : β → α → Logged ω β) (xs : List α) (b : β) :
    (xs.foldlM f b).value = xs.foldl (fun b x => (f b x).value) b := by
  induction xs generalizing b with
  | nil => rfl
  | cons x xs ih => simp [ih]

end Logged

end KubeCenter.Lib
