import Mathlib.Logic.Function.Basic
import Mathlib.Tactic.Common

/-! # Numbered calls that run side by side

Calls are kept under their numbers while they run, and may hold locks until they end. -/
namespace KubeCenter.Lib
open Function (update update_apply update_of_ne update_self)

section Update

variable {κ γ : Type*} [DecidableEq κ] {calls : κ → Option γ} {k k' : κ} {c c' : γ}

theorem update_some_cases (h : update calls k (some c) k' = some c') :
    (k' = k ∧ c' = c) ∨ (k' ≠ k ∧ calls k' = some c') := by
  by_cases hk : k' = k
  · subst hk
    rw [update_self, Option.some.injEq] at h
    exact .inl ⟨rfl, h.symm⟩
  · rw [update_of_ne hk] at h
    exact .inr ⟨hk, h⟩

theorem forall_update {P : κ → γ → Prop} (h : ∀ k c, calls k = some c → P k c) (hc : P k c) :
    ∀ k' c', update calls k (some c) k' = some c' → P k' c' := by
  intro k' c' hc'
  rcases update_some_cases hc' with ⟨rfl, rfl⟩ | ⟨-, hc'⟩
  · exact hc
  · exact h k' c' hc'

theorem update_none_cases (h : update calls k none k' = some c') : k' ≠ k ∧ calls k' = some c' := by
  by_cases hk : k' = k
  · subst hk
    rw [update_self] at h
    cases h
  · rw [update_of_ne hk] at h
    exact ⟨hk, h⟩

omit [DecidableEq κ] in
theorem ne_of_unused (h : calls k = none) (hc : calls k' = some c) : k' ≠ k := by
  rintro rfl
  rw [h] at hc
  cases hc

theorem update_none_of_none (h : calls k' = none) : update calls k none k' = none := by
  rw [update_apply]
  split
  · rfl
  · exact h

end Update

section Unused

variable {γ : Type*} {calls : ℕ → Option γ} {n k k' : ℕ} {c : γ}

theorem lt_of_running (h : ∀ k, n ≤ k → calls k = none) (hc : calls k = some c) : k < n := by
  by_contra hk
  rw [h k (Nat.not_lt.mp hk)] at hc
  cases hc

theorem unused_update (h : ∀ k, n ≤ k → calls k = none) (hc : calls k = some c) (x : Option γ)
    (hk' : n ≤ k') : update calls k x k' = none := by
  have hlt := lt_of_running h hc
  rw [update_of_ne (by omega), h k' hk']

theorem unused_start (h : ∀ k, n ≤ k → calls k = none) (x : Option γ) (hk' : n + 1 ≤ k') :
    update calls n x k' = none := by
  rw [update_of_ne (by omega), h k' (by omega)]

end Unused

def unlock (locks : ℕ → Option ℕ) (k : ℕ) (h : ℕ) : Option ℕ :=
  if locks h = some k then none else locks h

theorem unlock_of_ne {locks} {k k' h : ℕ} (hk : k' ≠ k) (hhd : locks h = some k') :
    unlock locks k h = some k' := by
  have hne : locks h ≠ some k := by
    rw [hhd]
    exact fun heq => hk (Option.some.inj heq)
  rw [unlock, if_neg hne, hhd]

end KubeCenter.Lib
