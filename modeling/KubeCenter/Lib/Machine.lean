import Mathlib.Tactic.Common

/-! # Machines that take one labelled action at a time

A machine is an initial state and a partial step function. The label carries every choice the
environment makes, so one list of labels is one interleaving. A label that is not enabled leaves
the state alone. -/
namespace KubeCenter.Lib

theorem mem_concat {α : Type*} {l : List α} {a b : α} (h : b ∈ l ++ [a]) : b ∈ l ∨ b = a := by
  simpa using h

structure Machine (σ α : Type*) where
  init : σ
  next : σ → α → Option σ

namespace Machine

variable {σ α : Type*} (M : Machine σ α)

def step (s : σ) (a : α) : σ := (M.next s a).getD s

def runFrom (s : σ) (as : List α) : σ := as.foldl M.step s

def run (as : List α) : σ := M.runFrom M.init as

@[simp] theorem runFrom_nil (s : σ) : M.runFrom s [] = s := rfl

@[simp] theorem runFrom_cons (s : σ) (a : α) (as : List α) :
    M.runFrom s (a :: as) = M.runFrom (M.step s a) as := rfl

theorem runFrom_append (s : σ) (as bs : List α) :
    M.runFrom s (as ++ bs) = M.runFrom (M.runFrom s as) bs := List.foldl_append

theorem run_append (as bs : List α) : M.run (as ++ bs) = M.runFrom (M.run as) bs :=
  M.runFrom_append M.init as bs

theorem step_eq_or (s : σ) (a : α) : M.step s a = s ∨ M.next s a = some (M.step s a) := by
  unfold step
  cases h : M.next s a with
  | none => exact .inl rfl
  | some t => exact .inr rfl

variable {M}

theorem step_inv {P : σ → Prop} (hst : ∀ s a t, P s → M.next s a = some t → P t)
    {s : σ} (a : α) (h : P s) : P (M.step s a) := by
  rcases M.step_eq_or s a with he | he
  · rw [he]; exact h
  · exact hst s a _ h he

theorem runFrom_inv {P : σ → Prop} (hst : ∀ s a t, P s → M.next s a = some t → P t)
    (as : List α) : ∀ {s : σ}, P s → P (M.runFrom s as) := by
  induction as with
  | nil => intro s h; exact h
  | cons a as ih => intro s h; exact ih (step_inv hst a h)

theorem run_inv {P : σ → Prop} (hin : P M.init)
    (hst : ∀ s a t, P s → M.next s a = some t → P t) (as : List α) : P (M.run as) :=
  runFrom_inv hst as hin

/-- Under an invariant `P`, what every enabled action keeps once it holds is never lost later in
the run. -/
theorem run_stable {P Q : σ → Prop} (hin : P M.init) (hP : ∀ s a t, P s → M.next s a = some t → P t)
    (hQ : ∀ s a t, P s → Q s → M.next s a = some t → Q t)
    (as bs : List α) (h : Q (M.run as)) : Q (M.run (as ++ bs)) := by
  rw [run_append]
  exact (runFrom_inv (P := fun s => P s ∧ Q s)
    (fun s a t hs ht => ⟨hP s a t hs.1 ht, hQ s a t hs.1 hs.2 ht⟩) bs
    ⟨run_inv hin hP as, h⟩).2

/-- Every action the run takes meets `C` in the state it is taken in. -/
def Meets (M : Machine σ α) (C : σ → α → Prop) : σ → List α → Prop
  | _, [] => True
  | s, a :: as => C s a ∧ Meets M C (M.step s a) as

instance decidableMeets (M : Machine σ α) (C : σ → α → Prop) [∀ s a, Decidable (C s a)] :
    ∀ s as, Decidable (M.Meets C s as)
  | _, [] => isTrue trivial
  | s, a :: as =>
    have := decidableMeets M C (M.step s a) as
    inferInstanceAs (Decidable (C s a ∧ M.Meets C (M.step s a) as))

theorem run_inv_of_meets {C} {P : σ → Prop} (hin : P M.init)
    (hst : ∀ s a t, C s a → P s → M.next s a = some t → P t) (as : List α)
    (hm : M.Meets C M.init as) : P (M.run as) := by
  unfold run
  generalize M.init = s at hin hm
  induction as generalizing s with
  | nil => exact hin
  | cons a as ih =>
    refine ih (M.step s a) ?_ hm.2
    rcases M.step_eq_or s a with he | he
    · rw [he]; exact hin
    · exact hst s a _ hm.1 hin he

end Machine

end KubeCenter.Lib
