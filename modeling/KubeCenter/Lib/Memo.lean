import Mathlib.Data.List.Perm.Subperm
import Mathlib.Data.Set.Basic

/-! # A memo table with a budget

Values are computed on demand and kept under a key. A new computation costs one unit; when the
budget is spent, only what is in the table can be had. An aborted computation ends the run. -/
namespace KubeCenter.Lib
open List

structure Memo (κ β : Type*) where
  table : κ → Option β
  spent : Nat

namespace Memo

variable {α κ β : Type*}

def empty : Memo κ β := ⟨fun _ => none, 0⟩

/-- Every entry for an element of `S` is the value of that element. -/
def Agrees (S : Set α) (key : α → κ) (f : α → Option β) (m : Memo κ β) : Prop :=
  ∀ a ∈ S, ∀ b, m.table (key a) = some b → f a = some b

/-- Entries are only added. -/
def Grows (m m' : Memo κ β) : Prop := ∀ k b, m.table k = some b → m'.table k = some b

/-- What was spent went on entries for some of the keys. -/
def Within (keys : List κ) (m : Memo κ β) : Prop :=
  ∃ used : List κ, used.Nodup ∧ used ⊆ keys ∧ used.length = m.spent ∧
    ∀ k, m.table k = none ↔ k ∉ used

theorem agrees_empty {S : Set α} {key f} : (empty : Memo κ β).Agrees S key f := by
  intro a _ b h
  cases h

theorem within_empty {keys : List κ} : (empty : Memo κ β).Within keys :=
  ⟨[], nodup_nil, nil_subset _, rfl, fun k => by simp [empty]⟩

theorem Grows.refl (m : Memo κ β) : m.Grows m := fun _ _ h => h

variable [DecidableEq κ]

/-- No value when the budget is spent, no result at all when the computation is aborted. -/
def read (budget : Nat) (key : α → κ) (f : α → Option β) (m : Memo κ β) (a : α) :
    Option (Option β × Memo κ β) :=
  match m.table (key a) with
  | some b => some (some b, m)
  | none =>
    if budget ≤ m.spent then some (none, m)
    else (f a).map fun b => (some b, ⟨Function.update m.table (key a) (some b), m.spent + 1⟩)

variable {S : Set α} {key : α → κ} {f : α → Option β} {m m' : Memo κ β} {budget : Nat} {a : α}
  {r : Option β}

theorem read_cases (h : m.read budget key f a = some (r, m')) :
    (∃ b, r = some b ∧ m.table (key a) = some b ∧ m' = m) ∨
      (r = none ∧ m.table (key a) = none ∧ budget ≤ m.spent ∧ m' = m) ∨
      ∃ b, r = some b ∧ m.table (key a) = none ∧ f a = some b ∧
        m' = ⟨Function.update m.table (key a) (some b), m.spent + 1⟩ := by
  unfold read at h
  split at h
  · cases h
    exact .inl ⟨_, rfl, ‹_›, rfl⟩
  · split at h
    · cases h
      exact .inr (.inl ⟨rfl, ‹_›, ‹_›, rfl⟩)
    · obtain ⟨b, hb, he⟩ := Option.map_eq_some_iff.1 h
      cases he
      exact .inr (.inr ⟨b, rfl, ‹_›, hb, rfl⟩)

theorem read_grows (h : m.read budget key f a = some (r, m')) : m.Grows m' := by
  rcases read_cases h with ⟨b, -, -, rfl⟩ | ⟨-, -, -, rfl⟩ | ⟨b, -, hno, -, rfl⟩
  · exact Grows.refl m'
  · exact Grows.refl m'
  · intro k v hv
    have hne : k ≠ key a := by
      rintro rfl
      cases hno.symm.trans hv
    simpa [Function.update_of_ne hne] using hv

/-- A read answers for its own element, and the table stays right. -/
theorem Agrees.read (hm : m.Agrees S key f)
    (hkey : ∀ a ∈ S, ∀ a' ∈ S, key a = key a' → f a = f a') (ha : a ∈ S)
    (h : m.read budget key f a = some (r, m')) :
    m'.Agrees S key f ∧ ∀ b, r = some b → f a = some b ∧ m'.table (key a) = some b := by
  rcases read_cases h with ⟨b, rfl, htb, rfl⟩ | ⟨rfl, -, -, rfl⟩ | ⟨b, rfl, -, hb, rfl⟩
  · refine ⟨hm, fun b' hb' => ?_⟩
    cases hb'
    exact ⟨hm a ha b htb, htb⟩
  · exact ⟨hm, nofun⟩
  · refine ⟨fun a' ha' b' hb' => ?_, fun b' hb' => ?_⟩
    · by_cases hk : key a' = key a
      · rw [hkey a' ha' a ha hk, hb, ← hb', hk]
        simp
      · exact hm a' ha' b' (by simpa [Function.update_of_ne hk] using hb')
    · cases hb'
      exact ⟨hb, by simp⟩

/-- A budget of one unit for each key is enough. -/
theorem Within.read {keys : List κ} (h : m.Within keys) (hlen : keys.length ≤ budget)
    (ha : key a ∈ keys) (hr : m.read budget key f a = some (r, m')) :
    m'.Within keys ∧ r ≠ none := by
  obtain ⟨used, hnd, hsub, hspent, htab⟩ := h
  have hsub' : key a :: used ⊆ keys := cons_subset.mpr ⟨ha, hsub⟩
  rcases read_cases hr with ⟨b, rfl, -, rfl⟩ | ⟨-, hno, hb, -⟩ | ⟨b, rfl, hno, -, rfl⟩
  · exact ⟨⟨used, hnd, hsub, hspent, htab⟩, nofun⟩
  · have hle := (subperm_of_subset (nodup_cons.mpr ⟨(htab _).mp hno, hnd⟩) hsub').length_le
    rw [length_cons] at hle
    omega
  · refine ⟨⟨key a :: used, nodup_cons.mpr ⟨(htab _).mp hno, hnd⟩, hsub', by simp [hspent],
      fun k => ?_⟩, nofun⟩
    by_cases hk : k = key a
    · simp [hk]
    · simpa [hk] using htab k

end Memo

end KubeCenter.Lib
