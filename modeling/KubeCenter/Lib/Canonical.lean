import Mathlib.Data.List.Destutter
import Mathlib.Data.List.Sort

/-! # Answers that do not depend on the order of a list

Choosing the greatest element, finding the only match, sorting by a key that
tells elements apart, and keeping one element of each group of a sorted list. -/
namespace KubeCenter.Lib
open List

variable {α κ : Type*} [LinearOrder κ] {key : α → κ}

/-- The element with the greater key, the earlier one of two with one key. -/
@[local simp] def keepMax (key : α → κ) (best : Option α) (a : α) : Option α :=
  match best with
  | none => some a
  | some b => if key b < key a then some a else best

theorem keepMax_comm {x y : α} (h : key x = key y → x = y) (z : Option α) :
    keepMax key (keepMax key z x) y = keepMax key (keepMax key z y) x := by
  rcases lt_trichotomy (key x) (key y) with hlt | heq | hgt
  · cases z with
    | none => simp [hlt, hlt.not_gt]
    | some z =>
      by_cases hz : key z < key x
      · simp [hz, hlt, hz.trans hlt, hlt.not_gt]
      · by_cases hzy : key z < key y
        · simp [hz, hzy, hlt.not_gt]
        · simp [hz, hzy]
  · rw [h heq]
  · cases z with
    | none => simp [hgt, hgt.not_gt]
    | some z =>
      by_cases hz : key z < key y
      · simp [hz, hgt, hz.trans hgt, hgt.not_gt]
      · by_cases hzx : key z < key x
        · simp [hz, hzx, hgt.not_gt]
        · simp [hz, hzx]

theorem find?_eq_of_perm {p} {l l' : List α} (hl : l.Perm l')
    (hun : ∀ a ∈ l, ∀ b ∈ l, p a = true → p b = true → a = b) : l.find? p = l'.find? p := by
  cases h : l.find? p with
  | none =>
    rw [find?_eq_none] at h
    symm
    rw [find?_eq_none]
    exact fun a ha => h a (hl.mem_iff.2 ha)
  | some a =>
    cases h' : l'.find? p with
    | none =>
      rw [find?_eq_none] at h'
      exact absurd (find?_some h) (h' a (hl.mem_iff.1 (mem_of_find?_eq_some h)))
    | some b =>
      have hb := hl.mem_iff.2 (mem_of_find?_eq_some h')
      rw [hun a (mem_of_find?_eq_some h) b hb (find?_some h) (find?_some h')]

theorem insertionSort_eq_of_perm {l l' : List α} (hl : l.Perm l')
    (hkey : ∀ a ∈ l, ∀ b ∈ l, key a = key b → a = b) :
    l.insertionSort (fun a b => key a ≤ key b) = l'.insertionSort (fun a b => key a ≤ key b) := by
  have hpm := perm_insertionSort (fun a b : α => key a ≤ key b)
  have hsr (l : List α) : (l.insertionSort fun a b => key a ≤ key b).Pairwise
      fun a b => key a ≤ key b := pairwise_insertionSort (fun a b => key a ≤ key b) l
  refine List.Perm.eq_of_pairwise (fun a b ha hb hab hba => ?_) (hsr l) (hsr l')
    ((hpm l).trans (hl.trans (hpm l').symm))
  exact hkey a ((hpm l).mem_iff.1 ha) b (hl.mem_iff.2 ((hpm l').mem_iff.1 hb)) (le_antisymm hab hba)

section Destutter

variable {R : α → α → Prop}

theorem pairwise_lt_of_isChain (hR : ∀ a b, R a b → key a ≠ key b) {l : List α}
    (hl : l.Pairwise fun a b => key a ≤ key b) (hch : l.IsChain R) :
    l.Pairwise fun a b => key a < key b := by
  induction l with
  | nil => exact .nil
  | cons a l ih =>
    obtain ⟨ha, hl⟩ := pairwise_cons.1 hl
    refine pairwise_cons.2 ⟨fun b hb => ?_, ih hl hch.tail⟩
    cases l with
    | nil => cases hb
    | cons c l =>
      have hac : key a < key c :=
        lt_of_le_of_ne (ha c mem_cons_self) (hR a c (isChain_cons_cons.1 hch).1)
      rcases mem_cons.1 hb with rfl | hb
      · exact hac
      · exact hac.trans_le ((pairwise_cons.1 hl).1 b hb)

variable [DecidableRel R]

/-- Of neighbours of one group one is kept, so a sorted list becomes strictly
sorted. -/
theorem pairwise_lt_destutter (hR : ∀ a b, R a b → key a ≠ key b) {l : List α}
    (hl : l.Pairwise fun a b => key a ≤ key b) :
    (l.destutter R).Pairwise fun a b => key a < key b :=
  pairwise_lt_of_isChain hR (hl.sublist (destutter_sublist R l)) (isChain_destutter R l)

theorem exists_mem_destutter' {a x : α} {l : List α} (h : x ∈ a :: l) :
    ∃ b ∈ l.destutter' R a, b = x ∨ ¬R b x := by
  induction l generalizing a with
  | nil => exact ⟨a, by simp, .inl (mem_singleton.1 h).symm⟩
  | cons c l ih =>
    by_cases hac : R a c
    · rw [destutter'_cons_pos _ hac]
      rcases mem_cons.1 h with rfl | h
      · exact ⟨x, mem_cons_self, .inl rfl⟩
      · obtain ⟨b, hb, hbx⟩ := ih h
        exact ⟨b, mem_cons_of_mem _ hb, hbx⟩
    · rw [destutter'_cons_neg _ hac]
      rcases mem_cons.1 h with rfl | h
      · exact ih mem_cons_self
      · rcases mem_cons.1 h with rfl | h
        · exact ⟨a, mem_destutter' l R a, .inr hac⟩
        · exact ih (mem_cons_of_mem _ h)

theorem exists_mem_destutter {x : α} {l : List α} (h : x ∈ l) :
    ∃ b ∈ l.destutter R, b = x ∨ ¬R b x := by
  cases l with
  | nil => cases h
  | cons a l => exact exists_mem_destutter' h

end Destutter

end KubeCenter.Lib
