import Mathlib.Data.List.Dedup

/-! # Tables with a unique key

Rows are added to a table unless a row with their key is there already (`INSERT ... ON CONFLICT
(key) DO NOTHING`), one after the other. -/
namespace KubeCenter.Lib
open List

variable {α κ : Type*} [DecidableEq κ]

def freshRows (key : α → κ) : List α → List α → List α
  | _, [] => []
  | table, r :: rs =>
    if key r ∈ table.map key then freshRows key table rs
    else r :: freshRows key (table ++ [r]) rs

variable {key : α → κ} {table rows : List α}

theorem freshRows_subset : freshRows key table rows ⊆ rows := by
  induction rows generalizing table with
  | nil => exact List.Subset.refl _
  | cons r rs ih =>
    unfold freshRows
    split
    · exact subset_cons_of_subset r ih
    · exact cons_subset_cons r ih

theorem nodup_append_freshRows (h : (table.map key).Nodup) :
    ((table ++ freshRows key table rows).map key).Nodup := by
  induction rows generalizing table with
  | nil => simpa [freshRows] using h
  | cons r rs ih =>
    unfold freshRows
    split
    · exact ih h
    next hr =>
      have hap : ((table ++ [r]).map key).Nodup := by
        rw [map_append, map_singleton]
        refine nodup_append.2 ⟨h, nodup_singleton _, fun k hk l hl => ?_⟩
        rw [mem_singleton.1 hl]
        exact ne_of_mem_of_not_mem hk hr
      simpa using ih hap

theorem key_mem_append_freshRows {r : α} (hr : r ∈ rows) :
    key r ∈ (table ++ freshRows key table rows).map key := by
  induction rows generalizing table with
  | nil => cases hr
  | cons r' rs ih =>
    unfold freshRows
    split
    next hmem =>
      rcases mem_cons.1 hr with rfl | hr
      · rw [map_append]
        exact mem_append_left _ hmem
      · exact ih hr
    · rcases mem_cons.1 hr with rfl | hr
      · simp
      · have hre : key r ∈ ((table ++ [r']) ++ freshRows key (table ++ [r']) rs).map key := ih hr
        simpa using hre

theorem freshRows_eq_nil (h : ∀ r ∈ rows, key r ∈ table.map key) :
    freshRows key table rows = [] := by
  induction rows with
  | nil => rfl
  | cons r rs ih =>
    obtain ⟨hr, hrs⟩ := forall_mem_cons.1 h
    rw [freshRows, if_pos hr, ih hrs]

theorem length_dedup_le_append (xs ys : List κ) : xs.dedup.length ≤ (xs ++ ys).dedup.length := by
  refine (nodup_dedup xs).length_le_of_subset fun x hx => ?_
  rw [mem_dedup] at hx ⊢
  exact mem_append_left ys hx

end KubeCenter.Lib
