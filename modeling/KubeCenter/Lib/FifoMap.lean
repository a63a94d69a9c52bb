import Mathlib.Data.List.Nodup

/-! # Bounded maps that drop their oldest key

A map and the list of its keys in the order of their insertion. A new key that makes the list
longer than its bound takes out the oldest ones. `Aligned`: the list holds exactly the keys of the
map, each once. -/
namespace KubeCenter.Lib
open List
open Function (update update_of_ne update_self)

structure FifoMap (κ ν : Type*) where
  entries : κ → Option ν := fun _ => none
  order : List κ := []

namespace FifoMap

variable {κ ν : Type*} [DecidableEq κ]

/-- The oldest keys are taken out until the bound is kept. -/
def trim (bound : ℕ) (entries : κ → Option ν) : List κ → FifoMap κ ν
  | [] => ⟨entries, []⟩
  | k :: ks =>
    if bound < ks.length + 1 then trim bound (update entries k none) ks
    else ⟨entries, k :: ks⟩

def put (bound : ℕ) (m : FifoMap κ ν) (k : κ) (v : ν) : FifoMap κ ν :=
  trim bound (update m.entries k (some v))
    (if (m.entries k).isSome then m.order else m.order ++ [k])

/-- One pass over the keys that takes out those of `p`. -/
def removeLoop (p : κ → Bool) (entries : κ → Option ν) : List κ → FifoMap κ ν
  | [] => ⟨entries, []⟩
  | k :: ks =>
    if p k then removeLoop p (update entries k none) ks
    else { removeLoop p entries ks with order := k :: (removeLoop p entries ks).order }

def remove (p : κ → Bool) (m : FifoMap κ ν) : FifoMap κ ν := removeLoop p m.entries m.order

/-- The entries of `p` are taken out, and the list is cut down to the keys that are left. -/
def filter (p : κ → ν → Bool) (m : FifoMap κ ν) : FifoMap κ ν :=
  let entries := fun k => (m.entries k).filter (p k)
  ⟨entries, m.order.filter fun k => (entries k).isSome⟩

/-- The list holds exactly the keys of the map, each once, and at most `bound` of them. -/
structure Aligned (bound : ℕ) (m : FifoMap κ ν) : Prop where
  nodup : m.order.Nodup
  mem_iff : ∀ k, k ∈ m.order ↔ (m.entries k).isSome
  length_le : m.order.length ≤ bound

variable {bound : ℕ} {m : FifoMap κ ν}

/-! ## What the loops leave -/

theorem trim_entries (entries : κ → Option ν) (ks : List κ) {k : κ} {v : ν}
    (h : (trim bound entries ks).entries k = some v) : entries k = some v := by
  induction ks generalizing entries with
  | nil => exact h
  | cons x xs ih =>
    unfold trim at h
    split at h
    · have hold := ih _ h
      by_cases hk : k = x
      · subst hk
        simp at hold
      · rwa [update_of_ne hk] at hold
    · exact h

theorem trim_aligned (entries : κ → Option ν) (ks : List κ) (hnd : ks.Nodup)
    (hmem : ∀ k, k ∈ ks ↔ (entries k).isSome) : Aligned bound (trim bound entries ks) := by
  induction ks generalizing entries with
  | nil => exact ⟨hnd, hmem, Nat.zero_le _⟩
  | cons x xs ih =>
    unfold trim
    split
    · obtain ⟨hx, hxs⟩ := nodup_cons.mp hnd
      refine ih _ hxs fun k => ?_
      by_cases hk : k = x
      · subst hk
        simp [hx]
      · rw [update_of_ne hk, ← hmem k, mem_cons, or_iff_right hk]
    next hln => exact ⟨hnd, hmem, Nat.not_lt.mp hln⟩

theorem put_entries {k k' : κ} {v v' : ν} (h : (m.put bound k v).entries k' = some v') :
    (k' = k ∧ v' = v) ∨ (k' ≠ k ∧ m.entries k' = some v') := by
  have hold := trim_entries _ _ h
  by_cases hk : k' = k
  · subst hk
    rw [update_self] at hold
    exact .inl ⟨rfl, (Option.some.inj hold).symm⟩
  · rw [update_of_ne hk] at hold
    exact .inr ⟨hk, hold⟩

theorem Aligned.put (h : Aligned bound m) (k : κ) (v : ν) : Aligned bound (m.put bound k v) := by
  unfold FifoMap.put
  split
  next hsm =>
    refine trim_aligned _ _ h.nodup fun k' => ?_
    by_cases hk : k' = k
    · subst hk
      simp [h.mem_iff, hsm]
    · rw [update_of_ne hk, h.mem_iff]
  next hno =>
    have hfs : k ∉ m.order := fun hmem => hno ((h.mem_iff k).mp hmem)
    refine trim_aligned _ _ (nodup_append.mpr ⟨h.nodup, nodup_singleton k, ?_⟩) fun k' => ?_
    · intro a ha b hb
      rw [mem_singleton.mp hb]
      rintro rfl
      exact hfs ha
    · by_cases hk : k' = k
      · subst hk
        simp
      · rw [update_of_ne hk, mem_append, h.mem_iff, mem_singleton, or_iff_left hk]

theorem removeLoop_order (p : κ → Bool) (entries : κ → Option ν) (ks : List κ) :
    (removeLoop p entries ks).order = ks.filter (!p ·) := by
  induction ks generalizing entries with
  | nil => rfl
  | cons x xs ih =>
    unfold removeLoop
    split
    next hp => rw [ih, filter_cons_of_neg (by simp [hp])]
    next hp =>
      rw [filter_cons_of_pos (by simpa using hp)]
      exact congrArg (x :: ·) (ih entries)

theorem removeLoop_entries (p : κ → Bool) (entries : κ → Option ν) (ks : List κ) (k : κ) :
    (removeLoop p entries ks).entries k = if p k ∧ k ∈ ks then none else entries k := by
  induction ks generalizing entries with
  | nil => simp [removeLoop]
  | cons x xs ih =>
    unfold removeLoop
    split
    next hp =>
      rw [ih]
      by_cases hk : k = x
      · subst hk
        simp [hp]
      · simp [hk, update_of_ne]
    next hp =>
      rw [show ({ removeLoop p entries xs with order := x :: (removeLoop p entries xs).order } :
        FifoMap κ ν).entries = (removeLoop p entries xs).entries from rfl, ih]
      by_cases hk : k = x
      · subst hk
        simp [hp]
      · simp [hk]

theorem Aligned.remove_entries (h : Aligned bound m) (p : κ → Bool) (k : κ) :
    (m.remove p).entries k = if p k then none else m.entries k := by
  rw [FifoMap.remove, removeLoop_entries]
  by_cases hk : k ∈ m.order
  · simp [hk]
  · have hno : m.entries k = none := by
      rw [h.mem_iff, Option.not_isSome_iff_eq_none] at hk
      exact hk
    simp [hk, hno]

theorem Aligned.remove (h : Aligned bound m) (p : κ → Bool) : Aligned bound (m.remove p) := by
  have hor : (m.remove p).order = m.order.filter (!p ·) := removeLoop_order p _ _
  refine ⟨?_, fun k => ?_, ?_⟩
  · rw [hor]
    exact h.nodup.filter _
  · rw [hor, mem_filter, h.mem_iff, h.remove_entries]
    cases p k <;> simp
  · rw [hor]
    exact Nat.le_trans (length_filter_le _ _) h.length_le

omit [DecidableEq κ] in
theorem aligned_empty : Aligned bound ({} : FifoMap κ ν) :=
  ⟨nodup_nil, fun k => by simp, Nat.zero_le _⟩

end FifoMap

end KubeCenter.Lib
