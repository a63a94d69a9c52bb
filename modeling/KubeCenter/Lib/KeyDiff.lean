import Mathlib.Data.Finset.SDiff

/-! # Changes between maps, and their replay

A change names the keys that a map gained and lost and those whose value it replaced. Replaying the
changes of a chain of maps on the keys of the first gives the keys of the last. -/
namespace KubeCenter.Lib
open List

structure KeyDiff (α : Type*) where
  added : List α
  removed : List α
  changed : List α
deriving DecidableEq

namespace KeyDiff

variable {α β : Type*}

def empty : KeyDiff α := ⟨[], [], []⟩

/-- `d` says exactly how `g` differs from `f`. -/
structure Describes (d : KeyDiff α) (f g : α → Option β) : Prop where
  mem_added : ∀ k, k ∈ d.added ↔ f k = none ∧ g k ≠ none
  mem_removed : ∀ k, k ∈ d.removed ↔ f k ≠ none ∧ g k = none
  mem_changed : ∀ k, k ∈ d.changed ↔ ∃ v w, f k = some v ∧ g k = some w ∧ v ≠ w

theorem describes_empty (f : α → Option β) : (empty : KeyDiff α).Describes f f where
  mem_added k := by simp [empty]
  mem_removed k := by simp [empty]
  mem_changed k := by
    constructor
    · intro h
      cases h
    · rintro ⟨v, w, hv, hw, hne⟩
      exact absurd (Option.some.inj (hv.symm.trans hw)) hne

variable {ds : List (KeyDiff α)} {f g : α → Option β} {k : α}

/-- The changes of a chain of maps, first to last. -/
inductive Leads (f : α → Option β) : List (KeyDiff α) → (α → Option β) → Prop
  | refl : Leads f [] f
  | concat {ds m g d} : Leads f ds m → d.Describes m g → Leads f (ds ++ [d]) g

/-- `k` is named as changed, or as removed and later as added. -/
def Rewritten (k : α) (ds : List (KeyDiff α)) : Prop :=
  (∃ d ∈ ds, k ∈ d.changed) ∨ ∃ d₁ d₂, [d₁, d₂].Sublist ds ∧ k ∈ d₁.removed ∧ k ∈ d₂.added

theorem Rewritten.concat (h : Rewritten k ds) (d : KeyDiff α) : Rewritten k (ds ++ [d]) := by
  rcases h with ⟨c, hc, hk⟩ | ⟨d₁, d₂, hsub, h₁, h₂⟩
  · exact .inl ⟨c, mem_append_left _ hc, hk⟩
  · exact .inr ⟨d₁, d₂, hsub.trans (sublist_append_left ds [d]), h₁, h₂⟩

theorem Leads.removed (h : Leads f ds g) (hf : f k ≠ none) (hg : g k = none) :
    ∃ d ∈ ds, k ∈ d.removed := by
  induction h with
  | refl => exact absurd hg hf
  | @concat ds m g d _ hd ih =>
    by_cases hm : m k = none
    · obtain ⟨c, hc, hk⟩ := ih hm
      exact ⟨c, mem_append_left _ hc, hk⟩
    · exact ⟨d, mem_append_right _ (mem_singleton_self d), (hd.mem_removed k).mpr ⟨hm, hg⟩⟩

theorem Leads.rewritten (h : Leads f ds g) {v w : β} (hv : f k = some v) (hw : g k = some w)
    (hne : v ≠ w) : Rewritten k ds := by
  induction h generalizing w with
  | refl => exact absurd (Option.some.inj (hv.symm.trans hw)) hne
  | @concat ds m g d hds hd ih =>
    cases hm : m k with
    | none =>
      have hgo : ∃ c ∈ ds, k ∈ c.removed := hds.removed (by simp [hv]) hm
      obtain ⟨c, hc, hk⟩ := hgo
      have hbc : k ∈ d.added := (hd.mem_added k).mpr ⟨hm, by simp [hw]⟩
      have hsub : [c, d].Sublist (ds ++ [d]) :=
        (singleton_sublist.mpr hc).append (List.Sublist.refl [d])
      exact .inr ⟨c, d, hsub, hk, hbc⟩
    | some u =>
      by_cases hvu : v = u
      · subst hvu
        have hk : k ∈ d.changed := (hd.mem_changed k).mpr ⟨v, w, hm, hw, hne⟩
        exact .inl ⟨d, mem_append_right _ (mem_singleton_self d), hk⟩
      · exact (ih hm hvu).concat d

theorem Leads.append_empty {es} (h : Leads f ds g) (hes : ∀ d ∈ es, d = empty) :
    Leads f (ds ++ es) g := by
  induction es using List.reverseRecOn with
  | nil => rwa [append_nil]
  | append_singleton es d ih =>
    have hds : Leads f (ds ++ es) g := ih fun c hc => hes c (mem_append_left _ hc)
    have hd : d = empty := hes d (mem_append_right _ (mem_singleton_self d))
    rw [← append_assoc, hd]
    exact hds.concat (describes_empty g)

variable [DecidableEq α]

def apply (keys : Finset α) (d : KeyDiff α) : Finset α :=
  (keys \ d.removed.toFinset) ∪ d.added.toFinset

theorem Describes.mem_apply {d : KeyDiff α} (h : d.Describes f g) {keys}
    (hks : ∀ k, k ∈ keys ↔ f k ≠ none) (k : α) : k ∈ apply keys d ↔ g k ≠ none := by
  simp only [apply, Finset.mem_union, Finset.mem_sdiff, mem_toFinset, hks, h.mem_added,
    h.mem_removed]
  by_cases hf : f k = none <;> by_cases hg : g k = none <;> simp [hf, hg]

theorem Leads.mem_replay (h : Leads f ds g) {keys} (hks : ∀ k, k ∈ keys ↔ f k ≠ none) (k : α) :
    k ∈ ds.foldl apply keys ↔ g k ≠ none := by
  induction h generalizing k with
  | refl => exact hks k
  | concat _ hd ih =>
    rw [foldl_append]
    exact hd.mem_apply ih k

end KeyDiff

end KubeCenter.Lib
