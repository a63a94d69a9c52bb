import Mathlib.Data.Set.Basic
import KubeCenter.Lib.Machine

/-! # Tokens that are held in one place

A token is a number that is drawn once. It is held in at most one place, may be carried to another
or dropped, and a place that holds it may spend it for a new one. Then of the tokens that descend
from one at most one is held. -/
namespace KubeCenter.Lib
open List Nat

structure Holding (P : Type*) where
  holds : P → ℕ → Prop
  next : ℕ

inductive Deed where
  | other
  | draw (t : ℕ)
  | spend (t t' : ℕ)
deriving DecidableEq

namespace Holding

variable {P : Type*} {H H' : Holding P} {d : Deed} {ds : List Deed}

inductive Step (H : Holding P) : Deed → Holding P → Prop
  /-- Nothing is held that was not. -/
  | drop {H' : Holding P} (hnext : H'.next = H.next) (h : ∀ p t, H'.holds p t → H.holds p t) :
      Step H .other H'
  /-- A token is carried to a place. -/
  | carry {H' : Holding P} {p : P} {t : ℕ} (p' : P) (hnext : H'.next = H.next) (hp : H.holds p t)
      (h : ∀ q u, H'.holds q u → (q = p' ∧ u = t) ∨ (H.holds q u ∧ u ≠ t)) : Step H .other H'
  | draw {H' : Holding P} (p : P) (hnext : H'.next = H.next + 1)
      (h : ∀ q u, H'.holds q u → (q = p ∧ u = H.next) ∨ H.holds q u) : Step H (.draw H.next) H'
  | spend {H' : Holding P} {p : P} {t : ℕ} (p' : P) (hnext : H'.next = H.next + 1)
      (hp : H.holds p t)
      (h : ∀ q u, H'.holds q u → (q = p' ∧ u = H.next) ∨ (H.holds q u ∧ u ≠ t)) :
      Step H (.spend t H.next) H'

/-- The tokens a token was spent for, over any number of times. -/
inductive Descends (ds : List Deed) (t₀ : ℕ) : ℕ → Prop
  | self : Descends ds t₀ t₀
  | spend {t t' : ℕ} (h : Descends ds t₀ t) (hspend : .spend t t' ∈ ds) : Descends ds t₀ t'

structure Orderly (H : Holding P) (ds : List Deed) : Prop where
  onePlace : ∀ p p' t, H.holds p t → H.holds p' t → p = p'
  drawn : ∀ p t, H.holds p t → t < H.next
  drew : ∀ t, .draw t ∈ ds → t < H.next
  spent : ∀ t t', .spend t t' ∈ ds → t < H.next ∧ t' < H.next ∧ ∀ p, ¬ H.holds p t
  once : ds.Pairwise fun d d' => ∀ t t₁ t₂, d = .spend t t₁ → d' = .spend t t₂ → False
  oneHeld : ∀ t₀ p p' t t', H.holds p t → H.holds p' t' → Descends ds t₀ t →
    Descends ds t₀ t' → t = t'

theorem orderly_nil (h : ∀ p t, ¬ H.holds p t) : Orderly H [] where
  onePlace p _ t hp := absurd hp (h p t)
  drawn p t hp := absurd hp (h p t)
  drew t hdrw := by cases hdrw
  spent t t' hsn := by cases hsn
  once := .nil
  oneHeld _ p _ t _ hp := absurd hp (h p t)

variable {t₀ t : ℕ}

theorem Descends.mono {ds'} (h : Descends ds t₀ t) (hsub : ds ⊆ ds') : Descends ds' t₀ t := by
  induction h with
  | self => exact .self
  | spend _ hsn ih => exact ih.spend (hsub hsn)

theorem Descends.of_concat (hd : ∀ t t', d ≠ .spend t t') (h : Descends (ds ++ [d]) t₀ t) :
    Descends ds t₀ t := by
  induction h with
  | self => exact .self
  | spend _ hsn ih =>
    rcases mem_concat hsn with hsn | hsn
    · exact ih.spend hsn
    · exact absurd hsn.symm (hd _ _)

theorem Descends.of_concat_spend {t' v : ℕ} (hfs : ∀ w, .spend t' w ∉ ds) (hne : t ≠ t')
    (h : Descends (ds ++ [.spend t t']) t₀ v) : Descends ds t₀ v ∨ (v = t' ∧ Descends ds t₀ t) := by
  induction h with
  | self => exact .inl .self
  | spend _ hsn ih =>
    rcases mem_concat hsn with hsn | hsn
    · rcases ih with ih | ⟨heq, -⟩
      · exact .inl (ih.spend hsn)
      · rw [heq] at hsn
        exact absurd hsn (hfs _)
    · cases hsn
      rcases ih with ih | ⟨heq, -⟩
      · exact .inr ⟨rfl, ih⟩
      · exact absurd heq hne

theorem Orderly.eq_of_descends_next (h : Orderly H ds) (hds : Descends ds t₀ t) (ht : H.next ≤ t)
    : t₀ = t := by
  cases hds with
  | self => rfl
  | spend _ hsn => exact absurd (h.spent _ _ hsn).2.1 (not_lt.mpr ht)

theorem Orderly.eq_of_next_descends (h : Orderly H ds) (hds : Descends ds t₀ t)
    (ht₀ : H.next ≤ t₀) : t = t₀ := by
  induction hds with
  | self => rfl
  | spend _ hsn ih =>
    rw [ih] at hsn
    exact absurd (h.spent _ _ hsn).1 (not_lt.mpr ht₀)

theorem Orderly.next_not_spent (h : Orderly H ds) (w : ℕ) : .spend H.next w ∉ ds := fun hw =>
  absurd (h.spent _ _ hw).1 (lt_irrefl _)

/-- A step that spends nothing, where what is held now was held or is the last token
drawn. -/
theorem Orderly.of_held (h : Orderly H ds) (hd : ∀ t t', d ≠ .spend t t')
    (hdrw : ∀ t, d = .draw t → t < H'.next)
    (honePlace : ∀ p p' t, H'.holds p t → H'.holds p' t → p = p') (hle : H.next ≤ H'.next)
    (hhd : ∀ p t, H'.holds p t → (∃ q, H.holds q t) ∨ (t = H.next ∧ t < H'.next)) :
    Orderly H' (ds ++ [d]) where
  onePlace := honePlace
  drawn p t hp := by
    rcases hhd p t hp with ⟨q, hq⟩ | ⟨-, hlt⟩
    · exact lt_of_lt_of_le (h.drawn q t hq) hle
    · exact hlt
  drew t hdr := by
    rcases mem_concat hdr with hdr | hdr
    · exact lt_of_lt_of_le (h.drew t hdr) hle
    · exact hdrw t hdr.symm
  spent t t' hsn := by
    rcases mem_concat hsn with hsn | hsn
    · obtain ⟨ht, ht', hno⟩ := h.spent t t' hsn
      refine ⟨lt_of_lt_of_le ht hle, lt_of_lt_of_le ht' hle, fun p hp => ?_⟩
      rcases hhd p t hp with ⟨q, hq⟩ | ⟨rfl, -⟩
      · exact hno q hq
      · exact absurd ht (lt_irrefl _)
    · exact absurd hsn.symm (hd t t')
  once := by
    rw [pairwise_append]
    refine ⟨h.once, pairwise_singleton _ _, ?_⟩
    intro d₀ _ d₁ hd₁ t t₁ t₂ _ heq
    exact hd t t₂ ((mem_singleton.mp hd₁).symm.trans heq)
  oneHeld t₀ p p' t t' hp hp' ht ht' := by
    have ht := ht.of_concat hd
    have ht' := ht'.of_concat hd
    -- a token drawn now is alone in its line
    rcases hhd p t hp with ⟨q, hq⟩ | ⟨hnew, -⟩
    · rcases hhd p' t' hp' with ⟨q', hq'⟩ | ⟨hnew', -⟩
      · exact h.oneHeld t₀ q q' t t' hq hq' ht ht'
      · obtain rfl := h.eq_of_descends_next ht' (le_of_eq hnew'.symm)
        exact h.eq_of_next_descends ht (le_of_eq hnew'.symm)
    · obtain rfl := h.eq_of_descends_next ht (le_of_eq hnew.symm)
      exact (h.eq_of_next_descends ht' (le_of_eq hnew.symm)).symm

theorem Orderly.spend (h : Orderly H ds) {p p' : P} (hnx : H'.next = H.next + 1)
    (hp : H.holds p t) (hhd : ∀ q u, H'.holds q u → (q = p' ∧ u = H.next) ∨ (H.holds q u ∧ u ≠ t))
    : Orderly H' (ds ++ [.spend t H.next]) := by
  have htlt : t < H.next := h.drawn p t hp
  refine ⟨?_, ?_, ?_, ?_, ?_, ?_⟩
  · intro q q' u hq hq'
    rcases hhd q u hq with ⟨rfl, rfl⟩ | ⟨hq, -⟩
    · rcases hhd q' _ hq' with ⟨rfl, -⟩ | ⟨hq', -⟩
      · rfl
      · exact absurd (h.drawn q' _ hq') (lt_irrefl _)
    · rcases hhd q' u hq' with ⟨-, rfl⟩ | ⟨hq', -⟩
      · exact absurd (h.drawn q _ hq) (lt_irrefl _)
      · exact h.onePlace q q' u hq hq'
  · intro q u hq
    rw [hnx]
    rcases hhd q u hq with ⟨-, rfl⟩ | ⟨hq, -⟩
    · exact lt_succ_self _
    · exact lt_succ_of_lt (h.drawn q u hq)
  · intro u hdr
    rw [hnx]
    rcases mem_concat hdr with hdr | hdr
    · exact lt_succ_of_lt (h.drew u hdr)
    · cases hdr
  · intro u u' hsn
    rw [hnx]
    rcases mem_concat hsn with hsn | hsn
    · obtain ⟨hu, hu', hno⟩ := h.spent u u' hsn
      refine ⟨lt_succ_of_lt hu, lt_succ_of_lt hu', fun q hq => ?_⟩
      rcases hhd q u hq with ⟨-, rfl⟩ | ⟨hq, -⟩
      · exact absurd hu (lt_irrefl _)
      · exact hno q hq
    · cases hsn
      refine ⟨lt_succ_of_lt htlt, lt_succ_self _, fun q hq => ?_⟩
      rcases hhd q _ hq with ⟨-, heq⟩ | ⟨-, hne⟩
      · exact absurd heq (Nat.ne_of_lt htlt)
      · exact hne rfl
  · rw [pairwise_append]
    refine ⟨h.once, pairwise_singleton _ _, ?_⟩
    rintro d₀ hd₀ d₁ hd₁ u t₁ t₂ rfl heq
    rw [mem_singleton.mp hd₁] at heq
    cases heq
    exact (h.spent _ _ hd₀).2.2 p hp
  · intro t₀ q q' u u' hq hq' hu hu'
    have hu := hu.of_concat_spend h.next_not_spent (Nat.ne_of_lt htlt)
    have hu' := hu'.of_concat_spend h.next_not_spent (Nat.ne_of_lt htlt)
    -- the new token stands where the spent one stood
    have hnew : ∀ {q' u'}, H'.holds q' u' → (Descends ds t₀ u' ∨ (u' = H.next ∧ Descends ds t₀ t)) →
        Descends ds t₀ t → u' = H.next := by
      intro q' u' hq' hu' ht
      rcases hhd q' u' hq' with ⟨-, hnew⟩ | ⟨hq', hne⟩
      · exact hnew
      · rcases hu' with hu' | ⟨hnew, -⟩
        · exact absurd (h.oneHeld t₀ q' p u' t hq' hp hu' ht) hne
        · exact hnew
    rcases hu with hu | ⟨rfl, ht⟩
    · rcases hu' with hu' | ⟨rfl, ht⟩
      · rcases hhd q u hq with ⟨-, rfl⟩ | ⟨hq, -⟩
        · obtain rfl := h.eq_of_descends_next hu le_rfl
          exact (h.eq_of_next_descends hu' le_rfl).symm
        · rcases hhd q' u' hq' with ⟨-, rfl⟩ | ⟨hq', -⟩
          · obtain rfl := h.eq_of_descends_next hu' le_rfl
            exact h.eq_of_next_descends hu le_rfl
          · exact h.oneHeld t₀ q q' u u' hq hq' hu hu'
      · exact hnew hq (.inl hu) ht
    · exact (hnew hq' hu' ht).symm

theorem Orderly.step (h : Orderly H ds) (hst : Step H d H') : Orderly H' (ds ++ [d]) := by
  cases hst with
  | drop hnx hhd =>
    refine h.of_held (by simp) (by simp) ?_ (le_of_eq hnx.symm) fun p t hp => .inl ⟨p, hhd p t hp⟩
    exact fun p p' t hp hp' => h.onePlace p p' t (hhd p t hp) (hhd p' t hp')
  | @carry _ p t p' hnx hp hhd =>
    refine h.of_held (by simp) (by simp) ?_ (le_of_eq hnx.symm) ?_
    · intro q q' u hq hq'
      rcases hhd q u hq with ⟨rfl, rfl⟩ | ⟨hq, hne⟩
      · rcases hhd q' _ hq' with ⟨rfl, -⟩ | ⟨-, hne⟩
        · rfl
        · exact absurd rfl hne
      · rcases hhd q' u hq' with ⟨-, rfl⟩ | ⟨hq', -⟩
        · exact absurd rfl hne
        · exact h.onePlace q q' u hq hq'
    · intro q u hq
      rcases hhd q u hq with ⟨-, rfl⟩ | ⟨hq, -⟩
      · exact .inl ⟨p, hp⟩
      · exact .inl ⟨q, hq⟩
  | draw p hnx hhd =>
    refine h.of_held (by simp) (by simp [hnx]) ?_ (by omega) ?_
    · intro q q' u hq hq'
      rcases hhd q u hq with ⟨rfl, rfl⟩ | hq
      · rcases hhd q' _ hq' with ⟨rfl, -⟩ | hq'
        · rfl
        · exact absurd (h.drawn q' _ hq') (lt_irrefl _)
      · rcases hhd q' u hq' with ⟨-, rfl⟩ | hq'
        · exact absurd (h.drawn q _ hq) (lt_irrefl _)
        · exact h.onePlace q q' u hq hq'
    · intro q u hq
      rcases hhd q u hq with ⟨-, rfl⟩ | hq
      · exact .inr ⟨rfl, by omega⟩
      · exact .inl ⟨q, hq⟩
  | spend p' hnx hp hhd => exact h.spend hnx hp hhd

theorem Step.eq_next_of_draw (hst : Step H (.draw t) H') : t = H.next := by
  cases hst
  rfl

theorem Step.descends_of_concat {v : ℕ} (hst : Step H d H') (h : Orderly H ds) (hv : v < H.next)
    (hds : Descends (ds ++ [d]) t₀ v) : Descends ds t₀ v := by
  cases hst with
  | drop | carry | draw => exact hds.of_concat (by simp)
  | @spend _ p t p' hnx hp hhd =>
    rcases hds.of_concat_spend h.next_not_spent (Nat.ne_of_lt (h.drawn p t hp)) with
      hds | ⟨rfl, -⟩
    · exact hds
    · exact absurd hv (lt_irrefl _)

def Ended (H : Holding P) (ds : List Deed) (t₀ : ℕ) : Prop :=
  t₀ < H.next ∧ ∀ p t, H.holds p t → ¬ Descends ds t₀ t

/-- A line that has ended stays so, and none of its tokens is spent. -/
theorem Ended.step (h : Ended H ds t₀) (hord : Orderly H ds) (hst : Step H d H') :
    Ended H' (ds ++ [d]) t₀ ∧ ∀ t t', d = .spend t t' → ¬ Descends ds t₀ t := by
  obtain ⟨hdra, hno⟩ := h
  have hnew : ¬ Descends ds t₀ H.next := fun hds =>
    absurd hdra (hord.eq_of_descends_next hds le_rfl ▸ lt_irrefl _)
  cases hst with
  | drop hnx hhd =>
    refine ⟨⟨hnx ▸ hdra, fun p t hp hds => ?_⟩, by simp⟩
    exact hno p t (hhd p t hp) (hds.of_concat (by simp))
  | @carry _ p t p' hnx hp hhd =>
    refine ⟨⟨hnx ▸ hdra, fun q u hq hds => ?_⟩, by simp⟩
    have hds := hds.of_concat (by simp)
    rcases hhd q u hq with ⟨-, rfl⟩ | ⟨hq, -⟩
    · exact hno p _ hp hds
    · exact hno q u hq hds
  | draw p hnx hhd =>
    refine ⟨⟨hnx ▸ lt_succ_of_lt hdra, fun q u hq hds => ?_⟩, by simp⟩
    have hds := hds.of_concat (by simp)
    rcases hhd q u hq with ⟨-, rfl⟩ | hq
    · exact hnew hds
    · exact hno q u hq hds
  | @spend _ p t p' hnx hp hhd =>
    refine ⟨⟨hnx ▸ lt_succ_of_lt hdra, fun q u hq hds => ?_⟩, ?_⟩
    · rcases hds.of_concat_spend hord.next_not_spent
        (Nat.ne_of_lt (hord.drawn p t hp)) with hds | ⟨-, hds⟩
      · rcases hhd q u hq with ⟨-, rfl⟩ | ⟨hq, -⟩
        · exact hnew hds
        · exact hno q u hq hds
      · exact hno p t hp hds
    · intro u u' heq
      cases heq
      exact hno p t hp

end Holding

end KubeCenter.Lib
