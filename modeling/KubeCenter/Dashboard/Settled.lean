import KubeCenter.Dashboard.Grid

/-! # Settled layouts

What `compact` makes of any list of widgets, and what the push hands to it. -/
namespace KubeCenter.Dashboard
open Lib List

/-! ## Reading order -/

variable {items placed : List LayoutItem} {p i : LayoutItem}

theorem byReadingOrder_le_iff {q} :
    byReadingOrder p q ≤ 0 ↔ p.y < q.y ∨ (p.y = q.y ∧ p.x ≤ q.x) := by
  unfold byReadingOrder
  split <;> omega

theorem y_le_of_byReadingOrder {q} (h : byReadingOrder p q ≤ 0) : p.y ≤ q.y := by
  rcases byReadingOrder_le_iff.mp h with h | h <;> omega

instance : Std.Total fun p q : LayoutItem => byReadingOrder p q ≤ 0 where
  total p q := by simp only [byReadingOrder_le_iff]; omega

theorem byReadingOrder_trans {q r} (hpq : byReadingOrder p q ≤ 0) (hqr : byReadingOrder q r ≤ 0) :
    byReadingOrder p r ≤ 0 := by
  simp only [byReadingOrder_le_iff] at hpq hqr ⊢
  omega

instance : IsTrans LayoutItem fun p q => byReadingOrder p q ≤ 0 where
  trans _ _ _ := byReadingOrder_trans

theorem sortByReadingOrder_perm (items : List LayoutItem) :
    (sortByReadingOrder items).Perm items := perm_insertionSort _ _

@[simp] theorem mem_sortByReadingOrder :
    i ∈ sortByReadingOrder items ↔ i ∈ items := (sortByReadingOrder_perm items).mem_iff

theorem pairwise_sortByReadingOrder (items : List LayoutItem) :
    (sortByReadingOrder items).Pairwise fun p q => byReadingOrder p q ≤ 0 :=
  pairwise_insertionSort _ _

theorem sortByReadingOrder_of_pairwise (h : items.Pairwise fun p q => byReadingOrder p q ≤ 0) :
    sortByReadingOrder items = items :=
  h.insertionSort_eq

/-! ## Gravity -/

theorem sharesColumn_iff {a b} : sharesColumn a b = true ↔ b.x < a.x + a.w ∧ a.x < b.x + b.w := by
  simp [sharesColumn]

theorem overlaps_iff {a b} : overlaps a b = true ↔
    sharesColumn a b = true ∧ b.y < a.y + a.h ∧ a.y < b.y + b.h := by
  simp [overlaps, sharesRow]

/-- Widgets fall by rows, and stand in each other's way by columns. -/
def widgets : Stacking LayoutItem Int where
  top := LayoutItem.y
  height := LayoutItem.h
  shares := sharesColumn
  setTop i a := { i with y := a }
  top_setTop _ _ := rfl
  height_setTop _ _ := rfl
  setTop_top _ := rfl
  shares_comm i j := by
    rw [Bool.eq_iff_iff, sharesColumn_iff, sharesColumn_iff]
    exact And.comm
  shares_setTop _ _ _ := rfl

theorem compactLoop_eq (items : List LayoutItem) :
    ∀ settled, compactLoop settled items = settled ++ widgets.dropFrom settled items := by
  induction items with
  | nil => intro settled; simp [compactLoop, Stacking.dropFrom]
  | cons it rest ih =>
    intro settled
    rw [compactLoop, ih, append_assoc]
    rfl

theorem compact_eq (items : List LayoutItem) :
    compact items = sortByReadingOrder (widgets.drop (sortByReadingOrder items)) := by
  rw [compact, compactLoop_eq]
  rfl

abbrev Apart (items : List LayoutItem) : Prop := items.Pairwise fun a b => overlaps a b = false

abbrev Distinct (items : List LayoutItem) : Prop := (items.map (·.instanceId)).Nodup

structure Sized (i : LayoutItem) : Prop where
  wide : 1 ≤ i.w
  tall : 1 ≤ i.h

/-- In its columns, and of some size. -/
@[mk_iff] structure Solid (i : LayoutItem) : Prop where
  left : 0 ≤ i.x
  right : i.x + i.w ≤ dashboardColumns
  wide : 1 ≤ i.w
  tall : 1 ≤ i.h

instance (i : LayoutItem) : Decidable (Solid i) := decidable_of_iff _ (solid_iff i).symm

theorem Solid.sized (h : Solid i) : Sized i := ⟨h.wide, h.tall⟩

/-- A layout the editor may show. -/
structure Sound (items : List LayoutItem) : Prop where
  solid : ∀ i ∈ items, Solid i
  below : ∀ i ∈ items, 0 ≤ i.y
  apart : items.Pairwise fun a b => overlaps a b = false
  ordered : items.Pairwise fun p q => byReadingOrder p q ≤ 0
  compacted : compact items = items

def LayoutItem.atRow (i : LayoutItem) (y : Int) : LayoutItem := { i with y }

theorem drop_map_atRow (items : List LayoutItem) :
    (widgets.drop items).map (·.atRow 0) = items.map (·.atRow 0) := by
  have h := widgets.moved_drop items
  generalize widgets.drop items = out at h
  induction h with
  | nil => rfl
  | cons hij _ ih =>
    rw [map_cons, map_cons, ih, hij]
    rfl

theorem compact_map_atRow (items : List LayoutItem) :
    ((compact items).map (·.atRow 0)).Perm (items.map (·.atRow 0)) := by
  rw [compact_eq]
  refine ((sortByReadingOrder_perm _).map _).trans ?_
  rw [drop_map_atRow]
  exact (sortByReadingOrder_perm _).map _

theorem forall_of_rows {P : LayoutItem → Prop} {as bs : List LayoutItem}
    (hP : ∀ i, P (i.atRow 0) ↔ P i) (h : (bs.map (·.atRow 0)).Perm (as.map (·.atRow 0)))
    (has : ∀ i ∈ as, P i) : ∀ i ∈ bs, P i := by
  intro i hi
  obtain ⟨j, hj, he⟩ := mem_map.mp (h.subset (mem_map_of_mem hi))
  exact (hP i).mp (he ▸ (hP j).mpr (has j hj))

theorem solid_atRow (i : LayoutItem) : Solid (i.atRow 0) ↔ Solid i :=
  ⟨fun h => ⟨h.1, h.2, h.3, h.4⟩, fun h => ⟨h.1, h.2, h.3, h.4⟩⟩

theorem solid_compact (h : ∀ i ∈ items, Solid i) : ∀ i ∈ compact items, Solid i :=
  forall_of_rows solid_atRow (compact_map_atRow items) h

theorem overlaps_comm (a b : LayoutItem) : overlaps a b = overlaps b a := by
  rw [Bool.eq_iff_iff, overlaps_iff, overlaps_iff, show sharesColumn a b = sharesColumn b a from
    widgets.shares_comm a b]
  exact and_congr_right fun _ => And.comm

theorem ordered_compact (items : List LayoutItem) :
    (compact items).Pairwise fun p q => byReadingOrder p q ≤ 0 :=
  pairwise_sortByReadingOrder _

theorem grounded_compact (h : ∀ i ∈ items, 1 ≤ i.h) : widgets.Grounded (compact items) := by
  have hpm : (compact items).Perm (widgets.drop (sortByReadingOrder items)) := by
    rw [compact_eq]; exact sortByReadingOrder_perm _
  have htl : ∀ i ∈ compact items, 1 ≤ i.h :=
    forall_of_rows (fun _ => Iff.rfl) (compact_map_atRow items) h
  exact (widgets.grounded_drop _).of_perm widgets (fun i hi => htl i (hpm.mem_iff.mpr hi))
    hpm ((ordered_compact items).imp y_le_of_byReadingOrder)

theorem apart_of_grounded (h : widgets.Grounded items) : Apart items := by
  refine (h.pairwise widgets).imp fun {a b} hps => ?_
  cases ho : overlaps a b with
  | false => rfl
  | true =>
    obtain ⟨hcol, hrow, _⟩ := overlaps_iff.mp ho
    have : a.y + a.h ≤ b.y := hps hcol
    omega

theorem compact_of_grounded (h : widgets.Grounded items)
    (hsr : items.Pairwise fun p q => byReadingOrder p q ≤ 0) : compact items = items := by
  rw [compact_eq, sortByReadingOrder_of_pairwise hsr, widgets.drop_of_grounded h,
    sortByReadingOrder_of_pairwise hsr]

instance : Std.Symm fun a b : LayoutItem => overlaps a b = false where
  symm a b h := by rw [overlaps_comm, h]

theorem sound_compact (h : ∀ i ∈ items, Solid i) : Sound (compact items) := by
  have hgr := grounded_compact fun i hi => (h i hi).tall
  exact ⟨solid_compact h, fun i hi => hgr.top_nonneg widgets hi, apart_of_grounded hgr,
    ordered_compact items, compact_of_grounded hgr (ordered_compact items)⟩

section

variable {items' : List LayoutItem} (hsize : ∀ i ∈ items, Sized i) (hapart : Apart items)
  (hp : items'.Perm items)
include hapart hp hsize

theorem sortByReadingOrder_of_perm : sortByReadingOrder items' = sortByReadingOrder items := by
  refine List.Perm.eq_of_pairwise ?_ (pairwise_sortByReadingOrder items')
    (pairwise_sortByReadingOrder items)
    ((sortByReadingOrder_perm _).trans (hp.trans (sortByReadingOrder_perm _).symm))
  intro a b ha hb hab hba
  by_contra hne
  have ha := hp.subset (mem_sortByReadingOrder.mp ha)
  have hfr := hapart.forall ha (mem_sortByReadingOrder.mp hb) hne
  -- two widgets at one place overlap
  rw [byReadingOrder_le_iff] at hab hba
  obtain ⟨hw, hh⟩ := hsize a ha
  obtain ⟨hw', hh'⟩ := hsize b (mem_sortByReadingOrder.mp hb)
  rw [overlaps_iff.mpr ⟨sharesColumn_iff.mpr (by omega), by omega, by omega⟩] at hfr
  cases hfr

theorem compact_of_perm : compact items' = compact items := by
  rw [compact_eq, compact_eq, sortByReadingOrder_of_perm hsize hapart hp]

end

/-! ## The push -/

theorem pushRound_concat (placed : List LayoutItem) (p c : LayoutItem) :
    pushRound (placed ++ [p]) c =
      if overlaps (pushRound placed c).1 p then ((pushRound placed c).1.atRow (p.y + p.h), true)
      else pushRound placed c := by
  simp [pushRound, LayoutItem.atRow]

/-- A round that moves the candidate puts it past a placed item that it overlaps; a round that does
not finds it free. -/
theorem pushRound_spec (placed : List LayoutItem) (c : LayoutItem) :
    (pushRound placed c).1 = c.atRow (pushRound placed c).1.y ∧ c.y ≤ (pushRound placed c).1.y ∧
      ((pushRound placed c).2 = false →
        (pushRound placed c).1 = c ∧ ∀ p ∈ placed, overlaps c p = false) ∧
      ((pushRound placed c).2 = true →
        ∃ p ∈ placed, overlaps c p = true ∧ p.y + p.h ≤ (pushRound placed c).1.y) := by
  induction placed using List.reverseRecOn with
  | nil => exact ⟨rfl, le_rfl, fun _ => ⟨rfl, nofun⟩, nofun⟩
  | append_singleton placed p ih =>
    obtain ⟨hrow, hle, hst, hmv⟩ := ih
    rw [pushRound_concat]
    split
    next ho =>
      obtain ⟨_, _, hlt⟩ := overlaps_iff.mp ho
      refine ⟨?_, ?_, nofun, fun _ => ?_⟩
      · rw [hrow]; rfl
      · change c.y ≤ p.y + p.h
        omega
      · change ∃ q ∈ placed ++ [p], overlaps c q = true ∧ q.y + q.h ≤ p.y + p.h
        cases hm : (pushRound placed c).2 with
        | false => exact ⟨p, by simp, (hst hm).1 ▸ ho, le_rfl⟩
        | true =>
          obtain ⟨q, hq, hov, hps⟩ := hmv hm
          exact ⟨q, mem_append_left _ hq, hov, by omega⟩
    next ho =>
      refine ⟨hrow, hle, fun h => ?_, fun h => ?_⟩
      · obtain ⟨hc, hfr⟩ := hst h
        refine ⟨hc, fun q hq => ?_⟩
        rcases mem_append.mp hq with hq | hq
        · exact hfr q hq
        · rw [mem_singleton.mp hq, ← Bool.not_eq_true, ← hc]
          exact ho
      · obtain ⟨q, hq, hps⟩ := hmv h
        exact ⟨q, mem_append_left _ hq, hps⟩

def ahead (placed : List LayoutItem) (c : LayoutItem) : Nat :=
  placed.countP fun p => c.y < p.y + p.h

theorem ahead_lt {c d : LayoutItem} (hp : p ∈ placed) (hle : c.y ≤ d.y) (hc : c.y < p.y + p.h)
    (hd : p.y + p.h ≤ d.y) : ahead placed d < ahead placed c := by
  obtain ⟨as, bs, rfl⟩ := append_of_mem hp
  have hmn : ∀ l : List LayoutItem, ahead l d ≤ ahead l c := fun l =>
    countP_mono_left fun q _ hq => by
      simp only [decide_eq_true_eq] at hq ⊢
      omega
  have has := hmn as
  have hbs := hmn bs
  have hpc : ahead [p] c = 1 := by simp [ahead, hc]
  have hpd : ahead [p] d = 0 := by simp [ahead, hd]
  have split : ∀ e, ahead (as ++ p :: bs) e = ahead as e + ahead [p] e + ahead bs e := fun e => by
    simp only [ahead, countP_append, countP_cons, countP_nil]
    omega
  rw [split, split, hpc, hpd]
  omega

/-- With rounds to spare the candidate comes to rest clear of everything placed: in its row, or past
an item that it overlaps there. -/
theorem pushDown_free :
    ∀ {n c}, ahead placed c < n → ∃ y, pushDown placed n c = c.atRow y ∧ c.y ≤ y ∧
      (∀ p ∈ placed, overlaps (c.atRow y) p = false) ∧
      (y = c.y ∨ ∃ p ∈ placed, overlaps c p = true ∧ p.y + p.h ≤ y) := by
  intro n
  induction n with
  | zero => intro c h; exact absurd h (Nat.not_lt_zero _)
  | succ n ih =>
    intro c h
    obtain ⟨hrow, hle, hst, hmv⟩ := pushRound_spec placed c
    rw [pushDown]
    cases hm : (pushRound placed c).2 with
    | false =>
      obtain ⟨hc, hfr⟩ := hst hm
      exact ⟨c.y, by simp [hm, hc, LayoutItem.atRow], le_rfl, hfr, .inl rfl⟩
    | true =>
      obtain ⟨p, hp, hov, haf⟩ := hmv hm
      have hfw := ahead_lt hp hle (overlaps_iff.mp hov).2.2 haf
      obtain ⟨y, hy, hley, hfr, -⟩ := ih (c := (pushRound placed c).1) (by omega)
      rw [hrow] at hfr
      refine ⟨y, ?_, by omega, hfr, .inr ⟨p, hp, hov, by omega⟩⟩
      simp only [hm, if_true, hy]
      rw [hrow]
      rfl

theorem pushDown_length_free (placed : List LayoutItem) (c : LayoutItem) :
    ∃ y, pushDown placed (placed.length + 1) c = c.atRow y ∧ c.y ≤ y ∧
      (∀ p ∈ placed, overlaps (c.atRow y) p = false) ∧
      (y = c.y ∨ ∃ p ∈ placed, overlaps c p = true ∧ p.y + p.h ≤ y) :=
  pushDown_free (Nat.lt_succ_of_le countP_le_length)

/-- The placed items stay, every other item is at or below its own row, and none overlap. -/
theorem pushLoop_spec (rest : List LayoutItem) :
    ∀ placed, ∃ more, pushLoop placed rest = placed ++ more ∧
      List.Forall₂ (fun i j => j = i.atRow j.y ∧ i.y ≤ j.y) rest more ∧
      (Apart placed → Apart (placed ++ more)) := by
  induction rest with
  | nil => intro placed; exact ⟨[], by simp [pushLoop], .nil, by simp⟩
  | cons it rest ih =>
    intro placed
    obtain ⟨y, hy, hle, hfr, -⟩ := pushDown_length_free placed it
    obtain ⟨more, hmr, hrw, hapart⟩ := ih (placed ++ [it.atRow y])
    refine ⟨it.atRow y :: more, ?_, .cons ⟨rfl, hle⟩ hrw, fun hp => ?_⟩
    · rw [pushLoop, hy, hmr, append_assoc]
      rfl
    · have hp' : Apart (placed ++ [it.atRow y]) := by
        refine pairwise_append.mpr ⟨hp, pairwise_singleton _ _, fun a ha b hb => ?_⟩
        rw [mem_singleton.mp hb, overlaps_comm]
        exact hfr a ha
      simpa using hapart hp'

theorem map_atRow_of_forall₂ {as bs : List LayoutItem}
    (h : List.Forall₂ (fun i j => j = i.atRow j.y ∧ i.y ≤ j.y) as bs) :
    bs.map (·.atRow 0) = as.map (·.atRow 0) := by
  induction h with
  | nil => rfl
  | cons hij _ ih =>
    rw [map_cons, map_cons, ih, hij.1]
    rfl

/-- What `resolve` hands to gravity. -/
structure Pushed (items : List LayoutItem) (anchor : LayoutItem) (placed : List LayoutItem) :
    Prop where
  others : ∃ more, placed = anchor :: more ∧ (more.map (·.atRow 0)).Perm
    ((items.filter (·.instanceId ≠ anchor.instanceId)).map (·.atRow 0))
  below : (∀ i ∈ items, 0 ≤ i.y) → 0 ≤ anchor.y → ∀ i ∈ placed, 0 ≤ i.y
  apart : placed.Pairwise fun a b => overlaps a b = false

theorem Pushed.rows {anchor} (h : Pushed items anchor placed) : (placed.map (·.atRow 0)).Perm
      ((anchor :: items.filter (·.instanceId ≠ anchor.instanceId)).map (·.atRow 0)) := by
  obtain ⟨more, rfl, hrw⟩ := h.others
  exact hrw.cons _

theorem pushed_push (items : List LayoutItem) (anchor : LayoutItem) :
    Pushed items anchor (push items anchor) := by
  obtain ⟨more, hmr, hrw, hapart⟩ := pushLoop_spec
    (sortByReadingOrder (items.filter (·.instanceId ≠ anchor.instanceId))) [anchor]
  unfold push
  rw [hmr]
  refine ⟨⟨more, rfl, ?_⟩, fun h0 ha i hi => ?_, hapart (pairwise_singleton _ _)⟩
  · rw [map_atRow_of_forall₂ hrw]
    exact (sortByReadingOrder_perm _).map _
  · rcases mem_cons.mp hi with rfl | hi
    · exact ha
    · obtain ⟨j, hj, _, hle⟩ := exists_mem_of_forall₂ hrw hi
      have := h0 j (mem_filter.mp (mem_sortByReadingOrder.mp hj)).1
      omega

theorem bottom_le_of_apart {a b} (h : overlaps a b = false) (hcol : sharesColumn a b = true) :
    a.y + a.h ≤ b.y ∨ b.y + b.h ≤ a.y := by
  have hno : ¬ (b.y < a.y + a.h ∧ a.y < b.y + b.h) := fun hrow => by
    rw [overlaps_iff.mpr ⟨hcol, hrow⟩] at h
    cases h
  omega

theorem apart_sortByReadingOrder (h : Apart placed) : Apart (sortByReadingOrder placed) :=
  ((sortByReadingOrder_perm placed).pairwise_iff (Std.Symm.symm _ _)).mpr h

section

variable (hs : ∀ i ∈ placed, Sized i) (h0 : ∀ i ∈ placed, 0 ≤ i.y) (hapart : Apart placed)
include h0 hapart hs

end

end KubeCenter.Dashboard
