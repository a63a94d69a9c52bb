import KubeCenter.Dashboard.Settled

/-! # Where a widget added from the palette lands

`placement.ts`. The random suffix of a new instance id is a parameter. -/
namespace KubeCenter.Dashboard
open List

/-- What placing reads of a widget's registration; `params` are its declared
parameter names. -/
structure WidgetDef where
  id : String
  defaultW : Int
  defaultH : Int
  minW : Int
  minH : Int
  params : Option (List String)
deriving DecidableEq

def newInstanceId (widgetId randomSuffix : String) : String := s!"{widgetId}-{randomSuffix}"

/-- The rows or columns a loop `for (let v = 0; v + size <= limit; v++)` visits. -/
def starts (size limit : Int) : List Int := (List.range (limit - size + 1).toNat).map Int.ofNat

theorem mem_starts {size limit v : Int} : v ∈ starts size limit ↔ 0 ≤ v ∧ v + size ≤ limit := by
  simp only [starts, mem_map, mem_range]
  constructor
  · rintro ⟨n, hn, rfl⟩
    simp only [Int.ofNat_eq_natCast]
    omega
  · rintro ⟨h0, hle⟩
    exact ⟨v.toNat, by omega, by simp [h0]⟩

def firstFit (items : List LayoutItem) (w h columns : Int) : Option (Int × Int) :=
  (starts h dashboardMaxRows).findSome? fun y =>
    (starts w columns).findSome? fun x =>
      let candidate : LayoutItem := ⟨"", "", x, y, w, h, none⟩
      if items.any fun i => overlaps candidate i then none else some (x, y)

def narrowParams (defn : WidgetDef) (params : List (String × String)) : List (String × String) :=
  match defn.params with
  | none => []
  | some declared => declared.filterMap fun key =>
    let value := (params.lookup key).getD ""
    if value ≠ "" then some (key, value) else none

def placeNewWidget (items : List LayoutItem) (defn : WidgetDef) (randomSuffix : String)
    (columns : Int) (params : List (String × String)) : Option LayoutItem :=
  let w := max 1 (min (max defn.defaultW defn.minW) columns)
  let h := max 1 (max defn.defaultH defn.minH)
  (firstFit items w h columns).map fun (x, y) =>
    let carried := narrowParams defn params
    { instanceId := newInstanceId defn.id randomSuffix
      id := defn.id
      x, y, w, h
      params := if carried.length > 0 then some carried else none }

/-! ## The scan -/

theorem pairwise_starts (size limit : Int) : (starts size limit).Pairwise (· < ·) :=
  pairwise_map.mpr (pairwise_lt_range.imp Int.ofNat_lt.mpr)

theorem findSome?_starts {β : Type} {size limit : Int} {f : Int → Option β} {b}
    (h : (starts size limit).findSome? f = some b) :
    ∃ v, (0 ≤ v ∧ v + size ≤ limit) ∧ f v = some b ∧ ∀ u, 0 ≤ u → u < v → f u = none := by
  obtain ⟨pre, v, post, he, hv, hpre⟩ := findSome?_eq_some_iff.mp h
  have hin := mem_starts.mp (he ▸ mem_append_right pre mem_cons_self)
  refine ⟨v, hin, hv, fun u h0 hlt => hpre u ?_⟩
  have hu : u ∈ starts size limit := mem_starts.mpr ⟨h0, by omega⟩
  have hsr := pairwise_starts size limit
  rw [he, pairwise_append, pairwise_cons] at hsr
  rw [he, mem_append, mem_cons] at hu
  rcases hu with hu | rfl | hu
  · exact hu
  · exact absurd hlt (lt_irrefl _)
  · exact absurd hlt (not_lt_of_gt (hsr.2.1.1 u hu))

variable {items : List LayoutItem} {w h columns x y : Int} {it : LayoutItem}

/-- A cell of the grid, above the row cap, that no item reaches into. -/
structure FreeCell (items : List LayoutItem) (w h columns x y : Int) : Prop where
  left : 0 ≤ x
  right : x + w ≤ columns
  upper : 0 ≤ y
  lower : y + h ≤ dashboardMaxRows
  free : ∀ i ∈ items, overlaps ⟨"", "", x, y, w, h, none⟩ i = false

theorem FreeCell.any_eq_false (hce : FreeCell items w h columns x y) :
    (items.any fun i => overlaps ⟨"", "", x, y, w, h, none⟩ i) = false := by
  simpa using hce.free

theorem firstFit_none :
    firstFit items w h columns = none ↔ ∀ x y, ¬FreeCell items w h columns x y := by
  simp only [firstFit, findSome?_eq_none_iff, mem_starts]
  constructor
  · intro hno x y hce
    have hbs := hno y ⟨hce.upper, hce.lower⟩ x ⟨hce.left, hce.right⟩
    simp [hce.any_eq_false] at hbs
  · intro hno y hy x hx
    by_contra hfr
    refine hno x y ⟨hx.1, hx.2, hy.1, hy.2, ?_⟩
    simpa using hfr

theorem firstFit_some (hf : firstFit items w h columns = some (x, y)) :
    FreeCell items w h columns x y ∧
      ∀ x' y', FreeCell items w h columns x' y' → y < y' ∨ (y = y' ∧ x ≤ x') := by
  obtain ⟨y₀, hy, hf, hrw⟩ := findSome?_starts hf
  obtain ⟨x₀, hx, hf, hcl⟩ := findSome?_starts hf
  simp only [Option.ite_none_left_eq_some, Option.some.injEq, Prod.mk.injEq] at hf
  obtain ⟨hfr, rfl, rfl⟩ := hf
  refine ⟨⟨hx.1, hx.2, hy.1, hy.2, by simpa using hfr⟩, fun x' y' hce => ?_⟩
  by_contra hbe
  rcases lt_or_ge y' y₀ with hlt | hge
  · have hbs := findSome?_eq_none_iff.mp (hrw y' hce.upper hlt) x'
      (mem_starts.mpr ⟨hce.left, hce.right⟩)
    simp [hce.any_eq_false] at hbs
  · obtain rfl : y' = y₀ := by omega
    have hbs := hcl x' hce.left (by omega)
    simp [hce.any_eq_false] at hbs

/-- The first free cell is in the first row or directly under an item: the cell
above it is taken. -/
theorem FreeCell.rests (hce : FreeCell items w h columns x y)
    (hfi : ∀ x' y', FreeCell items w h columns x' y' → y < y' ∨ (y = y' ∧ x ≤ x')) :
    y = 0 ∨ ∃ i ∈ items, (i.x < x + w ∧ x < i.x + i.w) ∧ y = i.y + i.h := by
  refine or_iff_not_imp_left.mpr fun h0 => ?_
  have hy := hce.upper
  have hab : ¬FreeCell items w h columns x (y - 1) := fun hc => by
    have := hfi x (y - 1) hc
    omega
  by_contra hno
  refine hab ⟨hce.left, hce.right, by omega, by have := hce.lower; omega, fun i hi => ?_⟩
  rw [Bool.eq_false_iff]
  intro hover
  obtain ⟨hcol, hrow⟩ := overlaps_iff.mp hover
  refine hno ⟨i, hi, sharesColumn_iff.mp hcol, ?_⟩
  have := bottom_le_of_apart (hce.free i hi) hcol
  simp only at this hrow
  omega

theorem solid_placeNewWidget {items defn} {randomSuffix : String} {params it}
    (h : placeNewWidget items defn randomSuffix dashboardColumns params = some it) : Solid it := by
  obtain ⟨⟨x, y⟩, hf, rfl⟩ := Option.map_eq_some_iff.mp h
  have hce := (firstFit_some hf).1
  exact ⟨hce.left, hce.right, le_max_left _ _, le_max_left _ _⟩

/-! ## A widget placed on a settled layout -/

theorem compact_concat (hfix : compact items = items) (htl : ∀ i ∈ items ++ [it], 1 ≤ i.h)
    (h0 : 0 ≤ it.y) (hfr : ∀ i ∈ items, overlaps it i = false)
    (hrs : it.y = 0 ∨ ∃ i ∈ items, sharesColumn it i = true ∧ it.y = i.y + i.h) :
    compact (items ++ [it]) = sortByReadingOrder (items ++ [it]) := by
  have hgr : widgets.Grounded items :=
    hfix ▸ grounded_compact fun i hi => htl i (mem_append_left _ hi)
  have hap : (items ++ [it]).Pairwise fun a b => overlaps a b = false := by
    refine pairwise_append.mpr ⟨apart_of_grounded hgr, pairwise_singleton _ _, ?_⟩
    intro a ha b hb
    rw [mem_singleton.mp hb, overlaps_comm]
    exact hfr a ha
  have hall : widgets.Grounded (sortByReadingOrder (items ++ [it])) := by
    refine widgets.grounded_of_rests (fun i hi => ?_)
      ((pairwise_sortByReadingOrder _).imp y_le_of_byReadingOrder)
      ((apart_sortByReadingOrder hap).imp bottom_le_of_apart) fun i hi => ?_
    · have hi := mem_sortByReadingOrder.mp hi
      refine ⟨htl i hi, ?_⟩
      rcases mem_append.mp hi with hi | hi
      · exact hgr.top_nonneg widgets hi
      · rw [mem_singleton.mp hi]
        exact h0
    · have hon : widgets.top i = 0 ∨
          ∃ s ∈ items, widgets.shares i s = true ∧ widgets.top i = widgets.bottom s := by
        rcases mem_append.mp (mem_sortByReadingOrder.mp hi) with hi | hi
        · exact hgr.rests widgets hi
        · rw [mem_singleton.mp hi]
          exact hrs
      refine hon.imp_right fun ⟨s, hs, hon⟩ => ⟨s, ?_, hon⟩
      exact mem_sortByReadingOrder.mpr (mem_append_left _ hs)
  rw [compact_eq, widgets.drop_of_grounded hall,
    sortByReadingOrder_of_pairwise (pairwise_sortByReadingOrder _)]

/-- **A new widget takes the first free cell, and disturbs nothing.** None is placed exactly when
no cell is free, and a settled layout stays where it is. -/
theorem placeNewWidget_firstFit (items : List LayoutItem) (defn : WidgetDef)
    (randomSuffix : String) (columns : Int) (params : List (String × String)) :
    let w := max 1 (min (max defn.defaultW defn.minW) columns)
    let h := max 1 (max defn.defaultH defn.minH)
    (placeNewWidget items defn randomSuffix columns params = none ↔
      ∀ x y, ¬FreeCell items w h columns x y) ∧
    ∀ it, placeNewWidget items defn randomSuffix columns params = some it →
      (it.w = w ∧ it.h = h) ∧ FreeCell items w h columns it.x it.y ∧
      (∀ x y, FreeCell items w h columns x y → it.y < y ∨ (it.y = y ∧ it.x ≤ x)) ∧
      (compact items = items → (∀ i ∈ items, 1 ≤ i.h) →
        compact (items ++ [it]) = sortByReadingOrder (items ++ [it])) := by
  intro w h
  refine ⟨by rw [placeNewWidget, Option.map_eq_none_iff, firstFit_none], fun it hpl => ?_⟩
  obtain ⟨⟨x, y⟩, hf, rfl⟩ := Option.map_eq_some_iff.mp hpl
  obtain ⟨hce, hfi⟩ := firstFit_some hf
  refine ⟨⟨rfl, rfl⟩, hce, hfi, fun hfix htl => ?_⟩
  refine compact_concat hfix ?_ hce.upper hce.free ?_
  · simpa [or_imp, forall_and] using htl
  · simpa only [sharesColumn_iff] using hce.rests hfi

/-- On a grid of 12 columns the third widget of width 5 goes under the first. -/
theorem placeNewWidget_firstFit_full :
    let a : LayoutItem := ⟨"a", "w", 0, 0, 5, 2, none⟩
    let b : LayoutItem := ⟨"b", "w", 5, 0, 5, 3, none⟩
    let c : LayoutItem := ⟨"w-c", "w", 0, 2, 5, 2, none⟩
    compact [a, b, c] = [a, b, c] :=
  ((placeNewWidget_firstFit [⟨"a", "w", 0, 0, 5, 2, none⟩, ⟨"b", "w", 5, 0, 5, 3, none⟩]
    ⟨"w", 5, 2, 2, 2, none⟩ "c" 12 []).2 ⟨"w-c", "w", 0, 2, 5, 2, none⟩ (by decide)).2.2.2
    (by decide) (by decide)

/-- A widget without height leaves the first cell free, and falls below what is placed there. -/
theorem placeNewWidget_moves_flat : let flat : LayoutItem := ⟨"flat", "flat", 1, 0, 1, 0, none⟩
    let it : LayoutItem := ⟨"w-a", "w", 0, 0, 2, 1, none⟩
    compact [flat] = [flat] ∧
      placeNewWidget [flat] ⟨"w", 2, 1, 2, 1, none⟩ "a" 12 [] = some it ∧
      compact ([flat] ++ [it]) = [it, { flat with y := 1 }] := by
  decide

end KubeCenter.Dashboard
