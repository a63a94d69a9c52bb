import KubeCenter.Lib.Machine
import KubeCenter.Dashboard.Placement

/-! # Editing runs

The passes of an edit alternate between a layout and the arrangement pushed from it, so a rule for
edits takes two predicates: `L` of layouts, `A` of arrangements. -/
namespace KubeCenter.Dashboard
open Lib List

section

variable {items : List LayoutItem} {instanceId : String}

theorem findTarget_ok {t} :
    findTarget items instanceId = .ok t ↔ items.find? (·.instanceId = instanceId) = some t := by
  unfold findTarget
  cases items.find? (·.instanceId = instanceId) <;> simp

theorem findTarget_mem {t} (h : findTarget items instanceId = .ok t) :
    t ∈ items ∧ t.instanceId = instanceId := by
  have hfd := findTarget_ok.mp h
  exact ⟨mem_of_find?_eq_some hfd, by simpa using find?_some hfd⟩

theorem exists_findTarget (h : instanceId ∈ items.map (·.instanceId)) :
    ∃ t, findTarget items instanceId = .ok t := by
  obtain ⟨i, hi, he⟩ := mem_map.mp h
  cases hf : items.find? (·.instanceId = instanceId) with
  | none => simpa [he] using find?_eq_none.mp hf i hi
  | some t => exact ⟨t, findTarget_ok.mpr hf⟩

theorem findTarget_of_mem {t} (hn : Distinct items) (ht : t ∈ items) :
    findTarget items t.instanceId = .ok t := by
  obtain ⟨u, hu⟩ := exists_findTarget (mem_map_of_mem ht)
  rw [hu, inj_on_of_nodup_map hn (findTarget_mem hu).1 ht (findTarget_mem hu).2]

end

/-! ## Rules for edits -/

/-- An edit that does not throw, and whose arrangement, if any, has `A`. -/
def Yields (A : List LayoutItem → Prop) (e : Except String Arrangement) : Prop :=
  ∃ arr, e = .ok arr ∧ ∀ placed ∈ arr, A placed

section Rules

variable {L A : List LayoutItem → Prop} {instanceId : String} {place : LayoutItem → LayoutItem}

/-- A layout has the target, and gravity makes an arrangement a layout again. -/
structure Falls (L A : List LayoutItem → Prop) (instanceId : String) : Prop where
  knows : ∀ {cur}, L cur → instanceId ∈ cur.map (·.instanceId)
  falls : ∀ {placed}, A placed → L (compact placed)

/-- A push from a layout yields an arrangement. -/
structure Passes (L A : List LayoutItem → Prop) (instanceId : String)
    (place : LayoutItem → LayoutItem) : Prop extends Falls L A instanceId where
  pushes : ∀ {cur t}, L cur → t ∈ cur → t.instanceId = instanceId → A (push cur (place t))

theorem Passes.loop_ok (h : Passes L A instanceId place) :
    ∀ n {placed}, A placed → ∃ out, settleLoop instanceId place n placed = .ok out ∧ A out := by
  intro n
  induction n with
  | zero => intro placed hp; exact ⟨placed, rfl, hp⟩
  | succ n ih =>
    intro placed hp
    have hl := h.falls hp
    obtain ⟨t, ht⟩ := exists_findTarget (h.knows hl)
    have hnx := h.pushes hl (findTarget_mem ht).1 (findTarget_mem ht).2
    simp only [settleLoop, ht, bind, Except.bind]
    split
    · exact ⟨_, rfl, hnx⟩
    · exact ih hnx

theorem Passes.settle_ok (h : Passes L A instanceId place) {items} (hl : L items) :
    ∃ out, settleArrangement instanceId place items = .ok out ∧ A out := by
  obtain ⟨t, ht⟩ := exists_findTarget (h.knows hl)
  simp only [settleArrangement, ht, bind, Except.bind]
  exact h.loop_ok _ (h.pushes hl (findTarget_mem ht).1 (findTarget_mem ht).2)

theorem Passes.yields (h : Passes L A instanceId place) {items} (hl : L items) :
    Yields A (some <$> settleArrangement instanceId place items) := by
  obtain ⟨out, he, ho⟩ := h.settle_ok hl
  refine ⟨some out, by rw [he]; rfl, ?_⟩
  rintro placed ⟨⟩
  exact ho

theorem yields_none : Yields A (.ok none) := ⟨none, rfl, nofun⟩

theorem Falls.layout (h : Falls L A instanceId) {items} (hl : L items) {arr}
    (ha : ∀ placed ∈ arr, A placed) : L (fall items arr) := by
  cases arr with
  | none => exact hl
  | some placed => exact h.falls (ha placed rfl)

end Rules

theorem round_intCast (n : Int) : round n = n := by
  rw [round, Int.floor_intCast_add]
  norm_num

def askedHeight (bounds : Bounds) (h : ℚ) : Int := max 1 (max bounds.minH (round h))

section Edits

variable {L A : List LayoutItem → Prop} {items : List LayoutItem} {instanceId : String}
  (hl : L items)
include hl

theorem yields_moveArrangement {x y : Coord}
    (h : ∀ q row, x = .finite q → Passes L A instanceId (placeAt (round q) row)) :
    Yields A (moveArrangement items instanceId x y) := by
  unfold moveArrangement
  split
  · exact (h _ _ rfl).yields hl
  · exact yields_none

theorem yields_stepLoop {target first} (hp : ∀ row, Passes L A instanceId (placeAt target.x row))
    (hf : ∀ placed ∈ first, A placed) :
    ∀ n y, Yields A (stepLoop items instanceId target first n y) := by
  intro n
  induction n with
  | zero => intro y; exact ⟨first, rfl, hf⟩
  | succ n ih =>
    intro y
    obtain ⟨next, hnx, ha⟩ := yields_moveArrangement (x := .finite target.x) (y := .finite y) hl
      fun q row hq => by cases hq; rw [round_intCast]; exact hp row
    obtain ⟨t, ht⟩ := exists_findTarget ((hp 0).knows ((hp 0).layout hl ha))
    simp only [stepLoop, hnx, ht, bind, Except.bind]
    split
    · exact ⟨next, rfl, ha⟩
    · exact ih _

theorem yields_stepArrangement {dx dy : Coord}
    (h : ∀ t q row, items.find? (·.instanceId = instanceId) = some t → dx = .finite q →
      Passes L A instanceId (placeAt (t.x + round q) row)) :
    Yields A (stepArrangement items instanceId dx dy) := by
  unfold stepArrangement
  split
  next target dx dy hfd =>
    have hp := fun row => h target dx row hfd rfl
    have hmv : Yields A (moveArrangement items instanceId
        (.finite ((target.x + round dx : Int) : ℚ)) (.finite ((target.y + round dy : Int) : ℚ))) :=
      yields_moveArrangement hl fun q row hq => by cases hq; rw [round_intCast]; exact hp row
    obtain ⟨first, hfi, ha⟩ := hmv
    obtain ⟨t, ht⟩ := exists_findTarget ((hp 0).knows ((hp 0).layout hl ha))
    simp only [hfi, ht, bind, Except.bind]
    split
    · exact ⟨first, rfl, ha⟩
    next hcol =>
      split
      · exact ⟨first, rfl, ha⟩
      · simp only [not_or, not_not] at hcol
        rw [hcol.1] at hp
        exact yields_stepLoop hl (by simpa using hp) ha _ _
  · exact yields_none

variable {bounds : Bounds}

theorem yields_resizeArrangement {w h : Coord}
    (hp : ∀ p q, w = .finite p → h = .finite q →
      Passes L A instanceId (sizeTo bounds (round p) (askedHeight bounds q))) :
    Yields A (resizeArrangement items instanceId bounds w h) := by
  unfold resizeArrangement
  split
  · exact (hp _ _ rfl rfl).yields hl
  · exact yields_none

variable (hf : Falls L A instanceId) {cell : Cell}
  (h : ∀ {cur u}, L cur → u ∈ cur → u.instanceId = instanceId → ∀ p q,
    (aim cell u).1 = .finite p → (aim cell u).2 = .finite q →
      Passes L A instanceId (sizeTo bounds (round p) (askedHeight bounds q)))
include hf h

theorem yields_aimLoop : ∀ n current {arr}, (∀ placed ∈ arr, A placed) →
      Yields A (aimLoop items instanceId bounds cell n current arr) := by
  intro n
  induction n with
  | zero => intro current arr ha; exact ⟨arr, rfl, ha⟩
  | succ n ih =>
    intro current arr ha
    have hout := hf.layout hl ha
    obtain ⟨t, ht⟩ := exists_findTarget (hf.knows hout)
    simp only [aimLoop, ht, bind, Except.bind]
    split
    · exact ⟨arr, rfl, ha⟩
    · obtain ⟨next, hnx, hn⟩ := yields_resizeArrangement hout
        (h hout (findTarget_mem ht).1 (findTarget_mem ht).2)
      rw [hnx]
      refine ih t fun placed hp => ?_
      cases next with
      | none => exact ha placed hp
      | some q => exact hn placed hp

theorem yields_resizeToCellArrangement :
    Yields A (resizeToCellArrangement items instanceId bounds cell) := by
  unfold resizeToCellArrangement
  split
  next current hfd =>
    obtain ⟨hm, hid⟩ := findTarget_mem (findTarget_ok.mpr hfd)
    obtain ⟨first, hfi, ha⟩ := yields_resizeArrangement hl (h hl hm hid)
    simp only [hfi, bind, Except.bind]
    exact yields_aimLoop hl hf h _ _ ha
  · exact yields_none

end Edits

/-! ## What an edit may change -/

/-- All but the rows, and the place and size of the target itself. -/
def LayoutItem.kept (target : Option String) (i : LayoutItem) :
    String × String × Option (List (String × String)) × Option (Int × Int × Int) :=
  (i.instanceId, i.id, i.params, if some i.instanceId = target then none else some (i.x, i.w, i.h))

def Kept (target : Option String) (before after : List LayoutItem) : Prop :=
  (after.map (·.kept target)).Perm (before.map (·.kept target))

theorem Kept.of_rows {target} {before after : List LayoutItem}
    (h : (after.map (·.atRow 0)).Perm (before.map (·.atRow 0))) : Kept target before after := by
  have hrow : ∀ items : List LayoutItem,
      items.map (·.kept target) = (items.map (·.atRow 0)).map (·.kept target) := fun items => by
    rw [map_map]
    rfl
  rw [Kept, hrow after, hrow before]
  exact h.map _

theorem Kept.ids {target before after} (h : Kept target before after) :
    (after.map (·.instanceId)).Perm (before.map (·.instanceId)) := by
  have hfst : ∀ items : List LayoutItem,
      items.map (·.instanceId) = (items.map (·.kept target)).map (·.1) := fun items => by
    rw [map_map]
    rfl
  rw [hfst after, hfst before]
  exact h.map _

theorem filter_others {as bs} {t : LayoutItem} (hn : Distinct (as ++ t :: bs)) :
    (as ++ t :: bs).filter (·.instanceId ≠ t.instanceId) = as ++ bs := by
  have hn' := (perm_middle.map LayoutItem.instanceId).nodup_iff.mp hn
  rw [map_cons, nodup_cons] at hn'
  have hrs : ∀ i ∈ as ++ bs, i.instanceId ≠ t.instanceId := fun i hi he =>
    hn'.1 (mem_map.mpr ⟨i, hi, he⟩)
  rw [filter_append, filter_cons_of_neg (by simp), ← filter_append,
    filter_eq_self.mpr (by simpa using hrs)]

theorem perm_target_cons {items : List LayoutItem} (hn : Distinct items)
    {t : LayoutItem} (ht : t ∈ items) :
    items.Perm (t :: items.filter (·.instanceId ≠ t.instanceId)) := by
  obtain ⟨as, bs, rfl⟩ := append_of_mem ht
  rw [filter_others hn]
  exact perm_middle

theorem Kept.push {items cur} {instanceId : String} {t anchor : LayoutItem}
    (h : Kept (some instanceId) items cur) (hn : Distinct items) (ht : t ∈ cur)
    (ha : anchor.kept (some instanceId) = t.kept (some instanceId)) :
    Kept (some instanceId) items (push cur anchor) := by
  have hn' : Distinct cur := h.ids.nodup_iff.mpr hn
  have han : anchor.instanceId = t.instanceId := congrArg Prod.fst ha
  have hcur := (perm_target_cons hn' ht).map (·.kept (some instanceId))
  have hps : Kept (some instanceId) (anchor :: cur.filter (·.instanceId ≠ anchor.instanceId))
      (Dashboard.push cur anchor) := .of_rows (pushed_push cur anchor).rows
  unfold Kept at hps h ⊢
  rw [map_cons, ha, han, ← map_cons] at hps
  exact (hps.trans hcur.symm).trans h

structure Keeps (target : Option String) (before after : List LayoutItem) : Prop where
  ids : (after.map (·.instanceId)).Perm (before.map (·.instanceId))
  content : ∀ i ∈ before, ∀ j ∈ after, j.instanceId = i.instanceId →
    j.id = i.id ∧ j.params = i.params
  shape : ∀ i ∈ before, ∀ j ∈ after, j.instanceId = i.instanceId → some i.instanceId ≠ target →
    j.x = i.x ∧ j.w = i.w ∧ j.h = i.h

theorem Kept.keeps {target before after} (h : Kept target before after)
    (hn : Distinct before) : Keeps target before after := by
  have same : ∀ i ∈ before, ∀ j ∈ after, j.instanceId = i.instanceId →
      j.kept target = i.kept target := by
    intro i hi j hj he
    obtain ⟨i', hi', hke⟩ := mem_map.mp (h.subset (mem_map_of_mem hj))
    have hid : i'.instanceId = j.instanceId := congrArg Prod.fst hke
    rw [inj_on_of_nodup_map hn hi hi' (by rw [hid, he]), hke]
  refine ⟨h.ids, fun i hi j hj he => ?_, fun i hi j hj he hne => ?_⟩
  · have hk := congrArg Prod.snd (same i hi j hj he)
    exact ⟨congrArg Prod.fst hk, congrArg (fun k => k.2.1) hk⟩
  · have hk := congrArg (fun k => k.2.2.2) (same i hi j hj he)
    simp only [LayoutItem.kept, he, if_neg hne, Option.some.injEq, Prod.mk.injEq] at hk
    exact hk

/-! ## Every pass keeps the widgets -/

structure Edited (items : List LayoutItem) (instanceId : String) (cur : List LayoutItem) :
    Prop where
  solid : ∀ i ∈ cur, Solid i
  kept : Kept (some instanceId) items cur

theorem Edited.compact {items cur} {instanceId : String} (h : Edited items instanceId cur) :
    Edited items instanceId (compact cur) where
  solid := solid_compact h.solid
  kept := (Kept.of_rows (compact_map_atRow cur)).trans h.kept

theorem solid_push {cur anchor} (h : ∀ i ∈ cur, Solid i) (ha : Solid anchor) :
    ∀ i ∈ push cur anchor, Solid i := by
  have hall : ∀ i ∈ anchor :: cur.filter (·.instanceId ≠ anchor.instanceId), Solid i :=
    forall_mem_cons.mpr ⟨ha, fun i hi => h i (mem_filter.mp hi).1⟩
  exact forall_of_rows solid_atRow (pushed_push cur anchor).rows hall

theorem eq_of_mem_push {cur} {anchor j : LayoutItem} (hj : j ∈ push cur anchor)
    (hid : j.instanceId = anchor.instanceId) : j = anchor := by
  obtain ⟨more, he, hrw⟩ := (pushed_push cur anchor).others
  rw [he] at hj
  rcases mem_cons.mp hj with rfl | hj
  · rfl
  · obtain ⟨i, hi, hij⟩ := mem_map.mp (hrw.subset (mem_map_of_mem hj))
    have hne : i.instanceId ≠ anchor.instanceId := by simpa using (mem_filter.mp hi).2
    exact absurd ((congrArg LayoutItem.instanceId hij).trans hid) hne

section Passes

variable {items : List LayoutItem} {instanceId : String} (hn : Distinct items)
  (hid : instanceId ∈ items.map (·.instanceId))

include hid in
theorem falls_edited : Falls (Edited items instanceId) (Edited items instanceId) instanceId where
  knows h := h.kept.ids.mem_iff.mpr hid
  falls h := h.compact

include hn hid in
/-- The placement keeps the target in the grid and changes nothing but its place and size. -/
theorem passes_edited {place} (hsl : ∀ t, Solid t → Solid (place t))
    (hke : ∀ t, t.instanceId = instanceId →
      (place t).kept (some instanceId) = t.kept (some instanceId)) :
    Passes (Edited items instanceId) (Edited items instanceId) instanceId place where
  toFalls := falls_edited hid
  pushes h ht he := ⟨solid_push h.solid (hsl _ (h.solid _ ht)), h.kept.push hn ht (hke _ he)⟩

theorem solid_placeAt {t} (h : Solid t) (col row : Int) : Solid (placeAt col row t) := by
  obtain ⟨hl, hr, hw, hh⟩ := h
  have hcol : 0 ≤ clamp col 0 (max 0 (dashboardColumns - t.w)) ∧
      clamp col 0 (max 0 (dashboardColumns - t.w)) + t.w ≤ dashboardColumns := by
    unfold clamp
    omega
  exact ⟨hcol.1, hcol.2, hw, hh⟩

theorem solid_sizeTo {t} (h : Solid t) (bounds : Bounds) (width height : Int) :
    Solid (sizeTo bounds width height t) := by
  obtain ⟨hl, hr, hw, hh⟩ := h
  have hrg : t.x + max 1 (clamp width bounds.minW (dashboardColumns - t.x)) ≤ dashboardColumns := by
    unfold clamp
    omega
  exact ⟨hl, hrg, le_max_left _ _, le_max_left _ _⟩

include hn hid

theorem passes_placeAt (col row : Int) :
    Passes (Edited items instanceId) (Edited items instanceId) instanceId (placeAt col row) :=
  passes_edited hn hid (fun _ h => solid_placeAt h col row) fun t he => by
    simp [LayoutItem.kept, placeAt, he]

theorem passes_sizeTo (bounds : Bounds) (width height : Int) :
    Passes (Edited items instanceId) (Edited items instanceId) instanceId
      (sizeTo bounds width height) :=
  passes_edited hn hid (fun _ h => solid_sizeTo h bounds width height) fun t he => by
    simp [LayoutItem.kept, sizeTo, he]

end Passes

/-! ## The editor -/

inductive Edit where
  | move (instanceId : String) (x y : Coord)
  | step (instanceId : String) (dx dy : Coord)
  | resize (instanceId : String) (w h : Coord) (bounds : Bounds)
  | resizeBy (instanceId : String) (dw dh : Coord) (bounds : Bounds)
  | resizeToCell (instanceId : String) (cell : Cell) (bounds : Bounds)
  | remove (instanceId : String)
  | add (defn : WidgetDef) (randomSuffix : String) (params : List (String × String))

/-- The edit as the island applies it: `removeItem` and the palette end in
`compact` themselves. -/
def Edit.apply (items : List LayoutItem) : Edit → Except String (List LayoutItem)
  | .move instanceId x y => moveItem items instanceId x y
  | .step instanceId dx dy => stepItem items instanceId dx dy
  | .resize instanceId w h bounds => resizeItem items instanceId bounds w h
  | .resizeBy instanceId dw dh bounds => resizeItemBy items instanceId bounds dw dh
  | .resizeToCell instanceId cell bounds => resizeItemToCell items instanceId bounds cell
  | .remove instanceId => .ok (compact (items.filter (·.instanceId ≠ instanceId)))
  | .add defn randomSuffix params =>
    match placeNewWidget items defn randomSuffix dashboardColumns params with
    | none => .ok items
    | some it => .ok (compact (items ++ [it]))

@[local simp] def Edit.arrangement (items : List LayoutItem) : Edit → Except String Arrangement
  | .move instanceId x y => moveArrangement items instanceId x y
  | .step instanceId dx dy => stepArrangement items instanceId dx dy
  | .resize instanceId w h bounds => resizeArrangement items instanceId bounds w h
  | .resizeBy instanceId dw dh bounds => resizeByArrangement items instanceId bounds dw dh
  | .resizeToCell instanceId cell bounds => resizeToCellArrangement items instanceId bounds cell
  | .remove instanceId => .ok (some (items.filter (·.instanceId ≠ instanceId)))
  | .add defn randomSuffix params => .ok
      ((placeNewWidget items defn randomSuffix dashboardColumns params).map (items ++ [·]))

theorem Edit.apply_eq (items : List LayoutItem) (e : Edit) :
    e.apply items = fall items <$> e.arrangement items := by
  cases e with
  | add defn randomSuffix params =>
    simp only [Edit.apply, Edit.arrangement]
    split <;> rename_i hp <;> rw [hp] <;> rfl
  | move | step | resize | resizeBy | resizeToCell | remove => rfl

def Edit.target : Edit → Option String
  | .move instanceId .. | .step instanceId .. | .resize instanceId .. | .resizeBy instanceId ..
  | .resizeToCell instanceId .. => some instanceId
  | .remove _ | .add .. => none

/-- The placements an edit makes: `t` is the target before it, `u` the target in one of its
layouts. -/
def Edit.Places (t u : LayoutItem) : Edit → (LayoutItem → LayoutItem) → Prop
  | .move _ (.finite x) _, place => ∃ row, place = placeAt (round x) row
  | .step _ (.finite dx) _, place => ∃ row, place = placeAt (t.x + round dx) row
  | .resize _ (.finite w) (.finite h) bounds, place =>
    place = sizeTo bounds (round w) (askedHeight bounds h)
  | .resizeBy _ (.finite dw) (.finite dh) bounds, place =>
    place = sizeTo bounds (round (t.w + dw)) (askedHeight bounds (t.h + dh))
  | .resizeToCell _ ⟨.finite x, .finite y⟩ bounds, place =>
    place = sizeTo bounds (round (x - u.x + 1)) (askedHeight bounds (y - u.y + 1))
  | _, _ => False

theorem Edit.Places.cases {e : Edit} {t u place} (h : e.Places t u place) :
    (∃ col row, place = placeAt col row) ∨
      ∃ bounds width height, place = sizeTo bounds width height := by
  unfold Edit.Places at h
  split at h
  · exact .inl ⟨_, h⟩
  · exact .inl ⟨_, h⟩
  · exact .inr ⟨_, _, _, h⟩
  · exact .inr ⟨_, _, _, h⟩
  · exact .inr ⟨_, _, _, h⟩
  · exact h.elim

theorem passes_of_places {items} {instanceId : String} (hn : Distinct items)
    (hid : instanceId ∈ items.map (·.instanceId)) {e : Edit} {t u place} (h : e.Places t u place) :
    Passes (Edited items instanceId) (Edited items instanceId) instanceId place := by
  rcases h.cases with ⟨col, row, rfl⟩ | ⟨bounds, width, height, rfl⟩
  · exact passes_placeAt hn hid col row
  · exact passes_sizeTo hn hid bounds width height

theorem Edit.yields {L A items} {instanceId : String} {e : Edit} (ht : e.target = some instanceId)
    (hf : Falls L A instanceId) (hl : L items)
    (hp : ∀ {cur t u place}, items.find? (·.instanceId = instanceId) = some t → L cur → u ∈ cur →
      u.instanceId = instanceId → e.Places t u place → Passes L A instanceId place) :
    Yields A (e.arrangement items) := by
  obtain ⟨t, hfd⟩ := exists_findTarget (hf.knows hl)
  obtain ⟨hm, hid⟩ := findTarget_mem hfd
  have hps : ∀ {place}, e.Places t t place → Passes L A instanceId place :=
    hp (findTarget_ok.mp hfd) hl hm hid
  cases e with
  | move =>
    cases ht
    exact yields_moveArrangement hl fun q row hq => hps (by cases hq; exact ⟨row, rfl⟩)
  | step =>
    cases ht
    refine yields_stepArrangement hl fun t q row hfd hq => ?_
    exact hp hfd hl hm hid (by cases hq; exact ⟨row, rfl⟩)
  | resize =>
    cases ht
    exact yields_resizeArrangement hl fun p q hw hh => hps (by cases hw; cases hh; rfl)
  | resizeBy _ dw dh =>
    cases ht
    simp only [Edit.arrangement, resizeByArrangement, findTarget_ok.mp hfd]
    refine yields_resizeArrangement hl fun p q hw hh => hps ?_
    cases dw <;> cases hw
    cases dh <;> cases hh
    rfl
  | resizeToCell _ cell =>
    cases ht
    refine yields_resizeToCellArrangement hl hf fun {cur u} hc hu hu' p q hx hy =>
      hp (findTarget_ok.mp hfd) hc hu hu' ?_
    obtain ⟨x, y⟩ := cell
    cases x <;> cases hx
    cases y <;> cases hy
    rfl
  | remove | add => cases ht

theorem Edit.arrangement_of_unknown {items : List LayoutItem} {instanceId : String} {e : Edit}
    (ht : e.target = some instanceId) (hid : instanceId ∉ items.map (·.instanceId)) :
    e.arrangement items = .ok none := by
  have hno : items.find? (·.instanceId = instanceId) = none :=
    find?_eq_none.mpr fun i hi he => hid (mem_map.mpr ⟨i, hi, by simpa using he⟩)
  cases e with
  | move => cases ht; simp [moveArrangement, hno]
  | step => cases ht; simp [stepArrangement, hno]
  | resize => cases ht; simp [resizeArrangement, hno]
  | resizeBy => cases ht; simp [resizeByArrangement, hno]
  | resizeToCell => cases ht; simp [resizeToCellArrangement, hno]
  | remove | add => cases ht

def editor (stored : List LayoutItem) : Machine (List LayoutItem) Edit where
  init := compact stored
  next items e := (e.apply items).toOption

def Edit.Fresh (items : List LayoutItem) : Edit → Prop
  | .add defn randomSuffix _ => newInstanceId defn.id randomSuffix ∉ items.map (·.instanceId)
  | _ => True

instance (items : List LayoutItem) : (e : Edit) → Decidable (e.Fresh items)
  | .add defn randomSuffix _ => inferInstanceAs
    (Decidable (newInstanceId defn.id randomSuffix ∉ items.map (·.instanceId)))
  | .move .. | .step .. | .resize .. | .resizeBy .. | .resizeToCell .. | .remove _ => isTrue trivial

/-- What the edit may not change, from the layout before to the one after. -/
def Edit.Keeping (items after : List LayoutItem) : Edit → Prop
  | .move instanceId .. | .step instanceId .. | .resize instanceId .. | .resizeBy instanceId ..
  | .resizeToCell instanceId .. => Keeps (some instanceId) items after
  | .remove instanceId => Keeps none (items.filter (·.instanceId ≠ instanceId)) after
  | .add defn randomSuffix params =>
    match placeNewWidget items defn randomSuffix dashboardColumns params with
    | none => after = items
    | some it => Keeps none (items ++ [it]) after

structure Edit.Result (items : List LayoutItem) (e : Edit) (after : List LayoutItem) : Prop where
  sound : Sound after
  distinct : (after.map (·.instanceId)).Nodup
  keeping : e.Keeping items after

theorem exists_compacted {others} (hsl : ∀ i ∈ others, Solid i) (hn : Distinct others) :
    Sound (compact others) ∧ Distinct (compact others) ∧ Keeps none others (compact others) := by
  have hk : Kept none others (compact others) := .of_rows (compact_map_atRow others)
  exact ⟨sound_compact hsl, hk.ids.nodup_iff.mpr hn, hk.keeps hn⟩

section Result

variable {items : List LayoutItem} (hs : Sound items) (hn : Distinct items)
include hs hn

theorem Edit.yields_edited {e : Edit} {instanceId : String} (ht : e.target = some instanceId) :
    Yields (Edited items instanceId) (e.arrangement items) := by
  by_cases hid : instanceId ∈ items.map (·.instanceId)
  · exact Edit.yields ht (falls_edited hid) ⟨hs.solid, .refl _⟩ fun _ _ _ _ h =>
      passes_of_places hn hid h
  · rw [Edit.arrangement_of_unknown ht hid]
    exact yields_none

theorem Edit.exists_targeted {e : Edit} {instanceId : String} (ht : e.target = some instanceId) :
    ∃ after, e.apply items = .ok after ∧ Sound after ∧ Distinct after ∧
      Keeps (some instanceId) items after := by
  obtain ⟨arr, he, ha⟩ := Edit.yields_edited hs hn ht
  refine ⟨fall items arr, by rw [Edit.apply_eq, he]; rfl, ?_⟩
  cases arr with
  | none => exact ⟨hs, hn, Kept.keeps (.refl _) hn⟩
  | some placed =>
    have he := ha placed rfl
    have hk := he.compact.kept
    exact ⟨sound_compact he.solid, hk.ids.nodup_iff.mpr hn, hk.keeps hn⟩

theorem Edit.exists_result (e : Edit) (hf : e.Fresh items) :
    ∃ after, e.apply items = .ok after ∧ e.Result items after := by
  have targeted : ∀ instanceId, e.target = some instanceId → _ := fun _ =>
    Edit.exists_targeted hs hn
  cases e with
  | move | step | resize | resizeBy | resizeToCell =>
    obtain ⟨after, he, hsn, hds, hkp⟩ := targeted _ rfl
    exact ⟨after, he, hsn, hds, hkp⟩
  | remove instanceId =>
    have hsub := filter_sublist (p := fun i : LayoutItem => i.instanceId ≠ instanceId) (l := items)
    obtain ⟨hsn, hds, hkp⟩ := exists_compacted
      (fun i hi => hs.solid i (hsub.subset hi)) (hn.sublist (hsub.map _))
    exact ⟨_, rfl, hsn, hds, hkp⟩
  | add defn randomSuffix params =>
    simp only [Edit.apply]
    split
    next hp => exact ⟨items, rfl, hs, hn, by simp [Edit.Keeping, hp]⟩
    next it hp =>
      have hid : it.instanceId = newInstanceId defn.id randomSuffix := by
        obtain ⟨_, _, rfl⟩ := Option.map_eq_some_iff.mp hp
        rfl
      have hsl : ∀ i ∈ items ++ [it], Solid i := by
        intro i hi
        rcases mem_concat hi with hi | hi
        · exact hs.solid i hi
        · rw [hi]; exact solid_placeNewWidget hp
      have hnd : ((items ++ [it]).map (·.instanceId)).Nodup := by
        rw [map_append, nodup_append]
        refine ⟨hn, nodup_singleton _, fun a ha b hb he => hf ?_⟩
        have hb : b = it.instanceId := mem_singleton.mp hb
        rw [← hid, ← hb, ← he]
        exact ha
      obtain ⟨hsn, hds, hkp⟩ := exists_compacted hsl hnd
      exact ⟨_, rfl, hsn, hds, by simpa [Edit.Keeping, hp] using hkp⟩

end Result

/-- **The grid invariant.** Whatever was stored and whatever edits follow, the layout is settled
(apart, in the grid, in reading order, a fixed point of `compact`), and every edit goes through and
keeps every widget it is not about, if no suffix drawn for a new widget is taken. -/
theorem editing_keeps_grid (stored : List LayoutItem)
    (hn : (stored.map (·.instanceId)).Nodup) (hs : ∀ i ∈ stored, Solid i) (es : List Edit)
    (hf : (editor stored).Meets (fun items e => e.Fresh items) (compact stored) es) :
    let items := (editor stored).run es
    Sound items ∧ (items.map (·.instanceId)).Nodup ∧
      ∀ e : Edit, e.Fresh items → ∃ after, e.apply items = .ok after ∧ e.Keeping items after := by
  have hrun : Sound ((editor stored).run es) ∧
      (((editor stored).run es).map (·.instanceId)).Nodup := by
    refine Machine.run_inv_of_meets (P := fun items : List LayoutItem =>
      Sound items ∧ (items.map (·.instanceId)).Nodup) ?_ ?_ es hf
    · exact ⟨(exists_compacted hs hn).1, (exists_compacted hs hn).2.1⟩
    · intro items e after hfs hi hnx
      obtain ⟨after', he, hr⟩ := Edit.exists_result hi.1 hi.2 e hfs
      have hsm : some after' = some after := by
        rw [← hnx]
        change some after' = (e.apply items).toOption
        rw [he]
        rfl
      cases hsm
      exact ⟨hr.sound, hr.distinct⟩
  refine ⟨hrun.1, hrun.2, fun e hfs => ?_⟩
  obtain ⟨after, he, hr⟩ := Edit.exists_result hrun.1 hrun.2 e hfs
  exact ⟨after, he, hr.keeping⟩

def overlappingLayout : List LayoutItem :=
  [⟨"a-1", "a", 0, 3, 6, 2, none⟩, ⟨"b-1", "b", 4, 4, 8, 1, some [("ns", "prod")]⟩,
    ⟨"c-1", "c", 0, 9, 3, 3, none⟩]

def unitBounds : Bounds := ⟨1, 1, by decide, by decide⟩

/-- One edit of every kind, one of them of an id the layout does not have. -/
def everyEdit : List Edit :=
  [.move "a-1" (.finite (7 / 2)) (.finite 5), .step "b-1" (.finite 0) (.finite 1),
    .resize "c-1" (.finite 20) (.finite (5 / 2)) unitBounds,
    .resizeBy "a-1" (.finite (-1)) (.finite 1) unitBounds,
    .resizeToCell "b-1" ⟨.finite 11, .finite 6⟩ unitBounds, .move "x" .nonFinite (.finite 0),
    .add ⟨"d", 4, 2, 2, 2, none⟩ "00000000" [], .remove "a-1"]

theorem editing_keeps_grid_everyEdit : (editor overlappingLayout).run everyEdit =
        [⟨"c-1", "c", 0, 0, 12, 3, none⟩, ⟨"d-00000000", "d", 0, 3, 4, 2, none⟩,
          ⟨"b-1", "b", 4, 3, 8, 1, some [("ns", "prod")]⟩] ∧
      Sound ((editor overlappingLayout).run everyEdit) :=
  ⟨by decide +kernel, (editing_keeps_grid overlappingLayout (by decide) (by decide) everyEdit
      (by decide +kernel)).1⟩

end KubeCenter.Dashboard
