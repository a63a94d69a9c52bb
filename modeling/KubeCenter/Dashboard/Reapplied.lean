import KubeCenter.Dashboard.Editing

/-! # Edits applied to their own result

A pointer that stands still repeats its request. A resize is then a fixed point. A move need not be
one: every pass puts the target back on the requested row, from where gravity lifts it past other
widgets than before. It is one where gravity does not lift the target at all. -/
namespace KubeCenter.Dashboard
open Lib List

variable {items cur placed out : List LayoutItem} {instanceId : String} {t anchor : LayoutItem}
  {place : LayoutItem → LayoutItem}

/-! ## A push into a settled layout -/

theorem pushRound_of_free (h : ∀ p ∈ placed, overlaps t p = false) :
    pushRound placed t = (t, false) := by
  induction placed using List.reverseRecOn with
  | nil => rfl
  | append_singleton placed p ih =>
    rw [pushRound_concat, ih fun q hq => h q (mem_append_left _ hq),
      if_neg (by simp [h p (by simp)])]

theorem pushLoop_of_apart (rest : List LayoutItem) :
    ∀ {placed}, (placed ++ rest).Pairwise (fun a b => overlaps a b = false) →
      pushLoop placed rest = placed ++ rest := by
  induction rest with
  | nil => intro placed _; simp [pushLoop]
  | cons it rest ih =>
    intro placed h
    have hfr : ∀ p ∈ placed, overlaps it p = false := fun p hp => by
      rw [overlaps_comm]
      exact (pairwise_append.mp h).2.2 p hp it (by simp)
    have hdw : pushDown placed (placed.length + 1) it = it := by
      simp [pushDown, pushRound_of_free hfr]
    rw [pushLoop, hdw, ih (by simpa using h), append_assoc]
    rfl

theorem pushLoop_append (as bs : List LayoutItem) :
    ∀ placed, pushLoop placed (as ++ bs) = pushLoop (pushLoop placed as) bs := by
  induction as with
  | nil => intro placed; rfl
  | cons a as ih => intro placed; exact ih _

theorem Sound.grounded (hs : Sound cur) : widgets.Grounded cur := by
  have hgr := grounded_compact fun i hi => (hs.solid i hi).tall
  rwa [hs.compacted] at hgr

theorem Sound.sort_others {as bs} (hs : Sound (as ++ t :: bs))
    (hn : Distinct (as ++ t :: bs)) (ha : anchor.instanceId = t.instanceId) :
    sortByReadingOrder ((as ++ t :: bs).filter (·.instanceId ≠ anchor.instanceId)) = as ++ bs := by
  rw [ha, filter_others hn]
  exact sortByReadingOrder_of_pairwise (hs.ordered.sublist (by simp))

theorem Sound.resolve_target (hs : Sound cur) (hn : Distinct cur) (ht : t ∈ cur) :
    resolve cur t = cur := by
  obtain ⟨as, bs, rfl⟩ := append_of_mem ht
  have hpm : (t :: (as ++ bs)).Perm (as ++ t :: bs) := perm_middle.symm
  have hpu : push (as ++ t :: bs) t = t :: (as ++ bs) := by
    rw [push, hs.sort_others hn rfl]
    exact pushLoop_of_apart _ ((hpm.pairwise_iff (Std.Symm.symm _ _)).mpr hs.apart)
  rw [resolve, hpu, compact_of_perm (fun i hi => (hs.solid i hi).sized) hs.apart hpm, hs.compacted]

/-- **A change of height leaves the target in its row.** What is before it is not in its way, and
what is after it is pushed down at most. -/
theorem Sound.mem_resolve (hs : Sound cur) (hn : Distinct cur) (ht : t ∈ cur)
    {h : Int} (hh : 1 ≤ h) : { t with h } ∈ resolve cur { t with h } := by
  obtain ⟨as, bs, rfl⟩ := append_of_mem ht
  set anchor : LayoutItem := { t with h }
  have hor := pairwise_append.mp hs.ordered
  have haf := (pairwise_cons.mp hor.2.1).1
  have hbe : ∀ a ∈ as, byReadingOrder a t ≤ 0 := fun a ha => hor.2.2 a ha t (by simp)
  have hfr : ∀ a ∈ as, overlaps anchor a = false := fun a ha => by
    have hy := y_le_of_byReadingOrder (hbe a ha)
    have hat := (pairwise_append.mp hs.apart).2.2 a ha t (by simp)
    have htl := (hs.solid t (by simp)).tall
    rw [← Bool.not_eq_true, overlaps_iff]
    rintro ⟨hcol, -, hrow⟩
    rw [overlaps_comm] at hat
    have hpa := bottom_le_of_apart hat hcol
    change t.y < a.y + a.h at hrow
    omega
  have hfi : ([anchor] ++ as).Pairwise fun a b => overlaps a b = false :=
    pairwise_cons.mpr ⟨hfr, (pairwise_append.mp hs.apart).1⟩
  obtain ⟨more, hmr, hrw, -⟩ := pushLoop_spec bs ([anchor] ++ as)
  have hpu : push (as ++ t :: bs) anchor = anchor :: (as ++ more) := by
    rw [push, hs.sort_others hn rfl, pushLoop_append, pushLoop_of_apart as hfi, hmr]
    rfl
  have hlt : ∀ m ∈ more, byReadingOrder t m ≤ 0 := fun m hm => by
    obtain ⟨b, hb, hbm, hle⟩ := exists_mem_of_forall₂ hrw hm
    have htb := byReadingOrder_le_iff.mp (haf b hb)
    have hx : m.x = b.x := by rw [hbm]; rfl
    rw [byReadingOrder_le_iff]
    omega
  have hsr : sortByReadingOrder (push (as ++ t :: bs) anchor) =
      as ++ anchor :: sortByReadingOrder more := by
    obtain ⟨hlf, hrg, hwd, -⟩ := hs.solid t (by simp)
    have han : Solid anchor := ⟨hlf, hrg, hwd, hh⟩
    have hsl := solid_push hs.solid han
    have hpm : (as ++ anchor :: sortByReadingOrder more).Perm (push (as ++ t :: bs) anchor) := by
      rw [hpu]
      exact perm_middle.trans (((sortByReadingOrder_perm more).append_left as).cons _)
    rw [← sortByReadingOrder_of_perm (fun i hi => (hsl i hi).sized)
      (pushed_push _ anchor).apart hpm]
    refine sortByReadingOrder_of_pairwise (pairwise_append.mpr ⟨hor.1,
      pairwise_cons.mpr ⟨fun m hm => hlt m (mem_sortByReadingOrder.mp hm),
        pairwise_sortByReadingOrder _⟩, fun a ha m hm => ?_⟩)
    rcases mem_cons.mp hm with rfl | hm
    · exact hbe a ha
    · exact byReadingOrder_trans (hbe a ha) (hlt m (mem_sortByReadingOrder.mp hm))
  have hgr := widgets.grounded_iff.mp hs.grounded
  have has : widgets.drop as = as := widgets.drop_of_grounded (widgets.grounded_iff.mpr
    fun pre i post he => hgr pre i (post ++ t :: bs) (by simp [he]))
  have hfl : widgets.floor as anchor = t.y := (hgr as t bs rfl).symm
  rw [resolve, compact_eq, hsr, mem_sortByReadingOrder, Stacking.drop, widgets.dropFrom_append]
  refine mem_append_right _ (mem_cons.mpr (.inl ?_))
  change anchor = widgets.setTop anchor (widgets.floor (widgets.drop as) anchor)
  rw [has, hfl]
  rfl

/-! ## The passes of `settle` -/

def pass (instanceId : String) (place : LayoutItem → LayoutItem) (cur : List LayoutItem) :
    Except String (List LayoutItem) := do
  return resolve cur (place (← findTarget cur instanceId))

def passes (instanceId : String) (place : LayoutItem → LayoutItem) :
    Nat → List LayoutItem → Except String (List LayoutItem)
  | 0, cur => .ok cur
  | n + 1, cur => do passes instanceId place n (← pass instanceId place cur)

/-- One of the passes `settle` can make reaches `out`, which a further one leaves alone. -/
def Reaches (instanceId : String) (place : LayoutItem → LayoutItem)
    (items out : List LayoutItem) : Prop :=
  pass instanceId place out = .ok out ∧
    ∃ k ≤ items.length, passes instanceId place (k + 1) items = .ok out

theorem pass_eq_ok : pass instanceId place cur = .ok out ↔
    ∃ t, findTarget cur instanceId = .ok t ∧ resolve cur (place t) = out := by
  cases h : findTarget cur instanceId <;> simp [pass, h, bind, Except.bind, pure, Except.pure]

theorem passes_succ {n : ℕ} : passes instanceId place (n + 1) items = .ok out ↔
    ∃ cur, pass instanceId place items = .ok cur ∧ passes instanceId place n cur = .ok out := by
  cases h : pass instanceId place items <;> simp [passes, h, bind, Except.bind]

theorem passes_of_fixed (h : pass instanceId place cur = .ok cur) :
    ∀ n, passes instanceId place n cur = .ok cur
  | 0 => rfl
  | n + 1 => passes_succ.mpr ⟨cur, h, passes_of_fixed h n⟩

theorem eq_of_sameLayout : ∀ {as bs : List LayoutItem},
    (∀ i ∈ as, ∀ j ∈ bs, j.instanceId = i.instanceId → j.id = i.id ∧ j.params = i.params) →
    sameLayout bs as = true → bs = as
  | [], [], _, _ => rfl
  | [], _ :: _, _, h => by simp [sameLayout] at h
  | _ :: _, [], _, h => by simp [sameLayout] at h
  | a :: as, b :: bs, hc, h => by
    simp only [sameLayout, length_cons, zip_cons_cons, all_cons, Bool.and_eq_true,
      beq_iff_eq, Nat.succ.injEq] at h
    obtain ⟨hlen, ⟨⟨⟨⟨hid, hx⟩, hy⟩, hw⟩, hh⟩, hall⟩ := h
    obtain ⟨hkn, hpr⟩ := hc a (by simp) b (by simp) hid
    have hrs : sameLayout bs as = true := by
      simp only [sameLayout, Bool.and_eq_true, beq_iff_eq]
      exact ⟨hlen, hall⟩
    rw [eq_of_sameLayout (fun i hi j hj => hc i (by simp [hi]) j (by simp [hj])) hrs]
    cases a
    cases b
    simp_all

theorem sameLayout_self (items : List LayoutItem) : sameLayout items items = true := by
  induction items with
  | nil => rfl
  | cons i items ih =>
    simp only [sameLayout, beq_self_eq_true, Bool.true_and] at ih
    simp [sameLayout, ih]

section Settling

variable (hn : Distinct items)
  (hp : Passes (Edited items instanceId) (Edited items instanceId) instanceId place)
include hn hp

theorem settleLoop_of_passes (hfix : pass instanceId place out = .ok out) {n : ℕ} :
    ∀ {k : ℕ} {placed}, k ≤ n → Edited items instanceId placed →
      passes instanceId place k (compact placed) = .ok out →
      ∃ last, settleLoop instanceId place n placed = .ok last ∧ compact last = out := by
  induction n with
  | zero =>
    intro k placed hk _ h
    obtain rfl := Nat.le_zero.mp hk
    exact ⟨placed, rfl, Except.ok.inj h⟩
  | succ n ih =>
    intro k placed hk hpl h
    cases k with
    | zero =>
      obtain rfl : compact placed = out := Except.ok.inj h
      obtain ⟨t, ht, hout⟩ := pass_eq_ok.mp hfix
      refine ⟨push (compact placed) (place t), ?_, hout⟩
      have hsm : sameLayout (compact (push (compact placed) (place t))) (compact placed) := by
        rw [show compact (push (compact placed) (place t)) = compact placed from hout]
        exact sameLayout_self _
      simp only [settleLoop, ht, bind, Except.bind, if_pos hsm]
      rfl
    | succ k =>
      obtain ⟨cur, hcur, hrs⟩ := passes_succ.mp h
      obtain ⟨t, ht, rfl⟩ := pass_eq_ok.mp hcur
      have hnx := hp.pushes hpl.compact (findTarget_mem ht).1 (findTarget_mem ht).2
      simp only [settleLoop, ht, bind, Except.bind]
      split
      next hsm =>
        -- the pass has changed nothing, so it is the one that leaves its layout alone
        have hids := hpl.compact.kept.ids.nodup_iff.mpr hn
        have hkp : Kept (some instanceId) (compact placed)
          (compact (push (compact placed) (place t))) :=
          hnx.compact.kept.trans hpl.compact.kept.symm
        have heq : resolve (compact placed) (place t) = compact placed :=
          eq_of_sameLayout (hkp.keeps hids).content hsm
        rw [heq] at hcur hrs
        refine ⟨_, rfl, ?_⟩
        exact heq.trans (Except.ok.inj ((passes_of_fixed hcur k).symm.trans hrs))
      · exact ih (Nat.le_of_succ_le_succ hk) hnx hrs

theorem settle_of_reaches (hs : Edited items instanceId items)
    (h : Reaches instanceId place items out) :
    ∃ last, settleArrangement instanceId place items = .ok last ∧ compact last = out := by
  obtain ⟨hfix, k, hk, hps⟩ := h
  obtain ⟨cur, hcur, hrs⟩ := passes_succ.mp hps
  obtain ⟨t, ht, rfl⟩ := pass_eq_ok.mp hcur
  simp only [settleArrangement, ht, bind, Except.bind]
  exact settleLoop_of_passes hn hp hfix hk
    (hp.pushes hs (findTarget_mem ht).1 (findTarget_mem ht).2) hrs

end Settling

/-! ## Resizing -/

section Resizing

variable {j : LayoutItem}

theorem eq_of_mem_resolve (hj : j ∈ resolve cur anchor)
    (hid : j.instanceId = anchor.instanceId) : j = anchor.atRow j.y := by
  obtain ⟨i, hi, hij⟩ := mem_map.mp ((compact_map_atRow _).subset (mem_map_of_mem hj))
  have hi' := eq_of_mem_push hi ((congrArg LayoutItem.instanceId hij).trans hid)
  rw [← hi']
  exact (congrArg (·.atRow j.y) hij).symm

variable (bounds : Bounds) (width height : Int)

/-- What a resize leaves: the target as it was asked for, in its row if its
width was right before. -/
structure Resized (items : List LayoutItem) (t : LayoutItem) (out : List LayoutItem)
    (u : LayoutItem) : Prop where
  sound : Sound out
  distinct : (out.map (·.instanceId)).Nodup
  mem : u ∈ out
  target : u.instanceId = t.instanceId ∧ u.x = t.x
  fits : sizeTo bounds width height u = u
  row : Sound items → (sizeTo bounds width height t).w = t.w → u.y = t.y

variable {bounds width height} in
theorem Resized.pass_eq (h : Resized bounds width height items t out j) :
    pass t.instanceId (sizeTo bounds width height) out = .ok out := by
  refine pass_eq_ok.mpr ⟨j, h.target.1 ▸ findTarget_of_mem h.distinct h.mem, ?_⟩
  rw [h.fits, h.sound.resolve_target h.distinct h.mem]

/-- The second pass of a resize has the target in the row and at the width of the first. -/
theorem exists_resized (hn : Distinct items) (hs : ∀ i ∈ items, Solid i)
    (ht : t ∈ items) : ∃ out u, Resized bounds width height items t out u ∧
      Reaches t.instanceId (sizeTo bounds width height) items out := by
  have hps := passes_sizeTo hn (mem_map_of_mem ht) bounds width height
  have hfi : Edited items t.instanceId (push items (sizeTo bounds width height t)) :=
    hps.pushes ⟨hs, .refl _⟩ ht rfl
  have hsn : Sound (resolve items (sizeTo bounds width height t)) := sound_compact hfi.solid
  have hids := hfi.compact.kept.ids.nodup_iff.mpr hn
  obtain ⟨v, hv⟩ := exists_findTarget (hps.knows hfi.compact)
  obtain ⟨hvm, hvid⟩ := findTarget_mem hv
  have hvt : v = (sizeTo bounds width height t).atRow v.y := eq_of_mem_resolve hvm hvid
  -- the second pass asks for `v` at another height
  have hsc : sizeTo bounds width height v =
      { v with h := max 1 (min height (dashboardMaxRows - v.y)) } := by
    rw [hvt]
    rfl
  have hed := hps.pushes hfi.compact hvm hvid
  have hmem : sizeTo bounds width height v ∈
      resolve (resolve items (sizeTo bounds width height t)) (sizeTo bounds width height v) := by
    rw [hsc]
    exact hsn.mem_resolve hids hvm (le_max_left _ _)
  have hre : Resized bounds width height items t
      (resolve (resolve items (sizeTo bounds width height t)) (sizeTo bounds width height v))
      (sizeTo bounds width height v) := by
    refine ⟨sound_compact hed.solid, hed.compact.kept.ids.nodup_iff.mpr hn, hmem,
      ⟨hvid, ?_⟩, ?_, fun hse hw => ?_⟩
    · rw [hvt]
      rfl
    · rw [hvt]
      rfl
    · -- the first pass changes the height only, too
      have hsm : sizeTo bounds width height t =
          { t with h := max 1 (min height (dashboardMaxRows - t.y)) } := by
        rw [← hw]
        rfl
      have hst := hse.mem_resolve hn ht (h := max 1 (min height (dashboardMaxRows - t.y)))
        (le_max_left _ _)
      rw [← hsm] at hst
      rw [inj_on_of_nodup_map hids hvm hst hvid]
      rfl
  refine ⟨_, _, hre, hre.pass_eq, 1, length_pos_of_mem ht, ?_⟩
  exact passes_succ.mpr ⟨_, pass_eq_ok.mpr ⟨t, findTarget_of_mem hn ht, rfl⟩,
    passes_succ.mpr ⟨_, pass_eq_ok.mpr ⟨v, hv, rfl⟩, rfl⟩⟩

end Resizing

variable {u : LayoutItem} {bounds : Bounds}

theorem find?_of_mem (hn : Distinct items) (ht : t ∈ items) :
    items.find? (·.instanceId = t.instanceId) = some t :=
  findTarget_ok.mp (findTarget_of_mem hn ht)

section

variable (hn : Distinct items) (hs : ∀ i ∈ items, Solid i) (ht : t ∈ items)
include hn hs ht

theorem exists_resizeArrangement {w h : ℚ}
    (hr : Reaches t.instanceId (sizeTo bounds (round w) (askedHeight bounds h)) items out) :
    ∃ last, resizeArrangement items t.instanceId bounds (.finite w) (.finite h) =
      .ok (some last) ∧ compact last = out := by
  obtain ⟨last, hla, hout⟩ := settle_of_reaches hn
    (passes_sizeTo hn (mem_map_of_mem ht) bounds _ _) ⟨hs, .refl _⟩ hr
  refine ⟨last, ?_, hout⟩
  unfold resizeArrangement
  rw [find?_of_mem hn ht]
  exact congrArg (some <$> ·) hla

end

theorem Resized.reaches {w h : ℚ}
    (hr : Resized bounds (round w) (askedHeight bounds h) items t out u) :
    Reaches u.instanceId (sizeTo bounds (round w) (askedHeight bounds h)) out out := by
  rw [hr.target.1]
  exact ⟨hr.pass_eq, 0, Nat.zero_le _, passes_of_fixed hr.pass_eq 1⟩

theorem Resized.exists_again {w h : ℚ}
    (hr : Resized bounds (round w) (askedHeight bounds h) items t out u) :
    ∃ last, resizeArrangement out u.instanceId bounds (.finite w) (.finite h) =
      .ok (some last) ∧ compact last = out :=
  exists_resizeArrangement hr.distinct hr.sound.solid hr.mem hr.reaches

/-! ## Moving onto a pile -/

/-- The widget is in the first row, or on a pile of the others that is, where these do not
overlap. -/
def Supported (others : List LayoutItem) (anchor : LayoutItem) : Prop :=
  anchor.y = 0 ∨ Apart others ∧ widgets.Standing others anchor

def widget (instanceId : String) (x y w h : Int) : LayoutItem := ⟨instanceId, "w", x, y, w, h, none⟩

section Aiming

variable {last : List LayoutItem} {x y : ℚ}

theorem aimLoop_of_row {cell : Cell} {cur : LayoutItem} {instanceId : String} {n : ℕ}
    (hla : compact last = out) (hu : findTarget out instanceId = .ok u) (hy : u.y = cur.y) :
    aimLoop items instanceId bounds cell (n + 1) cur (some last) = .ok (some last) := by
  simp [aimLoop, fall, hla, hu, bind, Except.bind, hy, pure, Except.pure]

theorem resizeItemToCell_eq (hn : Distinct items) (ht : t ∈ items) {first}
    (hfi : resizeArrangement items t.instanceId bounds
      (.finite (x - t.x + 1)) (.finite (y - t.y + 1)) = .ok first) :
    resizeItemToCell items t.instanceId bounds ⟨.finite x, .finite y⟩ = fall items <$>
      aimLoop items t.instanceId bounds ⟨.finite x, .finite y⟩ (2 + 1) t first := by
  unfold resizeItemToCell resizeToCellArrangement
  rw [find?_of_mem hn ht]
  simp only [aim, Coord.map, hfi, bind, Except.bind]
  rfl

theorem Resized.toCell (hr : Resized bounds (round (x - u.x + 1))
      (askedHeight bounds (y - u.y + 1)) items t out u) :
    resizeItemToCell out u.instanceId bounds ⟨.finite x, .finite y⟩ = .ok out := by
  obtain ⟨again, hag, hout⟩ := hr.exists_again
  rw [resizeItemToCell_eq hr.distinct hr.mem hag,
    aimLoop_of_row hout (findTarget_of_mem hr.distinct hr.mem) rfl]
  exact congrArg Except.ok hout

end Aiming

/-- **Resizing to a cell is stable.** When the first resize has lifted the target, the second has
it at the right width, so it stays in its row. -/
theorem resizeItemToCell_stable (items : List LayoutItem)
    (hn : (items.map (·.instanceId)).Nodup) (hs : ∀ i ∈ items, Solid i)
    (t : LayoutItem) (ht : t ∈ items) (bounds : Bounds) (x y : ℚ) :
    ∃ out, resizeItemToCell items t.instanceId bounds ⟨.finite x, .finite y⟩ = .ok out ∧
      resizeItemToCell out t.instanceId bounds ⟨.finite x, .finite y⟩ = .ok out := by
  obtain ⟨out, u, hr, hrc⟩ := exists_resized bounds (round (x - t.x + 1))
    (askedHeight bounds (y - t.y + 1)) hn hs ht
  obtain ⟨last, hla, hout⟩ := exists_resizeArrangement hn hs ht hrc
  have hu : findTarget out t.instanceId = .ok u :=
    hr.target.1 ▸ findTarget_of_mem hr.distinct hr.mem
  by_cases hy : u.y = t.y
  · refine ⟨out, ?_, ?_⟩
    · rw [resizeItemToCell_eq hn ht hla, aimLoop_of_row hout hu hy]
      exact congrArg Except.ok hout
    · have hce : Resized bounds (round (x - u.x + 1)) (askedHeight bounds (y - u.y + 1))
          items t out u := by
        rw [hr.target.2, hy]
        exact hr
      rw [← hr.target.1]
      exact hce.toCell
  · -- the height is measured once more, from the row the target was lifted to
    obtain ⟨out', u', hr', hrc'⟩ := exists_resized bounds (round (x - t.x + 1))
      (askedHeight bounds (y - u.y + 1)) hr.distinct hr.sound.solid hr.mem
    obtain ⟨last', hla', hout'⟩ := exists_resizeArrangement hr.distinct hr.sound.solid hr.mem hrc'
    have hwi := congrArg LayoutItem.w hr.fits
    have hrow : u'.y = u.y := hr'.row hr.sound hwi
    have hu' : findTarget out' t.instanceId = .ok u' := by
      rw [← hr.target.1, ← hr'.target.1]
      exact findTarget_of_mem hr'.distinct hr'.mem
    refine ⟨out', ?_, ?_⟩
    · rw [hr.target.1] at hla'
      have hlp : aimLoop items t.instanceId bounds ⟨.finite x, .finite y⟩ (2 + 1) t (some last) =
          .ok (some last') := by
        rw [aimLoop]
        simp only [fall, hout, hu, bind, Except.bind, if_neg hy, aim, Coord.map, hr.target.2, hla']
        exact aimLoop_of_row hout' hu' hrow
      rw [resizeItemToCell_eq hn ht hla, hlp]
      exact congrArg Except.ok hout'
    · have hce : Resized bounds (round (x - u'.x + 1)) (askedHeight bounds (y - u'.y + 1))
          out u out' u' := by
        rw [hrow, hr'.target.2, hr.target.2]
        exact hr'
      rw [← hr.target.1, ← hr'.target.1]
      exact hce.toCell

theorem resizeItemToCell_stable_overlappingLayout :
    ∃ out, resizeItemToCell (compact overlappingLayout) "a-1" unitBounds
        ⟨.finite 3, .finite 4⟩ = .ok out ∧
      resizeItemToCell out "a-1" unitBounds ⟨.finite 3, .finite 4⟩ = .ok out :=
  resizeItemToCell_stable (compact overlappingLayout) (by decide) (by decide)
    ⟨"a-1", "a", 0, 0, 6, 2, none⟩ (by decide) unitBounds 3 4

end KubeCenter.Dashboard
