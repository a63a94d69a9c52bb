import Mathlib.Algebra.Ring.Int.Defs
import Mathlib.Data.List.Sort
import Mathlib.Data.List.TakeWhile
import Mathlib.Data.String.Basic
import KubeCenter.Lib.LengthPrefixed

/-! # Offset paging of lists

`resources/crud.go`: `paginateAny` and `paginate` sort what a lister returns and cut a page out of
it, from the offset of the continue token. `paginate` takes a negative offset, at which the slice
panics. -/
namespace KubeCenter.Resources.Paging
open List

abbrev Text := List Char

/-! ## Tokens -/

def isInt64 (n : ℤ) : Bool := -2 ^ 63 ≤ n ∧ n < 2 ^ 63

/-- The sign of a number and what follows it. -/
def signed : Text → ℤ × Text
  | '-' :: s => (-1, s)
  | '+' :: s => (1, s)
  | s => (1, s)

/-- `strconv.Atoi`. -/
def atoi (s : Text) : Option ℤ :=
  let (sign, digits) := signed s
  let n := sign * Nat.ofDigitChars 10 digits 0
  if digits ≠ [] ∧ digits.all Char.isDigit ∧ isInt64 n then some n else none

/-- White space that `fmt` skips; at a newline it stops. -/
def isSpace (c : Char) : Bool :=
  c.toNat ∈ [0x09, 0x0b, 0x0c, 0x0d, 0x20, 0x85, 0xa0, 0x1680, 0x2028, 0x2029, 0x202f, 0x205f,
    0x3000] ∨ 0x2000 ≤ c.toNat ∧ c.toNat ≤ 0x200a

/-- `fmt.Sscanf(s, "%d", &start)`: an error leaves the 0, text after the number is no error. -/
def sscanf (s : Text) : ℤ :=
  let (sign, rest) := signed (s.dropWhile isSpace)
  let digits := rest.takeWhile Char.isDigit
  let n := sign * Nat.ofDigitChars 10 digits 0
  if digits ≠ [] ∧ isInt64 n then n else 0

/-! ## Pages -/

/-- An object, and whether it implements `metav1.ObjectMetaAccessor`. -/
structure Obj where
  accessor : Bool
  ns : String
  name : String
deriving DecidableEq

def objectKey (o : Obj) : String :=
  if o.accessor then if o.ns ≠ "" then o.ns ++ "/" ++ o.name else o.name else ""

def sortItems (items : List Obj) : List Obj :=
  items.insertionSort (Order.Preimage objectKey (· ≤ ·))

/-- What both functions do from the offset on. A slice with a negative bound panics. -/
def cut (items : List Obj) (limit : ℕ) (start : ℤ) : Option (List Obj × Text) :=
  let items := sortItems items
  if start ≥ items.length then some ([], [])
  else
    let stop := min (start + limit) items.length
    if start < 0 then none
    else some ((items.drop start.toNat).take (stop - start).toNat,
      if stop < items.length then Nat.toDigits 10 stop.toNat else [])

def offsetAny (token : Text) : ℤ :=
  match atoi token with
  | some n => if n > 0 then n else 0
  | none => 0

def offset (token : Text) : ℤ := if token ≠ [] then sscanf token else 0

def paginateAny (items : List Obj) (limit : ℕ) (token : Text) : Option (List Obj × Text) :=
  cut items limit (offsetAny token)

def paginate (items : List Obj) (limit : ℕ) (token : Text) : Option (List Obj × Text) :=
  cut items limit (offset token)

/-- A client that follows the tokens; each request meets the objects in the next order. -/
def walk (page : List Obj → ℕ → Text → Option (List Obj × Text)) (limit : ℕ) :
    List (List Obj) → Text → Option (List Obj)
  | [], _ => none
  | items :: orders, token =>
    match page items limit token with
    | none => none
    | some (found, []) => some found
    | some (found, next) => (walk page limit orders next).map (found ++ ·)

section

variable {objects items : List Obj} {limit k : ℕ} {token : Text}

theorem signed_digits {s : Text} (h : ∀ c ∈ s, c.isDigit = true) : signed s = (1, s) := by
  unfold signed
  split
  · exact absurd (h '-' mem_cons_self) (by decide)
  · exact absurd (h '+' mem_cons_self) (by decide)
  · rfl

/-- A token that was minted gives its offset back, to either function. -/
theorem offset_minted (hk : k < 2 ^ 63) :
    offsetAny (Nat.toDigits 10 k) = k ∧ offset (Nat.toDigits 10 k) = k := by
  have hdg : ∀ c ∈ Nat.toDigits 10 k, c.isDigit = true := fun c hc =>
    Nat.isDigit_of_mem_toDigits (by decide) (by decide) hc
  have hsp : (Nat.toDigits 10 k).dropWhile isSpace = Nat.toDigits 10 k := by
    cases hd : Nat.toDigits 10 k with
    | nil => rfl
    | cons c cs =>
      refine dropWhile_cons_of_neg ?_
      have hc : 48 ≤ c.toNat ∧ c.toNat ≤ 57 := by
        simpa [Char.isDigit, UInt32.le_iff_toNat_le] using hdg c (by simp [hd])
      simp [isSpace]
      omega
  have hint : isInt64 k = true := by
    simp only [isInt64, decide_eq_true_eq]
    omega
  have htk := takeWhile_eq_self_iff.mpr hdg
  have hvl : Nat.ofDigitChars 10 (Nat.toDigits 10 k) 0 = k := by simp
  constructor
  · simp only [offsetAny, atoi, signed_digits hdg, hvl, Int.one_mul]
    rw [if_pos ⟨Nat.toDigits_ne_nil, all_eq_true.mpr hdg, hint⟩]
    grind
  · rw [offset, if_pos Nat.toDigits_ne_nil, sscanf, hsp, signed_digits hdg]
    simp only [htk, hvl, Int.one_mul]
    exact if_pos ⟨Nat.toDigits_ne_nil, hint⟩

theorem length_sortItems : (sortItems items).length = items.length := length_insertionSort ..

theorem sort_eq (hks : (objects.map objectKey).Nodup) (hp : items ~ objects) :
    sortItems items = sortItems objects := by
  have hpm : ∀ l : List Obj, sortItems l ~ l := perm_insertionSort _
  refine Perm.eq_of_pairwise (fun a b ha hb hab hba => ?_) (pairwise_insertionSort _ items)
    (pairwise_insertionSort _ objects) ((hpm items).trans (hp.trans (hpm objects).symm))
  exact inj_on_of_nodup_map hks (((hpm items).trans hp).subset ha)
    ((hpm objects).subset hb) (le_antisymm hab hba)

theorem cut_eq (hk : k ≤ items.length) : cut items limit k =
    some (((sortItems items).drop k).take limit,
      if k + limit < items.length then Nat.toDigits 10 (k + limit) else []) := by
  rw [← length_sortItems] at hk ⊢
  unfold cut
  generalize sortItems items = sorted at hk ⊢
  rcases hk.eq_or_lt with rfl | hlt
  · simp
  · dsimp only
    rw [if_neg (by omega), if_neg (by omega)]
    by_cases hmr : k + limit < sorted.length
    · have hst : min ((k : ℤ) + limit) sorted.length = ((k + limit : ℕ) : ℤ) := by omega
      have hsz : (((k + limit : ℕ) : ℤ) - k).toNat = limit := by omega
      rw [hst, hsz, if_pos (by omega), if_pos hmr]
      rfl
    · have hst : min ((k : ℤ) + limit) sorted.length = sorted.length := by omega
      rw [hst, if_neg (by omega), if_neg hmr, take_of_length_le (by simp),
        take_of_length_le (by simp; omega)]
      rfl

def Fits (items : List Obj) (limit : ℕ) (page : Option (List Obj × Text)) : Prop :=
  ∃ found next, page = some (found, next) ∧ found <:+: sortItems items ∧ found.length ≤ limit

theorem fits_cut_iff {start : ℤ} : Fits items limit (cut items limit start) ↔ 0 ≤ start := by
  constructor
  · rintro ⟨found, next, hcut, -⟩
    unfold cut at hcut
    grind
  · intro h
    obtain ⟨k, rfl⟩ := Int.eq_ofNat_of_zero_le h
    by_cases hk : k ≤ items.length
    · exact ⟨_, _, cut_eq hk, (( take_prefix ..).isInfix).trans (drop_suffix ..).isInfix,
        length_take_le ..⟩
    · refine ⟨[], [], if_pos ?_, nil_infix, Nat.zero_le _⟩
      rw [length_sortItems]
      omega

/-- A walk from an offset on finds what stands there in order. -/
theorem walk_from {start : Text → ℤ} (hsta : ∀ k < 2 ^ 63, start (Nat.toDigits 10 k) = k)
    (hlen : objects.length < 2 ^ 63) (hks : (objects.map objectKey).Nodup) (hlm : 0 < limit)
    {orders : List (List Obj)} (hor : ∀ items ∈ orders, items ~ objects)
    (hln : objects.length < k + orders.length) (hk : k ≤ objects.length)
    (hto : start token = k) :
    walk (fun items limit token => cut items limit (start token)) limit orders token =
      some ((sortItems objects).drop k) := by
  induction orders generalizing token k with
  | nil => exact absurd hln (Nat.not_lt.mpr hk)
  | cons items orders ih =>
    obtain ⟨hp, hor⟩ := forall_mem_cons.mp hor
    rw [walk, hto, cut_eq (hk.trans_eq hp.length_eq.symm), sort_eq hks hp, hp.length_eq]
    by_cases hmr : k + limit < objects.length
    · rw [if_pos hmr]
      have hrs := ih hor (by rw [length_cons] at hln; omega) hmr.le (hsta _ (hmr.trans hlen))
      cases hnx : Nat.toDigits 10 (k + limit) with
      | nil => exact absurd hnx Nat.toDigits_ne_nil
      | cons c cs =>
        rw [hnx] at hrs
        dsimp only
        rw [hrs, Option.map_some, ← drop_drop, take_append_drop]
    · rw [if_neg hmr]
      refine congrArg some (take_of_length_le ?_)
      rw [length_drop, length_sortItems]
      omega

end

/-- Objects with distinct keys are each visited once, and a page is one unless its offset is
negative. -/
theorem offset_paging (objects : List Obj) (hlen : objects.length < 2 ^ 63)
    (hks : (objects.map objectKey).Nodup) (limit : ℕ) (hlm : 0 < limit)
    (orders : List (List Obj)) (hor : ∀ items ∈ orders, items ~ objects)
    (hln : objects.length < orders.length) :
    (∀ page ∈ [paginateAny, paginate],
      ∃ visited, walk page limit orders [] = some visited ∧ visited ~ objects) ∧
    ∀ items token, Fits items limit (paginateAny items limit token) ∧
      (Fits items limit (paginate items limit token) ↔ 0 ≤ offset token) := by
  have hwl : ∀ start : Text → ℤ, (∀ k < 2 ^ 63, start (Nat.toDigits 10 k) = k) → start [] = 0 →
      ∃ visited, walk (fun items limit token => cut items limit (start token)) limit orders [] =
        some visited ∧ visited ~ objects := by
    intro start hsta hnil
    exact ⟨_, walk_from (k := 0) hsta hlen hks hlm hor (by omega) (Nat.zero_le _) hnil,
      perm_insertionSort ..⟩
  refine ⟨?_, fun items token => ⟨fits_cut_iff.mpr ?_, fits_cut_iff⟩⟩
  · rintro page (_ | ⟨_, _ | ⟨_, ⟨⟩⟩⟩)
    · exact hwl offsetAny (fun k hk => (offset_minted hk).1) rfl
    · exact hwl offset (fun k hk => (offset_minted hk).2) rfl
  · unfold offsetAny
    grind

/-- Typed objects with names as Kubernetes has them. -/
theorem nodup_objectKey {objects : List Obj} (hn : (objects.map fun o => (o.ns, o.name)).Nodup)
    (h : ∀ o ∈ objects, o.accessor = true ∧ '/' ∉ o.ns.toList ∧ '/' ∉ o.name.toList) :
    (objects.map objectKey).Nodup := by
  refine List.Nodup.map_on (fun o ho q hq heq => inj_on_of_nodup_map hn ho hq ?_)
    (List.Nodup.of_map _ hn)
  obtain ⟨hty, hns, hnm⟩ := h o ho
  obtain ⟨hty', hns', hnm'⟩ := h q hq
  have hkey := congrArg String.toList heq
  have htext : ∀ o : Obj, o.accessor = true → (objectKey o).toList =
      if o.ns ≠ "" then o.ns.toList ++ '/' :: o.name.toList else o.name.toList := by
    intro o ho
    rw [objectKey, if_pos ho]
    split <;> simp
  rw [htext o hty, htext q hty'] at hkey
  -- a slash in the key says that there is a namespace
  split at hkey <;> split at hkey
  · obtain ⟨hl, hr⟩ := Lib.append_sep_inj hns hns' hkey
    exact Prod.ext (String.toList_inj.mp hl) (String.toList_inj.mp hr)
  · exact absurd (hkey ▸ mem_append_right _ mem_cons_self) hnm'
  · exact absurd (hkey.symm ▸ mem_append_right _ mem_cons_self) hnm
  next ho' hq' =>
    exact Prod.ext ((not_not.mp ho').trans (not_not.mp hq').symm) (String.toList_inj.mp hkey)

private def policy (name : String) : Obj := ⟨false, "shop", name⟩

theorem offset_paging_pods :
    ∃ visited, walk paginateAny 1 [[⟨true, "shop", "b"⟩, ⟨true, "shop", "a"⟩],
        [⟨true, "shop", "a"⟩, ⟨true, "shop", "b"⟩], [⟨true, "shop", "b"⟩, ⟨true, "shop", "a"⟩]] [] =
      some visited ∧ visited ~ [⟨true, "shop", "a"⟩, ⟨true, "shop", "b"⟩] :=
  (offset_paging _ (by decide) (nodup_objectKey (by decide) (by decide)) 1 (by decide) _ (by decide)
    (by decide)).1 _ (by simp)

/-- Two policies that come in either order in turn, and a token that panics. -/
theorem paginate_repeats_and_panics :
    (∀ visited, walk paginate 1 [[policy "a", policy "b"], [policy "b", policy "a"],
        [policy "a", policy "b"]] [] = some visited → ¬ visited ~ [policy "a", policy "b"]) ∧
      ¬ Fits [] 100 (paginate [] 100 ['-', '1']) := by
  refine ⟨fun visited h => ?_, fun h => absurd (fits_cut_iff.mp h) (by decide)⟩
  cases h
  decide

end KubeCenter.Resources.Paging
