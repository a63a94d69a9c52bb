import Mathlib.Data.List.Dedup
import Mathlib.Data.List.Lex
import Mathlib.Data.List.Sort

/-! # Texts put together

Parts that do not hold the separator can be read back from the joined text. Nothing is assumed of a
text that is written as its length in decimal, a colon and the text; a map is written entry after
entry so, in the order of its keys. -/
namespace KubeCenter.Lib
open List

/-! ## Joined by a separator -/

section Joined

variable {α : Type*} {sep : α}

/-- The first part and the rest are determined when the separator is not in the
first part. -/
theorem append_sep_inj {x x' y y' : List α} (hx : sep ∉ x) (hx' : sep ∉ x')
    (h : x ++ sep :: y = x' ++ sep :: y') : x = x' ∧ y = y' := by
  induction x generalizing x' with
  | nil =>
    cases x' with
    | nil => exact ⟨rfl, by simpa using h⟩
    | cons b x' =>
      obtain ⟨rfl, -⟩ := cons_eq_cons.1 h
      exact absurd mem_cons_self hx'
  | cons a x ih =>
    cases x' with
    | nil =>
      obtain ⟨rfl, -⟩ := cons_eq_cons.1 h
      exact absurd mem_cons_self hx
    | cons b x' =>
      obtain ⟨rfl, htl⟩ := cons_eq_cons.1 h
      obtain ⟨rfl, hy⟩ := ih (fun hm => hx (mem_cons_of_mem _ hm))
        (fun hm => hx' (mem_cons_of_mem _ hm)) htl
      exact ⟨rfl, hy⟩

theorem mem_of_mem_intercalate {a : α} {ls} (h : a ∈ [sep].intercalate ls) :
    a = sep ∨ ∃ l ∈ ls, a ∈ l := by
  induction ls with
  | nil => simp at h
  | cons l ls ih =>
    cases ls with
    | nil => exact .inr ⟨l, by simp, by simpa using h⟩
    | cons l' ls =>
      rcases mem_append.1 h with hl | hrs
      · exact .inr ⟨l, mem_cons_self, hl⟩
      · rcases mem_cons.1 hrs with rfl | hrs
        · exact .inl rfl
        · exact (ih hrs).imp id fun ⟨x, hx, ha⟩ => ⟨x, mem_cons_of_mem _ hx, ha⟩

/-- Parts without the separator that are not empty: no part and one empty part have one text. -/
theorem intercalate_inj [DecidableEq α] {xs ys} (hx : ∀ x ∈ xs, sep ∉ x ∧ x ≠ [])
    (hy : ∀ y ∈ ys, sep ∉ y ∧ y ≠ []) (h : [sep].intercalate xs = [sep].intercalate ys) :
    xs = ys := by
  have hsp : ∀ {zs : List (List α)}, (∀ z ∈ zs, sep ∉ z ∧ z ≠ []) → zs ≠ [] →
      ([sep].intercalate zs).splitOn sep = zs :=
    fun hz hne => splitOn_intercalate sep (fun z hmem => (hz z hmem).1) hne
  -- an empty join splits into one empty part
  have hem : ∀ {zs : List (List α)}, (∀ z ∈ zs, sep ∉ z ∧ z ≠ []) →
      [sep].intercalate [] = [sep].intercalate zs → zs = [] := by
    intro zs hz he
    by_contra hne
    have hone := hsp hz hne
    rw [← he] at hone
    exact (hz [] (by rw [← hone]; exact mem_singleton.mpr rfl)).2 rfl
  by_cases hxs : xs = []
  · subst hxs
    exact (hem hy h).symm
  · by_cases hys : ys = []
    · subst hys
      exact hem hx h.symm
    · rw [← hsp hx hxs, h, hsp hy hys]

end Joined

/-! ## Written with length prefixes -/

theorem eq_of_map_eq_map {α β : Type*} {f : α → β} {l l' : List α}
    (hf : ∀ a ∈ l, ∀ b ∈ l', f a = f b → a = b) (h : l.map f = l'.map f) : l = l' := by
  induction l generalizing l' with
  | nil => exact (map_eq_nil_iff.mp h.symm).symm
  | cons a l ih =>
    obtain ⟨b, l', rfl, hb, hl'⟩ := map_eq_cons_iff.mp h.symm
    rw [hf a mem_cons_self b mem_cons_self hb.symm]
    refine congrArg (b :: ·) (ih (fun x hx y hy => ?_) hl'.symm)
    exact hf x (mem_cons_of_mem _ hx) y (mem_cons_of_mem _ hy)

section Texts

variable {α : Type*} (sym : Char → α)

/-- `n:s`. -/
def lenPrefixed (s : List α) : List α := (Nat.toDigits 10 s.length).map sym ++ sym ':' :: s

variable {sym}

theorem toDigits_inj {m n : ℕ} (h : Nat.toDigits 10 m = Nat.toDigits 10 n) : m = n := by
  have hrd := congrArg (fun ds => Nat.ofDigitChars 10 ds 0) h
  simpa using hrd

theorem isDigit_lt {c : Char} (h : c.isDigit = true) : c.toNat < 58 ∧ c ≠ ':' := by
  simp only [Char.isDigit, Bool.and_eq_true, decide_eq_true_eq, ge_iff_le,
    UInt32.le_iff_toNat_le] at h
  refine ⟨Nat.lt_succ_of_le h.2, ?_⟩
  rintro rfl
  exact absurd h.2 (by decide)

/-- A prefixed text can be read back, whatever follows. -/
theorem lenPrefixed_append_inj (hsym : ∀ c d : Char, c.toNat < 128 → d.toNat < 128 →
    sym c = sym d → c = d) {s s' t t' : List α}
    (h : lenPrefixed sym s ++ t = lenPrefixed sym s' ++ t') : s = s' ∧ t = t' := by
  have hdg : ∀ {n c}, c ∈ Nat.toDigits 10 n → c.toNat < 58 ∧ c ≠ ':' := fun hc =>
    isDigit_lt (Nat.isDigit_of_mem_toDigits (by decide) (by decide) hc)
  have hcl : ∀ n, sym ':' ∉ (Nat.toDigits 10 n).map sym := by
    intro n hmem
    obtain ⟨c, hc, heq⟩ := mem_map.mp hmem
    obtain ⟨hlt, hne⟩ := hdg hc
    exact hne (hsym c ':' (by omega) (by decide) heq)
  rw [lenPrefixed, lenPrefixed, append_assoc, append_assoc, cons_append, cons_append] at h
  obtain ⟨hln, hrs⟩ := append_sep_inj (hcl _) (hcl _) h
  have hdi : Nat.toDigits 10 s.length = Nat.toDigits 10 s'.length := by
    refine eq_of_map_eq_map (fun c hc d hd => ?_) hln
    exact hsym c d (Nat.lt_trans (hdg hc).1 (by decide)) (Nat.lt_trans (hdg hd).1 (by decide))
  exact append_inj hrs (toDigits_inj hdi)

end Texts

section Maps

variable {K V κ : Type*} [DecidableEq K] [LinearOrder κ] (rank : K → κ)

omit [LinearOrder κ] in
theorem lookup_eq_some_iff_mem {m : List (K × V)} (h : (m.map Prod.fst).Nodup) {k : K} {v : V} :
    m.lookup k = some v ↔ (k, v) ∈ m := by
  induction m with
  | nil => simp
  | cons e m ih =>
    obtain ⟨k₀, v₀⟩ := e
    rw [map_cons, nodup_cons] at h
    rw [lookup_cons, mem_cons]
    by_cases hk : k = k₀
    · subst hk
      have hnot : (k, v) ∉ m := fun hmem => h.1 (mem_map.mpr ⟨(k, v), hmem, rfl⟩)
      simp [hnot, eq_comm]
    · simp [beq_false_of_ne hk, hk, ih h.2]

def orderedKeys (m : List (K × V)) : List K :=
  (m.map Prod.fst).dedup.insertionSort fun a b => rank a ≤ rank b

variable {rank}

theorem mem_orderedKeys {m : List (K × V)} {k : K} :
    k ∈ orderedKeys rank m ↔ m.lookup k ≠ none := by
  simp [orderedKeys]

theorem orderedKeys_congr (hrn : Function.Injective rank) {m m' : List (K × V)}
    (h : ∀ k, m.lookup k = m'.lookup k) : orderedKeys rank m = orderedKeys rank m' := by
  have hnd : ∀ m : List (K × V), (orderedKeys rank m).Nodup := fun m =>
    (perm_insertionSort _ _).nodup_iff.mpr (nodup_dedup _)
  have hpm : (orderedKeys rank m).Perm (orderedKeys rank m') := by
    refine (perm_ext_iff_of_nodup (hnd m) (hnd m')).mpr fun k => ?_
    rw [mem_orderedKeys, mem_orderedKeys, h]
  refine hpm.eq_of_pairwise (fun a b _ _ hab hba => hrn (le_antisymm hab hba)) ?_ ?_
  · exact pairwise_insertionSort (fun a b => rank a ≤ rank b) _
  · exact pairwise_insertionSort (fun a b => rank a ≤ rank b) _

variable {α : Type*} (sym : Char → α) (units : K → List α) (value : V → List α) (default : V)

/-- The entries of a map in key order, each as its key and its value with their lengths. -/
def mapCode (rank : K → κ) (m : List (K × V)) : List α :=
  (orderedKeys rank m).flatMap fun k =>
    lenPrefixed sym (units k) ++ lenPrefixed sym (value ((m.lookup k).getD default))

variable {sym units value default}
  (hsym : ∀ c d : Char, c.toNat < 128 → d.toNat < 128 → sym c = sym d → c = d)
include hsym

theorem flatMap_lenPrefixed_inj {es es' : List (List α × List α)}
    (h : (es.flatMap fun e => lenPrefixed sym e.1 ++ lenPrefixed sym e.2) =
      es'.flatMap fun e => lenPrefixed sym e.1 ++ lenPrefixed sym e.2) : es = es' := by
  induction es generalizing es' with
  | nil =>
    cases es' with
    | nil => rfl
    | cons e' es' => simp [lenPrefixed] at h
  | cons e es ih =>
    cases es' with
    | nil => simp [lenPrefixed] at h
    | cons e' es' =>
      rw [flatMap_cons, flatMap_cons, append_assoc, append_assoc] at h
      obtain ⟨hkey, h⟩ := lenPrefixed_append_inj hsym h
      obtain ⟨hvl, h⟩ := lenPrefixed_append_inj hsym h
      rw [Prod.ext hkey hvl, ih h]

/-- Maps are written alike exactly when they have the same values. -/
theorem mapCode_eq_iff (hun : Function.Injective units) (hvl : Function.Injective value)
    (hrn : Function.Injective rank) {m m' : List (K × V)} :
    mapCode sym units value default rank m = mapCode sym units value default rank m' ↔
      ∀ k, m.lookup k = m'.lookup k := by
  constructor
  · intro h
    have hen : ((orderedKeys rank m).map fun k =>
        (units k, value ((m.lookup k).getD default))) =
        (orderedKeys rank m').map fun k => (units k, value ((m'.lookup k).getD default)) := by
      refine flatMap_lenPrefixed_inj hsym ?_
      simpa only [mapCode, flatMap_map] using h
    have hks : orderedKeys rank m = orderedKeys rank m' := by
      have hfi := congrArg (List.map Prod.fst) hen
      rw [map_map, map_map] at hfi
      exact map_injective_iff.mpr hun hfi
    rw [hks] at hen
    intro k
    by_cases hk : k ∈ orderedKeys rank m'
    · have hva := hvl (Prod.ext_iff.mp (map_inj_left.mp hen k hk)).2
      obtain ⟨v', hv'⟩ := Option.ne_none_iff_exists'.mp (mem_orderedKeys.mp hk)
      obtain ⟨v, hv⟩ := Option.ne_none_iff_exists'.mp (mem_orderedKeys.mp (hks ▸ hk))
      rw [hv, hv', Option.getD_some, Option.getD_some] at hva
      rw [hv, hv', hva]
    · rw [not_not.mp fun hne => hk (mem_orderedKeys.mpr hne),
        not_not.mp fun hne => hk (hks ▸ mem_orderedKeys.mpr hne)]
  · intro h
    rw [mapCode, mapCode, orderedKeys_congr hrn h]
    simp [h]

end Maps

end KubeCenter.Lib
