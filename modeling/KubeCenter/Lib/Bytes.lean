import Mathlib.Data.List.Basic

/-! # Byte strings and trimming

A Go string is a sequence of bytes that need not be valid UTF-8. Trimming removes whole *units*
from either end, over any list of non-empty units; the units of `trimSpace` are the encodings of
the Unicode white space characters. -/
namespace KubeCenter.Lib
open List

/-! ## Removing units from either end -/

section Strip

variable {α : Type*}

def MadeOf (units : List (List α)) (s : List α) : Prop :=
  ∃ us : List (List α), (∀ u ∈ us, u ∈ units) ∧ s = us.flatten

theorem MadeOf.reverse {units : List (List α)} {s : List α}
    (h : MadeOf (units.map List.reverse) s) : MadeOf units s.reverse := by
  obtain ⟨us, hus, rfl⟩ := h
  refine ⟨(us.map List.reverse).reverse, fun u hu => ?_, by simp [reverse_flatten]⟩
  obtain ⟨v, hv, rfl⟩ := mem_map.1 (mem_reverse.1 hu)
  obtain ⟨w, hw, rfl⟩ := mem_map.1 (hus v hv)
  simpa using hw

theorem suffix_of_suffix_append_cons {u xs ys : List α} {b : α} (hb : b ∉ u)
    (h : u <:+ xs ++ b :: ys) : u <:+ ys := by
  rcases suffix_or_suffix_of_suffix h (suffix_append_of_suffix
    (suffix_refl (b :: ys))) with hsub | hsub
  · rcases suffix_cons_iff.1 hsub with rfl | hsub
    · exact absurd (mem_cons_self) hb
    · exact hsub
  · exact absurd (hsub.subset mem_cons_self) hb

theorem not_prefix_cons {b : α} {t u : List α} (hne : u ≠ []) (hb : b ∉ u) : ¬ u <+: b :: t := by
  intro h
  cases u with
  | nil => exact hne rfl
  | cons c u =>
    obtain ⟨rfl, -⟩ := cons_prefix_cons.1 h
    exact hb mem_cons_self

variable [DecidableEq α]

/-- Removes units from the front as long as one stands there, at most `fuel`
of them. -/
def stripLoop (units : List (List α)) : Nat → List α → List α
  | 0, s => s
  | fuel + 1, s =>
    match units.find? fun u => decide (u <+: s) with
    | none => s
    | some u => stripLoop units fuel (s.drop u.length)

/-- Every unit removed is at least one letter, so the length of `s` bounds their number. -/
def strip (units : List (List α)) (s : List α) : List α := stripLoop units s.length s

/-- `s` without the units at its end. -/
def stripEnd (units : List (List α)) (s : List α) : List α :=
  (strip (units.map List.reverse) s.reverse).reverse

variable {units : List (List α)} {s : List α}

theorem stripLoop_spec (hpos : ∀ u ∈ units, u ≠ []) : ∀ (fuel : Nat) (s : List α), s.length ≤ fuel →
      (∃ lead, MadeOf units lead ∧ s = lead ++ stripLoop units fuel s) ∧
        ∀ u ∈ units, ¬ u <+: stripLoop units fuel s
  | 0, s, hs => by
    have hnil : s = [] := eq_nil_of_length_eq_zero (Nat.le_zero.1 hs)
    subst hnil
    exact ⟨⟨[], ⟨[], by simp⟩, rfl⟩, fun u hu h => hpos u hu (prefix_nil.1 h)⟩
  | fuel + 1, s, hs => by
    unfold stripLoop
    cases hfd : units.find? fun u => decide (u <+: s) with
    | none =>
      refine ⟨⟨[], ⟨[], by simp⟩, rfl⟩, fun u hu => ?_⟩
      simpa using find?_eq_none.1 hfd u hu
    | some u =>
      have hu : u ∈ units := mem_of_find?_eq_some hfd
      obtain ⟨rest, rfl⟩ : u <+: s := by simpa using find?_some hfd
      have hlen : 0 < u.length := length_pos_iff.2 (hpos u hu)
      have hrs : rest.length ≤ fuel := by
        rw [length_append] at hs
        omega
      obtain ⟨⟨lead, ⟨us, hus, hld⟩, heq⟩, hno⟩ := stripLoop_spec hpos fuel rest hrs
      simp only [drop_left]
      refine ⟨⟨u ++ lead, ⟨u :: us, ?_, by simp [hld]⟩, ?_⟩, hno⟩
      · simpa [hu] using hus
      · rw [append_assoc, ← heq]

theorem strip_spec (hpos : ∀ u ∈ units, u ≠ []) (s : List α) :
    (∃ lead, MadeOf units lead ∧ s = lead ++ strip units s) ∧ ∀ u ∈ units, ¬ u <+: strip units s :=
  stripLoop_spec hpos s.length s (Nat.le_refl _)

theorem stripEnd_spec (hpos : ∀ u ∈ units, u ≠ []) (s : List α) :
    (∃ trail, MadeOf units trail ∧ s = stripEnd units s ++ trail) ∧
      ∀ u ∈ units, ¬ u <:+ stripEnd units s := by
  have hpos' : ∀ u ∈ units.map List.reverse, u ≠ [] := by
    intro u hu
    obtain ⟨v, hv, rfl⟩ := mem_map.1 hu
    simpa using hpos v hv
  obtain ⟨⟨lead, hld, heq⟩, hno⟩ := strip_spec hpos' s.reverse
  refine ⟨⟨lead.reverse, hld.reverse, ?_⟩, fun u hu hsf => ?_⟩
  · rw [stripEnd, ← reverse_append, ← heq, reverse_reverse]
  · refine hno u.reverse (mem_map_of_mem hu) ?_
    simpa [stripEnd] using reverse_prefix.2 hsf

theorem strip_eq_self (h : ∀ u ∈ units, ¬ u <+: s) : strip units s = s := by
  have hfd : (units.find? fun u => decide (u <+: s)) = none := by
    simpa [find?_eq_none] using h
  cases s with
  | nil => rfl
  | cons b t => simp [strip, stripLoop, hfd]

theorem stripEnd_eq_self (h : ∀ u ∈ units, ¬ u <:+ s) : stripEnd units s = s := by
  rw [stripEnd, strip_eq_self, reverse_reverse]
  intro u hu
  obtain ⟨v, hv, rfl⟩ := mem_map.1 hu
  simpa using h v hv

end Strip

/-! ## White space -/

/-- A Go string, or any byte string. -/
abbrev Bytes := List UInt8

instance : LawfulBEq Bytes := inferInstance

theorem forall_mem_of_all {P} [DecidablePred P] {l : List UInt8}
    (h : (l.all fun b => decide (P b)) = true) : ∀ b ∈ l, P b := fun b hb =>
  of_decide_eq_true (all_eq_true.1 h b hb)

/-- A decidable property of bytes can be checked on all of them. -/
instance (priority := low) decidableForallByte {P : UInt8 → Prop} [DecidablePred P] :
    Decidable (∀ b, P b) :=
  decidable_of_iff (∀ i : Fin 256, P (UInt8.ofFin i))
    ⟨fun h b => by simpa using h b.toFin, fun h _ => h _⟩

def byte (c : Char) : UInt8 := c.toNat.toUInt8

def ascii (s : String) : Bytes := s.toList.map byte

/-- What `unicode.IsSpace` accepts: the six ASCII ones, U+0085, U+00A0, U+1680, U+2000 to U+200A,
U+2028, U+2029, U+202F, U+205F and U+3000. -/
def spaces : List Bytes :=
  [[0x09], [0x0A], [0x0B], [0x0C], [0x0D], [0x20], [0xC2, 0x85], [0xC2, 0xA0],
    [0xE1, 0x9A, 0x80], [0xE2, 0x80, 0x80], [0xE2, 0x80, 0x81], [0xE2, 0x80, 0x82],
    [0xE2, 0x80, 0x83], [0xE2, 0x80, 0x84], [0xE2, 0x80, 0x85], [0xE2, 0x80, 0x86],
    [0xE2, 0x80, 0x87], [0xE2, 0x80, 0x88], [0xE2, 0x80, 0x89], [0xE2, 0x80, 0x8A],
    [0xE2, 0x80, 0xA8], [0xE2, 0x80, 0xA9], [0xE2, 0x80, 0xAF], [0xE2, 0x81, 0x9F],
    [0xE3, 0x80, 0x80]]

/-- `strings.TrimSpace`. -/
def trimSpace (s : Bytes) : Bytes := stripEnd spaces (strip spaces s)

/-- Nothing but white space. -/
def Blank (s : Bytes) : Prop := MadeOf spaces s

theorem ne_nil_of_mem_spaces : ∀ u ∈ spaces, u ≠ [] := by decide

theorem trimSpace_split (s : Bytes) :
    ∃ lead trail, Blank lead ∧ Blank trail ∧ s = lead ++ trimSpace s ++ trail := by
  obtain ⟨⟨lead, hld, hs⟩, -⟩ := strip_spec ne_nil_of_mem_spaces s
  obtain ⟨⟨trail, htr, hs'⟩, -⟩ := stripEnd_spec ne_nil_of_mem_spaces (strip spaces s)
  refine ⟨lead, trail, hld, htr, ?_⟩
  rw [trimSpace, append_assoc, ← hs', ← hs]

theorem not_suffix_trimSpace (s : Bytes) : ∀ u ∈ spaces, ¬ u <:+ trimSpace s :=
  (stripEnd_spec ne_nil_of_mem_spaces (strip spaces s)).2

theorem trimSpace_eq_self {b : UInt8} {t : Bytes} (hb : ∀ u ∈ spaces, b ∉ u)
    (hend : ∀ u ∈ spaces, ¬ u <:+ b :: t) : trimSpace (b :: t) = b :: t := by
  have hfr : strip spaces (b :: t) = b :: t :=
    strip_eq_self fun u hu => not_prefix_cons (ne_nil_of_mem_spaces u hu) (hb u hu)
  rw [trimSpace, hfr, stripEnd_eq_self hend]

end KubeCenter.Lib
