import Mathlib.Data.List.Basic

/-! # UTF-16 units of a text

A text is written as units of sixteen bits, a character past the basic plane as a
pair of surrogates, and read back code point by code point. -/
namespace KubeCenter.Lib
open List

def isHighSurrogate (u : UInt16) : Bool := 0xD800 ≤ u.toNat && u.toNat < 0xDC00

def isLowSurrogate (u : UInt16) : Bool := 0xDC00 ≤ u.toNat && u.toNat < 0xE000

def utf16Char (c : Char) : List UInt16 :=
  if c.toNat < 0x10000 then [UInt16.ofNat c.toNat]
  else [UInt16.ofNat (0xD800 + (c.toNat - 0x10000) / 0x400),
    UInt16.ofNat (0xDC00 + (c.toNat - 0x10000) % 0x400)]

def utf16 (s : String) : List UInt16 := s.toList.flatMap utf16Char

/-- The code points of a list of units; a surrogate without its partner stands for itself. -/
def codePoints : List UInt16 → List ℕ
  | [] => []
  | [u] => [u.toNat]
  | u :: v :: rest =>
    if isHighSurrogate u && isLowSurrogate v then
      (0x10000 + (u.toNat - 0xD800) * 0x400 + (v.toNat - 0xDC00)) :: codePoints rest
    else u.toNat :: codePoints (v :: rest)

theorem toNat_of_char (c : Char) : c.toNat < 0x110000 ∧ (c.toNat < 0xD800 ∨ 0xDFFF < c.toNat) := by
  have hvl : c.toNat.isValidChar := c.valid
  unfold Nat.isValidChar at hvl
  omega

theorem codePoints_cons_of_not_high {u : UInt16} (h : isHighSurrogate u = false)
    (rest : List UInt16) : codePoints (u :: rest) = u.toNat :: codePoints rest := by
  cases rest with
  | nil => rfl
  | cons v rest => simp [codePoints, h]

theorem codePoints_cons_pair {u v : UInt16} (h : (isHighSurrogate u && isLowSurrogate v) = true)
    (rest : List UInt16) : codePoints (u :: v :: rest) =
      (0x10000 + (u.toNat - 0xD800) * 0x400 + (v.toNat - 0xDC00)) :: codePoints rest := by
  rw [codePoints, if_pos h]

theorem codePoints_utf16Char (c : Char) (rest : List UInt16) :
    codePoints (utf16Char c ++ rest) = c.toNat :: codePoints rest := by
  have hc := toNat_of_char c
  unfold utf16Char
  split
  next hsm =>
    have hun : (UInt16.ofNat c.toNat).toNat = c.toNat := by
      rw [UInt16.toNat_ofNat']
      omega
    have hhg : isHighSurrogate (UInt16.ofNat c.toNat) = false := by
      simp only [isHighSurrogate, hun, Bool.and_eq_false_iff, decide_eq_false_iff_not]
      omega
    rw [singleton_append, codePoints_cons_of_not_high hhg, hun]
  next hlr =>
    have hfi : (UInt16.ofNat (0xD800 + (c.toNat - 0x10000) / 0x400)).toNat =
        0xD800 + (c.toNat - 0x10000) / 0x400 := by
      rw [UInt16.toNat_ofNat']
      omega
    have hsc : (UInt16.ofNat (0xDC00 + (c.toNat - 0x10000) % 0x400)).toNat =
        0xDC00 + (c.toNat - 0x10000) % 0x400 := by
      rw [UInt16.toNat_ofNat']
      omega
    have hpr : (isHighSurrogate (UInt16.ofNat (0xD800 + (c.toNat - 0x10000) / 0x400)) &&
        isLowSurrogate (UInt16.ofNat (0xDC00 + (c.toNat - 0x10000) % 0x400))) = true := by
      simp only [isHighSurrogate, isLowSurrogate, hfi, hsc, Bool.and_eq_true, decide_eq_true_eq]
      omega
    have hco : 0x10000 + (0xD800 + (c.toNat - 0x10000) / 0x400 - 0xD800) * 0x400 +
        (0xDC00 + (c.toNat - 0x10000) % 0x400 - 0xDC00) = c.toNat := by
      omega
    rw [cons_append, singleton_append, codePoints_cons_pair hpr, hfi, hsc, hco]

theorem codePoints_utf16 (s : String) : codePoints (utf16 s) = s.toList.map Char.toNat := by
  unfold utf16
  induction s.toList with
  | nil => rfl
  | cons c cs ih => rw [flatMap_cons, codePoints_utf16Char, ih, map_cons]

theorem utf16_injective : Function.Injective utf16 := by
  intro s s' h
  have hcd := congrArg codePoints h
  rw [codePoints_utf16, codePoints_utf16] at hcd
  exact String.toList_injective (map_injective_iff.mpr (fun _ _ => Char.toNat_inj.mp) hcd)

theorem codePoints_eq_map {us} (h : ∀ u ∈ us, u.toNat < 0xD800) :
    codePoints us = us.map UInt16.toNat := by
  induction us with
  | nil => rfl
  | cons u us ih =>
    have hhg : isHighSurrogate u = false := by
      have hu := h u mem_cons_self
      simp only [isHighSurrogate, Bool.and_eq_false_iff, decide_eq_false_iff_not]
      omega
    rw [codePoints_cons_of_not_high hhg, map_cons, ih fun v hv => h v (mem_cons_of_mem _ hv)]

theorem map_utf16 {s : String} (h : ∀ u ∈ utf16 s, u.toNat < 0xD800) :
    (utf16 s).map UInt16.toNat = s.toList.map Char.toNat := by
  rw [← codePoints_eq_map h, codePoints_utf16]

theorem map_utf16_of_chars {s : String} (h : ∀ c ∈ s.toList, c.toNat < 0xD800) :
    (utf16 s).map UInt16.toNat = s.toList.map Char.toNat := by
  refine map_utf16 fun u hu => ?_
  obtain ⟨c, hc, hu⟩ := mem_flatMap.mp hu
  have hlt := h c hc
  rw [utf16Char, if_pos (by omega), mem_singleton] at hu
  rw [hu, UInt16.toNat_ofNat']
  omega

end KubeCenter.Lib
