import KubeCenter.Lib.Bytes

/-! # UTF-8 in byte strings

A byte string is read as runes, with every byte that starts no valid encoding
standing for itself, as Go's `utf8` package reads it. -/
namespace KubeCenter.Lib
open List

def isContinuation (b : UInt8) : Bool := 0x80 ≤ b && b ≤ 0xBF

/-- `utf8.RuneStart`. -/
def runeStart (b : UInt8) : Bool := !isContinuation b

/-- A rune in its encoding, or a byte that is part of none. -/
inductive Rune where
  | valid (code : Nat) (encoding : Bytes)
  | invalid (b : UInt8)
deriving DecidableEq

/-- The first two bytes of an encoding of three. Surrogates and overlong
forms are left out. -/
def startsThree (b₀ b₁ : UInt8) : Bool :=
  (b₀ == 0xE0 && 0xA0 ≤ b₁ && b₁ ≤ 0xBF) || (b₀ == 0xED && 0x80 ≤ b₁ && b₁ ≤ 0x9F) ||
    (((0xE1 ≤ b₀ && b₀ ≤ 0xEC) || (0xEE ≤ b₀ && b₀ ≤ 0xEF)) && isContinuation b₁)

def startsFour (b₀ b₁ : UInt8) : Bool :=
  (b₀ == 0xF0 && 0x90 ≤ b₁ && b₁ ≤ 0xBF) || (b₀ == 0xF4 && 0x80 ≤ b₁ && b₁ ≤ 0x8F) ||
    (0xF1 ≤ b₀ && b₀ ≤ 0xF3 && isContinuation b₁)

def tailBits (b : UInt8) : Nat := b.toNat - 0x80

/-- The length of the valid encoding at the front, 0 if there is none. -/
def encodingLength : Bytes → Nat
  | [] => 0
  | b₀ :: s =>
    if b₀ < 0x80 then 1
    else
      match s with
      | [] => 0
      | b₁ :: s =>
        if 0xC2 ≤ b₀ ∧ b₀ ≤ 0xDF ∧ isContinuation b₁ then 2
        else
          match s with
          | [] => 0
          | b₂ :: s =>
            if startsThree b₀ b₁ ∧ isContinuation b₂ then 3
            else
              match s with
              | [] => 0
              | b₃ :: _ => if startsFour b₀ b₁ ∧ isContinuation b₂ ∧ isContinuation b₃ then 4 else 0

def codePoint : Bytes → Nat
  | [b₀] => b₀.toNat
  | [b₀, b₁] => (b₀.toNat - 0xC0) * 64 + tailBits b₁
  | [b₀, b₁, b₂] => (b₀.toNat - 0xE0) * 4096 + tailBits b₁ * 64 + tailBits b₂
  | [b₀, b₁, b₂, b₃] =>
    (b₀.toNat - 0xF0) * 262144 + tailBits b₁ * 4096 + tailBits b₂ * 64 + tailBits b₃
  | _ => 0xFFFD

/-- The rune at the front of `b :: s` and what follows it. -/
def nextRune (b : UInt8) (s : Bytes) : Rune × Bytes :=
  let n := encodingLength (b :: s)
  if n = 0 then (.invalid b, s)
  else (.valid (codePoint ((b :: s).take n)) ((b :: s).take n), (b :: s).drop n)

/-- The runes of a string, at most `fuel` of them. -/
def runesLoop : Nat → Bytes → List Rune
  | 0, _ => []
  | _ + 1, [] => []
  | fuel + 1, b :: s => (nextRune b s).1 :: runesLoop fuel (nextRune b s).2

def runes (s : Bytes) : List Rune := runesLoop s.length s

def replacementChar : Bytes := [0xEF, 0xBF, 0xBD]

/-- Each run of invalid bytes is replaced once; `invalid`: the byte before was one. -/
def replaceInvalid (replacement : Bytes) : Bool → List Rune → Bytes
  | _, [] => []
  | _, .valid _ encoding :: rs => encoding ++ replaceInvalid replacement false rs
  | true, .invalid _ :: rs => replaceInvalid replacement true rs
  | false, .invalid _ :: rs => replacement ++ replaceInvalid replacement true rs

/-- `strings.ToValidUTF8`. -/
def toValidUTF8 (s replacement : Bytes) : Bytes := replaceInvalid replacement false (runes s)

/-- `strings.Map` with a mapping that keeps or drops each rune. -/
def filterRunes (keep : Nat → Bool) (s : Bytes) : Bytes :=
  (runes s).flatMap fun
    | .valid code encoding => if keep code then encoding else []
    | .invalid _ => if keep 0xFFFD then replacementChar else []

/-- The largest index at most `n` where a rune starts, or 0. -/
def runeStartBefore (s : Bytes) : Nat → Nat
  | 0 => 0
  | n + 1 => if runeStart (s.getD (n + 1) 0) then n + 1 else runeStartBefore s n

/-! ## Texts

The bytes of a text are read back as its characters. -/

def utf8 (s : String) : Bytes := s.toList.flatMap String.utf8EncodeChar

theorem isContinuation_iff {b : UInt8} :
    isContinuation b = true ↔ 0x80 ≤ b.toNat ∧ b.toNat ≤ 0xBF := by
  simp [isContinuation, UInt8.le_iff_toNat_le]

theorem startsThree_iff {b₀ b₁ : UInt8} : startsThree b₀ b₁ = true ↔
    (b₀.toNat = 0xE0 ∧ 0xA0 ≤ b₁.toNat ∧ b₁.toNat ≤ 0xBF) ∨
      (b₀.toNat = 0xED ∧ 0x80 ≤ b₁.toNat ∧ b₁.toNat ≤ 0x9F) ∨
      (((0xE1 ≤ b₀.toNat ∧ b₀.toNat ≤ 0xEC) ∨ (0xEE ≤ b₀.toNat ∧ b₀.toNat ≤ 0xEF)) ∧
        0x80 ≤ b₁.toNat ∧ b₁.toNat ≤ 0xBF) := by
  simp [startsThree, isContinuation_iff, UInt8.le_iff_toNat_le, ← UInt8.toNat_inj, and_assoc,
    or_assoc]

theorem startsFour_iff {b₀ b₁ : UInt8} : startsFour b₀ b₁ = true ↔
    (b₀.toNat = 0xF0 ∧ 0x90 ≤ b₁.toNat ∧ b₁.toNat ≤ 0xBF) ∨
      (b₀.toNat = 0xF4 ∧ 0x80 ≤ b₁.toNat ∧ b₁.toNat ≤ 0x8F) ∨
      (0xF1 ≤ b₀.toNat ∧ b₀.toNat ≤ 0xF3 ∧ 0x80 ≤ b₁.toNat ∧ b₁.toNat ≤ 0xBF) := by
  simp [startsFour, isContinuation_iff, UInt8.le_iff_toNat_le, ← UInt8.toNat_inj, and_assoc,
    or_assoc]

theorem encodingLength_two {b₀ b₁ : UInt8} (h₀ : 0xC2 ≤ b₀.toNat) (h₀' : b₀.toNat ≤ 0xDF)
    (h₁ : isContinuation b₁ = true) (s : Bytes) : encodingLength (b₀ :: b₁ :: s) = 2 := by
  have hfi : ¬ b₀ < 0x80 := by
    simp [UInt8.lt_iff_toNat_lt]
    omega
  have htwo : 0xC2 ≤ b₀ ∧ b₀ ≤ 0xDF ∧ isContinuation b₁ = true := by
    simp only [UInt8.le_iff_toNat_le]
    exact ⟨h₀, h₀', h₁⟩
  rw [encodingLength.eq_def]
  dsimp only
  rw [if_neg hfi]
  rw [if_pos htwo]

theorem not_short {b₀ : UInt8} (b₁ : UInt8) (h : 0xDF < b₀.toNat) :
    ¬b₀ < 0x80 ∧ ¬(0xC2 ≤ b₀ ∧ b₀ ≤ 0xDF ∧ isContinuation b₁ = true) := by
  simp [UInt8.lt_iff_toNat_lt, UInt8.le_iff_toNat_le]
  omega

theorem encodingLength_three {b₀ b₁ b₂ : UInt8} (h₀ : startsThree b₀ b₁ = true)
    (h₂ : isContinuation b₂ = true) (s : Bytes) :
    encodingLength (b₀ :: b₁ :: b₂ :: s) = 3 := by
  have hsta := startsThree_iff.mp h₀
  obtain ⟨hfi, htwo⟩ := not_short b₁ (show 0xDF < b₀.toNat by omega)
  rw [encodingLength.eq_def]
  dsimp only
  rw [if_neg hfi]
  rw [if_neg htwo, if_pos ⟨h₀, h₂⟩]

theorem encodingLength_four {b₀ b₁ b₂ b₃ : UInt8} (h₀ : startsFour b₀ b₁ = true)
    (h₂ : isContinuation b₂ = true) (h₃ : isContinuation b₃ = true) (s : Bytes) :
    encodingLength (b₀ :: b₁ :: b₂ :: b₃ :: s) = 4 := by
  have hsta := startsFour_iff.mp h₀
  obtain ⟨hfi, htwo⟩ := not_short b₁ (show 0xDF < b₀.toNat by omega)
  have hth : ¬ (startsThree b₀ b₁ = true ∧ isContinuation b₂ = true) := by
    rw [startsThree_iff]
    omega
  rw [encodingLength.eq_def]
  dsimp only
  rw [if_neg hfi]
  rw [if_neg htwo, if_neg hth, if_pos ⟨h₀, h₂, h₃⟩]

theorem tailBits_eq (b : UInt8) : tailBits b = b.toNat - 0x80 := rfl

theorem encoding_utf8EncodeChar (c : Char) (s : Bytes) :
    encodingLength (String.utf8EncodeChar c ++ s) = (String.utf8EncodeChar c).length ∧
      codePoint (String.utf8EncodeChar c) = c.toNat := by
  have hvl : c.val.toNat.isValidChar := c.valid
  unfold Nat.isValidChar at hvl
  have hnat : c.toNat = c.val.toNat := rfl
  rw [hnat]
  unfold String.utf8EncodeChar
  generalize c.val.toNat = v at hvl ⊢
  dsimp only
  split
  · refine ⟨?_, ?_⟩
    · have hfi : UInt8.ofNat v < 0x80 := by
        simp [UInt8.lt_iff_toNat_lt]
        omega
      simp [encodingLength, hfi]
    · simp [codePoint]
      omega
  split
  · refine ⟨encodingLength_two ?_ ?_ (isContinuation_iff.mpr ?_) _, ?_⟩
    · simp; omega
    · simp; omega
    · simp; omega
    · simp only [codePoint, tailBits_eq, UInt8.toNat_ofNat']; omega
  split
  · refine ⟨encodingLength_three (startsThree_iff.mpr ?_) (isContinuation_iff.mpr ?_) _, ?_⟩
    · simp; omega
    · simp; omega
    · simp only [codePoint, tailBits_eq, UInt8.toNat_ofNat']; omega
  · refine ⟨encodingLength_four (startsFour_iff.mpr ?_) (isContinuation_iff.mpr ?_)
      (isContinuation_iff.mpr ?_) _, ?_⟩
    · simp; omega
    · simp; omega
    · simp; omega
    · simp only [codePoint, tailBits_eq, UInt8.toNat_ofNat']; omega

/-- U+FFFD for a byte that is part of no encoding. -/
def Rune.code : Rune → Nat
  | .valid code _ => code
  | .invalid _ => 0xFFFD

theorem nextRune_utf8EncodeChar {c : Char} {b : UInt8} {t : Bytes}
    (h : String.utf8EncodeChar c = b :: t) (s : Bytes) :
    nextRune b (t ++ s) = (.valid c.toNat (String.utf8EncodeChar c), s) := by
  obtain ⟨hln, hco⟩ := encoding_utf8EncodeChar c s
  have hfr : b :: (t ++ s) = String.utf8EncodeChar c ++ s := by rw [h, cons_append]
  have hpos : (String.utf8EncodeChar c).length ≠ 0 := by rw [h]; simp
  simp only [nextRune, hfr, hln, if_neg hpos, take_left, drop_left, hco]

theorem runesLoop_utf8 {cs : List Char} {fuel : Nat}
    (hfl : (cs.flatMap String.utf8EncodeChar).length ≤ fuel) :
    runesLoop fuel (cs.flatMap String.utf8EncodeChar) =
      cs.map fun c => .valid c.toNat (String.utf8EncodeChar c) := by
  induction cs generalizing fuel with
  | nil => cases fuel <;> rfl
  | cons c cs ih =>
    rw [flatMap_cons, length_append] at hfl
    obtain ⟨b, t, henc⟩ := exists_cons_of_ne_nil (String.utf8EncodeChar_ne_nil (c := c))
    have hone : 1 ≤ (String.utf8EncodeChar c).length := by rw [henc]; simp
    obtain ⟨fuel, rfl⟩ : ∃ n, fuel = n + 1 := ⟨fuel - 1, by omega⟩
    have hnx := nextRune_utf8EncodeChar henc (cs.flatMap String.utf8EncodeChar)
    rw [flatMap_cons, henc, cons_append, runesLoop, hnx, ih (by omega), map_cons]

theorem runes_utf8 (s : String) :
    runes (utf8 s) = s.toList.map fun c => .valid c.toNat (String.utf8EncodeChar c) :=
  runesLoop_utf8 (Nat.le_refl _)

theorem codes_utf8 (s : String) : (runes (utf8 s)).map Rune.code = s.toList.map Char.toNat := by
  rw [runes_utf8, map_map]
  rfl

theorem utf8_injective : Function.Injective utf8 := by
  intro s s' h
  have hcd := congrArg (fun bytes => (runes bytes).map Rune.code) h
  simp only [codes_utf8] at hcd
  exact String.toList_injective (map_injective_iff.mpr (fun _ _ => Char.toNat_inj.mp) hcd)

end KubeCenter.Lib
