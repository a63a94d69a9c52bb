import Mathlib.Algebra.BigOperators.Group.List.Basic
import Mathlib.Algebra.GroupWithZero.Nat

/-! # JSON as text

JSON values with integer numbers, and the text of a value with a given space after every colon and
comma. Lengths are those of the UTF-8 encoding, and add up over the parts of a text. -/
namespace KubeCenter.Lib
open List Nat

/-! ## The length of a text -/

def octets (cs : List Char) : ℕ := (cs.flatMap String.utf8EncodeChar).length

@[simp] theorem octets_nil : octets [] = 0 := rfl

@[simp] theorem octets_cons (c : Char) (cs : List Char) :
    octets (c :: cs) = c.utf8Size + octets cs := by
  simp [octets]

@[simp] theorem octets_append (cs ds : List Char) : octets (cs ++ ds) = octets cs + octets ds := by
  simp [octets]

variable {s : String} {c : Char}

theorem utf8Size_of_ascii (h : c.toNat < 128) : c.utf8Size = 1 := by
  rw [Char.utf8Size_eq_one_iff, UInt32.le_iff_toNat_le]
  exact Nat.lt_succ_iff.mp h

theorem octets_of_ascii {cs} (h : ∀ c ∈ cs, c.toNat < 128) : octets cs = cs.length := by
  induction cs with
  | nil => rfl
  | cons c cs ih =>
    obtain ⟨hc, hcs⟩ := forall_mem_cons.mp h
    rw [octets_cons, utf8Size_of_ascii hc, ih hcs, length_cons, add_comm]

theorem octets_flatMap_le {f} {n : ℕ} {cs : List Char} (h : ∀ c ∈ cs, octets (f c) ≤ n) :
    octets (cs.flatMap f) ≤ n * cs.length := by
  induction cs with
  | nil => simp
  | cons c cs ih =>
    obtain ⟨hc, hcs⟩ := forall_mem_cons.mp h
    rw [flatMap_cons, octets_append, length_cons, mul_succ, add_comm]
    exact Nat.add_le_add (ih hcs) hc

/-! ## Texts in quotes -/

def escape (c : Char) : List Char :=
  if c = '"' then ['\\', '"']
  else if c = '\\' then ['\\', '\\']
  else if c.toNat = 8 then ['\\', 'b']
  else if c.toNat = 12 then ['\\', 'f']
  else if c = '\n' then ['\\', 'n']
  else if c = '\r' then ['\\', 'r']
  else if c = '\t' then ['\\', 't']
  else if c.toNat < 32 then
    ['\\', 'u', '0', '0', Nat.digitChar (c.toNat / 16), Nat.digitChar (c.toNat % 16)]
  else [c]

def quoted (s : String) : List Char := '"' :: s.toList.flatMap escape ++ ['"']

/-- A character that stands for itself in quotes. -/
structure Plain (c : Char) : Prop where
  quote : c ≠ '"'
  backslash : c ≠ '\\'
  printable : 32 ≤ c.toNat

theorem escape_of_plain (h : Plain c) : escape c = [c] := by
  have hpr := h.printable
  have hne : ∀ d : Char, d.toNat < 32 → c ≠ d := by
    rintro d hd rfl
    omega
  unfold escape
  rw [if_neg h.quote, if_neg h.backslash, if_neg (by omega), if_neg (by omega),
    if_neg (hne '\n' (by decide)), if_neg (hne '\r' (by decide)), if_neg (hne '\t' (by decide)),
    if_neg (by omega)]

def isSimple (c : Char) : Bool := 32 ≤ c.toNat && c.toNat < 128 && c.toNat ≠ 34 && c.toNat ≠ 92

theorem isSimple_iff :
    isSimple c = true ↔ 32 ≤ c.toNat ∧ c.toNat < 128 ∧ c.toNat ≠ 34 ∧ c.toNat ≠ 92 := by
  simp [isSimple, and_assoc]

theorem octets_escape_simple (h : isSimple c = true) : octets (escape c) = 1 := by
  obtain ⟨hpr, hascii, hqt, hbs⟩ := isSimple_iff.mp h
  have hpl : Plain c :=
    ⟨fun heq => hqt (congrArg Char.toNat heq), fun heq => hbs (congrArg Char.toNat heq), hpr⟩
  rw [escape_of_plain hpl, octets_cons, octets_nil, utf8Size_of_ascii hascii]

theorem octets_escape_le (h : 32 ≤ c.toNat) : octets (escape c) ≤ 4 := by
  by_cases hqt : c = '"'
  · subst hqt
    decide
  by_cases hbs : c = '\\'
  · subst hbs
    decide
  rw [escape_of_plain ⟨hqt, hbs, h⟩]
  simpa using c.utf8Size_le_four

theorem octets_quoted (s : String) : octets (quoted s) = octets (s.toList.flatMap escape) + 2 := by
  have hqt : '"'.utf8Size = 1 := by decide
  simp only [quoted, cons_append, octets_cons, octets_append, octets_nil, hqt]
  omega

theorem octets_quoted_le {n : ℕ} (h : ∀ c ∈ s.toList, octets (escape c) ≤ n) :
    octets (quoted s) ≤ n * s.toList.length + 2 := by
  rw [octets_quoted]
  exact Nat.add_le_add_right (octets_flatMap_le h) 2

theorem octets_quoted_simple (h : ∀ c ∈ s.toList, isSimple c = true) :
    octets (quoted s) = s.toList.length + 2 := by
  have hbd : ∀ cs : List Char, (∀ c ∈ cs, isSimple c = true) →
      octets (cs.flatMap escape) = cs.length := by
    intro cs
    induction cs with
    | nil => simp
    | cons c cs ih =>
      intro hcs
      obtain ⟨hc, hcs⟩ := forall_mem_cons.mp hcs
      rw [flatMap_cons, octets_append, octets_escape_simple hc, ih hcs, length_cons, add_comm]
  rw [octets_quoted, hbd _ h]

theorem bytes_eq_flatMap (s : String) :
    s.toByteArray.data.toList = s.toList.flatMap String.utf8EncodeChar := by
  rw [← String.utf8Encode_toList, List.utf8Encode, data_toByteArray]

/-- Every byte is that of a simple character. Quicker to evaluate than the characters. -/
def isSimpleText (s : String) : Bool :=
  s.toByteArray.data.toList.all fun b =>
    32 ≤ b.toNat && b.toNat < 128 && b.toNat ≠ 34 && b.toNat ≠ 92

theorem isSimple_of_bytes
    (h : ∀ b ∈ String.utf8EncodeChar c, 32 ≤ b.toNat ∧ b.toNat < 128 ∧ b.toNat ≠ 34 ∧ b.toNat ≠ 92)
    : isSimple c = true := by
  have hval : c.val.toNat = c.toNat := rfl
  have hfi : ∀ {b : UInt8} {bs : List UInt8}, String.utf8EncodeChar c = b :: bs →
      b.toNat < 128 := by
    intro b bs heq
    exact (h b (heq ▸ mem_cons_self)).2.1
  have hascii : c.toNat < 128 := by
    by_contra hln
    -- the first byte of a longer encoding is above the ASCII range
    unfold String.utf8EncodeChar at hfi
    dsimp only at hfi
    rw [hval, if_neg (by omega)] at hfi
    split at hfi
    on_goal 2 => split at hfi
    all_goals
      have hb := hfi rfl
      rw [UInt8.toNat_ofNat'] at hb
      omega
  have hone : String.utf8EncodeChar c = [UInt8.ofNat c.toNat] := by
    unfold String.utf8EncodeChar
    dsimp only
    rw [hval, if_pos (by omega)]
  have hb := h (UInt8.ofNat c.toNat) (hone ▸ mem_singleton_self _)
  rw [UInt8.toNat_ofNat', mod_eq_of_lt (by omega)] at hb
  exact isSimple_iff.mpr hb

theorem isSimple_of_isSimpleText (h : isSimpleText s = true) :
    ∀ c ∈ s.toList, isSimple c = true := by
  intro c hc
  refine isSimple_of_bytes fun b hb => ?_
  have hmem : b ∈ s.toByteArray.data.toList := by
    rw [bytes_eq_flatMap]
    exact mem_flatMap.mpr ⟨c, hc, hb⟩
  simpa [and_assoc] using all_eq_true.mp h b hmem

theorem length_of_isSimpleText (h : isSimpleText s = true) : s.toList.length = s.utf8ByteSize := by
  have hby : octets s.toList = s.utf8ByteSize := by
    rw [octets, ← bytes_eq_flatMap]
    rfl
  rw [← hby, octets_of_ascii fun c hc => (isSimple_iff.mp (isSimple_of_isSimpleText h c hc)).2.1]

theorem octets_quoted_of_isSimpleText (h : isSimpleText s = true) :
    octets (quoted s) = s.utf8ByteSize + 2 := by
  rw [octets_quoted_simple (isSimple_of_isSimpleText h), length_of_isSimpleText h]

/-! ## Values -/

inductive Json where
  | null
  | bool (b : Bool)
  | num (n : Int)
  | str (s : String)
  | arr (items : List Json)
  | obj (fields : List (String × Json))

def separated (sep : List Char) : List (List Char) → List Char
  | [] => []
  | [t] => t
  | t :: t' :: ts => t ++ sep ++ separated sep (t' :: ts)

theorem octets_separated (sep : List Char) (ts : List (List Char)) :
    octets (separated sep ts) = (ts.map octets).sum + (ts.length - 1) * octets sep := by
  fun_induction separated sep ts with
  | case1 => simp
  | case2 t => simp
  | case3 t t' ts ih =>
    simp only [octets_append, ih, map_cons, sum_cons, length_cons, Nat.add_sub_cancel, Nat.succ_mul]
    omega

namespace Json

variable (space : List Char)

mutual

def render : Json → List Char
  | .null => "null".toList
  | .bool b => (toString b).toList
  | .num n => (toString n).toList
  | .str s => quoted s
  | .arr items => '[' :: separated (',' :: space) (renderItems items) ++ [']']
  | .obj fields => '\x7b' :: separated (',' :: space) (renderFields fields) ++ ['\x7d']

def renderItems : List Json → List (List Char)
  | [] => []
  | v :: vs => render v :: renderItems vs

def renderFields : List (String × Json) → List (List Char)
  | [] => []
  | (k, v) :: fs => (quoted k ++ ':' :: space ++ render v) :: renderFields fs

end

variable {space}

theorem renderItems_eq_map (vs : List Json) : renderItems space vs = vs.map (render space) := by
  induction vs with
  | nil => rfl
  | cons v vs ih => rw [renderItems, ih, map_cons]

theorem renderFields_eq_map (fs : List (String × Json)) :
    renderFields space fs = fs.map fun f => quoted f.1 ++ ':' :: space ++ f.2.render space := by
  induction fs with
  | nil => rfl
  | cons f fs ih => rw [renderFields, ih, map_cons]

theorem octets_bracketed {o c : Char} (ho : o.utf8Size = 1) (hc : c.utf8Size = 1)
    (ts : List (List Char)) : octets (o :: separated (',' :: space) ts ++ [c]) =
      2 + (ts.map octets).sum + (ts.length - 1) * (1 + octets space) := by
  have hcm : ','.utf8Size = 1 := by decide
  rw [cons_append, octets_cons, octets_append, octets_separated]
  simp only [octets_cons, octets_nil, ho, hc, hcm]
  omega

/-- What a field adds to the text of its object, but for the comma. -/
@[simp] def fieldOctets (space : List Char) (f : String × Json) : ℕ :=
  octets (quoted f.1) + 1 + octets space + octets (f.2.render space)

@[simp] theorem octets_arr (vs : List Json) : octets (render space (.arr vs)) =
      2 + (vs.map fun v => octets (v.render space)).sum + (vs.length - 1) * (1 + octets space) := by
  rw [render, octets_bracketed (by decide) (by decide), renderItems_eq_map, map_map, length_map]
  rfl

@[simp] theorem octets_obj (fs : List (String × Json)) : octets (render space (.obj fs)) =
      2 + (fs.map (fieldOctets space)).sum + (fs.length - 1) * (1 + octets space) := by
  have hcl : ':'.utf8Size = 1 := by decide
  have hfl : (octets ∘ fun f : String × Json => quoted f.1 ++ ':' :: space ++ f.2.render space) =
      fieldOctets space := by
    funext f
    simp only [Function.comp_apply, octets_append, octets_cons, hcl, fieldOctets]
    omega
  rw [render, octets_bracketed (by decide) (by decide), renderFields_eq_map, map_map,
    length_map, hfl]

theorem octets_num (n : ℕ) : octets (render space (.num n)) = (Nat.toDigits 10 n).length := by
  have htx : render space (.num n) = Nat.toDigits 10 n := by
    rw [render, ← toList_repr]
    rfl
  have hasc : ∀ c ∈ Nat.toDigits 10 n, c.toNat < 128 := by
    intro c hc
    have hdg := Nat.isDigit_of_mem_toDigits (by omega) (by omega) hc
    exact Nat.lt_of_le_of_lt (Char.isDigit_iff_toNat.mp hdg).2 (by decide)
  rw [htx, octets_of_ascii hasc]

@[simp] theorem octets_str (s : String) : octets (render space (.str s)) = octets (quoted s) := by
  rw [render]

end Json

end KubeCenter.Lib
