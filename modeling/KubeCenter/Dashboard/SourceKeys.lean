import KubeCenter.Dashboard.Params

/-! # Cache keys of data sources

`params.ts`: `sourceKeyFor` writes the declared parameters of a source behind its name and
`decodeSourceKey` reads them back. A string is its UTF-16 units, lone surrogates included. -/
namespace KubeCenter.Dashboard
open Lib List
open Function (update)

abbrev Units := List UInt16

abbrev ParamRecord := Units → Option Units

/-- `PARAMETERIZED_SOURCE_PARAMS`. -/
def parameterizedSourceParams : List (String × List String) :=
  [("diagnostics-summary", [paramKeyNamespace]),
    ("vulnerability-reports", [paramKeyNamespace]),
    ("mesh-golden-signals", [paramKeyNamespace, paramKeyService]),
    ("hubble-flows", [paramKeyNamespace])]

/-- What an object literal inherits. A lookup of such a name finds no list of parameters, and the
source throws. -/
def inheritedNames : List String :=
  ["constructor", "hasOwnProperty", "isPrototypeOf", "propertyIsEnumerable", "toLocaleString",
    "toString", "valueOf", "__proto__", "__defineGetter__", "__defineSetter__", "__lookupGetter__",
    "__lookupSetter__"]

/-- Every data source is named so. -/
def IsSource (base : Units) : Prop := unitOf ':' ∉ base ∧ base ∉ inheritedNames.map utf16

def declaredParams (base : Units) : Option (List Units) :=
  (parameterizedSourceParams.map fun e => (utf16 e.1, e.2.map utf16)).lookup base

/-- The declared keys that have a value, sorted. -/
def carriedKeys (declared : List Units) (params : ParamRecord) : List Units :=
  (declared.insertionSort fun a b => a.map UInt16.toNat ≤ b.map UInt16.toNat).filter
    fun k => (params k).getD [] ≠ []

def pairCode (key value : Units) : Units := lenPrefixed unitOf key ++ lenPrefixed unitOf value

def sourceKeyFor (base : Units) (params : ParamRecord) : Units :=
  match declaredParams base with
  | none => base
  | some declared =>
    let parts := (carriedKeys declared params).map fun k => pairCode k ((params k).getD [])
    if parts.length = 0 then base else base ++ unitOf ':' :: parts.flatten

section Decode

/- What `Number` makes of a text that is not made of digits, where it is an integer and not
negative. -/
variable (other : Units → Option ℕ)

/-- `Number`, exact on the digits of a length: no string has `2 ^ 53` units. -/
def number (text : Units) : Option ℕ :=
  if text.all fun u => 48 ≤ u.toNat ∧ u.toNat < 58 then
    some (text.foldl (fun n u => 10 * n + (u.toNat - 48)) 0)
  else other text

/-- One pass of the inner loop: the part that was read and the rest. -/
def readPart (rest : Units) : Option (Units × Units) :=
  let colon := rest.idxOf (unitOf ':')
  if colon = 0 ∨ colon = rest.length then none
  else do
    let len ← number other (rest.take colon)
    let start := colon + 1
    if start + len > rest.length then none
    else some ((rest.drop start).take len, rest.drop (start + len))

/-- One pass of the outer loop. -/
def readPair (rest : Units) : Option (Units × Units × Units) := do
  let (key, rest) ← readPart other rest
  let (value, rest) ← readPart other rest
  pure (key, value, rest)

variable {other}

theorem readPart_length {rest part rest'} (h : readPart other rest = some (part, rest')) :
    rest'.length < rest.length := by
  simp only [readPart] at h
  split at h
  · cases h
  next hc =>
    obtain ⟨len, -, h⟩ := Option.bind_eq_some_iff.mp h
    split at h
    · cases h
    · cases h
      rw [length_drop]
      omega

theorem readPair_length {rest key value rest'}
    (h : readPair other rest = some (key, value, rest')) : rest'.length < rest.length := by
  obtain ⟨_, hk, h⟩ := Option.bind_eq_some_iff.mp h
  obtain ⟨_, hv, ⟨⟩⟩ := Option.bind_eq_some_iff.mp h
  exact (readPart_length hv).trans (readPart_length hk)

variable (other)

def decodeLoop (base rest : Units) (params : ParamRecord) : Units × ParamRecord :=
  if rest.length > 0 then
    match _h : readPair other rest with
    | none => (base, fun _ => none)
    | some (key, value, rest') => decodeLoop base rest' (update params key (some value))
  else (base, params)
termination_by rest.length
decreasing_by exact readPair_length _h

def decodeSourceKey (key : Units) : Units × ParamRecord :=
  let colon := key.idxOf (unitOf ':')
  if colon = key.length then (key, fun _ => none)
  else decodeLoop other (key.take colon) (key.drop (colon + 1)) fun _ => none

end Decode

/-- The declared parameters of a source that have a value other than the empty one. -/
def declaredValues (base : Units) (params : ParamRecord) : ParamRecord := fun k =>
  if k ∈ (declaredParams base).getD [] then (params k).filter (· ≠ []) else none

variable {other : Units → Option ℕ} {base : Units} {declared : List Units} {params : ParamRecord}

theorem isDigit_of_toDigits {n : ℕ} {c : Char} (h : c ∈ Nat.toDigits 10 n) :
    48 ≤ c.toNat ∧ c.toNat < 58 ∧ (unitOf c).toNat = c.toNat := by
  have hd := Nat.isDigit_of_mem_toDigits (by decide) (by decide) h
  have hlt := (isDigit_lt hd).1
  simp only [Char.isDigit, Bool.and_eq_true, decide_eq_true_eq, ge_iff_le,
    UInt32.le_iff_toNat_le] at hd
  exact ⟨hd.1, hlt, UInt16.toNat_ofNat_of_lt' (by change _ < 65536; omega)⟩

theorem number_digits (n : ℕ) : number other ((Nat.toDigits 10 n).map unitOf) = some n := by
  have hread : Nat.ofDigitChars 10 (Nat.toDigits 10 n) 0 = n := by simp
  rw [number, if_pos, foldl_map]
  · refine congrArg some ((foldl_ext _ _ _ fun m c hc => ?_).trans hread)
    rw [(isDigit_of_toDigits hc).2.2]
    rfl
  · rw [all_map, all_eq_true]
    intro c hc
    obtain ⟨hlo, hhi, hu⟩ := isDigit_of_toDigits hc
    simp [hu, hlo, hhi]

theorem idxOf_colon {x y : Units} (h : unitOf ':' ∉ x) :
    (x ++ unitOf ':' :: y).idxOf (unitOf ':') = x.length := by
  rw [idxOf_append_of_notMem h, idxOf_cons_self, Nat.add_zero]

/-- A written part is read back, whatever follows. -/
theorem readPart_lenPrefixed (s t : Units) :
    readPart other (lenPrefixed unitOf s ++ t) = some (s, t) := by
  have hd : number other _ = _ := number_digits s.length
  have hsep : unitOf ':' ∉ (Nat.toDigits 10 s.length).map unitOf := by
    intro hm
    obtain ⟨c, hc, heq⟩ := mem_map.mp hm
    obtain ⟨-, hlt, hu⟩ := isDigit_of_toDigits hc
    have h58 : (unitOf ':').toNat = 58 := rfl
    rw [← heq, hu] at h58
    omega
  have hpos : ((Nat.toDigits 10 s.length).map unitOf).length ≠ 0 := by
    simp [Nat.toDigits_ne_nil]
  rw [lenPrefixed, append_assoc, cons_append]
  generalize (Nat.toDigits 10 s.length).map unitOf = digits at hd hsep hpos ⊢
  have hst : (digits ++ unitOf ':' :: (s ++ t)).drop (digits.length + 1) = s ++ t := by
    simp [drop_append]
  have hle : ¬(digits.length + 1 + s.length > (digits ++ unitOf ':' :: (s ++ t)).length) := by
    simp only [length_append, length_cons]
    omega
  simp only [readPart, idxOf_colon hsep, take_left, hd, hst, ← drop_drop, bind, Option.bind_some]
  rw [if_neg (by simp [hpos]), if_neg hle, drop_left]

theorem decodeLoop_parts {f : Units → Units} {keys : List Units} :
    decodeLoop other base (keys.map fun k => pairCode k (f k)).flatten params =
      (base, fun k => if k ∈ keys then some (f k) else params k) := by
  induction keys generalizing params with
  | nil => simp [decodeLoop]
  | cons k keys ih =>
    have hread : ∀ t, readPair other (pairCode k (f k) ++ t) = some (k, f k, t) := fun t => by
      simp [readPair, pairCode, append_assoc, readPart_lenPrefixed]
    rw [map_cons, flatten_cons, decodeLoop, if_pos (by simp [pairCode, lenPrefixed])]
    split
    next h =>
      rw [hread] at h
      cases h
    next h =>
    rw [hread] at h
    cases h
    rw [ih]
    refine congrArg (base, ·) (funext fun k' => ?_)
    by_cases he : k' = k
    · subst he
      simp
    · simp [he]

theorem mem_carriedKeys {k : Units} :
    k ∈ carriedKeys declared params ↔ k ∈ declared ∧ (params k).getD [] ≠ [] := by
  simp [carriedKeys]

theorem declaredValues_eq (hd : declaredParams base = some declared) : declaredValues base params =
    fun k => if k ∈ carriedKeys declared params then some ((params k).getD []) else none := by
  funext k
  simp only [declaredValues, hd, Option.getD_some, mem_carriedKeys]
  cases params k with
  | none => simp
  | some v => by_cases hv : v = [] <;> simp [Option.filter, hv]

theorem getD_declaredValues {k : Units} (hd : declaredParams base = some declared)
    (hk : k ∈ declared) : (declaredValues base params k).getD [] = (params k).getD [] := by
  by_cases hv : (params k).getD [] = []
  · simp [declaredValues_eq hd, mem_carriedKeys, hv]
  · simp [declaredValues_eq hd, mem_carriedKeys, hk, hv]

/-- The key depends on the values that count only. -/
theorem sourceKeyFor_congr {params' : ParamRecord}
    (h : declaredValues base params = declaredValues base params') :
    sourceKeyFor base params = sourceKeyFor base params' := by
  unfold sourceKeyFor
  cases hd : declaredParams base with
  | none => rfl
  | some declared =>
    have hv : ∀ k ∈ declared, (params k).getD [] = (params' k).getD [] := by
      intro k hk
      rw [← getD_declaredValues hd hk, h, getD_declaredValues hd hk]
    have hc : carriedKeys declared params = carriedKeys declared params' :=
      filter_congr fun k hk => by rw [hv k ((mem_insertionSort _).mp hk)]
    simp only [hc]
    rw [map_congr_left fun k hk => by rw [hv k (mem_carriedKeys.mp hk).1]]

theorem decodeSourceKey_sourceKeyFor (hb : unitOf ':' ∉ base) :
    decodeSourceKey other (sourceKeyFor base params) = (base, declaredValues base params) := by
  have hbare : decodeSourceKey other base = (base, fun _ => none) := by
    rw [decodeSourceKey, if_pos (idxOf_eq_length hb)]
  cases hd : declaredParams base with
  | none =>
    have hnone : declaredValues base params = fun _ => none := by
      funext k
      simp [declaredValues, hd]
    rw [sourceKeyFor, hd, hnone]
    exact hbare
  | some declared =>
    rw [sourceKeyFor, hd, declaredValues_eq hd]
    by_cases hc : carriedKeys declared params = []
    · simpa [hc] using hbare
    · simp only [length_map, length_eq_zero_iff, hc, if_false, decodeSourceKey, idxOf_colon hb]
      rw [if_neg (by simp), take_left, ← drop_drop, drop_left, drop_succ_cons, drop_zero,
        decodeLoop_parts]

/-- A key decodes to what it was built from, so keys are equal exactly when that is. -/
theorem sourceKey_round_trip (other : Units → Option ℕ) (base : Units) (params : ParamRecord)
    (hb : IsSource base) :
    decodeSourceKey other (sourceKeyFor base params) = (base, declaredValues base params) ∧
    ∀ base' params', IsSource base' →
      (sourceKeyFor base params = sourceKeyFor base' params' ↔
        base = base' ∧ declaredValues base params = declaredValues base' params') := by
  have hread : decodeSourceKey other (sourceKeyFor base params) = _ :=
    decodeSourceKey_sourceKeyFor hb.1
  refine ⟨hread, fun base' params' hb' => ⟨fun h => ?_, ?_⟩⟩
  · rw [h, decodeSourceKey_sourceKeyFor hb'.1, Prod.mk.injEq] at hread
    exact ⟨hread.1.symm, hread.2.symm⟩
  · rintro ⟨rfl, h⟩
    exact sourceKeyFor_congr h

/-- A value that looks like a length. -/
theorem sourceKey_round_trip_flows :
    decodeSourceKey (fun _ => none)
        (sourceKeyFor (utf16 "hubble-flows") fun _ => some (utf16 "3:a:b")) =
      (utf16 "hubble-flows", declaredValues (utf16 "hubble-flows") fun _ => some (utf16 "3:a:b")) :=
  (sourceKey_round_trip _ _ _ ⟨by decide, by decide⟩).1

end KubeCenter.Dashboard
