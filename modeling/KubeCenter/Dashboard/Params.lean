import KubeCenter.Dashboard.LayoutStore
import KubeCenter.Lib.LengthPrefixed
import KubeCenter.Lib.Utf16

/-! # Widget parameters in the placement dialog

`params.ts`: what a value has to satisfy and what makes two placements the same. The spread
operator and a `u` pattern read the code points of a string, `length`, the default sort and other
patterns its UTF-16 units. -/
namespace KubeCenter.Dashboard
open Lib List

def paramKeyNamespace : String := "namespace"
def paramKeyService : String := "service"

def knownParamKeys : List String := [paramKeyNamespace, paramKeyService]

def maxParamValueLen : ℕ := 253

/-- `\p{Cc}`. -/
def isCc (code : ℕ) : Bool := code < 0x20 || (0x7F ≤ code && code < 0xA0)

/-- `[a-z]`. -/
def isLowerLetter (symbol : ℕ) : Bool := 97 ≤ symbol && symbol ≤ 122

/-- `[a-z0-9]`. -/
def isAlphanumeric (symbol : ℕ) : Bool := isLowerLetter symbol || (48 ≤ symbol && symbol ≤ 57)

/-- `[-a-z0-9]`. -/
def isLabelSymbol (symbol : ℕ) : Bool := symbol = 45 || isAlphanumeric symbol

/-- `^[a-z]([-a-z0-9]{0,61}[a-z0-9])?$` over the symbols a pattern reads. -/
def dns1035Label : List ℕ → Bool
  | [] => false
  | first :: rest => isLowerLetter first && match rest.getLast? with
    | none => true
    | some last => rest.dropLast.length ≤ 61 && rest.dropLast.all isLabelSymbol &&
      isAlphanumeric last

def paramValueShape (key : String) : Option (List ℕ → Bool) :=
  if key = paramKeyService then some dns1035Label else none

def runeCount (value : String) : ℕ := (codePoints (utf16 value)).length

def paramValueError (key value : String) (allowed : List String) : Option String :=
  if value = "" then some "Choose a value."
  else if runeCount value > maxParamValueLen then
    some s!"Use {maxParamValueLen} characters or fewer."
  else if (codePoints (utf16 value)).any isCc then some "Control characters are not allowed."
  else if allowed.length > 0 then
    if allowed.contains value then none else some "Choose one of the offered values."
  else
    match paramValueShape key with
    | some shape =>
      if shape ((utf16 value).map UInt16.toNat) then none
      else some "Choose one of the offered values."
    | none => none

def unitOf (c : Char) : UInt16 := UInt16.ofNat c.toNat

def unitRank (s : String) : List ℕ := (utf16 s).map UInt16.toNat

def canonicalParams (params : Option (List (String × String))) : List UInt16 :=
  match params with
  | none => []
  | some params => mapCode unitOf utf16 utf16 "" unitRank params

def duplicatePlacementOf (items : List LayoutItem) (widgetId : String)
    (values : List (String × String)) (exceptInstanceId : Option String) : Option LayoutItem :=
  items.find? fun i => i.id = widgetId && some i.instanceId ≠ exceptInstanceId &&
    canonicalParams i.params = canonicalParams (some values)

/-! ## What a value has to satisfy -/

/-- Bounded, without control characters, and one of the offered values or, where none are, of the
key's shape. -/
structure GoodValue (key value : String) (allowed : List String) : Prop where
  nonempty : value ≠ ""
  short : value.toList.length ≤ maxParamValueLen
  printable : ∀ c ∈ value.toList, isCc c.toNat = false
  offered : allowed ≠ [] → value ∈ allowed
  shaped : allowed = [] → key = paramKeyService → dns1035Label (value.toList.map Char.toNat) = true

variable {allowed : List String} {key value : String}

theorem GoodValue.congr {allowed'} (h : GoodValue key value allowed)
    (hsm : ∀ v, v ∈ allowed ↔ v ∈ allowed') : GoodValue key value allowed' := by
  have hem : allowed = [] ↔ allowed' = [] := by
    simp only [eq_nil_iff_forall_not_mem, hsm]
  refine ⟨h.nonempty, h.short, h.printable, fun hne => ?_, fun hnil => h.shaped (hem.mpr hnil)⟩
  exact (hsm value).mp (h.offered (mt hem.mp hne))

theorem dns1035Label_lt {w : List ℕ} (h : dns1035Label w = true) : ∀ n ∈ w, n < 128 := by
  have hlb : ∀ n, isLabelSymbol n = true → n < 128 := by
    intro n hn
    simp only [isLabelSymbol, isAlphanumeric, isLowerLetter, Bool.or_eq_true, Bool.and_eq_true,
      decide_eq_true_eq] at hn
    omega
  cases w with
  | nil => cases h
  | cons first rest =>
    simp only [dns1035Label, Bool.and_eq_true] at h
    obtain ⟨hfi, hrs⟩ := h
    intro n hn
    rcases mem_cons.mp hn with rfl | hn
    · exact hlb n (by simp [isLabelSymbol, isAlphanumeric, hfi])
    · cases hla : rest.getLast? with
      | none =>
        rw [getLast?_eq_none_iff.mp hla] at hn
        cases hn
      | some last =>
        simp only [hla, Bool.and_eq_true, all_eq_true, decide_eq_true_eq] at hrs
        obtain ⟨⟨-, hall⟩, hend⟩ := hrs
        rw [← dropLast_append_getLast? last hla] at hn
        rcases mem_append.mp hn with hn | hn
        · exact hlb n (hall n hn)
        · rw [mem_singleton.mp hn]
          exact hlb last (by simp [isLabelSymbol, hend])

theorem dns1035Label_units (s : String) :
    dns1035Label ((utf16 s).map UInt16.toNat) = dns1035Label (s.toList.map Char.toNat) := by
  rw [Bool.eq_iff_iff]
  constructor
  · intro h
    rwa [map_utf16 fun u hu => Nat.lt_trans (dns1035Label_lt h _ (mem_map_of_mem hu))
      (by decide)] at h
  · intro h
    rwa [map_utf16_of_chars fun c hc => Nat.lt_trans (dns1035Label_lt h _ (mem_map_of_mem hc))
      (by decide)]

theorem ite_some_eq_none_iff {c : Prop} [Decidable c] {m : String} {k} :
    (if c then some m else k) = none ↔ ¬ c ∧ k = none := by
  by_cases hc : c <;> simp [hc]

theorem offered_or_shaped_iff : ((if allowed.length > 0 then
      if allowed.contains value then none else some "Choose one of the offered values."
    else
      match paramValueShape key with
      | some shape =>
        if shape ((utf16 value).map UInt16.toNat) then none
        else some "Choose one of the offered values."
      | none => none) = none) ↔
      (allowed ≠ [] → value ∈ allowed) ∧ (allowed = [] → key = paramKeyService →
        dns1035Label (value.toList.map Char.toNat) = true) := by
  cases allowed with
  | nil =>
    by_cases hkey : key = paramKeyService
    · simp [paramValueShape, hkey, dns1035Label_units]
    · simp [paramValueShape, hkey]
  | cons a allowed => simp [or_iff_not_imp_left]

theorem paramValueError_eq_none_iff :
    paramValueError key value allowed = none ↔ GoodValue key value allowed := by
  unfold paramValueError
  rw [ite_some_eq_none_iff, ite_some_eq_none_iff, ite_some_eq_none_iff, offered_or_shaped_iff,
    runeCount, codePoints_utf16, length_map]
  constructor
  · rintro ⟨hne, hsh, hcc, hoff, hsha⟩
    refine ⟨hne, Nat.not_lt.mp hsh, fun c hc => ?_, hoff, hsha⟩
    rw [any_eq_true] at hcc
    by_contra hctl
    exact hcc ⟨c.toNat, mem_map_of_mem hc, Bool.not_eq_false _ ▸ hctl⟩
  · rintro ⟨hne, hsh, hpr, hoff, hsha⟩
    refine ⟨hne, Nat.not_lt.mpr hsh, ?_, hoff, hsha⟩
    rw [any_eq_true]
    rintro ⟨n, hn, hctl⟩
    obtain ⟨c, hc, rfl⟩ := mem_map.mp hn
    rw [hpr c hc] at hctl
    cases hctl

theorem missingParamKeys_eq_nil_iff {keys values} :
    missingParamKeys (some keys) values = [] ↔ ∀ k ∈ keys, (values.lookup k).getD "" ≠ "" := by
  simp [missingParamKeys, filter_eq_nil_iff]

/-! ## What makes two placements the same -/

theorem unitOf_inj (c d : Char) (hc : c.toNat < 128) (hd : d.toNat < 128)
    (h : unitOf c = unitOf d) : c = d := by
  have hnat := congrArg UInt16.toNat h
  simp only [unitOf, UInt16.toNat_ofNat'] at hnat
  exact Char.toNat_inj.mp (by omega)

theorem unitRank_injective : Function.Injective unitRank := fun _ _ h =>
  utf16_injective (map_injective_iff.mpr (fun _ _ => UInt16.toNat_inj.mp) h)

theorem canonicalParams_getD (params : Option (List (String × String))) :
    canonicalParams params = canonicalParams (some (params.getD [])) := by
  cases params <;> rfl

theorem canonicalParams_eq_iff {params params'} : canonicalParams params = canonicalParams params' ↔
      ∀ k, (params.getD []).lookup k = (params'.getD []).lookup k := by
  rw [canonicalParams_getD params, canonicalParams_getD params']
  exact mapCode_eq_iff unitOf_inj utf16_injective utf16_injective unitRank_injective

theorem duplicatePlacementOf_isSome_iff {items} {widgetId : String} {values exceptInstanceId} :
    (duplicatePlacementOf items widgetId values exceptInstanceId).isSome = true ↔
      ∃ i ∈ items, i.id = widgetId ∧ some i.instanceId ≠ exceptInstanceId ∧
        ∀ k, (i.params.getD []).lookup k = values.lookup k := by
  simp [duplicatePlacementOf, canonicalParams_eq_iff, and_assoc]

end KubeCenter.Dashboard
