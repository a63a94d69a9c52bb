import KubeCenter.Dashboard.Params
import KubeCenter.Lib.Utf8
import KubeCenter.Preferences.Dashboard
import Mathlib.Data.List.Perm.Subperm

/-! # The server's check of widget parameters

The parameter half of `ValidateDashboardLayout`. A string is its UTF-8 bytes; counting runes,
looking for control characters and matching a pattern read its runes. A map is listed in the order
of its iteration, which may be any. -/
namespace KubeCenter.Preferences
open Lib Dashboard List Option

def maxDashboardParams : ℕ := 8
def maxParamKeyLen : ℕ := 32
def maxParamValueLen : ℕ := 253

/-! ## The catalog -/

/-- The sizes, and each parameter's closed set of values, empty where any value is legal. -/
structure AllowedWidget where
  id : String
  sizes : WidgetSpec
  params : List (String × List String)

def allowedWidgets : List AllowedWidget :=
  [⟨"cluster-health", ⟨3, 4⟩, []⟩, ⟨"cluster-topology", ⟨6, 4⟩, []⟩, ⟨"cpu-tile", ⟨2, 2⟩, []⟩,
    ⟨"memory-tile", ⟨2, 2⟩, []⟩,
    ⟨"pods-tile", ⟨2, 2⟩, []⟩,
    ⟨"network-tile", ⟨2, 2⟩, []⟩,
    ⟨"resource-utilization", ⟨4, 4⟩, []⟩,
    ⟨"pod-status", ⟨3, 4⟩, []⟩,
    ⟨"nodes", ⟨3, 4⟩, []⟩,
    ⟨"recent-events", ⟨3, 3⟩, []⟩,
    ⟨"active-alerts", ⟨2, 3⟩, []⟩,
    ⟨"workload-health", ⟨3, 3⟩, []⟩,
    ⟨"pending-pods", ⟨3, 3⟩, []⟩,
    ⟨"pod-restarts", ⟨3, 3⟩, []⟩,
    ⟨"hpa-status", ⟨3, 3⟩, []⟩,
    ⟨"pdb-risk", ⟨3, 3⟩, []⟩,
    ⟨"quota-pressure", ⟨3, 3⟩, []⟩,
    ⟨"node-conditions", ⟨4, 3⟩, []⟩,
    ⟨"storage-capacity", ⟨4, 4⟩, []⟩,
    ⟨"top-consumers", ⟨4, 4⟩, []⟩,
    ⟨"diagnostics-summary", ⟨3, 3⟩, [(paramKeyNamespace, [])]⟩,
    ⟨"policy-compliance", ⟨3, 4⟩, []⟩,
    ⟨"policy-violations", ⟨4, 3⟩, []⟩,
    ⟨"vulnerability-severity", ⟨4, 3⟩, [(paramKeyNamespace, [])]⟩,
    ⟨"certs-expiring", ⟨4, 3⟩, []⟩,
    ⟨"eso-health", ⟨4, 3⟩, []⟩,
    ⟨"velero-backups", ⟨4, 3⟩, []⟩,
    ⟨"snapshot-health", ⟨4, 3⟩, []⟩,
    ⟨"gitops-app-health", ⟨4, 3⟩, []⟩,
    ⟨"gitops-recent-syncs", ⟨4, 3⟩, []⟩,
    ⟨"mtls-coverage", ⟨4, 3⟩, []⟩,
    ⟨"gateway-routes", ⟨4, 3⟩, []⟩,
    ⟨"hubble-flows", ⟨4, 3⟩, [(paramKeyNamespace, [])]⟩,
    ⟨"cluster-status", ⟨4, 3⟩, []⟩,
    ⟨"notifications-feed", ⟨4, 3⟩, []⟩,
    ⟨"audit-activity", ⟨5, 3⟩, []⟩,
    ⟨"saved-views", ⟨3, 3⟩, []⟩,
    ⟨"pinned-resources", ⟨3, 3⟩, []⟩,
    ⟨"mesh-golden-signals", ⟨3, 3⟩, [(paramKeyNamespace, []), (paramKeyService, [])]⟩]

/-! ## The checks -/

def hasControlChars (s : String) : Bool := (runes (utf8 s)).any fun r => isCc r.code

def runeCountInString (s : String) : ℕ := (runes (utf8 s)).length

/-- `paramValueShapes`: the dialog's pattern, over runes. -/
@[local simp] def paramValueShapes (key : String) : Option (List ℕ → Bool) :=
  if key = paramKeyService then some dns1035Label else none

section

variable (quote : String → String)

/-- The checks of one parameter, in order. `quote` is `%q`. -/
def checkParam (spec : List (String × List String)) (i : ℕ) (id : String) (k v : String) :
    Except String Unit :=
  if k = "" ∨ runeCountInString k > maxParamKeyLen ∨ hasControlChars k then
    .error s!"items[{i}] has an invalid param name"
  else if runeCountInString v > maxParamValueLen ∨ hasControlChars v then
    .error s!"items[{i}] param {quote k} has an invalid value"
  else if v = "" then .error s!"items[{i}] param {quote k} has an invalid value"
  else
    match spec.lookup k with
    | none => .error s!"items[{i}]: {id} does not take a parameter named {quote k}"
    | some allowed =>
      if allowed.length > 0 ∧ ¬ allowed.contains v then
        .error s!"items[{i}]: {quote v} is not a value {id} accepts for {quote k}"
      else
        match paramValueShapes k with
        | some shape =>
          if allowed.length = 0 ∧ ¬ shape ((runes (utf8 v)).map Rune.code) then
            .error s!"items[{i}]: {quote v} is not a valid value for {quote k}"
          else .ok ()
        | none => .ok ()

def checkEachParam (spec : List (String × List String)) (i : ℕ) (id : String) :
    List (String × String) → Except String Unit
  | [] => .ok ()
  | (k, v) :: params => do
    checkParam quote spec i id k v
    checkEachParam spec i id params

def checkRequired (i : ℕ) (id : String) (params : List (String × String)) :
    List (String × List String) → Except String Unit
  | [] => .ok ()
  | (k, _) :: spec =>
    if params.lookup k = none then .error s!"items[{i}]: {id} requires a value for {quote k}"
    else checkRequired i id params spec

def checkParams (spec : List (String × List String)) (i : ℕ) (id : String)
    (params : List (String × String)) : Except String Unit :=
  if params.length > maxDashboardParams then
    .error s!"items[{i}] carries {params.length} params; the maximum is {maxDashboardParams}"
  else if spec.length = 0 ∧ params.length > 0 then
    .error s!"items[{i}]: {id} takes no parameters"
  else do
    checkEachParam quote spec i id params
    checkRequired quote i id params spec

end

/-- The place of a string in `sort.Strings`. -/
def byteRank (s : String) : List ℕ := (utf8 s).map UInt8.toNat

def canonicalParams (p : List (String × String)) : Bytes :=
  if p.length = 0 then [] else mapCode byte utf8 utf8 "" byteRank p

/-- What a layout may hold only once. -/
def identity (id : String) (params : List (String × String)) : Bytes :=
  utf8 id ++ 0 :: canonicalParams params

def checkIdentity (seen : List Bytes) (i : ℕ) (id : String) (params : List (String × String)) :
    Except String (List Bytes) :=
  if seen.contains (identity id params) then
    .error s!"items[{i}] duplicates an identical widget already in the layout"
  else .ok (identity id params :: seen)

/-! ## What is accepted -/

theorem runeCountInString_eq (s : String) : runeCountInString s = s.toList.length := by
  rw [runeCountInString, runes_utf8, length_map]

theorem hasControlChars_eq_true_iff {s : String} :
    hasControlChars s = true ↔ ∃ c ∈ s.toList, isCc c.toNat = true := by
  simp [hasControlChars, runes_utf8, Rune.code]

section

variable {quote : String → String} {spec : List (String × List String)} {i : ℕ} {id : String}

/-- The last part of the check, by the declared values or by the key's shape. -/
theorem declared_or_shaped_iff {k v : String} {allowed : List String} {e e' : String} :
    ((if allowed.length > 0 ∧ ¬ allowed.contains v then .error e else
        match paramValueShapes k with
        | some shape =>
          if allowed.length = 0 ∧ ¬ shape ((runes (utf8 v)).map Rune.code) then .error e'
          else .ok ()
        | none => .ok ()) = (Except.ok () : Except String Unit)) ↔
      (allowed ≠ [] → v ∈ allowed) ∧ (allowed = [] → k = paramKeyService →
        dns1035Label (v.toList.map Char.toNat) = true) := by
  rw [ite_error_ok_iff, codes_utf8]
  cases allowed with
  | nil =>
    by_cases hkey : k = paramKeyService
    · simp [hkey]
    · simp [hkey]
  | cons a allowed =>
    by_cases hkey : k = paramKeyService
    · simp [hkey, or_iff_not_imp_left]
    · simp [hkey, or_iff_not_imp_left]

/-- A known key passes its own checks, so its value decides. -/
theorem checkParam_ok_iff {k v : String} (hk : k ∈ knownParamKeys) :
    checkParam quote spec i id k v = .ok () ↔
      ∃ allowed, spec.lookup k = some allowed ∧ GoodValue k v allowed := by
  have hnm : ∀ k ∈ knownParamKeys, ¬ (k = "" ∨ runeCountInString k > maxParamKeyLen ∨
      hasControlChars k = true) := by decide
  unfold checkParam
  rw [if_neg (hnm k hk), ite_error_ok_iff, ite_error_ok_iff, runeCountInString_eq,
    hasControlChars_eq_true_iff]
  cases hsp : spec.lookup k with
  | none => simp
  | some allowed =>
    rw [declared_or_shaped_iff]
    constructor
    · rintro ⟨hbn, hne, hoff, hsh⟩
      rw [not_or, Nat.not_lt] at hbn
      refine ⟨allowed, rfl, hne, hbn.1, fun c hc => ?_, hoff, hsh⟩
      by_contra hctl
      exact hbn.2 ⟨c, hc, Bool.not_eq_false _ ▸ hctl⟩
    · rintro ⟨allowed', hal, hne, hsho, hpri, hoff, hsh⟩
      cases hal
      refine ⟨?_, hne, hoff, hsh⟩
      rintro (hlo | ⟨c, hc, hctl⟩)
      · exact absurd hsho (Nat.not_le.mpr hlo)
      · rw [hpri c hc] at hctl
        cases hctl

theorem checkEachParam_ok_iff {params} : checkEachParam quote spec i id params = .ok () ↔
      ∀ e ∈ params, checkParam quote spec i id e.1 e.2 = .ok () := by
  induction params with
  | nil => simp [checkEachParam]
  | cons e params ih => rw [checkEachParam, bind_ok_iff, ih, forall_mem_cons]

theorem checkRequired_ok_iff {params} :
    checkRequired quote i id params spec = .ok () ↔ ∀ e ∈ spec, params.lookup e.1 ≠ none := by
  induction spec with
  | nil => simp [checkRequired]
  | cons e spec ih => rw [checkRequired, ite_error_ok_iff, ih, forall_mem_cons]

theorem checkParams_ok_iff {params} : checkParams quote spec i id params = .ok () ↔
      params.length ≤ maxDashboardParams ∧ (spec = [] → params = []) ∧
        (∀ e ∈ params, checkParam quote spec i id e.1 e.2 = .ok ()) ∧
        ∀ e ∈ spec, params.lookup e.1 ≠ none := by
  rw [checkParams, ite_error_ok_iff, ite_error_ok_iff, bind_ok_iff, checkEachParam_ok_iff,
    checkRequired_ok_iff, Nat.not_lt]
  simp

end

/-! ## The identity of a placement -/

theorem byte_inj (c d : Char) (hc : c.toNat < 128) (hd : d.toNat < 128) (h : byte c = byte d) :
    c = d := by
  have hnat := congrArg UInt8.toNat h
  simp only [byte, Nat.toUInt8_eq, UInt8.toNat_ofNat'] at hnat
  exact Char.toNat_inj.mp (by omega)

theorem byteRank_injective : Function.Injective byteRank := fun _ _ h =>
  utf8_injective (map_injective_iff.mpr (fun _ _ => UInt8.toNat_inj.mp) h)

theorem canonicalParams_eq_iff {p p'} :
    canonicalParams p = canonicalParams p' ↔ ∀ k, p.lookup k = p'.lookup k := by
  have hcd : ∀ p, canonicalParams p = mapCode byte utf8 utf8 "" byteRank p := by
    intro p
    cases p <;> rfl
  rw [hcd, hcd]
  exact mapCode_eq_iff byte_inj utf8_injective utf8_injective byteRank_injective

theorem identity_eq_iff {id id' : String} {p p'} (hid : 0 ∉ utf8 id) (hid' : 0 ∉ utf8 id') :
    identity id p = identity id' p' ↔ id = id' ∧ ∀ k, p.lookup k = p'.lookup k := by
  rw [← canonicalParams_eq_iff]
  constructor
  · intro h
    obtain ⟨hutf8, hpr⟩ := append_sep_inj hid hid' h
    exact ⟨utf8_injective hutf8, hpr⟩
  · rintro ⟨rfl, hpr⟩
    rw [identity, identity, hpr]

theorem zero_notMem_utf8_of_allowed {id : String} (h : id ∈ allowedWidgets.map AllowedWidget.id) :
    0 ∉ utf8 id := by
  have hall : ∀ id ∈ allowedWidgets.map AllowedWidget.id, 0 ∉ utf8 id := by decide
  exact hall id h

/-! ## The dialog and the server -/

/-- The same parameters of a widget, with the same values, and only known ones. -/
structure SameParams (declared spec : List (String × List String)) : Prop where
  declaredOnce : (declared.map Prod.fst).Nodup
  specOnce : (spec.map Prod.fst).Nodup
  keys : ∀ k, k ∈ declared.map Prod.fst ↔ k ∈ spec.map Prod.fst
  values : ∀ k allowed allowed', (k, allowed) ∈ declared → (k, allowed') ∈ spec →
    ∀ v, v ∈ allowed ↔ v ∈ allowed'
  known : ∀ k ∈ spec.map Prod.fst, k ∈ knownParamKeys

/-- A map from parameters of a widget to values. -/
structure ParamMap (declared : List (String × List String)) (params : List (String × String)) :
    Prop where
  once : (params.map Prod.fst).Nodup
  declared : ∀ k ∈ params.map Prod.fst, k ∈ declared.map Prod.fst

/-- No declared parameter lacks a value, and no value is refused. -/
def DialogAccepts (declared : Option (List (String × List String)))
    (params : List (String × String)) : Prop :=
  missingParamKeys (declared.map (·.map Prod.fst)) params = [] ∧
    ∀ e ∈ declared.getD [], paramValueError e.1 ((params.lookup e.1).getD "") e.2 = none

theorem dialogAccepts_iff {declared params} : DialogAccepts declared params ↔
      ∀ e ∈ declared.getD [], GoodValue e.1 ((params.lookup e.1).getD "") e.2 := by
  simp only [DialogAccepts, paramValueError_eq_none_iff]
  refine ⟨fun h => h.2, fun h => ⟨?_, h⟩⟩
  cases declared with
  | none => rfl
  | some declared =>
    rw [map_some, missingParamKeys_eq_nil_iff]
    intro k hk
    obtain ⟨e, he, rfl⟩ := mem_map.mp hk
    exact (h e he).nonempty

section

variable {quote : String → String} {spec : List (String × List String)} {i : ℕ} {id : String}
  {declared : List (String × List String)} {params : List (String × String)}

theorem ParamMap.length_le (h : ParamMap declared params) (hsm : SameParams declared spec) :
    params.length ≤ maxDashboardParams := by
  have hkn : params.map Prod.fst ⊆ knownParamKeys := fun k hk =>
    hsm.known k ((hsm.keys k).mp (h.declared k hk))
  have hln := (subperm_of_subset h.once hkn).length_le
  rw [length_map] at hln
  exact Nat.le_trans hln (by decide)

theorem checkParams_ok_iff_good (h : ParamMap declared params) (hsm : SameParams declared spec) :
    checkParams quote spec i id params = .ok () ↔
      ∀ e ∈ declared, GoodValue e.1 ((params.lookup e.1).getD "") e.2 := by
  -- the entry of the other catalog for a key of one
  have hsp : ∀ k ∈ declared.map Prod.fst, ∃ allowed', (k, allowed') ∈ spec := by
    intro k hk
    obtain ⟨e, he, rfl⟩ := mem_map.mp ((hsm.keys k).mp hk)
    exact ⟨e.2, he⟩
  rw [checkParams_ok_iff]
  constructor
  · rintro ⟨-, -, hchk, hreq⟩ ⟨k, allowed⟩ he
    obtain ⟨allowed', he'⟩ := hsp k (mem_map.mpr ⟨(k, allowed), he, rfl⟩)
    obtain ⟨v, hv⟩ := ne_none_iff_exists'.mp (hreq (k, allowed') he')
    have hmem : (k, v) ∈ params := (lookup_eq_some_iff_mem h.once).mp hv
    have hk : k ∈ knownParamKeys := hsm.known k (mem_map.mpr ⟨(k, allowed'), he', rfl⟩)
    obtain ⟨found, hfo, hgd⟩ := (checkParam_ok_iff hk).mp (hchk (k, v) hmem)
    rw [(lookup_eq_some_iff_mem hsm.specOnce).mpr he'] at hfo
    cases hfo
    rw [hv, getD_some]
    exact hgd.congr fun w => (hsm.values k allowed allowed' he he' w).symm
  · intro hgd
    refine ⟨h.length_le hsm, ?_, ?_, ?_⟩
    · rintro rfl
      refine eq_nil_iff_forall_not_mem.mpr fun e he => ?_
      obtain ⟨allowed', he'⟩ := hsp e.1 (h.declared e.1 (mem_map_of_mem he))
      cases he'
    · rintro ⟨k, v⟩ he
      obtain ⟨⟨k, allowed⟩, hd, rfl⟩ := mem_map.mp (h.declared k (mem_map.mpr ⟨(k, v), he, rfl⟩))
      obtain ⟨allowed', he'⟩ := hsp k (mem_map.mpr ⟨(k, allowed), hd, rfl⟩)
      have hk : k ∈ knownParamKeys := hsm.known k (mem_map.mpr ⟨(k, allowed'), he', rfl⟩)
      have hvl := hgd (k, allowed) hd
      rw [(lookup_eq_some_iff_mem h.once).mpr he, getD_some] at hvl
      exact (checkParam_ok_iff hk).mpr ⟨allowed', (lookup_eq_some_iff_mem hsm.specOnce).mpr he',
        hvl.congr (hsm.values k allowed allowed' hd he')⟩
    · rintro ⟨k, allowed'⟩ he' hno
      obtain ⟨⟨k, allowed⟩, hd, rfl⟩ :=
        mem_map.mp ((hsm.keys k).mpr (mem_map.mpr ⟨(k, allowed'), he', rfl⟩))
      have hvl := (hgd (k, allowed) hd).nonempty
      rw [hno] at hvl
      exact hvl rfl

end

/-- The dialog and the server agree: on the values a widget is placed with, in any order, and on
which placements are the same. -/
theorem dialog_agrees_with_server (quote : String → String) :
    (∀ declared spec, SameParams (declared.getD []) spec → ∀ params params',
      ParamMap (declared.getD []) params → params.Perm params' → ∀ i id,
        (DialogAccepts declared params ↔ checkParams quote spec i id params' = .ok ())) ∧
      ∀ a b : LayoutItem, a.id ∈ allowedWidgets.map AllowedWidget.id →
        b.id ∈ allowedWidgets.map AllowedWidget.id → ∀ exceptInstanceId,
        some a.instanceId ≠ exceptInstanceId → ∀ i,
          ((duplicatePlacementOf [a] b.id (b.params.getD []) exceptInstanceId).isSome = true ↔
            checkIdentity [identity a.id (a.params.getD [])] i b.id (b.params.getD []) =
              .error s!"items[{i}] duplicates an identical widget already in the layout") ∧
          ((duplicatePlacementOf [a] b.id (b.params.getD []) exceptInstanceId).isSome = true ↔
            a.id = b.id ∧ ∀ k, (a.params.getD []).lookup k = (b.params.getD []).lookup k) := by
  refine ⟨?_, ?_⟩
  · intro declared spec hsm params params' hpr hpm i id
    have hpr' : ParamMap (declared.getD []) params' :=
      ⟨(hpm.map Prod.fst).nodup_iff.mp hpr.once,
        fun k hk => hpr.declared k ((hpm.map Prod.fst).mem_iff.mpr hk)⟩
    have hlk : ∀ k, params.lookup k = params'.lookup k := by
      intro k
      ext v
      rw [lookup_eq_some_iff_mem hpr.once, lookup_eq_some_iff_mem hpr'.once, hpm.mem_iff]
    rw [dialogAccepts_iff, checkParams_ok_iff_good hpr' hsm]
    simp only [hlk]
  · intro a b ha hb exceptInstanceId hot i
    have hdup : (duplicatePlacementOf [a] b.id (b.params.getD []) exceptInstanceId).isSome = true ↔
        a.id = b.id ∧ ∀ k, (a.params.getD []).lookup k = (b.params.getD []).lookup k := by
      rw [duplicatePlacementOf_isSome_iff]
      simp [hot]
    refine ⟨?_, hdup⟩
    have hsm : identity b.id (b.params.getD []) = identity a.id (a.params.getD []) ↔
        b.id = a.id ∧ ∀ k, (b.params.getD []).lookup k = (a.params.getD []).lookup k :=
      identity_eq_iff (zero_notMem_utf8_of_allowed hb) (zero_notMem_utf8_of_allowed ha)
    rw [hdup, checkIdentity]
    by_cases hi : identity b.id (b.params.getD []) = identity a.id (a.params.getD [])
    · obtain ⟨hid, hva⟩ := hsm.mp hi
      refine iff_of_true ⟨hid.symm, fun k => (hva k).symm⟩ ?_
      rw [hi]
      simp
    · refine iff_of_false (fun h => hi ?_) (by simp [hi])
      exact hsm.mpr ⟨h.1.symm, fun k => (h.2 k).symm⟩

section

private def goldenSignals : List (String × List String) :=
  [(paramKeyNamespace, []), (paramKeyService, [])]

private def goldenSignalsOf (instanceId service : String) : LayoutItem :=
  ⟨instanceId, "mesh-golden-signals", 0, 0, 3, 3,
    some [(paramKeyNamespace, "shop"), (paramKeyService, service)]⟩

theorem dialog_agrees_with_server_goldenSignals : SameParams goldenSignals goldenSignals ∧
      DialogAccepts (some goldenSignals) [(paramKeyService, "web"), (paramKeyNamespace, "shop")] ∧
      duplicatePlacementOf [goldenSignalsOf "a" "web"] "mesh-golden-signals"
        [(paramKeyNamespace, "shop"), (paramKeyService, "api")] none = none := by
  have hsm : SameParams goldenSignals goldenSignals := by
    refine ⟨by decide, by decide, fun _ => Iff.rfl, ?_, by decide⟩
    intro k allowed allowed' hk hk' v
    simp only [goldenSignals, mem_cons, Prod.mk.injEq, not_mem_nil, or_false] at hk hk'
    rcases hk with ⟨-, rfl⟩ | ⟨-, rfl⟩ <;> rcases hk' with ⟨-, rfl⟩ | ⟨-, rfl⟩ <;> rfl
  have hag := dialog_agrees_with_server id
  refine ⟨hsm, ?_, ?_⟩
  · refine (hag.1 (some goldenSignals) goldenSignals hsm _
      [(paramKeyNamespace, "shop"), (paramKeyService, "web")] ⟨by decide, by decide⟩
      (List.Perm.swap _ _ _) 0 "mesh-golden-signals").mpr ?_
    decide
  · have hdup := (hag.2 (goldenSignalsOf "a" "web") (goldenSignalsOf "b" "api")
      (by decide) (by decide) none (by decide) 1).2
    rw [← not_isSome_iff_eq_none]
    intro hso
    exact absurd ((hdup.mp hso).2 paramKeyService) (by decide)

end

end KubeCenter.Preferences
