import KubeCenter.Preferences.Concurrency
import KubeCenter.Preferences.Validate
import Mathlib.Algebra.Order.BigOperators.Group.List

/-! # Accepted preferences and the constraints of their table

The validators count characters and placements; the table bounds the bytes of the whole config.
Views and pins always fit. The parameter values of a layout are bounded one by one only, and in
characters: it fits where its bytes add up to no more than the bound. -/
namespace KubeCenter.Preferences
open Lib Dashboard List Nat

/-! ## The constraints -/

def charLength (s : String) : ℕ := s.toList.length

/-- The text of a `jsonb` value, but for the order of the fields. -/
@[local simp] def jsonbText (v : Json) : List Char := v.render [' ']

/-- The `CHECK` constraints of `user_preferences`. -/
structure Constraints (r : PreferenceRecord Json) : Prop where
  kind : r.kind.text ∈ ["saved_view", "pin", "dashboard_layout"]
  ownerLen : 1 ≤ charLength r.ownerID ∧ charLength r.ownerID ≤ 512
  nameLen : 1 ≤ charLength r.name ∧ charLength r.name ≤ 128
  clusterLen : 1 ≤ charLength r.clusterID ∧ charLength r.clusterID ≤ 64
  dedupLen : 1 ≤ charLength r.dedupKey ∧ charLength r.dedupKey ≤ 512
  schemaVer : 1 ≤ r.schemaVersion
  revision : 1 ≤ r.revision
  configSize : octets (jsonbText r.config) ≤ 8192

/-- A text that is there and has at most `n` characters. -/
abbrev Sized (n : ℕ) (s : String) : Prop := 1 ≤ charLength s ∧ charLength s ≤ n

theorem one_le_charLength {s : String} (h : s ≠ "") : 1 ≤ charLength s := by
  refine one_le_iff_ne_zero.mpr fun hzr => h ?_
  exact String.toList_eq_nil_iff.mp (length_eq_zero_iff.mp hzr)

/-! ## The size of a config -/

variable {u : Unit} {n : ℕ}

theorem octets_quoted_name {s : String} (hlen : s.toList.length ≤ n)
    (hch : ∀ c ∈ s.toList, isSimple c = true) : octets (quoted s) ≤ n + 2 := by
  rw [octets_quoted_simple hch]
  exact Nat.add_le_add_right hlen 2

theorem octets_quoted_text {s : String} (hlen : s.toList.length ≤ n)
    (hch : ∀ c ∈ s.toList, isCc c.toNat = false) : octets (quoted s) ≤ 4 * n + 2 := by
  have hfr : ∀ c ∈ s.toList, octets (escape c) ≤ 4 := by
    intro c hc
    refine octets_escape_le ?_
    have hpri := hch c hc
    simp only [isCc, Bool.or_eq_false_iff, decide_eq_false_iff_not] at hpri
    omega
  have hle := octets_quoted_le hfr
  omega

/-- The digits of a coordinate. -/
def digits (n : Int) : ℕ := if n < 10 then 1 else if n < 100 then 2 else 3

theorem octets_num {n : Int} (h₀ : 0 ≤ n) (h₁ : n < 1000) :
    octets (Json.render [' '] (.num n)) = digits n := by
  obtain ⟨m, rfl⟩ := Int.eq_ofNat_of_zero_le h₀
  have hlen : ∀ {k}, 0 < k → ((Nat.toDigits 10 m).length ≤ k ↔ m < 10 ^ k) :=
    length_toDigits_le_iff (by omega)
  have hone := hlen (k := 1) (by omega)
  have htwo := hlen (k := 2) (by omega)
  have hthree := hlen (k := 3) (by omega)
  have hpos : 0 < (Nat.toDigits 10 m).length := length_toDigits_pos
  rw [Json.octets_num, digits]
  grind

theorem octets_quoted_mem {l : List String} {s : String} (h : s ∈ l)
    (hall : ∀ k ∈ l, isSimpleText k = true ∧ k.utf8ByteSize ≤ n) : octets (quoted s) ≤ n + 2 := by
  rw [octets_quoted_of_isSimpleText (hall s h).1]
  exact Nat.add_le_add_right (hall s h).2 2

/-- Names with the length of their text in quotes. -/
theorem octets_quoted_names {l : List (String × ℕ)}
    (h : ∀ e ∈ l, isSimpleText e.1 = true ∧ e.1.utf8ByteSize + 2 = e.2) :
    ∀ e ∈ l, octets (quoted e.1) = e.2 :=
  fun e he => (octets_quoted_of_isSimpleText (h e he).1).trans (h e he).2

@[simp] theorem utf8Size_space : ' '.utf8Size = 1 := by decide

theorem octets_kind {kind : String} (h : kind ∈ adapters.map Prod.fst) :
    octets (quoted kind) ≤ 33 :=
  octets_quoted_mem (n := 31) h (by decide)

theorem SavedViewConfig.Accepted.octets_le {cfg : SavedViewConfig} (h : cfg.Accepted) :
    octets (jsonbText cfg.json) ≤ 8192 := by
  have hver : octets (Json.render [' '] (.num cfg.schemaVersion)) = 1 := by
    rw [h.version]
    decide
  have hkn := octets_kind h.kind
  have hns := octets_quoted_name h.namespaceLen h.namespaceChars
  have hsr := octets_quoted_text h.searchLen h.searchChars
  have hsts := octets_quoted_mem (n := 11) h.statusFilter (by decide)
  have hsortKey := octets_quoted_mem (n := 9) h.sortKey (by decide)
  have hsortDir := octets_quoted_mem (n := 4) h.sortDir (by decide)
  have hks : ∀ k ∈ ["schemaVersion", "resourceKind", "namespace", "search", "statusFilter",
      "sortKey", "sortDir"], octets (quoted k) ≤ 15 :=
    fun k hk => octets_quoted_mem (n := 13) hk (by decide)
  simp only [forall_mem_cons] at hks
  simp [SavedViewConfig.json]
  simp only [maxNamespaceLen, maxSearchLen] at hns hsr
  omega

theorem PinConfig.Accepted.octets_le {cfg : PinConfig} (h : cfg.Accepted) :
    octets (jsonbText cfg.json) ≤ 8192 := by
  have hver : octets (Json.render [' '] (.num cfg.schemaVersion)) = 1 := by
    rw [h.version]
    decide
  have hkn := octets_kind h.kind
  have hns := octets_quoted_name h.namespaceLen h.namespaceChars
  have hnm := octets_quoted_name h.nameLen h.nameChars
  have huid := octets_quoted_name h.uidLen h.uidChars
  have hds := octets_quoted_text h.displayKindLen h.displayKindChars
  have hem : octets (quoted "") = 2 := octets_quoted_simple (by simp)
  have hks : ∀ k ∈ ["schemaVersion", "resourceKind", "group", "version", "namespace", "name",
      "uid", "displayKind"], octets (quoted k) ≤ 15 :=
    fun k hk => octets_quoted_mem (n := 13) hk (by decide)
  simp only [forall_mem_cons] at hks
  simp [PinConfig.json, h.group, h.reserved, hem]
  simp only [maxNamespaceLen, maxResourceName, maxUIDLen, maxRecordNameLen] at *
  omega

/-- The bytes of the field `params` with the comma before it. -/
def paramsOctets (it : LayoutItem) : ℕ :=
  if itemParams it = [] then 0
  else 12 + ((itemParams it).map fun e => octets (quoted e.1) + octets (quoted e.2) + 4).sum

def itemOctets (it : LayoutItem) : ℕ :=
  52 + octets (quoted it.instanceId) + octets (quoted it.id) + digits it.x + digits it.y +
    digits it.w + digits it.h + paramsOctets it

/-- The bytes of a layout: its placements with the commas between them, and what stands around. -/
def layoutOctets (cfg : DashboardLayoutConfig) : ℕ :=
  69 + (cfg.items.map itemOctets).sum + 2 * (cfg.items.length - 1)

theorem octets_paramsField (it : LayoutItem) :
    ((paramsField it).map (Json.fieldOctets [' '])).sum + 2 * (paramsField it).length =
      paramsOctets it := by
  have hkey := octets_quoted_names (l := [("params", 8)]) (by decide)
  simp only [forall_mem_singleton] at hkey
  have hsum : ∀ l : List (String × String),
      (l.map (Json.fieldOctets [' '] ∘ fun e => (e.1, .str e.2))).sum + 2 * l.length =
        (l.map fun e => octets (quoted e.1) + octets (quoted e.2) + 4).sum := by
    intro l
    induction l with
    | nil => rfl
    | cons e l ih =>
      simp at ih ⊢
      omega
  unfold paramsField paramsOctets
  split
  · rfl
  next hne =>
    have hpos := length_pos_iff.mpr hne
    have hl := hsum (itemParams it)
    simp [hkey] at hl ⊢
    omega

theorem ItemAccepted.octets_eq {it : LayoutItem} (h : ItemAccepted it) :
    octets (jsonbText (itemJson it)) = itemOctets it := by
  obtain ⟨spec, hsp, hft, -⟩ := h.widget
  obtain ⟨hminW, hminH, hlf, hrg, hab, hbl⟩ := hft
  have hw := one_le_atLeastOne spec.sizes.minW
  have hh := one_le_atLeastOne spec.sizes.minH
  simp only [dashboardColumns, maxDashboardRows] at hrg hbl
  have hx := octets_num hlf (by omega)
  have hy := octets_num hab (by omega)
  have hw := octets_num (n := it.w) (by omega) (by omega)
  have hh := octets_num (n := it.h) (by omega) (by omega)
  have hks := octets_quoted_names
    (l := [("instanceId", 12), ("id", 4), ("x", 3), ("y", 3), ("w", 3), ("h", 3)]) (by decide)
  simp only [forall_mem_cons] at hks
  have hpr := octets_paramsField it
  simp [itemJson, itemOctets]
  omega

theorem DashboardLayoutConfig.Accepted.octets_eq {cfg : DashboardLayoutConfig}
    (h : cfg.Accepted) : octets (jsonbText cfg.json) = layoutOctets cfg := by
  have hver : octets (Json.render [' '] (.num cfg.schemaVersion)) = 1 := by
    rw [h.version]
    decide
  have hcl : octets (Json.render [' '] (.num cfg.columns)) = 2 := by
    rw [h.columns]
    decide
  have hks := octets_quoted_names (l := [("schemaVersion", 15), ("scope", 7), ("columns", 9),
    ("items", 7), ("overview", 10)]) (by decide)
  simp only [forall_mem_cons] at hks
  have hsc : octets (quoted cfg.scope) = 10 := by
    rw [mem_singleton.mp h.scope]
    exact hks.2.2.2.2.1
  have hite : cfg.items.map (fun it => octets (jsonbText (itemJson it))) =
      cfg.items.map itemOctets := map_congr_left fun it hit => (h.items it hit).octets_eq
  simp only [jsonbText] at hite
  simp [DashboardLayoutConfig.json, Function.comp_def, layoutOctets, hite]
  omega

/-! ## What a handler writes -/

def PrefRequest.clusterID {β : Type} : PrefRequest β → Option String
  | .saveLayout _ clusterID _ _ _ => some clusterID
  | .createView _ clusterID _ _ => some clusterID
  | .createPin _ clusterID _ _ => some clusterID
  | _ => none

def PrefRequest.layout : PrefRequest RawConfig → Option DashboardLayoutConfig
  | .saveLayout _ _ _ _ config => config.layout
  | _ => none

/-- The cluster is named as the server names it. -/
def PrefRequest.Regular {β : Type} (req : PrefRequest β) : Prop :=
  ∀ clusterID ∈ req.clusterID, Sized 64 clusterID

/-- The bytes of a layout are within the bound; a view or a pin has none. -/
def PrefRequest.Small (req : PrefRequest RawConfig) : Prop :=
  ∀ cfg ∈ req.layout, layoutOctets cfg ≤ 8192

section

variable (small : Prop)

def Creation.Fits (cr : Creation Json) : Prop :=
  ∀ id, Constraints { cr.record with id, revision := 1 } ↔ small

def Revision.Fits (u : Revision Json) : Prop :=
  ∀ r, Constraints r → (Constraints (u.apply r) ↔ small)

/-- Whatever the call writes next satisfies the constraints where it is small. -/
def PrefStage.Fits (h : Handler) : PrefStage Json → Prop
  | .readLayout l => (createLayout h l).Fits small ∧ ∀ id, (replaceLayout l id).Fits small
  | .create _ cr => cr.Fits small
  | .update u => u.Fits small
  | _ => True

end

theorem validateOwnerID_sound {ownerID : String} (h : validateOwnerID ownerID = .ok u) :
    Sized 512 ownerID := by
  rw [validateOwnerID, ite_error_ok_iff, runeCountInString_eq, not_or] at h
  have hlen : charLength ownerID ≤ maxOwnerIDLen := not_lt.mp h.1.2
  exact ⟨one_le_charLength h.1.1, hlen⟩

theorem validateDedupKey_sound {key : String} (h : validateDedupKey key = .ok u) :
    Sized 512 key := by
  rw [validateDedupKey, ite_error_ok_iff, runeCountInString_eq, not_or] at h
  have hlen : charLength key ≤ maxDedupKeyLen := not_lt.mp h.1.2
  exact ⟨one_le_charLength h.1.1, hlen⟩

theorem validateRecordName_sound {name : String} (h : validateRecordName name = .ok u) :
    Sized 128 name := by
  rw [validateRecordName, ite_error_ok_iff, ite_error_ok_iff, runeCountInString_eq] at h
  have hlen : charLength name ≤ maxRecordNameLen := not_lt.mp h.2.1
  refine ⟨one_le_charLength fun hem => h.1 ?_, hlen⟩
  rw [hem]
  decide

theorem kind_text_mem (kind : PreferenceKind) :
    kind.text ∈ ["saved_view", "pin", "dashboard_layout"] := by
  cases kind <;> decide

section

variable {quote : String → String} {toLower : Bytes → String} {h : Handler} {hash : String → ℕ}

theorem validators_validateRecordName :
    (validators quote toLower).validateRecordName = validateRecordName := by
  rw [validators]

variable {stage : PrefStage Json} {raw : RawConfig} {normalized : Json}

theorem savedView_octets_le
    (hcf : (validators quote toLower).validateSavedView raw = .ok normalized) :
    octets (jsonbText normalized) ≤ 8192 := by
  obtain ⟨v, hv, rfl⟩ := map_eq_ok.mp hcf
  obtain ⟨hjs, hacc⟩ := validateSavedView_sound hv
  rw [hjs]
  exact hacc.octets_le

theorem pin_octets_le {dedupKey : String}
    (hcf : (validators quote toLower).validatePin raw = .ok (dedupKey, normalized)) :
    octets (jsonbText normalized) ≤ 8192 := by
  obtain ⟨v, hv, heq⟩ := map_eq_ok.mp hcf
  cases heq
  obtain ⟨hjs, hacc⟩ := validatePin_sound hv
  rw [hjs]
  exact hacc.octets_le

theorem layout_octets_eq {scope : String}
    (hcf : (validators quote toLower).validateDashboardLayout raw = .ok (scope, normalized)) :
    ∃ cfg, raw.layout = some cfg ∧ octets (jsonbText normalized) = layoutOctets cfg := by
  obtain ⟨v, hv, heq⟩ := map_eq_ok.mp hcf
  cases heq
  obtain ⟨hraw, hjs, hacc⟩ := validateDashboardLayout_ok_iff.mp hv
  rw [hjs]
  exact ⟨v.1, hraw, hacc.octets_eq⟩

theorem scope_length {scope : String} (hsc : scope ∈ allowedDashboardScopes) : Sized 128 scope := by
  have hall : ∀ k ∈ allowedDashboardScopes, Sized 128 k := by decide
  exact hall scope hsc

theorem Creation.fits {small : Prop} {cr : Creation Json}
    (how : Sized 512 cr.record.ownerID) (hnm : Sized 128 cr.record.name)
    (hcu : Sized 64 cr.record.clusterID) (hdp : Sized 512 cr.record.dedupKey)
    (hsch : 1 ≤ cr.record.schemaVersion)
    (hcf : octets (jsonbText cr.record.config) ≤ 8192 ↔ small) : cr.Fits small :=
  fun _ => ⟨fun hr => hcf.mp hr.configSize, fun hsm =>
    { kind := kind_text_mem cr.record.kind
      ownerLen := how
      nameLen := hnm
      clusterLen := hcu
      dedupLen := hdp
      schemaVer := hsch
      revision := le_refl 1
      configSize := hcf.mpr hsm }⟩

theorem Revision.fits {small : Prop} {u : Revision Json} (hnm : Sized 128 u.name)
    (hdp : Sized 512 u.dedupKey) (hsch : 1 ≤ u.schemaVersion)
    (hcf : octets (jsonbText u.config) ≤ 8192 ↔ small) : u.Fits small :=
  fun _ hr => ⟨fun hr' => hcf.mp hr'.configSize, fun hsm =>
    { kind := hr.kind
      ownerLen := hr.ownerLen
      nameLen := hnm
      clusterLen := hr.clusterLen
      dedupLen := hdp
      schemaVer := hsch
      revision := le_succ_of_le hr.revision
      configSize := hcf.mpr hsm }⟩

theorem small_of_layout_eq_none {req : PrefRequest RawConfig} (h : req.layout = none) :
    req.Small := by
  intro cfg hcfg
  rw [h] at hcfg
  cases hcfg

theorem accept_fits {req : PrefRequest RawConfig} (hreq : req.Regular)
    (hac : accept (validators quote toLower) h req = .ok stage) : stage.Fits req.Small h := by
  obtain ⟨⟨⟩, how, hac⟩ := except_bind_eq_ok.mp hac
  have how := validateOwnerID_sound (check_eq_ok.mp how)
  cases req with
  | saveLayout ownerID clusterID scope revision config =>
    obtain ⟨hsc, hac⟩ := guard_eq_ok.mp hac
    obtain ⟨-, hac⟩ := guard_eq_ok.mp hac
    obtain ⟨⟨cfgScope, normalized⟩, hcf, hac⟩ := except_bind_eq_ok.mp hac
    obtain ⟨-, hac⟩ := guard_eq_ok.mp hac
    obtain ⟨⟨⟩, hdp, hac⟩ := except_bind_eq_ok.mp hac
    cases hac
    have hnm := scope_length (not_not.mp hsc)
    have hdp := validateDedupKey_sound (check_eq_ok.mp hdp)
    obtain ⟨cfg, hraw, hsz⟩ := layout_octets_eq (check_eq_ok.mp hcf)
    have hsz : octets (jsonbText normalized) ≤ 8192 ↔
        (PrefRequest.saveLayout ownerID clusterID scope revision config).Small := by
      rw [hsz]
      simp [PrefRequest.Small, PrefRequest.layout, hraw]
    exact ⟨Creation.fits how hnm (hreq _ rfl) hdp (le_refl 1) hsz,
      fun id => Revision.fits hnm hdp (le_refl 1) hsz⟩
  | createView ownerID clusterID name config =>
    obtain ⟨⟨⟩, hnm, hac⟩ := except_bind_eq_ok.mp hac
    obtain ⟨normalized, hcf, hac⟩ := except_bind_eq_ok.mp hac
    obtain ⟨⟨⟩, hdp, hac⟩ := except_bind_eq_ok.mp hac
    cases hac
    rw [check_eq_ok, validators_validateRecordName] at hnm
    exact Creation.fits how (validateRecordName_sound hnm)
      (hreq _ rfl) (validateDedupKey_sound (check_eq_ok.mp hdp)) (le_refl 1)
      (iff_of_true (savedView_octets_le (check_eq_ok.mp hcf)) (small_of_layout_eq_none rfl))
  | createPin ownerID clusterID name config =>
    obtain ⟨⟨⟩, hnm, hac⟩ := except_bind_eq_ok.mp hac
    obtain ⟨⟨dedupKey, normalized⟩, hcf, hac⟩ := except_bind_eq_ok.mp hac
    obtain ⟨⟨⟩, hdp, hac⟩ := except_bind_eq_ok.mp hac
    cases hac
    rw [check_eq_ok, validators_validateRecordName] at hnm
    exact Creation.fits how (validateRecordName_sound hnm)
      (hreq _ rfl) (validateDedupKey_sound (check_eq_ok.mp hdp)) (le_refl 1)
      (iff_of_true (pin_octets_le (check_eq_ok.mp hcf)) (small_of_layout_eq_none rfl))
  | updateView | deleteView | deletePin =>
    cases hac
    trivial

theorem proceed_fits {req : PrefRequest RawConfig} {id : ℕ}
    (hnx : proceed (validators quote toLower) id req = .ok stage) : stage.Fits req.Small h := by
  cases req with
  | updateView ownerID id name revision config =>
    obtain ⟨⟨⟩, hnm, hnx⟩ := except_bind_eq_ok.mp hnx
    obtain ⟨-, hnx⟩ := guard_eq_ok.mp hnx
    obtain ⟨normalized, hcf, hnx⟩ := except_bind_eq_ok.mp hnx
    obtain ⟨⟨⟩, hdp, hnx⟩ := except_bind_eq_ok.mp hnx
    cases hnx
    rw [check_eq_ok, validators_validateRecordName] at hnm
    exact Revision.fits (validateRecordName_sound hnm)
      (validateDedupKey_sound (check_eq_ok.mp hdp)) (le_refl 1)
      (iff_of_true (savedView_octets_le (check_eq_ok.mp hcf)) (small_of_layout_eq_none rfl))
  | _ =>
    cases hnx
    trivial

def CallsFit (h : Handler) (s : PrefServer RawConfig Json) : Prop :=
  ∀ k c, s.calls k = some c → c.request.Regular → c.stage.Fits c.request.Small h

variable {s s' : PrefServer RawConfig Json} {e : PrefEvent RawConfig Json} {k : ℕ}
  {c : PrefCall RawConfig Json}

theorem CallsFit.goto (hs : CallsFit h s) (hst : c.request.Regular → stage.Fits c.request.Small h) :
    CallsFit h (s.goto k c stage) :=
  forall_update hs hst

theorem CallsFit.finish (hs : CallsFit h s) (k : ℕ) : CallsFit h (s.finish k) :=
  fun k' c' hc' => hs k' c' (update_none_cases hc').2

theorem CallsFit.readLayout (hs : CallsFit h s) {l} (hc : s.calls k = some c)
    (hst : c.stage = .readLayout l) (hreq : c.request.Regular) :
    (createLayout h l).Fits c.request.Small ∧ ∀ id, (replaceLayout l id).Fits c.request.Small := by
  have hft := hs k c hc hreq
  rw [hst] at hft
  exact hft

theorem CallsFit.create (hs : CallsFit h s) {phase cr} (hc : s.calls k = some c)
    (hst : c.stage = .create phase cr) (hreq : c.request.Regular) : cr.Fits c.request.Small := by
  have hft := hs k c hc hreq
  rw [hst] at hft
  exact hft

theorem CallsFit.move (hs : CallsFit h s)
    (hmv : PrefMove (validators quote toLower) h hash s e s') : CallsFit h s' := by
  cases hmv with
  | stay | turnAway => exact hs
  | start hac => exact forall_update hs fun hreq => accept_fits hreq hac
  | refuse | lost => exact hs.finish _
  | missing hc hst => exact hs.goto fun hreq => (hs.readLayout hc hst hreq).1
  | found hc hst => exact hs.goto fun hreq => (hs.readLayout hc hst hreq).2 _
  | proceed _ _ _ _ hnx => exact hs.goto fun _ => proceed_fits hnx
  | grant hc hst =>
    exact CallsFit.goto (s := { s with locks := _ }) hs fun hreq => hs.create hc hst hreq
  | insert hc hst | filtered hc hst => exact hs.goto fun hreq => hs.create hc hst hreq
  | commit => exact CallsFit.finish (s := s.insertRow _) hs _
  | missed => exact hs.goto fun _ => trivial
  | update => exact CallsFit.finish (s := s.updateRow _) hs _
  | delete => exact CallsFit.finish (s := s.deleteRow _) hs _

theorem prefServer_callsFit (quote : String → String) (toLower : Bytes → String) (h : Handler)
    (hash : String → ℕ) (history : List (PrefAction RawConfig)) :
    CallsFit h ((prefServer (validators quote toLower) h hash).run history) := by
  refine Reactive.run_inv (M := prefServer (validators quote toLower) h hash)
    (P := fun s _ => CallsFit h s) ?_ (fun s _ a hs => hs.move (PrefServer.react_move a)) history
  intro k c hc
  cases hc

end

/-! ## The first save of a layout -/

theorem accept_saveLayout {quote toLower} {h : Handler} {ownerID clusterID : String}
    {cfg : DashboardLayoutConfig} (how : validateOwnerID ownerID = .ok ()) (hcfg : cfg.Accepted)
    : accept (validators quote toLower) h
        (.saveLayout ownerID clusterID cfg.scope 0 { layout := some cfg }) =
      .ok (.readLayout ⟨ownerID, clusterID, cfg.scope, 0, cfg.json⟩) := by
  have hdp : validateDedupKey cfg.scope = .ok () := by
    have hall : ∀ k ∈ allowedDashboardScopes, ¬ (k = "" ∨ k.toList.length > maxDedupKeyLen) := by
      decide
    rw [validateDedupKey, ite_error_ok_iff, runeCountInString_eq]
    exact ⟨hall _ hcfg.scope, rfl⟩
  have hcf : (validators quote toLower).validateDashboardLayout { layout := some cfg } =
      .ok (cfg.scope, cfg.json) := by
    have hly : validateDashboardLayout quote (some cfg) = .ok (cfg, cfg.json) :=
      validateDashboardLayout_ok_iff.mpr ⟨rfl, rfl, hcfg⟩
    exact map_eq_ok.mpr ⟨_, hly, rfl⟩
  refine except_bind_eq_ok.mpr ⟨(), check_eq_ok.mpr how, ?_⟩
  refine guard_eq_ok.mpr ⟨not_not.mpr hcfg.scope, guard_eq_ok.mpr ⟨by decide, ?_⟩⟩
  refine except_bind_eq_ok.mpr ⟨_, check_eq_ok.mpr hcf, guard_eq_ok.mpr ⟨by simp, ?_⟩⟩
  exact except_bind_eq_ok.mpr ⟨(), check_eq_ok.mpr hdp, rfl⟩

section

variable {β κ : Type} {rules : Rules β κ} {h : Handler} {hash : String → ℕ}

theorem run_first_layout {req l} (hac : accept rules h req = .ok (.readLayout l))
    (hrev : l.revision = 0) :
    ((prefServer rules h hash).run [.request req, .step 0, .step 0]).calls 0 =
      some ⟨req, .create .insert (createLayout h l)⟩ := by
  have hsta : (prefServer rules h hash).run [.request req] =
      PrefServer.start {} req (.readLayout l) := by
    simp [Reactive.run, Reactive.runFrom, prefServer, PrefServer.react, hac]
  have hrd : ((prefServer rules h hash).run [.request req, .step 0]) =
      (PrefServer.start {} req (.readLayout l)).goto 0 ⟨req, .readLayout l⟩
        (.create .lock (createLayout h l)) := by
    change ((prefServer rules h hash).run ([.request req] ++ [.step 0])) = _
    rw [Reactive.run_concat, hsta]
    simp [prefServer, PrefServer.react, PrefServer.start, PrefServer.step, PrefServer.readLayout,
      getByDedupKey, hrev]
  change ((prefServer rules h hash).run ([.request req, .step 0] ++ [.step 0])).calls 0 = _
  rw [Reactive.run_concat, hrd]
  simp [prefServer, PrefServer.react, PrefServer.start, PrefServer.step, PrefServer.goto,
    PrefServer.create]

end

def firstSave (cfg : DashboardLayoutConfig) : PrefRequest RawConfig :=
  .saveLayout "admin" "local" cfg.scope 0 { layout := some cfg }

def firstLayout (h : Handler) (cfg : DashboardLayoutConfig) : Creation Json :=
  createLayout h ⟨"admin", "local", cfg.scope, 0, cfg.json⟩

theorem run_firstSave {quote toLower} {h : Handler} {hash} {cfg : DashboardLayoutConfig}
    (hcfg : cfg.Accepted) : ((prefServer (validators quote toLower) h hash).run
      [.request (firstSave cfg), .step 0, .step 0]).calls 0 =
      some ⟨firstSave cfg, .create .insert (firstLayout h cfg)⟩ := by
  have how : validateOwnerID "admin" = .ok () := by
    rw [validateOwnerID, ite_error_ok_iff, runeCountInString_eq]
    exact ⟨by decide, rfl⟩
  exact run_first_layout (accept_saveLayout how hcfg) rfl

/-! ## Every call of a run -/

/-- In every run a view or a pin that a call writes satisfies the constraints of the table, and a
layout does exactly when its bytes add up to at most 8192; for an update, if the row did. -/
theorem accepted_preferences_fit (quote : String → String) (toLower : Bytes → String) (h : Handler)
    (hash : String → ℕ) (history : List (PrefAction RawConfig)) {k : ℕ}
    {c : PrefCall RawConfig Json}
    (hc : ((prefServer (validators quote toLower) h hash).run history).calls k = some c)
    (hreq : c.request.Regular) :
    (∀ phase cr, c.stage = .create phase cr →
      (Constraints (((prefServer (validators quote toLower) h hash).run history).newRow cr.record) ↔
        c.request.Small)) ∧
    ∀ u r, c.stage = .update u → Constraints r → (Constraints (u.apply r) ↔ c.request.Small) := by
  have hft := prefServer_callsFit quote toLower h hash history k c hc hreq
  constructor
  · intro phase cr hst
    rw [hst] at hft
    exact hft _
  · intro u r hst hr
    rw [hst] at hft
    exact hft r hr

/-! ## Wide layouts -/

def saveLayoutBody (revision : Int) (cfg : DashboardLayoutConfig) : Json :=
  .obj [("revision", .num revision), ("config", cfg.json)]

def wideChar (n : ℕ) : Char := Char.ofNat (0x10000 + n)

def wideText (n : ℕ) : String := String.ofList (List.replicate maxParamValueLen (wideChar n))

def wideItem (n : ℕ) : LayoutItem where
  instanceId := toString n
  id := "hubble-flows"
  x := 4 * (n % 3 : ℕ)
  y := 3 * (n / 3 : ℕ)
  w := 4
  h := 3
  params := some [(paramKeyNamespace, wideText n)]

/-- Widgets, each for a namespace with a name of 253 wide characters. -/
def wideLayout (k : ℕ) : DashboardLayoutConfig where
  schemaVersion := 1
  scope := "overview"
  columns := 12
  items := (List.range k).map wideItem

variable {n : ℕ}

theorem wideChar_spec (h : n < 8) :
    (wideChar n).toNat = 0x10000 + n ∧ (wideChar n).utf8Size = 4 := by
  have hall : ∀ n < 8, (wideChar n).toNat = 0x10000 + n ∧ (wideChar n).utf8Size = 4 := by
    decide
  exact hall n h

theorem octets_wideText (h : n < 8) : octets (quoted (wideText n)) = 1014 := by
  obtain ⟨hcd, hsz⟩ := wideChar_spec h
  have hpl : Plain (wideChar n) := by
    refine ⟨fun heq => ?_, fun heq => ?_, by omega⟩
    · have hqt : '"'.toNat = 34 := by decide
      rw [heq] at hcd
      omega
    · have hbs : '\\'.toNat = 92 := by decide
      rw [heq] at hcd
      omega
  have hrp : ∀ m, octets ((List.replicate m (wideChar n)).flatMap escape) = 4 * m := by
    intro m
    induction m with
    | zero => rfl
    | succ m ih =>
      rw [replicate_succ, flatMap_cons, octets_append, ih, escape_of_plain hpl,
        octets_cons, octets_nil, hsz]
      omega
  rw [octets_quoted, wideText, String.toList_ofList, hrp]
  rfl

theorem wideText_good (h : n < 8) : GoodValue paramKeyNamespace (wideText n) [] := by
  have hls : (wideText n).toList = List.replicate maxParamValueLen (wideChar n) := by
    rw [wideText, String.toList_ofList]
  refine ⟨fun hemp => ?_, ?_, fun c hc => ?_, by simp, fun _ hkey => absurd hkey (by decide)⟩
  · have hln := congrArg List.length hls
    rw [hemp, length_replicate] at hln
    exact absurd hln (by decide)
  · rw [hls, length_replicate]
    exact le_rfl
  · rw [hls] at hc
    rw [eq_of_mem_replicate hc, (wideChar_spec h).1]
    simp only [isCc, Bool.or_eq_false_iff, Bool.and_eq_false_iff, decide_eq_false_iff_not]
    omega

theorem wideItem_accepted (h : n < 8) : ItemAccepted (wideItem n) := by
  have hins : ∀ n < 8, (wideItem n).instanceId ≠ "" ∧
      (wideItem n).instanceId.toList.length ≤ maxInstanceIDLen ∧
      isDNS1123Subdomain (wideItem n).instanceId = true := by decide
  have hid : "hubble-flows".toList.length ≤ maxWidgetIDLen := by decide
  obtain ⟨hne, hlen, hsh⟩ := hins n h
  refine ⟨hne, hlen, hsh, hid, ⟨"hubble-flows", ⟨4, 3⟩, [(paramKeyNamespace, [])]⟩, ?_, ?_, ?_⟩
  · simp [allowedWidgets, wideItem]
  · have hsi : atLeastOne 4 = 4 ∧ atLeastOne 3 = 3 := by decide
    constructor <;> simp only [wideItem, dashboardColumns, maxDashboardRows, hsi] <;> omega
  · refine ⟨by simp [itemParams, wideItem, maxDashboardParams], by simp, fun e he => ?_, ?_⟩
    · rw [mem_singleton.mp he]
      exact ⟨[], by simp, wideText_good h⟩
    · simp [itemParams, wideItem]

theorem itemIdentity_wideItem {m : ℕ} (hn : n < 8) (hm : m < 8)
    (h : itemIdentity (wideItem n) = itemIdentity (wideItem m)) : n = m := by
  have hid : 0 ∉ utf8 "hubble-flows" := by
    refine zero_notMem_utf8_of_allowed ?_
    decide
  have hlk := ((identity_eq_iff hid hid).mp h).2 paramKeyNamespace
  simp only [itemParams, wideItem, Option.getD_some, lookup_cons_self, Option.some.injEq] at hlk
  have hls := congrArg String.toList hlk
  simp only [wideText, String.toList_ofList, maxParamValueLen] at hls
  rw [replicate_inj] at hls
  have hcha := congrArg Char.toNat (hls.2.resolve_left (by omega))
  rw [(wideChar_spec hn).1, (wideChar_spec hm).1] at hcha
  omega

theorem wideLayout_accepted {k : ℕ} (hk : k ≤ 8) : (wideLayout k).Accepted where
  version := rfl
  scope := mem_singleton_self _
  columns := rfl
  count := by simpa [wideLayout, maxDashboardItems] using hk.trans (by decide)
  items := by
    intro it hit
    obtain ⟨n, hn, rfl⟩ := mem_map.mp hit
    exact wideItem_accepted ((mem_range.mp hn).trans_le hk)
  instances := by
    have hall : ((wideLayout 8).items.map LayoutItem.instanceId).Nodup := by decide
    exact hall.sublist (((range_sublist.mpr hk).map _).map _)
  identities := by
    rw [wideLayout, map_map]
    refine List.Nodup.map_on ?_ nodup_range
    intro n hn m hm heq
    exact itemIdentity_wideItem ((mem_range.mp hn).trans_le hk) ((mem_range.mp hm).trans_le hk) heq
  apart := by
    have hall : (wideLayout 8).items.Pairwise fun a b => itemsOverlap a b = false := by decide
    exact hall.sublist ((range_sublist.mpr hk).map _)

theorem itemOctets_wideItem (h : n < 8) : itemOctets (wideItem n) = 1114 := by
  have hall : ∀ n < 8, isSimpleText (wideItem n).instanceId = true ∧
      (wideItem n).instanceId.utf8ByteSize = 1 ∧ digits (wideItem n).x = 1 ∧
      digits (wideItem n).y = 1 := by decide
  obtain ⟨hin, hlen, hx, hy⟩ := hall n h
  have hks := octets_quoted_names (l := [("hubble-flows", 14), (paramKeyNamespace, 11)]) (by decide)
  simp only [forall_mem_cons] at hks
  have hsize : digits (wideItem n).w = 1 ∧ digits (wideItem n).h = 1 := ⟨rfl, rfl⟩
  have hid : octets (quoted (wideItem n).id) = 14 := hks.1
  have hpr : paramsOctets (wideItem n) = 1041 := by
    rw [paramsOctets, if_neg (by simp [itemParams, wideItem])]
    simp [itemParams, wideItem, octets_wideText h, hks.2.1]
  rw [itemOctets, octets_quoted_of_isSimpleText hin, hlen, hx, hy, hsize.1, hsize.2, hid, hpr]

theorem layoutOctets_wideLayout {k : ℕ} (hk : k ≤ 8) :
    layoutOctets (wideLayout k) = 69 + 1114 * k + 2 * (k - 1) := by
  have hall : (wideLayout k).items.map itemOctets = List.replicate k 1114 := by
    rw [wideLayout, map_map, eq_replicate_iff]
    refine ⟨by simp, fun m hm => ?_⟩
    obtain ⟨n, hn, rfl⟩ := mem_map.mp hm
    exact itemOctets_wideItem ((mem_range.mp hn).trans_le hk)
  rw [layoutOctets, hall, sum_replicate]
  simp [wideLayout, Nat.mul_comm]

theorem firstSave_regular (cfg : DashboardLayoutConfig) : (firstSave cfg).Regular := by
  intro clusterID hcu
  cases hcu
  decide

theorem accepted_preferences_fit_two :
    Constraints (((prefServer (validators id fun _ => "view") {} fun _ => 0).run
      [.request (firstSave (wideLayout 2)), .step 0, .step 0]).newRow
        (firstLayout {} (wideLayout 2)).record) := by
  refine ((accepted_preferences_fit id (fun _ => "view") {} (fun _ => 0) _ (run_firstSave
    (wideLayout_accepted (k := 2) (by decide))) (firstSave_regular _)).1 .insert _ rfl).mpr ?_
  rintro cfg ⟨⟩
  rw [layoutOctets_wideLayout (by decide)]
  decide

theorem octets_saveLayoutBody_le (cfg : DashboardLayoutConfig) :
    octets (jsonbText (saveLayoutBody 0 cfg)) ≤ octets (jsonbText cfg.json) + 31 := by
  have hky : ∀ k ∈ ["revision", "config"], octets (quoted k) ≤ 10 :=
    fun k hk => octets_quoted_mem (n := 8) hk (by decide)
  simp only [forall_mem_cons] at hky
  have hrev : octets (Json.render [' '] (.num 0)) = 1 := by decide
  simp [saveLayoutBody]
  omega

/-- A valid request of at most 16 KiB whose row breaks the bound: an internal error. -/
theorem layout_exceeds_row : ∃ (cfg : DashboardLayoutConfig) (cr : Creation Json),
    octets (jsonbText (saveLayoutBody 0 cfg)) ≤ maxBodyBytes ∧
    ((prefServer (validators id fun _ => "view") {} fun _ => 0).run
      [.request (firstSave cfg), .step 0, .step 0]).calls 0 =
      some ⟨firstSave cfg, .create .insert cr⟩ ∧
    (∀ id, ¬ Constraints { cr.record with id, revision := 1 }) ∧
    (firstSave cfg).storeError {} .failed = ⟨500, "failed to store preference", "", none⟩ := by
  have hacc := wideLayout_accepted (k := 8) (by decide)
  have hsize : octets (jsonbText (wideLayout 8).json) = 8995 := by
    rw [hacc.octets_eq, layoutOctets_wideLayout (by decide)]
  refine ⟨wideLayout 8, firstLayout {} (wideLayout 8), ?_, run_firstSave hacc, fun id hfi => ?_,
    rfl⟩
  · have hbd := octets_saveLayoutBody_le (wideLayout 8)
    rw [maxBodyBytes]
    omega
  · have hsz : octets (jsonbText (wideLayout 8).json) ≤ 8192 := hfi.configSize
    omega

end KubeCenter.Preferences
