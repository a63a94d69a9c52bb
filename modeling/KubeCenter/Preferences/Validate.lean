import KubeCenter.Lib.JsonText
import KubeCenter.Preferences.Params
import KubeCenter.Preferences.Store

/-! # What the preference handlers accept

The validators of `types.go` and `dashboard.go`. A config comes as what `json.Unmarshal` makes of
it as a saved view, as a pin and as a layout, and goes to the store as the JSON of its typed
struct. Decoding leaves no invalid UTF-8. -/
namespace KubeCenter.Preferences
open Lib Dashboard List Nat

def maxRecordNameLen : ℕ := 128
def maxOwnerIDLen : ℕ := 512
def maxDedupKeyLen : ℕ := 512
def maxSearchLen : ℕ := 256
def maxResourceName : ℕ := 253
def maxNamespaceLen : ℕ := 63
def maxUIDLen : ℕ := 64
def maxBodyBytes : ℕ := 16 * 1024
def maxDashboardItems : ℕ := 40
def maxWidgetIDLen : ℕ := 64
def maxInstanceIDLen : ℕ := 64

def allowedStatusFilters : List String := ["all", "running", "pending", "failed", "progressing"]
def allowedSortKeys : List String := ["name", "namespace", "age"]
def allowedSortDirs : List String := ["asc", "desc"]

structure SavedViewConfig where
  schemaVersion : Int
  resourceKind : String
  namespace_ : String
  search : String
  statusFilter : String
  sortKey : String
  sortDir : String
deriving DecidableEq

structure PinConfig where
  schemaVersion : Int
  resourceKind : String
  group : String
  version : String
  namespace_ : String
  name : String
  uid : String
  displayKind : String
deriving DecidableEq

structure DashboardLayoutConfig where
  schemaVersion : Int
  scope : String
  columns : Int
  items : List LayoutItem
deriving DecidableEq

/-! ## The stored form -/

def SavedViewConfig.json (cfg : SavedViewConfig) : Json :=
  .obj [("schemaVersion", .num cfg.schemaVersion), ("resourceKind", .str cfg.resourceKind),
    ("namespace", .str cfg.namespace_), ("search", .str cfg.search),
    ("statusFilter", .str cfg.statusFilter), ("sortKey", .str cfg.sortKey),
    ("sortDir", .str cfg.sortDir)]

def PinConfig.json (cfg : PinConfig) : Json :=
  .obj [("schemaVersion", .num cfg.schemaVersion), ("resourceKind", .str cfg.resourceKind),
    ("group", .str cfg.group), ("version", .str cfg.version), ("namespace", .str cfg.namespace_),
    ("name", .str cfg.name), ("uid", .str cfg.uid), ("displayKind", .str cfg.displayKind)]

/-- The parameters of an item, none where the map is nil. -/
def itemParams (it : LayoutItem) : List (String × String) := it.params.getD []

/-- The field `params`, which an empty map omits. -/
def paramsField (it : LayoutItem) : List (String × Json) :=
  if itemParams it = [] then []
  else [("params", .obj ((itemParams it).map fun e => (e.1, .str e.2)))]

def itemJson (it : LayoutItem) : Json :=
  .obj ([("instanceId", .str it.instanceId), ("id", .str it.id), ("x", .num it.x), ("y", .num it.y),
    ("w", .num it.w), ("h", .num it.h)] ++ paramsField it)

def DashboardLayoutConfig.json (cfg : DashboardLayoutConfig) : Json :=
  .obj [("schemaVersion", .num cfg.schemaVersion), ("scope", .str cfg.scope),
    ("columns", .num cfg.columns), ("items", .arr (cfg.items.map itemJson))]

/-! ## Names -/

/-- The loop of `isDNS1123Label`, at byte `i` of a string of `len` bytes. -/
def dns1123LabelLoop (len : ℕ) : ℕ → List Char → Bool
  | _, [] => true
  | i, r :: rs =>
    if isAlphanumeric r.toNat then dns1123LabelLoop len (i + r.utf8Size) rs
    else if r = '-' then
      if i = 0 ∨ i = len - 1 then false else dns1123LabelLoop len (i + r.utf8Size) rs
    else false

def isDNS1123Label (s : List Char) : Bool :=
  if s = [] then false else dns1123LabelLoop (octets s) 0 s

def isDNS1123Subdomain (s : String) : Bool :=
  if s = "" then false else (s.toList.splitOn '.').all isDNS1123Label

def isUIDSafe (s : String) : Bool :=
  s.toList.all fun r => isAlphanumeric r.toNat || ('A' ≤ r && r ≤ 'Z') || r = '-'

/-! ## The registered adapters -/

/-- The kinds of the registry, and whether each is cluster-scoped. -/
def adapters : List (String × Bool) :=
  [("clusterrolebindings", true), ("clusterroles", true), ("configmaps", false),
    ("cronjobs", false), ("daemonsets", false), ("deployments", false), ("endpoints", false),
    ("endpointslices", false), ("events", false), ("hpas", false), ("ingresses", false),
    ("jobs", false), ("limitranges", false), ("mutatingwebhookconfigurations", true),
    ("namespaces", true), ("networkpolicies", false), ("nodes", true), ("pdbs", false),
    ("pods", false), ("pvcs", false), ("pvs", true), ("replicasets", false),
    ("resourcequotas", false), ("rolebindings", false), ("roles", false), ("secrets", false),
    ("serviceaccounts", false), ("services", false), ("statefulsets", false),
    ("storageclasses", true), ("validatingwebhookconfigurations", true)]

def getAdapter (kind : String) : Option Bool := adapters.lookup kind

/-! ## The validators -/

def invalidConfig (message : String) : ValidationError := ⟨"invalid_config", message⟩

def unsupportedVersion (got : Int) (want : ℕ) : ValidationError :=
  ⟨"unsupported_schema_version", s!"unsupported schemaVersion {got}; this server accepts {want}"⟩

def validateOwnerID (ownerID : String) : Except ValidationError Unit :=
  if ownerID = "" ∨ runeCountInString ownerID > maxOwnerIDLen then
    .error ⟨"identity_too_long",
      s!"the authenticated identity is {runeCountInString ownerID} characters; " ++
        s!"preferences support at most {maxOwnerIDLen}"⟩
  else .ok ()

def validateRecordName (name : String) : Except ValidationError Unit :=
  if trimSpace (utf8 name) = [] then .error ⟨"invalid_name", "name is required"⟩
  else if runeCountInString name > maxRecordNameLen then
    .error ⟨"invalid_name",
      s!"name is {runeCountInString name} characters; the maximum is {maxRecordNameLen}"⟩
  else if hasControlChars name then
    .error ⟨"invalid_name", "name contains control characters"⟩
  else .ok ()

def validateDedupKey (key : String) : Except ValidationError Unit :=
  if key = "" ∨ runeCountInString key > maxDedupKeyLen then
    .error (invalidConfig "record identity is not addressable")
  else .ok ()

section

variable (quote : String → String)

def validateScope (clusterScoped : Bool) (kind namespace_ : String) (namespaceRequired : Bool) :
    Except ValidationError Unit :=
  if clusterScoped then
    if namespace_ ≠ "" then
      .error (invalidConfig
        ("resourceKind " ++ quote kind ++ " is cluster-scoped and cannot carry a namespace"))
    else .ok ()
  else if namespace_ = "" then
    if namespaceRequired then
      .error (invalidConfig ("resourceKind " ++ quote kind ++ " requires a namespace"))
    else .ok ()
  else if runeCountInString namespace_ > maxNamespaceLen ∨ ¬ isDNS1123Label namespace_.toList then
    .error (invalidConfig ("namespace " ++ quote namespace_ ++ " is not a valid DNS-1123 label"))
  else .ok ()

/-- `ValidateSavedView`, of what the raw config decodes to. -/
def validateSavedView (raw : Option SavedViewConfig) :
    Except ValidationError (SavedViewConfig × Json) := do
  let some cfg := raw | throw (invalidConfig "config is not a valid saved-view object")
  if cfg.schemaVersion ≠ savedViewSchemaVersion then
    throw (unsupportedVersion cfg.schemaVersion savedViewSchemaVersion)
  let some clusterScoped := getAdapter cfg.resourceKind
    | throw ⟨"unknown_resource_kind", "unknown resourceKind " ++ quote cfg.resourceKind⟩
  validateScope quote clusterScoped cfg.resourceKind cfg.namespace_ false
  if cfg.statusFilter ∉ allowedStatusFilters then
    throw (invalidConfig ("unsupported statusFilter " ++ quote cfg.statusFilter))
  if cfg.sortKey ∉ allowedSortKeys then
    throw (invalidConfig ("unsupported sortKey " ++ quote cfg.sortKey))
  if cfg.sortDir ∉ allowedSortDirs then
    throw (invalidConfig ("unsupported sortDir " ++ quote cfg.sortDir))
  if runeCountInString cfg.search > maxSearchLen then
    throw (invalidConfig
      s!"search is {runeCountInString cfg.search} characters; the maximum is {maxSearchLen}")
  if hasControlChars cfg.search then
    throw (invalidConfig "search contains control characters")
  return (cfg, cfg.json)

/-- `ValidatePin`, of what the raw config decodes to. -/
def validatePin (raw : Option PinConfig) : Except ValidationError (PinConfig × Json) := do
  let some cfg := raw | throw (invalidConfig "config is not a valid pin object")
  if cfg.schemaVersion ≠ pinSchemaVersion then
    throw (unsupportedVersion cfg.schemaVersion pinSchemaVersion)
  let some clusterScoped := getAdapter cfg.resourceKind
    | throw ⟨"unknown_resource_kind", "unknown resourceKind " ++ quote cfg.resourceKind⟩
  validateScope quote clusterScoped cfg.resourceKind cfg.namespace_ true
  if cfg.group ≠ "" ∨ cfg.version ≠ "" then
    throw (invalidConfig "group and version are reserved and must be empty in this release")
  if cfg.name = "" ∨ runeCountInString cfg.name > maxResourceName ∨
      ¬ isDNS1123Subdomain cfg.name then
    throw (invalidConfig ("name " ++ quote cfg.name ++ " is not a valid Kubernetes object name"))
  if runeCountInString cfg.uid > maxUIDLen ∨ ¬ isUIDSafe cfg.uid then
    throw (invalidConfig "uid is not a valid Kubernetes UID")
  if runeCountInString cfg.displayKind > maxRecordNameLen ∨ hasControlChars cfg.displayKind then
    throw (invalidConfig "displayKind is not a valid kind label")
  return (cfg, cfg.json)

/-- After placements with the instances `seenInstance` and the identities `seenIdentity`. -/
def checkItem (columns : Int) (seenInstance : List String) (seenIdentity : List Bytes) (i : ℕ)
    (it : LayoutItem) : Except ValidationError (List Bytes) := do
  if it.instanceId = "" ∨ runeCountInString it.instanceId > maxInstanceIDLen ∨
      ¬ isDNS1123Subdomain it.instanceId then
    throw (invalidConfig s!"items[{i}].instanceId is not a valid identifier")
  if it.instanceId ∈ seenInstance then
    throw (invalidConfig s!"items[{i}] repeats instanceId {quote it.instanceId}")
  if runeCountInString it.id > maxWidgetIDLen then
    throw (invalidConfig s!"items[{i}].id is too long")
  let some spec := allowedWidgets.find? (·.id = it.id)
    | throw ⟨"unknown_widget_id", s!"items[{i}].id {quote it.id} is not a widget this server knows"⟩
  (checkGeometry (fun _ => spec.sizes) columns i it).mapError invalidConfig
  (checkParams quote spec.params i it.id (itemParams it)).mapError invalidConfig
  (checkIdentity seenIdentity i it.id (itemParams it)).mapError invalidConfig

def checkEachItem (columns : Int) :
    List String → List Bytes → ℕ → List LayoutItem → Except ValidationError Unit
  | _, _, _, [] => .ok ()
  | seenInstance, seenIdentity, i, it :: items => do
    let seenIdentity ← checkItem quote columns seenInstance seenIdentity i it
    checkEachItem columns (it.instanceId :: seenInstance) seenIdentity (i + 1) items

/-- A nil slice of items is stored as an empty one. -/
def validateDashboardLayout (raw : Option DashboardLayoutConfig) :
    Except ValidationError (DashboardLayoutConfig × Json) := do
  let some cfg := raw | throw (invalidConfig "config is not a valid dashboard-layout object")
  if cfg.schemaVersion ≠ dashboardLayoutSchemaVersion then
    throw (unsupportedVersion cfg.schemaVersion dashboardLayoutSchemaVersion)
  if cfg.scope ∉ allowedDashboardScopes then
    throw (invalidConfig ("unsupported scope " ++ quote cfg.scope))
  if cfg.columns ≠ dashboardColumns then
    throw (invalidConfig s!"columns is {cfg.columns}; this server lays out {dashboardColumns}")
  if cfg.items.length > maxDashboardItems then
    throw (invalidConfig
      s!"layout has {cfg.items.length} widgets; the maximum is {maxDashboardItems}")
  checkEachItem quote cfg.columns [] [] 0 cfg.items
  (checkOverlap 0 cfg.items).mapError invalidConfig
  return (cfg, cfg.json)

end

/-- `toLower` is `strings.ToLower`. -/
def savedViewDedupKey (toLower : Bytes → String) (name : String) : String :=
  toLower (trimSpace (utf8 name))

def pinDedupKey (c : PinConfig) : String := c.resourceKind ++ "/" ++ c.namespace_ ++ "/" ++ c.name

/-- What `json.Unmarshal` makes of a config as each type, `none` where it fails. -/
structure RawConfig where
  view : Option SavedViewConfig := none
  pin : Option PinConfig := none
  layout : Option DashboardLayoutConfig := none
deriving DecidableEq

def validators (quote : String → String) (toLower : Bytes → String) : Rules RawConfig Json where
  quote := quote
  validateOwnerID := validateOwnerID
  validateRecordName := validateRecordName
  validateDedupKey := validateDedupKey
  validateSavedView raw := (validateSavedView quote raw.view).map Prod.snd
  validatePin raw := (validatePin quote raw.pin).map fun v => (pinDedupKey v.1, v.2)
  validateDashboardLayout raw :=
    (validateDashboardLayout quote raw.layout).map fun v => (v.1.scope, v.2)
  savedViewDedupKey := savedViewDedupKey toLower

/-! ## Accepted names -/

theorem isSimple_of_alphanumeric {c : Char} (h : isAlphanumeric c.toNat = true) :
    isSimple c = true := by
  simp only [isAlphanumeric, isLowerLetter, Bool.or_eq_true, Bool.and_eq_true,
    decide_eq_true_eq] at h
  rw [isSimple_iff]
  omega

theorem dns1123LabelLoop_chars {len : ℕ} {rs} :
    ∀ {i : ℕ}, dns1123LabelLoop len i rs = true → ∀ r ∈ rs, isSimple r = true := by
  induction rs with
  | nil => simp
  | cons r rs ih =>
    intro i h
    rw [dns1123LabelLoop] at h
    split at h
    next hr => exact forall_mem_cons.mpr ⟨isSimple_of_alphanumeric hr, ih h⟩
    · split at h
      next hr =>
        subst hr
        split at h
        · cases h
        · exact forall_mem_cons.mpr ⟨by decide, ih h⟩
      · cases h

theorem isDNS1123Label_chars {s} (h : isDNS1123Label s = true) : ∀ c ∈ s, isSimple c = true := by
  unfold isDNS1123Label at h
  split at h
  · cases h
  · exact dns1123LabelLoop_chars h

theorem isDNS1123Subdomain_chars {s : String} (h : isDNS1123Subdomain s = true) :
    ∀ c ∈ s.toList, isSimple c = true := by
  intro c hc
  unfold isDNS1123Subdomain at h
  split at h
  · cases h
  · have hjn : ['.'].intercalate (s.toList.splitOn '.') = s.toList := intercalate_splitOn '.'
    rw [← hjn] at hc
    rcases mem_of_mem_intercalate hc with rfl | ⟨l, hl, hc⟩
    · decide
    · exact isDNS1123Label_chars (all_eq_true.mp h l hl) c hc

theorem isUIDSafe_chars {s : String} (h : isUIDSafe s = true) :
    ∀ c ∈ s.toList, isSimple c = true := by
  intro c hc
  have hsf := all_eq_true.mp h c hc
  simp only [Bool.or_eq_true, Bool.and_eq_true, decide_eq_true_eq] at hsf
  rcases hsf with (hsf | ⟨hA, hZ⟩) | rfl
  · exact isSimple_of_alphanumeric hsf
  · have hA : 65 ≤ c.toNat := hA
    have hZ : c.toNat ≤ 90 := hZ
    rw [isSimple_iff]
    omega
  · decide

/-! ## Accepted configs -/

structure SavedViewConfig.Accepted (cfg : SavedViewConfig) : Prop where
  version : cfg.schemaVersion = savedViewSchemaVersion
  kind : cfg.resourceKind ∈ adapters.map Prod.fst
  namespaceLen : cfg.namespace_.toList.length ≤ maxNamespaceLen
  namespaceChars : ∀ c ∈ cfg.namespace_.toList, isSimple c = true
  statusFilter : cfg.statusFilter ∈ allowedStatusFilters
  sortKey : cfg.sortKey ∈ allowedSortKeys
  sortDir : cfg.sortDir ∈ allowedSortDirs
  searchLen : cfg.search.toList.length ≤ maxSearchLen
  searchChars : ∀ c ∈ cfg.search.toList, isCc c.toNat = false

structure PinConfig.Accepted (cfg : PinConfig) : Prop where
  version : cfg.schemaVersion = pinSchemaVersion
  kind : cfg.resourceKind ∈ adapters.map Prod.fst
  namespaceLen : cfg.namespace_.toList.length ≤ maxNamespaceLen
  namespaceChars : ∀ c ∈ cfg.namespace_.toList, isSimple c = true
  group : cfg.group = ""
  reserved : cfg.version = ""
  nameLen : cfg.name.toList.length ≤ maxResourceName
  nameChars : ∀ c ∈ cfg.name.toList, isSimple c = true
  uidLen : cfg.uid.toList.length ≤ maxUIDLen
  uidChars : ∀ c ∈ cfg.uid.toList, isSimple c = true
  displayKindLen : cfg.displayKind.toList.length ≤ maxRecordNameLen
  displayKindChars : ∀ c ∈ cfg.displayKind.toList, isCc c.toNat = false

structure ParamsAccepted (spec : List (String × List String)) (params : List (String × String)) :
    Prop where
  count : params.length ≤ maxDashboardParams
  undeclared : spec = [] → params = []
  values : ∀ e ∈ params, ∃ allowed, spec.lookup e.1 = some allowed ∧ GoodValue e.1 e.2 allowed
  required : ∀ e ∈ spec, params.lookup e.1 ≠ none

structure ItemAccepted (it : LayoutItem) : Prop where
  instanceNe : it.instanceId ≠ ""
  instanceLen : it.instanceId.toList.length ≤ maxInstanceIDLen
  instanceShape : isDNS1123Subdomain it.instanceId = true
  idLen : it.id.toList.length ≤ maxWidgetIDLen
  widget : ∃ spec, allowedWidgets.find? (·.id = it.id) = some spec ∧
    Fits (fun _ => spec.sizes) it ∧ ParamsAccepted spec.params (itemParams it)

def itemIdentity (it : LayoutItem) : Bytes := identity it.id (itemParams it)

structure DashboardLayoutConfig.Accepted (cfg : DashboardLayoutConfig) : Prop where
  version : cfg.schemaVersion = dashboardLayoutSchemaVersion
  scope : cfg.scope ∈ allowedDashboardScopes
  columns : cfg.columns = dashboardColumns
  count : cfg.items.length ≤ maxDashboardItems
  items : ∀ it ∈ cfg.items, ItemAccepted it
  instances : (cfg.items.map LayoutItem.instanceId).Nodup
  identities : (cfg.items.map itemIdentity).Nodup
  apart : cfg.items.Pairwise fun a b => itemsOverlap a b = false

section

variable {quote : String → String}

theorem mem_keys_of_lookup {α : Type} {l : List (String × α)} {k : String} {a : α}
    (h : l.lookup k = some a) : k ∈ l.map Prod.fst := by
  obtain ⟨l₁, l₂, hspl, -⟩ := lookup_eq_some_iff.mp h
  rw [hspl]
  simp

theorem not_isCc {s : String} (h : ¬ hasControlChars s = true) :
    ∀ c ∈ s.toList, isCc c.toNat = false := by
  intro c hc
  by_contra hctl
  exact h (hasControlChars_eq_true_iff.mpr ⟨c, hc, Bool.not_eq_false _ ▸ hctl⟩)

theorem validateScope_sound {clusterScoped required : Bool} {kind namespace_ : String}
    (h : validateScope quote clusterScoped kind namespace_ required = .ok ()) :
    namespace_.toList.length ≤ maxNamespaceLen ∧ ∀ c ∈ namespace_.toList, isSimple c = true := by
  by_cases hem : namespace_ = ""
  · subst hem
    exact ⟨zero_le _, by simp⟩
  · unfold validateScope at h
    split at h
    · cases h
    · rw [ite_error_ok_iff, runeCountInString_eq] at h
      obtain ⟨hlen, hlb⟩ := not_or.mp h.1
      exact ⟨not_lt.mp hlen, isDNS1123Label_chars (not_not.mp hlb)⟩

theorem validateSavedView_sound {raw v} (h : validateSavedView quote raw = .ok v) :
    v.2 = v.1.json ∧ v.1.Accepted := by
  cases raw with
  | none => cases h
  | some cfg =>
    obtain ⟨hver, h⟩ := guard_eq_ok.mp h
    cases had : getAdapter cfg.resourceKind with
    | none =>
      rw [had] at h
      cases h
    | some clusterScoped =>
      rw [had] at h
      obtain ⟨⟨⟩, hsc, h⟩ := except_bind_eq_ok.mp h
      obtain ⟨hst, h⟩ := guard_eq_ok.mp h
      obtain ⟨hsortKey, h⟩ := guard_eq_ok.mp h
      obtain ⟨hsortDir, h⟩ := guard_eq_ok.mp h
      obtain ⟨hlen, h⟩ := guard_eq_ok.mp h
      obtain ⟨hctl, h⟩ := guard_eq_ok.mp h
      cases h
      obtain ⟨hnsLen, hnsChars⟩ := validateScope_sound hsc
      rw [runeCountInString_eq] at hlen
      exact ⟨rfl,
        { version := not_not.mp hver
          kind := mem_keys_of_lookup had
          namespaceLen := hnsLen
          namespaceChars := hnsChars
          statusFilter := not_not.mp hst
          sortKey := not_not.mp hsortKey
          sortDir := not_not.mp hsortDir
          searchLen := not_lt.mp hlen
          searchChars := not_isCc hctl }⟩

theorem validatePin_sound {raw v} (h : validatePin quote raw = .ok v) :
    v.2 = v.1.json ∧ v.1.Accepted := by
  cases raw with
  | none => cases h
  | some cfg =>
    obtain ⟨hver, h⟩ := guard_eq_ok.mp h
    cases had : getAdapter cfg.resourceKind with
    | none =>
      rw [had] at h
      cases h
    | some clusterScoped =>
      rw [had] at h
      obtain ⟨⟨⟩, hsc, h⟩ := except_bind_eq_ok.mp h
      obtain ⟨hrsv, h⟩ := guard_eq_ok.mp h
      obtain ⟨hnm, h⟩ := guard_eq_ok.mp h
      obtain ⟨huid, h⟩ := guard_eq_ok.mp h
      obtain ⟨hds, h⟩ := guard_eq_ok.mp h
      cases h
      obtain ⟨hnsLen, hnsChars⟩ := validateScope_sound hsc
      obtain ⟨hgr, hrsv⟩ := not_or.mp hrsv
      rw [runeCountInString_eq, not_or, not_or] at hnm
      rw [runeCountInString_eq, not_or] at huid hds
      exact ⟨rfl,
        { version := not_not.mp hver
          kind := mem_keys_of_lookup had
          namespaceLen := hnsLen
          namespaceChars := hnsChars
          group := not_not.mp hgr
          reserved := not_not.mp hrsv
          nameLen := not_lt.mp hnm.2.1
          nameChars := isDNS1123Subdomain_chars (not_not.mp hnm.2.2)
          uidLen := not_lt.mp huid.1
          uidChars := isUIDSafe_chars (not_not.mp huid.2)
          displayKindLen := not_lt.mp hds.1
          displayKindChars := not_isCc hds.2 }⟩

theorem known_of_allowed {spec} (h : spec ∈ allowedWidgets) :
    ∀ k ∈ spec.params.map Prod.fst, k ∈ knownParamKeys := by
  have hall : ∀ spec ∈ allowedWidgets, ∀ k ∈ spec.params.map Prod.fst, k ∈ knownParamKeys := by
    decide
  exact hall spec h

theorem lookup_of_checkParam {spec} {i : ℕ} {id k v : String}
    (h : checkParam quote spec i id k v = .ok ()) : ∃ allowed, spec.lookup k = some allowed := by
  obtain ⟨-, h⟩ := ite_error_ok_iff.mp h
  obtain ⟨-, h⟩ := ite_error_ok_iff.mp h
  obtain ⟨-, h⟩ := ite_error_ok_iff.mp h
  cases hlk : spec.lookup k with
  | none =>
    rw [hlk] at h
    cases h
  | some allowed => exact ⟨allowed, rfl⟩

theorem checkParams_accepted_iff {spec : List (String × List String)} {i : ℕ} {id : String} {params}
    (hkn : ∀ k ∈ spec.map Prod.fst, k ∈ knownParamKeys) :
    checkParams quote spec i id params = .ok () ↔ ParamsAccepted spec params := by
  rw [checkParams_ok_iff]
  constructor
  · rintro ⟨hcn, hun, hvl, hreq⟩
    refine ⟨hcn, hun, fun e he => ?_, hreq⟩
    obtain ⟨allowed, hlk⟩ := lookup_of_checkParam (hvl e he)
    exact (checkParam_ok_iff (hkn _ (mem_keys_of_lookup hlk))).mp (hvl e he)
  · rintro ⟨hcn, hun, hvl, hreq⟩
    refine ⟨hcn, hun, fun e he => ?_, hreq⟩
    obtain ⟨allowed, hlk, hgd⟩ := hvl e he
    exact (checkParam_ok_iff (hkn _ (mem_keys_of_lookup hlk))).mpr ⟨allowed, hlk, hgd⟩

theorem checkIdentity_ok_iff {seen seen'} {i : ℕ} {id : String} {params} :
    checkIdentity seen i id params = .ok seen' ↔
      identity id params ∉ seen ∧ seen' = identity id params :: seen := by
  rw [checkIdentity, ite_error_ok_iff]
  simp [eq_comm]

theorem checkItem_ok_iff {seenInstance seenIdentity seen} {i : ℕ} {it} :
    checkItem quote dashboardColumns seenInstance seenIdentity i it = .ok seen ↔
      ItemAccepted it ∧ it.instanceId ∉ seenInstance ∧ itemIdentity it ∉ seenIdentity ∧
        seen = itemIdentity it :: seenIdentity := by
  constructor
  · intro h
    obtain ⟨hin, h⟩ := guard_eq_ok.mp h
    obtain ⟨hfs, h⟩ := guard_eq_ok.mp h
    obtain ⟨hid, h⟩ := guard_eq_ok.mp h
    cases hsp : allowedWidgets.find? (·.id = it.id) with
    | none =>
      rw [hsp] at h
      cases h
    | some spec =>
      rw [hsp] at h
      obtain ⟨⟨⟩, hgm, h⟩ := except_bind_eq_ok.mp h
      obtain ⟨⟨⟩, hpr, hi⟩ := except_bind_eq_ok.mp h
      obtain ⟨hnew, hsn⟩ := checkIdentity_ok_iff.mp (mapError_eq_ok.mp hi)
      have hkn := known_of_allowed (mem_of_find?_eq_some hsp)
      rw [runeCountInString_eq, not_or, not_or] at hin
      rw [runeCountInString_eq] at hid
      exact ⟨
        { instanceNe := hin.1
          instanceLen := not_lt.mp hin.2.1
          instanceShape := not_not.mp hin.2.2
          idLen := not_lt.mp hid
          widget := ⟨spec, hsp, checkGeometry_ok_iff.mp (mapError_eq_ok.mp hgm),
            (checkParams_accepted_iff hkn).mp (mapError_eq_ok.mp hpr)⟩ },
        hfs, hnew, hsn⟩
  · rintro ⟨hit, hfs, hnew, hsn⟩
    obtain ⟨spec, hsp, hft, hpr⟩ := hit.widget
    have hkn := known_of_allowed (mem_of_find?_eq_some hsp)
    refine guard_eq_ok.mpr ⟨?_, guard_eq_ok.mpr ⟨hfs, guard_eq_ok.mpr ⟨?_, ?_⟩⟩⟩
    · rw [runeCountInString_eq, not_or, not_or]
      exact ⟨hit.instanceNe, not_lt.mpr hit.instanceLen, not_not.mpr hit.instanceShape⟩
    · rw [runeCountInString_eq]
      exact not_lt.mpr hit.idLen
    · rw [hsp]
      exact except_bind_eq_ok.mpr ⟨(), mapError_eq_ok.mpr (checkGeometry_ok_iff.mpr hft),
        except_bind_eq_ok.mpr ⟨(), mapError_eq_ok.mpr ((checkParams_accepted_iff hkn).mpr hpr),
          mapError_eq_ok.mpr (checkIdentity_ok_iff.mpr ⟨hnew, hsn⟩)⟩⟩

theorem checkEachItem_ok_iff {items} :
    ∀ {seenInstance : List String} {seenIdentity : List Bytes} {i : ℕ},
      checkEachItem quote dashboardColumns seenInstance seenIdentity i items = .ok () ↔
        (∀ it ∈ items, ItemAccepted it ∧ it.instanceId ∉ seenInstance ∧
          itemIdentity it ∉ seenIdentity) ∧
        (items.map LayoutItem.instanceId).Nodup ∧ (items.map itemIdentity).Nodup := by
  induction items with
  | nil => simp [checkEachItem]
  | cons it items ih =>
    intro seenInstance seenIdentity i
    rw [checkEachItem, except_bind_eq_ok, forall_mem_cons]
    simp only [checkItem_ok_iff, ih, map_cons, nodup_cons, mem_map, mem_cons,
      not_or, not_exists, not_and]
    constructor
    · rintro ⟨_, ⟨hit, hfs, hnew, rfl⟩, hrs, hins, hide⟩
      refine ⟨⟨⟨hit, hfs, hnew⟩, fun it' hmem => ?_⟩, ⟨fun it' hmem => ?_, hins⟩,
        fun it' hmem => ?_, hide⟩
      · obtain ⟨hit', hfs', hnew'⟩ := hrs it' hmem
        exact ⟨hit', hfs'.2, (ne_and_not_mem_of_not_mem_cons hnew').2⟩
      · exact (hrs it' hmem).2.1.1
      · exact (ne_and_not_mem_of_not_mem_cons (hrs it' hmem).2.2).1
    · rintro ⟨⟨⟨hit, hfs, hnew⟩, hrs⟩, ⟨hin, hins⟩, hi, hide⟩
      refine ⟨_, ⟨hit, hfs, hnew, rfl⟩, fun it' hmem => ?_, hins, hide⟩
      obtain ⟨hit', hfs', hnew'⟩ := hrs it' hmem
      exact ⟨hit', ⟨hin it' hmem, hfs'⟩,
        not_mem_cons_of_ne_of_not_mem (hi it' hmem) hnew'⟩

theorem validateDashboardLayout_ok_iff {raw v} :
    validateDashboardLayout quote raw = .ok v ↔ raw = some v.1 ∧ v.2 = v.1.json ∧ v.1.Accepted := by
  constructor
  · intro h
    cases raw with
    | none => cases h
    | some cfg =>
      obtain ⟨hver, h⟩ := guard_eq_ok.mp h
      obtain ⟨hsc, h⟩ := guard_eq_ok.mp h
      obtain ⟨hcl, h⟩ := guard_eq_ok.mp h
      obtain ⟨hcn, h⟩ := guard_eq_ok.mp h
      obtain ⟨⟨⟩, hite, h⟩ := except_bind_eq_ok.mp h
      obtain ⟨⟨⟩, hap, h⟩ := except_bind_eq_ok.mp h
      cases h
      have hcl := not_not.mp hcl
      rw [hcl, checkEachItem_ok_iff] at hite
      exact ⟨rfl, rfl,
        { version := not_not.mp hver
          scope := not_not.mp hsc
          columns := hcl
          count := not_lt.mp hcn
          items := fun it hit => (hite.1 it hit).1
          instances := hite.2.1
          identities := hite.2.2
          apart := checkOverlap_ok_iff.mp (mapError_eq_ok.mp hap) }⟩
  · obtain ⟨cfg, normalized⟩ := v
    rintro ⟨hraw, hnr, hcfg⟩
    dsimp only at hraw hnr hcfg
    subst hraw hnr
    refine guard_eq_ok.mpr ⟨not_not.mpr hcfg.version, guard_eq_ok.mpr ⟨not_not.mpr hcfg.scope,
      guard_eq_ok.mpr ⟨not_not.mpr hcfg.columns, guard_eq_ok.mpr ⟨not_lt.mpr hcfg.count, ?_⟩⟩⟩⟩
    refine except_bind_eq_ok.mpr ⟨(), ?_, except_bind_eq_ok.mpr
      ⟨(), mapError_eq_ok.mpr (checkOverlap_ok_iff.mpr hcfg.apart), rfl⟩⟩
    rw [hcfg.columns, checkEachItem_ok_iff]
    exact ⟨fun it hit => ⟨hcfg.items it hit, by simp, by simp⟩, hcfg.instances, hcfg.identities⟩

end

end KubeCenter.Preferences
