import KubeCenter.Lib.Control
import KubeCenter.Lib.Reactive
import KubeCenter.Dashboard.Placement

/-! # The dashboard's layout store

`layout-store.ts`: the module's variables, and `loadLayout` and `saveLayout` cut at their `await`.
The rest of a call, known by its number, runs when its request settles. The client may repeat a
PUT, unchanged, once it renewed the session. Widget registry and shipped layouts are parameters. -/
namespace KubeCenter.Dashboard
open Lib List

inductive DashboardScope where
  | overview
deriving DecidableEq

structure DashboardLayoutConfig where
  schemaVersion : Int := 1
  scope : DashboardScope := .overview
  columns : Int := 12
  items : List LayoutItem
deriving DecidableEq

/-! ## What a response becomes -/

def missingParamKeys (declared : Option (List String)) (values : List (String × String)) :
    List String :=
  match declared with
  | none => []
  | some keys => keys.filter fun k => (values.lookup k).getD "" = ""

/-- `Set.add`: the order is that of the first encounter. -/
def addOnce (ids : List String) (id : String) : List String := if id ∈ ids then ids else ids ++ [id]

structure DroppedLayout where
  config : DashboardLayoutConfig
  warnings : List String
deriving DecidableEq

structure Dropping where
  kept : List LayoutItem := []
  missing : List String := []
  unfilled : List String := []

section Responses

variable (getWidget : String → Option WidgetDef)
variable (defaultLayoutFor : DashboardScope → DashboardLayoutConfig)

def dropItem (d : Dropping) (it : LayoutItem) : Dropping :=
  match getWidget it.id with
  | none => { d with missing := addOnce d.missing it.id }
  | some w =>
    if (missingParamKeys w.params (it.params.getD [])).length > 0 then
      { d with unfilled := addOnce d.unfilled it.id }
    else { d with kept := d.kept ++ [it] }

def dropUnknownWidgets (config : DashboardLayoutConfig) : DroppedLayout :=
  let d := config.items.foldl (dropItem getWidget) {}
  { config := { config with items := d.kept }
    warnings :=
      d.missing.map (fun id => "Removed \"" ++ id ++
        "\" from this dashboard: this build has no such widget.") ++
      d.unfilled.map fun id => "Removed \"" ++ id ++
        "\" from this dashboard: it was stored without the values it needs." }

/-- The build has the widget, and the placement the values it needs. -/
def renderable (it : LayoutItem) : Bool :=
  match getWidget it.id with
  | none => false
  | some w => (missingParamKeys w.params (it.params.getD [])).length = 0

/-- What the loop has made of the placements so far. -/
structure Sifted (items : List LayoutItem) (d : Dropping) : Prop where
  kept : d.kept = items.filter (renderable getWidget)
  missing : ∀ id, id ∈ d.missing ↔ ∃ it ∈ items, it.id = id ∧ getWidget id = none
  unfilled : ∀ id, id ∈ d.unfilled ↔
    ∃ it ∈ items, it.id = id ∧ getWidget id ≠ none ∧ renderable getWidget it = false
  missing_nodup : d.missing.Nodup
  unfilled_nodup : d.unfilled.Nodup

theorem Sifted.dropItem {items d} (h : Sifted getWidget items d) (it : LayoutItem) :
    Sifted getWidget (items ++ [it]) (dropItem getWidget d it) := by
  obtain ⟨kept, missing, unfilled, hm, hu⟩ := h
  unfold Dashboard.dropItem
  cases hw : getWidget it.id with
  | none => refine ⟨?_, ?_, ?_, ?_, hu⟩ <;> grind [renderable, addOnce]
  | some w =>
    dsimp only
    split <;> refine ⟨?_, ?_, ?_, ?_, ?_⟩ <;> grind [renderable, addOnce]

theorem removed_injective (reason : String) :
    Function.Injective fun id : String => "Removed \"" ++ id ++ reason := by
  intro a b h
  simpa [String.ext_iff] using h

/-- A dashboard is loaded with the placements that can be rendered, and says once of each other
widget why it is not. -/
theorem dropUnknownWidgets_exact (config : DashboardLayoutConfig) :
    let out := dropUnknownWidgets getWidget config
    ∃ d, Sifted getWidget config.items d ∧ out.config = { config with items := d.kept } ∧
      out.warnings = d.missing.map (fun id => "Removed \"" ++ id ++
          "\" from this dashboard: this build has no such widget.") ++
        d.unfilled.map (fun id => "Removed \"" ++ id ++
          "\" from this dashboard: it was stored without the values it needs.") ∧
      out.warnings.Nodup := by
  have hstart : Sifted getWidget [] {} := ⟨rfl, by simp, by simp, nodup_nil, nodup_nil⟩
  have hd : Sifted getWidget config.items (config.items.foldl (dropItem getWidget) {}) :=
    foldl_inv (fun done it d h => h.dropItem getWidget it) hstart
  refine ⟨_, hd, rfl, rfl, nodup_append.mpr ⟨?_, ?_, ?_⟩⟩
  · exact hd.missing_nodup.map (removed_injective _)
  · exact hd.unfilled_nodup.map (removed_injective _)
  · intro t ht t' ht' heq
    obtain ⟨a, -, rfl⟩ := mem_map.mp ht
    obtain ⟨b, -, rfl⟩ := mem_map.mp ht'
    have hlast := congrArg (fun s : String => s.toList.reverse.take 2) heq
    simp at hlast

structure LayoutResponse where
  revision : ℕ
  config : DashboardLayoutConfig
  withheld : Option (List String) := none
deriving DecidableEq

structure LoadedLayout where
  config : DashboardLayoutConfig
  revision : ℕ
  withheld : List String
  warnings : List String
deriving DecidableEq

/-- `none` is the 204. -/
def layoutFromResponse (res : Option LayoutResponse) (scope : DashboardScope) : LoadedLayout :=
  match res with
  | none => ⟨defaultLayoutFor scope, 0, [], []⟩
  | some r =>
    let dropped := dropUnknownWidgets getWidget r.config
    ⟨dropped.config, r.revision, r.withheld.getD [], dropped.warnings⟩

end Responses

inductive PreferenceReason where
  | databaseUnavailable
  | invalidConfig
  | unknownResourceKind
  | unsupportedSchemaVersion
  | duplicateName
  | alreadyPinned
  | limitReached
  | revisionConflict
  | invalidName
  | identityTooLong
  | unknownWidgetId
deriving DecidableEq

def PreferenceReason.code : PreferenceReason → String
  | .databaseUnavailable => "database_unavailable"
  | .invalidConfig => "invalid_config"
  | .unknownResourceKind => "unknown_resource_kind"
  | .unsupportedSchemaVersion => "unsupported_schema_version"
  | .duplicateName => "duplicate_name"
  | .alreadyPinned => "already_pinned"
  | .limitReached => "limit_reached"
  | .revisionConflict => "revision_conflict"
  | .invalidName => "invalid_name"
  | .identityTooLong => "identity_too_long"
  | .unknownWidgetId => "unknown_widget_id"

def preferenceReasons : List PreferenceReason :=
  [.databaseUnavailable, .invalidConfig, .unknownResourceKind, .unsupportedSchemaVersion,
    .duplicateName, .alreadyPinned, .limitReached, .revisionConflict, .invalidName,
    .identityTooLong, .unknownWidgetId]

def preferenceReason (reason : Option String) : Option PreferenceReason :=
  reason.bind fun r => preferenceReasons.find? (·.code = r)

inductive LayoutUnavailable where
  | reason (r : PreferenceReason)
  | unknown
deriving DecidableEq

/-! ## The module's variables -/

structure LayoutObservation where
  scope : DashboardScope
  cluster : String
deriving DecidableEq

structure LayoutStore where
  layout : DashboardLayoutConfig
  layoutLoaded : Bool := false
  layoutUnavailable : Option LayoutUnavailable := none
  layoutRevision : ℕ := 0
  layoutWithheld : List String := []
  layoutWarnings : List String := []
  observed : Option LayoutObservation := none
  commitSeq : ℕ := 0
deriving DecidableEq

inductive LayoutError where
  | withheldLayout (withheld : List String)
  | staleLayoutScope (requestedScope : DashboardScope) (requestedCluster : String)
      (observed : Option LayoutObservation)
deriving DecidableEq

def DashboardScope.text : DashboardScope → String
  | .overview => "overview"

def LayoutError.message : LayoutError → String
  | .withheldLayout withheld =>
    "refusing to save: the server withheld " ++ toString withheld.length ++
      " placement(s) from this layout (" ++ ", ".intercalate withheld ++
      "), and saving it now would delete them permanently"
  | .staleLayoutScope scope cluster observed =>
    "refusing to save scope \"" ++ scope.text ++ "\" on cluster \"" ++ cluster ++
      "\": the store describes " ++
      (match observed with
        | none => "no completed load"
        | some o => "scope \"" ++ o.scope.text ++ "\" on cluster \"" ++ o.cluster ++ "\"") ++
      ", so its revision and withheld list do not describe what is being written"

def LayoutStore.applyLoaded (s : LayoutStore) (loaded : LoadedLayout)
    (observed : LayoutObservation) : LayoutStore where
  layout := loaded.config
  layoutLoaded := true
  layoutUnavailable := none
  layoutRevision := loaded.revision
  layoutWithheld := loaded.withheld
  layoutWarnings := loaded.warnings
  observed := some observed
  commitSeq := s.commitSeq + 1

def LayoutStore.failLoad (s : LayoutStore) (reason : Option String) : LayoutStore :=
  { s with
    layoutUnavailable := some (((preferenceReason reason).map .reason).getD .unknown)
    layoutLoaded := true
    observed := none }

def LayoutStore.applySaved (s : LayoutStore) (config : DashboardLayoutConfig)
    (saved : LayoutResponse) (observed : LayoutObservation) : LayoutStore :=
  { s with
    commitSeq := s.commitSeq + 1
    observed := some observed
    layout := config
    layoutRevision := saved.revision
    layoutLoaded := true
    layoutUnavailable := none }

/-! ## The page -/

/-- A `loadLayout` at its `await`; `call` is also its controller. -/
structure LayoutRead where
  call : ℕ
  scope : DashboardScope
  startedAt : ℕ
deriving DecidableEq

structure LayoutSave where
  call : ℕ
  scope : DashboardScope
  cluster : String
  config : DashboardLayoutConfig
deriving DecidableEq

structure Page where
  store : LayoutStore
  selectedCluster : String
  inFlight : Option ℕ := none
  aborted : List ℕ := []
  reads : List LayoutRead := []
  saves : List LayoutSave := []
  calls : ℕ := 0
deriving DecidableEq

/-- How the GET of a read settles; a config that is not a layout is a failure, too. -/
inductive ReadOutcome where
  | answer (res : Option LayoutResponse)
  | failure (reason : Option String)
  | abortError
deriving DecidableEq

inductive SaveOutcome where
  | answer (saved : LayoutResponse)
  | failure
deriving DecidableEq

inductive PageAction where
  | selectCluster (cluster : String)
  | loadLayout (scope : DashboardScope) (aborted : Bool)
  | abort (call : ℕ)
  | readSettles (call : ℕ) (outcome : ReadOutcome)
  | saveLayout (scope : DashboardScope) (config : DashboardLayoutConfig)
  | saveSettles (call : ℕ) (outcome : SaveOutcome)
deriving DecidableEq

inductive PageEvent where
  | idle
  | readStarted (call : ℕ)
  | readApplied (call : ℕ) (loaded : LoadedLayout)
  | readFailed (call : ℕ)
  | readDiscarded (call : ℕ)
  | putSent (call revision : ℕ) (config : DashboardLayoutConfig)
  | saveRefused (err : LayoutError)
  | saveApplied (call : ℕ) (saved : LayoutResponse)
  | saveFailed (call : ℕ)
deriving DecidableEq

namespace Page

/-- `loadLayout` up to its request. The load in flight is aborted. -/
def loadLayout (p : Page) (scope : DashboardScope) (aborted : Bool) : PageEvent × Page :=
  if aborted then (.idle, p)
  else
    (.readStarted p.calls, { p with
        aborted := p.inFlight.toList ++ p.aborted
        inFlight := some p.calls
        reads := ⟨p.calls, scope, p.store.commitSeq⟩ :: p.reads
        calls := p.calls + 1 })

def readDone (p : Page) (call : ℕ) : Page :=
  { p with
    reads := p.reads.filter (·.call ≠ call)
    inFlight := if p.inFlight = some call then none else p.inFlight }

def saveDone (p : Page) (call : ℕ) : Page := { p with saves := p.saves.filter (·.call ≠ call) }

section Settling

variable (getWidget : String → Option WidgetDef)
variable (defaultLayoutFor : DashboardScope → DashboardLayoutConfig)

def readSettles (p : Page) (r : LayoutRead) (outcome : ReadOutcome) : PageEvent × Page :=
  let done := p.readDone r.call
  if r.call ∈ p.aborted then (.readDiscarded r.call, done)
  else match outcome with
  | .answer res =>
    if p.store.commitSeq ≠ r.startedAt then (.readDiscarded r.call, done)
    else
      let loaded := layoutFromResponse getWidget defaultLayoutFor res r.scope
      (.readApplied r.call loaded,
        { done with store := p.store.applyLoaded loaded ⟨r.scope, p.selectedCluster⟩ })
  | .failure reason =>
    if p.store.commitSeq ≠ r.startedAt then (.readDiscarded r.call, done)
    else (.readFailed r.call, { done with store := p.store.failLoad reason })
  | .abortError => (.readDiscarded r.call, done)

def saveLayout (p : Page) (scope : DashboardScope) (config : DashboardLayoutConfig) :
    PageEvent × Page :=
  let cluster := p.selectedCluster
  if p.store.observed ≠ some ⟨scope, cluster⟩ then
    (.saveRefused (.staleLayoutScope scope cluster p.store.observed), p)
  else if p.store.layoutWithheld.length > 0 then
    (.saveRefused (.withheldLayout p.store.layoutWithheld), p)
  else
    (.putSent p.calls p.store.layoutRevision config,
      { p with saves := ⟨p.calls, scope, cluster, config⟩ :: p.saves, calls := p.calls + 1 })

def saveSettles (p : Page) (sv : LayoutSave) : SaveOutcome → PageEvent × Page
  | .answer saved =>
    (.saveApplied sv.call saved, { p.saveDone sv.call with
        store := p.store.applySaved sv.config saved ⟨sv.scope, sv.cluster⟩ })
  | .failure =>
    (.saveFailed sv.call, { p.saveDone sv.call with store := { p.store with observed := none } })

def react (p : Page) : PageAction → PageEvent × Page
  | .selectCluster cluster => (.idle, { p with selectedCluster := cluster })
  | .loadLayout scope aborted => p.loadLayout scope aborted
  | .abort call =>
    if p.reads.any (·.call = call) then (.idle, { p with aborted := call :: p.aborted })
    else (.idle, p)
  | .readSettles call outcome =>
    match p.reads.find? (·.call = call) with
    | none => (.idle, p)
    | some r => p.readSettles getWidget defaultLayoutFor r outcome
  | .saveLayout scope config => p.saveLayout scope config
  | .saveSettles call outcome =>
    match p.saves.find? (·.call = call) with
    | none => (.idle, p)
    | some sv => p.saveSettles sv outcome

end Settling

end Page

def page (getWidget : String → Option WidgetDef)
    (defaultLayoutFor : DashboardScope → DashboardLayoutConfig) (cluster : String) :
    Reactive Page PageAction PageEvent where
  init := { store := { layout := defaultLayoutFor .overview }, selectedCluster := cluster }
  react := Page.react getWidget defaultLayoutFor

end KubeCenter.Dashboard
