import KubeCenter.Lib.Calls
import KubeCenter.Lib.Reactive

/-! # Saved preferences

The store of `preferences.go` and the handlers of `handler.go` that write to it. Every statement is
one step on the rows committed when it runs. A create is a transaction that holds an advisory lock,
known by a hash, to its end; a statement that would collide with its pending row waits. The reply to
the commit of a create may be lost. The reply to an UPDATE or a DELETE is assumed to arrive: one
that fails has changed nothing. -/
namespace KubeCenter.Preferences
open Lib

inductive PreferenceKind where
  | savedView
  | pin
  | dashboardLayout
deriving DecidableEq

def PreferenceKind.text : PreferenceKind → String
  | .savedView => "saved_view"
  | .pin => "pin"
  | .dashboardLayout => "dashboard_layout"

/-- The columns of `idx_user_preferences_dedup`. -/
structure PreferenceKey where
  ownerID : String
  kind : PreferenceKind
  clusterID : String
  dedupKey : String
deriving DecidableEq

/-- What an `INSERT` is given. -/
structure NewPreference (κ : Type) where
  ownerID : String
  kind : PreferenceKind
  name : String
  clusterID : String
  dedupKey : String
  schemaVersion : ℕ
  config : κ
deriving DecidableEq

structure PreferenceRecord (κ : Type) extends NewPreference κ where
  id : ℕ
  revision : ℕ
deriving DecidableEq

def NewPreference.key {κ : Type} (r : NewPreference κ) : PreferenceKey :=
  ⟨r.ownerID, r.kind, r.clusterID, r.dedupKey⟩

/-! ## What the handlers answer -/

def savedViewSchemaVersion : ℕ := 1
def pinSchemaVersion : ℕ := 1
def dashboardLayoutSchemaVersion : ℕ := 1

def maxSavedViewsPerUser : ℕ := 100
def maxPinsPerUser : ℕ := 200

def allowedDashboardScopes : List String := ["overview"]

def maxDashboardLayoutsPerUser : ℕ := allowedDashboardScopes.length

/-- The ceilings a handler overrides, where they are not zero. -/
structure Handler where
  maxSavedViews : ℕ := 0
  maxPins : ℕ := 0
  maxLayouts : ℕ := 0
deriving DecidableEq

def Handler.savedViewCeiling (h : Handler) : ℕ :=
  if h.maxSavedViews > 0 then h.maxSavedViews else maxSavedViewsPerUser

def Handler.pinCeiling (h : Handler) : ℕ := if h.maxPins > 0 then h.maxPins else maxPinsPerUser

def Handler.layoutCeiling (h : Handler) : ℕ :=
  if h.maxLayouts > 0 then h.maxLayouts else maxDashboardLayoutsPerUser

structure ErrorReply where
  status : ℕ
  message : String
  reason : String := ""
  limit : Option ℕ := none
deriving DecidableEq

structure ValidationError where
  reason : String
  message : String
deriving DecidableEq

/-- `writeValidationError`. -/
def ValidationError.reply (e : ValidationError) : ErrorReply :=
  ⟨if e.reason = "identity_too_long" then 422 else 400, e.message, e.reason, none⟩

inductive StoreError where
  | notFound
  | conflict
  | duplicate
  | limit
  /-- Any other error of the database. -/
  | failed
deriving DecidableEq

def mapStoreError (dupReason : String) (limit : ℕ) : StoreError → ErrorReply
  | .notFound => ⟨404, "preference not found", "", none⟩
  | .conflict => ⟨409, "this record changed since you loaded it", "revision_conflict", none⟩
  | .duplicate =>
    let reason := if dupReason = "" then "duplicate_name" else dupReason
    let message :=
      if reason = "already_pinned" then "this resource is already pinned"
      else "a saved view with this name already exists"
    ⟨409, message, reason, none⟩
  | .limit =>
    ⟨409, "you have reached the maximum number of saved preferences", "limit_reached", some limit⟩
  | .failed => ⟨500, "failed to store preference", "", none⟩

/-- `writeLayoutConflict`. -/
def layoutConflict : ErrorReply :=
  ⟨409, "this dashboard layout changed since you loaded it; reload before saving",
    "revision_conflict", none⟩

def mapLayoutError (h : Handler) : StoreError → ErrorReply
  | .conflict => layoutConflict
  | .duplicate => layoutConflict
  | .notFound => layoutConflict
  | e => mapStoreError "" h.layoutCeiling e

/-! ## Requests -/

/-- The validators as the handlers use them. A pin comes with its dedup key, a layout with its
scope; `quote` is `%q`. -/
structure Rules (β κ : Type) where
  quote : String → String
  validateOwnerID : String → Except ValidationError Unit
  validateRecordName : String → Except ValidationError Unit
  validateDedupKey : String → Except ValidationError Unit
  validateSavedView : β → Except ValidationError κ
  validatePin : β → Except ValidationError (String × κ)
  validateDashboardLayout : β → Except ValidationError (String × κ)
  savedViewDedupKey : String → String

/-- A decoded request, with the owner and the cluster the server derived. -/
inductive PrefRequest (β : Type) where
  | saveLayout (ownerID clusterID scope : String) (revision : Int) (config : β)
  | createView (ownerID clusterID name : String) (config : β)
  | createPin (ownerID clusterID name : String) (config : β)
  | updateView (ownerID : String) (id : ℕ) (name : String) (revision : Int) (config : β)
  | deleteView (ownerID : String) (id : ℕ)
  | deletePin (ownerID : String) (id : ℕ)
deriving DecidableEq

def PrefRequest.ownerID {β : Type} : PrefRequest β → String
  | .saveLayout ownerID _ _ _ _ => ownerID
  | .createView ownerID _ _ _ => ownerID
  | .createPin ownerID _ _ _ => ownerID
  | .updateView ownerID _ _ _ _ => ownerID
  | .deleteView ownerID _ => ownerID
  | .deletePin ownerID _ => ownerID

/-- What a handler makes of an error of its store call. -/
def PrefRequest.storeError {β : Type} (h : Handler) : PrefRequest β → StoreError → ErrorReply
  | .saveLayout _ _ _ _ _ => mapLayoutError h
  | .createView _ _ _ _ => mapStoreError "duplicate_name" h.savedViewCeiling
  | .createPin _ _ _ _ => mapStoreError "already_pinned" h.pinCeiling
  | .updateView _ _ _ _ _ => mapStoreError "duplicate_name" h.savedViewCeiling
  | .deleteView _ _ => mapStoreError "" 0
  | .deletePin _ _ => mapStoreError "" 0

structure LayoutSave (κ : Type) where
  ownerID : String
  clusterID : String
  scope : String
  revision : Int
  config : κ
deriving DecidableEq

/-- The arguments of `create`. -/
structure Creation (κ : Type) where
  record : NewPreference κ
  maxPerKind : ℕ
  perCluster : Bool
deriving DecidableEq

/-- The arguments of `Update`, but for the owner. -/
structure Revision (κ : Type) where
  id : ℕ
  expectedRevision : Int
  name : String
  dedupKey : String
  schemaVersion : ℕ
  config : κ
deriving DecidableEq

def dashboardLayoutDedupKey (scope : String) : String := scope

def createLayout {κ : Type} (h : Handler) (l : LayoutSave κ) : Creation κ where
  record :=
    { ownerID := l.ownerID
      kind := .dashboardLayout
      name := l.scope
      clusterID := l.clusterID
      dedupKey := dashboardLayoutDedupKey l.scope
      schemaVersion := dashboardLayoutSchemaVersion
      config := l.config }
  maxPerKind := h.layoutCeiling
  perCluster := true

def replaceLayout {κ : Type} (l : LayoutSave κ) (id : ℕ) : Revision κ :=
  ⟨id, l.revision, l.scope, dashboardLayoutDedupKey l.scope, dashboardLayoutSchemaVersion, l.config⟩

/-- Where a create stands in its transaction. -/
inductive CreatePhase where
  | lock
  | insert
  | classify
  | commit
deriving DecidableEq

inductive PrefStage (κ : Type) where
  | readLayout (l : LayoutSave κ)
  | requireKind (id : ℕ) (want : PreferenceKind)
  | create (phase : CreatePhase) (c : Creation κ)
  | update (u : Revision κ)
  | classifyUpdate (id : ℕ)
  | delete (id : ℕ)
deriving DecidableEq

section

variable {β κ : Type}

def check {α : Type} (r : Except ValidationError α) : Except ErrorReply α :=
  r.mapError ValidationError.reply

def accept (rules : Rules β κ) (h : Handler) (req : PrefRequest β) :
    Except ErrorReply (PrefStage κ) := do
  check (rules.validateOwnerID req.ownerID)
  match req with
  | .saveLayout ownerID clusterID scope revision config =>
    if scope ∉ allowedDashboardScopes then
      throw ⟨400, "unsupported dashboard scope " ++ rules.quote scope, "invalid_config", none⟩
    if revision < 0 then throw ⟨400, "revision cannot be negative", "invalid_config", none⟩
    let (cfgScope, normalized) ← check (rules.validateDashboardLayout config)
    if cfgScope ≠ scope then
      throw ⟨400, "config is for scope " ++ rules.quote cfgScope ++ " but the path asked for " ++
        rules.quote scope, "invalid_config", none⟩
    check (rules.validateDedupKey (dashboardLayoutDedupKey scope))
    return .readLayout ⟨ownerID, clusterID, scope, revision, normalized⟩
  | .createView ownerID clusterID name config =>
    check (rules.validateRecordName name)
    let normalized ← check (rules.validateSavedView config)
    check (rules.validateDedupKey (rules.savedViewDedupKey name))
    return .create .lock
      { record := ⟨ownerID, .savedView, name, clusterID, rules.savedViewDedupKey name,
          savedViewSchemaVersion, normalized⟩
        maxPerKind := h.savedViewCeiling
        perCluster := false }
  | .createPin ownerID clusterID name config =>
    check (rules.validateRecordName name)
    let (dedupKey, normalized) ← check (rules.validatePin config)
    check (rules.validateDedupKey dedupKey)
    return .create .lock
      { record := ⟨ownerID, .pin, name, clusterID, dedupKey, pinSchemaVersion, normalized⟩
        maxPerKind := h.pinCeiling
        perCluster := false }
  | .updateView _ id _ _ _ => return .requireKind id .savedView
  | .deleteView _ id => return .requireKind id .savedView
  | .deletePin _ id => return .requireKind id .pin

/-- A handler between `requireKind` and its write. -/
def proceed (rules : Rules β κ) (id : ℕ) (req : PrefRequest β) : Except ErrorReply (PrefStage κ) :=
  match req with
  | .updateView _ id name revision config => do
    check (rules.validateRecordName name)
    if revision < 1 then throw ⟨400, "revision is required", "invalid_config", none⟩
    let normalized ← check (rules.validateSavedView config)
    check (rules.validateDedupKey (rules.savedViewDedupKey name))
    return .update ⟨id, revision, name, rules.savedViewDedupKey name, savedViewSchemaVersion,
      normalized⟩
  | _ => return .delete id

/-! ## Statements -/

def getByDedupKey (rows : List (PreferenceRecord κ)) (key : PreferenceKey) :
    Option (PreferenceRecord κ) :=
  rows.find? (·.key = key)

def get (rows : List (PreferenceRecord κ)) (ownerID : String) (id : ℕ) :
    Option (PreferenceRecord κ) :=
  rows.find? fun r => r.ownerID = ownerID ∧ r.id = id

def Creation.lockKey (c : Creation κ) : String :=
  let lockKey := c.record.ownerID ++ ":" ++ c.record.kind.text
  if c.perCluster then lockKey ++ ":" ++ c.record.clusterID else lockKey

def Creation.counts (c : Creation κ) (r : PreferenceRecord κ) : Bool :=
  r.ownerID = c.record.ownerID && r.kind = c.record.kind &&
    (!c.perCluster || r.clusterID = c.record.clusterID)

/-- The row an `UPDATE` leaves. -/
def Revision.apply (u : Revision κ) (r : PreferenceRecord κ) : PreferenceRecord κ :=
  { r with
    name := u.name
    dedupKey := u.dedupKey
    schemaVersion := u.schemaVersion
    config := u.config
    revision := r.revision + 1 }

/-- The row an `UPDATE` is for. -/
def Revision.find (u : Revision κ) (ownerID : String) (rows : List (PreferenceRecord κ)) :
    Option (PreferenceRecord κ) :=
  rows.find? fun r => r.id = u.id ∧ r.ownerID = ownerID ∧ (r.revision : Int) = u.expectedRevision

/-! ## The server -/

structure PrefCall (β κ : Type) where
  request : PrefRequest β
  stage : PrefStage κ
deriving DecidableEq

structure PrefServer (β κ : Type) where
  rows : List (PreferenceRecord κ) := []
  nextID : ℕ := 0
  calls : ℕ → Option (PrefCall β κ) := fun _ => none
  locks : ℕ → Option ℕ := fun _ => none
  started : ℕ := 0

inductive PrefAction (β : Type) where
  | request (req : PrefRequest β)
  /-- The next statement of a call, where it can run. -/
  | step (call : ℕ)
  /-- The statement fails. A commit that fails has written its row or not, any other statement that
  fails has not. -/
  | fail (call : ℕ) (written : Bool)
deriving DecidableEq

inductive Answer (κ : Type) where
  | created (r : PreferenceRecord κ)
  | updated (r : PreferenceRecord κ)
  | deleted
  | refused (e : ErrorReply)
  /-- The commit failed. -/
  | unsure (e : ErrorReply)
deriving DecidableEq

inductive PrefEvent (β κ : Type) where
  | idle
  | started (call : ℕ) (req : PrefRequest β)
  | answered (call : ℕ) (req : PrefRequest β) (answer : Answer κ)
deriving DecidableEq

def PrefStage.pending : PrefStage κ → Option (Creation κ)
  | .create .commit c => some c
  | _ => none

namespace PrefServer

variable (rules : Rules β κ) (h : Handler) (hash : String → ℕ) (s : PrefServer β κ) (k : ℕ)
  (c : PrefCall β κ)

def isPending (key : PreferenceKey) : Bool :=
  (List.range s.started).any fun k => ((s.calls k).bind (·.stage.pending)).any (·.record.key = key)

def goto (stage : PrefStage κ) : PrefServer β κ :=
  { s with calls := Function.update s.calls k (some { c with stage }) }

def finish : PrefServer β κ :=
  { s with calls := Function.update s.calls k none, locks := unlock s.locks k }

def start (req : PrefRequest β) (stage : PrefStage κ) : PrefServer β κ :=
  { s with
    started := s.started + 1
    calls := Function.update s.calls s.started (some ⟨req, stage⟩) }

def refuse (e : ErrorReply) : PrefEvent β κ × PrefServer β κ :=
  (.answered k c.request (.refused e), s.finish k)

def newRow (r : NewPreference κ) : PreferenceRecord κ := { r with id := s.nextID, revision := 1 }

def insertRow (r : NewPreference κ) : PrefServer β κ :=
  { s with rows := s.rows ++ [s.newRow r], nextID := s.nextID + 1 }

def updateRow (u : Revision κ) : PrefServer β κ :=
  { s with rows := s.rows.map fun r => if r.id = u.id then u.apply r else r }

def deleteRow (id : ℕ) : PrefServer β κ := { s with rows := s.rows.filter (·.id ≠ id) }

/-- `HandleSaveLayout` once it has read the layout. -/
def readLayout (l : LayoutSave κ) : PrefEvent β κ × PrefServer β κ :=
  match getByDedupKey s.rows
    ⟨l.ownerID, .dashboardLayout, l.clusterID, dashboardLayoutDedupKey l.scope⟩ with
  | none =>
    if l.revision ≠ 0 then s.refuse k c layoutConflict
    else (.idle, s.goto k c (.create .lock (createLayout h l)))
  | some existing =>
    if l.revision = 0 then s.refuse k c layoutConflict
    else (.idle, s.goto k c (.update (replaceLayout l existing.id)))

def requireKind (id : ℕ) (want : PreferenceKind) : PrefEvent β κ × PrefServer β κ :=
  match get s.rows c.request.ownerID id with
  | none => s.refuse k c (mapStoreError "" 0 .notFound)
  | some r =>
    if r.kind ≠ want then s.refuse k c ⟨404, "preference not found", "", none⟩
    else
      match proceed rules id c.request with
      | .error e => s.refuse k c e
      | .ok stage => (.idle, s.goto k c stage)

def create (phase : CreatePhase) (cr : Creation κ) : PrefEvent β κ × PrefServer β κ :=
  match phase with
  | .lock =>
    if s.locks (hash cr.lockKey) = none then
      (.idle, { s with locks := Function.update s.locks (hash cr.lockKey) (some k) }.goto k c
        (.create .insert cr))
    else (.idle, s)
  | .insert =>
    if s.rows.countP cr.counts < cr.maxPerKind then
      if s.rows.any (·.key = cr.record.key) then
        s.refuse k c (c.request.storeError h .duplicate)
      else if s.isPending cr.record.key then (.idle, s)
      else (.idle, s.goto k c (.create .commit cr))
    else (.idle, s.goto k c (.create .classify cr))
  -- classifyFilteredInsert
  | .classify =>
    match getByDedupKey s.rows cr.record.key with
    | some _ => s.refuse k c (c.request.storeError h .duplicate)
    | none => s.refuse k c (c.request.storeError h .limit)
  | .commit =>
    (.answered k c.request (.created (s.newRow cr.record)), (s.insertRow cr.record).finish k)

def update (u : Revision κ) : PrefEvent β κ × PrefServer β κ :=
  match u.find c.request.ownerID s.rows with
  | none => (.idle, s.goto k c (.classifyUpdate u.id))
  | some r =>
    if s.rows.any fun r' => r'.id ≠ r.id ∧ r'.key = (u.apply r).key then
      s.refuse k c (c.request.storeError h .duplicate)
    else if s.isPending (u.apply r).key then (.idle, s)
    else (.answered k c.request (.updated (u.apply r)), (s.updateRow u).finish k)

/-- `classifyMissingUpdate`. -/
def classifyUpdate (id : ℕ) : PrefEvent β κ × PrefServer β κ :=
  match get s.rows c.request.ownerID id with
  | some _ => s.refuse k c (c.request.storeError h .conflict)
  | none => s.refuse k c (c.request.storeError h .notFound)

def delete (id : ℕ) : PrefEvent β κ × PrefServer β κ :=
  match get s.rows c.request.ownerID id with
  | none => s.refuse k c (c.request.storeError h .notFound)
  | some _ => (.answered k c.request .deleted, (s.deleteRow id).finish k)

def step : PrefEvent β κ × PrefServer β κ :=
  match c.stage with
  | .readLayout l => s.readLayout h k c l
  | .requireKind id want => s.requireKind rules k c id want
  | .create phase cr => s.create h hash k c phase cr
  | .update u => s.update h k c u
  | .classifyUpdate id => s.classifyUpdate h k c id
  | .delete id => s.delete h k c id

def fail (written : Bool) : PrefEvent β κ × PrefServer β κ :=
  match c.stage with
  | .create .commit cr =>
    (.answered k c.request (.unsure (c.request.storeError h .failed)),
      (if written then s.insertRow cr.record else s).finish k)
  | _ => s.refuse k c (c.request.storeError h .failed)

def react : PrefAction β → PrefEvent β κ × PrefServer β κ
  | .request req =>
    match accept rules h req with
    | .error e => (.answered s.started req (.refused e), { s with started := s.started + 1 })
    | .ok stage => (.started s.started req, s.start req stage)
  | .step k =>
    match s.calls k with
    | some c => s.step rules h hash k c
    | none => (.idle, s)
  | .fail k written =>
    match s.calls k with
    | some c => s.fail h k c written
    | none => (.idle, s)

end PrefServer

/-- The server on an empty table. `hash` is `hashtext`, and may collide. -/
def prefServer (rules : Rules β κ) (h : Handler) (hash : String → ℕ) :
    Reactive (PrefServer β κ) (PrefAction β) (PrefEvent β κ) where
  init := {}
  react := PrefServer.react rules h hash

end

end KubeCenter.Preferences
