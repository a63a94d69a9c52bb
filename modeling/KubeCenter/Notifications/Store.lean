import KubeCenter.Lib.Go
import Mathlib.Data.List.Sort

/-! # Notifications, channels and rules

`types.go` and `store.go` of the notifications package. A row gets its creation time from the
database when its transaction starts. -/
namespace KubeCenter.Notifications
open Lib.Go List

/-! ## Rows -/

inductive Source where
  | alert
  | policy
  | gitops
  | diagnostic
  | scan
  | cluster
  | audit
  | limits
  | velero
  | certManager
  | externalSecrets
deriving DecidableEq

inductive Severity where
  | info
  | warning
  | critical
deriving DecidableEq

structure Notification where
  source : Source
  severity : Severity
  title : String
  message : String
  resourceKind : String
  resourceNS : String
  resourceName : String
  resourceUID : String
  clusterID : String
deriving DecidableEq

/-- A row of `nc_notifications`. -/
structure Row where
  id : ℕ
  notification : Notification
  createdAt : Time
deriving DecidableEq

inductive ChannelType where
  | slack
  | email
  | webhook
  | mobilePush
deriving DecidableEq

/-- `none` is an item that is not a string. -/
inductive RecipientsValue where
  | absent
  | anys (items : List (Option String))
  | strings (items : List String)
  | other
deriving DecidableEq

structure Channel where
  id : ℕ
  type : ChannelType
  recipients : RecipientsValue
  lastSentAt : Option Time
deriving DecidableEq

structure Rule where
  channelID : ℕ
  enabled : Bool
  sourceFilter : List Source
  severityFilter : List Severity
deriving DecidableEq

def channelRecipients (ch : Channel) : List String :=
  match ch.recipients with
  | .absent => []
  | .anys items => items.filterMap fun item => item.filter (· ≠ "")
  | .strings items => items
  | .other => []

/-! ## Queries -/

/-- The conditions of `NotificationsSince`. An empty filter lets everything pass. -/
def matchesSince (since : Time) (namespaces : List String) (sourceFilter : List Source)
    (severityFilter : List Severity) (r : Row) : Bool :=
  since < r.createdAt && (namespaces.isEmpty || namespaces.contains r.notification.resourceNS ||
      r.notification.resourceNS = "") &&
    (sourceFilter.isEmpty || sourceFilter.contains r.notification.source) &&
    (severityFilter.isEmpty || severityFilter.contains r.notification.severity)

def maxSince : ℕ := 500

/-- `NotificationsSince`: the newest first, at most 500. -/
def notificationsSince (rows : List Row) (since : Time) (namespaces : List String)
    (sourceFilter : List Source) (severityFilter : List Severity) : List Row :=
  ((rows.filter (matchesSince since namespaces sourceFilter severityFilter)).insertionSort
    fun a b => b.createdAt ≤ a.createdAt).take maxSince

def updateChannelLastSent (channels : List Channel) (id : ℕ) (now : Time) : List Channel :=
  channels.map fun ch => if ch.id = id then { ch with lastSentAt := some now } else ch

section

variable {rows : List Row} {since : Time} {namespaces : List String} {sources : List Source}
  {severities : List Severity} {r : Row}

theorem of_mem_notificationsSince
    (h : r ∈ notificationsSince rows since namespaces sources severities) :
    r ∈ rows ∧ matchesSince since namespaces sources severities r = true :=
  mem_filter.mp ((perm_insertionSort _ _).mem_iff.mp (mem_of_mem_take h))

/-- Nothing is cut off where at most 500 rows match. -/
theorem mem_notificationsSince
    (hfew : (rows.filter (matchesSince since namespaces sources severities)).length ≤ maxSince)
    (hr : r ∈ rows) (hma : matchesSince since namespaces sources severities r = true) :
    r ∈ notificationsSince rows since namespaces sources severities := by
  unfold notificationsSince
  rw [take_of_length_le (by rwa [length_insertionSort])]
  exact (perm_insertionSort _ _).mem_iff.mpr (mem_filter.mpr ⟨hr, hma⟩)

theorem nodup_notificationsSince (h : (rows.map Row.id).Nodup) :
    ((notificationsSince rows since namespaces sources severities).map Row.id).Nodup := by
  have hfl : ((rows.filter (matchesSince since namespaces sources severities)).map
      Row.id).Nodup := h.sublist (filter_sublist.map _)
  have hsr := ((perm_insertionSort (fun a b : Row => b.createdAt ≤ a.createdAt) _).map
    Row.id).nodup_iff.mpr hfl
  exact hsr.sublist ((take_sublist _ _).map _)

end

end KubeCenter.Notifications
