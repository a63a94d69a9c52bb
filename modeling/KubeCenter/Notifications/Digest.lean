import KubeCenter.Lib.Reactive
import KubeCenter.Notifications.Store

/-! # The email digest

`sendDigests` of `service.go`. For each email channel a pass queries the notifications since the
channel's `last_sent_at`, writes a new one, and queues the email. In between, notifications are
written and the cache is reloaded. The database's clock never goes back; the service's shows
anything. Channels and rules are not edited. -/
namespace KubeCenter.Notifications
open Lib Go

/-! ## What an email holds -/

def suppressResourceFieldsBySource : Source → Bool
  | .externalSecrets | .velero => true
  | _ => false

def sanitizeRow (r : Row) : Row :=
  if suppressResourceFieldsBySource r.notification.source then
    { r with
      notification := { r.notification with
        resourceKind := "", resourceNS := "", resourceName := "", resourceUID := "" } }
  else r

def sanitizeForEmailDigest (rows : List Row) : List Row := rows.map sanitizeRow

section

variable (rules : List Rule) (channelID : ℕ)

def digestSources : List Source :=
  (rules.filter fun r => r.channelID = channelID ∧ r.enabled).flatMap Rule.sourceFilter

def digestSeverities : List Severity :=
  (rules.filter fun r => r.channelID = channelID ∧ r.enabled).flatMap Rule.severityFilter

def digestRows (rows : List Row) (since : Time) : List Row :=
  notificationsSince rows since [] (digestSources rules channelID)
    (digestSeverities rules channelID)

def digestTotal (rows : List Row) (since : Time) : ℕ :=
  (rows.filter (matchesSince since [] (digestSources rules channelID)
    (digestSeverities rules channelID))).length

end

/-! ## The service -/

inductive PassStage where
  | next
  | advance (channelID : ℕ) (rows : List Row)
  | send (channelID : ℕ) (rows : List Row)

structure Pass where
  number : ℕ
  rules : List Rule
  rest : List Channel
  stage : PassStage

structure DigestService where
  rows : List Row
  /-- The inserts whose transaction is open. -/
  writing : List Row := []
  channels : List Channel
  rules : List Rule
  cachedChannels : List Channel := []
  cachedRules : List Rule := []
  /-- What reloads of the cache have read and not stored yet. -/
  loading : List (List Channel × List Rule) := []
  pass : Option Pass := none
  passes : ℕ := 0
  inserted : ℕ
  now : Time

inductive DigestAction where
  | insert (n : Notification)
  | commit (id : ℕ)
  | rollback (id : ℕ)
  | loadCache
  | storeCache (i : ℕ)
  | sendDigests (smtpConfigured : Bool)
  /-- The next operation of the pass; it may fail. `appNow` is what the service's clock shows. -/
  | step (ok : Bool) (appNow : Time)
  | elapse (d : ℕ)
deriving DecidableEq

inductive DigestEvent where
  | idle
  | created (r : Row)
  | committed (r : Row)
  | passBegan (pass : ℕ) (now : Time)
  | passEnded (pass : ℕ)
  | queried (pass channelID total : ℕ)
  | advanced (pass channelID : ℕ) (lastSentAt : Time)
  | sent (pass channelID : ℕ) (rows : List Row)
deriving DecidableEq

namespace DigestService

variable (s : DigestService)

def insert (n : Notification) : DigestEvent × DigestService :=
  let r : Row := ⟨s.inserted, n, s.now⟩
  (.created r, { s with writing := s.writing ++ [r], inserted := s.inserted + 1 })

def commit (id : ℕ) : DigestEvent × DigestService :=
  match s.writing.find? (·.id = id) with
  | some r =>
    (.committed r, { s with rows := s.rows ++ [r], writing := s.writing.filter (·.id ≠ id) })
  | none => (.idle, s)

def visit (p : Pass) (ok : Bool) (appNow : Time) : DigestEvent × DigestService :=
  match p.rest with
  | [] => (.passEnded p.number, { s with pass := none })
  | ch :: rest =>
    let skipped := { s with pass := some { p with rest } }
    if ch.type ≠ .email ∨ channelRecipients ch = [] then (.idle, skipped)
    else if ok then
      let since := ch.lastSentAt.getD (appNow - 24 * hour)
      (.queried p.number ch.id (digestTotal p.rules ch.id s.rows since), { s with
          pass := some { p with
            rest, stage := .advance ch.id (digestRows p.rules ch.id s.rows since) } })
    else (.idle, skipped)

/-- A failed advance is logged, and the digest is sent all the same. -/
def advance (p : Pass) (channelID : ℕ) (rows : List Row) (ok : Bool) :
    DigestEvent × DigestService :=
  let stage : PassStage := if rows = [] then .next else .send channelID rows
  let passed := { s with pass := some { p with stage } }
  if ok then
    (.advanced p.number channelID s.now,
      { passed with channels := updateChannelLastSent s.channels channelID s.now })
  else (.idle, passed)

def send (p : Pass) (channelID : ℕ) (rows : List Row) (ok : Bool) : DigestEvent × DigestService :=
  let passed := { s with pass := some { p with stage := .next } }
  if ok then (.sent p.number channelID (sanitizeForEmailDigest rows), passed) else (.idle, passed)

def step (p : Pass) (ok : Bool) (appNow : Time) : DigestEvent × DigestService :=
  match p.stage with
  | .next => s.visit p ok appNow
  | .advance channelID rows => s.advance p channelID rows ok
  | .send channelID rows => s.send p channelID rows ok

def react : DigestAction → DigestEvent × DigestService
  | .insert n => s.insert n
  | .commit id => s.commit id
  | .rollback id => (.idle, { s with writing := s.writing.filter (·.id ≠ id) })
  | .loadCache => (.idle, { s with loading := s.loading ++ [(s.channels, s.rules)] })
  | .storeCache i =>
    match s.loading[i]? with
    | some (channels, rules) => (.idle, { s with cachedChannels := channels, cachedRules := rules })
    | none => (.idle, s)
  | .sendDigests smtpConfigured =>
    if s.pass.isNone ∧ smtpConfigured then
      (.passBegan s.passes s.now, { s with
          passes := s.passes + 1
          pass := some ⟨s.passes, s.cachedRules, s.cachedChannels, .next⟩ })
    else (.idle, s)
  | .step ok appNow =>
    match s.pass with
    | some p => s.step p ok appNow
    | none => (.idle, s)
  | .elapse d => (.idle, { s with now := s.now + d })

end DigestService

structure DigestStart where
  rows : List Row
  channels : List Channel
  rules : List Rule
  inserted : ℕ
  now : Time
  nodup_rows : (rows.map Row.id).Nodup
  nodup_channels : (channels.map Channel.id).Nodup
  inserted_rows : ∀ r ∈ rows, r.id < inserted ∧ r.createdAt ≤ now

def digestService (start : DigestStart) : Reactive DigestService DigestAction DigestEvent where
  init :=
    { rows := start.rows, channels := start.channels, rules := start.rules,
      inserted := start.inserted, now := start.now }
  react := DigestService.react

end KubeCenter.Notifications
