import KubeCenter.Notifications.Digest

/-! # When digests are sent, and what they select

`nextDigestTime` takes the date of the local zone and the time of UTC, which west of UTC-8 can be a
day apart. A digest merges the filters of all rules of its channel, where the other channels get
what one of their rules matches. -/
namespace KubeCenter.Notifications
open Lib Go List

/-! ## The time of a digest -/

def day : Duration := 24 * hour

/-- In a zone `offset` east of UTC. A date is the number of its day. -/
def nextDigestTime (offset : Duration) (now : Time) : Time :=
  let t := (now + offset) / day * day + 8 * hour
  if t > now then t else t + day

/-- The times at which the digests are sent. A timer set to a time that has passed fires at once.
Each round has the time by which its timer comes late, and the time its digests take. -/
def runDigest (offset : Duration) : Time → List (ℕ × ℕ) → List Time
  | _, [] => []
  | now, (late, busy) :: rounds =>
    let fired := max now (nextDigestTime offset now) + late
    fired :: runDigest offset (fired + busy) rounds

/-- The first time after `now` at which it is 08:00 UTC. -/
def NextEight (now t : Time) : Prop :=
  now < t ∧ t % day = 8 * hour ∧ ∀ t', now < t' → t' % day = 8 * hour → t ≤ t'

def Prompt (rounds : List (ℕ × ℕ)) : Prop := ∀ r ∈ rounds, (r.1 : Int) < 16 * hour

theorem day_eq : day = 86400000000000 := by decide

theorem hour_eq : hour = 3600000000000 := by decide

section

variable {offset : Duration}

/-- The date of the zone must not be the day before once it is past 08:00 UTC. -/
theorem nextDigestTime_nextEight_iff (hlow : -12 * hour ≤ offset) (hhigh : offset ≤ 14 * hour)
    (now : Time) : NextEight now (nextDigestTime offset now) ↔
      now % day < 8 * hour ∨ 0 ≤ now % day + offset := by
  unfold nextDigestTime NextEight
  simp only [day_eq, hour_eq] at hlow hhigh ⊢
  delta Time Duration at *
  constructor
  · rintro ⟨hafter, -, -⟩
    split at hafter <;> omega
  · intro hdate
    split
    · exact ⟨by omega, by omega, fun t _ _ => by omega⟩
    · exact ⟨by omega, by omega, fun t _ _ => by omega⟩

variable (hlow : -8 * hour ≤ offset) (hhigh : offset ≤ 14 * hour)
include hlow hhigh

theorem nextDigestTime_nextEight (now : Time) : NextEight now (nextDigestTime offset now) := by
  refine (nextDigestTime_nextEight_iff ?_ hhigh now).mpr ?_
  · exact le_trans (by decide) hlow
  · simp only [hour_eq] at hlow ⊢
    delta Time Duration at *
    omega

/-- The eight o'clock that a round waits for is still to come when the loop starts. -/
theorem runDigest_after {rounds : List (ℕ × ℕ)} (hpr : Prompt rounds) (now : Time)
    {t : Time} (ht : t ∈ runDigest offset now rounds) :
    now < t / day * day + 8 * hour ∧ t / day * day + 8 * hour ≤ t := by
  induction rounds generalizing now with
  | nil => cases ht
  | cons r rounds ih =>
    obtain ⟨hnx, height, -⟩ := nextDigestTime_nextEight hlow hhigh now
    have hr := hpr r mem_cons_self
    simp only [day_eq, hour_eq] at height hr ih ⊢
    rcases mem_cons.mp ht with rfl | ht
    · rw [max_eq_right hnx.le]
      delta Time Duration at *
      omega
    · obtain ⟨haf, hle⟩ := ih (fun r hr => hpr r (mem_cons_of_mem _ hr)) _ ht
      rw [max_eq_right hnx.le] at haf
      delta Time Duration at *
      omega

theorem runDigest_days {rounds : List (ℕ × ℕ)} (hpr : Prompt rounds) (now : Time) :
    (runDigest offset now rounds).Pairwise fun a b => a / day < b / day := by
  induction rounds generalizing now with
  | nil => exact .nil
  | cons r rounds ih =>
    have hrs : Prompt rounds := fun r hr => hpr r (mem_cons_of_mem _ hr)
    refine pairwise_cons.mpr ⟨fun t ht => ?_, ih hrs _⟩
    have hfr := (runDigest_after hlow hhigh hpr now mem_cons_self).2
    have haf := (runDigest_after hlow hhigh hrs _ ht).1
    simp only [day_eq, hour_eq] at hfr haf ⊢
    delta Time Duration at *
    omega

end

/-- West of UTC-8 the second of two rounds without delay comes at once. -/
theorem runDigest_twice {offset : Duration} (hlow : -12 * hour ≤ offset)
    (hwest : offset < -8 * hour) (now : Time) :
    ∃ t t', runDigest offset now [(0, 0), (0, 0)] = [t, t'] ∧ t / day = t' / day := by
  refine ⟨_, _, rfl, ?_⟩
  unfold nextDigestTime
  simp only [day_eq, hour_eq] at hlow hwest ⊢
  delta Time Duration at *
  split <;> split <;> omega

/-- The next digest is at the next 08:00 UTC unless it is past 08:00 UTC and the date of the zone
is the day before. Digests whose timers fire on their day are sent once a day, whenever the loop
starts, exactly from eight hours west of UTC on. -/
theorem digest_once_a_day (offset : Duration) (hlow : -12 * hour ≤ offset)
    (hhigh : offset ≤ 14 * hour) (now : Time) :
    (NextEight now (nextDigestTime offset now) ↔
      now % day < 8 * hour ∨ 0 ≤ now % day + offset) ∧
    ((∀ rounds, Prompt rounds →
      (runDigest offset now rounds).Pairwise fun a b => a / day < b / day) ↔
        -8 * hour ≤ offset) := by
  refine ⟨nextDigestTime_nextEight_iff hlow hhigh now, fun hdays => ?_,
    fun hlow rounds hpr => runDigest_days hlow hhigh hpr now⟩
  by_contra hwest
  obtain ⟨t, t', hrun, hsame⟩ := runDigest_twice hlow (not_le.mp hwest) now
  have hpair := hdays [(0, 0), (0, 0)] (by unfold Prompt; decide)
  rw [hrun, pairwise_pair] at hpair
  exact absurd hsame hpair.ne

theorem digest_once_a_day_west : NextEight (6 * hour) (nextDigestTime (-12 * hour) (6 * hour)) ∧
    ¬NextEight (9 * hour) (nextDigestTime (-12 * hour) (9 * hour)) := by
  constructor
  · exact (digest_once_a_day (-12 * hour) (by decide) (by decide) (6 * hour)).1.mpr (by decide)
  · exact fun h => absurd
      ((digest_once_a_day (-12 * hour) (by decide) (by decide) (9 * hour)).1.mp h) (by decide)

/-- Twelve hours west at 09:00 UTC the next digest was at 08:00, and every round of the loop sends
the digests at once. -/
theorem digest_twice_a_day : nextDigestTime (-12 * hour) (9 * hour) = 8 * hour ∧
    runDigest (-12 * hour) (9 * hour) [(0, 0), (0, 0)] = [9 * hour, 9 * hour] := by
  decide

/-! ## What is selected -/

def passes {α : Type} [DecidableEq α] (filter : List α) (x : α) : Bool :=
  filter.isEmpty || filter.contains x

def ruleMatches (rule : Rule) (n : Notification) : Bool :=
  passes rule.sourceFilter n.source && passes rule.severityFilter n.severity

/-- `channelMap`: of several channels with one id the last. -/
def channelMap (channels : List Channel) (id : ℕ) : Option Channel :=
  channels.reverse.find? (·.id = id)

/-- The channels that a notification is sent to, rule by rule. -/
def dispatchToChannels (rules : List Rule) (channels : List Channel) (n : Notification) :
    List Channel :=
  rules.filterMap fun rule =>
    if !rule.enabled || !ruleMatches rule n then none
    else (channelMap channels rule.channelID).filter (·.type ≠ .email)

def rulesOf (rules : List Rule) (c : ℕ) : List Rule :=
  rules.filter fun r => r.channelID = c ∧ r.enabled

/-- A rule without the filter is not lost in the merge: no rule has it, or together they list
everything. -/
def Kept {α : Type} (rules : List Rule) (filter : Rule → List α) : Prop :=
  ∀ r ∈ rules, filter r = [] → (∀ r' ∈ rules, filter r' = []) ∨ ∀ x, ∃ r' ∈ rules, x ∈ filter r'

/-- A source that one rule lets through and a severity that another does, some rule lets through
together. -/
def Crossed (rules : List Rule) : Prop :=
  ∀ r ∈ rules, ∀ r' ∈ rules, ∀ source severity, passes r.sourceFilter source = true →
    passes r'.severityFilter severity = true →
      ∃ q ∈ rules, passes q.sourceFilter source = true ∧ passes q.severityFilter severity = true

section

variable {α : Type} [DecidableEq α] {rules : List Rule} {filter : Rule → List α} {x : α}
  {rule : Rule}

theorem passes_iff {l : List α} : passes l x = true ↔ l = [] ∨ x ∈ l := by
  simp [passes, List.isEmpty_iff]

theorem Kept.passes (hk : Kept rules filter) (hrl : rule ∈ rules)
    (hx : passes (filter rule) x = true) : passes (rules.flatMap filter) x = true := by
  rw [passes_iff, flatMap_eq_nil_iff, mem_flatMap]
  rcases passes_iff.mp hx with hno | hx
  · exact (hk rule hrl hno).imp_right fun hall => hall x
  · exact .inr ⟨rule, hrl, hx⟩

theorem exists_passes (hne : rules ≠ []) (hx : passes (rules.flatMap filter) x = true) :
    ∃ r ∈ rules, passes (filter r) x = true := by
  rw [passes_iff, flatMap_eq_nil_iff, mem_flatMap] at hx
  rcases hx with hno | ⟨r, hr, hx⟩
  · obtain ⟨r, hr⟩ := exists_mem_of_ne_nil _ hne
    exact ⟨r, hr, passes_iff.mpr (.inl (hno r hr))⟩
  · exact ⟨r, hr, passes_iff.mpr (.inr hx)⟩

theorem kept_of_passes
    (h : ∀ r ∈ rules, ∀ x, filter r = [] → passes (rules.flatMap filter) x = true) :
    Kept rules filter := by
  intro r hr hno
  by_cases hall : ∀ r' ∈ rules, filter r' = []
  · exact .inl hall
  · refine .inr fun x => mem_flatMap.mp ?_
    exact (passes_iff.mp (h r hr x hno)).resolve_left fun he => hall (flatMap_eq_nil_iff.mp he)

theorem exists_passes_filter [Inhabited α] (l : List α) : ∃ x, passes l x = true := by
  cases l with
  | nil => exact ⟨default, rfl⟩
  | cons x l => exact ⟨x, by simp [passes]⟩

end

/-- What the merged filters let through. -/
def merged (rules : List Rule) (source : Source) (severity : Severity) : Bool :=
  passes (rules.flatMap Rule.sourceFilter) source &&
    passes (rules.flatMap Rule.severityFilter) severity

instance : Inhabited Source := ⟨.alert⟩

instance : Inhabited Severity := ⟨.info⟩

theorem merged_iff_routed_iff {rules : List Rule} (hne : rules ≠ []) :
    (∀ source severity, merged rules source severity = true ↔ ∃ r ∈ rules,
      passes r.sourceFilter source = true ∧ passes r.severityFilter severity = true) ↔
    Kept rules Rule.sourceFilter ∧ Kept rules Rule.severityFilter ∧ Crossed rules := by
  simp only [merged, Bool.and_eq_true]
  constructor
  · intro h
    have hsource : Kept rules Rule.sourceFilter := kept_of_passes fun r hr source hno => by
      obtain ⟨severity, hs⟩ := exists_passes_filter r.severityFilter
      exact ((h source severity).mpr ⟨r, hr, passes_iff.mpr (.inl hno), hs⟩).1
    have hseverity : Kept rules Rule.severityFilter := kept_of_passes fun r hr severity hno => by
      obtain ⟨source, hs⟩ := exists_passes_filter r.sourceFilter
      exact ((h source severity).mpr ⟨r, hr, hs, passes_iff.mpr (.inl hno)⟩).2
    exact ⟨hsource, hseverity, fun r hr r' hr' source severity hs hs' =>
      (h source severity).mp ⟨hsource.passes hr hs, hseverity.passes hr' hs'⟩⟩
  · rintro ⟨hsource, hseverity, hcross⟩ source severity
    constructor
    · rintro ⟨hs, hs'⟩
      obtain ⟨r, hr, hs⟩ := exists_passes hne hs
      obtain ⟨r', hr', hs'⟩ := exists_passes hne hs'
      exact hcross r hr r' hr' source severity hs hs'
    · rintro ⟨r, hr, hs, hs'⟩
      exact ⟨hsource.passes hr hs, hseverity.passes hr hs'⟩

theorem mem_dispatchToChannels {rules : List Rule} {channels : List Channel} {n : Notification}
    {c : ℕ} {ch : Channel} (hch : channelMap channels c = some ch) (hty : ch.type ≠ .email) :
    ch ∈ dispatchToChannels rules channels n ↔ ∃ r ∈ rulesOf rules c, ruleMatches r n = true := by
  have hid : ch.id = c := by simpa using find?_some hch
  simp only [dispatchToChannels, rulesOf, mem_filterMap, mem_filter, decide_eq_true_eq]
  constructor
  · rintro ⟨r, hr, hsn⟩
    split at hsn
    · cases hsn
    next hma =>
      obtain ⟨hfo, -⟩ := Option.filter_eq_some_iff.mp hsn
      have hrid : ch.id = r.channelID := by simpa using find?_some hfo
      simp only [Bool.or_eq_true, Bool.not_eq_true', not_or, Bool.not_eq_false] at hma
      exact ⟨r, ⟨hr, hrid.symm.trans hid, hma.1⟩, hma.2⟩
  · rintro ⟨r, ⟨hr, rfl, hen⟩, hma⟩
    refine ⟨r, hr, ?_⟩
    rw [if_neg (by simp [hen, hma])]
    exact Option.filter_eq_some_iff.mpr ⟨hch, by simpa using hty⟩

theorem matchesSince_eq_merged {since : Time} {r : Row} (hwn : since < r.createdAt)
    (rules : List Rule) (c : ℕ) :
    matchesSince since [] (digestSources rules c) (digestSeverities rules c) r =
      merged (rulesOf rules c) r.notification.source r.notification.severity := by
  simp [matchesSince, merged, passes, digestSources, digestSeverities, rulesOf, hwn]

/-- A digest selects what a rule of its channel matches exactly when no rule without a filter is
lost and the filters of two rules never combine to what no rule lets through. -/
theorem digest_selects_routed (rules : List Rule) (c : ℕ) (htargeted : rulesOf rules c ≠ []) :
    ((∀ since (r : Row), since < r.createdAt →
      (matchesSince since [] (digestSources rules c) (digestSeverities rules c) r = true ↔
        ∃ rule ∈ rulesOf rules c, ruleMatches rule r.notification = true)) ↔
      Kept (rulesOf rules c) Rule.sourceFilter ∧ Kept (rulesOf rules c) Rule.severityFilter ∧
        Crossed (rulesOf rules c)) ∧
    ∀ channels ch n, channelMap channels c = some ch → ch.type ≠ .email →
      (ch ∈ dispatchToChannels rules channels n ↔
        ∃ rule ∈ rulesOf rules c, ruleMatches rule n = true) := by
  refine ⟨?_, fun channels ch n => mem_dispatchToChannels⟩
  rw [← merged_iff_routed_iff htargeted]
  simp only [ruleMatches, Bool.and_eq_true]
  constructor
  · intro h source severity
    have hwn : (0 : Time) < second := by decide
    have hrow := h 0 ⟨1, ⟨source, severity, "", "", "", "", "", "", ""⟩, second⟩ hwn
    rwa [matchesSince_eq_merged hwn] at hrow
  · intro h since r hwn
    rw [matchesSince_eq_merged hwn]
    exact h _ _

def backupRow : Row := ⟨1, ⟨.velero, .info, "", "", "", "", "", "", ""⟩, second⟩

private def wide : Rule := ⟨1, true, [.velero, .scan], [.info, .critical]⟩

private def nested : List Rule := [⟨1, true, [.velero], [.info]⟩, wide]

theorem digest_selects_routed_nested :
    matchesSince 0 [] (digestSources nested 1) (digestSeverities nested 1) backupRow = true := by
  have hall : ∀ r ∈ rulesOf nested 1,
      (r.sourceFilter ≠ [] ∧ ∀ source ∈ r.sourceFilter, source ∈ wide.sourceFilter) ∧
      r.severityFilter ≠ [] ∧ ∀ severity ∈ r.severityFilter, severity ∈ wide.severityFilter := by
    decide
  refine ((digest_selects_routed nested 1 (by decide)).1.mpr ⟨?_, ?_, ?_⟩ 0 backupRow
    (by decide)).mpr (by decide)
  · exact fun r hr hno => absurd hno (hall r hr).1.1
  · exact fun r hr hno => absurd hno (hall r hr).2.1
  · intro r hr r' hr' source severity hs hs'
    obtain ⟨⟨hne, hsub⟩, -⟩ := hall r hr
    obtain ⟨-, hne', hsub'⟩ := hall r' hr'
    have hs := hsub _ ((passes_iff.mp hs).resolve_left hne)
    have hs' := hsub' _ ((passes_iff.mp hs').resolve_left hne')
    exact ⟨wide, by decide, passes_iff.mpr (.inr hs), passes_iff.mpr (.inr hs')⟩

/-- One rule is for backups, another for what is critical: the digest leaves out what the first
matches. -/
theorem digest_misses_routed :
    (∃ rule ∈ rulesOf [⟨1, true, [.velero], []⟩, ⟨1, true, [], [.critical]⟩] 1,
      ruleMatches rule backupRow.notification = true) ∧
    matchesSince 0 [] (digestSources [⟨1, true, [.velero], []⟩, ⟨1, true, [], [.critical]⟩] 1)
      (digestSeverities [⟨1, true, [.velero], []⟩, ⟨1, true, [], [.critical]⟩] 1) backupRow =
        false := by
  decide

end KubeCenter.Notifications
