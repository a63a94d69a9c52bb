import KubeCenter.ExternalSecrets.SyncHistory

/-! # What the stored diffs add up to

The hashes that the poller holds of a UID are those of the last Secret it read, whether or not the
row of that read was stored. -/
namespace KubeCenter.ExternalSecrets

open Lib Lib.Go List

section Diffs

variable {H : Type*} [DecidableEq H] (sha256 : Bytes → H)

omit [DecidableEq H] in
theorem get_hashSecretData (data : SecretData) (k : Bytes) :
    (hashSecretData sha256 data).get k = (data.get k).map sha256 := by
  induction data with
  | nil => rfl
  | cons e data ih =>
    obtain ⟨k₀, v⟩ := e
    simp only [hashSecretData, GoMap.get, map_cons, lookup_cons] at ih ⊢
    split
    · rfl
    · exact ih

theorem diffKeySets_describes (prev current : GoMap H) :
    (diffKeySets prev current).Describes prev.get current.get where
  mem_added k := by
    simp only [diffKeySets, mem_filter, GoMap.mem_sortedKeys, decide_eq_true_eq]
    exact and_comm
  mem_removed k := by
    simp only [diffKeySets, mem_filter, GoMap.mem_sortedKeys, decide_eq_true_eq]
  mem_changed k := by
    simp only [diffKeySets, mem_filter, GoMap.mem_sortedKeys, decide_eq_true_eq]
    constructor
    · rintro ⟨hcur, hpr, hne⟩
      obtain ⟨v, hv⟩ := Option.ne_none_iff_exists'.mp hpr
      obtain ⟨w, hw⟩ := Option.ne_none_iff_exists'.mp hcur
      exact ⟨v, w, hv, hw, fun h => hne (by rw [hv, hw, h])⟩
    · rintro ⟨v, w, hv, hw, hne⟩
      rw [hv, hw]
      exact ⟨by simp, by simp, fun h => hne (Option.some.inj h)⟩

def lastRead (L : List Attempt) : Option SecretData := L.foldl (fun b a => a.read.or b) none

def baseline (L : List Attempt) : Option (GoMap H) := (lastRead L).map (hashSecretData sha256)

def diffFrom (b : Option (GoMap H)) (read : Option SecretData) : KeyDiff Bytes :=
  match b, read with
  | some prev, some data => diffKeySets prev (hashSecretData sha256 data)
  | _, _ => .empty

/-- What holds of every attempt and those before it. -/
def Along (Q : List Attempt → Attempt → Prop) (L : List Attempt) : Prop :=
  ∀ before a after, L = before ++ a :: after → Q before a

abbrev Reported : List Attempt → Prop :=
  Along fun before a => a.entry.diffKeys = diffFrom sha256 (baseline sha256 before) a.read

/-- A read with other hashes than the read before it has its row added. -/
abbrev Lossless : List Attempt → Prop :=
  Along fun before a => ∀ prev data, lastRead before = some prev → a.read = some data →
    a.added = true ∨ (hashSecretData sha256 prev).get = (hashSecretData sha256 data).get

def storedDiffs (L : List Attempt) : List (KeyDiff Bytes) :=
  (L.filter (·.added)).map (·.entry.diffKeys)

variable {sha256} {L L₁ L₂ : List Attempt} {a : Attempt}

omit [DecidableEq H] in
theorem baseline_concat : baseline sha256 (L ++ [a]) =
    (a.read.map (hashSecretData sha256)).or (baseline sha256 L) := by
  rw [baseline, lastRead, foldl_append]
  cases hrd : a.read <;> simp [hrd, baseline, lastRead]

omit [DecidableEq H] in
theorem baseline_eq_none (h : ∀ a ∈ L, a.read = none) : baseline sha256 L = none := by
  induction L using List.reverseRecOn with
  | nil => rfl
  | append_singleton L a ih =>
    rw [baseline_concat, h a (by simp), ih fun c hc => h c (by simp [hc])]
    rfl

section

variable {Q : List Attempt → Attempt → Prop}

theorem Along.left (h : Along Q (L₁ ++ L₂)) : Along Q L₁ := by
  rintro before a after rfl
  exact h before a (after ++ L₂) (by simp)

theorem Along.concat (h : Along Q L) (ha : Q L a) : Along Q (L ++ [a]) := by
  intro before c after heq
  rcases eq_nil_or_concat after with rfl | ⟨rest, d, rfl⟩
  · obtain ⟨rfl, hac⟩ := append_inj' heq rfl
    cases hac
    exact ha
  · have hsp : L ++ [a] = (before ++ c :: rest) ++ [d] := by rw [heq]; simp
    exact h before c rest (append_inj' hsp rfl).1

end

theorem storedDiffs_append : storedDiffs (L₁ ++ L₂) = storedDiffs L₁ ++ storedDiffs L₂ := by
  rw [storedDiffs, filter_append, map_append]
  rfl

theorem storedDiffs_concat : storedDiffs (L ++ [a]) =
    storedDiffs L ++ if a.added then [a.entry.diffKeys] else [] := by
  cases h : a.added <;> simp [storedDiffs, h]

theorem diffFrom_unread (b : Option (GoMap H)) : diffFrom sha256 b none = .empty := by
  cases b <;> rfl

theorem leads_concat {f ds} {m : GoMap H} (hm : baseline sha256 L = some m)
    (hld : KeyDiff.Leads f ds m.get)
    (hrep : a.entry.diffKeys = diffFrom sha256 (some m) a.read)
    (hlo : ∀ data, a.read = some data →
      a.added = true ∨ m.get = (hashSecretData sha256 data).get) :
    ∃ m', baseline sha256 (L ++ [a]) = some m' ∧
      KeyDiff.Leads f (ds ++ if a.added then [a.entry.diffKeys] else []) m'.get := by
  rw [baseline_concat, hm]
  cases hrd : a.read with
  | none =>
    rw [hrd, diffFrom_unread] at hrep
    refine ⟨m, rfl, ?_⟩
    split
    · rw [hrep]
      exact hld.concat (KeyDiff.describes_empty _)
    · rwa [append_nil]
  | some data =>
    rw [hrd] at hrep
    have hds : a.entry.diffKeys.Describes m.get (hashSecretData sha256 data).get :=
      hrep ▸ diffKeySets_describes m _
    refine ⟨_, rfl, ?_⟩
    split
    · exact hld.concat hds
    next hadd =>
      rw [append_nil, ← (hlo data hrd).resolve_left hadd]
      exact hld

theorem leads_append {f ds} {m : GoMap H} (hm : baseline sha256 L₁ = some m)
    (hld : KeyDiff.Leads f ds m.get) (hrep : Reported sha256 (L₁ ++ L₂))
    (hlo : Lossless sha256 (L₁ ++ L₂)) : ∃ m', baseline sha256 (L₁ ++ L₂) = some m' ∧
      KeyDiff.Leads f (ds ++ storedDiffs L₂) m'.get := by
  induction L₂ using List.reverseRecOn with
  | nil => exact ⟨m, by rwa [append_nil], by simpa [storedDiffs] using hld⟩
  | append_singleton L₂ a ih =>
    rw [← append_assoc] at hrep hlo ⊢
    obtain ⟨m', hm', hld'⟩ := ih hrep.left hlo.left
    have ha : a.entry.diffKeys = diffFrom sha256 (some m') a.read := by
      rw [← hm']
      exact hrep (L₁ ++ L₂) a [] rfl
    rw [storedDiffs_concat, ← append_assoc]
    refine leads_concat hm' hld' ha fun data hrd => ?_
    obtain ⟨prev, hpr, rfl⟩ := Option.map_eq_some_iff.mp hm'
    exact hlo (L₁ ++ L₂) a [] rfl prev data hpr hrd

variable {before middle rest tail : List Attempt} {first last : Attempt} {K₀ K : SecretData}

theorem leads_to_last (hrep : Reported sha256 (before ++ (middle ++ [last])))
    (hbe : ∀ a ∈ before, a.read = none) (hfi : first.read = some K₀)
    (hhd : first :: tail = middle ++ [last]) (hla : last.read = some K)
    (hadd : last.added = true) (hlo : Lossless sha256 (before ++ middle)) :
    KeyDiff.Leads (hashSecretData sha256 K₀).get (storedDiffs (middle ++ [last]))
      (hashSecretData sha256 K).get := by
  have hbs : baseline sha256 (before ++ [first]) = some (hashSecretData sha256 K₀) := by
    rw [baseline_concat, hfi]
    rfl
  have hem : first.entry.diffKeys = .empty := by
    rw [hrep before first tail (by rw [hhd]), baseline_eq_none hbe]
    rfl
  have hsta : KeyDiff.Leads (hashSecretData sha256 K₀).get (storedDiffs [first])
      (hashSecretData sha256 K₀).get := by
    refine KeyDiff.Leads.append_empty .refl fun d hd => ?_
    obtain ⟨a, ha, rfl⟩ := mem_map.mp hd
    rw [mem_singleton.mp (mem_filter.mp ha).1, hem]
  cases middle with
  | nil =>
    -- the first read is the last stored one
    cases hhd
    cases hfi.symm.trans hla
    exact hsta
  | cons a middle =>
    obtain ⟨rfl, -⟩ := List.cons.inj hhd
    have hlo' : Lossless sha256 ((before ++ first :: middle) ++ [last]) :=
      hlo.concat fun _ _ _ _ => .inl hadd
    have hsp : (before ++ [first]) ++ (middle ++ [last]) =
        (before ++ first :: middle) ++ [last] := by simp
    have hrep' : Reported sha256 ((before ++ [first]) ++ (middle ++ [last])) := by
      rw [append_assoc]
      exact hrep
    rw [← hsp] at hlo'
    obtain ⟨m, hm, hld⟩ := leads_append hbs hsta hrep' hlo'
    rw [← append_assoc, baseline_concat, hla] at hm
    obtain rfl : hashSecretData sha256 K = m := Option.some.inj hm
    rw [← storedDiffs_append] at hld
    exact hld

theorem storedDiffs_unread (hrep : Reported sha256 (L₁ ++ L₂))
    (h : ∀ a ∈ L₂, a.read = none ∨ a.added = false) : ∀ d ∈ storedDiffs L₂, d = .empty := by
  intro d hd
  obtain ⟨a, ha, rfl⟩ := mem_map.mp hd
  obtain ⟨hmem, hadd⟩ := mem_filter.mp ha
  have hrd : a.read = none := (h a hmem).resolve_right (by simp [hadd])
  obtain ⟨before, after, rfl⟩ := append_of_mem hmem
  rw [hrep (L₁ ++ before) a after (by simp), hrd, diffFrom_unread]

end Diffs

/-! ## The attempts of one UID -/

def Stays (u : String) (events : List Event) : Prop :=
  ∀ before inv answers after, events = before ++ Event.tick (some inv) answers :: after →
    ¬inv.Lists u → ∀ inv' answers', Event.tick (some inv') answers' ∈ before → ¬inv'.Lists u

def attemptsOf (u : String) (trace : List (List Attempt)) : List Attempt :=
  trace.flatten.filter fun a => a.entry.uid = u

theorem attemptsOf_concat (u : String) (trace : List (List Attempt)) (as : List Attempt) :
    attemptsOf u (trace ++ [as]) = attemptsOf u trace ++ as.filter fun a => a.entry.uid = u := by
  simp [attemptsOf, filter_append]

section Run

variable {H : Type*} [DecidableEq H] {sha256 : Bytes → H} {clusterID : String}
  {rows : List Entry} {events : List Event} {answers : Answers} {s : State H} {inv : Inventory}
  {es : ExternalSecret} {c : Candidate} {u : String}

theorem tick_attemptsOf_of_none (h : ∀ es ∈ inv.items, es.uid = u → candidate s.poller es = none) :
    (tick sha256 clusterID s inv answers).1.filter (fun a => a.entry.uid = u) = [] := by
  rw [filter_eq_nil_iff]
  intro a ha
  obtain ⟨es, hes, c, hc, rfl⟩ := mem_tick_attempts.mp ha
  obtain rfl := (candidate_eq_some_iff.mp hc).1
  rw [decide_eq_true_eq]
  intro he
  rw [h c.es hes he] at hc
  cases hc

theorem tick_attemptsOf_of_some (hes : es ∈ inv.items) (hc : candidate s.poller es = some c) :
    (tick sha256 clusterID s inv answers).1.filter (fun a => a.entry.uid = es.uid) =
      [(persistOne sha256 clusterID answers s c).1] := by
  obtain rfl := (candidate_eq_some_iff.mp hc).1
  have hmem : c ∈ inv.items.filterMap (candidate s.poller) := mem_filterMap.mpr ⟨c.es, hes, hc⟩
  have hon : (inv.items.filterMap (candidate s.poller)).filter
      (fun d => d.es.uid = c.es.uid) = [c] := by
    have hnd := candidates_nodup s.poller inv
    refine perm_singleton.mp ((perm_ext_iff_of_nodup
      ((List.Nodup.of_map _ hnd).filter _) (nodup_singleton c)).mpr fun d => ?_)
    rw [mem_filter, decide_eq_true_eq, mem_singleton]
    constructor
    · rintro ⟨hd, he⟩
      exact inj_on_of_nodup_map hnd hd hmem he
    · rintro rfl
      exact ⟨hmem, rfl⟩
  rw [tick_attempts, filter_map]
  exact congrArg _ hon

/-- The hashes held are those of the last read, and the attempts report the differences from read
to read. -/
structure Follows (s : State H) (L : List Attempt) (sha256 : Bytes → H) (u : String) : Prop where
  held : s.poller.prevKeys u = baseline sha256 L
  reported : Reported sha256 L

theorem persistOne_diffKeys : (persistOne sha256 clusterID answers s c).1.entry.diffKeys =
    diffFrom sha256 (s.poller.prevKeys c.es.uid)
      (persistOne sha256 clusterID answers s c).1.read := by
  simp only [persistOne, Candidate.entry, resolveDiffKeys, diffFrom]
  cases fetchSecret c (answers.secret c.es.uid) with
  | none | some => cases s.poller.prevKeys c.es.uid <;> rfl

theorem Follows.tick {L} (h : Follows s L sha256 es.uid) (hes : es ∈ inv.items) :
    Follows (tick sha256 clusterID s inv answers).2
      (L ++ (tick sha256 clusterID s inv answers).1.filter fun a => a.entry.uid = es.uid)
      sha256 es.uid := by
  cases hc : candidate s.poller es with
  | none =>
    have hno : ∀ es' ∈ inv.items, es'.uid = es.uid → candidate s.poller es' = none := by
      intro es' hes' he
      rw [inv.eq_of_uid hes' hes he, hc]
    rw [tick_attemptsOf_of_none hno, append_nil]
    exact ⟨(tick_prevKeys_of_none hes hc).trans h.held, h.reported⟩
  | some c =>
    rw [tick_attemptsOf_of_some hes hc]
    obtain rfl := (candidate_eq_some_iff.mp hc).1
    refine ⟨?_, h.reported.concat (h.held ▸ persistOne_diffKeys)⟩
    rw [tick_prevKeys_of_some hes hc, persistOne_prevKeys, Function.update_self, baseline_concat,
      h.held]
    rfl

theorem run_unlisted (sha256 : Bytes → H) (clusterID : String) (rows : List Entry)
    (h : ∀ inv answers, Event.tick (some inv) answers ∈ events → ¬inv.Lists u) :
    ((process sha256 clusterID rows).run events).poller.prevKeys u = none ∧
      attemptsOf u ((process sha256 clusterID rows).trace events) = [] := by
  refine Reactive.run_inv_of_split (M := process sha256 clusterID rows)
    (P := fun s trace => s.poller.prevKeys u = none ∧ attemptsOf u trace = [])
    ⟨rfl, rfl⟩ ?_ events [] (append_nil events).symm
  rintro as (⟨_ | inv, answers⟩ | oldest) bs hall ⟨hno, hem⟩
  · exact ⟨hno, by rw [attemptsOf_concat, hem]; rfl⟩
  · have hunl := h inv answers (hall ▸ mem_append_right as mem_cons_self)
    refine ⟨tick_prevKeys_of_not_lists hunl hno, ?_⟩
    rw [attemptsOf_concat, hem]
    refine tick_attemptsOf_of_none ?_
    rintro es hes rfl
    exact absurd (mem_map_of_mem hes) hunl
  · exact ⟨hno, by rw [attemptsOf_concat, hem]; rfl⟩

theorem run_follows (h : Stays u events) : Follows ((process sha256 clusterID rows).run events)
      (attemptsOf u ((process sha256 clusterID rows).trace events)) sha256 u := by
  refine Reactive.run_inv_of_split (M := process sha256 clusterID rows)
    (P := fun s trace => Follows s (attemptsOf u trace) sha256 u)
    ⟨rfl, fun before a after hnil => by simp [attemptsOf] at hnil⟩ ?_ events []
    (append_nil events).symm
  have hqu : ∀ {t : State H} {trace : List (List Attempt)},
      t.poller.prevKeys u = baseline sha256 (attemptsOf u trace) →
      Reported sha256 (attemptsOf u trace) → Follows t (attemptsOf u (trace ++ [[]])) sha256 u := by
    intro t trace hhl hrep
    rw [attemptsOf_concat, filter_nil, append_nil]
    exact ⟨hhl, hrep⟩
  rintro as (⟨_ | inv, answers⟩ | oldest) bs hall hfl
  · exact hqu hfl.held hfl.reported
  · by_cases hls : inv.Lists u
    · obtain ⟨es, hes, rfl⟩ := mem_map.mp hls
      rw [attemptsOf_concat]
      exact hfl.tick hes
    · have hnv : ∀ inv' answers', Event.tick (some inv') answers' ∈
          as ++ [Event.tick (some inv) answers] → ¬inv'.Lists u := by
        intro inv' answers' hmem
        rcases mem_concat hmem with hmem | hmem
        · exact h as inv answers bs hall hls inv' answers' hmem
        · cases hmem
          exact hls
      have hunk := run_unlisted sha256 clusterID rows hnv
      rw [Reactive.run_concat, Reactive.trace_concat] at hunk
      rw [hunk.2]
      exact ⟨hunk.1, fun before a after hnil => by simp at hnil⟩
  · exact hqu hfl.held hfl.reported

/-- While a UID stays listed and no read with a difference goes without its row, replaying the
stored diffs on the keys of the first Secret gives the keys of the last stored one, and every value
that differs was reported. -/
theorem stored_diffs_telescope {before middle rest : List Attempt} {first last : Attempt}
    {tail : List Attempt} {K₀ K : SecretData} (hstays : Stays u events)
    (hattempts : attemptsOf u ((process sha256 clusterID rows).trace events) =
      before ++ first :: tail)
    (hbefore : ∀ a ∈ before, a.read = none) (hfirst : first.read = some K₀)
    (htail : first :: tail = middle ++ last :: rest) (hlast : last.read = some K)
    (hadded : last.added = true) (hrest : ∀ a ∈ rest, a.read = none ∨ a.added = false)
    (hlossless : Lossless sha256 (before ++ middle))
    (hsha : ∀ k v w, K₀.get k = some v → K.get k = some w → sha256 v = sha256 w → v = w) :
    (storedDiffs (first :: tail)).foldl KeyDiff.apply K₀.keys.toFinset = K.keys.toFinset ∧
      ∀ k v w, K₀.get k = some v → K.get k = some w → v ≠ w →
        KeyDiff.Rewritten k (storedDiffs (first :: tail)) := by
  have hrep : Reported sha256 (before ++ (middle ++ last :: rest)) := by
    rw [← htail, ← hattempts]
    exact (run_follows hstays).reported
  have hld : KeyDiff.Leads (hashSecretData sha256 K₀).get (storedDiffs (first :: tail))
      (hashSecretData sha256 K).get := by
    obtain ⟨tail', hta'⟩ : ∃ tail', first :: tail' = middle ++ [last] := by
      cases middle with
      | nil => exact ⟨[], by rw [(List.cons.inj htail).1]; rfl⟩
      | cons a middle => exact ⟨middle ++ [last], by rw [(List.cons.inj htail).1]; rfl⟩
    have hsp : before ++ (middle ++ last :: rest) = (before ++ (middle ++ [last])) ++ rest := by
      simp
    rw [hsp] at hrep
    have hln : middle ++ last :: rest = (middle ++ [last]) ++ rest := by simp
    rw [htail, hln, storedDiffs_append]
    exact (leads_to_last hrep.left hbefore hfirst hta' hlast hadded hlossless).append_empty
      (storedDiffs_unread hrep hrest)
  constructor
  · ext k
    have hks : ∀ data : SecretData, ∀ k, k ∈ data.keys.toFinset ↔
        (hashSecretData sha256 data).get k ≠ none := by
      intro data k
      rw [mem_toFinset, GoMap.mem_keys, get_hashSecretData, ne_eq, ne_eq, Option.map_eq_none_iff]
    exact (hld.mem_replay (hks K₀) k).trans (hks K k).symm
  · intro k v w hv hw hne
    have hv' : (hashSecretData sha256 K₀).get k = some (sha256 v) := by
      rw [get_hashSecretData, hv]
      rfl
    have hw' : (hashSecretData sha256 K).get k = some (sha256 w) := by
      rw [get_hashSecretData, hw]
      rfl
    exact hld.rewritten hv' hw' fun h => hne (hsha k v w hv hw h)

end Run

/-! The hashes move with the read, so the diff of a row that is not stored is reported by no
later row. -/

def sampleRead (time : Time) (data : SecretData) (insert : InsertAnswer) : Event :=
  .tick (some ⟨[{ sample .synced time with targetSecretName := "db" }], nodup_singleton _⟩)
    ⟨fun _ => some data, fun _ => insert⟩

def oneKey : SecretData := [([97], [1])]
def twoKeys : SecretData := [([97], [1]), ([98], [2])]

theorem stored_diffs_telescope_pair :
    let events := [sampleRead second oneKey .stored, sampleRead (2 * second) twoKeys .stored]
    let attempts := attemptsOf "u" ((process (fun b => b) "local" []).trace events)
    (storedDiffs attempts).foldl KeyDiff.apply oneKey.keys.toFinset = twoKeys.keys.toFinset := by
  intro events attempts
  have hst : Stays "u" events := by
    rintro before inv answers after hev hunl
    have hmem : Event.tick (some inv) answers ∈ events :=
      hev ▸ mem_append_right before mem_cons_self
    rcases mem_cons.mp hmem with he | hmem
    · cases he
      exact absurd (mem_singleton_self "u") hunl
    · cases mem_singleton.mp hmem
      exact absurd (mem_singleton_self "u") hunl
  obtain ⟨first, last, hat, hfi, hadd, hrd, hla⟩ : ∃ first last,
      attempts = [] ++ first :: [last] ∧ first.read = some oneKey ∧ first.added = true ∧
        last.read = some twoKeys ∧ last.added = true :=
    ⟨_, _, rfl, rfl, by decide, rfl, by decide⟩
  have hlo : Lossless (fun b => b) ([] ++ [first]) :=
    Along.concat (fun _ _ _ hnil => by simp at hnil) fun _ _ _ _ => .inl hadd
  have hta : first :: [last] = [first] ++ last :: [] := rfl
  have htl := stored_diffs_telescope hst hat nofun hfi hta
    hrd hla nofun hlo (fun _ _ _ _ _ h => h)
  rw [hat]
  exact htl.1

theorem stored_diffs_miss_lost_row :
    let events := [sampleRead second oneKey .stored, sampleRead (2 * second) twoKeys .lost,
      sampleRead (2 * second) twoKeys .stored]
    let attempts := attemptsOf "u" ((process (fun b => b) "local" []).trace events)
    attempts.map (fun a => (a.read, a.added)) =
        [(some oneKey, true), (some twoKeys, false), (some twoKeys, true)] ∧
      (storedDiffs attempts).foldl KeyDiff.apply oneKey.keys.toFinset = oneKey.keys.toFinset ∧
        oneKey.keys.toFinset ≠ twoKeys.keys.toFinset := by
  decide

end KubeCenter.ExternalSecrets
