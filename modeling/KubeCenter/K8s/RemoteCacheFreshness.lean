import KubeCenter.K8s.RemoteCache
import KubeCenter.Lib.Calls

/-! # Whose data the remote read cache serves, and how old it is

A value is sourced for a key and a generation when a fetch for that key returned it and began after
that many evictions of the cluster. Flights, entries and results all carry sourced values
(`Recorded`); the generation of an entry is the current one. -/
namespace KubeCenter.K8s
open Lib Go Resources List

variable {T ε : Type}

/-! ## What an action does -/

section

variable (sha256 : Bytes → Bytes) (cfg : CacheConfig) (now : Time) (s : ReadCache T ε)

inductive CacheMove : CacheAction T ε → CacheEvent T ε → ReadCache T ε → Prop
  | idle (a) : CacheMove a .idle s
  | hit {q v} : s.lookup now (q.key sha256) = some v →
      CacheMove (.get q) (.hit s.started q v) { s with started := s.started + 1 }
  | missed (q) : CacheMove (.get q) (.missed s.started q) { s with
          started := s.started + 1
          calls := Function.update s.calls s.started (some ⟨q, .missed⟩) }
  | keyed {n q} : s.calls n = some ⟨q, .missed⟩ → CacheMove (.generation n) .idle
        (s.setCall n q (.keyed (s.gens (q.key sha256).clusterID)))
  | joined {n q gen} : s.calls n = some ⟨q, .keyed gen⟩ →
      CacheMove (.join n) .idle (s.setCall n q (.waiting ((q.key sha256).flightKey gen)))
  | opened {n q gen} : s.calls n = some ⟨q, .keyed gen⟩ → CacheMove (.join n) .idle
        { s.setCall n q (.waiting ((q.key sha256).flightKey gen)) with
          flights := Function.update s.flights ((q.key sha256).flightKey gen)
            (some ⟨q, gen, .lookup⟩) }
  | flightHit {f fl v} : s.flights f = some fl → s.lookup now (fl.request.key sha256) = some v →
      CacheMove (.flightLookup f) (.flightHit (fl.request.key sha256) v)
        (s.setFlight f fl (.ended (.ok v)))
  | fetchStarted {f fl} : s.flights f = some fl →
      CacheMove (.flightLookup f) (.fetchStarted s.fetches fl.request)
        { s.setFlight f fl (.fetch s.fetches) with fetches := s.fetches + 1 }
  | fetched {f fl number} (outcome) : s.flights f = some fl → fl.stage = .fetch number →
      CacheMove (.fetched f outcome) (.fetched number outcome) (s.setFlight f fl outcome.next)
  | unstored {f fl v} : s.flights f = some fl → fl.stage = .store v →
      CacheMove (.store f) .idle (s.setFlight f fl (.ended (.ok v)))
  | stored {f fl v} : s.flights f = some fl → fl.stage = .store v →
      s.gens (fl.request.key sha256).clusterID = fl.gen →
      CacheMove (.store f) (.stored (fl.request.key sha256) v)
        { s.setFlight f fl (.ended (.ok v)) with
          map := s.map.put cfg.maxEntries (fl.request.key sha256) ⟨v, now + cfg.ttl⟩ }
  | landed {f fl result} : s.flights f = some fl → fl.stage = .ended result →
      CacheMove (.land f) .idle (s.land f result)
  | returned {n q result} : s.calls n = some ⟨q, .answered result⟩ →
      CacheMove (.receive n) (.returned n q result) (s.finish n)
  | cancelled (n q) : CacheMove (.cancel n) (.returned n q (.error .context)) (s.finish n)
  | evicted (clusterID) :
      CacheMove (.evictCluster clusterID) (.evicted (normalizedClusterID clusterID))
        (s.evictCluster clusterID)

end

variable {sha256 : Bytes → Bytes} {cfg : CacheConfig} {now : Time} {s : ReadCache T ε}

theorem move_of_react (a : CacheAction T ε) :
    CacheMove sha256 cfg now s a (s.react sha256 cfg now a).1 (s.react sha256 cfg now a).2 := by
  cases a with
  | get q =>
    simp only [ReadCache.react, ReadCache.get]
    split
    next v hv => exact .hit hv
    · exact .missed q
  | generation n =>
    simp only [ReadCache.react]
    split
    next q hcl => exact .keyed hcl
    · exact .idle _
  | join n =>
    simp only [ReadCache.react]
    split
    next q gen hcl =>
      simp only [ReadCache.join]
      split
      · exact .joined hcl
      · exact .opened hcl
    · exact .idle _
  | flightLookup f =>
    simp only [ReadCache.react]
    split
    next q gen hft =>
      simp only [ReadCache.flightLookup]
      split
      · rename_i v hv
        exact .flightHit hft hv
      · exact .fetchStarted hft
    · exact .idle _
  | fetched f outcome =>
    simp only [ReadCache.react]
    split
    next q gen number hft => exact .fetched outcome hft rfl
    · exact .idle _
  | store f =>
    simp only [ReadCache.react]
    split
    next q gen v hft =>
      simp only [ReadCache.store]
      split
      · exact .unstored hft rfl
      · rename_i hgen
        exact .stored hft rfl (not_not.mp hgen)
    · exact .idle _
  | land f =>
    simp only [ReadCache.react]
    split
    next q gen result hft => exact .landed hft rfl
    · exact .idle _
  | receive n =>
    simp only [ReadCache.react]
    split
    next q result hcl => exact .returned hcl
    · exact .idle _
  | cancel n =>
    simp only [ReadCache.react]
    split
    · exact .cancelled n _
    · exact .cancelled n _
    · exact .idle _
  | evictCluster clusterID => exact .evicted clusterID

/-! ## Sourced values -/

def CacheEvent.evicts (c : Bytes) : Time × CacheEvent T ε → Bool
  | (_, .evicted c') => c' = c
  | _ => false

def evictions (c : Bytes) (es : List (Time × CacheEvent T ε)) : ℕ := es.countP (CacheEvent.evicts c)

variable {es : List (Time × CacheEvent T ε)}

theorem evictions_le_append (c : Bytes) (es es' : List (Time × CacheEvent T ε)) :
    evictions c es ≤ evictions c (es ++ es') := by
  rw [evictions, evictions, countP_append]
  exact Nat.le_add_right _ _

theorem evictions_concat {c : Bytes} {e} (h : CacheEvent.evicts c e = false) :
    evictions c (es ++ [e]) = evictions c es := by
  simp [evictions, h]

theorem getElem?_concat {j : ℕ} {x} (h : es[j]? = some x) (e : Time × CacheEvent T ε) :
    (es ++ [e])[j]? = some x ∧ (es ++ [e]).take j = es.take j := by
  have hj : j < es.length := (List.getElem?_eq_some_iff.mp h).1
  exact ⟨by rw [getElem?_append_left hj, h], take_append_of_le_length hj.le⟩

section

variable (sha256 : Bytes → Bytes) (R : ReadRequest → Prop) (es : List (Time × CacheEvent T ε))

/-- A fetch for the key, begun after `gen` or more evictions of its cluster, returned the value. -/
def Sourced (k : ReadKey) (gen : ℕ) (v : T) : Prop :=
  ∃ x t number q t', es[x]? = some (t, .fetchStarted number q) ∧ R q ∧ q.key sha256 = k ∧
    gen ≤ evictions k.clusterID (es.take x) ∧ (t', .fetched number (.ok v)) ∈ es.drop x

def StageOk (q : ReadRequest) (gen : ℕ) : FlightStage T ε → Prop
  | .lookup => True
  | .fetch number => ∃ x t, es[x]? = some (t, .fetchStarted number q) ∧
      gen ≤ evictions (q.key sha256).clusterID (es.take x)
  | .store v => Sourced sha256 R es (q.key sha256) gen v
  | .ended (.ok v) => Sourced sha256 R es (q.key sha256) gen v
  | .ended (.error _) => True

structure FlightOk (f : Bytes) (fl : Flight T ε) : Prop where
  asked : R fl.request
  key : f = (fl.request.key sha256).flightKey fl.gen
  gen : fl.gen ≤ evictions (fl.request.key sha256).clusterID es
  stage : StageOk sha256 R es fl.request fl.gen fl.stage

def WaitOk (q : ReadRequest) (j : ℕ) : GetStage T ε → Prop
  | .missed => True
  | .keyed gen => evictions (q.key sha256).clusterID (es.take j) ≤ gen ∧
      gen ≤ evictions (q.key sha256).clusterID es
  | .waiting f => ∃ gen, f = (q.key sha256).flightKey gen ∧
      evictions (q.key sha256).clusterID (es.take j) ≤ gen
  | .answered (.ok v) =>
    Sourced sha256 R es (q.key sha256) (evictions (q.key sha256).clusterID (es.take j)) v
  | .answered (.error _) => True

structure CallOk (n : ℕ) (c : GetCall T ε) : Prop where
  asked : R c.request
  stage : ∃ j t, es[j]? = some (t, .missed n c.request) ∧ WaitOk sha256 R es c.request j c.stage

end

variable {R : ReadRequest → Prop}

variable {fl : Flight T ε} {a : CacheAction T ε} {e : CacheEvent T ε} {q : ReadRequest}
  {s' : ReadCache T ε} {f : Bytes} {k : ReadKey} {v : T} {gen n : ℕ}

theorem Sourced.grow (h : Sourced sha256 R es k gen v) (e : Time × CacheEvent T ε) :
    Sourced sha256 R (es ++ [e]) k gen v := by
  obtain ⟨x, t, number, q, t', hx, hq, hk, hgen, hfe⟩ := h
  have hln : x < es.length := (List.getElem?_eq_some_iff.mp hx).1
  obtain ⟨hx', htk⟩ := getElem?_concat hx e
  refine ⟨x, t, number, q, t', hx', hq, hk, by rwa [htk], ?_⟩
  rw [drop_append_of_le_length hln.le]
  exact mem_append_left _ hfe

theorem Sourced.mono {gen' : ℕ} (h : Sourced sha256 R es k gen v) (hle : gen' ≤ gen) :
    Sourced sha256 R es k gen' v := by
  obtain ⟨x, t, number, q, t', hx, hq, hk, hgen, hfe⟩ := h
  exact ⟨x, t, number, q, t', hx, hq, hk, hle.trans hgen, hfe⟩

theorem FlightOk.grow (h : FlightOk sha256 R es f fl) (e : Time × CacheEvent T ε) :
    FlightOk sha256 R (es ++ [e]) f fl where
  asked := h.asked
  key := h.key
  gen := h.gen.trans (evictions_le_append _ _ _)
  stage := by
    obtain ⟨q, gen, stage⟩ := fl
    have hst := h.stage
    cases stage with
    | lookup => trivial
    | fetch number =>
      obtain ⟨x, t, hx, hgen⟩ := hst
      obtain ⟨hx', htk⟩ := getElem?_concat hx e
      exact ⟨x, t, hx', by rwa [htk]⟩
    | store v => exact Sourced.grow hst e
    | ended result =>
      cases result with
      | error err => trivial
      | ok v => exact Sourced.grow hst e

theorem CallOk.grow {c} (h : CallOk sha256 R es n c) (e : Time × CacheEvent T ε) :
    CallOk sha256 R (es ++ [e]) n c where
  asked := h.asked
  stage := by
    obtain ⟨j, t, hj, hst⟩ := h.stage
    obtain ⟨hj', htk⟩ := getElem?_concat hj e
    refine ⟨j, t, hj', ?_⟩
    obtain ⟨q, stage⟩ := c
    cases stage with
    | missed => trivial
    | keyed gen =>
      simp only [WaitOk, htk]
      exact ⟨hst.1, hst.2.trans (evictions_le_append _ _ _)⟩
    | waiting f =>
      simp only [WaitOk, htk]
      exact hst
    | answered result =>
      cases result with
      | error err => trivial
      | ok v =>
        simp only [WaitOk, htk]
        exact Sourced.grow hst e

theorem flight_of_key {q' : ReadRequest} {gen' : ℕ}
    (h : (q.key sha256).flightKey gen = (q'.key sha256).flightKey gen') :
    q.key sha256 = q'.key sha256 ∧ gen = gen' := by
  have hjn : ∀ (k : ReadKey) (gen : ℕ),
      k.flightKey gen = (k.clusterID ++ 0 :: formatUint gen) ++ 0 :: k.identity := by
    simp [ReadKey.flightKey]
  rw [hjn, hjn] at h
  obtain ⟨hfr, hid⟩ := append_sep_inj_right (zero_not_mem_hex _) (zero_not_mem_hex _) h
  obtain ⟨hcu, hgen⟩ := append_sep_inj_right (zero_not_mem_formatUint gen)
    (zero_not_mem_formatUint gen') hfr
  exact ⟨ReadKey.ext hcu hid, formatUint_inj hgen⟩

/-! ## The invariant -/

def CacheEvent.starts : CacheEvent T ε → Option ℕ
  | .hit n _ _ => some n
  | .missed n _ => some n
  | _ => none

def Numbered (s : ReadCache T ε) (es : List (Time × CacheEvent T ε)) : Prop :=
  ∀ (x n : ℕ) (e : Time × CacheEvent T ε), es[x]? = some e → e.2.starts = some n →
    n < s.started ∧ ∀ (y : ℕ) (e' : Time × CacheEvent T ε), es[y]? = some e' →
      e'.2.starts = some n → y = x

structure Recorded (sha256 : Bytes → Bytes) (cfg : CacheConfig) (R : ReadRequest → Prop)
    (s : ReadCache T ε) (es : List (Time × CacheEvent T ε)) : Prop where
  aligned : s.map.Aligned cfg.maxEntries
  gens : ∀ c, s.gens c = evictions c es
  entries : ∀ k e, s.map.entries k = some e → Sourced sha256 R es k (s.gens k.clusterID) e.value ∧
    ∃ t, (t, .stored k e.value) ∈ es ∧ e.expiresAt = t + cfg.ttl
  flights : ∀ f fl, s.flights f = some fl → FlightOk sha256 R es f fl
  calls : ∀ n c, s.calls n = some c → CallOk sha256 R es n c

section

variable (h : Recorded sha256 cfg R s es)
include h

theorem Recorded.grow {e : Time × CacheEvent T ε}
    (he : ∀ c, CacheEvent.evicts c e = false) : Recorded sha256 cfg R s (es ++ [e]) where
  aligned := h.aligned
  gens c := by rw [evictions_concat (he c), h.gens]
  entries k entry hen := by
    obtain ⟨hsrc, t, hsd, hexp⟩ := h.entries k entry hen
    exact ⟨hsrc.grow e, t, mem_append_left _ hsd, hexp⟩
  flights f fl hfl := (h.flights f fl hfl).grow e
  calls n c hc := (h.calls n c hc).grow e

theorem Recorded.counters (started fetches : ℕ) :
    Recorded sha256 cfg R { s with started, fetches } es :=
  { h with }

theorem Recorded.setCall {stage} (hcl : CallOk sha256 R es n ⟨q, stage⟩) :
    Recorded sha256 cfg R (s.setCall n q stage) es :=
  { h with calls := forall_update h.calls hcl }

theorem Recorded.setFlight (hft : FlightOk sha256 R es f fl) :
    Recorded sha256 cfg R { s with flights := Function.update s.flights f (some fl) } es :=
  { h with flights := forall_update h.flights hft }

theorem Recorded.finish (n : ℕ) : Recorded sha256 cfg R (s.finish n) es :=
  { h with calls := fun m c hm => h.calls m c (update_none_cases hm).2 }

theorem Recorded.lookup (hv : s.lookup now k = some v) :
    Sourced sha256 R es k (s.gens k.clusterID) v ∧
      ∃ t, (t, .stored k v) ∈ es ∧ now - t < cfg.ttl := by
  unfold ReadCache.lookup at hv
  split at hv
  · cases hv
  next e hen =>
    split at hv
    · rename_i hnow
      cases hv
      obtain ⟨hsrc, t, hsd, hexp⟩ := h.entries k e hen
      refine ⟨hsrc, t, hsd, ?_⟩
      rw [hexp] at hnow
      exact sub_lt_iff_lt_add'.mpr hnow
    · cases hv

end

theorem WaitOk.deliver {j : ℕ} {result} (hwt : WaitOk sha256 R es q j (.waiting f))
    (hft : FlightOk sha256 R es f fl) (hst : fl.stage = .ended result) :
    WaitOk sha256 R es q j (.answered result) := by
  cases result with
  | error err => trivial
  | ok v =>
    obtain ⟨gen, hf, hgen⟩ := hwt
    obtain ⟨hkey, hgn⟩ := flight_of_key (hf.symm.trans hft.key)
    have hsrc := hft.stage
    rw [hst, StageOk, ← hkey, ← hgn] at hsrc
    exact hsrc.mono hgen

theorem Recorded.land (h : Recorded sha256 cfg R s es) {result} (hf : s.flights f = some fl)
    (hst : fl.stage = .ended result) : Recorded sha256 cfg R (s.land f result) es := by
  refine { h with
    flights := fun g fl' hg => h.flights g fl' (update_none_cases hg).2
    calls := fun n c hc => ?_ }
  · obtain ⟨c₀, hc₀, rfl⟩ := Option.map_eq_some_iff.mp hc
    have hcl := h.calls n c₀ hc₀
    obtain ⟨q, stage⟩ := c₀
    unfold ReadCache.deliver
    split
    next f' hwa =>
      split
      · rename_i hff
        subst hff
        subst hwa
        obtain ⟨j, t, hj, hwt⟩ := hcl.stage
        exact ⟨hcl.asked, j, t, hj, hwt.deliver (h.flights _ fl hf) hst⟩
      · exact hcl
    · exact hcl

theorem Recorded.evict (h : Recorded sha256 cfg R s es) (now : Time) (clusterID : Bytes) :
    Recorded sha256 cfg R (s.evictCluster clusterID)
      (es ++ [(now, .evicted (normalizedClusterID clusterID))]) where
  aligned := h.aligned.remove _
  gens c := by
    by_cases hc : c = normalizedClusterID clusterID
    · subst hc
      simp [ReadCache.evictCluster, evictions, CacheEvent.evicts, h.gens]
    · rw [evictions_concat (by simpa [CacheEvent.evicts] using Ne.symm hc), ← h.gens]
      simp [ReadCache.evictCluster, hc]
  entries k e hen := by
    simp only [ReadCache.evictCluster] at hen
    rw [h.aligned.remove_entries] at hen
    split at hen
    · cases hen
    · -- the entry is of another cluster, whose generation is as it was
      rename_i hot
      obtain ⟨hsrc, t, hsd, hexp⟩ := h.entries k e hen
      refine ⟨?_, t, mem_append_left _ hsd, hexp⟩
      have hgen : (s.evictCluster clusterID).gens k.clusterID = s.gens k.clusterID := by
        exact Function.update_of_ne (by simpa using hot) _ _
      rw [hgen]
      exact hsrc.grow _
  flights f fl hfl := (h.flights f fl hfl).grow _
  calls n c hc := (h.calls n c hc).grow _

theorem last_getElem? (es : List (Time × CacheEvent T ε)) (e : Time × CacheEvent T ε) :
    (es ++ [e])[es.length]? = some e ∧ (es ++ [e]).take es.length = es := by
  simp

section

variable (h : Recorded sha256 cfg R s es)
include h

theorem Recorded.missed (now : Time) (hq : R q) : Recorded sha256 cfg R { s with
        started := s.started + 1
        calls := Function.update s.calls s.started (some ⟨q, .missed⟩) }
      (es ++ [(now, .missed s.started q)]) := by
  have hgr := (h.counters (s.started + 1) s.fetches).grow (e := (now, .missed s.started q))
    fun _ => rfl
  exact hgr.setCall ⟨hq, es.length, now, (last_getElem? es _).1, trivial⟩

theorem Recorded.fetchStarted (now : Time) (hf : s.flights f = some fl) :
    Recorded sha256 cfg R { s.setFlight f fl (.fetch s.fetches) with fetches := s.fetches + 1 }
      (es ++ [(now, .fetchStarted s.fetches fl.request)]) := by
  have hgr := (h.counters s.started (s.fetches + 1)).grow
    (e := (now, .fetchStarted s.fetches fl.request)) fun _ => rfl
  have hft := (h.flights f fl hf).grow (now, .fetchStarted s.fetches fl.request)
  obtain ⟨hla, htk⟩ := last_getElem? es (now, .fetchStarted s.fetches fl.request)
  refine hgr.setFlight ⟨hft.asked, hft.key, hft.gen, es.length, now, hla, ?_⟩
  rw [htk]
  exact (h.flights f fl hf).gen

theorem Recorded.fetched (now : Time) {number : ℕ}
    (outcome : FetchOutcome T ε) (hf : s.flights f = some fl) (hst : fl.stage = .fetch number) :
    Recorded sha256 cfg R (s.setFlight f fl outcome.next)
      (es ++ [(now, .fetched number outcome)]) := by
  have hft := (h.flights f fl hf).grow (now, .fetched number outcome)
  refine (h.grow fun _ => rfl).setFlight ⟨hft.asked, hft.key, hft.gen, ?_⟩
  cases outcome with
  | failed err => trivial
  | panicked => trivial
  | ok v =>
    have hsta := (h.flights f fl hf).stage
    rw [hst] at hsta
    obtain ⟨x, t, hx, hgen⟩ := hsta
    have hln : x < es.length := (List.getElem?_eq_some_iff.mp hx).1
    obtain ⟨hx', htk⟩ := getElem?_concat hx (now, .fetched number (.ok v))
    refine ⟨x, t, number, fl.request, now, hx', hft.asked, rfl, by rwa [htk], ?_⟩
    rw [drop_append_of_le_length hln.le]
    exact mem_append_right _ (mem_singleton.mpr rfl)

theorem Recorded.ended (hf : s.flights f = some fl)
    (hv : Sourced sha256 R es (fl.request.key sha256) fl.gen v) :
    Recorded sha256 cfg R (s.setFlight f fl (.ended (.ok v))) es := by
  have hft := h.flights f fl hf
  exact h.setFlight ⟨hft.asked, hft.key, hft.gen, hv⟩

theorem Recorded.source (hf : s.flights f = some fl)
    (hst : fl.stage = .store v) : Sourced sha256 R es (fl.request.key sha256) fl.gen v := by
  have hsrc := (h.flights f fl hf).stage
  rw [hst] at hsrc
  exact hsrc

theorem Recorded.stored (now : Time) (hf : s.flights f = some fl)
    (hst : fl.stage = .store v) (hgen : s.gens (fl.request.key sha256).clusterID = fl.gen) :
    Recorded sha256 cfg R { s.setFlight f fl (.ended (.ok v)) with
        map := s.map.put cfg.maxEntries (fl.request.key sha256) ⟨v, now + cfg.ttl⟩ }
      (es ++ [(now, .stored (fl.request.key sha256) v)]) := by
  have hsrc := h.source hf hst
  have hgr := (h.ended hf hsrc).grow (e := (now, .stored (fl.request.key sha256) v)) fun _ => rfl
  refine ⟨h.aligned.put _ _, hgr.gens, ?_, hgr.flights, hgr.calls⟩
  intro k e hen
  rcases FifoMap.put_entries hen with ⟨rfl, rfl⟩ | ⟨-, hold⟩
  · refine ⟨?_, now, mem_append_right _ (mem_singleton.mpr rfl), rfl⟩
    refine (hsrc.grow _).mono ?_
    exact le_of_eq hgen
  · exact hgr.entries k e hold

end

theorem Recorded.move (hmv : CacheMove sha256 cfg now s a e s') (h : Recorded sha256 cfg R s es)
    (hask : ∀ q, a = .get q → R q) : Recorded sha256 cfg R s' (es ++ [(now, e)]) := by
  cases hmv with
  | idle => exact h.grow fun _ => rfl
  | hit hv => exact (h.counters (s.started + 1) s.fetches).grow fun _ => rfl
  | missed q => exact h.missed now (hask q rfl)
  | keyed hcl =>
    have hgr := h.grow (e := (now, .idle)) fun _ => rfl
    obtain ⟨hq, j, t, hj, -⟩ := hgr.calls _ _ hcl
    refine hgr.setCall ⟨hq, j, t, hj, ?_, ?_⟩
    · rw [hgr.gens]
      exact (take_sublist _ _).countP_le
    · rw [hgr.gens]
  | joined hcl =>
    have hgr := h.grow (e := (now, .idle)) fun _ => rfl
    obtain ⟨hq, j, t, hj, hle, -⟩ := hgr.calls _ _ hcl
    exact hgr.setCall ⟨hq, j, t, hj, _, rfl, hle⟩
  | @opened n q gen hcl =>
    have hgr := h.grow (e := (now, .idle)) fun _ => rfl
    obtain ⟨hq, j, t, hj, hle, hgen⟩ := hgr.calls _ _ hcl
    have hwai : CallOk sha256 R (es ++ [(now, .idle)]) n
        ⟨q, .waiting ((q.key sha256).flightKey gen)⟩ := ⟨hq, j, t, hj, gen, rfl, hle⟩
    exact (hgr.setCall hwai).setFlight ⟨hq, rfl, hgen, trivial⟩
  | flightHit hf hv =>
    have hsrc := (h.lookup hv).1
    rw [h.gens] at hsrc
    exact (h.ended hf (hsrc.mono (h.flights _ _ hf).gen)).grow fun _ => rfl
  | fetchStarted hf => exact h.fetchStarted now hf
  | fetched outcome hf hst => exact h.fetched now outcome hf hst
  | unstored hf hst => exact (h.ended hf (h.source hf hst)).grow fun _ => rfl
  | stored hf hst hgen => exact h.stored now hf hst hgen
  | landed hf hst => exact (h.land hf hst).grow fun _ => rfl
  | returned | cancelled => exact (h.finish _).grow fun _ => rfl
  | evicted clusterID => exact h.evict now clusterID

theorem Numbered.move (hmv : CacheMove sha256 cfg now s a e s') (h : Numbered s es) :
    Numbered s' (es ++ [(now, e)]) := by
  have hste : (e.starts = none ∧ s'.started = s.started) ∨
      (e.starts = some s.started ∧ s'.started = s.started + 1) := by
    cases hmv with
    | hit | missed => exact .inr ⟨rfl, rfl⟩
    | _ => exact .inl ⟨rfl, rfl⟩
  -- the number of an earlier call is not the one given now
  have hot : ∀ {x : ℕ} {n : ℕ} {ev : Time × CacheEvent T ε}, es[x]? = some ev →
      ev.2.starts = some n → e.starts ≠ some n := by
    intro x n ev hx hn he
    rcases hste with ⟨hno, -⟩ | ⟨hsm, -⟩
    · rw [hno] at he
      cases he
    · cases hsm.symm.trans he
      exact lt_irrefl _ (h x _ ev hx hn).1
  intro x n ev hx hn
  rcases getElem?_concat_cases hx with hx | ⟨rfl, rfl⟩
  · obtain ⟨hsta, hon⟩ := h x n ev hx hn
    refine ⟨by rcases hste with ⟨-, hs⟩ | ⟨-, hs⟩ <;> omega, fun y ev' hy hn' => ?_⟩
    rcases getElem?_concat_cases hy with hy | ⟨rfl, rfl⟩
    · exact hon y ev' hy hn'
    · exact absurd hn' (hot hx hn)
  · refine ⟨?_, fun y ev' hy hn' => ?_⟩
    · rcases hste with ⟨hno, -⟩ | ⟨hsm, hs⟩
      · rw [hno] at hn
        cases hn
      · cases hsm.symm.trans hn
        omega
    · rcases getElem?_concat_cases hy with hy | ⟨rfl, rfl⟩
      · exact absurd hn (hot hy hn')
      · rfl

/-! ## Every history -/

def Requested (history : List (Time × CacheAction T ε)) (q : ReadRequest) : Prop :=
  ∃ t, (t, .get q) ∈ history

def CollisionFree (sha256 : Bytes → Bytes) (history : List (Time × CacheAction T ε)) : Prop :=
  ∀ q q', Requested history q → Requested history q' →
    cacheKey sha256 q.identity = cacheKey sha256 q'.identity → SameIdentity q.identity q'.identity

theorem recorded_after (history before after : List (Time × CacheAction T ε))
    (hall : history = before ++ after) :
    Recorded sha256 cfg (Requested history) ((remoteCache sha256 cfg T ε).run before)
        ((remoteCache sha256 cfg T ε).trace before) ∧
      Numbered ((remoteCache sha256 cfg T ε).run before)
        ((remoteCache sha256 cfg T ε).trace before) := by
  refine Reactive.run_inv_of_split (M := remoteCache sha256 cfg T ε)
    (P := fun s es => Recorded sha256 cfg (Requested history) s es ∧ Numbered s es) ?_ ?_
    before after hall
  · refine ⟨⟨FifoMap.aligned_empty, fun _ => rfl, ?_, ?_, ?_⟩, ?_⟩
    · exact fun k e h => nomatch h
    · exact fun f fl h => nomatch h
    · exact fun n c h => nomatch h
    · exact fun x n e h => nomatch h
  · rintro as ⟨now, a⟩ bs hsp ⟨hrec, hnum⟩
    have hmv : CacheMove sha256 cfg now ((remoteCache sha256 cfg T ε).run as) a _ _ :=
      move_of_react a
    refine ⟨hrec.move hmv ?_, hnum.move hmv⟩
    rintro q rfl
    exact ⟨now, by rw [hsp]; simp⟩

def CacheEvent.value : CacheEvent T ε → Option (ℕ × ReadRequest × T)
  | .hit n q v => some (n, q, v)
  | .returned n q (.ok v) => some (n, q, v)
  | _ => none

def CacheEvent.served (sha256 : Bytes → Bytes) : CacheEvent T ε → Option (ReadKey × T)
  | .hit _ q v => some (q.key sha256, v)
  | .flightHit k v => some (k, v)
  | _ => none

/-- A fetch for cluster and identity of the request began at `x` and returned the value. -/
def FetchedFor (es : List (Time × CacheEvent T ε)) (q : ReadRequest) (v : T) (x : ℕ) : Prop :=
  ∃ t number q' t', es[x]? = some (t, .fetchStarted number q') ∧
    normalizedClusterID q'.clusterID = normalizedClusterID q.clusterID ∧
    SameIdentity q'.identity q.identity ∧ (t', .fetched number (.ok v)) ∈ es.drop x

/-- What a returned value rests on: where its call began, and its source. -/
theorem Recorded.returns (h : Recorded sha256 cfg R s es)
    (hmv : CacheMove sha256 cfg now s a e s') (hask : ∀ q, a = .get q → R q)
    (hvl : e.value = some (n, q, v)) :
    R q ∧ ∃ j ev, (es ++ [(now, e)])[j]? = some ev ∧ ev.2.starts = some n ∧
      Sourced sha256 R es (q.key sha256)
        (evictions (q.key sha256).clusterID ((es ++ [(now, e)]).take j)) v := by
  cases hmv with
  | @hit q v hv =>
    cases hvl
    obtain ⟨hla, htk⟩ := last_getElem? es (now, .hit s.started q v)
    refine ⟨hask q rfl, es.length, _, hla, rfl, ?_⟩
    rw [htk, ← h.gens]
    exact (h.lookup hv).1
  | @returned n q result hcl =>
    cases result with
    | error err => cases hvl
    | ok v =>
      cases hvl
      obtain ⟨hq, j, t, hj, hsrc⟩ := h.calls _ _ hcl
      obtain ⟨hj', htk⟩ := getElem?_concat hj (now, .returned n q (.ok v))
      exact ⟨hq, j, _, hj', rfl, by rw [htk]; exact hsrc⟩
  | _ => cases hvl

theorem Recorded.serves (h : Recorded sha256 cfg R s es) (hmv : CacheMove sha256 cfg now s a e s')
    (hsr : e.served sha256 = some (k, v)) : ∃ t, (t, .stored k v) ∈ es ∧ now - t < cfg.ttl := by
  cases hmv with
  | hit hv | flightHit _ hv =>
    cases hsr
    exact (h.lookup hv).2
  | _ => cases hsr

/-- A value that a `Get` returns was fetched for its cluster and identity, by a fetch that began
after every eviction of the cluster before the `Get`; a value from the map was stored less than the
TTL before; only fetched values are stored; the map keeps its bound and its list of keys. -/
theorem reads_isolated_and_fresh (sha256 : Bytes → Bytes) (ttl : Duration) (maxEntries : Int)
    (history : List (Time × CacheAction T ε)) (hkeys : CollisionFree sha256 history) :
    let M := remoteCache sha256 (newCache ttl maxEntries) T ε
    let es := M.trace history
    (∀ i ev n q v, es[i]? = some ev → ev.2.value = some (n, q, v) →
      ∃ x < i, FetchedFor (es.take i) q v x ∧ ∀ j ev', es[j]? = some ev' → ev'.2.starts = some n →
          ∀ y t, es[y]? = some (t, .evicted (normalizedClusterID q.clusterID)) → y < j → y < x) ∧
    (∀ i ev k v, es[i]? = some ev → ev.2.served sha256 = some (k, v) →
      ∃ t, (t, .stored k v) ∈ es.take i ∧ ev.1 - t < (newCache ttl maxEntries).ttl) ∧
    (∀ k e, (M.run history).map.entries k = some e →
      ∃ number t, (t, .fetched number (.ok e.value)) ∈ es) ∧
    (M.run history).map.Aligned (newCache ttl maxEntries).maxEntries := by
  intro M es
  have hrun : ∀ before after, history = before ++ after →
      Recorded sha256 (newCache ttl maxEntries) (Requested history) (M.run before)
        (M.trace before) ∧ Numbered (M.run before) (M.trace before) :=
    recorded_after history
  obtain ⟨hrec, hnum⟩ := hrun history [] (append_nil _).symm
  refine ⟨?_, ?_, ?_, hrec.aligned⟩
  · intro i ev n q v hi hvl
    obtain ⟨before, ⟨now, a⟩, after, hsp, rfl, htr⟩ := Reactive.split_of_trace hi
    have hmv : CacheMove sha256 (newCache ttl maxEntries) now (M.run before) a _ _ :=
      move_of_react a
    have hask : ∀ q, a = .get q → Requested history q := by
      rintro q rfl
      exact ⟨now, by rw [hsp]; simp⟩
    obtain ⟨hq, j, ev, hj, hstr, hsrc⟩ := (hrun before _ hsp).1.returns hmv hask hvl
    -- the events up to this one are a first part of all events
    have hfi : M.trace before ++ [M.event before (now, a)] = es.take (i + 1) := by
      rw [htr, take_add_one, hi]
      rfl
    obtain ⟨hji, hj⟩ := getElem?_of_take (hfi ▸ hj)
    have hps : (M.trace before ++ [M.event before (now, a)]).take j = es.take j := by
      rw [hfi, take_take, min_eq_left (by omega)]
    obtain ⟨x, t, number, q', t', hx, hq', hkey, hgen, hfe⟩ := hsrc
    rw [htr] at hx hfe
    obtain ⟨hxi, -⟩ := getElem?_of_take hx
    refine ⟨x, hxi, ⟨t, number, q', t', hx, congrArg ReadKey.clusterID hkey, ?_, hfe⟩, ?_⟩
    · exact hkeys q' q hq' hq (congrArg ReadKey.identity hkey)
    · intro j' ev' hj' hstr' y t'' hy hyj
      obtain rfl := (hnum j n ev hj hstr).2 j' ev' hj' hstr'
      have hcn : evictions (q.key sha256).clusterID (es.take j') ≤
          evictions (q.key sha256).clusterID (es.take x) := by
        rw [← hps]
        refine hgen.trans (le_of_eq ?_)
        rw [htr, take_take, min_eq_left hxi.le]
      exact lt_of_countP_take_le hy (by simp [CacheEvent.evicts, ReadRequest.key]) hyj hcn
  · intro i ev k v hi hsr
    obtain ⟨before, ⟨now, a⟩, after, hsp, rfl, htr⟩ := Reactive.split_of_trace hi
    have hmv : CacheMove sha256 (newCache ttl maxEntries) now (M.run before) a _ _ :=
      move_of_react a
    obtain ⟨t, hsd, hage⟩ := (hrun before _ hsp).1.serves hmv hsr
    exact ⟨t, htr ▸ hsd, hage⟩
  · intro k e hen
    obtain ⟨⟨x, t, number, q, t', -, -, -, -, hfe⟩, -⟩ := hrec.entries k e hen
    exact ⟨number, t', mem_of_mem_drop hfe⟩

def aliceReads : ReadRequest := ⟨ascii "prod", ⟨ascii "alice", [ascii "dev"]⟩⟩

/-- A second read does not join the evicted fetch, and a third is served what it fetched. -/
def evictedMidFetch : List (Time × CacheAction ℕ Unit) :=
  let before := (aliceReads.key id).flightKey 0
  let after := (aliceReads.key id).flightKey 1
  [(0, .get aliceReads), (1, .generation 0), (2, .join 0), (3, .flightLookup before),
    (4, .evictCluster (ascii "prod")), (5, .get aliceReads), (6, .generation 1), (7, .join 1),
    (8, .flightLookup after), (9, .fetched before (.ok 1)), (10, .fetched after (.ok 2)),
    (11, .store before), (12, .store after), (13, .land before), (14, .land after),
    (15, .receive 0), (16, .receive 1), (17, .get aliceReads)]

theorem reads_isolated_and_fresh_evictedMidFetch :
    let es := (remoteCache id (newCache 60 2) ℕ Unit).trace evictedMidFetch
    (es[17]?.bind fun ev => ev.2.value) = some (2, aliceReads, 2) ∧
      ∃ x < 17, 4 < x ∧ FetchedFor (es.take 17) aliceReads 2 x := by
  have hrq : ∀ q, Requested evictedMidFetch q → q = aliceReads := by
    rintro q ⟨t, hq⟩
    simp only [evictedMidFetch, mem_cons, not_mem_nil, Prod.mk.injEq,
      CacheAction.get.injEq, reduceCtorEq, and_false, false_or, or_false] at hq
    rcases hq with ⟨-, rfl⟩ | ⟨-, rfl⟩ | ⟨-, rfl⟩ <;> rfl
  have hks : CollisionFree id evictedMidFetch := by
    intro q q' hq hq' _
    rw [hrq q hq, hrq q' hq']
    exact ⟨rfl, .refl _⟩
  obtain ⟨hret, -⟩ := reads_isolated_and_fresh id 60 2 evictedMidFetch hks
  refine ⟨by decide, ?_⟩
  obtain ⟨x, hx, hfe, hfs⟩ := hret 17 (17, .hit 2 aliceReads 2) 2 aliceReads 2 (by rfl) rfl
  exact ⟨x, hx, hfs 17 (17, .hit 2 aliceReads 2) (by rfl) rfl 4 4 (by rfl) (by decide), hfe⟩

end KubeCenter.K8s
