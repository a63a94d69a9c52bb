import KubeCenter.K8s.ClusterRouter
import KubeCenter.Lib.Calls

/-! # Clients made from an old record

A call that read the old record of a cluster and has not stored what it makes of it is in no cache:
it stores an old client after the eviction, and calls that join its flight are handed one. The
proof follows one eviction: from its begin on, calls hold what was read after the update, and old
entries are left only where the walk has not been. -/
namespace KubeCenter.K8s
open Lib Go Resources List
open Function (update update_of_ne update_self)

variable {ρ : Type}

/-! ## What the router promises -/

/-- A call that starts after an eviction yields nothing from a record read before its update. -/
def FreshAfterEviction (es : List (RouterEvent ρ)) : Prop :=
  ∀ (clusterID : Bytes) (u b r j i e n : ℕ) (q : ReadRequest) (ys : List (Yield ρ)),
    es[u]? = some (.updated clusterID) → u < b → es[b]? = some (.evictBegan e clusterID) →
    b < r → es[r]? = some (.evictReturned e) → r < j → es[j]? = some (.started n q) →
    j < i → es[i]? = some (.returned n q (.ok ys)) → q.clusterID = clusterID →
    ∀ y ∈ ys, ∀ reading ∈ y.readings, u < reading.readAt

def Quiet (s : Router ρ) (clusterID : Bytes) : Prop :=
  ∀ n c, s.calls n = some c → c.request.clusterID ≠ clusterID

/-- Every eviction of a history begins while no call on its cluster is running. -/
def QuietEvictions (sha256 : Bytes → Bytes) (wired : Bool) (history : List (RouterAction ρ)) :
    Prop :=
  ∀ before after clusterID, history = before ++ .evictCluster clusterID :: after →
    Quiet ((clusterRouter sha256 wired ρ).run before) clusterID

/-! ## What a call carries -/

def Goal.readings : Goal ρ → List (Reading ρ)
  | .client _ => []
  | .schema generation => [generation]

/-- What a call, or a flight it runs, may still store or hand on. -/
@[local simp] def RoutePc.held : RoutePc ρ → List (Reading ρ)
  | .joinConfig goal | .waitConfig goal | .read goal => goal.readings
  | .build goal reading | .make goal reading => reading :: goal.readings
  | .landSchema (.ok y) => y.readings
  | _ => []

def RoutePc.missed : RoutePc ρ → Bool
  | .joinSchema | .relook => true
  | _ => false

def RoutePc.answer : RoutePc ρ → List (Reading ρ)
  | .answered (.ok y) => y.readings
  | _ => []

def RouteCall.gathered (c : RouteCall ρ) : List (Reading ρ) :=
  c.got.flatMap Yield.readings ++ c.pc.answer

/-! ## Keys -/

variable {sha256 : Bytes → Bytes}

theorem clusterID_of_clientKey {q q' : ReadRequest}
    (h : q.clientKey sha256 = q'.clientKey sha256) : q.clusterID = q'.clusterID := by
  simp only [ReadRequest.clientKey, append_assoc, singleton_append] at h
  exact (append_sep_inj_right (zero_not_mem_hex _) (zero_not_mem_hex _) h).1

theorem ofCluster_clientKey (q : ReadRequest) :
    ofCluster q.clusterID (q.clientKey sha256) = true := by
  rw [ofCluster, isPrefixOf_iff_prefix]
  exact prefix_append _ _

theorem key_clusterID {q : ReadRequest} (h : isLocalClusterID q.clusterID = false) :
    (q.key sha256).clusterID = q.clusterID := by
  simp [ReadRequest.key, normalizedClusterID, h]

theorem setClient_cases {s : Router ρ} {kind kind' key key' v x}
    (h : (s.setClient kind key v).clients kind' key' = some x) :
    (kind' = kind ∧ key' = key ∧ v = some x) ∨
      ¬(kind' = kind ∧ key' = key) ∧ s.clients kind' key' = some x := by
  simp only [Router.setClient] at h
  by_cases hkn : kind' = kind
  · subst hkn
    rw [update_self] at h
    by_cases hkey : key' = key
    · rw [hkey, update_self] at h
      exact .inl ⟨rfl, hkey, h⟩
    · rw [update_of_ne hkey] at h
      exact .inr ⟨fun hpl => hkey hpl.2, h⟩
  · rw [update_of_ne hkn] at h
    exact .inr ⟨fun hpl => hkn hpl.1, h⟩

/-! ## From the begin of an eviction on -/

/-- The walk of the eviction has passed a key of a client cache. -/
def Passed : Option Eviction → ClientKind → Bytes → Prop
  | some ⟨_, .clients .dynamic _⟩, .typed, _ => True
  | some ⟨_, .clients kind visited⟩, kind', key => kind = kind' ∧ key ∈ visited
  | some ⟨_, .schemas⟩, _, _ => True
  | none, _, _ => True

theorem passed_at {ev : Eviction} {phase kind} {key : Bytes} (hph : ev.phase = phase)
    (h : Passed (some ⟨ev.clusterID, phase⟩) kind key) : Passed (some ev) kind key := by
  subst hph
  exact h

/-- An entry made from records read after `u`. -/
def SchemaCacheEntry.After (u : ℕ) (e : SchemaCacheEntry ρ) : Prop :=
  u < e.generation.readAt ∧ u < e.reading.readAt

/-- A call on the cluster. `T` says that it is the one followed. -/
structure CallAfter (sha256 : Bytes → Bytes) (u : ℕ) (T : Prop)
    (schemas : FifoMap ReadKey (SchemaCacheEntry ρ)) (now : Time) (c : RouteCall ρ) : Prop where
  held : ∀ reading ∈ c.pc.held, u < reading.readAt
  missed : c.pc.missed = true → ∀ e, schemas.entries (c.request.key sha256) = some e →
    e.After u ∨ e.expiresAt < now
  gathered : T → ∀ reading ∈ c.gathered, u < reading.readAt

section CallAfter

variable {u : ℕ} {t : Prop} {schemas : FifoMap ReadKey (SchemaCacheEntry ρ)} {now : Time}
  {c : RouteCall ρ}

theorem CallAfter.next (h : CallAfter sha256 u t schemas now c) {pc : RoutePc ρ}
    (hhd : ∀ reading ∈ pc.held, u < reading.readAt)
    (hmi : pc.missed = true → ∀ e, schemas.entries (c.request.key sha256) = some e →
      e.After u ∨ e.expiresAt < now) (han : t → ∀ reading ∈ pc.answer, u < reading.readAt) :
    CallAfter sha256 u t schemas now { c with pc } := by
  refine ⟨hhd, hmi, fun ht reading hrdg => ?_⟩
  rcases mem_append.mp hrdg with hgot | hnew
  · exact h.gathered ht reading (mem_append_left _ hgot)
  · exact han ht reading hnew

theorem CallAfter.answered (h : CallAfter sha256 u t schemas now c) {result}
    (hrs : t → ∀ y, result = .ok y → ∀ reading ∈ y.readings, u < reading.readAt) :
    CallAfter sha256 u t schemas now { c with pc := .answered result } := by
  refine h.next (by simp) (by simp [RoutePc.missed]) ?_
  intro ht reading hrdg
  cases result with
  | error err => cases hrdg
  | ok y => exact hrs ht y rfl reading hrdg

theorem withConfig_idle (goal : Goal ρ) (result : Except RouterError (Reading ρ)) :
    (Router.withConfig goal result).missed = false ∧
      (Router.withConfig goal result).answer = [] := by
  cases result <;> cases goal <;> exact ⟨rfl, rfl⟩

theorem withConfig_held {goal : Goal ρ} {result reading}
    (h : reading ∈ (Router.withConfig goal result).held) :
    result = .ok reading ∨ reading ∈ goal.readings := by
  cases result with
  | ok r =>
    rcases mem_cons.mp h with rfl | hgl
    · exact .inl rfl
    · exact .inr hgl
  | error err => cases goal <;> cases h

theorem CallAfter.withConfig (h : CallAfter sha256 u t schemas now c) {goal : Goal ρ}
    (hgl : ∀ reading ∈ goal.readings, u < reading.readAt) {result}
    (hrs : ∀ reading, result = .ok reading → u < reading.readAt) :
    CallAfter sha256 u t schemas now { c with pc := Router.withConfig goal result } := by
  obtain ⟨hmi, han⟩ := withConfig_idle goal result
  refine h.next (fun reading hrdg => ?_) (by simp [hmi]) (by simp [han])
  rcases withConfig_held hrdg with hok | hold
  · exact hrs reading hok
  · exact hgl reading hold

end CallAfter

/-- The eviction until it returns, what comes after, or one call that started after it. -/
inductive Watch where
  | eviction
  | returned
  | call (n : ℕ)

/-- The eviction `e₀`, begun after the step `u`, while no call on the cluster was running. -/
structure Draining (sha256 : Bytes → Bytes) (clusterID : Bytes) (u e₀ : ℕ) (w : Watch)
    (s : Router ρ) : Prop where
  steps : u < s.steps
  begun : e₀ < s.evicted
  cluster : ∀ ev, s.evictions e₀ = some ev → ev.clusterID = clusterID
  clients : ∀ kind (q : ReadRequest) e, q.clusterID = clusterID →
    s.clients kind (q.clientKey sha256) = some e →
    Passed (s.evictions e₀) kind (q.clientKey sha256) → u < e.reading.readAt
  schemas : s.evictions e₀ = none → ∀ k e, k.clusterID = clusterID →
    s.schemas.entries k = some e → e.After u
  calls : ∀ n c, s.calls n = some c → c.request.clusterID = clusterID →
    CallAfter sha256 u (w = .call n) s.schemas s.now c
  returned : w ≠ .eviction → s.evictions e₀ = none

namespace Draining

variable {clusterID : Bytes} {u e₀ : ℕ} {w : Watch} {s : Router ρ}

variable (h : Draining sha256 clusterID u e₀ w s)
include h

/-! ### What leaves it alone -/

theorem setCalls (calls : ℕ → Option (RouteCall ρ))
    (hca : ∀ n c', calls n = some c' → ∃ c, s.calls n = some c ∧ c'.request = c.request ∧
      (c.request.clusterID = clusterID → CallAfter sha256 u (w = .call n) s.schemas s.now c')) :
    Draining sha256 clusterID u e₀ w { s with calls } :=
  { h with
    calls := fun n c' hc' hcu => by
      obtain ⟨c, -, hreq, haf⟩ := hca n c' hc'
      exact haf (hreq ▸ hcu) }

theorem flights (configFlights : Bytes → Bool) (schemaFlights : ReadKey → Bool) :
    Draining sha256 clusterID u e₀ w { s with configFlights, schemaFlights } :=
  { h with }

section Entries

-- the caches after entries have gone
variable (clients : ClientKind → Bytes → Option (CachedClient ρ))
  (schemas : FifoMap ReadKey (SchemaCacheEntry ρ))
  (hsc : ∀ k e, schemas.entries k = some e → s.schemas.entries k = some e)
include hsc

theorem drop (evictions : ℕ → Option Eviction)
    (hcu : ∀ ev, evictions e₀ = some ev → ev.clusterID = clusterID)
    (hcli : ∀ kind (q : ReadRequest) e, q.clusterID = clusterID →
      clients kind (q.clientKey sha256) = some e →
      Passed (evictions e₀) kind (q.clientKey sha256) →
      s.clients kind (q.clientKey sha256) = some e ∧
        Passed (s.evictions e₀) kind (q.clientKey sha256))
    (hret : s.evictions e₀ = none → evictions e₀ = none)
    (hgo : evictions e₀ = none → s.evictions e₀ = none ∨
      ∀ k, k.clusterID = clusterID → schemas.entries k = none) :
    Draining sha256 clusterID u e₀ w { s with clients, schemas, evictions } where
  steps := h.steps
  begun := h.begun
  cluster := hcu
  clients kind q e hq he hps := by
    obtain ⟨he, hps⟩ := hcli kind q e hq he hps
    exact h.clients kind q e hq he hps
  schemas hno k e hk he := by
    rcases hgo hno with hold | hem
    · exact h.schemas hold k e hk (hsc k e he)
    · have he : schemas.entries k = some e := he
      rw [hem k hk] at he
      cases he
  calls n c hc hcu :=
    ⟨(h.calls n c hc hcu).held, fun hmi e he => (h.calls n c hc hcu).missed hmi e (hsc _ e he),
      (h.calls n c hc hcu).gathered⟩
  returned hw := hret (h.returned hw)

theorem dropEntries (hcli : ∀ kind key e, clients kind key = some e → s.clients kind key = some e) :
    Draining sha256 clusterID u e₀ w { s with clients, schemas } :=
  h.drop clients schemas hsc s.evictions h.cluster
    (fun kind _ e _ he hps => ⟨hcli kind _ e he, hps⟩) id .inl

theorem otherPhase {e : ℕ} (he : e₀ ≠ e) (next : Option Eviction)
    (hcli : ∀ kind key x, clients kind key = some x → s.clients kind key = some x) :
    Draining sha256 clusterID u e₀ w
      { s with clients, schemas, evictions := update s.evictions e next } := by
  refine h.drop clients schemas hsc _ ?_ ?_ ?_ ?_
  all_goals rw [update_of_ne he]
  · exact h.cluster
  · exact fun kind q x _ hx hps => ⟨hcli kind _ x hx, hps⟩
  · exact id
  · exact .inl

/-- The eviction itself goes on. What it has passed in addition holds no entry of the
cluster. -/
theorem ownPhase {ev : Eviction} (hev : s.evictions e₀ = some ev) (next : Option Eviction)
    (hnx : ∀ ev', next = some ev' → ev'.clusterID = ev.clusterID)
    (hcli : ∀ kind (q : ReadRequest) x, q.clusterID = clusterID →
      clients kind (q.clientKey sha256) = some x → Passed next kind (q.clientKey sha256) →
      s.clients kind (q.clientKey sha256) = some x ∧ Passed (some ev) kind (q.clientKey sha256))
    (hgo : next = none → ∀ k, k.clusterID = clusterID → schemas.entries k = none) :
    Draining sha256 clusterID u e₀ w
      { s with clients, schemas, evictions := update s.evictions e₀ next } := by
  refine h.drop clients schemas hsc _ ?_ ?_ ?_ ?_
  all_goals rw [update_self]
  · exact fun ev' hev' => (hnx ev' hev').trans (h.cluster ev hev)
  · rw [hev]
    exact hcli
  · intro hno
    rw [hev] at hno
    cases hno
  · exact fun hno => .inr (hgo hno)

end Entries

theorem storeClient (kind : ClientKind) (q : ReadRequest) {e : CachedClient ρ}
    (hfs : q.clusterID = clusterID → u < e.reading.readAt) :
    Draining sha256 clusterID u e₀ w (s.setClient kind (q.clientKey sha256) (some e)) :=
  { h with
    clients := fun kind' q' e' hq' he' hps => by
      rcases setClient_cases he' with ⟨rfl, hkey, ⟨⟩⟩ | ⟨-, hold⟩
      · exact hfs ((clusterID_of_clientKey hkey).symm.trans hq')
      · exact h.clients kind' q' e' hq' hold hps }

theorem storeSchema {q : ReadRequest} (hrm : isLocalClusterID q.clusterID = false)
    {e : SchemaCacheEntry ρ} (hfs : q.clusterID = clusterID → e.After u) :
    Draining sha256 clusterID u e₀ w
      { s with schemas := s.schemas.put maxSchemaCacheEntries (q.key sha256) e } where
  steps := h.steps
  begun := h.begun
  cluster := h.cluster
  clients := h.clients
  schemas hno k e' hk he' := by
    rcases FifoMap.put_entries he' with ⟨rfl, rfl⟩ | ⟨-, hold⟩
    · exact hfs ((key_clusterID hrm).symm.trans hk)
    · exact h.schemas hno k e' hk hold
  calls n c hc hcu := by
    refine ⟨(h.calls n c hc hcu).held, fun hmi e' he' => ?_, (h.calls n c hc hcu).gathered⟩
    rcases FifoMap.put_entries he' with ⟨hkey, rfl⟩ | ⟨-, hold⟩
    · have hcl := congrArg ReadKey.clusterID hkey
      rw [key_clusterID c.remote, key_clusterID hrm] at hcl
      exact .inl (hfs (hcl.symm.trans hcu))
    · exact (h.calls n c hc hcu).missed hmi e' hold
  returned := h.returned

/-! ### The steps of a call -/

theorem deleteClient (kind : ClientKind) (key : Bytes) :
    Draining sha256 clusterID u e₀ w (s.setClient kind key none) := by
  refine h.dropEntries _ s.schemas (fun _ _ => id) fun kind' key' e' he' => ?_
  rcases setClient_cases he' with ⟨-, -, hno⟩ | ⟨-, hold⟩
  · cases hno
  · exact hold

theorem finish (n : ℕ) :
    Draining sha256 clusterID u e₀ w { s with calls := update s.calls n none } := by
  refine h.setCalls _ fun m c' hc' => ?_
  obtain ⟨-, hc'⟩ := update_none_cases hc'
  exact ⟨c', hc', rfl, h.calls m c' hc'⟩

omit h in
theorem getSchema_cases (s : Router ρ) (k : ReadKey) :
    (∃ e, s.getSchema k = some e ∧ s.schemas.entries k = some e ∧ ¬ e.expiresAt < s.now) ∨
      (s.getSchema k = none ∧ ∀ e, s.schemas.entries k = some e → e.expiresAt < s.now) := by
  unfold Router.getSchema
  cases he : s.schemas.entries k with
  | none => exact .inr ⟨rfl, by simp⟩
  | some e =>
    by_cases hexp : e.expiresAt < s.now
    · exact .inr ⟨if_pos hexp, fun e' he' => Option.some.inj he' ▸ hexp⟩
    · exact .inl ⟨e, if_neg hexp, rfl, hexp⟩

omit h in
theorem getRecord_readAt {clusterID' : Bytes} {ok : Bool} {r}
    (h : s.getRecord clusterID' ok = some r) : r.readAt = s.steps := by
  unfold Router.getRecord at h
  split at h
  · obtain ⟨record, -, rfl⟩ := Option.map_eq_some_iff.mp h
    rfl
  · cases h

section Steps

variable {n : ℕ} {c : RouteCall ρ} (hc : s.calls n = some c)
include hc

theorem goto (pc : RoutePc ρ) (hpc : c.request.clusterID = clusterID →
      CallAfter sha256 u (w = .call n) s.schemas s.now { c with pc }) :
    Draining sha256 clusterID u e₀ w (s.goto n c pc) := by
  refine h.setCalls _ fun m c' hc' => ?_
  obtain ⟨rfl, rfl⟩ | ⟨-, hc'⟩ := update_some_cases hc'
  · exact ⟨c, hc, rfl, hpc⟩
  · exact ⟨c', hc', rfl, h.calls m c' hc'⟩

theorem advance {pc : RoutePc ρ}
    (hhd : c.request.clusterID = clusterID → ∀ reading ∈ pc.held, u < reading.readAt)
    (hmi : c.request.clusterID = clusterID → pc.missed = true →
      ∀ e, s.schemas.entries (c.request.key sha256) = some e → e.After u ∨ e.expiresAt < s.now)
    (han : c.request.clusterID = clusterID → w = .call n →
      ∀ reading ∈ pc.answer, u < reading.readAt) :
    Draining sha256 clusterID u e₀ w (s.goto n c pc) := by
  exact h.goto hc pc fun hcu => (h.calls n c hc hcu).next (hhd hcu) (hmi hcu) (han hcu)

theorem onward (pc : RoutePc ρ) (hmi : pc.missed = false) (han : pc.answer = [])
    (hhd : c.request.clusterID = clusterID → ∀ reading ∈ pc.held, u < reading.readAt) :
    Draining sha256 clusterID u e₀ w (s.goto n c pc) := by
  refine h.advance hc hhd (fun _ hag => ?_) fun _ _ reading hrdg => ?_
  · rw [hmi] at hag
    cases hag
  · rw [han] at hrdg
    cases hrdg

theorem answer (result : Except RouterError (Yield ρ))
    (han : c.request.clusterID = clusterID → w = .call n → ∀ y, result = .ok y →
      ∀ reading ∈ y.readings, u < reading.readAt) :
    Draining sha256 clusterID u e₀ w (s.goto n c (.answered result)) := by
  exact h.goto hc (.answered result) fun hcu => (h.calls n c hc hcu).answered (han hcu)

/-- A flight ends: the call that ran it goes on, and so do those it hands its result to. -/
theorem land (configFlights : Bytes → Bool) (schemaFlights : ReadKey → Bool) {deliver pc}
    (hdl : ∀ m c', s.calls m = some c' → (deliver c').request = c'.request ∧
      (c'.request.clusterID = clusterID →
        CallAfter sha256 u (w = .call m) s.schemas s.now (deliver c')))
    (hpc : c.request.clusterID = clusterID →
      CallAfter sha256 u (w = .call n) s.schemas s.now { c with pc }) :
    Draining sha256 clusterID u e₀ w
      ({ s with configFlights, schemaFlights,
                calls := fun m => (s.calls m).map deliver }.goto n c pc) := by
  let calls := update (fun m => (s.calls m).map deliver) n (some { c with pc })
  refine (h.setCalls calls fun m c' hc' => ?_).flights configFlights schemaFlights
  obtain ⟨rfl, rfl⟩ | ⟨-, hc'⟩ := update_some_cases hc'
  · exact ⟨c, hc, rfl, hpc⟩
  · obtain ⟨d, hd, rfl⟩ := Option.map_eq_some_iff.mp hc'
    obtain ⟨hreq, haf⟩ := hdl m d hd
    exact ⟨d, hd, hreq, haf⟩

theorem lookClient (kind : ClientKind) :
    Draining sha256 clusterID u e₀ w (s.lookClient sha256 n c kind) := by
  unfold Router.lookClient
  cases he : s.clients kind (c.request.clientKey sha256) with
  | none =>
    simp only [he]
    exact h.onward hc (.joinConfig (.client kind)) rfl rfl (by simp [Goal.readings])
  | some e =>
    simp only [he]
    split
    · refine h.answer hc _ ?_
      -- What is of interest began after the eviction returned, so every place has been passed.
      rintro hcu hn y ⟨⟩ reading hrdg
      obtain rfl := mem_singleton.mp hrdg
      refine h.clients kind c.request e hcu he ?_
      rw [h.returned (by rw [hn]; nofun)]
      trivial
    · exact (h.deleteClient kind _).onward hc (.joinConfig (.client kind)) rfl rfl
        (by simp [Goal.readings])

theorem lookSchema : Draining sha256 clusterID u e₀ w (s.lookSchema sha256 n c) := by
  unfold Router.lookSchema
  rcases getSchema_cases s (c.request.key sha256) with ⟨e, hget, he, -⟩ | ⟨hget, hexp⟩
  · rw [hget]
    refine h.answer hc _ ?_
    rintro hcu hn y ⟨⟩ reading hrdg
    have hk : (c.request.key sha256).clusterID = clusterID := (key_clusterID c.remote).trans hcu
    obtain ⟨hgen, hrd⟩ := h.schemas (h.returned (by rw [hn]; nofun)) _ e hk he
    rcases mem_pair.mp hrdg with rfl | rfl
    · exact hgen
    · exact hrd
  · rw [hget]
    exact h.advance hc (by simp) (fun _ _ e he => .inr (hexp e he)) (by simp [RoutePc.answer])

theorem joinSchema (hpc : c.pc = .joinSchema) :
    Draining sha256 clusterID u e₀ w (s.joinSchema sha256 n c) := by
  unfold Router.joinSchema
  dsimp only
  split
  · exact h.onward hc _ rfl rfl (by simp)
  · have hjn := h.flights s.configFlights (update s.schemaFlights (c.request.key sha256) true)
    refine hjn.advance hc (by simp) ?_ (by simp [RoutePc.answer])
    intro hcu _
    exact (h.calls n c hc hcu).missed (by rw [hpc]; rfl)

/-- An entry that is there, and young enough, only for the second look was stored in between. -/
theorem relook (hpc : c.pc = .relook) : Draining sha256 clusterID u e₀ w (s.relook sha256 n c) := by
  unfold Router.relook
  rcases getSchema_cases s (c.request.key sha256) with ⟨e, hget, he, hli⟩ | ⟨hget, -⟩
  · rw [hget]
    refine h.onward hc _ rfl rfl fun hcu reading hrdg => ?_
    rcases (h.calls n c hc hcu).missed (by rw [hpc]; rfl) e he with haf | hexp
    · rcases mem_pair.mp hrdg with rfl | rfl
      · exact haf.1
      · exact haf.2
    · exact absurd hexp hli
  · rw [hget]
    exact h.onward hc _ rfl rfl (by simp)

variable {goal : Goal ρ} {r : Reading ρ}

theorem readGeneration (ok : Bool) :
    Draining sha256 clusterID u e₀ w (s.readGeneration n c ok).2 := by
  unfold Router.readGeneration
  cases hr : s.getRecord c.request.clusterID ok with
  | none => exact h.onward hc _ rfl rfl (by simp)
  | some r =>
    refine h.onward hc _ rfl rfl fun _ reading hrdg => ?_
    obtain rfl := mem_singleton.mp hrdg
    rw [getRecord_readAt hr]
    exact h.steps

theorem held_at {pc} (hpc : c.pc = pc)
    (hcu : c.request.clusterID = clusterID) : ∀ reading ∈ pc.held, u < reading.readAt :=
  hpc ▸ (h.calls n c hc hcu).held

theorem failed (goal : Goal ρ) (err : RouterError) :
    Draining sha256 clusterID u e₀ w (s.goto n c (Router.failed goal err)) := by
  cases goal with
  | client kind => exact h.answer hc _ (by simp)
  | schema generation => exact h.onward hc (.landSchema (.error err)) rfl rfl (by simp)

theorem joinConfig (hpc : c.pc = .joinConfig goal) :
    Draining sha256 clusterID u e₀ w (s.joinConfig sha256 n c goal) := by
  have hhd := h.held_at hc hpc
  unfold Router.joinConfig
  dsimp only
  split
  · exact h.failed hc goal .noUser
  · split
    · exact h.onward hc _ rfl rfl hhd
    · have hjn := h.flights
        (update s.configFlights (c.request.clientKey sha256) true) s.schemaFlights
      exact hjn.onward hc (.read goal) rfl rfl hhd

theorem landConfig {result}
    (hgl : c.request.clusterID = clusterID → ∀ reading ∈ goal.readings, u < reading.readAt)
    (hrs : c.request.clusterID = clusterID →
      ∀ reading, result = .ok reading → u < reading.readAt) :
    Draining sha256 clusterID u e₀ w (s.landConfig sha256 n c goal result) := by
  refine h.land hc _ s.schemaFlights (fun m c' hc' => ?_)
    fun hcu => (h.calls n c hc hcu).withConfig (hgl hcu) (hrs hcu)
  unfold Router.deliverConfig
  split
  next goal' hpc =>
    split
    · rename_i hkey
      have hsm := clusterID_of_clientKey hkey
      refine ⟨rfl, fun hcu => ?_⟩
      have haf := h.calls m c' hc' hcu
      refine haf.withConfig (fun r hr => ?_) (hrs (hsm.symm.trans hcu))
      exact haf.held r (by rw [hpc]; exact hr)
    · exact ⟨rfl, h.calls m c' hc'⟩
  · exact ⟨rfl, h.calls m c' hc'⟩

theorem readRecord (hpc : c.pc = .read goal) (ok : Bool) :
    Draining sha256 clusterID u e₀ w (s.readRecord sha256 n c goal ok).2 := by
  have hgl := h.held_at hc hpc
  unfold Router.readRecord
  cases hr : s.getRecord c.request.clusterID ok with
  | none => exact h.landConfig hc hgl (by simp)
  | some r =>
    refine h.onward hc (.build goal r) rfl rfl fun hcu reading hrdg => ?_
    rcases mem_cons.mp hrdg with rfl | hrdg
    · rw [getRecord_readAt hr]
      exact h.steps
    · exact hgl hcu reading hrdg

theorem build (hpc : c.pc = .build goal r) (ok : Bool) : Draining sha256 clusterID u e₀ w
      (s.landConfig sha256 n c goal (if ok then .ok r else .error .config)) := by
  have hhd := h.held_at hc hpc
  refine h.landConfig hc (fun hcu reading hrdg =>
    hhd hcu reading (mem_cons_of_mem _ hrdg)) fun hcu reading hrs => ?_
  cases ok with
  | true =>
    obtain rfl : r = reading := by simpa using hrs
    exact hhd hcu r mem_cons_self
  | false => cases hrs

theorem make (hpc : c.pc = .make goal r) :
    Draining sha256 clusterID u e₀ w (s.make sha256 n c goal r) := by
  have hhd := h.held_at hc hpc
  have hrd := fun hcu => hhd hcu r mem_cons_self
  cases goal with
  | client kind =>
    have hsd := h.storeClient kind c.request (e := ⟨r, s.now + clientCacheTTL⟩) hrd
    refine hsd.answer hc _ ?_
    rintro hcu - y ⟨⟩ reading hrdg
    obtain rfl := mem_singleton.mp hrdg
    exact hrd hcu
  | schema generation =>
    have hgen := fun hcu => hhd hcu generation (mem_cons_of_mem _ mem_cons_self)
    have hsd := h.storeSchema c.remote (e := ⟨generation, r, s.now + clientCacheTTL⟩)
      fun hcu => ⟨hgen hcu, hrd hcu⟩
    refine hsd.onward hc (.landSchema (.ok (.schema generation r))) rfl rfl ?_
    intro hcu reading hrdg
    rcases mem_pair.mp hrdg with rfl | rfl
    · exact hgen hcu
    · exact hrd hcu

theorem landSchema {result} (hpc : c.pc = .landSchema result) :
    Draining sha256 clusterID u e₀ w (s.landSchema sha256 n c result) := by
  have hrs : c.request.clusterID = clusterID → ∀ y, result = .ok y →
      ∀ reading ∈ y.readings, u < reading.readAt := by
    rintro hcu y rfl
    exact h.held_at hc hpc hcu
  refine h.land hc s.configFlights _ (fun m c' hc' => ?_)
    fun hcu => (h.calls n c hc hcu).answered fun _ => hrs hcu
  unfold Router.deliverSchema
  split
  · split
    next hkey =>
      have hsm : c'.request.clusterID = c.request.clusterID := by
        have hcl := congrArg ReadKey.clusterID hkey
        rwa [key_clusterID c'.remote, key_clusterID c.remote] at hcl
      exact ⟨rfl, fun hcu => (h.calls m c' hc' hcu).answered fun _ => hrs (hsm.symm.trans hcu)⟩
    · exact ⟨rfl, h.calls m c' hc'⟩
  · exact ⟨rfl, h.calls m c' hc'⟩

theorem resume {result} (hpc : c.pc = .answered result) :
    Draining sha256 clusterID u e₀ w (s.resume n c result).2 := by
  unfold Router.resume
  split
  · exact h.finish n
  · exact h.finish n
  next y part rest hres =>
    refine h.setCalls _ fun m c' hc' => ?_
    obtain ⟨rfl, rfl⟩ | ⟨-, hc'⟩ := update_some_cases hc'
    · refine ⟨c, hc, rfl, fun hcu => ⟨by simp, by simp [RoutePc.missed], ?_⟩⟩
      intro hn reading hrdg
      refine (h.calls m c hc hcu).gathered hn reading ?_
      simpa [RouteCall.gathered, RoutePc.answer, hpc] using hrdg
    · exact ⟨c', hc', rfl, h.calls m c' hc'⟩

theorem step (ok : Bool) : Draining sha256 clusterID u e₀ w (s.step sha256 n c ok).2 := by
  unfold Router.step
  split
  · exact h.lookClient hc _
  · exact h.lookSchema hc
  next hpc => exact h.joinSchema hc hpc
  · exact h
  next hpc => exact h.relook hc hpc
  · exact h.readGeneration hc ok
  next hpc => exact h.joinConfig hc hpc
  · exact h
  next hpc => exact h.readRecord hc hpc ok
  next hpc => exact h.build hc hpc ok
  next goal r hpc =>
    cases ok with
    | true => exact h.make hc hpc
    | false => exact h.failed hc goal .client
  next hpc => exact h.landSchema hc hpc
  next hpc => exact h.resume hc hpc

end Steps

/-! ### Calls, evictions, sweeps -/

theorem call (wired : Bool) (c : RouterCall) (q : ReadRequest) :
    Draining sha256 clusterID u e₀ w (s.call wired c q).2 := by
  have hcnt : Draining sha256 clusterID u e₀ w { s with started := s.started + 1 } := { h with }
  unfold Router.call
  split
  · exact hcnt
  · split
    · exact hcnt
    · split
      · exact hcnt
      · refine { hcnt with calls := fun n c' hc' hcu => ?_ }
        obtain ⟨rfl, rfl⟩ | ⟨-, hc'⟩ := update_some_cases hc'
        · exact ⟨by simp, by simp [RoutePc.missed], by simp [RouteCall.gathered, RoutePc.answer]⟩
        · exact h.calls n c' hc' hcu

variable {ev : Eviction} {e : ℕ}

theorem visit (hev : s.evictions e = some ev) (key : Bytes) :
    Draining sha256 clusterID u e₀ w (s.visit e ev key) := by
  unfold Router.visit
  split
  next kind visited hph =>
    split
    · have hdel := h.deleteClient kind key
      by_cases he : e₀ = e
      · subst he
        refine hdel.ownPhase _ s.schemas (fun _ _ => id) hev _ (fun ev' hev' => ?_) ?_ (by simp)
        · rw [← Option.some.inj hev']
        · intro kind' q x hq hx hps
          refine ⟨hx, passed_at hph ?_⟩
          -- The key just visited holds nothing; every other one was passed before.
          by_cases hpl : kind' = kind ∧ q.clientKey sha256 = key
          · obtain ⟨rfl, hkey⟩ := hpl
            simp [Router.setClient, hkey] at hx
          · cases kind <;> cases kind' <;> simp_all [Passed]
      · exact hdel.otherPhase _ s.schemas (fun _ _ => id) he _ fun _ _ _ => id
    · exact h
  · exact h

omit h in
theorem dropUnvisited_le {kind} {clusterID' : Bytes} {visited kind'} {key : Bytes} {x}
    (hx : (s.dropUnvisited kind clusterID' visited).clients kind' key = some x) :
    s.clients kind' key = some x ∧
      (kind' = kind → ofCluster clusterID' key = true → key ∈ visited) := by
  simp only [Router.dropUnvisited] at hx
  by_cases hkn : kind' = kind
  · subst hkn
    rw [update_self] at hx
    split at hx
    · cases hx
    next hkp =>
      refine ⟨hx, fun _ hof => ?_⟩
      simpa [hof] using hkp
  · rw [update_of_ne hkn] at hx
    exact ⟨hx, fun h => absurd h hkn⟩

theorem endWalk (hev : s.evictions e = some ev) {kind visited}
    (hph : ev.phase = .clients kind visited) (phase : EvictPhase)
    (hnx : ∀ kind' key, Passed (some ⟨ev.clusterID, phase⟩) kind' key → kind' ≠ kind →
      Passed (some ev) kind' key) : Draining sha256 clusterID u e₀ w
      ((s.dropUnvisited kind ev.clusterID visited).setPhase e ev phase) := by
  by_cases he : e₀ = e
  · subst he
    refine h.ownPhase _ s.schemas (fun _ _ => id) hev _ (fun ev' hev' => ?_) ?_ (by simp)
    · rw [← Option.some.inj hev']
    · intro kind' q x hq hx hps
      obtain ⟨hx, hvis⟩ := dropUnvisited_le hx
      refine ⟨hx, ?_⟩
      by_cases hkn : kind' = kind
      · subst hkn
        have hof : ofCluster ev.clusterID (q.clientKey sha256) = true := by
          rw [h.cluster ev hev, ← hq]
          exact ofCluster_clientKey q
        refine passed_at hph ?_
        cases kind' <;> exact ⟨rfl, hvis rfl hof⟩
      · exact hnx kind' _ hps hkn
  · exact h.otherPhase _ s.schemas (fun _ _ => id) he _ fun _ _ _ hx => (dropUnvisited_le hx).1

theorem endPhase (hev : s.evictions e = some ev) :
    Draining sha256 clusterID u e₀ w (s.endPhase e ev).2 := by
  have hfl : ∀ (p : ReadKey → SchemaCacheEntry ρ → Bool) k x,
      (s.schemas.filter p).entries k = some x → s.schemas.entries k = some x :=
    fun p k x hx => (Option.filter_eq_some_iff.mp hx).1
  unfold Router.endPhase
  split
  next visited hph =>
    refine h.endWalk hev hph _ ?_
    rintro (_ | _) key hps hkn
    · exact absurd rfl hkn
    · simp [Passed] at hps
  next visited hph =>
    refine h.endWalk hev hph _ ?_
    rintro (_ | _) key - hkn
    · exact passed_at hph trivial
    · exact absurd rfl hkn
  next hph =>
    by_cases he : e₀ = e
    · subst he
      refine h.ownPhase s.clients _ (hfl _) hev none (by simp) ?_ ?_
      · exact fun kind q x _ hx _ => ⟨hx, passed_at hph trivial⟩
      · intro _ k hk
        have hcu := h.cluster ev hev
        simp [FifoMap.filter, hk, hcu]
    · exact h.otherPhase s.clients _ (hfl _) he none fun _ _ _ => id

theorem elapse (d : ℕ) : Draining sha256 clusterID u e₀ w { s with now := s.now + d } :=
  { h with
    calls := fun n c hc hcu => by
      obtain ⟨hhd, hmi, hgt⟩ := h.calls n c hc hcu
      refine ⟨hhd, fun hag e he => ?_, hgt⟩
      rcases hmi hag e he with haf | hexp
      · exact .inl haf
      · have hla : s.now ≤ s.now + d := Int.le_add_of_nonneg_right (Int.natCast_nonneg d)
        exact .inr (Int.lt_of_lt_of_le hexp hla) }

theorem begin_other (clusterID' : Bytes) : Draining sha256 clusterID u e₀ w { s with
        evicted := s.evicted + 1
        evictions := update s.evictions s.evicted (some ⟨clusterID', .clients .typed []⟩) } := by
  have hot := h.otherPhase s.clients s.schemas (fun _ _ => id) (Nat.ne_of_lt h.begun)
    (some ⟨clusterID', .clients .typed []⟩) fun _ _ _ => id
  exact { hot with begun := Nat.lt_succ_of_lt h.begun }

theorem react (wired : Bool) (a : RouterAction ρ) :
    Draining sha256 clusterID u e₀ w ((clusterRouter sha256 wired ρ).react s a).2 := by
  have hrx : Draining sha256 clusterID u e₀ w (s.react sha256 wired a).2 := by
    cases a with
    | call c q => exact h.call wired c q
    | step n ok =>
      simp only [Router.react]
      split
      next c hc => exact h.step hc ok
      · exact h
    | update clusterID' record => exact { h with }
    | evictCluster clusterID' => exact h.begin_other clusterID'
    | visit e key =>
      simp only [Router.react]
      split
      next ev hev => exact h.visit hev key
      · exact h
    | endPhase e =>
      simp only [Router.react]
      split
      next ev hev => exact h.endPhase hev
      · exact h
    | deleteClient kind key => exact h.deleteClient kind key
    | sweepSchemas =>
      exact h.dropEntries s.clients _ (fun k x hx => (Option.filter_eq_some_iff.mp hx).1)
        fun _ _ _ => id
    | elapse d => exact h.elapse d
  exact { hrx with steps := Nat.lt_succ_of_lt h.steps }

/-! ### What is followed -/

omit h in
/-- Old entries are anywhere when an eviction begins, but nobody is about to store one. -/
theorem begin (hst : u < s.steps) (hqu : Quiet s clusterID) :
    Draining sha256 clusterID u s.evicted .eviction { s with
        evicted := s.evicted + 1
        evictions := update s.evictions s.evicted (some ⟨clusterID, .clients .typed []⟩) } where
  steps := hst
  begun := Nat.lt_succ_self _
  cluster ev hev := by
    dsimp only at hev
    rw [update_self] at hev
    rw [← Option.some.inj hev]
  clients kind q e _ _ hps := by
    dsimp only at hps
    cases kind <;> simp [Passed] at hps
  schemas hno := by
    dsimp only at hno
    rw [update_self] at hno
    cases hno
  calls n c hc hcu := absurd hcu (hqu n c hc)
  returned hw := absurd rfl hw

/-- Once the eviction has returned, any call that has got nothing yet may be followed. -/
theorem follow (hret : s.evictions e₀ = none) (w' : Watch)
    (hw' : ∀ n c, w' = .call n → s.calls n = some c → c.gathered = []) :
    Draining sha256 clusterID u e₀ w' s :=
  { h with
    calls := fun n c hc hcu => ⟨(h.calls n c hc hcu).held,
      (h.calls n c hc hcu).missed, fun hn => by simp [hw' n c hn hc]⟩
    returned := fun _ => hret }

end Draining

/-! ## What an event says -/

section Events

variable (s : Router ρ)

theorem step_event (n : ℕ) (c : RouteCall ρ) (ok : Bool) : (s.step sha256 n c ok).1 = .idle ∨
      (∃ clusterID r, (s.step sha256 n c ok).1 = .read clusterID r) ∨
      ∃ result, c.pc = .answered result ∧ s.step sha256 n c ok = s.resume n c result := by
  unfold Router.step
  split
  case h_6 =>
    unfold Router.readGeneration
    split
    · exact .inr (.inl ⟨_, _, rfl⟩)
    · exact .inl rfl
  case h_9 =>
    unfold Router.readRecord
    split
    · exact .inr (.inl ⟨_, _, rfl⟩)
    · exact .inl rfl
  case h_13 result hpc => exact .inr (.inr ⟨result, hpc, rfl⟩)
  all_goals exact .inl rfl

/-- What the events of interest say of the action and of the states around it. -/
def EventSays (a : RouterAction ρ) (s' : Router ρ) : RouterEvent ρ → Prop
  | .evictBegan e clusterID => a = .evictCluster clusterID ∧ e = s.evicted
  | .evictReturned e => s'.evictions e = none
  | .started n _ => ∀ c, s'.calls n = some c → c.gathered = []
  | .returned n q (.ok ys) =>
    ∃ c y, s.calls n = some c ∧ c.request = q ∧ c.pc = .answered (.ok y) ∧ ys = c.got ++ [y]
  | _ => True

theorem eventSays_call (wired : Bool) (call : RouterCall) (q : ReadRequest) :
    EventSays s (.call call q) (s.call wired call q).2 (s.call wired call q).1 := by
  unfold Router.call
  split
  · trivial
  · split
    · trivial
    · split
      · trivial
      · intro c hc
        dsimp only at hc
        rw [update_self] at hc
        cases hc
        rfl

theorem eventSays_step {n : ℕ} {c} (hc : s.calls n = some c) (ok : Bool) :
    EventSays s (.step n ok) (s.step sha256 n c ok).2 (s.step sha256 n c ok).1 := by
  rcases step_event s n c ok with hid | ⟨clusterID, r, hrd⟩ | ⟨result, hpc, hre⟩
  · rw [hid]
    trivial
  · rw [hrd]
    trivial
  · rw [hre]
    unfold Router.resume
    split
    · trivial
    next y _ => exact ⟨c, y, hc, rfl, hpc, rfl⟩
    · trivial

theorem eventSays_react (wired : Bool) (a : RouterAction ρ) :
    EventSays s a (s.react sha256 wired a).2 (s.react sha256 wired a).1 := by
  cases a with
  | call call q => exact eventSays_call s wired call q
  | step n ok =>
    simp only [Router.react]
    split
    next c hc => exact eventSays_step s hc ok
    · trivial
  | update | deleteClient | sweepSchemas | elapse => trivial
  | evictCluster clusterID => exact ⟨rfl, rfl⟩
  | visit e key =>
    simp only [Router.react]
    split <;> trivial
  | endPhase e =>
    simp only [Router.react]
    split
    next ev hev =>
      unfold Router.endPhase
      split
      · trivial
      · trivial
      · exact update_self ..
    · trivial

theorem eventSays_machine (wired : Bool) (a : RouterAction ρ) :
    EventSays s a ((clusterRouter sha256 wired ρ).react s a).2
      ((clusterRouter sha256 wired ρ).react s a).1 := by
  have h := @eventSays_react ρ sha256 s wired a
  simp only [clusterRouter]
  generalize (s.react sha256 wired a).1 = ev at h ⊢
  cases ev with
  | returned n q result => cases result <;> exact h
  | _ => exact h

end Events

theorem run_steps (wired : Bool) (history : List (RouterAction ρ)) :
    ((clusterRouter sha256 wired ρ).run history).steps = history.length := by
  rw [← (clusterRouter sha256 wired ρ).length_trace]
  exact Reactive.run_inv (P := fun (s : Router ρ) es => s.steps = es.length) rfl
    (fun s es a h => by simp [clusterRouter, h]) history

/-! ## Evictions are final, and not -/

/-- The router keeps its promise where evictions begin while no call on the cluster is running. -/
theorem fresh_after_quiet_evictions (sha256 : Bytes → Bytes) (wired : Bool)
    (history : List (RouterAction ρ)) (hquiet : QuietEvictions sha256 wired history) :
    FreshAfterEviction ((clusterRouter sha256 wired ρ).trace history) := by
  intro clusterID u b r j i e n q ys hu hub hb hbr hr hrj hj hji hi hq y hy reading hrdg
  let M := clusterRouter sha256 wired ρ
  let stateAt (x : ℕ) := M.run (history.take x)
  have hsy : ∀ x a, EventSays (stateAt x) a (M.react (stateAt x) a).2
      (M.react (stateAt x) a).1 := fun x a => eventSays_machine (stateAt x) wired a
  have hla : ∀ {w x z}, x ≤ z → Draining sha256 clusterID u e w (stateAt x) →
      Draining sha256 clusterID u e w (stateAt z) := fun hxz h =>
    Reactive.run_take_inv (fun _ a hs => hs.react wired a) hxz h
  -- The eviction begins.
  have hbe : Draining sha256 clusterID u e .eviction (stateAt (b + 1)) := by
    obtain ⟨a, hsp, heve, hnx⟩ := Reactive.event_at hb
    have hbg := hsy b a
    rw [heve] at hbg
    obtain ⟨rfl, rfl⟩ := hbg
    have hln : b < history.length := by
      rw [← M.length_trace]
      exact (List.getElem?_eq_some_iff.mp hb).1
    have hst : u < (stateAt b).steps := by
      rw [run_steps, length_take]
      omega
    have hbeg : Draining sha256 clusterID u (stateAt b).evicted .eviction _ :=
      Draining.begin hst (hquiet _ _ clusterID hsp)
    rw [show stateAt (b + 1) = _ from hnx]
    exact { hbeg with steps := Nat.lt_succ_of_lt hst }
  -- It returns.
  have hdn : Draining sha256 clusterID u e .returned (stateAt (r + 1)) := by
    obtain ⟨a, -, heve, hnx⟩ := Reactive.event_at hr
    have hno := hsy r a
    rw [heve, ← hnx] at hno
    exact (hla (by omega) hbe).follow hno .returned (by simp)
  -- The call starts.
  have hfo : Draining sha256 clusterID u e (.call n) (stateAt (j + 1)) := by
    obtain ⟨a, -, heve, hnx⟩ := Reactive.event_at hj
    have hnew := hsy j a
    rw [heve, ← hnx] at hnew
    have hth := hla (z := j + 1) (by omega) hdn
    refine hth.follow (hth.returned (by simp)) (.call n) fun m c hm hc => ?_
    obtain rfl := Watch.call.inj hm
    exact hnew c hc
  -- It returns what it has gathered.
  obtain ⟨a, -, heve, -⟩ := Reactive.event_at hi
  have hret := hsy i a
  rw [heve] at hret
  obtain ⟨c, y', hc, rfl, hpc, rfl⟩ := hret
  refine ((hla hji hfo).calls n c hc hq).gathered rfl reading ?_
  have hgt : c.gathered = (c.got ++ [y']).flatMap Yield.readings := by
    simp [RouteCall.gathered, hpc, RoutePc.answer]
  rw [hgt]
  exact mem_flatMap.mpr ⟨y, hy, hrdg⟩

def aliceOnProd : ReadRequest := ⟨ascii "prod", ⟨ascii "alice", [ascii "dev"]⟩⟩

def evictedBetween : List (RouterAction ℕ) :=
  [.update (ascii "prod") (some 1), .call .clientForCluster aliceOnProd, .step 0 true,
    .step 0 true, .step 0 true, .step 0 true, .step 0 true, .step 0 true,
    .update (ascii "prod") (some 2), .evictCluster (ascii "prod"), .endPhase 0, .endPhase 0,
    .endPhase 0, .call .clientForCluster aliceOnProd, .step 1 true, .step 1 true, .step 1 true,
    .step 1 true, .step 1 true, .step 1 true]

theorem fresh_after_quiet_evictions_evictedBetween :
    let es := (clusterRouter id true ℕ).trace evictedBetween
    es[19]? = some (.returned 1 aliceOnProd (.ok [.client .typed ⟨2, 16⟩])) ∧ 8 < 16 := by
  have hqu : QuietEvictions id true evictedBetween := by
    intro before after clusterID hsp
    have hpl : evictedBetween[before.length]? = some (.evictCluster clusterID) := by
      rw [hsp]
      simp
    have hni : before.length = 9 := by
      have hlt : before.length < 20 := (List.getElem?_eq_some_iff.mp hpl).1
      generalize before.length = x at hpl hlt
      interval_cases x <;> first | rfl | cases hpl
    have hbf : before = evictedBetween.take 9 := by
      rw [hsp, ← hni, take_left]
    intro n c hc
    have hid : ∀ m, ((clusterRouter id true ℕ).run (evictedBetween.take 9)).calls m = none := by
      rintro (_ | m) <;> rfl
    rw [hbf, hid n] at hc
    cases hc
  have hes : ((clusterRouter id true ℕ).trace evictedBetween)[19]? =
      some (.returned 1 aliceOnProd (.ok [.client .typed ⟨2, 16⟩])) := by rfl
  refine ⟨hes, ?_⟩
  exact fresh_after_quiet_evictions id true evictedBetween hqu (ascii "prod") 8 9 12 13 19 0 1
    aliceOnProd _ (by rfl) (by decide) (by rfl) (by decide) (by rfl) (by decide) (by rfl)
    (by decide) hes rfl _ mem_cons_self _ mem_cons_self

/-- A call reads the record before the update and stores its client after the eviction. -/
def lateStore : List (RouterAction ℕ) :=
  [.update (ascii "prod") (some 1), .call .clientForCluster aliceOnProd, .step 0 true,
    .step 0 true, .step 0 true, .update (ascii "prod") (some 2), .evictCluster (ascii "prod"),
    .endPhase 0, .endPhase 0, .endPhase 0, .step 0 true, .step 0 true,
    .call .clientForCluster aliceOnProd, .step 1 true, .step 1 true]

/-- A call after the eviction joins the flight of one that read the record before the update. -/
def joinedFlight : List (RouterAction ℕ) :=
  [.update (ascii "prod") (some 1), .call .clientForCluster aliceOnProd, .step 0 true,
    .step 0 true, .step 0 true, .update (ascii "prod") (some 2), .evictCluster (ascii "prod"),
    .endPhase 0, .endPhase 0, .endPhase 0, .call .clientForCluster aliceOnProd, .step 1 true,
    .step 1 true, .step 0 true, .step 1 true, .step 1 true]

def lateSchema : List (RouterAction ℕ) :=
  [.update (ascii "prod") (some 1), .call .targetSchemaFor aliceOnProd, .step 0 true,
    .step 0 true, .step 0 true, .step 0 true, .step 0 true, .step 0 true,
    .update (ascii "prod") (some 2), .evictCluster (ascii "prod"), .endPhase 0, .endPhase 0,
    .endPhase 0, .step 0 true, .step 0 true, .call .targetSchemaFor aliceOnProd, .step 1 true,
    .step 1 true]

/-- Evictions that run beside a call on their cluster are not final. -/
theorem old_record_after_eviction :
    ¬ FreshAfterEviction ((clusterRouter id true ℕ).trace lateStore) ∧
    ¬ FreshAfterEviction ((clusterRouter id true ℕ).trace joinedFlight) ∧
    ¬ FreshAfterEviction ((clusterRouter id true ℕ).trace lateSchema) := by
  refine ⟨fun h => ?_, fun h => ?_, fun h => ?_⟩
  · have hold : 5 < 4 := h (ascii "prod") 5 6 9 12 14 0 1 aliceOnProd [.client .typed ⟨1, 4⟩]
      (by rfl) (by decide) (by rfl) (by decide) (by rfl) (by decide) (by rfl) (by decide) (by rfl)
      rfl _ mem_cons_self _ mem_cons_self
    omega
  · have hold : 5 < 4 := h (ascii "prod") 5 6 9 10 15 0 1 aliceOnProd [.client .typed ⟨1, 4⟩]
      (by rfl) (by decide) (by rfl) (by decide) (by rfl) (by decide) (by rfl) (by decide) (by rfl)
      rfl _ mem_cons_self _ mem_cons_self
    omega
  · have hold : 8 < 5 := h (ascii "prod") 8 9 12 15 17 0 1 aliceOnProd
      [.schema ⟨1, 5⟩ ⟨1, 7⟩] (by rfl) (by decide) (by rfl) (by decide) (by rfl) (by decide)
      (by rfl) (by decide) (by rfl) rfl _ mem_cons_self _ mem_cons_self
    omega

end KubeCenter.K8s
