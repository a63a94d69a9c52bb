import KubeCenter.Lib.Control
import KubeCenter.Preferences.Store
import Mathlib.Data.List.Nodup

/-! # No saved preference is lost

A layout is replaced only by a save that names the revision it replaces. The rows an owner holds of
a kind are counted under the lock of that owner and kind. A call changes the table in the step it
answers in, if at all. -/
namespace KubeCenter.Preferences
open Lib List Nat
open Function (update update_of_ne update_self)

section

variable {β κ : Type} {rules : Rules β κ} {h : Handler} {hash : String → ℕ}

/-! ## What a call is at -/

def layoutKey (ownerID clusterID scope : String) : PreferenceKey :=
  ⟨ownerID, .dashboardLayout, clusterID, dashboardLayoutDedupKey scope⟩

def PrefStage.target : PrefStage κ → Option ℕ
  | .update u => some u.id
  | .delete id => some id
  | _ => none

/-- The call holds no lock and is not about to change a row. -/
def PrefStage.Unbound : PrefStage κ → Prop
  | .create phase _ => phase = .lock
  | .update _ => False
  | .delete _ => False
  | _ => True

variable (rules h) in
/-- The stages of the calls of each handler. -/
inductive Follows : PrefRequest β → PrefStage κ → Prop
  | readLayout {ownerID clusterID scope revision config normalized} (hrevision : 0 ≤ revision)
      (hconfig : rules.validateDashboardLayout config = .ok (scope, normalized)) :
      Follows (.saveLayout ownerID clusterID scope revision config)
        (.readLayout ⟨ownerID, clusterID, scope, revision, normalized⟩)
  | createLayout {ownerID clusterID scope config normalized}
      (hconfig : rules.validateDashboardLayout config = .ok (scope, normalized))
      (phase : CreatePhase) : Follows (.saveLayout ownerID clusterID scope 0 config)
        (.create phase (createLayout h ⟨ownerID, clusterID, scope, 0, normalized⟩))
  | replaceLayout {ownerID clusterID scope revision config normalized} (hrevision : 0 < revision)
      (hconfig : rules.validateDashboardLayout config = .ok (scope, normalized)) (id : ℕ) :
      Follows (.saveLayout ownerID clusterID scope revision config)
        (.update (replaceLayout ⟨ownerID, clusterID, scope, revision, normalized⟩ id))
  | createView {ownerID clusterID name config cr} (hkind : cr.record.kind = .savedView)
      (hmax : cr.maxPerKind = h.savedViewCeiling) (hper : cr.perCluster = false)
      (phase : CreatePhase) : Follows (.createView ownerID clusterID name config) (.create phase cr)
  | createPin {ownerID clusterID name config cr} (hkind : cr.record.kind = .pin)
      (hmax : cr.maxPerKind = h.pinCeiling) (hper : cr.perCluster = false) (phase : CreatePhase) :
      Follows (.createPin ownerID clusterID name config) (.create phase cr)
  | requireView {ownerID name id revision config} :
      Follows (.updateView ownerID id name revision config) (.requireKind id .savedView)
  | updateView {ownerID name id revision config} (u : Revision κ) (hid : u.id = id) :
      Follows (.updateView ownerID id name revision config) (.update u)
  | requireDeletedView {ownerID id} : Follows (.deleteView ownerID id) (.requireKind id .savedView)
  | deleteView {ownerID id} : Follows (.deleteView ownerID id) (.delete id)
  | requireDeletedPin {ownerID id} : Follows (.deletePin ownerID id) (.requireKind id .pin)
  | deletePin {ownerID id} : Follows (.deletePin ownerID id) (.delete id)
  /-- An update of either kind that found no row. -/
  | classifyUpdate (req : PrefRequest β) (id : ℕ) : Follows req (.classifyUpdate id)

theorem check_eq_ok {α : Type} {r} {a : α} : check r = .ok a ↔ r = .ok a := mapError_eq_ok

variable {req : PrefRequest β} {phase : CreatePhase} {cr : Creation κ}

theorem accept_follows {stage} (hac : accept rules h req = .ok stage) :
    Follows rules h req stage ∧ stage.Unbound := by
  obtain ⟨-, -, hac⟩ := except_bind_eq_ok.mp hac
  cases req with
  | saveLayout ownerID clusterID scope revision config =>
    obtain ⟨-, hac⟩ := guard_eq_ok.mp hac
    obtain ⟨hrv, hac⟩ := guard_eq_ok.mp hac
    obtain ⟨⟨cfgScope, normalized⟩, hcf, hac⟩ := except_bind_eq_ok.mp hac
    obtain ⟨hsc, hac⟩ := guard_eq_ok.mp hac
    obtain ⟨-, -, hac⟩ := except_bind_eq_ok.mp hac
    cases hac
    obtain rfl := not_not.mp hsc
    exact ⟨.readLayout (Int.not_lt.mp hrv) (check_eq_ok.mp hcf), trivial⟩
  | createView ownerID clusterID name config =>
    obtain ⟨-, -, hac⟩ := except_bind_eq_ok.mp hac
    obtain ⟨normalized, -, hac⟩ := except_bind_eq_ok.mp hac
    obtain ⟨-, -, hac⟩ := except_bind_eq_ok.mp hac
    cases hac
    exact ⟨.createView rfl rfl rfl .lock, rfl⟩
  | createPin ownerID clusterID name config =>
    obtain ⟨-, -, hac⟩ := except_bind_eq_ok.mp hac
    obtain ⟨⟨dedupKey, normalized⟩, -, hac⟩ := except_bind_eq_ok.mp hac
    obtain ⟨-, -, hac⟩ := except_bind_eq_ok.mp hac
    cases hac
    exact ⟨.createPin rfl rfl rfl .lock, rfl⟩
  | updateView ownerID id name revision config =>
    cases hac
    exact ⟨.requireView, trivial⟩
  | deleteView ownerID id =>
    cases hac
    exact ⟨.requireDeletedView, trivial⟩
  | deletePin ownerID id =>
    cases hac
    exact ⟨.requireDeletedPin, trivial⟩

theorem proceed_follows {id : ℕ} {want stage} (hreq : Follows rules h req (.requireKind id want))
    (hnx : proceed rules id req = .ok stage) :
    Follows rules h req stage ∧ stage.target = some id := by
  cases hreq with
  | requireView =>
    obtain ⟨-, -, hnx⟩ := except_bind_eq_ok.mp hnx
    obtain ⟨-, hnx⟩ := guard_eq_ok.mp hnx
    obtain ⟨normalized, -, hnx⟩ := except_bind_eq_ok.mp hnx
    obtain ⟨-, -, hnx⟩ := except_bind_eq_ok.mp hnx
    cases hnx
    exact ⟨.updateView _ rfl, rfl⟩
  | requireDeletedView =>
    cases hnx
    exact ⟨.deleteView, rfl⟩
  | requireDeletedPin =>
    cases hnx
    exact ⟨.deletePin, rfl⟩

theorem Follows.perCluster_eq (hreq : Follows rules h req (.create phase cr)) :
    cr.perCluster = decide (cr.record.kind = .dashboardLayout) := by
  cases hreq with
  | createLayout => rfl
  | createView hkn _ hper | createPin hkn _ hper => rw [hper, hkn]; rfl

/-- The ceiling of each kind that has one for an owner. -/
def Handler.ceiling (h : Handler) : PreferenceKind → Option ℕ
  | .savedView => some h.savedViewCeiling
  | .pin => some h.pinCeiling
  | .dashboardLayout => none

theorem Follows.maxPerKind_eq {max : ℕ} (hreq : Follows rules h req (.create phase cr))
    (hmax : h.ceiling cr.record.kind = some max) : cr.maxPerKind = max ∧ cr.perCluster = false := by
  cases hreq with
  | createLayout => cases hmax
  | createView hkn heq hper | createPin hkn heq hper =>
    rw [hkn] at hmax
    exact ⟨heq.trans (Option.some.inj hmax), hper⟩

theorem Follows.create_phase (hreq : Follows rules h req (.create phase cr)) (phase' : CreatePhase)
    : Follows rules h req (.create phase' cr) := by
  cases hreq with
  | createLayout hcf => exact .createLayout hcf phase'
  | createView hkn hmax hper => exact .createView hkn hmax hper phase'
  | createPin hkn hmax hper => exact .createPin hkn hmax hper phase'

theorem lockKey_of_counts {req' phase' cr'} (hreq : Follows rules h req (.create phase cr))
    (hreq' : Follows rules h req' (.create phase' cr')) {r : PreferenceRecord κ}
    (hr : r.toNewPreference = cr.record) (hcn : cr'.counts r = true) :
    cr.lockKey = cr'.lockKey := by
  simp only [Creation.counts, Bool.and_eq_true, decide_eq_true_eq, Bool.or_eq_true,
    Bool.not_eq_true', hr] at hcn
  obtain ⟨⟨hown, hkn⟩, hcu⟩ := hcn
  have hper : cr.perCluster = cr'.perCluster := by
    rw [hreq.perCluster_eq, hreq'.perCluster_eq, hkn]
  unfold Creation.lockKey
  rw [hown, hkn, hper]
  split
  next hp =>
    rw [hp] at hcu
    rw [hcu.resolve_left (by simp)]
  · rfl

/-! ## What a step can do -/

variable (rules h hash) in
inductive PrefMove (s : PrefServer β κ) : PrefEvent β κ → PrefServer β κ → Prop
  | stay : PrefMove s .idle s
  | turnAway (req : PrefRequest β) (e : ErrorReply) :
      PrefMove s (.answered s.started req (.refused e)) { s with started := s.started + 1 }
  | start {req stage} (haccept : accept rules h req = .ok stage) :
      PrefMove s (.started s.started req) (s.start req stage)
  | refuse {k c} (hc : s.calls k = some c) (e : ErrorReply) :
      PrefMove s (.answered k c.request (.refused e)) (s.finish k)
  | missing {k c l} (hc : s.calls k = some c) (hstage : c.stage = .readLayout l)
      (hrevision : l.revision = 0) :
      PrefMove s .idle (s.goto k c (.create .lock (createLayout h l)))
  | found {k c l r} (hc : s.calls k = some c) (hstage : c.stage = .readLayout l)
      (hrevision : l.revision ≠ 0)
      (hr : getByDedupKey s.rows (layoutKey l.ownerID l.clusterID l.scope) = some r) :
      PrefMove s .idle (s.goto k c (.update (replaceLayout l r.id)))
  | proceed {k c id want r stage} (hc : s.calls k = some c)
      (hstage : c.stage = .requireKind id want) (hr : get s.rows c.request.ownerID id = some r)
      (hkind : r.kind = want) (hnext : proceed rules id c.request = .ok stage) :
      PrefMove s .idle (s.goto k c stage)
  | grant {k c cr} (hc : s.calls k = some c) (hstage : c.stage = .create .lock cr)
      (hfree : s.locks (hash cr.lockKey) = none) : PrefMove s .idle
        ({ s with locks := update s.locks (hash cr.lockKey) (some k) }.goto k c
          (.create .insert cr))
  | insert {k c cr} (hc : s.calls k = some c) (hstage : c.stage = .create .insert cr)
      (hroom : s.rows.countP cr.counts < cr.maxPerKind)
      (hfresh : ∀ r ∈ s.rows, r.key ≠ cr.record.key)
      (hpending : s.isPending cr.record.key = false) :
      PrefMove s .idle (s.goto k c (.create .commit cr))
  | filtered {k c cr} (hc : s.calls k = some c) (hstage : c.stage = .create .insert cr) :
      PrefMove s .idle (s.goto k c (.create .classify cr))
  | commit {k c cr} (hc : s.calls k = some c) (hstage : c.stage = .create .commit cr)
      {answer : Answer κ}
      (hanswer : answer = .created (s.newRow cr.record) ∨ ∃ e, answer = .unsure e) :
      PrefMove s (.answered k c.request answer) ((s.insertRow cr.record).finish k)
  | lost {k c} (hc : s.calls k = some c) (e : ErrorReply) :
      PrefMove s (.answered k c.request (.unsure e)) (s.finish k)
  | missed {k c u} (hc : s.calls k = some c) (hstage : c.stage = .update u) :
      PrefMove s .idle (s.goto k c (.classifyUpdate u.id))
  | update {k c u r} (hc : s.calls k = some c) (hstage : c.stage = .update u) (hr : r ∈ s.rows)
      (hid : r.id = u.id) (hrevision : (r.revision : Int) = u.expectedRevision)
      (hunique : ∀ r' ∈ s.rows, r'.id ≠ r.id → r'.key ≠ (u.apply r).key)
      (hpending : s.isPending (u.apply r).key = false) :
      PrefMove s (.answered k c.request (.updated (u.apply r))) ((s.updateRow u).finish k)
  | delete {k c id} (hc : s.calls k = some c) (hstage : c.stage = .delete id) :
      PrefMove s (.answered k c.request .deleted) ((s.deleteRow id).finish k)

variable {s s' : PrefServer β κ} {e : PrefEvent β κ} {k : ℕ} {c : PrefCall β κ}

section

variable (hc : s.calls k = some c)
include hc

theorem PrefServer.readLayout_move {l} (hst : c.stage = .readLayout l) :
    PrefMove rules h hash s (s.readLayout h k c l).1 (s.readLayout h k c l).2 := by
  unfold PrefServer.readLayout
  split
  · split
    · exact .refuse hc _
    next hrv => exact .missing hc hst (not_not.mp hrv)
  next r hr =>
    split
    · exact .refuse hc _
    · rename_i hrv
      exact .found hc hst hrv hr

theorem PrefServer.requireKind_move {id : ℕ} {want} (hst : c.stage = .requireKind id want) :
    PrefMove rules h hash s (s.requireKind rules k c id want).1
      (s.requireKind rules k c id want).2 := by
  unfold PrefServer.requireKind
  split
  · exact .refuse hc _
  next r hr =>
    split
    · exact .refuse hc _
    · rename_i hkn
      split
      · exact .refuse hc _
      · rename_i stage hnx
        exact .proceed hc hst hr (not_not.mp hkn) hnx

theorem PrefServer.create_move {phase : CreatePhase} {cr : Creation κ}
    (hst : c.stage = .create phase cr) :
    PrefMove rules h hash s (s.create h hash k c phase cr).1 (s.create h hash k c phase cr).2 := by
  unfold PrefServer.create
  cases phase with
  | lock =>
    dsimp only
    split
    next hfr => exact .grant hc hst hfr
    · exact .stay
  | insert =>
    dsimp only
    split
    next hrm =>
      split
      · exact .refuse hc _
      · rename_i hfs
        split
        · exact .stay
        · rename_i hpn
          exact .insert hc hst hrm (by simpa using hfs) (by simpa using hpn)
    · exact .filtered hc hst
  | classify =>
    dsimp only
    split
    · exact .refuse hc _
    · exact .refuse hc _
  | commit => exact .commit hc hst (.inl rfl)

theorem PrefServer.update_move {u} (hst : c.stage = .update u) :
    PrefMove rules h hash s (s.update h k c u).1 (s.update h k c u).2 := by
  unfold PrefServer.update
  split
  · exact .missed hc hst
  next r hfd =>
    have hmem := mem_of_find?_eq_some hfd
    have hma := find?_some hfd
    simp only [decide_eq_true_eq] at hma
    split
    · exact .refuse hc _
    · rename_i huni
      split
      · exact .stay
      · rename_i hpn
        refine .update hc hst hmem hma.1 hma.2.2 ?_ (by simpa using hpn)
        simpa using huni

theorem PrefServer.step_move :
    PrefMove rules h hash s (s.step rules h hash k c).1 (s.step rules h hash k c).2 := by
  unfold PrefServer.step
  split
  case h_1 l hst => exact readLayout_move hc hst
  case h_2 id want hst => exact requireKind_move hc hst
  case h_3 phase cr hst => exact create_move hc hst
  case h_4 u hst => exact update_move hc hst
  case h_5 id hst =>
    unfold PrefServer.classifyUpdate
    split <;> exact .refuse hc _
  case h_6 id hst =>
    unfold PrefServer.delete
    split
    · exact .refuse hc _
    · exact .delete hc hst

end

theorem PrefServer.react_move (a : PrefAction β) :
    PrefMove rules h hash s (s.react rules h hash a).1 (s.react rules h hash a).2 := by
  cases a with
  | request req =>
    simp only [PrefServer.react]
    split
    · exact .turnAway req _
    next stage hac => exact .start hac
  | step k =>
    simp only [PrefServer.react]
    split
    next c hc => exact step_move hc
    · exact .stay
  | fail k written =>
    simp only [PrefServer.react]
    split
    next c hc =>
      unfold PrefServer.fail
      split
      · rename_i cr hst
        cases written with
        | true => exact .commit hc hst (.inr ⟨_, rfl⟩)
        | false => exact .lost hc _
      · exact .refuse hc _
    · exact .stay

/-! ## What holds in every state -/

def PrefRequest.Owns (req : PrefRequest β) (r : PreferenceRecord κ) : Prop :=
  match req with
  | .saveLayout ownerID clusterID scope _ _ => r.key = layoutKey ownerID clusterID scope
  | .updateView _ _ _ _ _ => r.kind = .savedView
  | .deleteView _ _ => r.kind = .savedView
  | .deletePin _ _ => r.kind = .pin
  | _ => True

/-- What a running call relies on. -/
structure CallOK (rules : Rules β κ) (h : Handler) (hash : String → ℕ) (s : PrefServer β κ) (k : ℕ)
    (c : PrefCall β κ) : Prop where
  follows : Follows rules h c.request c.stage
  held : ∀ phase cr, c.stage = .create phase cr → phase ≠ .lock → s.locks (hash cr.lockKey) = some k
  fresh : ∀ cr, c.stage.pending = some cr → ∀ r ∈ s.rows, r.key ≠ cr.record.key
  room : ∀ cr, c.stage.pending = some cr → s.rows.countP cr.counts < cr.maxPerKind
  target : ∀ id, c.stage.target = some id →
    id < s.nextID ∧ ∀ r ∈ s.rows, r.id = id → c.request.Owns r

/-- Ids and keys are unique, and no owner is over a ceiling. -/
structure TableOK (h : Handler) (rows : List (PreferenceRecord κ)) (nextID : ℕ) : Prop where
  drawn : ∀ r ∈ rows, r.id < nextID
  ids : (rows.map (·.id)).Nodup
  keys : (rows.map (·.key)).Nodup
  ceilings : ∀ ownerID kind max, h.ceiling kind = some max →
    rows.countP (fun r => r.ownerID = ownerID ∧ r.kind = kind) ≤ max

structure PrefSound (rules : Rules β κ) (h : Handler) (hash : String → ℕ) (s : PrefServer β κ) :
    Prop where
  unused : ∀ k, s.started ≤ k → s.calls k = none
  calls : ∀ k c, s.calls k = some c → CallOK rules h hash s k c
  /-- No two calls have inserted the same key. -/
  apart : ∀ k k' c c' cr cr', s.calls k = some c → s.calls k' = some c' →
    c.stage.pending = some cr → c'.stage.pending = some cr' →
    cr.record.key = cr'.record.key → k = k'
  table : TableOK h s.rows s.nextID

variable {stage : PrefStage κ} {req : PrefRequest β} {r : PreferenceRecord κ} {cr : Creation κ}
  {u : Revision κ}

theorem PrefStage.pending_eq_some : stage.pending = some cr ↔ stage = .create .commit cr := by
  unfold PrefStage.pending
  split
  · simp
  next hne =>
    constructor
    · intro heq
      cases heq
    · intro heq
      exact absurd heq (hne cr)

theorem not_pending {key} (hs : PrefSound rules h hash s) (hpn : s.isPending key = false)
    (hc : s.calls k = some c) (hcr : c.stage.pending = some cr) : cr.record.key ≠ key := by
  intro heq
  have hlt : k < s.started := lt_of_running hs.unused hc
  have hany : s.isPending key = true := by
    refine any_eq_true.mpr ⟨k, mem_range.mpr hlt, ?_⟩
    simp [hc, hcr, heq]
  rw [hpn] at hany
  cases hany

theorem CallOK.relock {started : ℕ} {calls locks} (hc : CallOK rules h hash s k c)
    (hlo : ∀ x, s.locks x = some k → locks x = some k) :
    CallOK rules h hash { s with started, calls, locks } k c :=
  { hc with held := fun phase cr hst hph => hlo _ (hc.held phase cr hst hph) }

theorem nodup_map_concat {α : Type*} {f : PreferenceRecord κ → α} {rows : List (PreferenceRecord κ)}
    (hnd : (rows.map f).Nodup) (hnew : ∀ r' ∈ rows, f r' ≠ f r) :
    ((rows ++ [r]).map f).Nodup := by
  rw [map_append, map_singleton, ← concat_eq_append, nodup_concat]
  refine ⟨fun hmem => ?_, hnd⟩
  obtain ⟨r', hr', heq⟩ := mem_map.mp hmem
  exact hnew r' hr' heq

section

variable (hs : PrefSound rules h hash s)
include hs

/-- A call is at a stage that suits the table and does not create what another one creates. -/
theorem PrefSound.at_stage {started : ℕ} (hok : CallOK rules h hash s k ⟨req, stage⟩)
    (hun : ∀ k', started ≤ k' → update s.calls k (some ⟨req, stage⟩) k' = none)
    (hap : ∀ cr, stage.pending = some cr → ∀ k' c' cr', s.calls k' = some c' →
      c'.stage.pending = some cr' → cr'.record.key ≠ cr.record.key) :
    PrefSound rules h hash { s with started, calls := update s.calls k (some ⟨req, stage⟩) } where
  unused := hun
  calls := forall_update (fun k' c' hc' => { hs.calls k' c' hc' with }) { hok with }
  apart k₁ k₂ c₁ c₂ cr₁ cr₂ hc₁ hc₂ hcr₁ hcr₂ hkey := by
    rcases update_some_cases hc₁ with ⟨h₁, rfl⟩ | ⟨-, hold₁⟩
    · rcases update_some_cases hc₂ with ⟨h₂, -⟩ | ⟨-, hold₂⟩
      · rw [h₁, h₂]
      · exact absurd hkey.symm (hap cr₁ hcr₁ k₂ c₂ cr₂ hold₂ hcr₂)
    · rcases update_some_cases hc₂ with ⟨-, rfl⟩ | ⟨-, hold₂⟩
      · exact absurd hkey (hap cr₂ hcr₂ k₁ c₁ cr₁ hold₁ hcr₁)
      · exact hs.apart k₁ k₂ c₁ c₂ cr₁ cr₂ hold₁ hold₂ hcr₁ hcr₂ hkey
  table := hs.table

theorem PrefSound.goto (hc : s.calls k = some c) (hok : CallOK rules h hash s k { c with stage })
    (hap : ∀ cr, stage.pending = some cr → ∀ k' c' cr', s.calls k' = some c' →
      c'.stage.pending = some cr' → cr'.record.key ≠ cr.record.key) :
    PrefSound rules h hash (s.goto k c stage) :=
  hs.at_stage hok (fun _ => unused_update hs.unused hc _) hap

theorem PrefSound.start (hok : CallOK rules h hash s s.started ⟨req, stage⟩)
    (hpn : stage.pending = none) : PrefSound rules h hash (s.start req stage) :=
  hs.at_stage hok (fun _ => unused_start hs.unused _) fun cr hcr => by
    rw [hpn] at hcr
    cases hcr

theorem PrefSound.finish {rows} {nextID : ℕ} (hcl : ∀ k' c', k' ≠ k → s.calls k' = some c' →
      CallOK rules h hash { s with rows, nextID } k' c') (htb : TableOK h rows nextID) :
    PrefSound rules h hash ({ s with rows, nextID }.finish k) where
  unused k' hk' := update_none_of_none (hs.unused k' hk')
  calls k' c' hc' := by
    obtain ⟨hne, hc'⟩ := update_none_cases hc'
    exact (hcl k' c' hne hc').relock fun _ hx => unlock_of_ne hne hx
  apart k₁ k₂ c₁ c₂ cr₁ cr₂ hc₁ hc₂ :=
    hs.apart k₁ k₂ c₁ c₂ cr₁ cr₂ (update_none_cases hc₁).2 (update_none_cases hc₂).2
  table := htb

theorem PrefSound.follows (hc : s.calls k = some c) (hst : c.stage = stage) :
    Follows rules h c.request stage :=
  hst ▸ (hs.calls k c hc).follows

theorem PrefSound.owns (hc : s.calls k = some c) (hst : c.stage = stage) {id : ℕ}
    (htr : stage.target = some id) : ∀ r ∈ s.rows, r.id = id → c.request.Owns r :=
  ((hs.calls k c hc).target id (hst ▸ htr)).2

theorem PrefSound.finish_same (k : ℕ) : PrefSound rules h hash (s.finish k) :=
  hs.finish (fun k' c' _ hc' => hs.calls k' c' hc') hs.table

/-! ## Changes of the table -/

/-- The call that commits found room for its row, and no other creates in its place. -/
theorem PrefSound.insertRow (hc : s.calls k = some c) (hst : c.stage = .create .commit cr) :
    PrefSound rules h hash ((s.insertRow cr.record).finish k) := by
  have hpn : c.stage.pending = some cr := PrefStage.pending_eq_some.mpr hst
  have hok := hs.calls k c hc
  have hfl := hs.follows hc hst
  have hlc := hok.held .commit cr hst (by simp)
  refine hs.finish (fun k' c' hne hc' => ?_) ?_
  · have hok' := hs.calls k' c' hc'
    refine ⟨hok'.follows, hok'.held, ?_, ?_, ?_⟩
    · intro cr' hcr' r hr
      rcases mem_concat hr with hr | rfl
      · exact hok'.fresh cr' hcr' r hr
      · exact fun hkey => hne (hs.apart k k' c c' cr cr' hc hc' hpn hcr' hkey).symm
    · intro cr' hcr'
      have hst' := PrefStage.pending_eq_some.mp hcr'
      have hot : cr'.counts (s.newRow cr.record) = false := by
        by_contra hcn
        have hkey := lockKey_of_counts hfl (hst' ▸ hok'.follows) rfl (Bool.not_eq_false _ ▸ hcn)
        have hlc' := hok'.held .commit cr' hst' (by simp)
        rw [← hkey, hlc] at hlc'
        exact hne (Option.some.inj hlc').symm
      rw [countP_append, countP_singleton, hot]
      exact hok'.room cr' hcr'
    · intro id hid
      obtain ⟨hlt, how⟩ := hok'.target id hid
      refine ⟨lt_succ_of_lt hlt, fun r hr heq => ?_⟩
      rcases mem_concat hr with hr | rfl
      · exact how r hr heq
      · exact absurd heq (Nat.ne_of_gt hlt)
  · refine ⟨?_, ?_, ?_, ?_⟩
    · intro r hr
      rcases mem_concat hr with hr | rfl
      · exact lt_succ_of_lt (hs.table.drawn r hr)
      · exact lt_succ_self _
    · exact nodup_map_concat hs.table.ids fun r hr => Nat.ne_of_lt (hs.table.drawn r hr)
    · exact nodup_map_concat hs.table.keys (hok.fresh cr hpn)
    · intro ownerID kind max hmax
      rw [countP_append, countP_singleton]
      split
      next hma =>
        simp only [decide_eq_true_eq] at hma
        obtain ⟨rfl, rfl⟩ := hma
        obtain ⟨heq, hper⟩ := hfl.maxPerKind_eq hmax
        have hrm := hok.room cr hpn
        have hcn : cr.counts = fun r => decide (r.ownerID = cr.record.ownerID ∧
            r.kind = cr.record.kind) := by
          funext r
          simp [Creation.counts, hper]
        rw [heq, hcn] at hrm
        exact hrm
      · exact hs.table.ceilings ownerID kind max hmax

end

theorem countP_updateRow (u : Revision κ) (rows : List (PreferenceRecord κ)) {p}
    (hp : ∀ r, p (u.apply r) = p r) :
    (rows.map fun r => if r.id = u.id then u.apply r else r).countP p = rows.countP p := by
  rw [countP_map]
  congr 1
  funext r
  dsimp only [Function.comp_apply]
  split
  · exact hp r
  · rfl

theorem id_updateRow (u : Revision κ) (r : PreferenceRecord κ) :
    (if r.id = u.id then u.apply r else r).id = r.id := by
  split <;> rfl

theorem Follows.key_apply {ownerID clusterID scope : String} {revision : Int} {config : β}
    (hreq : Follows rules h (.saveLayout ownerID clusterID scope revision config) (.update u))
    (hkey : r.key = layoutKey ownerID clusterID scope) : (u.apply r).key = r.key := by
  cases hreq
  have hdp : r.dedupKey = dashboardLayoutDedupKey scope := congrArg PreferenceKey.dedupKey hkey
  change PreferenceKey.mk r.ownerID r.kind r.clusterID (dashboardLayoutDedupKey scope) = _
  rw [← hdp]
  rfl

/-- What a call owns stays its own, since a view is no layout. -/
theorem PrefRequest.Owns.apply {req' : PrefRequest β} (how : req'.Owns r)
    (hreq : Follows rules h req (.update u)) (hmn : req.Owns r) : req'.Owns (u.apply r) := by
  cases req' with
  | saveLayout ownerID clusterID scope revision config =>
    have hkey : r.key = layoutKey ownerID clusterID scope := how
    cases req with
    | saveLayout => exact (hreq.key_apply hmn).trans hkey
    | updateView =>
      have hkn : r.kind = .dashboardLayout := congrArg PreferenceKey.kind hkey
      rw [hmn] at hkn
      cases hkn
    | _ => cases hreq
  | updateView | deleteView | deletePin => exact how
  | createView | createPin => trivial

theorem PrefSound.updateRow (hs : PrefSound rules h hash s) (hc : s.calls k = some c)
    (hst : c.stage = .update u) (hr : r ∈ s.rows) (hid : r.id = u.id)
    (huni : ∀ r' ∈ s.rows, r'.id ≠ r.id → r'.key ≠ (u.apply r).key)
    (hpn : s.isPending (u.apply r).key = false) :
    PrefSound rules h hash ((s.updateRow u).finish k) := by
  have hfl := hs.follows hc hst
  have hmn := hs.owns hc hst rfl
  have hon : ∀ r' ∈ s.rows, r'.id = u.id → r' = r := fun r' hr' hid' =>
    inj_on_of_nodup_map hs.table.ids hr' hr (hid'.trans hid.symm)
  refine hs.finish (fun k' c' hne hc' => ?_) ?_
  · have hok' := hs.calls k' c' hc'
    refine ⟨hok'.follows, hok'.held, ?_, ?_, ?_⟩
    · intro cr' hcr' r' hr'
      obtain ⟨r₀, hr₀, rfl⟩ := mem_map.mp hr'
      split
      next hid₀ =>
        rw [hon r₀ hr₀ hid₀]
        exact (not_pending hs hpn hc' hcr').symm
      · exact hok'.fresh cr' hcr' r₀ hr₀
    · intro cr' hcr'
      have hco := countP_updateRow u s.rows (p := cr'.counts) fun _ => rfl
      exact hco ▸ hok'.room cr' hcr'
    · intro id hid'
      obtain ⟨hlt, how⟩ := hok'.target id hid'
      refine ⟨hlt, fun r' hr' heq => ?_⟩
      obtain ⟨r₀, hr₀, rfl⟩ := mem_map.mp hr'
      rw [id_updateRow] at heq
      split
      next hid₀ => exact (how r₀ hr₀ heq).apply hfl (hmn r₀ hr₀ hid₀)
      · exact how r₀ hr₀ heq
  · refine ⟨?_, ?_, ?_, ?_⟩
    · intro r' hr'
      obtain ⟨r₀, hr₀, rfl⟩ := mem_map.mp hr'
      rw [id_updateRow]
      exact hs.table.drawn r₀ hr₀
    · rw [map_map]
      have hsm : (fun r : PreferenceRecord κ => r.id) ∘
          (fun r => if r.id = u.id then u.apply r else r) = fun r => r.id :=
        funext (id_updateRow u)
      rw [hsm]
      exact hs.table.ids
    · -- two rows of the new table with one key come from one row
      rw [map_map]
      refine List.Nodup.map_on ?_ hs.table.ids.of_map
      intro r₁ hr₁ r₂ hr₂ hkey
      dsimp only [Function.comp_apply] at hkey
      split at hkey <;> split at hkey
      next h₁ h₂ => rw [hon r₁ hr₁ h₁, hon r₂ hr₂ h₂]
      next h₁ h₂ =>
        rw [hon r₁ hr₁ h₁] at hkey
        exact absurd hkey.symm (huni r₂ hr₂ (hid ▸ h₂))
      next h₁ h₂ =>
        rw [hon r₂ hr₂ h₂] at hkey
        exact absurd hkey (huni r₁ hr₁ (hid ▸ h₁))
      · exact inj_on_of_nodup_map hs.table.keys hr₁ hr₂ hkey
    · intro ownerID kind max hmax
      have hco := countP_updateRow u s.rows
        (p := fun r => decide (r.ownerID = ownerID ∧ r.kind = kind)) fun _ => rfl
      exact hco ▸ hs.table.ceilings ownerID kind max hmax

theorem PrefSound.deleteRow (hs : PrefSound rules h hash s) (k id : ℕ) :
    PrefSound rules h hash ((s.deleteRow id).finish k) := by
  have hsub : (s.rows.filter (·.id ≠ id)).Sublist s.rows := filter_sublist
  refine hs.finish (fun k' c' hne hc' => ?_) ?_
  · have hok' := hs.calls k' c' hc'
    refine ⟨hok'.follows, hok'.held, fun cr' hcr' r hr => hok'.fresh cr' hcr' r (hsub.subset hr),
      fun cr' hcr' => Nat.lt_of_le_of_lt hsub.countP_le (hok'.room cr' hcr'), fun id' hid' => ?_⟩
    obtain ⟨hlt, how⟩ := hok'.target id' hid'
    exact ⟨hlt, fun r hr => how r (hsub.subset hr)⟩
  · exact ⟨fun r hr => hs.table.drawn r (hsub.subset hr), hs.table.ids.sublist (hsub.map _),
      hs.table.keys.sublist (hsub.map _), fun ownerID kind max hmax =>
        Nat.le_trans hsub.countP_le (hs.table.ceilings ownerID kind max hmax)⟩

/-! ## Every move keeps it -/

theorem PrefStage.pending_eq_none (hst : ∀ cr, stage ≠ .create .commit cr) :
    stage.pending = none := by
  by_contra hso
  obtain ⟨cr, hcr⟩ := Option.ne_none_iff_exists'.mp hso
  exact hst cr (PrefStage.pending_eq_some.mp hcr)

theorem PrefStage.Unbound.pending (hunb : stage.Unbound) : stage.pending = none := by
  refine PrefStage.pending_eq_none ?_
  rintro cr rfl
  cases hunb

theorem PrefStage.pending_of_target {id : ℕ} (htr : stage.target = some id) :
    stage.pending = none := by
  refine PrefStage.pending_eq_none ?_
  rintro cr rfl
  cases htr

theorem CallOK.of_quiet (hfl : Follows rules h req stage) (hpn : stage.pending = none)
    (hhd : ∀ phase cr, stage = .create phase cr → phase ≠ .lock →
      s.locks (hash cr.lockKey) = some k)
    (htr : ∀ id, stage.target = some id → id < s.nextID ∧ ∀ r ∈ s.rows, r.id = id → req.Owns r) :
    CallOK rules h hash s k ⟨req, stage⟩ :=
  ⟨hfl, hhd, fun _ hcr => (nomatch hpn.symm.trans hcr),
    fun _ hcr => (nomatch hpn.symm.trans hcr), htr⟩

theorem CallOK.of_unbound (hfl : Follows rules h req stage) (hunb : stage.Unbound) :
    CallOK rules h hash s k ⟨req, stage⟩ := by
  refine .of_quiet hfl hunb.pending ?_ fun id hid => ?_
  · rintro phase cr rfl hph
    exact absurd hunb hph
  · cases stage with
    | update | delete => exact hunb.elim
    | _ => cases hid

theorem CallOK.of_target {id : ℕ} (hfl : Follows rules h req stage)
    (htr : stage.target = some id) (hlt : id < s.nextID)
    (how : ∀ r ∈ s.rows, r.id = id → req.Owns r) : CallOK rules h hash s k ⟨req, stage⟩ := by
  refine .of_quiet hfl (PrefStage.pending_of_target htr) ?_ fun id' hid' => ?_
  · rintro phase cr rfl
    cases htr
  · cases htr.symm.trans hid'
    exact ⟨hlt, how⟩

theorem CallOK.of_locked {phase : CreatePhase} (hfl : Follows rules h req (.create phase cr))
    (hph : phase ≠ .commit) (hlc : s.locks (hash cr.lockKey) = some k) :
    CallOK rules h hash s k ⟨req, .create phase cr⟩ := by
  refine .of_quiet hfl (PrefStage.pending_eq_none ?_) ?_ nofun
  · rintro cr' ⟨⟩
    exact hph rfl
  · rintro phase' cr' ⟨⟩ -
    exact hlc

theorem PrefSound.grant (hs : PrefSound rules h hash s) {x : ℕ} (hfr : s.locks x = none) :
    PrefSound rules h hash { s with locks := update s.locks x (some k) } :=
  { hs with calls := fun k' c' hc' => (hs.calls k' c' hc').relock fun _ hy =>
      (update_of_ne (ne_of_unused hfr hy) _ _).trans hy }

theorem PrefSound.goto_quiet (hs : PrefSound rules h hash s) (hc : s.calls k = some c)
    (hok : CallOK rules h hash s k { c with stage }) (hpn : stage.pending = none) :
    PrefSound rules h hash (s.goto k c stage) :=
  hs.goto hc hok fun cr hcr => by
    rw [hpn] at hcr
    cases hcr

theorem PrefSound.move (hs : PrefSound rules h hash s) (hmv : PrefMove rules h hash s e s') :
    PrefSound rules h hash s' := by
  cases hmv with
  | stay => exact hs
  | turnAway req e =>
    exact { hs with
      unused := fun k hk => hs.unused k (le_of_succ_le hk)
      calls := fun k c hc => { hs.calls k c hc with } }
  | start hac =>
    obtain ⟨hreq, hunb⟩ := accept_follows hac
    exact hs.start (.of_unbound hreq hunb) hunb.pending
  | refuse | lost => exact hs.finish_same _
  | @missing k c l hc hst hrv =>
    have hcre : Follows rules h c.request (.create .lock (createLayout h l)) := by
      have hreq := hs.follows hc hst
      generalize c.request = req at hreq
      cases hreq with
      | readLayout _ hcf =>
        obtain rfl := hrv
        exact .createLayout hcf .lock
    exact hs.goto_quiet hc (.of_unbound hcre rfl) rfl
  | @found k c l r hc hst hrv hr =>
    have hmem := mem_of_find?_eq_some hr
    have hkey : r.key = layoutKey l.ownerID l.clusterID l.scope := by
      simpa using find?_some hr
    have hreq := hs.follows hc hst
    have hrp : Follows rules h c.request (.update (replaceLayout l r.id)) ∧
        ∀ r' : PreferenceRecord κ, r'.key = r.key → c.request.Owns r' := by
      generalize c.request = req at hreq
      cases hreq with
      | readLayout hnn hcf =>
        exact ⟨.replaceLayout (Int.lt_iff_le_and_ne.mpr ⟨hnn, Ne.symm hrv⟩) hcf _,
          fun r' hr' => hr'.trans hkey⟩
    refine hs.goto_quiet hc (.of_target hrp.1 rfl (hs.table.drawn r hmem) ?_) rfl
    intro r' hr' hid
    exact hrp.2 r' (by rw [inj_on_of_nodup_map hs.table.ids hr' hmem hid])
  | @proceed k c id want r stage hc hst hr hkn hnx =>
    have hmem := mem_of_find?_eq_some hr
    have hid : r.id = id := by
      have hma := find?_some hr
      simp only [decide_eq_true_eq] at hma
      exact hma.2
    have hreq := hs.follows hc hst
    obtain ⟨hst', htr⟩ := proceed_follows hreq hnx
    refine hs.goto_quiet hc (.of_target hst' htr (hid ▸ hs.table.drawn r hmem) ?_)
      (PrefStage.pending_of_target htr)
    intro r' hr' hid'
    obtain rfl := inj_on_of_nodup_map hs.table.ids hr' hmem (hid'.trans hid.symm)
    generalize c.request = req at hreq
    cases hreq with
    | requireView | requireDeletedView | requireDeletedPin => exact hkn
  | @grant k c cr hc hst hfr =>
    refine (hs.grant hfr).goto_quiet hc ?_ rfl
    exact .of_locked ((hs.follows hc hst).create_phase .insert) (by simp) (update_self _ _ _)
  | @insert k c cr hc hst hrm hfs hpn =>
    have hlc := (hs.calls k c hc).held .insert cr hst (by simp)
    refine hs.goto hc ⟨(hs.follows hc hst).create_phase .commit, ?_, ?_, ?_, ?_⟩ ?_
    · rintro phase cr' ⟨⟩ -
      exact hlc
    · rintro cr' ⟨⟩
      exact hfs
    · rintro cr' ⟨⟩
      exact hrm
    · rintro id ⟨⟩
    · rintro cr' ⟨⟩ k' c' cr' hc' hcr'
      exact not_pending hs hpn hc' hcr'
  | @filtered k c cr hc hst =>
    exact hs.goto_quiet hc (.of_locked ((hs.follows hc hst).create_phase .classify) (by simp)
      ((hs.calls k c hc).held .insert cr hst (by simp))) rfl
  | commit hc hst => exact hs.insertRow hc hst
  | missed hc hst => exact hs.goto_quiet hc (.of_unbound (.classifyUpdate _ _) trivial) rfl
  | update hc hst hr hid _ huni hpn =>
    exact hs.updateRow hc hst hr hid huni hpn
  | delete => exact hs.deleteRow _ _

theorem prefServer_sound (history : List (PrefAction β)) :
    PrefSound rules h hash ((prefServer rules h hash).run history) := by
  refine Reactive.run_inv (M := prefServer rules h hash) (P := fun s _ => PrefSound rules h hash s)
    ?_ (fun s _ a hs => hs.move (PrefServer.react_move a)) history
  refine ⟨by simp [prefServer], by simp [prefServer], by simp [prefServer], ?_⟩
  exact ⟨by simp [prefServer], by simp [prefServer], by simp [prefServer], by simp [prefServer]⟩

/-! ## Over a whole run -/

/-- A save of a layout that succeeds, and the row it answers with. -/
def PrefEvent.Saves (e : PrefEvent β κ) (ownerID clusterID scope : String) (revision : Int)
    (config : β) (r : PreferenceRecord κ) : Prop :=
  ∃ k, e = .answered k (.saveLayout ownerID clusterID scope revision config) (.created r) ∨
    e = .answered k (.saveLayout ownerID clusterID scope revision config) (.updated r)

def rowsAt (rules : Rules β κ) (h : Handler) (hash : String → ℕ) (history : List (PrefAction β))
    (x : ℕ) : List (PreferenceRecord κ) :=
  ((prefServer rules h hash).run (history.take x)).rows

/-- The first save creates the row, any other replaces the row at the revision it names. -/
structure SaveOf (rules : Rules β κ) (rows rows' : List (PreferenceRecord κ)) (key : PreferenceKey)
    (scope : String) (revision : Int) (config : β) (r : PreferenceRecord κ) : Prop where
  keyed : r.key = key
  next : (r.revision : Int) = revision + 1
  valid : rules.validateDashboardLayout config = .ok (scope, r.config)
  write : (revision = 0 ∧ (∀ r' ∈ rows, r'.key ≠ key) ∧ rows' = rows ++ [r]) ∨
    (0 < revision ∧ ∃ old ∈ rows, old.key = key ∧ (old.revision : Int) = revision ∧
      r.id = old.id ∧ rows' = rows.map fun r' => if r'.id = old.id then r else r')

/-- The call answers that it has changed the table, or that its commit failed. -/
def PrefEvent.MayChange : PrefEvent β κ → Prop
  | .answered _ _ (.refused _) => False
  | .answered _ _ _ => True
  | _ => False

/-- The table changes only when a call answers that it did, or that its commit failed, and a call
answers once. -/
structure ErrorsHarmless (rules : Rules β κ) (h : Handler) (hash : String → ℕ)
    (history : List (PrefAction β)) : Prop where
  unchanged : ∀ x e, ((prefServer rules h hash).trace history)[x]? = some e → ¬ e.MayChange →
    rowsAt rules h hash history (x + 1) = rowsAt rules h hash history x
  once : ∀ (x y k : ℕ) (req req' : PrefRequest β) (a a' : Answer κ),
    ((prefServer rules h hash).trace history)[x]? = some (.answered k req a) →
    ((prefServer rules h hash).trace history)[y]? = some (.answered k req' a') → x = y

section

variable (hs : PrefSound rules h hash s) (hmv : PrefMove rules h hash s e s')
include hs hmv

theorem PrefMove.saves {ownerID clusterID scope : String} {revision : Int} {config : β} {r}
    (hsa : e.Saves ownerID clusterID scope revision config r) :
    SaveOf rules s.rows s'.rows (layoutKey ownerID clusterID scope) scope revision config r := by
  obtain ⟨k', hsa⟩ := hsa
  cases hmv with
  | @commit k c cr hc hst answer han =>
    have hfl := hs.follows hc hst
    have hfs := (hs.calls k c hc).fresh cr (PrefStage.pending_eq_some.mpr hst)
    rcases han with rfl | ⟨e, rfl⟩
    · obtain ⟨-, hreq, hrow⟩ := PrefEvent.answered.inj (hsa.resolve_right (by simp))
      obtain rfl := Answer.created.inj hrow
      rw [hreq] at hfl
      cases hfl with
      | createLayout hcf => exact ⟨rfl, rfl, hcf, .inl ⟨rfl, hfs, rfl⟩⟩
    · simp at hsa
  | @update k c u old hc hst hold hid hrv =>
    obtain ⟨-, hreq, hrow⟩ := PrefEvent.answered.inj (hsa.resolve_left (by simp))
    obtain rfl := Answer.updated.inj hrow
    have hfl := hs.follows hc hst
    have how := hs.owns hc hst rfl old hold hid
    rw [hreq] at hfl how
    have hkey := hfl.key_apply how
    have hon : ∀ r' ∈ s.rows, r'.id = u.id → r' = old := fun r' hr' hid' =>
      inj_on_of_nodup_map hs.table.ids hr' hold (hid'.trans hid.symm)
    have hrw : (s.updateRow u).rows =
        s.rows.map fun r' => if r'.id = old.id then u.apply old else r' := by
      refine map_congr_left fun r' hr' => ?_
      rw [hid]
      split
      next hid' => rw [hon r' hr' hid']
      · rfl
    cases hfl with
    | replaceLayout hpos hcf =>
      refine ⟨hkey.trans how, ?_, hcf, .inr ⟨hpos, old, hold, how, hrv, rfl, hrw⟩⟩
      have hrv : (old.revision : Int) = revision := hrv
      change ((old.revision + 1 : ℕ) : Int) = revision + 1
      omega
  | _ => simp at hsa

theorem PrefMove.keeps_layout {ownerID clusterID scope : String} {r} (hr : r ∈ s.rows)
    (hkey : r.key = layoutKey ownerID clusterID scope)
    (hsa : ∀ revision config r', ¬ e.Saves ownerID clusterID scope revision config r') :
    r ∈ s'.rows := by
  have hkn : r.kind = .dashboardLayout := congrArg PreferenceKey.kind hkey
  cases hmv with
  | commit => exact mem_append_left _ hr
  | @update k c u old hc hst hold hid =>
    refine mem_map.mpr ⟨r, hr, if_neg fun hrid => ?_⟩
    -- the row would be the call's own, and the call a save of this layout
    have hfl := hs.follows hc hst
    have how := hs.owns hc hst rfl r hr hrid
    generalize hreq : c.request = req at hfl how hsa
    cases hfl with
    | @replaceLayout ownerID' clusterID' scope' revision config normalized hpos hcf id =>
      have hsm : layoutKey ownerID' clusterID' scope' = layoutKey ownerID clusterID scope :=
        Eq.trans (Eq.symm how) hkey
      obtain ⟨rfl, -, rfl, rfl⟩ := PreferenceKey.mk.inj hsm
      exact hsa revision config _ ⟨k, .inr rfl⟩
    | updateView =>
      rw [show r.kind = .savedView from how] at hkn
      cases hkn
  | @delete k c id hc hst =>
    refine mem_filter.mpr ⟨hr, ?_⟩
    rw [decide_eq_true_eq]
    intro hrid
    have hfl := hs.follows hc hst
    have how := hs.owns hc hst rfl r hr hrid
    generalize c.request = req at hfl how
    cases hfl with
    | deleteView =>
      rw [show r.kind = .savedView from how] at hkn
      cases hkn
    | deletePin =>
      rw [show r.kind = .pin from how] at hkn
      cases hkn
  | _ => exact hr

theorem PrefMove.answers {k : ℕ} {req : PrefRequest β} {a} (he : e = .answered k req a) :
    (s.started ≤ k ∨ ∃ c, s.calls k = some c) ∧ k < s'.started ∧ s'.calls k = none := by
  have hrun : ∀ {c}, s.calls k = some c → k < s.started := lt_of_running hs.unused
  cases hmv with
  | turnAway =>
    cases he
    exact ⟨.inl (Nat.le_refl _), Nat.lt_succ_self _, hs.unused _ (Nat.le_refl _)⟩
  | refuse hc | commit hc | lost hc | update hc | delete hc =>
    cases he
    exact ⟨.inr ⟨_, hc⟩, hrun hc, update_self _ _ _⟩
  | _ => cases he

end

theorem PrefMove.rows_eq (hmv : PrefMove rules h hash s e s') (hqu : ¬ e.MayChange) :
    s'.rows = s.rows := by
  cases hmv with
  | commit _ _ han => rcases han with rfl | ⟨e, rfl⟩ <;> exact absurd trivial hqu
  | update | delete => exact absurd trivial hqu
  | _ => rfl

def Gone (s : PrefServer β κ) (es : List (PrefEvent β κ)) : Prop :=
  ∀ k req a, .answered k req a ∈ es → k < s.started ∧ s.calls k = none

theorem PrefMove.stays_gone (hmv : PrefMove rules h hash s e s') {k : ℕ} (hk : k < s.started)
    (hno : s.calls k = none) : k < s'.started ∧ s'.calls k = none := by
  have hgt : ∀ {k' c'} (stage : PrefStage κ), s.calls k' = some c' →
      (s.goto k' c' stage).calls k = none := by
    intro k' c' stage hc'
    exact (update_of_ne (ne_of_unused hno hc').symm _ _).trans hno
  cases hmv with
  | stay => exact ⟨hk, hno⟩
  | turnAway => exact ⟨lt_succ_of_lt hk, hno⟩
  | start =>
    refine ⟨lt_succ_of_lt hk, ?_⟩
    exact (update_of_ne (Nat.ne_of_lt hk) _ _).trans hno
  | refuse | commit | lost | update | delete => exact ⟨hk, update_none_of_none hno⟩
  | missing hc | found hc | proceed hc | grant hc | insert hc | filtered hc | missed hc =>
    exact ⟨hk, hgt _ hc⟩

section

variable {history : List (PrefAction β)}

theorem move_at {x : ℕ} {e} (hx : ((prefServer rules h hash).trace history)[x]? = some e) :
    PrefMove rules h hash ((prefServer rules h hash).run (history.take x)) e
      ((prefServer rules h hash).run (history.take (x + 1))) := by
  obtain ⟨a, -, hev, hnx⟩ := Reactive.event_at hx
  rw [hnx, ← hev]
  exact PrefServer.react_move a

theorem gone_of_answered (history : List (PrefAction β)) :
    Gone ((prefServer rules h hash).run history) ((prefServer rules h hash).trace history) := by
  have hinv := Reactive.run_inv (M := prefServer rules h hash)
    (P := fun s es => PrefSound rules h hash s ∧ Gone s es) ?_ ?_ history
  · exact hinv.2
  · exact ⟨prefServer_sound [], by simp [Gone]⟩
  · intro s es a ⟨hs, hgo⟩
    have hmv : PrefMove rules h hash s (s.react rules h hash a).1 (s.react rules h hash a).2 :=
      PrefServer.react_move a
    refine ⟨hs.move hmv, fun k req answer hmem => ?_⟩
    rcases mem_concat hmem with hmem | hmem
    · exact hmv.stays_gone (hgo k req answer hmem).1 (hgo k req answer hmem).2
    · exact (hmv.answers hs hmem.symm).2

theorem errorsHarmless : ErrorsHarmless rules h hash history := by
  -- of two answers the later one would come from a call that is gone
  have hla : ∀ {x y k : ℕ} {req req' : PrefRequest β} {a a' : Answer κ},
      ((prefServer rules h hash).trace history)[x]? = some (.answered k req a) →
      ((prefServer rules h hash).trace history)[y]? = some (.answered k req' a') → ¬ x < y := by
    intro x y k req req' a a' hx hy hlt
    have hmem : .answered k req a ∈ (prefServer rules h hash).trace (history.take y) := by
      rw [Reactive.trace_take]
      refine mem_of_getElem? (i := x) ?_
      rw [getElem?_take, if_pos hlt, hx]
    obtain ⟨hsta, hno⟩ := gone_of_answered (history.take y) k req a hmem
    rcases ((move_at hy).answers (prefServer_sound _) rfl).1 with hnew | ⟨c, hc⟩
    · exact absurd hsta (Nat.not_lt.mpr hnew)
    · rw [hno] at hc
      cases hc
  refine ⟨fun x e hx hqu => (move_at hx).rows_eq hqu, ?_⟩
  intro x y k req req' a a' hx hy
  exact Nat.le_antisymm (Nat.not_lt.mp (hla hy hx)) (Nat.not_lt.mp (hla hx hy))

/-- A save that comes next after another replaces what that one left. -/
theorem saved_until {x : ℕ} {ownerID clusterID scope : String} {revision : Int} {config : β} {r e}
    (hx : ((prefServer rules h hash).trace history)[x]? = some e)
    (hsa : e.Saves ownerID clusterID scope revision config r) (d : ℕ)
    (hln : x + 1 + d ≤ history.length) (hno : ∀ z e', x < z → z < x + 1 + d →
      ((prefServer rules h hash).trace history)[z]? = some e' →
      ∀ revision' config' r', ¬ e'.Saves ownerID clusterID scope revision' config' r') :
    r ∈ rowsAt rules h hash history (x + 1 + d) := by
  have hsv := (move_at hx).saves (prefServer_sound _) hsa
  induction d with
  | zero =>
    change r ∈ ((prefServer rules h hash).run (history.take (x + 1))).rows
    rcases hsv.write with ⟨-, -, hrw⟩ | ⟨-, old, hold, -, -, -, hrw⟩
    · rw [hrw]
      exact mem_append_right _ (mem_singleton.mpr rfl)
    · rw [hrw]
      exact mem_map.mpr ⟨old, hold, if_pos rfl⟩
  | succ d ih =>
    have hr := ih (by omega) fun z e' hz hz' => hno z e' hz (by omega)
    have hlt : x + 1 + d < ((prefServer rules h hash).trace history).length := by
      rw [Reactive.length_trace]
      omega
    have hev := getElem?_eq_getElem hlt
    exact (move_at hev).keeps_layout (prefServer_sound _) hr hsv.keyed
      (hno _ _ (by omega) (by omega) hev)

end

/-- What each save does, that saves which follow one another leave out nothing, the ceilings, the
unique keys, and that errors change nothing. -/
structure NothingLost (rules : Rules β κ) (h : Handler) (hash : String → ℕ)
    (history : List (PrefAction β)) : Prop where
  saves : ∀ (x : ℕ) (e : PrefEvent β κ) (ownerID clusterID scope : String) (revision : Int)
    (config : β) (r : PreferenceRecord κ),
    ((prefServer rules h hash).trace history)[x]? = some e →
    e.Saves ownerID clusterID scope revision config r →
    SaveOf rules (rowsAt rules h hash history x) (rowsAt rules h hash history (x + 1))
      (layoutKey ownerID clusterID scope) scope revision config r
  chained : ∀ (x y : ℕ) (e e' : PrefEvent β κ) (ownerID clusterID scope : String)
    (revision revision' : Int) (config config' : β) (r r' : PreferenceRecord κ), x < y →
    ((prefServer rules h hash).trace history)[x]? = some e →
    ((prefServer rules h hash).trace history)[y]? = some e' →
    e.Saves ownerID clusterID scope revision config r →
    e'.Saves ownerID clusterID scope revision' config' r' →
    (∀ z e'', x < z → z < y → ((prefServer rules h hash).trace history)[z]? = some e'' →
      ∀ revision'' config'' r'', ¬ e''.Saves ownerID clusterID scope revision'' config'' r'') →
    r ∈ rowsAt rules h hash history y ∧ revision' = r.revision ∧ r'.id = r.id
  savedViews : ∀ (x : ℕ) (ownerID : String), (rowsAt rules h hash history x).countP
    (fun r => r.ownerID = ownerID ∧ r.kind = .savedView) ≤ h.savedViewCeiling
  pins : ∀ (x : ℕ) (ownerID : String), (rowsAt rules h hash history x).countP
    (fun r => r.ownerID = ownerID ∧ r.kind = .pin) ≤ h.pinCeiling
  keys : ∀ x, ((rowsAt rules h hash history x).map (·.key)).Nodup
  errors : ErrorsHarmless rules h hash history

/-- No saved preference is lost or overwritten unseen. -/
theorem no_preference_lost (rules : Rules β κ) (h : Handler) (hash : String → ℕ)
    (history : List (PrefAction β)) : NothingLost rules h hash history where
  saves x e ownerID clusterID scope revision config r hx hsaves :=
    (move_at hx).saves (prefServer_sound _) hsaves
  chained x y e e' ownerID clusterID scope revision revision' config config' r r' hxy hx hy hsaves
      hsa' hno := by
    have hlt : y < history.length := by
      rw [← Reactive.length_trace (M := prefServer rules h hash)]
      exact (List.getElem?_eq_some_iff.mp hy).1
    obtain ⟨d, rfl⟩ : ∃ d, y = x + 1 + d := ⟨y - (x + 1), by omega⟩
    have hr := saved_until hx hsaves d (by omega) hno
    have hs : PrefSound rules h hash _ := prefServer_sound (history.take (x + 1 + d))
    have hkey := ((move_at hx).saves (prefServer_sound _) hsaves).keyed
    rcases ((move_at hy).saves hs hsa').write with
      ⟨-, hfs, -⟩ | ⟨-, old, hold, hkey', hrv, hid, -⟩
    · exact absurd hkey (hfs r hr)
    · obtain rfl := inj_on_of_nodup_map hs.table.keys hold hr (hkey'.trans hkey.symm)
      exact ⟨hr, hrv.symm, hid⟩
  savedViews x ownerID := (prefServer_sound _).table.ceilings ownerID _ _ rfl
  pins x ownerID := (prefServer_sound _).table.ceilings ownerID _ _ rfl
  keys x := (prefServer_sound _).table.keys
  errors := errorsHarmless

end

end KubeCenter.Preferences
