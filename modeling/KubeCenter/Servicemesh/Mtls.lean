import Mathlib.Logic.Basic

/-! # mTLS of Istio workloads

`servicemesh/mtls.go`: the mode the PeerAuthentications give a pod (`resolveIstioMTLSMode`), its
state (`modeToState`) and that of a workload (`aggregateWorkloads`). The code takes the mode of the
most specific policy that applies; Istio lets an unset one inherit. -/
namespace KubeCenter.Servicemesh
open List

inductive Mode
  | strict
  | permissive
  | disable
  | unset
  /-- The empty text. -/
  | absent
  | other (text : String)
deriving DecidableEq

inductive MTLSState
  | active
  | inactive
  | mixed
  | unmeshed
deriving DecidableEq

structure PeerAuthRef where
  ns : String
  name : String
  mode : Mode
  selector : List (String × String)

abbrev Labels := String → Option String

/-- As its comment has it: every label of the selector is there with the same value. -/
def selectorMatches (selector : List (String × String)) (podLabels : Labels) : Bool :=
  selector ≠ [] ∧ ∀ l ∈ selector, podLabels l.1 = some l.2

section

variable (podLabels : Labels) (podNS meshRootNS : String)

/-- The loop of `resolveIstioMTLSMode`, with the policies it has kept so far. -/
def resolveFrom : Option PeerAuthRef → Option PeerAuthRef → List PeerAuthRef → Mode × String
  | some pa, _, [] => (pa.mode, "namespace")
  | none, some pa, [] => (pa.mode, "mesh")
  | none, none, [] => (.unset, "")
  | namespacePA, meshPA, pa :: pas =>
    if pa.ns = podNS ∧ pa.selector ≠ [] then
      if selectorMatches pa.selector podLabels then (pa.mode, "workload")
      else resolveFrom namespacePA meshPA pas
    else if pa.ns = podNS ∧ pa.selector = [] then
      resolveFrom (namespacePA <|> some pa) meshPA pas
    else if pa.ns = meshRootNS ∧ pa.selector = [] then
      resolveFrom namespacePA (meshPA <|> some pa) pas
    else resolveFrom namespacePA meshPA pas

def resolveIstioMTLSMode (peerAuths : List PeerAuthRef) : Mode × String :=
  resolveFrom podLabels podNS meshRootNS none none peerAuths

end

def modeToState : Mode → MTLSState
  | .strict => .active
  | .permissive | .disable | .unset | .absent | .other _ => .inactive

/-! ## Istio's rule -/

inductive Level
  | workload
  | namespace
  | mesh

/-- The levels that go before this one. -/
def Level.above : Level → List Level
  | .workload => []
  | .namespace => [.workload]
  | .mesh => [.workload, .namespace]

def applies (podLabels : Labels) (podNS meshRootNS : String) (pa : PeerAuthRef) : Level → Bool
  | .workload => pa.ns = podNS ∧ selectorMatches pa.selector podLabels
  | .namespace => pa.ns = podNS ∧ pa.selector = []
  | .mesh => pa.ns = meshRootNS ∧ pa.selector = []

def Mode.inherits (m : Mode) : Prop := m = .unset ∨ m = .absent

section

variable (ap : PeerAuthRef → Level → Bool) (pas : List PeerAuthRef)

def OnePerLevel : Prop := ∀ l, ∀ pa ∈ pas, ∀ pa' ∈ pas, ap pa l → ap pa' l → pa = pa'

def LeftTo (l : Level) : Prop := ∀ l' ∈ l.above, ∀ pa ∈ pas, ap pa l' → pa.mode.inherits

/-- The mode in force: that of the most specific policy that sets one. -/
inductive Effective : Mode → Prop
  | set (l) (pa) (hpa : pa ∈ pas) (hl : ap pa l) (hset : ¬ pa.mode.inherits)
      (habove : LeftTo ap pas l) : Effective pa.mode
  | default (hnone : ∀ l, ∀ pa ∈ pas, ap pa l → pa.mode.inherits) : Effective .permissive

/-- A STRICT policy is inherited by a more specific one that leaves the mode to it. -/
def StrictInherited : Prop := ∃ l, LeftTo ap pas l ∧ (∃ pa ∈ pas, ap pa l ∧ pa.mode = .strict) ∧
  ∃ l' ∈ l.above, ∃ pa ∈ pas, ap pa l'

end

section

variable {podLabels : Labels} {podNS meshRootNS : String} {pas : List PeerAuthRef}

theorem resolveFrom_mode (namespacePA meshPA : Option PeerAuthRef) :
    (resolveFrom podLabels podNS meshRootNS namespacePA meshPA pas).1 =
      (pas.find? (applies podLabels podNS meshRootNS · .workload) <|> namespacePA <|>
        pas.find? (applies podLabels podNS meshRootNS · .namespace) <|> meshPA <|>
        pas.find? (applies podLabels podNS meshRootNS · .mesh)).elim .unset PeerAuthRef.mode := by
  induction pas generalizing namespacePA meshPA with
  | nil => cases namespacePA <;> cases meshPA <;> rfl
  | cons pa pas ih =>
    rw [resolveFrom, find?_cons, find?_cons, find?_cons]
    split
    next hns =>
      split
      next hma => simp [applies, hns, hma]
      next hma => simp [ih, applies, hns, hma]
    next hns =>
      split
      next hem => cases namespacePA <;> simp [ih, applies, hem, selectorMatches]
      next hem =>
        have hot : pa.ns ≠ podNS := by grind
        split
        next hms =>
          obtain ⟨rfl, hem⟩ := hms
          cases namespacePA <;> cases meshPA <;> simp [ih, applies, hem, hot, selectorMatches]
        next hms => simp [ih, applies, hms, hot]

/-- The most specific policy decides, set or not. -/
theorem resolve_cases : let ap := applies podLabels podNS meshRootNS
    (∃ l, ∃ pa ∈ pas, ap pa l ∧ (∀ l' ∈ l.above, ∀ pa' ∈ pas, ¬ ap pa' l') ∧
      (resolveIstioMTLSMode podLabels podNS meshRootNS pas).1 = pa.mode) ∨
    (∀ l, ∀ pa ∈ pas, ¬ ap pa l) ∧
      (resolveIstioMTLSMode podLabels podNS meshRootNS pas).1 = .unset := by
  intro ap
  have hfd : ∀ l pa, pas.find? (ap · l) = some pa → pa ∈ pas ∧ ap pa l := fun l pa h =>
    ⟨mem_of_find?_eq_some h, find?_some (p := (ap · l)) h⟩
  have hno : ∀ l, pas.find? (ap · l) = none → ∀ pa ∈ pas, ¬ ap pa l := fun l => find?_eq_none.mp
  rw [resolveIstioMTLSMode, resolveFrom_mode]
  cases hw : pas.find? (ap · .workload) with
  | some pa => exact .inl ⟨.workload, pa, (hfd _ _ hw).1, (hfd _ _ hw).2, nofun, rfl⟩
  | none =>
    cases hn : pas.find? (ap · .namespace) with
    | some pa =>
      exact .inl ⟨.namespace, pa, (hfd _ _ hn).1, (hfd _ _ hn).2,
        forall_mem_singleton.mpr (hno _ hw), rfl⟩
    | none =>
      cases hm : pas.find? (ap · .mesh) with
      | some pa =>
        exact .inl ⟨.mesh, pa, (hfd _ _ hm).1, (hfd _ _ hm).2,
          forall_mem_cons.mpr ⟨hno _ hw, forall_mem_singleton.mpr (hno _ hn)⟩, rfl⟩
      | none => exact .inr ⟨fun l => by cases l <;> exact hno _ ‹_›, rfl⟩

theorem Level.trichotomy (l l' : Level) : l = l' ∨ l ∈ l'.above ∨ l' ∈ l.above := by
  cases l <;> cases l' <;> simp [above]

variable (podLabels podNS meshRootNS) in
/-- The state is the effective one unless a STRICT policy is inherited. -/
theorem reported_iff (hone : OnePerLevel (applies podLabels podNS meshRootNS) pas) :
    (modeToState (resolveIstioMTLSMode podLabels podNS meshRootNS pas).1 = .active ↔
        Effective (applies podLabels podNS meshRootNS) pas .strict) ↔
      ¬ StrictInherited (applies podLabels podNS meshRootNS) pas := by
  have hac : ∀ m, modeToState m = .active ↔ m = .strict := by
    intro m
    cases m <;> simp [modeToState]
  have hef : ∀ ap, Effective ap pas .strict ↔
      ∃ l, LeftTo ap pas l ∧ ∃ pa ∈ pas, ap pa l ∧ pa.mode = .strict := by
    refine fun ap => ⟨fun h => ?_, fun ⟨l, hab, pa, hpa, hl, hst⟩ => ?_⟩
    · generalize hm : Mode.strict = m at h
      cases h with
      | set l pa hpa hl hset hab => exact ⟨l, hab, pa, hpa, hl, rfl⟩
      | default => cases hm
    · exact hst ▸ .set l pa hpa hl (by simp [hst, Mode.inherits]) hab
  rw [hac, hef]
  rcases resolve_cases with ⟨l, pa, hpa, hl, hfi, hmd⟩ | ⟨hno, hmd⟩
  · -- A STRICT policy that is left the mode is this one, or stands below it and is inherited.
    rw [hmd, StrictInherited]
    grind [Level.trichotomy, OnePerLevel, LeftTo, Mode.inherits]
  · rw [hmd, StrictInherited]
    grind

end

/-! ## Workloads -/

inductive MeshType
  | istio
  | linkerd
  | none

inductive MTLSSource
  | policy
  | metric
  | default

structure WorkloadMTLS where
  ns : String
  workload : String
  workloadKind : String
  mesh : MeshType
  state : MTLSState
  source : MTLSSource
  istioMode : Option Mode
  sourceDetail : String
  workloadKindConfident : Bool

/-- What `aggregateWorkloads` reads of a pod is a row of its own. -/
structure PodPosture extends WorkloadMTLS where
  podName : String
  podLabels : Labels

def WorkloadMTLS.key (w : WorkloadMTLS) : String × String × String :=
  (w.ns, w.workloadKind, w.workload)

/-- The loop over the members of a group after the first. -/
def widen (agg : WorkloadMTLS) (m : PodPosture) : WorkloadMTLS :=
  { agg with
    state := if m.state ≠ agg.state then .mixed else agg.state
    workloadKindConfident := agg.workloadKindConfident && m.workloadKindConfident }

def aggregate : List PodPosture → Option WorkloadMTLS
  | [] => none
  | first :: members => some (members.foldl widen first.toWorkloadMTLS)

/-- Groups in the order of their first pods, then sorted. -/
def aggregateWorkloads (postures : List PodPosture) : List WorkloadMTLS :=
  ((postures.map fun pp => pp.key).eraseDups.filterMap fun k =>
    aggregate (postures.filter fun pp => pp.key = k)).mergeSort fun a b =>
      if a.ns ≠ b.ns then a.ns ≤ b.ns else a.workload ≤ b.workload

theorem foldl_widen (members : List PodPosture) (agg : WorkloadMTLS) :
    (members.foldl widen agg).key = agg.key ∧ ((members.foldl widen agg).state = .active ↔
      agg.state = .active ∧ ∀ m ∈ members, m.state = .active) := by
  induction members generalizing agg with
  | nil => simp
  | cons m members ih =>
    refine ⟨(ih _).1, (ih _).2.trans ?_⟩
    simp only [widen, forall_mem_cons]
    split <;> grind

theorem aggregate_some {members : List PodPosture} {k : String × String × String}
    {w : WorkloadMTLS} (hkey : ∀ m ∈ members, m.key = k) (h : aggregate members = some w) :
    w.key = k ∧ (w.state = .active ↔ ∀ m ∈ members, m.state = .active) := by
  cases members with
  | nil => cases h
  | cons first members =>
    cases h
    rw [forall_mem_cons] at hkey ⊢
    exact ⟨(foldl_widen ..).1.trans hkey.1, (foldl_widen ..).2⟩

/-- A row is active when all its pods are, in whatever order they come. -/
theorem aggregateWorkloads_active {postures : List PodPosture} {w : WorkloadMTLS}
    (hw : w ∈ aggregateWorkloads postures) :
    w.state = .active ↔ ∀ pp ∈ postures, pp.key = w.key → pp.state = .active := by
  obtain ⟨k, -, hk⟩ := mem_filterMap.mp (mem_mergeSort.mp hw)
  obtain ⟨rfl, hac⟩ := aggregate_some (fun m hm => by simpa using (mem_filter.mp hm).2) hk
  simpa using hac

theorem exists_mem_aggregateWorkloads {postures : List PodPosture} {pp : PodPosture}
    (hpp : pp ∈ postures) : ∃ w ∈ aggregateWorkloads postures, w.key = pp.key := by
  have hmem : pp ∈ postures.filter fun x => x.key = pp.key := by simpa using hpp
  have hk : pp.key ∈ (postures.map fun x => x.key).eraseDups :=
    mem_eraseDups.mpr (mem_map_of_mem hpp)
  cases hagg : aggregate (postures.filter fun x => x.key = pp.key) with
  | none => cases hm : postures.filter fun x => x.key = pp.key <;> simp_all [aggregate]
  | some w =>
    exact ⟨w, mem_mergeSort.mpr (mem_filterMap.mpr ⟨_, hk, hagg⟩),
      (aggregate_some (fun m hm => by simpa using (mem_filter.mp hm).2) hagg).1⟩

/-- A pod is shown in its effective state exactly when no STRICT policy is inherited; a workload is
shown as active exactly when all its pods are. -/
theorem istio_mtls_reported (podLabels : Labels) (podNS meshRootNS : String)
    (pas : List PeerAuthRef) (hone : OnePerLevel (applies podLabels podNS meshRootNS) pas)
    (postures : List PodPosture) :
    ((modeToState (resolveIstioMTLSMode podLabels podNS meshRootNS pas).1 = .active ↔
        Effective (applies podLabels podNS meshRootNS) pas .strict) ↔
      ¬ StrictInherited (applies podLabels podNS meshRootNS) pas) ∧
    (∀ pp ∈ postures, ∃ w ∈ aggregateWorkloads postures, w.key = pp.key) ∧
    ∀ w ∈ aggregateWorkloads postures,
      (w.state = .active ↔ ∀ pp ∈ postures, pp.key = w.key → pp.state = .active) :=
  ⟨reported_iff podLabels podNS meshRootNS hone, fun _ => exists_mem_aggregateWorkloads,
    fun _ => aggregateWorkloads_active⟩

private def shopLabels (k : String) : Option String := if k = "app" then some "web" else none

private def overridden : List PeerAuthRef :=
  [⟨"shop", "web", .unset, [("app", "web")]⟩, ⟨"shop", "default", .strict, []⟩]

private def namespaceStrict : List PeerAuthRef :=
  [⟨"istio-system", "default", .permissive, []⟩, ⟨"shop", "default", .strict, []⟩]

/-- The STRICT policy of the namespace goes before the PERMISSIVE one of the mesh. -/
theorem istio_mtls_reported_namespaceStrict :
    (modeToState (resolveIstioMTLSMode shopLabels "shop" "istio-system" namespaceStrict).1 =
        .active ↔
      Effective (applies shopLabels "shop" "istio-system") namespaceStrict .strict) := by
  refine (istio_mtls_reported _ _ _ _ ?_ []).1.mpr ?_
  · exact fun l => by cases l <;> simp [namespaceStrict, applies, selectorMatches]
  · rintro ⟨l, -, ⟨pa, hpa, hap, hst⟩, l', hl', pa', hpa', hap'⟩
    simp only [namespaceStrict, mem_cons, not_mem_nil, or_false] at hpa hpa'
    rcases hpa with rfl | rfl <;> rcases hpa' with rfl | rfl <;> cases l <;> cases l' <;>
      simp_all [Level.above, applies, selectorMatches]

/-- An unset policy of the workload hides the STRICT one of its namespace. -/
theorem istio_mtls_hides_inherited :
    OnePerLevel (applies shopLabels "shop" "istio-system") overridden ∧
      ¬ (modeToState (resolveIstioMTLSMode shopLabels "shop" "istio-system" overridden).1 =
          .active ↔ Effective (applies shopLabels "shop" "istio-system") overridden .strict) := by
  refine ⟨fun l => by cases l <;> simp [overridden, applies, selectorMatches], fun h => ?_⟩
  have hef : Effective (applies shopLabels "shop" "istio-system") overridden .strict :=
    .set .namespace ⟨"shop", "default", .strict, []⟩ (by simp [overridden]) (by decide)
      (by simp [Mode.inherits])
      (by simp [LeftTo, Level.above, overridden, applies, selectorMatches, Mode.inherits])
  exact absurd (h.mpr hef) (by decide)

end KubeCenter.Servicemesh
