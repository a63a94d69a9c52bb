import Mathlib.Data.List.Basic

/-! # Permissions the interface shows

`auth/rbac.go` folds the rules a review returns into verbs per resource name, `lib/permissions.ts`
asks that summary. API groups and resource names of a rule are not read. -/
namespace KubeCenter.Auth
open List

structure ResourceRule where
  verbs : List String
  apiGroups : List String
  resources : List String
  resourceNames : List String

/-- The tracked resources with the API group each belongs to. -/
def trackedGroups : List (String × String) :=
  ["pods", "services", "configmaps", "secrets", "namespaces", "nodes", "persistentvolumeclaims",
    "persistentvolumes", "endpoints", "events", "resourcequotas", "limitranges",
    "serviceaccounts"].map (·, "") ++
  ["deployments", "statefulsets", "daemonsets", "replicasets"].map (·, "apps") ++
  ["jobs", "cronjobs"].map (·, "batch") ++
  ["ingresses", "networkpolicies"].map (·, "networking.k8s.io") ++
  [("poddisruptionbudgets", "policy"), ("horizontalpodautoscalers", "autoscaling"),
    ("storageclasses", "storage.k8s.io")] ++
  ["roles", "clusterroles", "rolebindings", "clusterrolebindings"].map
    (·, "rbac.authorization.k8s.io") ++
  [("endpointslices", "discovery.k8s.io")]

def trackedResources : List String := trackedGroups.map Prod.fst

/-- Verbs per resource name; a name that is not there has none. -/
abbrev Perms := String → List String

structure RBACSummary where
  clusterScoped : Perms
  namespaces : List (String × Perms)

def appendUnique (slice : List String) (val : String) : List String :=
  if val ∈ slice then slice else slice ++ [val]

/-- The body of the loop over a rule's resources. -/
def addResource (verbs : List String) (perms : Perms) (resource : String) : Perms :=
  let add := fun k => verbs.foldl appendUnique (perms k)
  if resource = "*" then fun k => if k ∈ trackedResources then add k else perms k
  else if resource ∉ trackedResources then perms
  else Function.update perms resource (add resource)

def rulesPerms (rules : List ResourceRule) : Perms :=
  rules.foldl (fun perms rule => rule.resources.foldl (addResource rule.verbs) perms) fun _ => []

def clusterRulesNamespace : String := "kubecenter:cluster-wide"

def isSystemNamespace (ns : String) : Bool := "kube-".toList.isPrefixOf ns.toList

section

/- What the review of a namespace returns. -/
variable (review : String → Option (List ResourceRule))

def getRulesForNamespace (ns : String) : Option Perms := (review ns).map rulesPerms

def getSummary (namespaces : List String) : RBACSummary where
  clusterScoped := (getRulesForNamespace review clusterRulesNamespace).getD fun _ => []
  namespaces := (namespaces.filter (!isSystemNamespace ·)).filterMap fun ns =>
    (getRulesForNamespace review ns).map (ns, ·)

def getNamespacePermissions (ns : String) : RBACSummary :=
  getSummary review (if ns ≠ "" then [ns] else [])

end

def offers (perms : Perms) (kind verb : String) : Bool :=
  (perms kind).contains verb || (perms kind).contains "*"

def canPerform (rbac : Option RBACSummary) (kind verb ns : String) : Bool :=
  match rbac with
  | none => true
  | some rbac => offers rbac.clusterScoped kind verb ||
    if ns = "" then rbac.namespaces.any fun e => offers e.2 kind verb
    else ((rbac.namespaces.lookup ns).map (offers · kind verb)).getD false

/-- The rule names the verb and the kind, or all of them. -/
def ResourceRule.Names (rule : ResourceRule) (kind verb : String) : Prop :=
  (kind ∈ rule.resources ∨ "*" ∈ rule.resources) ∧ (verb ∈ rule.verbs ∨ "*" ∈ rule.verbs)

/-- The rule names them in the kind's own API group and for every object. -/
def ResourceRule.Grants (rule : ResourceRule) (kind verb : String) : Prop :=
  rule.Names kind verb ∧ rule.resourceNames = [] ∧
    ∃ group ∈ trackedGroups.lookup kind, group ∈ rule.apiGroups ∨ "*" ∈ rule.apiGroups

/-- What a fold collects, when every step adds its part. -/
theorem foldl_collects {σ α : Type} {f : σ → α → σ} (has : σ → Prop) {adds : α → Prop}
    (h : ∀ s a, has (f s a) ↔ has s ∨ adds a) (l : List α) (s : σ) :
    has (l.foldl f s) ↔ has s ∨ ∃ a ∈ l, adds a := by
  induction l generalizing s with
  | nil => simp
  | cons a l ih => simp [ih, h, or_assoc]

theorem mem_foldl_appendUnique {v : String} (verbs slice : List String) :
    v ∈ verbs.foldl appendUnique slice ↔ v ∈ slice ∨ v ∈ verbs := by
  have hstep : ∀ (s : List String) a, v ∈ appendUnique s a ↔ v ∈ s ∨ v = a := by
    intro s a
    by_cases ha : a ∈ s
    · simp only [appendUnique, ha, if_true, iff_self_or]
      rintro rfl
      exact ha
    · simp [appendUnique, ha]
  simpa using foldl_collects (v ∈ ·) hstep verbs slice

section Collected

variable {kind verb ns : String} (hk : kind ∈ trackedResources)
include hk

theorem mem_addResource (verbs : List String) {v : String} (perms : Perms) (resource : String) :
    v ∈ addResource verbs perms resource kind ↔
      v ∈ perms kind ∨ (resource = kind ∨ resource = "*") ∧ v ∈ verbs := by
  unfold addResource
  by_cases hw : resource = "*"
  · simp [hw, hk, mem_foldl_appendUnique]
  · by_cases he : resource = kind
    · subst he
      simp [hw, hk, mem_foldl_appendUnique]
    · by_cases ht : resource ∈ trackedResources
      · simp [hw, he, ht, Ne.symm he]
      · simp [hw, he, ht]

theorem mem_rulesPerms {v : String} (rules : List ResourceRule) : v ∈ rulesPerms rules kind ↔
    ∃ rule ∈ rules, (kind ∈ rule.resources ∨ "*" ∈ rule.resources) ∧ v ∈ rule.verbs := by
  have hstep : ∀ (perms : Perms) (rule : ResourceRule),
      v ∈ rule.resources.foldl (addResource rule.verbs) perms kind ↔ v ∈ perms kind ∨
        (kind ∈ rule.resources ∨ "*" ∈ rule.resources) ∧ v ∈ rule.verbs := by
    intro perms rule
    rw [foldl_collects (fun p : Perms => v ∈ p kind) (mem_addResource hk rule.verbs)]
    simp [and_or_left, or_and_right, exists_or]
  rw [rulesPerms, foldl_collects (fun p : Perms => v ∈ p kind) hstep]
  simp

theorem offers_iff (rules : List ResourceRule) :
    offers (rulesPerms rules) kind verb = true ↔ ∃ rule ∈ rules, rule.Names kind verb := by
  simp only [offers, Bool.or_eq_true, contains_iff_mem, mem_rulesPerms hk, ResourceRule.Names,
    and_or_left, exists_or]

theorem canPerform_iff (rules : String → List ResourceRule) {namespaces : List String}
    (hn : ns ∈ namespaces) (hne : ns ≠ "") (hs : isSystemNamespace ns = false) :
    canPerform (some (getSummary (some <| rules ·) namespaces)) kind verb ns = true ↔
      ∃ rule ∈ rules clusterRulesNamespace ++ rules ns, rule.Names kind verb := by
  have hl : (getSummary (some <| rules ·) namespaces).namespaces.lookup ns =
      some (rulesPerms (rules ns)) := by
    have hmem : ns ∈ namespaces.filter (!isSystemNamespace ·) := by simp [hn, hs]
    rw [← lookup_graph (fun ns => rulesPerms (rules ns)) hmem]
    simp [getSummary, getRulesForNamespace, filterMap_eq_map']
  rw [canPerform, hl, if_neg hne]
  simp only [Bool.or_eq_true, Option.map_some, Option.getD_some, offers_iff hk, getSummary,
    getRulesForNamespace, mem_append, or_and_right, exists_or]

end Collected

/-- The summary offers an action exactly as the rules grant it when a rule that names it is
accompanied by one that grants it. -/
theorem canPerform_grants_iff (rules : String → List ResourceRule) {kind verb ns : String}
    {namespaces : List String} (hk : kind ∈ trackedResources)
    (hn : ns ∈ namespaces) (hne : ns ≠ "") (hs : isSystemNamespace ns = false) :
    ∀ summary ∈ [getSummary (some <| rules ·) namespaces,
      getNamespacePermissions (some <| rules ·) ns],
      ((canPerform (some summary) kind verb ns = true ↔
          ∃ rule ∈ rules clusterRulesNamespace ++ rules ns, rule.Grants kind verb) ↔
        ((∃ rule ∈ rules clusterRulesNamespace ++ rules ns, rule.Names kind verb) →
          ∃ rule ∈ rules clusterRulesNamespace ++ rules ns, rule.Grants kind verb)) := by
  intro summary hm
  have hcan : canPerform (some summary) kind verb ns = true ↔
      ∃ rule ∈ rules clusterRulesNamespace ++ rules ns, rule.Names kind verb := by
    rcases mem_pair.mp hm with rfl | rfl
    · exact canPerform_iff hk rules hn hne hs
    · rw [getNamespacePermissions, if_pos hne]
      exact canPerform_iff hk rules mem_cons_self hne hs
  rw [hcan]
  exact ⟨Iff.mp, fun h => ⟨h, fun ⟨rule, hr, hg⟩ => ⟨rule, hr, hg.1⟩⟩⟩

private def podRules (group ns : String) : List ResourceRule :=
  if ns = "team" then [⟨["list"], [group], ["pods"], []⟩] else []

theorem canPerform_grants_iff_corePods :
    canPerform (some (getSummary (some <| podRules "" ·) ["team"])) "pods" "list" "team" =
      true := by
  have hg : ∃ rule ∈ podRules "" clusterRulesNamespace ++ podRules "" "team",
      rule.Grants "pods" "list" :=
    ⟨⟨["list"], [""], ["pods"], []⟩, by simp [podRules], ⟨by decide, by decide⟩, rfl, "",
      by decide, by decide⟩
  have hk : "pods" ∈ trackedResources := by decide
  exact ((canPerform_grants_iff (podRules "") hk mem_cons_self (by decide) (by decide) _
    mem_cons_self).mpr fun _ => hg).mpr hg

/-- Whoever may list the metrics of pods is offered the list of pods. -/
theorem canPerform_offers_metrics_pods :
    canPerform (some (getSummary (some <| podRules "metrics.k8s.io" ·) ["team"])) "pods" "list"
      "team" = true ∧
    ¬∃ rule ∈ podRules "metrics.k8s.io" clusterRulesNamespace ++ podRules "metrics.k8s.io" "team",
      rule.Grants "pods" "list" := by
  refine ⟨by decide, ?_⟩
  rintro ⟨rule, hr, -, -, group, hg, ha⟩
  have hg' : trackedGroups.lookup "pods" = some "" := by decide
  rw [hg'] at hg
  cases hg
  obtain rfl : rule = ⟨["list"], ["metrics.k8s.io"], ["pods"], []⟩ := by
    simpa [podRules, clusterRulesNamespace] using hr
  exact absurd ha (by decide)

end KubeCenter.Auth
