import KubeCenter.Lib.LengthPrefixed
import KubeCenter.Resources.Access

/-! # Whose decision an answer is

An answer is backed when a review of the same question, made for the same identity, returned it.
Where the parts of a key do not hold the separator it determines the question (`key_asks`). The TTL
runs from the answer of a review. -/
namespace KubeCenter.Resources
open Lib Go List

/-! ## Backed answers -/

/-- A review of the question of `c`, made at most `within` before `t`, and its answer. -/
def backs (within : Duration) (t : Time) (c : AccessCall) (allowed : Bool)
    (issued returned : Time × AccessEvent) : Bool :=
  match issued.2, returned.2 with
  | .issued n review, .returned n' _ b =>
    n = n' && b = allowed && decide (t - issued.1 ≤ within) && review.asks c
  | _, _ => false

def Backed (within : Duration) (events : List (Time × AccessEvent)) (t : Time) (c : AccessCall)
    (allowed : Bool) : Prop :=
  ∃ issued ∈ events, ∃ returned ∈ events, backs within t c allowed issued returned = true

instance (within : Duration) (events : List (Time × AccessEvent)) (t : Time) (c : AccessCall)
    (allowed : Bool) : Decidable (Backed within events t c allowed) :=
  inferInstanceAs (Decidable (∃ issued ∈ events, ∃ returned ∈ events,
    backs within t c allowed issued returned = true))

/-- Every answer of the history is backed by what happened up to it. -/
def Isolated (sha256 : Bytes → Bytes) (within : Duration)
    (history : List (Time × AccessAction)) : Prop :=
  ∀ before a after c allowed, history = before ++ a :: after →
    ((accessChecker sha256).event before a).2.answer = some (c, allowed) →
    Backed within ((accessChecker sha256).trace (before ++ [a])) a.1 c allowed

variable {c c' : AccessCall} {p : PendingReview} {i : Identity} {now t : Time} {allowed : Bool}

theorem asks_iff {r : Review} : r.asks c = true ↔ r.cluster = targetCluster c.clusterID ∧
      r.identity.username = c.identity.username ∧
      (∀ g, g ∈ r.identity.groups ↔ g ∈ c.identity.groups) ∧ r.attributes = c.attributes := by
  simp only [Review.asks, Bool.and_eq_true, decide_eq_true_eq, all_eq_true]
  constructor
  · rintro ⟨⟨⟨⟨hcu, hus⟩, hsub⟩, hsup⟩, hat⟩
    exact ⟨hcu, hus, fun g => ⟨hsub g, hsup g⟩, hat⟩
  · rintro ⟨hcu, hus, hgr, hat⟩
    exact ⟨⟨⟨⟨hcu, hus⟩, fun g => (hgr g).mp⟩, fun g => (hgr g).mpr⟩, hat⟩

/-! ## What the keys determine -/

/-- Names that do not hold what the keys join them with. -/
structure Identity.Clean (i : Identity) : Prop where
  username : (0 : UInt8) ∉ i.username
  groups : ∀ g ∈ i.groups, g ≠ [] ∧ comma ∉ g ∧ (0 : UInt8) ∉ g

theorem mem_sortStrings {g : Bytes} {groups} : g ∈ sortStrings groups ↔ g ∈ groups :=
  (perm_insertionSort _ _).mem_iff

theorem mem_iff_of_join {sep : UInt8} {gs hs} (hg : ∀ g ∈ gs, sep ∉ g ∧ g ≠ [])
    (hh : ∀ g ∈ hs, sep ∉ g ∧ g ≠ [])
    (h : [sep].intercalate (sortStrings gs) = [sep].intercalate (sortStrings hs)) (g : Bytes) :
    g ∈ gs ↔ g ∈ hs := by
  have hsr : sortStrings gs = sortStrings hs :=
    intercalate_inj (fun x hx => hg x (mem_sortStrings.mp hx))
      (fun x hx => hh x (mem_sortStrings.mp hx)) h
  rw [← mem_sortStrings, hsr, mem_sortStrings]

theorem sortedGroups_eq_join (groups : List Bytes) :
    sortedGroups groups = [comma].intercalate (sortStrings groups) := by
  unfold sortedGroups
  split
  next hln =>
    rw [eq_nil_of_length_eq_zero hln]
    rfl
  · rfl

theorem groups_of_sortedGroups {j : Identity} (hi : i.Clean) (hj : j.Clean)
    (h : sortedGroups i.groups = sortedGroups j.groups) (g : Bytes) :
    g ∈ i.groups ↔ g ∈ j.groups := by
  rw [sortedGroups_eq_join, sortedGroups_eq_join] at h
  exact mem_iff_of_join (fun g hg => ⟨(hi.groups g hg).2.1, (hi.groups g hg).1⟩)
    (fun g hg => ⟨(hj.groups g hg).2.1, (hj.groups g hg).1⟩) h g

theorem identity_of_text {j : Identity} (hi : i.Clean) (hj : j.Clean) (h : i.text = j.text) :
    i.username = j.username ∧ ∀ g, g ∈ i.groups ↔ g ∈ j.groups := by
  simp only [Identity.text, append_assoc, singleton_append] at h
  obtain ⟨hus, hjn⟩ := append_sep_inj hi.username hj.username h
  refine ⟨hus, mem_iff_of_join ?_ ?_ hjn⟩
  · exact fun g hg => ⟨(hi.groups g hg).2.2, (hi.groups g hg).1⟩
  · exact fun g hg => ⟨(hj.groups g hg).2.2, (hj.groups g hg).1⟩

/-- An API group holds no slash, and no resource of `CanAccess` spells the API group and the
resource of the other entry point. -/
def AccessTarget.Apart : AccessTarget → AccessTarget → Prop
  | .resource _, .resource _ => True
  | .resource r, .groupResource g x => r ≠ g ++ [slash] ++ x
  | .groupResource g x, .resource r => r ≠ g ++ [slash] ++ x
  | .groupResource g _, .groupResource g' _ => slash ∉ g ∧ slash ∉ g'

theorem target_of_key (hap : c.target.Apart c'.target) (h : c.key = c'.key) :
    c.target = c'.target := by
  have hrs := congrArg AccessCacheKey.resource h
  unfold AccessCall.key at hrs
  cases ht : c.target with
  | resource r =>
    cases ht' : c'.target with
    | resource r' =>
      simp only [ht, ht'] at hrs
      rw [hrs]
    | groupResource g x =>
      simp only [ht, ht'] at hrs hap
      exact absurd hrs hap
  | groupResource g x =>
    cases ht' : c'.target with
    | resource r =>
      simp only [ht, ht'] at hrs hap
      exact absurd hrs.symm hap
    | groupResource g' x' =>
      simp only [ht, ht', append_assoc, singleton_append] at hrs hap
      obtain ⟨rfl, rfl⟩ := append_sep_inj hap.1 hap.2 hrs
      rfl

theorem splitResource_joined_ne (g x : Bytes) : splitResource (g ++ [slash] ++ x) ≠ (x, []) := by
  intro h
  have hln : (g ++ [slash] ++ x).length = g.length + 1 + x.length := by
    rw [length_append, length_append, length_singleton]
  simp only [splitResource] at h
  split at h
  next hidx =>
    obtain ⟨hres, hsub⟩ := Prod.mk.inj h
    -- the only slash is the last byte, so the API group is empty and the slash is first
    have hend := drop_eq_nil_iff.mp hsub
    have hres' := congrArg List.length hres
    rw [length_take] at hres'
    have hg : g = [] := eq_nil_of_length_eq_zero (by omega)
    subst hg
    simp at hidx
  · have hsm := congrArg List.length (Prod.mk.inj h).1
    omega

theorem attributes_ne_of_joined {g x : Bytes} (hc : c.target = .resource (g ++ [slash] ++ x))
    (hc' : c'.target = .groupResource g x) : c.attributes ≠ c'.attributes := by
  intro h
  simp only [AccessCall.attributes, hc, hc', ResourceAttributes.mk.injEq] at h
  exact splitResource_joined_ne g x (Prod.ext h.2.2.1 h.2.2.2.1)

theorem key_asks (hc : c.identity.Clean) (hc' : c'.identity.Clean)
    (hap : c.target.Apart c'.target) (hkey : c.key = c'.key) {r : Review} (h : r.asks c = true) :
    r.asks c' = true := by
  have htr := target_of_key hap hkey
  obtain ⟨hcu, hus, hgr, hat⟩ := asks_iff.mp h
  have hns : c.namespace_ = c'.namespace_ := congrArg AccessCacheKey.namespace_ hkey
  have hvr : c.verb = c'.verb := congrArg AccessCacheKey.verb hkey
  have hid : c.clusterID = c'.clusterID := congrArg AccessCacheKey.clusterID hkey
  have huse : c.identity.username = c'.identity.username := congrArg AccessCacheKey.username hkey
  have hsm : sortedGroups c.identity.groups = sortedGroups c'.identity.groups :=
    congrArg AccessCacheKey.groups hkey
  refine asks_iff.mpr ⟨hid ▸ hcu, huse ▸ hus, ?_, ?_⟩
  · intro g
    rw [hgr g, groups_of_sortedGroups hc hc' hsm g]
  · rw [hat, AccessCall.attributes, AccessCall.attributes, htr, hns, hvr]

/-! ## Histories in which every answer is backed -/

def Asked (history : List (Time × AccessAction)) (c : AccessCall) : Prop :=
  ∃ t, (t, .call c) ∈ history

/-- The identities of a history: of its calls, and those its clients were made for. -/
def Named (history : List (Time × AccessAction)) (i : Identity) : Prop :=
  (∃ c, Asked history c ∧ c.identity = i) ∨ ∃ t n, (t, .client n (some i)) ∈ history

/-- What the keys rely on. -/
structure Separable (sha256 : Bytes → Bytes) (history : List (Time × AccessAction)) : Prop where
  clean : ∀ i, Named history i → i.Clean
  apart : ∀ c c', Asked history c → Asked history c' → c.target.Apart c'.target
  hashes : ∀ i j, Named history i → Named history j → sha256 i.text = sha256 j.text →
    i.text = j.text

/-- Every review of the history is answered within `d` of its start. -/
def Prompt (sha256 : Bytes → Bytes) (d : Duration) (history : List (Time × AccessAction)) : Prop :=
  ∀ before now n allowed after, history = before ++ (now, .reviewed n allowed) :: after →
    ∀ p ∈ ((accessChecker sha256).run before).reviews, p.number = n → now - p.issuedAt ≤ d

/-- A review in flight was issued for its call, a cached answer returned by one for its key. -/
structure Recorded (history : List (Time × AccessAction)) (d : Duration) (s : Checker)
    (events : List (Time × AccessEvent)) : Prop where
  waiting : ∀ w ∈ s.waiting, Asked history w.2
  reviews : ∀ p ∈ s.reviews, Asked history p.call ∧ p.review.asks p.call = true ∧
    (p.issuedAt, .issued p.number p.review) ∈ events
  cache : ∀ key entry, s.cache key = some entry → ∃ p : PendingReview, ∃ t c,
    Asked history p.call ∧ p.review.asks p.call = true ∧ p.call.key = key ∧
      (p.issuedAt, .issued p.number p.review) ∈ events ∧
      (t, .returned p.number c entry.allowed) ∈ events ∧
      entry.expiresAt = t + accessCacheTTL ∧ t - p.issuedAt ≤ d

variable {sha256 : Bytes → Bytes} {history : List (Time × AccessAction)} {d : Duration}
variable {s : Checker} {events : List (Time × AccessEvent)}

section

variable (h : Recorded history d s events)
include h

theorem Recorded.grow (e : Time × AccessEvent) : Recorded history d s (events ++ [e]) where
  waiting := h.waiting
  reviews := by
    intro p hp
    obtain ⟨hasked, hask, his⟩ := h.reviews p hp
    exact ⟨hasked, hask, mem_append_left _ his⟩
  cache := by
    intro key entry hen
    obtain ⟨p, t, c, hasked, hask, hkey, his, hret, hre⟩ := h.cache key entry hen
    exact ⟨p, t, c, hasked, hask, hkey, mem_append_left _ his, mem_append_left _ hret, hre⟩

theorem Recorded.delete (key : AccessCacheKey) :
    Recorded history d { s with cache := Function.update s.cache key none } events where
  waiting := h.waiting
  reviews := h.reviews
  cache := by
    intro key' entry hen
    by_cases hkey : key' = key
    · subst hkey
      simp at hen
    · exact h.cache key' entry (by simpa [hkey] using hen)

theorem Recorded.miss (hc : Asked history c) (now : Time) :
    Recorded history d (s.miss c).2 (events ++ [(now, (s.miss c).1)]) where
  waiting := by
    intro w hw
    rcases mem_cons.mp hw with rfl | hw
    · exact hc
    · exact h.waiting w hw
  reviews := (h.grow _).reviews
  cache := (h.grow _).cache

theorem Recorded.lookup (hc : Asked history c) (now : Time) :
    Recorded history d (s.lookup now c).2 (events ++ [(now, (s.lookup now c).1)]) := by
  unfold Checker.lookup
  split
  · split
    · exact h.grow _
    · exact (h.delete c.key).miss hc now
  · exact h.miss hc now

/-- A client that was handed out under the call's key asks for the call's identity. -/
theorem Recorded.issue (hsep : Separable sha256 history) (now : Time) (number : ℕ)
    (hc : Asked history c) {made} (hmd : ∀ i, made = some i → Named history i) :
    Recorded history d (s.issue sha256 now number c made).2
      (events ++ [(now, (s.issue sha256 now number c made).1)]) := by
  have hwt : ∀ w ∈ s.waiting.filter (·.1 ≠ number), Asked history w.2 :=
    fun w hw => h.waiting w (mem_of_mem_filter hw)
  cases made with
  | none => exact ⟨hwt, (h.grow _).reviews, (h.grow _).cache⟩
  | some i =>
    simp only [Checker.issue]
    split
    next hhs =>
      refine ⟨hwt, ?_, (h.grow _).cache⟩
      intro p hp
      rcases mem_cons.mp hp with rfl | hp
      · have hi : Named history i := hmd i rfl
        have hcl : Named history c.identity := .inl ⟨c, hc, rfl⟩
        obtain ⟨hus, hgr⟩ := identity_of_text (hsep.clean i hi)
          (hsep.clean _ hcl) (hsep.hashes i _ hi hcl hhs)
        refine ⟨hc, asks_iff.mpr ⟨rfl, hus, hgr, rfl⟩, ?_⟩
        exact mem_append_right _ (mem_singleton.mpr rfl)
      · exact (h.grow _).reviews p hp
    · exact h.grow _

theorem Recorded.settle (hp : p ∈ s.reviews)
    (hpr : now - p.issuedAt ≤ d) (allowed : Option Bool) :
    Recorded history d (s.settle now p allowed).2
      (events ++ [(now, (s.settle now p allowed).1)]) := by
  have hrv : ∀ e, ∀ q ∈ s.reviews.filter (·.number ≠ p.number), Asked history q.call ∧
      q.review.asks q.call = true ∧
      (q.issuedAt, .issued q.number q.review) ∈ events ++ [e] :=
    fun e q hq => (h.grow e).reviews q (mem_of_mem_filter hq)
  cases allowed with
  | none => exact ⟨h.waiting, hrv _, (h.grow _).cache⟩
  | some b =>
    refine ⟨h.waiting, hrv _, ?_⟩
    intro key entry hen
    by_cases hkey : key = p.call.key
    · subst hkey
      simp only [Checker.settle, Function.update_self, Option.some.injEq] at hen
      subst hen
      obtain ⟨hasked, hask, his⟩ := h.reviews p hp
      exact ⟨p, now, p.call, hasked, hask, rfl, mem_append_left _ his,
        mem_append_right _ (mem_singleton.mpr rfl), rfl, hpr⟩
    · simp only [Checker.settle, Function.update_of_ne hkey] at hen
      exact (h.grow _).cache key entry hen

end

theorem recorded_after (hsep : Separable sha256 history) (hpr : Prompt sha256 d history)
    (before after : List (Time × AccessAction)) (hall : history = before ++ after) :
    Recorded history d ((accessChecker sha256).run before)
      ((accessChecker sha256).trace before) := by
  refine Reactive.run_inv_of_split ?_ ?_ before after hall
  · refine ⟨fun _ h => absurd h not_mem_nil, fun _ h => absurd h not_mem_nil, ?_⟩
    intro key entry hen
    cases hen
  · rintro as ⟨now, a⟩ bs hsp h
    have hmem : (now, a) ∈ history := by rw [hsp]; simp
    simp only [Reactive.event, accessChecker]
    cases a with
    | call c => exact h.lookup ⟨now, hmem⟩ now
    | client number made =>
      simp only [Checker.react]
      split
      · exact h.grow _
      next w hw =>
        refine h.issue hsep now number (h.waiting w (mem_of_find?_eq_some hw)) ?_
        intro i hi
        subst hi
        exact .inr ⟨now, number, hmem⟩
    | reviewed number allowed =>
      simp only [Checker.react]
      split
      · exact h.grow _
      next p hp =>
        have hnm : p.number = number := by simpa using find?_some hp
        have hin := mem_of_find?_eq_some hp
        exact h.settle hin (hpr as now number allowed bs hsp p hin hnm) allowed
    | delete key => exact (h.grow _).delete key

theorem lookup_answer (h : (s.lookup now c).1.answer = some (c', allowed)) :
    c' = c ∧ ∃ entry, s.cache c.key = some entry ∧ entry.allowed = allowed ∧
      now < entry.expiresAt := by
  unfold Checker.lookup at h
  split at h
  next entry hen =>
    split at h
    · rename_i hfs
      cases h
      exact ⟨rfl, entry, hen, rfl, hfs⟩
    · cases h
  · cases h

theorem issue_answer {number : ℕ} {made} : (s.issue sha256 now number c made).1.answer = none := by
  cases made with
  | none => rfl
  | some i =>
    simp only [Checker.issue]
    split
    · rfl
    · rfl

theorem settle_answer {answer} (h : (s.settle now p answer).1.answer = some (c, allowed)) :
    c = p.call ∧ (s.settle now p answer).1 = .returned p.number p.call allowed := by
  cases answer with
  | none => cases h
  | some b =>
    cases h
    exact ⟨rfl, rfl⟩

theorem Backed.of_mem {within : Duration} {t' : Time}
    (his : (p.issuedAt, .issued p.number p.review) ∈ events)
    (hret : (t', .returned p.number c' allowed) ∈ events) (hask : p.review.asks c = true)
    (hage : t - p.issuedAt ≤ within) : Backed within events t c allowed :=
  ⟨_, his, _, hret, by simp [backs, hask, hage]⟩

/-- When no name holds a separator, no two entry points spell one resource, the hashes of the
clients' keys do not collide and every review is answered within `d`, every answer is that of a
review of the same question for the same identity, at most `d` and a minute old. -/
theorem decisions_isolated (sha256 : Bytes → Bytes) (d : Duration)
    (history : List (Time × AccessAction)) (hsep : Separable sha256 history)
    (hprompt : Prompt sha256 d history) : Isolated sha256 (accessCacheTTL + d) history := by
  rintro before ⟨now, a⟩ after c allowed hall han
  have h := recorded_after hsep hprompt before _ hall
  have hla := (accessChecker sha256).trace_concat before (now, a)
  have hgro : ∀ {e}, e ∈ (accessChecker sha256).trace before →
      e ∈ (accessChecker sha256).trace (before ++ [(now, a)]) := by
    intro e he
    rw [hla]
    exact mem_append_left _ he
  cases a with
  | call c₀ =>
    obtain ⟨rfl, entry, hen, rfl, hfs⟩ := lookup_answer han
    obtain ⟨p, t, c', hasked, hask, hkey, his, hret, hexp, hage⟩ := h.cache _ entry hen
    have hcl : Asked history c := ⟨now, by rw [hall]; simp⟩
    have hsm : p.review.asks c = true :=
      key_asks (hsep.clean _ (.inl ⟨_, hasked, rfl⟩)) (hsep.clean _ (.inl ⟨_, hcl, rfl⟩))
        (hsep.apart _ _ hasked hcl) hkey hask
    refine Backed.of_mem (hgro his) (hgro hret) hsm ?_
    grind
  | client number made =>
    simp only [Reactive.event, accessChecker, Checker.react] at han
    split at han
    · cases han
    · rw [issue_answer] at han
      cases han
  | reviewed number answer =>
    simp only [Reactive.event, accessChecker, Checker.react] at han
    split at han
    · cases han
    next p hp =>
      have hin := mem_of_find?_eq_some hp
      have hnm : p.number = number := by simpa using find?_some hp
      obtain ⟨rfl, hev⟩ := settle_answer han
      obtain ⟨-, hask, his⟩ := h.reviews p hin
      have hret : (now, .returned p.number p.call allowed) ∈
          (accessChecker sha256).trace (before ++ [(now, .reviewed number answer)]) := by
        rw [hla]
        refine mem_append_right _ (mem_singleton.mpr ?_)
        simp only [Reactive.event, accessChecker, Checker.react, hp, hev]
      refine Backed.of_mem (hgro his) hret hask ?_
      exact le_add_of_nonneg_of_le (by decide)
        (hprompt before now number answer after hall p hin hnm)
  | delete key => cases han

/-! ## Calls that meet in the cache -/

def askedBy (groups : List Bytes) (target : AccessTarget) : AccessCall :=
  ⟨[], ⟨ascii "alice", groups⟩, ascii "get", target, ascii "shop"⟩

/-- A review that takes `took` and allows, and a second call at `t`. -/
def reusedAt (first second : AccessCall) (took t : Time) : List (Time × AccessAction) :=
  [(0, .call first), (0, .client 0 (some first.identity)), (took, .reviewed 0 (some true)),
    (t, .call second)]

theorem asked_reusedAt {first second} {took : Time} (h : Asked (reusedAt first second took t) c) :
    c = first ∨ c = second := by
  obtain ⟨u, hu⟩ := h
  simp only [reusedAt, mem_cons, Prod.mk.injEq, not_mem_nil] at hu
  rcases hu with ⟨-, hc⟩ | ⟨-, hc⟩ | ⟨-, hc⟩ | ⟨-, hc⟩ | hc
  · exact .inl (AccessAction.call.inj hc)
  · cases hc
  · cases hc
  · exact .inr (AccessAction.call.inj hc)
  · exact hc.elim

theorem named_reusedAt {first second} {took : Time} (h : Named (reusedAt first second took t) i) :
    i = first.identity ∨ i = second.identity := by
  rcases h with ⟨c, hc, rfl⟩ | ⟨u, n, hu⟩
  · rcases asked_reusedAt hc with rfl | rfl
    · exact .inl rfl
    · exact .inr rfl
  · simp only [reusedAt, mem_cons, Prod.mk.injEq, not_mem_nil] at hu
    rcases hu with ⟨-, hi⟩ | ⟨-, hi⟩ | ⟨-, hi⟩ | ⟨-, hi⟩ | hi
    · cases hi
    · cases hi
      exact .inl rfl
    · cases hi
    · cases hi
    · exact hi.elim

theorem prompt_reusedAt (sha256 : Bytes → Bytes) (first second : AccessCall) (took t : Time) :
    Prompt sha256 took (reusedAt first second took t) := by
  intro before now n allowed after hsp p hp hnm
  rcases before with _ | ⟨x, _ | ⟨y, _ | ⟨z, _ | ⟨w, before⟩⟩⟩⟩
  · cases hsp
  · cases hsp
  · cases hsp
    -- the review was issued at 0
    have his : p.issuedAt = 0 := by
      simp [Reactive.run, Reactive.runFrom, accessChecker, Checker.react, Checker.lookup,
        Checker.miss, Checker.issue] at hp
      rw [hp]
    rw [his]
    exact (sub_zero took).le
  · cases hsp
  · simp [reusedAt] at hsp

def reorderedGroups : List (Time × AccessAction) :=
  reusedAt (askedBy [ascii "dev", ascii "ops"] (.resource (ascii "secrets")))
    (askedBy [ascii "ops", ascii "dev"] (.resource (ascii "secrets"))) second (2 * second)

theorem separable_reorderedGroups : Separable id reorderedGroups where
  clean := by
    intro i hi
    rcases named_reusedAt hi with rfl | rfl
    · exact ⟨by decide, by decide⟩
    · exact ⟨by decide, by decide⟩
  apart := by
    intro c c' hc hc'
    rcases asked_reusedAt hc with rfl | rfl <;> rcases asked_reusedAt hc' with rfl | rfl <;>
      exact trivial
  hashes := fun _ _ _ _ h => h

theorem decisions_isolated_reorderedGroups : Isolated id (accessCacheTTL + second) reorderedGroups ∧
      ((accessChecker id).event (reorderedGroups.take 3) (2 * second, .call
        (askedBy [ascii "ops", ascii "dev"] (.resource (ascii "secrets"))))).2.answer =
        some (askedBy [ascii "ops", ascii "dev"] (.resource (ascii "secrets")), true) :=
  ⟨decisions_isolated id second reorderedGroups separable_reorderedGroups
    (prompt_reusedAt id _ _ second (2 * second)), rfl⟩

/-- The groups `dev` and `ops`, and one group named `dev,ops`. -/
def joinedGroups : List (Time × AccessAction) :=
  reusedAt (askedBy [ascii "dev", ascii "ops"] (.resource (ascii "secrets")))
    (askedBy [ascii "dev,ops"] (.resource (ascii "secrets"))) 0 second

/-- The log of pods, and the resource `log` of an API group `pods`. -/
def joinedResource : List (Time × AccessAction) :=
  reusedAt (askedBy [] (.groupResource (ascii "pods") (ascii "log")))
    (askedBy [] (.resource (ascii "pods/log"))) 0 second

def slowReview : List (Time × AccessAction) :=
  reusedAt (askedBy [] (.resource (ascii "pods"))) (askedBy [] (.resource (ascii "pods")))
    (10 * second) (69 * second)

theorem decisions_reused_for_other_questions :
    ¬ Isolated id accessCacheTTL joinedGroups ∧ ¬ Isolated id accessCacheTTL joinedResource ∧
      ¬ Isolated id accessCacheTTL slowReview := by
  refine ⟨?_, ?_, ?_⟩
  · intro h
    have hbc := h (joinedGroups.take 3) (second, .call _) [] _ true rfl rfl
    exact absurd hbc (by decide)
  · intro h
    have hbc := h (joinedResource.take 3) (second, .call _) [] _ true rfl rfl
    exact absurd hbc (by decide)
  · intro h
    have hbc := h (slowReview.take 3) (69 * second, .call _) [] _ true rfl rfl
    exact absurd hbc (by decide)

end KubeCenter.Resources
