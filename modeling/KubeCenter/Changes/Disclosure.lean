import KubeCenter.Changes.Redaction
import KubeCenter.Lib.Projection

/-! # A receipt read discloses nothing hidden

Each relation below fixes what may be seen of one object, check or ownership entry; each redaction
function is blind to its relation. `shownKeys` ties the three lists together. -/
namespace KubeCenter.Changes
open Lib Go Gitops Store Diagnostics

/-! ## What may be seen -/

section

variable (allowed : Option ObjectAccess)

/-- The same if visible, hidden for the same reason and under the same key if not. -/
structure ObjectAgree (o o' : ReceiptObject) : Prop where
  index : o.index = o'.index
  redaction : ReceiptObject.redaction allowed o = ReceiptObject.redaction allowed o'
  visible : ReceiptObject.redaction allowed o = none → o = o'
  hidden : ReceiptObject.redaction allowed o ≠ none → ReceiptObject.key o = ReceiptObject.key o'

/-- Checks at one position: the same if their source is visible. -/
structure CheckAgree (c c' : CheckResult) : Prop where
  redaction : CheckResult.redaction allowed c = CheckResult.redaction allowed c'
  visible : CheckResult.redaction allowed c = none → c = c'
  hidden : CheckResult.redaction allowed c ≠ none →
    c.checkID = c'.checkID ∧ c.status = c'.status ∧ c.severity = c'.severity ∧
      c.reason = c'.reason ∧ c.observedAt = c'.observedAt

/-- What may be seen of the applications of an ownership entry. -/
structure AppsAgree (e e' : OwnershipResult) : Prop where
  apps : visibleApps allowed e = visibleApps allowed e'
  evidence : keptEvidence allowed e = keptEvidence allowed e'
  hiddenApps : hiddenApps allowed e = hiddenApps allowed e'
  verdict : Changes.hiddenApps allowed e = 0 →
    e.controller = e'.controller ∧ e.confidence = e'.confidence ∧ e.reason = e'.reason

/-- The fields of an ownership entry that say when and how it was obtained. -/
structure SameSnapshot (e e' : OwnershipResult) : Prop where
  identityBasis : e.identityBasis = e'.identityBasis
  uidConfirmed : e.uidConfirmed = e'.uidConfirmed
  writableGitSource : e.writableGitSource = e'.writableGitSource
  observedAt : e.observedAt = e'.observedAt

/-- An object is recorded under the key, and every one that is may be seen. -/
def KeyVisible (objs : List ReceiptObject) (k : ObjectKey) : Prop :=
  (∃ o ∈ objs, ReceiptObject.key o = k) ∧
    ∀ o ∈ objs, ReceiptObject.key o = k → ReceiptObject.redaction allowed o = none

/-- About the same object, and alike when that object is visible. -/
structure EntryAgree (objs : List ReceiptObject) (e e' : OwnershipResult) : Prop where
  object : e.object = e'.object
  visible : KeyVisible allowed objs (ObjectRef.key e.object) → AppsAgree allowed e e'

end

/-! ## Objects and checks -/

variable {allowed : Option ObjectAccess}

theorem blind_redactObject (containsSecret : Bool) :
    Blind (ObjectAgree allowed) (redactObject containsSecret allowed) := by
  intro o o' h
  cases hr : ReceiptObject.redaction allowed o with
  | none => rw [h.visible hr]
  | some reason =>
    have hr' := h.redaction.symm.trans hr
    simp only [redactObject, hr, hr', h.index]

theorem blind_objectKey : Blind (ObjectAgree allowed) ReceiptObject.key := by
  intro o o' h
  by_cases hr : ReceiptObject.redaction allowed o = none
  · rw [h.visible hr]
  · exact h.hidden hr

theorem blind_redactObjects (containsSecret : Bool) : Blind (List.Forall₂ (ObjectAgree allowed))
      fun objs => redactObjects objs containsSecret allowed := by
  have hhd : Blind (ObjectAgree allowed)
      fun o => (ReceiptObject.redaction allowed o).isSome := fun o o' h => by
    simp only [h.redaction]
  exact (blind_redactObject containsSecret).map.prodMk hhd.countP

theorem blind_redactCheck : Blind (CheckAgree allowed) (redactCheck allowed) := by
  intro c c' h
  cases hr : CheckResult.redaction allowed c with
  | none => rw [h.visible hr]
  | some reason =>
    have hr' := h.redaction.symm.trans hr
    obtain ⟨hid, hst, hsev, hrs, hobs⟩ := h.hidden (by simp [hr])
    simp only [redactCheck, hr, hr', hid, hst, hsev, hrs, hobs]

theorem blind_redactChecks :
    Blind (List.Forall₂ (CheckAgree allowed)) fun checks => redactChecks checks allowed := by
  have hhd : Blind (CheckAgree allowed)
      fun c => (CheckResult.redaction allowed c).isSome := fun c c' h => by
    simp only [h.redaction]
  exact blind_redactCheck.map.prodMk hhd.countP

/-! ## Which keys are shown -/

theorem shownKeys_eq {objs objs'} (h : List.Forall₂ (ObjectAgree allowed) objs objs')
    (views : List ReceiptObjectView) : shownKeys objs views = shownKeys objs' views := by
  unfold shownKeys
  rw [blind_objectKey.map h, h.length_eq]

theorem redactObject_redacted (containsSecret : Bool) (o : ReceiptObject) :
    (redactObject containsSecret allowed o).redacted =
      (ReceiptObject.redaction allowed o).isSome := by
  unfold redactObject
  split <;> rename_i h <;> simp [h]

/-- A key is up at the end when it was up or newly recorded and no object under it is hidden. -/
theorem foldl_markShown (objs : List ReceiptObject) (containsSecret : Bool)
    (shown : ObjectKey → Option Bool) (k : ObjectKey) :
    ((objs.map ReceiptObject.key).zip (objs.map (redactObject containsSecret allowed))).foldl
        (fun shown kv => markShown shown kv.1 kv.2) shown k = some true ↔
      (shown k = some true ∨ shown k = none ∧ ∃ o ∈ objs, ReceiptObject.key o = k) ∧
        ∀ o ∈ objs, ReceiptObject.key o = k → ReceiptObject.redaction allowed o = none := by
  induction objs generalizing shown with
  | nil => simp
  | cons o objs ih =>
    simp only [List.map_cons, List.zip_cons_cons, List.foldl_cons, ih]
    have hred : (redactObject containsSecret allowed o).redacted = _ :=
      redactObject_redacted containsSecret o
    by_cases hkey : ReceiptObject.key o = k
    · subst hkey
      cases hr : ReceiptObject.redaction allowed o with
      | some reason => simp [markShown, hred, hr]
      | none => cases hsh : shown (ReceiptObject.key o) <;> simp [markShown, hred, hr, hsh]
    · have hot : markShown shown (ReceiptObject.key o)
          (redactObject containsSecret allowed o) k = shown k := by
        unfold markShown
        split
        · exact Function.update_of_ne (Ne.symm hkey) _ _
        split
        · exact Function.update_of_ne (Ne.symm hkey) _ _
        · rfl
      simp [hot, hkey]

theorem entryShown_iff (objs : List ReceiptObject) (containsSecret : Bool) (e : OwnershipResult) :
    entryShown (shownKeys objs (redactObjects objs containsSecret allowed).1) e ↔
      KeyVisible allowed objs (ObjectRef.key e.object) := by
  have hget : ∀ x : Option Bool, x.getD false = true ↔ x = some true := by
    intro x
    cases x <;> simp
  rw [entryShown, hget, shownKeys, if_pos (by simp [redactObjects])]
  simpa [redactObjects, KeyVisible] using
    foldl_markShown objs containsSecret (fun _ => none) (ObjectRef.key e.object)

/-! ## Ownership -/

theorem redactOwnershipEntry_eq {e e' : OwnershipResult} (hob : e.object = e'.object)
    (hap : AppsAgree allowed e e') (hsn : SameSnapshot e e') :
    redactOwnershipEntry allowed e = redactOwnershipEntry allowed e' := by
  have hvr : ¬ 0 < hiddenApps allowed e' →
      e.controller = e'.controller ∧ e.confidence = e'.confidence ∧ e.reason = e'.reason :=
    fun hno => hap.verdict (hap.hiddenApps.trans (Nat.eq_zero_of_not_pos hno))
  unfold redactOwnershipEntry
  simp only [hob, hap.apps, hap.evidence, hap.hiddenApps, hsn.identityBasis,
    hsn.uidConfirmed, hsn.writableGitSource, hsn.observedAt]
  split
  · rfl
  next hno =>
    obtain ⟨hctl, hcn, hrs⟩ := hvr hno
    rw [hctl, hcn, hrs]

def EntrySame (allowed : Option ObjectAccess) (objs : List ReceiptObject)
    (e e' : OwnershipResult) : Prop :=
  EntryAgree allowed objs e e' ∧
    (KeyVisible allowed objs (ObjectRef.key e.object) → SameSnapshot e e')

theorem blind_redactOwnership (objs : List ReceiptObject) (containsSecret : Bool) :
    Blind (List.Forall₂ (EntrySame allowed objs)) fun stored =>
      redactOwnership stored objs (redactObjects objs containsSecret allowed).1 allowed := by
  have hsh : Blind (EntrySame allowed objs)
      (entryShown (shownKeys objs (redactObjects objs containsSecret allowed).1)) :=
    fun e e' h => by simp only [entryShown, h.1.object]
  have hen : Blind (EntrySame allowed objs) fun res =>
      if entryShown (shownKeys objs (redactObjects objs containsSecret allowed).1) res
      then [redactOwnershipEntry allowed res] else [] := by
    intro e e' h
    simp only [← hsh h]
    split
    next hvis =>
      rw [entryShown_iff] at hvis
      rw [redactOwnershipEntry_eq h.1.object (h.1.visible hvis) (h.2 hvis)]
    · rfl
  exact hen.flatMap.prodMk (hsh.comp not).countP

/-! ## The read -/

/-- Receipts that agree on what may be seen give the same views, and count the same number of
hidden ones. -/
theorem receipt_read_discloses_nothing_hidden (allowed : Option ObjectAccess)
    (rec rec' : ChangeReceipt) (hsecret : rec.containsSecret = rec'.containsSecret)
    (hobjects : List.Forall₂ (ObjectAgree allowed) rec.objects rec'.objects) :
    (receiptViews rec allowed).objects = (receiptViews rec' allowed).objects ∧
      (List.Forall₂ (CheckAgree allowed) rec.verification rec'.verification →
        (receiptViews rec allowed).checks = (receiptViews rec' allowed).checks) ∧
      (List.Forall₂ (EntrySame allowed rec.objects) rec.ownership rec'.ownership →
        (receiptViews rec allowed).ownership = (receiptViews rec' allowed).ownership) := by
  have hvw : redactObjects rec.objects rec.containsSecret allowed =
      redactObjects rec'.objects rec'.containsSecret allowed := by
    rw [← hsecret]
    exact blind_redactObjects rec.containsSecret hobjects
  refine ⟨hvw, fun hch => blind_redactChecks hch, fun hown => ?_⟩
  have hsd := blind_redactOwnership rec.objects rec.containsSecret hown
  simp only [receiptViews, redactOwnership, ← hvw, ← shownKeys_eq hobjects] at hsd ⊢
  exact hsd

/-! ## Two readings of one change -/

/-- May get Deployments of `shop` and the Argo applications, nothing else. -/
def shopReader : ObjectAccess := fun group resource ns =>
  [("apps", "deployments", "shop"), ("argoproj.io", "applications", "argocd")].contains
    (group, resource, ns)

/-- A Deployment that two applications claim, and a Secret. The reader may see neither the Secret
nor the Flux application. -/
def shopReceipt (secretUID fluxApp : String) (observedAt : Time) : ChangeReceipt where
  id := 1
  ownerID := "u-1"
  ownerUsername := "dev"
  clusterID := "local"
  clusterGeneration := ""
  contentDigest := ""
  documentCount := 2
  force := false
  containsSecret := true
  repairOf := none
  state := .applied
  objects :=
    [⟨0, "apps", "v1", "deployments", "Deployment", "shop", "web", "d-1", .created, "", "", 0⟩,
      ⟨1, "", "v1", "secrets", "Secret", "shop", "db", secretUID, .created, "", "", 0⟩]
  ownership :=
    [{ object := ⟨"local", "apps", "v1", "deployments", "Deployment", "shop", "web", "d-1"⟩
       controller := .both
       confidence := .conflicting
       reason := ownershipReasonBothClaim
       apps :=
         [⟨"argo/argocd/web", .argoCD, "Application", "argocd", "web", ⟨"", "", "", "", ""⟩, false⟩,
           ⟨fluxApp, .fluxCD, "Kustomization", "flux", fluxApp, ⟨"", "", "", "", ""⟩, false⟩]
       evidence := [⟨.fluxInventoryEntry, .fluxCD, fluxApp, fluxApp, ""⟩]
       identityBasis := "group-kind-namespace-name"
       uidConfirmed := false
       writableGitSource := false
       observedAt := observedAt }]
  verificationState := .verified
  verification :=
    [{ checkID := "secret-present", status := .pass, severity := .info, reason := reasonOK
       message := secretUID
       source := ⟨"local", "", "v1", "secrets", "Secret", "shop", "db", secretUID⟩
       observedAt := 0 }]
  createdAt := 0
  mutationStartedAt := some 0
  completedAt := some 0
  verifiedAt := some 0

theorem objectAgree_shopReceipt (uid uid' app app' : String) (t t' : Time) :
    List.Forall₂ (ObjectAgree (some shopReader)) (shopReceipt uid app t).objects
      (shopReceipt uid' app' t').objects := by
  have hhd : objectRedaction "Secret" "" "secrets" "shop" (some shopReader) =
      some .secretFiltered := by decide
  refine .cons ⟨rfl, rfl, fun _ => rfl, fun _ => rfl⟩
    (.cons ⟨rfl, rfl, fun hno => ?_, fun _ => rfl⟩ .nil)
  simp [ReceiptObject.redaction, hhd] at hno

theorem receipt_read_discloses_nothing_hidden_shop :
    receiptViews (shopReceipt "s-1" "team-a" 7) (some shopReader) =
      receiptViews (shopReceipt "s-2" "team-b" 7) (some shopReader) := by
  obtain ⟨hobj, hch, hown⟩ :=
    receipt_read_discloses_nothing_hidden (some shopReader) (shopReceipt "s-1" "team-a" 7)
      (shopReceipt "s-2" "team-b" 7) rfl (objectAgree_shopReceipt ..)
  have hc := hch (.cons ⟨by decide, by decide, by decide⟩ .nil)
  have ho := hown (.cons ⟨⟨rfl, fun _ => ⟨by decide, by decide,
    by decide, by decide⟩⟩, fun _ => ⟨rfl, rfl, rfl, rfl⟩⟩ .nil)
  rw [ReceiptViews.mk.injEq]
  exact ⟨hobj, hc, ho⟩

/-- The time an ownership answer was obtained is shown with it. -/
theorem ownership_view_shows_observedAt :
    List.Forall₂ (ObjectAgree (some shopReader)) (shopReceipt "s-1" "team-a" 7).objects
        (shopReceipt "s-1" "team-a" 8).objects ∧
      List.Forall₂ (EntryAgree (some shopReader) (shopReceipt "s-1" "team-a" 7).objects)
        (shopReceipt "s-1" "team-a" 7).ownership (shopReceipt "s-1" "team-a" 8).ownership ∧
      (receiptViews (shopReceipt "s-1" "team-a" 7) (some shopReader)).ownership ≠
        (receiptViews (shopReceipt "s-1" "team-a" 8) (some shopReader)).ownership := by
  refine ⟨objectAgree_shopReceipt .., .cons ⟨rfl, fun _ => ⟨rfl, rfl, rfl, ?_⟩⟩ .nil, ?_⟩
  · exact fun _ => ⟨rfl, rfl, rfl⟩
  · decide

end KubeCenter.Changes
