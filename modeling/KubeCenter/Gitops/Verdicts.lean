import KubeCenter.Lib.LengthPrefixed
import KubeCenter.Lib.Control
import KubeCenter.Lib.Machine
import KubeCenter.Gitops.Ownership

/-! # Ownership verdicts never overclaim

1. The memo of a call is right for every candidate.
2. In the walk for an object, each side has an owner whose own record confirms it, or has accounted
   for every candidate of its tool.
3. What the RBAC filter and the failed lists leave out shows in the state of the side. -/
namespace KubeCenter.Gitops

open Lib Go List Bool

/-! ## 1. Ids -/

theorem ToolPrefix.no_colon (tool : ToolPrefix) : ':' ∉ tool.text.toList := by
  cases tool <;> decide

theorem ToolPrefix.text_injective {t t' : ToolPrefix} (h : t.text.toList = t'.text.toList) :
    t = t' := by
  cases t <;> cases t' <;> first | rfl | exact absurd h (by decide)

theorem compositeID_toList (tool : ToolPrefix) (m : ObjectMeta) : (compositeID tool m).toList =
      tool.text.toList ++ ':' :: (m.namespace_.toList ++ ':' :: m.name.toList) := by
  simp [compositeID]

theorem compositeID_inj {tool tool' m m'} (h : compositeID tool m = compositeID tool' m') :
    tool = tool' ∧ m.namespace_ = m'.namespace_ ∧ m.name = m'.name := by
  have hli := congrArg String.toList h
  rw [compositeID_toList, compositeID_toList] at hli
  obtain ⟨htl, hrs⟩ := append_sep_inj tool.no_colon tool'.no_colon hli
  obtain ⟨hns, hna⟩ := append_sep_inj m.no_colon m'.no_colon hrs
  exact ⟨ToolPrefix.text_injective htl, String.toList_inj.1 hns, String.toList_inj.1 hna⟩

def Listed (app : NormalizedApp) : Prop := ∃ o : AppObject, app = o.normalize

variable {app : NormalizedApp} {ref : ObjectRef} {reads : Reads}

theorem Listed.id_eq (h : Listed app) :
    ∃ m : ObjectMeta, app.id = compositeID (toolPrefixForApp app) m ∧
      app.namespace_ = m.namespace_ ∧ app.name = m.name := by
  obtain ⟨o, rfl⟩ := h
  cases o with
  | application o | kustomization o | helmRelease o => exact ⟨o.metadata, rfl, rfl, rfl⟩

theorem Listed.tool_eq (h : Listed app) : app.tool = .argoCD ∨ app.tool = .fluxCD := by
  obtain ⟨o, rfl⟩ := h
  cases o with
  | application o => exact .inl rfl
  | kustomization o | helmRelease o => exact .inr rfl

theorem Listed.id_ne_empty (h : Listed app) : app.id ≠ "" := by
  obtain ⟨m, hid, -⟩ := h.id_eq
  intro he
  have hli := congrArg String.toList (hid.symm.trans he)
  rw [compositeID_toList] at hli
  simp at hli

theorem toolPrefixForApp_argo : toolPrefixForApp app = .argo ↔ app.tool = .argoCD := by
  unfold toolPrefixForApp
  split
  · simp [*]
  · split <;> simp [*]

theorem candidate_eq_of_id {a b} (ha : Listed a) (hb : Listed b) (h : a.id = b.id) :
    reads.candidate a = reads.candidate b := by
  obtain ⟨m, hid, hns, hna⟩ := ha.id_eq
  obtain ⟨m', hid', hns', hna'⟩ := hb.id_eq
  obtain ⟨htl, hnam, hn⟩ := compositeID_inj (hid.symm.trans (h.trans hid'))
  have har : a.tool = .argoCD ↔ b.tool = .argoCD := by
    rw [← toolPrefixForApp_argo, ← toolPrefixForApp_argo, htl]
  simp only [Reads.candidate, har, hns, hna, hns', hna', hnam, hn]

/-! ## 2. The walk -/

/-- The record the caller's own read returned targets this cluster and lists exactly the object. -/
def Confirms (reads : Reads) (ref : ObjectRef) (app : NormalizedApp) : Prop :=
  ∃ d, reads.candidate app = .found d ∧ appliesInCluster d.app = true ∧
    ∃ mr ∈ d.resources, mr.group = ref.group ∧ mr.kind = ref.kind ∧
      mr.namespace_ = ref.namespace_ ∧ mr.name = ref.name

theorem exists_of_namesRef {resources} (h : namesRef resources ref = true) :
    ∃ mr ∈ resources, mr.group = ref.group ∧
      mr.kind = ref.kind ∧ mr.namespace_ = ref.namespace_ ∧ mr.name = ref.name := by
  obtain ⟨mr, hmem, hmr⟩ := any_eq_true.1 h
  simp only [matchesRef, and_eq_true, decide_eq_true_eq] at hmr
  exact ⟨mr, hmem, hmr.1.1.1.2, hmr.1.1.2, hmr.1.2, hmr.2⟩

theorem confirms_of_detail {d : Detail} (hd : detailOf (reads.candidate app) = some d)
    (hin : d.inCluster = true) (hnm : namesRef d.resources ref = true) :
    Confirms reads ref app := by
  cases hrd : reads.candidate app with
  | found detail =>
    rw [hrd] at hd
    cases hd
    exact ⟨detail, hrd, hin, exists_of_namesRef hnm⟩
  | cancelled => rw [hrd] at hd; cases hd
  | notFound | forbidden | failed =>
    rw [hrd] at hd
    cases hd
    cases hin

/-- What a state has admitted, another still admits. -/
structure ToolState.Admits (a b : ToolState) : Prop where
  unavailable : a.unavailable = true → b.unavailable = true
  forbidden : a.forbidden = true → b.forbidden = true
  hidden : a.hidden = true → b.hidden = true
  exhausted : a.exhausted = true → b.exhausted = true
  offClusterClaim : a.offClusterClaim = true → b.offClusterClaim = true

theorem ToolState.Admits.refl (a : ToolState) : a.Admits a := ⟨id, id, id, id, id⟩

theorem ToolState.Admits.trans {a b c : ToolState} (h : a.Admits b) (h' : b.Admits c) :
    a.Admits c :=
  ⟨h'.1 ∘ h.1, h'.2 ∘ h.2, h'.3 ∘ h.3, h'.4 ∘ h.4, h'.5 ∘ h.5⟩

/-- The candidate was read, and what kept it from being a clean "no" is admitted in the state. -/
def Accounted (reads : Reads) (ref : ObjectRef) (memo : DetailMemo) (st : ToolState)
    (app : NormalizedApp) : Prop :=
  st.exhausted = true ∨ ∃ d, memo.table app.id = some d ∧ detailOf (reads.candidate app) = some d ∧
    (d.forbidden = true ∨ d.failed = true → st.forbidden = true ∨ st.unavailable = true) ∧
    (namesRef d.resources ref = true → st.offClusterClaim = true)

theorem Accounted.mono {memo memo' st st'} (h : Accounted reads ref memo st app)
    (hm : memo.Grows memo') (hst : st.Admits st') : Accounted reads ref memo' st' app := by
  rcases h with h | ⟨d, hme, hd, hpr, hcl⟩
  · exact .inl (hst.exhausted h)
  · exact .inr ⟨d, hm _ _ hme, hd, fun h => (hpr h).imp hst.forbidden hst.unavailable,
      hst.offClusterClaim ∘ hcl⟩

structure Side.Sound (reads : Reads) (ref : ObjectRef) (memo : DetailMemo) (initial : ToolState)
    (onSide : NormalizedApp → Prop) (done : List NormalizedApp) (side : Side) : Prop where
  admits : initial.Admits side.state
  owner : ∀ app, side.owner = some app → app ∈ done ∧ onSide app ∧
    memo.table app.id ≠ none ∧ Confirms reads ref app
  seen : side.owner = none → ∀ app ∈ done, onSide app → Accounted reads ref memo side.state app

section Walk

variable {reads : Reads} {ref : ObjectRef} {memo memo' : DetailMemo} {initial : ToolState}
  {onSide : NormalizedApp → Prop} {done : List NormalizedApp} {side : Side} {app : NormalizedApp}
  {d : Detail}

/-- A candidate of the other tool, or after an owner: nothing changes but the
table. -/
theorem Side.Sound.pass (h : side.Sound reads ref memo initial onSide done)
    (hm : memo.Grows memo') (happ : onSide app → side.owner ≠ none) :
    side.Sound reads ref memo' initial onSide (done ++ [app]) := by
  refine ⟨h.admits, fun a ha => ?_, fun hnon a ha hon => ?_⟩
  · obtain ⟨hmem, hon, htb, hcn⟩ := h.owner a ha
    refine ⟨mem_append_left _ hmem, hon, fun hno => ?_, hcn⟩
    obtain ⟨d, hd⟩ := Option.ne_none_iff_exists'.1 htb
    cases (hm _ _ hd).symm.trans hno
  · rcases mem_append.1 ha with ha | ha
    · exact (h.seen hnon a ha hon).mono hm (.refl _)
    · rw [mem_singleton] at ha
      exact absurd hnon (happ (ha ▸ hon))

theorem Side.Sound.exhaust (h : side.Sound reads ref memo initial onSide done)
    (hnon : side.owner = none) : Side.Sound reads ref memo' initial onSide (done ++ [app])
      { side with state := { side.state with exhausted := true } } := by
  have hgro : side.state.Admits { side.state with exhausted := true } :=
    ⟨id, id, id, fun _ => rfl, id⟩
  refine ⟨h.admits.trans hgro, fun a ha => ?_, fun _ a _ _ => .inl rfl⟩
  cases hnon.symm.trans ha

theorem ToolState.admits_note (st : ToolState) (d : Detail) : st.Admits (st.note d) := by
  unfold ToolState.note
  split
  · exact ⟨id, fun _ => rfl, id, id, id⟩
  · split
    · exact ⟨fun _ => rfl, id, id, id, id⟩
    · exact .refl st

theorem ToolState.note_problem (st : ToolState) (d : Detail)
    (h : d.forbidden = true ∨ d.failed = true) :
    (st.note d).forbidden = true ∨ (st.note d).unavailable = true := by
  unfold ToolState.note
  split
  · exact .inl rfl
  next hf =>
    rw [if_pos (h.resolve_left hf)]
    exact .inr rfl

theorem Side.Sound.start {state} : Side.Sound reads ref memo state onSide [] { state } :=
  ⟨.refl _, fun _ ha => absurd ha.symm (Option.some_ne_none _), fun _ _ ha => absurd ha not_mem_nil⟩

theorem Side.Sound.examine (h : side.Sound reads ref memo initial onSide done)
    (hnon : side.owner = none) (hm : memo.Grows memo') (hon : onSide app)
    (hd : detailOf (reads.candidate app) = some d) (hme : memo'.table app.id = some d) :
    (side.examine ref app d).Sound reads ref memo' initial onSide (done ++ [app]) := by
  have hnt := side.state.admits_note d
  have unconfirmed : ∀ st : ToolState, (side.state.note d).Admits st →
      (namesRef d.resources ref = true → st.offClusterClaim = true) →
      Side.Sound reads ref memo' initial onSide (done ++ [app]) { side with state := st } := by
    intro st hst hcl
    refine ⟨h.admits.trans (hnt.trans hst), fun a ha => ?_, fun _ a ha hona => ?_⟩
    · cases hnon.symm.trans ha
    · rcases mem_append.1 ha with ha | ha
      · exact (h.seen hnon a ha hona).mono hm (hnt.trans hst)
      · rw [mem_singleton] at ha
        subst ha
        exact .inr ⟨d, hme, hd, fun hp => (side.state.note_problem d hp).imp hst.forbidden
          hst.unavailable, hcl⟩
  unfold Side.examine
  split
  next hnm => exact unconfirmed _ (.refl _) fun hn => by simp [hn] at hnm
  · split
    · exact unconfirmed _ ⟨id, id, id, id, fun _ => rfl⟩ fun _ => rfl
    next hnm hin =>
      refine ⟨h.admits.trans hnt, fun a ha => ?_, nofun⟩
      cases ha
      refine ⟨by simp, hon, by simp [hme], confirms_of_detail hd ?_ ?_⟩
      · simpa using hin
      · simpa using hnm

structure Walk.Sound (reads : Reads) (ref : ObjectRef) (argo flux : ToolState)
    (done : List NormalizedApp) (w : Walk) : Prop where
  memo : w.memo.Agrees {app | Listed app} NormalizedApp.id fun app => detailOf (reads.candidate app)
  argo : w.argo.Sound reads ref w.memo argo (·.tool = .argoCD) done
  flux : w.flux.Sound reads ref w.memo flux (·.tool ≠ .argoCD) done

abbrev MemoRight (reads : Reads) (memo : DetailMemo) : Prop :=
  memo.Agrees {app | Listed app} NormalizedApp.id fun app => detailOf (reads.candidate app)

variable {w : Walk}

theorem detail_spec {r} (hme : MemoRight reads w.memo) (happ : Listed app)
    (h : detail reads w.memo app = some (r, memo')) :
    w.memo.Grows memo' ∧ MemoRight reads memo' ∧
      ∀ d, r = some d → detailOf (reads.candidate app) = some d ∧ memo'.table app.id = some d := by
  have hkey : ∀ a ∈ {app | Listed app}, ∀ b ∈ {app | Listed app}, a.id = b.id →
      detailOf (reads.candidate a) = detailOf (reads.candidate b) := fun a ha b hb hid => by
    rw [candidate_eq_of_id ha hb hid]
  exact ⟨Memo.read_grows h, hme.read hkey happ h⟩

/-- A candidate's own side is changed, the other side only sees the table grow. -/
theorem Walk.Sound.setSide {argo flux} {new : Side} (hw : w.Sound reads ref argo flux done)
    (hgr : w.memo.Grows memo') (hag : MemoRight reads memo')
    (har : app.tool = .argoCD → new.Sound reads ref memo' argo (·.tool = .argoCD) (done ++ [app]))
    (hfl : app.tool ≠ .argoCD → new.Sound reads ref memo' flux (·.tool ≠ .argoCD) (done ++ [app]))
    : ({ w with memo := memo' }.setSide app.tool new).Sound reads ref argo flux
      (done ++ [app]) := by
  unfold Walk.setSide
  by_cases htl : app.tool = .argoCD
  · rw [if_pos htl]
    exact ⟨hag, har htl, hw.flux.pass hgr fun hne => absurd htl hne⟩
  · rw [if_neg htl]
    exact ⟨hag, hw.argo.pass hgr fun he => absurd he htl, hfl htl⟩

theorem Walk.Sound.visit {argo flux} {w' : Walk} (hw : w.Sound reads ref argo flux done)
    (happ : Listed app) (h : w.visit reads ref app = some w') :
    w'.Sound reads ref argo flux (done ++ [app]) := by
  have argoSide : app.tool = .argoCD → w.side app.tool = w.argo := fun h => if_pos h
  have fluxSide : app.tool ≠ .argoCD → w.side app.tool = w.flux := fun h => if_neg h
  unfold Walk.visit at h
  dsimp only at h
  split at h
  next how =>
    rw [Option.isSome_iff_ne_none] at how
    cases h
    exact ⟨hw.memo, hw.argo.pass (.refl _) fun ht => argoSide ht ▸ how,
      hw.flux.pass (.refl _) fun ht => fluxSide ht ▸ how⟩
  next how =>
    rw [not_eq_true, Option.isSome_eq_false_iff, Option.isNone_iff_eq_none] at how
    split at h
    · cases h
    · rename_i memo' hdt
      obtain ⟨hgr, hag, -⟩ := detail_spec hw.memo happ hdt
      cases h
      refine hw.setSide hgr hag (fun ht => ?_) fun ht => ?_
      · rw [argoSide ht] at how ⊢
        exact hw.argo.exhaust how
      · rw [fluxSide ht] at how ⊢
        exact hw.flux.exhaust how
    · rename_i d memo' hdt
      obtain ⟨hgr, hag, hrd⟩ := detail_spec hw.memo happ hdt
      obtain ⟨hd, hme⟩ := hrd d rfl
      cases h
      refine hw.setSide hgr hag (fun ht => ?_) fun ht => ?_
      · rw [argoSide ht] at how ⊢
        exact hw.argo.examine how hgr ht hd hme
      · rw [fluxSide ht] at how ⊢
        exact hw.flux.examine how hgr ht hd hme

theorem search_sound {view : ClusterView} {hints} (hme : MemoRight reads memo)
    (hls : ∀ app ∈ view.candidates, Listed app)
    (h : search reads view memo ref hints = some w) :
    w.Sound reads ref view.argo { view.flux with helmReleaseHinted := hints.helmRelease }
      (orderCandidates view.candidates ref hints) := by
  refine foldlM_inv (P := Walk.Sound reads ref _ _) (fun app happ done w w' hw hvs => ?_)
    ⟨hme, .start, .start⟩ h
  have hmem : app ∈ view.candidates := (perm_insertionSort _ _).mem_iff.1 happ
  exact hw.visit (hls app hmem) hvs

end Walk

/-! ## 3. What the view leaves out -/

/-- Nothing was kept from a controller's search before it began. -/
structure ToolState.Open (st : ToolState) : Prop where
  unavailable : st.unavailable = false
  forbidden : st.forbidden = false
  hidden : st.hidden = false

theorem ToolState.Open.of_admits {a b : ToolState} (hb : b.Open) (h : a.Admits b) : a.Open := by
  have back : ∀ {p q : Bool}, (p = true → q = true) → q = false → p = false := by decide
  exact ⟨back h.unavailable hb.unavailable, back h.forbidden hb.forbidden, back h.hidden hb.hidden⟩

/-- And nothing came in its way. -/
structure ToolState.Clear (st : ToolState) : Prop extends st.Open where
  exhausted : st.exhausted = false
  offClusterClaim : st.offClusterClaim = false

theorem readable_of_open {st failure} (h : (markReadFailure st failure).Open) : failure = none := by
  match failure, h with
  | none, _ => rfl
  | some .forbidden, h => cases h.forbidden
  | some .other, h => cases h.unavailable

theorem visible_of_open {st vis tool} {n : Nat} (h : (applyVisibility st vis tool n).Open) :
    st.Open ∧ vis.failed tool = 0 ∧ vis.denied tool = 0 := by
  by_cases hdn : 0 < vis.denied tool
  · by_cases hn : n = 0
    · have := h.forbidden
      simp [applyVisibility, hdn, hn] at this
    · have := h.hidden
      simp [applyVisibility, hdn, hn] at this
  · by_cases hfa : 0 < vis.failed tool
    · have := h.unavailable
      simp [applyVisibility, hdn, hfa] at this
    · simp only [applyVisibility, hdn, hfa, if_false] at h
      exact ⟨h, by omega, by omega⟩

/-- Every application is let through or counted against its tool. -/
structure AppVisibility.Counts (done : List NormalizedApp) (v : AppVisibility) : Prop where
  sub : ∀ app ∈ v.apps, app ∈ done
  counted : ∀ app ∈ done, app ∈ v.apps ∨ v.failed (toolPrefixForApp app) ≠ 0 ∨
    v.denied (toolPrefixForApp app) ≠ 0

theorem update_succ_ne_zero {f} {tool t : ToolPrefix} (h : f t ≠ 0 ∨ t = tool) :
    Function.update f tool (f tool + 1) t ≠ 0 := by
  by_cases ht : t = tool
  · simp [ht]
  · simpa [Function.update_of_ne ht] using h.resolve_right ht

variable {user : Caller}

theorem AppVisibility.Counts.add {done} {v : AppVisibility} (h : v.Counts done)
    (app : NormalizedApp) : (v.add user app).Counts (done ++ [app]) := by
  unfold AppVisibility.add
  split
  · refine ⟨fun a ha => ?_, fun a ha => ?_⟩
    · rcases mem_append.1 ha with ha | ha
      · exact mem_append_left _ (h.sub a ha)
      · exact mem_append_right _ ha
    · rcases mem_append.1 ha with ha | ha
      · exact (h.counted a ha).imp_left (mem_append_left _)
      · exact .inl (mem_append_right _ ha)
  · refine ⟨fun a ha => mem_append_left _ (h.sub a ha), fun a ha => ?_⟩
    rcases mem_concat ha with ha | rfl
    · rcases h.counted a ha with hc | hc | hc
      · exact .inl hc
      · exact .inr (.inl (update_succ_ne_zero (.inl hc)))
      · exact .inr (.inr hc)
    · exact .inr (.inl (update_succ_ne_zero (.inr rfl)))
  · refine ⟨fun a ha => mem_append_left _ (h.sub a ha), fun a ha => ?_⟩
    rcases mem_concat ha with ha | rfl
    · rcases h.counted a ha with hc | hc | hc
      · exact .inl hc
      · exact .inr (.inl hc)
      · exact .inr (.inr (update_succ_ne_zero (.inl hc)))
    · exact .inr (.inr (update_succ_ne_zero (.inr rfl)))

theorem counts_visibleApps (user : Caller) (apps : List NormalizedApp) :
    (visibleApps user apps).Counts apps := by
  have start : AppVisibility.Counts [] ⟨[], fun _ => 0, fun _ => 0⟩ :=
    ⟨fun _ h => absurd h not_mem_nil, fun _ h => absurd h not_mem_nil⟩
  exact foldl_inv (fun _ app _ h => h.add app) start

/-- Every list could be read, and every application that can hold an inventory is a candidate. -/
structure Snapshot.AllCandidates (snap : Snapshot) (view : ClusterView) : Prop where
  applications : snap.failed argoApplicationGVR.2 = none
  kustomizations : snap.failed fluxKustomizationGVR.2 = none
  candidates : ∀ o ∈ snap.objects, isCandidate o.normalize = true → o.normalize ∈ view.candidates

theorem allCandidates_of_open {snap : Snapshot} (har : (snapshotView user snap).argo.Open)
    (hfl : (snapshotView user snap).flux.Open) : snap.AllCandidates (snapshotView user snap) := by
  obtain ⟨har, hargoFailed, hargoDenied⟩ := visible_of_open har
  obtain ⟨hfl, hfluxFailed, hfluxDenied⟩ := visible_of_open hfl
  refine ⟨readable_of_open har, readable_of_open hfl, fun o ho hca => ?_⟩
  refine mem_filter.2 ⟨?_, hca⟩
  have hcnt := (counts_visibleApps user (snap.objects.map AppObject.normalize)).counted
    o.normalize (mem_map_of_mem ho)
  have hzr {f : ToolPrefix → Nat} (har : f .argo = 0) (hfl : f .fluxKs = 0) :
      f (toolPrefixForApp o.normalize) = 0 := by
    cases htl : toolPrefixForApp o.normalize with
    | argo => exact har
    | fluxKs => exact hfl
    | fluxHr => simp [isCandidate, htl] at hca
  rcases hcnt with h | h | h
  · exact h
  · exact absurd (hzr hargoFailed hfluxFailed) h
  · exact absurd (hzr hargoDenied hfluxDenied) h

theorem listed_of_candidate {load} {app : NormalizedApp}
    (h : app ∈ (ownershipView user load).candidates) : Listed app := by
  have ofSnapshot : ∀ snap, app ∈ (snapshotView user snap).candidates → Listed app := by
    intro snap h
    have hvis := (mem_filter.1 h).1
    obtain ⟨o, -, ho⟩ := mem_map.1 ((counts_visibleApps user _).sub app hvis)
    exact ⟨o, ho.symm⟩
  match load, h with
  | .ok snap, h => exact ofSnapshot snap h
  | .error (.allListsFailed snap), h => exact ofSnapshot snap h
  | .error (.other _), h => cases h

theorem loaded_of_open {load} (har : (ownershipView user load).argo.Open)
    (hfl : (ownershipView user load).flux.Open) :
    ∃ snap, (load = .ok snap ∨ load = .error (.allListsFailed snap)) ∧
      snap.AllCandidates (ownershipView user load) := by
  match load, har, hfl with
  | .ok snap, har, hfl => exact ⟨snap, .inl rfl, allCandidates_of_open har hfl⟩
  | .error (.allListsFailed snap), har, hfl => exact ⟨snap, .inr rfl, allCandidates_of_open har hfl⟩
  | .error (.other err), har, _ => cases readable_of_open har

/-! ## 4. The verdict -/

/-- A verdict that nothing but hints, or nothing at all, was found. -/
def Absent (v : OwnershipConfidence × String) : Prop :=
  v.2 = reasonNoEvidence ∨ v.2 = reasonHintsOnly

instance : DecidablePred Absent := fun v =>
  inferInstanceAs (Decidable (v.2 = reasonNoEvidence ∨ v.2 = reasonHintsOnly))

def Unconfirmed (v : OwnershipConfidence × String) : Prop := v.1 ≠ .confirmed ∧ v.1 ≠ .conflicting

theorem Unconfirmed.ite {c : Prop} [Decidable c] {v v'} (h : Unconfirmed v) (h' : Unconfirmed v') :
    Unconfirmed (if c then v else v') := by
  split
  · exact h
  · exact h'

theorem unconfirmed_unconfirmedVerdict (hasHints : Bool) (argo flux : ToolState) :
    Unconfirmed (unconfirmedVerdict hasHints argo flux) := by
  iterate 11 refine Unconfirmed.ite ⟨nofun, nofun⟩ ?_
  exact ⟨nofun, nofun⟩

theorem Absent.skip {c : Prop} [Decidable c] {v v'} (h : Absent (if c then v else v'))
    (hv : ¬Absent v) : ¬c ∧ Absent v' := by
  by_cases hc : c
  · rw [if_pos hc] at h
    exact absurd h hv
  · rw [if_neg hc] at h
    exact ⟨hc, h⟩

theorem open_of_absence {hasHints : Bool} {argo flux}
    (h : Absent (unconfirmedVerdict hasHints argo flux)) :
    argo.Clear ∧ flux.Clear := by
  obtain ⟨argoForbidden, h⟩ := h.skip (by decide)
  obtain ⟨fluxForbidden, h⟩ := h.skip (by decide)
  obtain ⟨argoUnavailable, h⟩ := h.skip (by decide)
  obtain ⟨fluxUnavailable, h⟩ := h.skip (by decide)
  obtain ⟨argoClaim, h⟩ := h.skip (by decide)
  obtain ⟨fluxClaim, h⟩ := h.skip (by decide)
  obtain ⟨-, h⟩ := h.skip (by decide)
  obtain ⟨exhausted, h⟩ := h.skip (by decide)
  obtain ⟨hidden, -⟩ := h.skip (by decide)
  simp only [not_eq_true, or_eq_false_iff] at *
  exact ⟨⟨⟨argoUnavailable, argoForbidden, hidden.1⟩, exhausted.1, argoClaim⟩,
    ⟨fluxUnavailable, fluxForbidden, hidden.2⟩, exhausted.2, fluxClaim⟩

def OwnershipController.Names : OwnershipController → Tool → Prop
  | .argoCD, tool => tool = .argoCD
  | .fluxCD, tool => tool = .fluxCD
  | .both, tool => tool = .argoCD ∨ tool = .fluxCD
  | .none, _ | .unrecognized _, _ => False

section Verdict

variable {ev : List OwnershipEvidence} {owners : List NormalizedApp} {argo flux : ToolState}

theorem confirmedApps_owners (h : ∀ app ∈ owners, Listed app) :
    confirmedApps (ev ++ owners.map ownerEvidence) (owners.map ownedBy) = owners.map ownedBy := by
  refine filter_eq_self.2 fun a ha => ?_
  obtain ⟨app, happ, rfl⟩ := mem_map.1 ha
  have hcl : (app.id, app.tool) ∈ confirmedClaims (ev ++ owners.map ownerEvidence) := by
    refine mem_map.2 ⟨ownerEvidence app, mem_filter.2 ⟨?_, ?_⟩, rfl⟩
    · exact mem_append_right _ (mem_map_of_mem happ)
    · have hk : (ownerEvidence app).kind.authoritative = true := by
        unfold ownerEvidence
        split <;> rfl
      simpa [hk] using show (ownerEvidence app).appID ≠ "" from (h app happ).id_ne_empty
  simp only [and_eq_true, or_eq_true, decide_eq_true_eq]
  exact ⟨hcl, (h app happ).tool_eq⟩

/-- A verdict names the tools of owners; any other is given only when there is no owner. -/
theorem verdict_cases (h : ∀ app ∈ owners, Listed app) {v} (hv : v =
    verdict (ev ++ owners.map ownerEvidence) (owners.map ownedBy) argo flux) :
    ((∃ tool, v.1.Names tool) ∧ (∀ tool, v.1.Names tool → ∃ app ∈ owners, app.tool = tool) ∧
      (v.2.1 = .conflicting → v.1 = .both) ∧ ¬Absent v.2) ∨
    (owners = [] ∧ ∃ hasHints, v = (.none, unconfirmedVerdict hasHints argo flux)) := by
  have hany : ∀ tool, (owners.map ownedBy).any (·.tool = tool) = true ↔
      ∃ app ∈ owners, app.tool = tool := by
    intro tool
    simp only [any_map, any_eq_true, Function.comp, decide_eq_true_eq]
    rfl
  unfold verdict at hv
  rw [confirmedApps_owners h] at hv
  dsimp only at hv
  split at hv
  next hbt =>
    rw [and_eq_true, hany, hany] at hbt
    subst hv
    refine .inl ⟨⟨.argoCD, .inl rfl⟩, fun tool ht => ?_, fun _ => rfl, by decide⟩
    rcases ht with rfl | rfl
    · exact hbt.1
    · exact hbt.2
  · split at hv
    next har =>
      subst hv
      refine .inl ⟨⟨.argoCD, rfl⟩, fun tool ht => ?_, nofun, by decide⟩
      exact ht ▸ (hany .argoCD).1 har
    · split at hv
      next hfl =>
        subst hv
        refine .inl ⟨⟨.fluxCD, rfl⟩, fun tool ht => ?_, nofun, by decide⟩
        exact ht ▸ (hany .fluxCD).1 hfl
      next har hfl =>
        rw [hany] at har hfl
        refine .inr ⟨eq_nil_iff_forall_not_mem.2 fun app happ => ?_, _, hv⟩
        rcases (h app happ).tool_eq with ht | ht
        · exact har ⟨app, happ, ht⟩
        · exact hfl ⟨app, happ, ht⟩

end Verdict

/-! ## 5. The call -/

/-- Its record was read in this call: the application is gone, or does not list the object. -/
def RuledOut (reads : Reads) (memo : DetailMemo) (ref : ObjectRef) (app : NormalizedApp) : Prop :=
  memo.table app.id ≠ none ∧ (reads.candidate app = .notFound ∨
    ∃ d, reads.candidate app = .found d ∧ namesRef d.resources ref = false)

theorem Accounted.ruledOut {reads : Reads} {ref : ObjectRef} {memo st} {app : NormalizedApp}
    (h : Accounted reads ref memo st app) (hcle : st.Clear) : RuledOut reads memo ref app := by
  rcases h with h | ⟨d, hme, hd, hpr, hnm⟩
  · cases hcle.exhausted.symm.trans h
  have clean : ¬(d.forbidden = true ∨ d.failed = true) := by
    intro hp
    rcases hpr hp with hf | hu
    · cases hcle.forbidden.symm.trans hf
    · cases hcle.unavailable.symm.trans hu
  refine ⟨by simp [hme], ?_⟩
  cases hrd : reads.candidate app with
  | found detail =>
    rw [hrd] at hd
    cases hd
    refine .inr ⟨detail, rfl, eq_false_iff.2 fun hn => ?_⟩
    cases hcle.offClusterClaim.symm.trans (hnm hn)
  | notFound => exact .inl rfl
  | cancelled => rw [hrd] at hd; cases hd
  | forbidden =>
    rw [hrd] at hd
    cases hd
    exact absurd (.inl rfl) clean
  | failed =>
    rw [hrd] at hd
    cases hd
    exact absurd (.inr rfl) clean

/-- What stands behind the result for one object, by the time it is given. -/
structure Supported (reads : Reads) (view : ClusterView) (memo : DetailMemo) (ref : ObjectRef)
    (res : OwnershipResult) : Prop where
  claims : res.confidence = .confirmed ∨ res.confidence = .conflicting →
    (∃ tool, res.controller.Names tool) ∧ (res.confidence = .conflicting → res.controller = .both) ∧
      ∀ tool, res.controller.Names tool → ∃ app ∈ view.candidates, app.tool = tool ∧
        memo.table app.id ≠ none ∧ Confirms reads ref app
  absence : res.reason = reasonNoEvidence ∨ res.reason = reasonHintsOnly →
    view.argo.Open ∧ view.flux.Open ∧ ∀ app ∈ view.candidates, RuledOut reads memo ref app

section Call

variable {reads : Reads} {view : ClusterView} {clusterID : String} {observedAt : Time}

variable {run run' : OwnershipRun} {ref : ObjectRef}

theorem Walk.Sound.mem_owners {argo flux done} {w : Walk} (hw : w.Sound reads ref argo flux done)
    {app : NormalizedApp} (h : app ∈ w.owners) :
    app ∈ done ∧ w.memo.table app.id ≠ none ∧ Confirms reads ref app := by
  have how : w.argo.owner = some app ∨ w.flux.owner = some app := by
    simpa [Walk.owners, eq_comm] using h
  rcases how with ho | ho
  · obtain ⟨hmem, -, htb, hcn⟩ := hw.argo.owner app ho
    exact ⟨hmem, htb, hcn⟩
  · obtain ⟨hmem, -, htb, hcn⟩ := hw.flux.owner app ho
    exact ⟨hmem, htb, hcn⟩

theorem Walk.Sound.ruledOut {argo flux done} {w : Walk} (hw : w.Sound reads ref argo flux done)
    (hnon : w.owners = []) (har : w.argo.state.Clear) (hfl : w.flux.state.Clear)
    {app : NormalizedApp} (happ : app ∈ done) : RuledOut reads w.memo ref app := by
  have hown : w.argo.owner = none ∧ w.flux.owner = none := by
    simpa [Walk.owners] using hnon
  by_cases htl : app.tool = .argoCD
  · exact (hw.argo.seen hown.1 app happ htl).ruledOut har
  · exact (hw.flux.seen hown.2 app happ htl).ruledOut hfl

theorem resolve_spec (hls : ∀ app ∈ view.candidates, Listed app) (hme : MemoRight reads run.memo)
    (h : resolve reads view clusterID observedAt run ref = some run') :
    MemoRight reads run'.memo ∧ ∃ res, run'.out = run.out ++ [res] ∧
      res.object = { ref with clusterID } ∧ Supported reads view run'.memo ref res := by
  obtain ⟨hints, -, h⟩ := Option.bind_eq_some_iff.1 h
  obtain ⟨w, hsr, h⟩ := Option.bind_eq_some_iff.1 h
  cases h
  have hw := search_sound hme hls hsr
  have hmem : ∀ app, app ∈ orderCandidates view.candidates ref hints ↔ app ∈ view.candidates :=
    fun app => (perm_insertionSort _ _).mem_iff
  have hown : ∀ app ∈ w.owners, Listed app := fun app happ =>
    hls app ((hmem app).1 (hw.mem_owners happ).1)
  refine ⟨hw.memo, _, rfl, rfl, ?_⟩
  have hcs : _ ∨ _ := verdict_cases hown
    (rfl : _ = verdict (hints.evidence ++ w.owners.map ownerEvidence) (w.owners.map ownedBy)
      w.argo.state w.flux.state)
  rcases hcs with ⟨hnm, hap, hbt, hab⟩ | ⟨hnon, hasHints, hv⟩
  · refine ⟨fun _ => ⟨hnm, hbt, fun tool ht => ?_⟩, fun hr => absurd hr hab⟩
    · obtain ⟨app, happ, htl⟩ := hap tool ht
      obtain ⟨hdo, htb, hcn⟩ := hw.mem_owners happ
      exact ⟨app, (hmem app).1 hdo, htl, htb, hcn⟩
  · refine ⟨fun hc => ?_, fun hr => ?_⟩
    · have hun := unconfirmed_unconfirmedVerdict hasHints w.argo.state w.flux.state
      simp only [decideOwnership, hv] at hc
      rcases hc with hc | hc
      · exact absurd hc hun.1
      · exact absurd hc hun.2
    · simp only [decideOwnership, hv] at hr
      obtain ⟨har, hfl⟩ := open_of_absence hr
      have hfluxView := hfl.toOpen.of_admits hw.flux.admits
      refine ⟨har.toOpen.of_admits hw.argo.admits,
        ⟨hfluxView.unavailable, hfluxView.forbidden, hfluxView.hidden⟩, fun app happ => ?_⟩
      exact hw.ruledOut hnon har hfl ((hmem app).2 happ)

theorem resolve_out (h : resolve reads view clusterID observedAt run ref = some run') :
    ∃ res, run'.out = run.out ++ [res] := by
  obtain ⟨hints, -, h⟩ := Option.bind_eq_some_iff.1 h
  obtain ⟨w, -, h⟩ := Option.bind_eq_some_iff.1 h
  cases h
  exact ⟨_, rfl⟩

theorem resolveAll_spec (hls : ∀ app ∈ view.candidates, Listed app) {refs}
    (h : resolveAll reads view clusterID observedAt refs = some run) :
    MemoRight reads run.memo ∧ run.out.length = refs.length := by
  let P (done : List ObjectRef) (run : OwnershipRun) : Prop :=
    MemoRight reads run.memo ∧ run.out.length = done.length
  have start : P [] ⟨[], .empty⟩ := ⟨Memo.agrees_empty, rfl⟩
  refine foldlM_inv (P := P) (fun ref _ done s t hs hste => ?_) start h
  obtain ⟨hme, res, hout, -⟩ := resolve_spec hls hs.1 hste
  exact ⟨hme, by rw [hout, length_append, hs.2, length_append]; rfl⟩

theorem resolve_keeps {refs : List ObjectRef}
    (h : refs.foldlM (resolve reads view clusterID observedAt) run = some run') :
    run.out <+: run'.out := by
  induction refs generalizing run with
  | nil =>
    cases h
    exact prefix_refl _
  | cons ref refs ih =>
    obtain ⟨next, hste, h⟩ := Option.bind_eq_some_iff.1 h
    obtain ⟨res, hout⟩ := resolve_out hste
    exact (prefix_append _ _).trans (hout ▸ ih h)

end Call

/-- Every answer of a call has its support. -/
theorem ownership_never_overclaims (reads : Reads) (user : Caller)
    (load : Except LoadError Snapshot) (clusterID : String) (observedAt : Time) (ended : Bool)
    (pre post : List ObjectRef) (ref : ObjectRef) (out : List OwnershipResult)
    (h : resolveOwnership reads user load clusterID observedAt ended (pre ++ ref :: post) =
      some out) :
    ∃ res run, out[pre.length]? = some res ∧
      resolveAll reads (ownershipView user load) clusterID observedAt (pre ++ [ref]) = some run ∧
      res.object = { ref with clusterID } ∧
      (res.confidence = .confirmed ∨ res.confidence = .conflicting →
        (∃ tool, res.controller.Names tool) ∧
        (res.confidence = .conflicting → res.controller = .both) ∧
        ∀ tool, res.controller.Names tool → ∃ app ∈ (ownershipView user load).candidates,
          app.tool = tool ∧ run.memo.table app.id ≠ none ∧ Confirms reads ref app) ∧
      (res.reason = reasonNoEvidence ∨ res.reason = reasonHintsOnly →
        ∃ snap, (load = .ok snap ∨ load = .error (.allListsFailed snap)) ∧
          snap.failed argoApplicationGVR.2 = none ∧ snap.failed fluxKustomizationGVR.2 = none ∧
          ∀ o ∈ snap.objects, isCandidate o.normalize = true →
            o.normalize ∈ (ownershipView user load).candidates ∧
            RuledOut reads run.memo ref o.normalize) := by
  have hls : ∀ app ∈ (ownershipView user load).candidates, Listed app :=
    fun app happ => listed_of_candidate happ
  -- the call is the run before the object, its own step, and the rest
  unfold resolveOwnership at h
  rw [if_neg (by simp)] at h
  obtain ⟨final, hall, hen⟩ := Option.bind_eq_some_iff.1 h
  obtain ⟨before, hbe, hrs⟩ := foldlM_append_some hall
  obtain ⟨run, hste, hps⟩ := Option.bind_eq_some_iff.1 hrs
  obtain ⟨hme, hln⟩ := resolveAll_spec hls hbe
  obtain ⟨-, res, hout, hob, hsp⟩ := resolve_spec hls hme hste
  have hfn : final.out = out := by
    split at hen
    · cases hen
    · exact Option.some.inj hen
  refine ⟨res, run, ?_, ?_, hob, hsp.claims, fun hr => ?_⟩
  · obtain ⟨later, hlt⟩ := resolve_keeps hps
    rw [← hfn, ← hlt, hout, ← hln]
    simp
  · unfold resolveAll
    rw [foldlM_append, hbe]
    simpa using hste
  · obtain ⟨har, hfl, hrl⟩ := hsp.absence hr
    obtain ⟨snap, hld, hall⟩ := loaded_of_open har hfl
    refine ⟨snap, hld, hall.applications, hall.kustomizations, fun o ho hca => ?_⟩
    have hmem := hall.candidates o ho hca
    exact ⟨hmem, hrl _ hmem⟩

/-! A shop whose Deployment an Argo CD application applies, and whose ConfigMap
nobody does. -/

def shopApplication : ArgoObject where
  metadata := ⟨"argocd", "shop", by decide⟩
  repoURL := "https://git.example/shop"
  path := "deploy"
  targetRevision := "main"
  destServer := "https://kubernetes.default.svc"
  destName := ""
  destNamespace := "shop"
  health := "Healthy"
  resources := [⟨"apps", "Deployment", "shop", "web", "Synced", "Healthy"⟩]

def shopReads : Reads where
  argo _ _ := .found shopApplication
  kustomization _ _ := .notFound
  live _ := .forbidden

def shopLoad : Except LoadError Snapshot :=
  .ok ⟨true, false, [.application shopApplication], fun _ => none⟩

def shopUser : Caller := ⟨false, fun _ _ => .allowed⟩

def shopDeployment : ObjectRef := ⟨"", "apps", "v1", "deployments", "Deployment", "shop", "web", ""⟩

def shopConfigMap : ObjectRef := ⟨"", "", "v1", "configmaps", "ConfigMap", "shop", "web", ""⟩

theorem ownership_never_overclaims_shop :
    (∃ app ∈ (ownershipView shopUser shopLoad).candidates, app.tool = .argoCD ∧
      Confirms shopReads shopDeployment app) ∧
    ∃ memo, RuledOut shopReads memo shopConfigMap (normalizeArgoApp shopApplication) := by
  constructor
  · obtain ⟨res, run, hres, -, -, hcla, -⟩ := ownership_never_overclaims shopReads shopUser
      shopLoad "local" 0 false [] [shopConfigMap] shopDeployment _ rfl
    cases hres
    obtain ⟨-, -, happ⟩ := hcla (.inl rfl)
    obtain ⟨app, hmem, htl, -, hcn⟩ := happ .argoCD rfl
    exact ⟨app, hmem, htl, hcn⟩
  · obtain ⟨res, run, hres, -, -, -, habs⟩ := ownership_never_overclaims shopReads shopUser
      shopLoad "local" 0 false [shopDeployment] [] shopConfigMap _ rfl
    cases hres
    obtain ⟨snap, hld, -, -, hrl⟩ := habs (.inl rfl)
    have hsn : AppObject.application shopApplication ∈ snap.objects := by
      rcases hld with hld | hld
      · cases hld
        exact mem_singleton.2 rfl
      · cases hld
    exact ⟨run.memo, (hrl _ hsn rfl).2⟩

end KubeCenter.Gitops
