import KubeCenter.Gitops.Verdicts

/-! # Hints neither forge nor hide an owner

Hints change the order of a walk, and a walk ends on a side at the first owner. While no candidate
is left out, whether a side has an owner depends only on what the candidates' records say. -/
namespace KubeCenter.Gitops
open Lib Go List Bool

section

variable {reads : Reads} {ref : ObjectRef} {view : ClusterView} {memo : DetailMemo} {w w' : Walk}
  {done : List NormalizedApp} {app : NormalizedApp} {hints : ObjectHints} {ids : List String}

/-- The application's own record says that it manages the object here. -/
def Claims (reads : Reads) (ref : ObjectRef) (app : NormalizedApp) : Prop :=
  ∃ d, detailOf (reads.candidate app) = some d ∧ d.inCluster = true ∧
    namesRef d.resources ref = true

structure Walk.Exact (reads : Reads) (ref : ObjectRef) (ids : List String)
    (done : List NormalizedApp) (w : Walk) : Prop where
  memo : MemoRight reads w.memo
  within : w.memo.Within ids
  argo : w.argo.owner.isSome ↔ ∃ app ∈ done, app.tool = .argoCD ∧ Claims reads ref app
  flux : w.flux.owner.isSome ↔ ∃ app ∈ done, app.tool ≠ .argoCD ∧ Claims reads ref app

theorem examine_owner (side : Side) (ref : ObjectRef) (app : NormalizedApp) (d : Detail)
    (h : side.owner = none) : (side.examine ref app d).owner.isSome ↔
      d.inCluster = true ∧ namesRef d.resources ref = true := by
  unfold Side.examine
  grind

theorem Walk.Exact.visit (hw : w.Exact reads ref ids done) (happ : Listed app)
    (hlen : ids.length ≤ maxDetailFetches) (hid : app.id ∈ ids)
    (h : w.visit reads ref app = some w') : w'.Exact reads ref ids (done ++ [app]) := by
  obtain ⟨hmemo, hin, hargo, hflux⟩ := hw
  unfold Walk.visit at h
  dsimp only at h
  split at h
  next how =>
    cases h
    unfold Walk.side at how
    exact ⟨hmemo, hin, by grind, by grind⟩
  next how =>
    cases hd : detail reads w.memo app with
    | none => simp [hd] at h
    | some x =>
      obtain ⟨r, memo'⟩ := x
      obtain ⟨hin', hr⟩ := hin.read hlen hid hd
      obtain ⟨-, hright, hval⟩ := detail_spec hmemo happ hd
      cases r with
      | none => exact absurd rfl hr
      | some d =>
        have hclaim : Claims reads ref app ↔
            d.inCluster = true ∧ namesRef d.resources ref = true := by
          simp [Claims, (hval d rfl).1]
        have hex := examine_owner (w.side app.tool) ref app d (by simpa using how)
        rw [hd] at h
        cases h
        unfold Walk.setSide Walk.side at *
        split <;> exact ⟨hright, hin', by grind, by grind⟩

theorem search_exact (hme : MemoRight reads memo)
    (hin : memo.Within (view.candidates.map (·.id))) (hls : ∀ app ∈ view.candidates, Listed app)
    (hlen : view.candidates.length ≤ maxDetailFetches)
    (h : search reads view memo ref hints = some w) :
    w.Exact reads ref (view.candidates.map (·.id)) (orderCandidates view.candidates ref hints) := by
  have hstart : Walk.Exact reads ref (view.candidates.map (·.id)) []
      ⟨memo, { state := view.argo },
        { state := { view.flux with helmReleaseHinted := hints.helmRelease } }⟩ :=
    ⟨hme, hin, by simp, by simp⟩
  refine foldlM_inv (fun app happ done w w' hw hvs => ?_) hstart h
  have hmem : app ∈ view.candidates := (perm_insertionSort _ _).mem_iff.1 happ
  exact hw.visit (hls app hmem) (by simpa using hlen) (mem_map_of_mem hmem) hvs

/-- A verdict names the tools that have an owner. -/
theorem names_verdict {argo flux : ToolState} (hw : w.Sound reads ref argo flux done)
    (hls : ∀ app ∈ done, Listed app) (ev : List OwnershipEvidence) (tool : Tool) :
    (verdict (ev ++ w.owners.map ownerEvidence) (w.owners.map ownedBy) w.argo.state
      w.flux.state).1.Names tool ↔
      (w.argo.owner.isSome ∧ tool = .argoCD) ∨ (w.flux.owner.isSome ∧ tool = .fluxCD) := by
  have hown : ∀ app ∈ w.owners, Listed app := fun app happ => hls app (hw.mem_owners happ).1
  have hargo : ∀ app, w.argo.owner = some app → app.tool = .argoCD := fun app h =>
    (hw.argo.owner app h).2.1
  have hflux : ∀ app, w.flux.owner = some app → app.tool = .fluxCD := fun app h =>
    have ⟨hdone, hside, _⟩ := hw.flux.owner app h
    (hls app hdone).tool_eq.resolve_left hside
  rw [verdict, confirmedApps_owners hown]
  cases ha : w.argo.owner <;> cases hf : w.flux.owner <;>
    simp [Walk.owners, ha, hf, ownedBy, hargo, hflux, OwnershipController.Names]

end

/-- The result names exactly the tools of candidates that claim the object. -/
def NamesClaimants (reads : Reads) (view : ClusterView) (ref : ObjectRef) (res : OwnershipResult) :
    Prop :=
  ∀ tool, res.controller.Names tool ↔
    ∃ app ∈ view.candidates, app.tool = tool ∧ Claims reads ref app

/-- **What an object says of itself neither forges nor hides an owner.** With at most
`maxDetailFetches` candidates, the controllers named for an object are exactly those of candidates
whose own records claim it, whatever its labels, annotations and field managers are. -/
theorem controllers_exact (reads : Reads) (user : Caller) (load : Except LoadError Snapshot)
    (clusterID : String) (observedAt : Time) (ended : Bool) (refs : List ObjectRef)
    (out : List OwnershipResult)
    (hlen : (ownershipView user load).candidates.length ≤ maxDetailFetches)
    (h : resolveOwnership reads user load clusterID observedAt ended refs = some out) :
    Forall₂ (NamesClaimants reads (ownershipView user load)) refs out := by
  have hls : ∀ app ∈ (ownershipView user load).candidates, Listed app :=
    fun app happ => listed_of_candidate happ
  unfold resolveOwnership at h
  generalize ownershipView user load = view at *
  split at h
  next hnil =>
    cases h
    exact hnil ▸ .nil
  next =>
    obtain ⟨run, hrun, h⟩ := Option.bind_eq_some_iff.1 h
    have hinv := foldlM_inv (P := fun done (run : OwnershipRun) => MemoRight reads run.memo ∧
        run.memo.Within (view.candidates.map (·.id)) ∧
        Forall₂ (NamesClaimants reads view) done run.out)
      (fun ref _ done run run' ⟨hme, hin, hout⟩ hr => ?_)
      ⟨Memo.agrees_empty, Memo.within_empty, .nil⟩ hrun
    · cases ended <;> cases h
      exact hinv.2.2
    · obtain ⟨hints, -, hr⟩ := Option.bind_eq_some_iff.1 hr
      obtain ⟨w, hsr, hr⟩ := Option.bind_eq_some_iff.1 hr
      cases hr
      have hmem : ∀ app, app ∈ orderCandidates view.candidates ref hints ↔ app ∈ view.candidates :=
        fun app => (perm_insertionSort _ _).mem_iff
      have hw := search_exact hme hin hls hlen hsr
      refine ⟨hw.memo, hw.within, rel_append hout (.cons (fun tool => ?_) .nil)⟩
      refine (names_verdict (search_sound hme hls hsr)
        (fun app happ => hls app ((hmem app).mp happ)) _ tool).trans ?_
      rw [hw.argo, hw.flux]
      simp only [hmem]
      grind [Listed.tool_eq]

theorem controllers_exact_shop : ∃ out, resolveOwnership shopReads shopUser shopLoad "local" 0 false
      [shopDeployment, shopConfigMap] = some out ∧
    Forall₂ (NamesClaimants shopReads (ownershipView shopUser shopLoad))
      [shopDeployment, shopConfigMap] out :=
  ⟨_, rfl, controllers_exact shopReads shopUser shopLoad "local" 0 false _ _ (by decide) rfl⟩

end KubeCenter.Gitops
