import KubeCenter.Websocket.Hub

/-! # Whom the hub sends events to

A subscription passes from the read pump through `addSub` into the table, and from there to the
targets of an event. Nothing on this way asks again: the answer the pump got has to go along. -/
namespace KubeCenter.Websocket
open Lib List

variable {h h' : Hub} {c : ClientID} {key : SubKey} {log : List HubEvent} {kind ns : String}

/-- The client has the subscription, or it is on its way into the table. -/
def Wants (h : Hub) (c : ClientID) (key : SubKey) : Prop := ∃ id,
  (h.conns c).pump.asking = some (.add key id) ∨ ⟨key, c, id⟩ ∈ h.addSub ++ h.subscriptions

/-- The client was cleared for the event's namespace or for all of them. -/
def MayReceive (log : List HubEvent) (c : ClientID) (kind ns : String) : Prop :=
  Cleared log c kind ns ∨ Cleared log c kind ""

/-- The sends the hub has begun. -/
def Loop.due : Loop → List (ResourceEvent × ClientID)
  | .sending e ts => ts.map fun t => (e, t.client)
  | .resyncing e t ts => (t :: ts).map fun t => (e, t.client)
  | _ => []

theorem wants_of_move (hm : HubMove h h') (hw : Wants h' c key) :
    Wants h c key ∨ Cleared h'.log c key.kind key.namespace_ := by
  obtain ⟨id, hw⟩ := hw
  unfold Wants
  cases hm with
  | accept =>
    simp only [Hub.accept, Hub.put, Function.update_apply] at hw ⊢
    unfold Cleared at *
    grind [Pump.asking]
  | takeSub =>
    simp only [Hub.takeSub] at hw
    grind
  | kinds | turn | takeUnsub | crash => grind
  | _ =>
    simp only [Hub.put, Function.update_apply] at hw
    grind [Pump.asking]

theorem wants_of_target {e : ResourceEvent} {t : Target} (ht : t ∈ h.targets e) :
    Wants h t.client ⟨e.kind, e.namespace_⟩ ∨ Wants h t.client ⟨e.kind, ""⟩ := by
  obtain ⟨⟨key, c, id⟩, hx, rfl⟩ := mem_map.mp ht
  unfold Wants
  grind

/-- A send that is begun goes to a target of its event. -/
theorem due_of_move (hm : HubMove h h') {x : ResourceEvent × ClientID} (hx : x ∈ h'.loop.due) :
    x ∈ h.loop.due ∨ ∃ t ∈ h.targets x.1, t.client = x.2 := by
  cases hm with
  | turn hturn => cases hturn <;> grind [Loop.due]
  | remove _ _ hl => cases hl <;> grind [Loop.due]
  | _ => grind [Loop.due, Hub.put, Hub.accept, Hub.takeSub]

/-- Every event that is sent was due. -/
theorem delivered_of_move (hm : HubMove h h') : ∃ es, h'.log = h.log ++ es ∧
    ∀ c kind ns, .delivered c kind ns ∈ es →
      ∃ e, (e, c) ∈ h.loop.due ∧ e.kind = kind ∧ e.namespace_ = ns := by
  cases hm with
  | pump _ _ _ _ hes =>
    unfold OnlyChecks at hes
    exact ⟨_, rfl, by grind⟩
  | accept key id _ _ hes =>
    unfold OnlyChecks at hes
    exact ⟨_, append_assoc .., by grind⟩
  | crash es _ _ _ hlog hes => exact ⟨es, hlog, by grind⟩
  | kinds | enqueueSub | register | turn | resynced => exact ⟨[], (append_nil _).symm, by simp⟩
  | _ => exact ⟨_, rfl, by grind [Loop.due]⟩

structure Authorized (h : Hub) : Prop where
  wants : ∀ c key, Wants h c key → Cleared h.log c key.kind key.namespace_
  due : ∀ x ∈ h.loop.due, MayReceive h.log x.2 x.1.kind x.1.namespace_
  delivered : ∀ before after c kind ns, h.log = before ++ .delivered c kind ns :: after →
    MayReceive before c kind ns

theorem Cleared.append (hc : Cleared log c kind ns) (es : List HubEvent) :
    Cleared (log ++ es) c kind ns :=
  hc.imp_right fun ⟨group, hmem⟩ => ⟨group, mem_append_left es hmem⟩

theorem MayReceive.append (hm : MayReceive log c kind ns) (es : List HubEvent) :
    MayReceive (log ++ es) c kind ns :=
  hm.imp (·.append es) (·.append es)

theorem Authorized.move (hs : Authorized h) (hm : HubMove h h') : Authorized h' := by
  obtain ⟨es, hlog, hes⟩ := delivered_of_move hm
  refine ⟨fun c key hw => ?_, fun x hx => ?_, fun before after c kind ns hsp => ?_⟩
  · rcases wants_of_move hm hw with hw | hc
    · rw [hlog]
      exact (hs.wants c key hw).append es
    · exact hc
  · rw [hlog]
    refine MayReceive.append ?_ es
    rcases due_of_move hm hx with hx | ⟨t, ht, he⟩
    · exact hs.due x hx
    · rw [← he]
      exact (wants_of_target ht).imp (hs.wants _ _) (hs.wants _ _)
  · have hnew : .delivered c kind ns ∈ es → MayReceive h.log c kind ns := by
      intro he
      obtain ⟨e, hdue, rfl, rfl⟩ := hes c kind ns he
      exact hs.due _ hdue
    rw [hlog] at hsp
    rcases append_eq_append_iff.mp hsp with ⟨mid, rfl, hmid⟩ | ⟨mid, hbefore, hmid⟩
    · exact (hnew (by simp [hmid])).append mid
    · cases mid with
      | nil =>
        rw [append_nil] at hbefore
        exact hbefore ▸ hnew (by grind)
      | cons e mid =>
        cases hmid
        exact hs.delivered before mid c kind ns hbefore

/-- **An event is sent only to a client for which a `list` check of its kind, in its namespace or in
all, was answered with yes before**, kinds exempt from checks aside, however the pumps, the
channels and the hub interleave; and every entry of the table has such an answer. -/
theorem events_only_to_cleared (quote : String → String) (as : List HubAction) :
    (∀ before after c kind ns,
      ((hub quote).run as).log = before ++ .delivered c kind ns :: after →
      MayReceive before c kind ns) ∧
    ∀ t ∈ ((hub quote).run as).subscriptions,
      Cleared ((hub quote).run as).log t.client t.key.kind t.key.namespace_ := by
  have hs : Authorized ((hub quote).run as) :=
    Machine.run_inv ⟨by simp [Wants, hub, Pump.asking], by simp [hub, Loop.due], by simp [hub]⟩
      (fun h a h' hs hst => hs.move (hub_move hst).2) as
  exact ⟨hs.delivered, fun t ht => hs.wants _ _ ⟨t.id, .inr (mem_append_right _ ht)⟩⟩

end KubeCenter.Websocket
