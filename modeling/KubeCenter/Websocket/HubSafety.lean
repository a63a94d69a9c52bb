import KubeCenter.Websocket.Hub

/-! # When the hub outlives its clients

The hub adds a subscription without asking whether its client is still there: a request of a client
removed meanwhile puts a closed channel into the table, and the next event ends the process. -/
namespace KubeCenter.Websocket
open Lib List

variable {h h' : Hub} {c : ClientID}

def HubEvent.late : HubEvent → HubEvent → Bool
  | .closed c, .took c' (.add _ _) => c = c'
  | _, _ => false

def HubEvent.stray : HubEvent → HubEvent → Bool
  | .closed c, .delivered c' _ _ => c = c'
  | _, _ => false

def Timely (log : List HubEvent) : Prop := log.Pairwise fun e e' => e.late e' = false

def NoStray (log : List HubEvent) : Prop := log.Pairwise fun e e' => e.stray e' = false

instance (log : List HubEvent) : Decidable (Timely log) :=
  inferInstanceAs (Decidable (List.Pairwise _ _))

theorem Timely.notMem {log} {key : SubKey} {id : String}
    (h : Timely (log ++ [.took c (.add key id)])) : .closed c ∉ log := by
  intro hc
  simpa [HubEvent.late] using (pairwise_append.1 h).2.2 _ hc _ (mem_singleton.2 rfl)

/-- What holds as long as the requests are taken in time. -/
structure Sane (h : Hub) : Prop where
  alive : h.loop ≠ .panicked
  keyed : Keyed h
  nodup : h.clients.Nodup
  counted : h.clientCount = h.clients.length
  opened : ∀ c ∈ h.clients, (h.conns c).closed = false
  dialing : ∀ c, (h.conns c).pump = .dialing → c ∉ h.clients ∧ (h.conns c).closed = false
  present : ∀ c, (h.conns c).pump ≠ .dialing → c ∈ h.clients ∨ .closed c ∈ h.log
  logged : ∀ c, .closed c ∈ h.log → (h.conns c).closed = true
  held : ∀ t ∈ h.subscriptions, t.client ∈ h.clients
  queued : ∀ t ∈ h.addSub, (h.conns t.client).pump ≠ .dialing
  reached : ∀ c ∈ h.loop.waiting, c ∈ h.clients
  once : (∀ rs, h.loop ≠ .revoking rs) → h.loop.waiting.Nodup
  silent : NoStray h.log

theorem Sane.init : Sane {} where
  alive := nofun
  keyed := nodup_nil
  nodup := nodup_nil
  counted := rfl
  opened := nofun
  dialing _ _ := ⟨nofun, rfl⟩
  present _ hd := absurd rfl hd
  logged := nofun
  held := nofun
  queued := nofun
  reached := nofun
  once _ := nodup_nil
  silent := List.Pairwise.nil

/-- All but a registration and a removal leaves the client set and the open channels. -/
theorem Sane.transfer (hs : Sane h) (es : List HubEvent) (hcli : h'.clients = h.clients)
    (hcn : h'.clientCount = h.clientCount) (hky : Keyed h')
    (hcs : ∀ c, (h'.conns c).closed = (h.conns c).closed)
    (hdi : ∀ c, (h'.conns c).pump = .dialing ↔ (h.conns c).pump = .dialing)
    (hlog : h'.log = h.log ++ es)
    (hes : ∀ e ∈ es, ∀ c, e ≠ .closed c ∧
      ∀ kind ns, e = .delivered c kind ns → (h.conns c).closed = false)
    (hhd : ∀ t ∈ h'.subscriptions, t.client ∈ h.clients)
    (hqd : ∀ t ∈ h'.addSub, t ∈ h.addSub ∨ (h.conns t.client).pump ≠ .dialing)
    (hal : h'.loop ≠ .panicked) (hrc : ∀ c ∈ h'.loop.waiting, c ∈ h.clients)
    (hon : (∀ rs, h'.loop ≠ .revoking rs) → h'.loop.waiting.Nodup) : Sane h' := by
  have hmem (c : ClientID) : .closed c ∈ h'.log ↔ .closed c ∈ h.log := by
    rw [hlog, mem_append, or_iff_left fun hc => (hes _ hc c).1 rfl]
  refine ⟨hal, hky, hcli ▸ hs.nodup, by rw [hcn, hcli]; exact hs.counted, ?_, ?_,
    ?_, ?_, hcli ▸ hhd, ?_, hcli ▸ hrc, hon, ?_⟩
  · intro c hc
    rw [hcs]
    exact hs.opened c (hcli ▸ hc)
  · intro c hd
    rw [hcs, hcli]
    exact hs.dialing c ((hdi c).1 hd)
  · intro c hd
    rw [hcli, hmem]
    exact hs.present c fun hd' => hd ((hdi c).2 hd')
  · intro c hc
    rw [hcs]
    exact hs.logged c ((hmem c).1 hc)
  · intro t ht hd
    have hd := (hdi t.client).1 hd
    rcases hqd t ht with hq | hq
    · exact hs.queued t hq hd
    · exact hq hd
  · -- only a delivery could stray, and it needs an open channel
    rw [hlog]
    refine pairwise_append.2 ⟨hs.silent, pairwise_of_forall_mem_list ?_, ?_⟩
    · intro e he e' he'
      cases e with
      | closed c => exact absurd rfl (hes _ he c).1
      | _ => rfl
    · intro e he e' he'
      unfold HubEvent.stray
      split
      next c c' kind ns =>
        rw [decide_eq_false_iff_not]
        rintro rfl
        have hop := (hes _ he' c).2 kind ns rfl
        rw [hs.logged c he] at hop
        cases hop
      · rfl

theorem Sane.targets_nodup (hs : Sane h) (e : ResourceEvent) :
    ((h.targets e).map (·.client)).Nodup := by
  simp only [Hub.targets, map_map, map_append]
  refine nodup_append.2 ⟨hs.keyed.clients_nodup _, ?_, ?_⟩
  · refine (hs.keyed.clients_nodup ⟨e.kind, ""⟩).sublist (List.Sublist.map _ ?_)
    exact monotone_filter_right _ fun t ht => by simp_all
  · rintro c hc _ hc' rfl
    obtain ⟨t, ht, rfl⟩ := mem_map.1 hc'
    have hex := (mem_filter.1 ht).2
    simp only [decide_eq_true_eq] at hex
    exact hex.2 hc

theorem Sane.turn (hs : Sane h) {l : Loop} (ht : Turn h l) : Sane { h with loop := l } := by
  have hst (hal : l ≠ .panicked) (hrc : ∀ c ∈ l.waiting, c ∈ h.clients)
      (hon : (∀ rs, l ≠ .revoking rs) → l.waiting.Nodup) : Sane { h with loop := l } :=
    hs.transfer [] rfl rfl hs.keyed (fun _ => rfl) (fun _ => .rfl) (by simp) nofun hs.held
      (fun _ => .inl) hal hrc hon
  cases ht with
  | announce e =>
    refine hst nofun (fun c hc => ?_) fun _ => hs.targets_nodup e
    obtain ⟨t, ht, rfl⟩ := mem_map.1 hc
    obtain ⟨u, hu, rfl⟩ := mem_map.1 ht
    exact hs.held u (by rcases mem_append.1 hu with hu | hu <;> exact (mem_filter.1 hu).1)
  | @stall e ts hlp t ht =>
    have hrc := hs.reached
    have hon := hs.once
    rw [hlp] at hrc hon
    have hsub : ((ts.filter (·.client ≠ t.client)).map (·.client)).Sublist (ts.map (·.client)) :=
      filter_sublist.map _
    refine hst nofun (fun c hc => ?_) fun _ => nodup_cons.2 ⟨?_, (hon nofun).sublist hsub⟩
    · rcases mem_cons.1 hc with rfl | hc
      · exact hrc _ (mem_map_of_mem ht)
      · exact hrc _ (hsub.subset hc)
    · simp
  | review answers =>
    refine hst nofun (fun c hc => ?_) fun hne => absurd rfl (hne _)
    obtain ⟨t, ht, rfl⟩ := mem_map.1 hc
    exact hs.held t (mem_filter.1 ht).1
  | windDown => exact hst nofun (fun _ => id) fun _ => hs.nodup
  | rest hl => rcases hl with rfl | rfl <;> exact hst nofun nofun fun _ => nodup_nil

theorem Sane.register (hs : Sane h) (hdi : (h.conns c).pump = .dialing) :
    Sane { h.put c { h.conns c with pump := .authenticating } with
      clients := h.clients.insert c, clientCount := h.clientCount + 1 } := by
  obtain ⟨hnew, hop⟩ := hs.dialing c hdi
  have hcs := Hub.put_agrees (h := h) (c := c) Client.closed
    { h.conns c with pump := .authenticating } rfl
  have hmn : ∀ x ∈ h.clients, x ∈ h.clients.insert c := fun x => mem_insert_of_mem
  refine ⟨hs.alive, hs.keyed, hs.nodup.insert, ?_, ?_, ?_, ?_, ?_,
    fun t ht => hmn _ (hs.held t ht), ?_, fun x hx => hmn _ (hs.reached x hx), hs.once,
    hs.silent⟩
  · simp [hs.counted, hnew]
  · intro x hx
    refine (hcs x).trans ?_
    rcases mem_insert_iff.1 hx with rfl | hx
    · exact hop
    · exact hs.opened x hx
  · intro x hd
    rcases eq_or_ne x c with rfl | hne
    · simp at hd
    · have hd' : (h.conns x).pump = .dialing := by simpa [hne] using hd
      obtain ⟨hx, hop⟩ := hs.dialing x hd'
      exact ⟨by simp [hne, hx], (hcs x).trans hop⟩
  · intro x hd
    rcases eq_or_ne x c with rfl | hne
    · exact .inl mem_insert_self
    · exact (hs.present x (by simpa [hne] using hd)).imp_left (hmn x)
  · intro x hx
    exact (hcs x).trans (hs.logged x hx)
  · intro t ht
    have hne : t.client ≠ c := by rintro rfl; exact hs.queued t ht hdi
    simpa [hne] using hs.queued t ht

theorem Leave.waiting {l : Loop} (hl : Leave h c l) (hs : Sane h) :
    c ∈ h.clients ∧ l ≠ .panicked ∧ (∀ x ∈ l.waiting, x ∈ h.clients ∧ x ≠ c) ∧ l.waiting.Nodup := by
  have hrc := hs.reached
  have hon := hs.once
  cases hl with
  | unregistered hsel hc => exact ⟨hc, nofun, nofun, nodup_nil⟩
  | stuck hlp hc =>
    rw [hlp] at hrc hon
    obtain ⟨hnot, hnd⟩ := nodup_cons.1 (hon nofun)
    subst hc
    exact ⟨hrc _ mem_cons_self, nofun,
      fun x hx => ⟨hrc x (mem_cons_of_mem _ hx), fun he => hnot (he ▸ hx)⟩, hnd⟩
  | @shut cs hlp hc =>
    rw [hlp] at hrc hon
    have hnd : cs.Nodup := hon nofun
    exact ⟨hrc c hc, nofun, fun x hx => ⟨hrc x (mem_of_mem_erase hx),
      fun he => (hnd.not_mem_erase (he ▸ hx)).elim⟩, hnd.erase c⟩

theorem Sane.remove (hs : Sane h) {pump : Pump} {l : Loop} (hl : Leave h c l)
    (hpm : pump = (h.conns c).pump ∨ (h.conns c).pump = .leaving ∧ pump = .gone)
    (hky : Keyed { h with subscriptions := h.subscriptions.filter (·.client ≠ c) }) :
    Sane { h.put c { h.conns c with pump, closed := true } with
      subscriptions := h.subscriptions.filter (·.client ≠ c)
      clients := h.clients.erase c
      clientCount := h.clientCount - 1
      loop := l
      log := h.log ++ [.closed c] } := by
  obtain ⟨hc, hal, hre, hnd⟩ := hl.waiting hs
  have hdi : (h.conns c).pump ≠ .dialing := fun hd => (hs.dialing c hd).1 hc
  have hdi' : pump ≠ .dialing := by
    rcases hpm with rfl | ⟨-, rfl⟩
    · exact hdi
    · nofun
  have her (x : ClientID) : x ∈ h.clients.erase c ↔ x ≠ c ∧ x ∈ h.clients := hs.nodup.mem_erase_iff
  have hot {x : ClientID} (hx : x ≠ c) :
      (h.put c { h.conns c with pump, closed := true }).conns x = h.conns x := by
    simp [hx]
  refine ⟨hal, hky, hs.nodup.erase c, ?_, ?_, ?_, ?_, ?_, ?_, ?_, ?_, fun _ => hnd, ?_⟩
  · have hpos := length_pos_of_mem hc
    simp only [hs.counted, length_erase_of_mem hc]
    omega
  · intro x hx
    obtain ⟨hne, hx⟩ := (her x).1 hx
    simp only [hot hne]
    exact hs.opened x hx
  · intro x hd
    rcases eq_or_ne x c with rfl | hne
    · simp [hdi'] at hd
    · simp only [hot hne] at hd ⊢
      exact ⟨fun hx => (hs.dialing x hd).1 ((her x).1 hx).2, (hs.dialing x hd).2⟩
  · intro x hd
    rcases eq_or_ne x c with rfl | hne
    · exact .inr (by simp)
    · simp only [hot hne] at hd
      exact (hs.present x hd).imp (fun hx => (her x).2 ⟨hne, hx⟩) (mem_append_left _)
  · intro x hx
    rcases eq_or_ne x c with rfl | hne
    · simp
    · simp only [hot hne]
      exact hs.logged x (by simpa [hne] using hx)
  · intro t ht
    obtain ⟨ht, hne⟩ := mem_filter.1 ht
    exact (her _).2 ⟨by simpa using hne, hs.held t ht⟩
  · intro t ht
    rcases eq_or_ne t.client c with he | hne
    · simpa [he] using hdi'
    · simp only [hot hne]
      exact hs.queued t ht
  · intro x hx
    exact (her x).2 ⟨(hre x hx).2, (hre x hx).1⟩
  · refine pairwise_append.2 ⟨hs.silent, pairwise_singleton _ _, ?_⟩
    intro e _ e' he'
    cases mem_singleton.1 he'
    cases e <;> rfl

theorem Sane.pump (hs : Sane h) (conn : Client) (q : List Subscription) (u : List UnsubRequest)
    (es : List HubEvent) (hcs : conn.closed = (h.conns c).closed)
    (hdi : conn.pump = .dialing ↔ (h.conns c).pump = .dialing)
    (hes : ∀ e ∈ es, ∀ c, e ≠ .closed c ∧ ∀ kind ns, e ≠ .delivered c kind ns)
    (hq : ∀ t ∈ q, t ∈ h.addSub ∨ (h.conns t.client).pump ≠ .dialing) :
    Sane { h.put c conn with addSub := q, unsubByID := u, log := h.log ++ es } :=
  hs.transfer _ rfl rfl hs.keyed (Hub.put_agrees _ _ hcs)
    (fun x => iff_of_eq (Hub.put_agrees (fun k => k.pump = .dialing) _ (propext hdi) x)) rfl
    (fun e he c => ⟨(hes e he c).1, fun kind ns h => absurd h ((hes e he c).2 kind ns)⟩)
    hs.held hq hs.alive hs.reached hs.once

/-- A step of the hub's goroutine that fills a buffer and shortens what it
still has to do. -/
theorem Sane.serve (hs : Sane h) (send : List OutgoingMessage) {subs : List Subscription} (l : Loop)
    (es : List HubEvent) (hsub : subs.Sublist h.subscriptions)
    (hes : ∀ e ∈ es, ∀ x, e ≠ .closed x ∧
      ∀ kind ns, e = .delivered x kind ns → (h.conns x).closed = false)
    (hal : l ≠ .panicked) (hl : l.waiting.Sublist h.loop.waiting)
    (hrev : ∀ rs, h.loop = .revoking rs → ∃ rs', l = .revoking rs') :
    Sane { h.put c { h.conns c with send } with
      subscriptions := subs, loop := l, log := h.log ++ es } := by
  have hput {β : Type} (f : Client → β) (hc : f { h.conns c with send } = f (h.conns c)) :=
    Hub.put_agrees f _ hc
  refine hs.transfer _ rfl rfl (hs.keyed.sublist (hsub.map _)) (hput Client.closed rfl)
    (fun x => iff_of_eq (hput (fun k => k.pump = .dialing) rfl x)) rfl hes
    (fun t ht => hs.held t (hsub.subset ht)) (fun _ => .inl) hal
    (fun x hx => hs.reached x (hl.subset hx)) fun hne => ?_
  refine (hs.once fun rs hrs => ?_).sublist hl
  obtain ⟨rs', rfl⟩ := hrev rs hrs
  exact hne rs' rfl

theorem Sane.takeSub (hs : Sane h) {t rest} (hq : h.addSub = t :: rest)
    (hk : Keyed (h.takeSub t rest)) (ht : Timely (h.log ++ [.took t.client (.add t.key t.id)])) :
    Sane (h.takeSub t rest) := by
  have hc : t.client ∈ h.clients :=
    (hs.present _ (hs.queued t (hq ▸ mem_cons_self))).resolve_right ht.notMem
  refine hs.transfer _ rfl rfl hk (fun _ => rfl) (fun _ => .rfl) rfl ?_ ?_ ?_ hs.alive hs.reached
    hs.once
  · intro e he c
    cases mem_singleton.1 he
    exact ⟨nofun, nofun⟩
  · intro u hu
    rcases mem_concat hu with hu | hu
    · exact hs.held u (mem_filter.1 hu).1
    · cases hu
      exact hc
  · intro u hu
    exact .inl (hq ▸ mem_cons_of_mem _ hu)

theorem Sane.move (hs : Sane h) (hm : HubMove h h') (ht : Timely h'.log) : Sane h' := by
  have hky := hs.keyed.move hm
  cases hm with
  | kinds =>
    exact hs.transfer [] rfl rfl hs.keyed (fun _ => rfl) (fun _ => .rfl) (by simp) (by simp)
      hs.held (fun _ => .inl) hs.alive hs.reached hs.once
  | pump hcs _ _ hdi hes =>
    refine hs.pump _ _ _ _ hcs hdi (fun e he c => ?_) fun _ => .inl
    obtain ⟨c', g, k, n, b, rfl⟩ := hes e he
    simp
  | @accept c key id es hrd _ hes =>
    have hmv := hs.pump (c := c)
      { h.conns c with pump := .subscribing key id, subCount := (h.conns c).subCount + 1 }
      h.addSub h.unsubByID (es ++ [.asked c (.add key id)]) rfl (by simp [hrd])
      (fun e he c => ?_) fun _ => .inl
    · simpa [Hub.accept] using hmv
    · rcases mem_concat he with he | he
      · obtain ⟨c', g, k, n, b, rfl⟩ := hes e he
        simp
      · cases he
        simp
  | @enqueueSub c key id hpm =>
    have hmv := hs.pump (c := c) { h.conns c with pump := .acking id }
      (h.addSub ++ [⟨key, c, id⟩]) h.unsubByID [] rfl (by simp [hpm]) (by simp) fun t ht => ?_
    · simpa using hmv
    · refine (mem_append.1 ht).imp_right fun ht => ?_
      cases mem_singleton.1 ht
      simp [hpm]
  | enqueueUnsub hpm =>
    refine hs.pump _ _ _ _ rfl (by simp [hpm]) (fun e he c => ?_) fun _ => .inl
    cases mem_singleton.1 he
    simp
  | register _ hdi => exact hs.register hdi
  | takeSub _ hq => exact hs.takeSub hq (hky hs.alive) ht
  | takeUnsub =>
    refine hs.transfer _ rfl rfl (hs.keyed.filter _) (fun _ => rfl) (fun _ => .rfl) rfl
      (fun e he c => ?_) (fun t ht => hs.held t (mem_filter.1 ht).1) (fun _ => .inl) hs.alive
      hs.reached hs.once
    cases mem_singleton.1 he
    simp
  | turn htr => exact hs.turn htr
  | @deliver e ts hlp t htm hop =>
    refine hs.serve _ _ _ (.refl _) (fun e he c => ?_) (by simp)
      (by rw [hlp]; exact filter_sublist.map _) (by simp [hlp])
    cases mem_singleton.1 he
    refine ⟨by simp, fun kind ns heq => ?_⟩
    cases heq
    exact hop
  | @resynced e t rest hlp send =>
    have hmv := hs.serve (c := t.client) send (.sending e rest) [] (.refl _) (by simp)
      (by simp) (by rw [hlp]; exact sublist_cons_self _ _) (by simp [hlp])
    rw [append_nil] at hmv
    exact hmv
  | revoke hlp hr =>
    refine hs.serve _ _ _ filter_sublist (fun e he c => ?_) (by simp)
      (by rw [hlp]; exact erase_sublist.map _) (fun _ _ => ⟨_, rfl⟩)
    cases mem_singleton.1 he
    simp
  | remove hop hpm hl => exact hs.remove hl hpm (hky (hl.waiting hs).2.1)
  | crash _ _ hwt hcs =>
    have hop := hs.opened _ (hwt.elim id (hs.reached _))
    rw [hcs] at hop
    cases hop

theorem sane_run (quote : String → String) (as : List HubAction) :
    Timely ((hub quote).run as).log → Sane ((hub quote).run as) := by
  refine Machine.run_inv (M := hub quote) (P := fun h => Timely h.log → Sane h) (fun _ => Sane.init)
    ?_ as
  intro h a h' ih hste ht
  have hm := (hub_move hste).2
  obtain ⟨es, hlog⟩ := hm.log
  exact (ih (pairwise_append.1 (hlog ▸ ht)).1).move hm ht

/-- **Clients cannot crash the hub as long as it takes their requests in time.** If no subscribe
request is taken after its client's channel was closed, the hub does not panic on a closed channel,
the clients of the table are in the client set, the count is its size, and no event is sent after
the close. -/
theorem hub_survives (quote : String → String) (as : List HubAction)
    (ht : Timely ((hub quote).run as).log) :
    ((hub quote).run as).loop ≠ .panicked ∧
    (∀ t ∈ ((hub quote).run as).subscriptions, t.client ∈ ((hub quote).run as).clients) ∧
    ((hub quote).run as).clients.Nodup ∧
    ((hub quote).run as).clientCount = ((hub quote).run as).clients.length ∧
    NoStray ((hub quote).run as).log := by
  have hs := sane_run quote as ht
  exact ⟨hs.alive, hs.held, hs.nodup, hs.counted, hs.silent⟩

/-- Client `c` subscribes to the pods of all namespaces; the hub has not taken the subscription
yet. -/
def connecting (c : ClientID) : List HubAction :=
  [.register c, .authenticate c (some "dev"),
    .read c (some { type := "subscribe", id := "s", kind := "pods" }) (some true), .enqueue c]

def podAdded : ResourceEvent := ⟨"ADDED", "pods", "prod", some "\x7b\x7d"⟩

/-- The subscription is taken, an event is sent, and the client leaves. -/
theorem hub_survives_one_client :
    Timely ((hub id).run (connecting 1 ++ [.takeSub, .event podAdded, .sendTo 1, .done,
      .acknowledge 1, .hangUp 1, .unregister 1])).log ∧
    ((hub id).run (connecting 1 ++ [.takeSub, .event podAdded, .sendTo 1, .done,
      .acknowledge 1, .hangUp 1, .unregister 1])).loop ≠ .panicked :=
  ⟨by decide, (hub_survives id _ (by decide)).1⟩

/-- The client hangs up with its subscribe request in `addSub`, and the hub takes the
unregistration first: the request enters a closed channel into the table, and the next event for it
ends the process. -/
theorem hub_crashed : ∃ as, ((hub id).run as).loop = .select ∧
      (∃ t ∈ ((hub id).run as).subscriptions, t.client ∉ ((hub id).run as).clients) ∧
      ((hub id).run (as ++ [.event podAdded, .sendTo 1])).loop = .panicked :=
  ⟨connecting 1 ++ [.acknowledge 1, .hangUp 1, .unregister 1, .takeSub], rfl, by decide, rfl⟩

end KubeCenter.Websocket
