import Mathlib.Tactic.IntervalCases
import KubeCenter.ExternalSecrets.BulkAccounting
import KubeCenter.Lib.Control

/-! # Which objects a bulk refresh touches

The worker compares the UID that the client confirmed with the UID it reads, then patches by
namespace and name: it finds the confirmed object or none, unless one has been created under the
name since the read. -/
namespace KubeCenter.ExternalSecrets

open Lib Lib.Go List

/-! ## Accepted requests -/

theorem mem_resolveScope {req inventory t} : t ∈ resolveScope req inventory ↔
      ∃ es ∈ matchScope inventory req.action req.scopeTarget,
        req.canPatch es.ns = true ∧ t = ⟨es.ns, es.name, es.uid⟩ := by
  rw [resolveScope, mem_insertionSort, mem_map]
  constructor
  · rintro ⟨es, hes, rfl⟩
    exact ⟨es, (mem_filter.mp hes).1, (mem_filter.mp hes).2, rfl⟩
  · rintro ⟨es, hes, hpt, rfl⟩
    exact ⟨es, mem_filter.mpr ⟨hes, hpt⟩, rfl⟩

theorem confirmed_of_compareUIDs {client scope} (h : (compareUIDs client scope).1 = []) :
    ∀ t ∈ scope, t.uid ∈ client := by
  intro t ht
  by_contra hnot
  have had : t.uid ∈ (compareUIDs client scope).1 := by
    rw [compareUIDs, mem_insertionSort, mem_filter]
    exact ⟨mem_map_of_mem ht, decide_eq_true hnot⟩
  rw [h] at had
  cases had

structure Checked.Sound (c : Checked) : Prop where
  body : c.request.targetUIDs = some c.confirmed
  inventory : c.request.inventory = some c.inventory
  confirmed : ∀ t ∈ c.targets, t.uid ∈ c.confirmed
  inScope : ∀ t ∈ c.targets, ∃ es ∈ matchScope c.inventory c.request.action c.request.scopeTarget,
    c.request.canPatch es.ns = true ∧ t = ⟨es.ns, es.name, es.uid⟩

theorem checkRequest_sound {rows req} {c : Checked} (h : checkRequest rows req = .ok c) :
    c.Sound := by
  unfold checkRequest at h
  split at h
  · cases h
  simp only [ite_error_ok_iff] at h
  obtain ⟨-, -, -, h⟩ := h
  split at h
  · cases h
  rename_i inventory hinv
  simp only [ite_error_ok_iff] at h
  obtain ⟨-, -, h⟩ := h
  split at h
  · cases h
  rename_i confirmed hbd
  simp only [ite_error_ok_iff] at h
  obtain ⟨-, hsm, h⟩ := h
  split at h
  · cases h
  cases h
  have had : (compareUIDs confirmed (resolveScope req inventory)).1 = [] :=
    not_not.mp (not_or.mp hsm).1
  exact ⟨hbd, hinv, confirmed_of_compareUIDs had, fun t ht => mem_resolveScope.mp ht⟩

/-! ## Patches on their way -/

def Owned (trace : List BulkOutput) (id : Uuid) (ts : List BulkScopeTarget) : Prop :=
  ∃ c, BulkOutput.accepted id c ∈ trace ∧ ∀ t ∈ ts, t ∈ c.targets

theorem Owned.later {trace} {id : Uuid} {ts ts'} (h : Owned trace id ts) (hts : ∀ t ∈ ts', t ∈ ts)
    (o : BulkOutput) : Owned (trace ++ [o]) id ts' := by
  obtain ⟨c, hc, htg⟩ := h
  exact ⟨c, mem_append_left _ hc, fun t ht => htg t (hts t ht)⟩

/-- What is still to be patched was confirmed; a patch on its way finds the confirmed object or
none. -/
structure Pinned (s : BulkSystem) (trace : List BulkOutput) : Prop where
  checked : ∀ n c, s.checked n = some c → c.Sound
  accepted : ∀ id c, BulkOutput.accepted id c ∈ trace → c.Sound
  queue : ∀ m ∈ s.queue, Owned trace m.jobID m.targets
  running : ∀ j, s.worker = .running j → Owned trace j.msg.jobID (j.target :: j.rest)
  sent : ∀ p ∈ s.sent, Owned trace p.jobID [p.target]
  live : ∀ p ∈ s.sent, s.objects p.target.ns p.target.name = none ∨
    s.objects p.target.ns p.target.name = some p.target.uid

/-- No object is created under the name of a patch on its way. -/
def Undisturbed (rows : List JobRow) (objects : String → String → Option String)
    (events : List BulkEvent) : Prop :=
  ∀ before ns name uid after, events = before ++ BulkEvent.create ns name uid :: after →
    ((bulkRefresh rows objects).run before).objects ns name = none →
    ∀ p ∈ ((bulkRefresh rows objects).run before).sent, ¬(p.target.ns = ns ∧ p.target.name = name)

section Steps

variable {s s' : BulkSystem} {trace : List BulkOutput} {o : BulkOutput} {e : BulkEvent}

theorem setObject_apply (objects : String → String → Option String) (ns name ns' name' : String)
    (uid : Option String) : setObject objects ns name uid ns' name' =
      if ns' = ns ∧ name' = name then uid else objects ns' name' := by
  by_cases hns : ns' = ns
  · subst hns
    by_cases hnm : name' = name
    · simp [setObject, hnm]
    · simp [setObject, hnm]
  · simp [setObject, hns]

theorem Pinned.keep (h : Pinned s trace) (hchk : ∀ n c, s'.checked n = some c → c.Sound)
    (hnew : ∀ id c, o ≠ .accepted id c) (hq : ∀ m ∈ s'.queue, m ∈ s.queue)
    (hrun : ∀ j, s'.worker = .running j → Owned (trace ++ [o]) j.msg.jobID (j.target :: j.rest))
    (hse : ∀ p ∈ s'.sent, p ∈ s.sent)
    (hli : ∀ p ∈ s'.sent, s'.objects p.target.ns p.target.name = none ∨
      s'.objects p.target.ns p.target.name = some p.target.uid) : Pinned s' (trace ++ [o]) where
  checked := hchk
  accepted := by
    intro id c hmem
    rcases mem_concat hmem with hmem | hmem
    · exact h.accepted id c hmem
    · exact absurd hmem.symm (hnew id c)
  queue m hm := (h.queue m (hq m hm)).later (fun _ ht => ht) o
  running := hrun
  sent p hp := (h.sent p (hse p hp)).later (fun _ ht => ht) o
  live := hli

theorem Pinned.running_later (h : Pinned s trace) (o : BulkOutput) :
    ∀ j, s.worker = .running j → Owned (trace ++ [o]) j.msg.jobID (j.target :: j.rest) :=
  fun j hj => (h.running j hj).later (fun _ ht => ht) o

theorem Pinned.settle {j} (h : Pinned s trace) (hj : s.worker = .running j)
    (result : Option PatchError) :
    Pinned (settle s j result).2 (trace ++ [(settle s j result).1]) := by
  have hjob := h.running j hj
  unfold ExternalSecrets.settle
  dsimp only
  split
  · exact h.keep h.checked (fun _ _ => nofun) (fun _ hm => hm) (fun _ => nofun) (fun _ hp => hp)
      h.live
  next next rest hrs =>
    refine h.keep h.checked (fun _ _ => nofun) (fun _ hm => hm) ?_ (fun _ hp => hp) h.live
    rintro j' hj'
    cases hj'
    refine hjob.later (fun t ht => ?_) _
    rw [hrs]
    exact mem_cons_of_mem j.target ht

theorem Pinned.send {j} {left : ℕ} {uid : String} (h : Pinned s trace) (hj : s.worker = .running j)
    (hli : s.objects j.target.ns j.target.name = some uid)
    (hpin : j.target.uid = "" ∨ uid = j.target.uid) : Pinned { s with
        sent := s.sent ++ [⟨s.patches, j.msg.jobID, j.target⟩]
        patches := s.patches + 1
        worker := .running { j with phase := .patching left } } (trace ++ [.quiet]) := by
  have hjob := h.running j hj
  have huid : uid = j.target.uid := by
    obtain ⟨c, hc, htg⟩ := hjob
    obtain ⟨es, -, -, htr⟩ := (h.accepted _ c hc).inScope j.target (htg _ mem_cons_self)
    refine hpin.resolve_left fun hem => es.uid_ne ?_
    rw [htr] at hem
    exact hem
  subst huid
  refine ⟨h.checked, ?_, ?_, ?_, ?_, ?_⟩
  · intro id c hmem
    rcases mem_concat hmem with hmem | hmem
    · exact h.accepted id c hmem
    · cases hmem
  · exact fun m hm => (h.queue m hm).later (fun _ ht => ht) _
  · intro j' hj'
    cases hj'
    exact hjob.later (fun _ ht => ht) _
  · intro p hp
    rcases mem_concat hp with hp | hp
    · exact (h.sent p hp).later (fun _ ht => ht) _
    · rw [hp]
      refine hjob.later (fun t ht => ?_) _
      rw [mem_singleton.mp ht]
      exact mem_cons_self
  · intro p hp
    rcases mem_concat hp with hp | hp
    · exact h.live p hp
    · rw [hp]
      exact .inr hli

theorem Pinned.accept {n : ℕ} {id : Uuid} {c : Checked} (h : Pinned s trace)
    (hc : s.checked n = some c) :
    Pinned { s with
        checked := Function.update s.checked n none
        rows := s.rows ++ [insertedRow (c.job id)]
        queue := s.queue ++ [c.message id] } (trace ++ [.accepted id c]) := by
  refine ⟨fun k d hd => h.checked k d (update_none_cases hd).2, ?_, ?_, h.running_later _, ?_,
    h.live⟩
  · intro id' c' hmem
    rcases mem_concat hmem with hmem | hmem
    · exact h.accepted id' c' hmem
    · cases hmem
      exact h.checked n c hc
  · intro m hm
    rcases mem_concat hm with hm | hm
    · exact (h.queue m hm).later (fun _ ht => ht) _
    · rw [hm]
      exact ⟨c, mem_append_right _ (mem_singleton_self _), fun _ ht => ht⟩
  · exact fun p hp => (h.sent p hp).later (fun _ ht => ht) _

theorem Pinned.move (h : Pinned s trace) (hmv : BulkMove s e o s')
    (hcr : ∀ ns name uid, e = .create ns name uid → s.objects ns name = none →
      ∀ p ∈ s.sent, ¬(p.target.ns = ns ∧ p.target.name = name)) : Pinned s' (trace ++ [o]) := by
  have hwd : ∀ n k c, Function.update s.checked n none k = some c → c.Sound :=
    fun n k c hk => h.checked k c (update_none_cases hk).2
  cases hmv with
  | refuse | nothing | unemployed | cancel =>
    exact h.keep h.checked (fun _ _ => nofun) (fun _ hm => hm) (h.running_later _)
      (fun _ hp => hp) h.live
  | check hok =>
    exact h.keep (forall_update h.checked (checkRequest_sound hok)) (fun _ _ => nofun)
      (fun _ hm => hm) (h.running_later _) (fun _ hp => hp) h.live
  | withdraw | overflow =>
    exact h.keep (hwd _) (fun _ _ => nofun) (fun _ hm => hm) (h.running_later _)
      (fun _ hp => hp) h.live
  | accept hc => exact h.accept hc
  | close hid hq =>
    exact h.keep h.checked (fun _ _ => nofun) (fun m hm => hq ▸ mem_cons_of_mem _ hm)
      (h.running_later _) (fun _ hp => hp) h.live
  | start hid hq htg =>
    rename_i m queue target rest
    refine h.keep h.checked (fun _ _ => nofun) (fun m hm => hq ▸ mem_cons_of_mem _ hm) ?_
      (fun _ hp => hp) h.live
    intro j hj
    cases hj
    rw [← htg]
    exact (h.queue m (hq ▸ mem_cons_self)).later (fun _ ht => ht) _
  | advance hj =>
    refine h.keep h.checked (fun _ _ => nofun) (fun _ hm => hm) ?_ (fun _ hp => hp) h.live
    intro j' hj'
    cases hj'
    exact (h.running _ hj).later (fun _ ht => ht) _
  | send hj hph hli hpin => exact h.send hj hli hpin
  | settle result hj => exact h.settle hj result
  | panic | abandon | stop =>
    exact h.keep h.checked (fun _ _ => nofun) (fun _ hm => hm) (fun _ => nofun) (fun _ hp => hp)
      h.live
  | create hno =>
    rename_i ns name uid
    refine h.keep h.checked (fun _ _ => nofun) (fun _ hm => hm) (h.running_later _)
      (fun _ hp => hp) ?_
    intro p hp
    dsimp only
    rw [setObject_apply, if_neg (hcr ns name uid rfl hno p hp)]
    exact h.live p hp
  | delete =>
    refine h.keep h.checked (fun _ _ => nofun) (fun _ hm => hm) (h.running_later _)
      (fun _ hp => hp) ?_
    intro p hp
    dsimp only
    rw [setObject_apply]
    split
    · exact .inl rfl
    · exact h.live p hp
  | takeEffect | drop =>
    exact h.keep h.checked (fun _ _ => nofun) (fun _ hm => hm) (h.running_later _)
      (fun _ hp => (mem_filter.mp hp).1) fun p hp => h.live p (mem_filter.mp hp).1

theorem patched_of_move {id : Uuid} {uid : String} (hmv : BulkMove s e o s')
    (ho : o = .patched id uid) :
    ∃ p ∈ s.sent, p.jobID = id ∧ s.objects p.target.ns p.target.name = some uid := by
  cases hmv with
  | takeEffect hp hli =>
    cases ho
    exact ⟨_, hp, rfl, hli⟩
  | settle => simp [ExternalSecrets.settle] at ho
  | panic => simp [recoverPanic] at ho
  | _ => cases ho

end Steps

theorem run_pinned {rows objects events} (h : Undisturbed rows objects events) :
    Pinned ((bulkRefresh rows objects).run events) ((bulkRefresh rows objects).trace events) := by
  refine Reactive.run_inv_of_split (M := bulkRefresh rows objects) ?_ ?_ events []
    (append_nil events).symm
  · refine ⟨fun _ _ hc => ?_, nofun, nofun, fun _ hj => ?_, nofun, nofun⟩
    · cases hc
    · cases hj
  · intro as e bs hall hpn
    refine hpn.move (bulkReact_move _ e) ?_
    rintro ns name uid rfl
    exact h as ns name uid bs hall

/-- As long as no object is created under the name of a patch on its way, an object that a patch
takes effect on has a UID that the client sent, in the resolved scope and a namespace the user may
patch, and that the job records. -/
theorem bulk_refresh_pinned {rows : List JobRow} {objects : String → String → Option String}
    {events : List BulkEvent} {e : BulkEvent} {id : Uuid} {uid : String}
    (hundisturbed : Undisturbed rows objects events)
    (hpatched : (bulkRefresh rows objects).event events e = .patched id uid) :
    let M := bulkRefresh rows objects
    ∃ c, BulkOutput.accepted id c ∈ M.trace events ∧
      c.request.targetUIDs = some c.confirmed ∧ uid ∈ c.confirmed ∧
      c.request.inventory = some c.inventory ∧
      (∃ es ∈ matchScope c.inventory c.request.action c.request.scopeTarget,
        es.uid = uid ∧ c.request.canPatch es.ns = true) ∧
      ∃ job, getJob (M.run events).rows id = some job ∧ uid ∈ job.targetUIDs := by
  intro M
  have hpn : Pinned (M.run events) (M.trace events) := run_pinned hundisturbed
  obtain ⟨p, hp, rfl, hli⟩ := patched_of_move (bulkReact_move (M.run events) e) hpatched
  have huid : uid = p.target.uid := by
    rcases hpn.live p hp with hno | hso
    · rw [hno] at hli
      cases hli
    · exact Option.some.inj (hli.symm.trans hso)
  obtain ⟨c, hc, htg⟩ := hpn.sent p hp
  have htr : p.target ∈ c.targets := htg _ (mem_singleton_self _)
  have hsn := hpn.accepted _ c hc
  obtain ⟨es, hes, hpt, heq⟩ := hsn.inScope _ htr
  obtain ⟨r, hrow, hrec, -⟩ := (run_accounts rows objects events).standing _ c hc
  refine ⟨c, hc, hsn.body, huid ▸ hsn.confirmed _ htr, hsn.inventory,
    ⟨es, hes, ?_, hpt⟩, scanJob r, congrArg (Option.map scanJob) hrow, ?_⟩
  · rw [huid, heq]
  · have hmem : p.target.uid ∈ r.targetUIDs := hrec ▸ mem_map_of_mem htr
    exact huid ▸ hmem

def sampleSent : List BulkEvent := sampleAccepted ++ List.replicate 3 sampleWork

/-- While the patch is on its way, a create under its name is refused, and one under another name is
not. -/
theorem bulk_refresh_pinned_first : let M := bulkRefresh [] sampleObjects
    let events := sampleSent ++ [.create "default" "a" "u3", .create "default" "c" "u4"]
    ∃ job, getJob (M.run events).rows 1 = some job ∧ "u1" ∈ job.targetUIDs := by
  intro M events
  have hun : Undisturbed [] sampleObjects events := by
    intro before ns name uid after hev
    have hbe : before = events.take before.length := by rw [hev, take_left]
    have hat : events[before.length]? = some (.create ns name uid) := by rw [hev]; simp
    have hlt : before.length < 7 := (List.getElem?_eq_some_iff.mp hat).1
    rw [hbe]
    generalize before.length = n at hat hlt
    interval_cases n <;> cases hat <;> decide
  have hpa : M.event events (.takeEffect 0) = .patched 1 "u1" := rfl
  obtain ⟨c, -, -, -, -, -, hjob⟩ := bulk_refresh_pinned hun hpa
  exact hjob

/-- The object is deleted and created again between the read and the patch. -/
theorem bulk_refresh_hits_recreated : let M := bulkRefresh [] sampleObjects
    let events := sampleSent ++ [.delete "default" "a", .create "default" "a" "u3"]
    M.event events (.takeEffect 0) = .patched 1 "u3" ∧
      sampleRequest.targetUIDs = some ["u1", "u2"] := by
  exact ⟨rfl, rfl⟩

end KubeCenter.ExternalSecrets
