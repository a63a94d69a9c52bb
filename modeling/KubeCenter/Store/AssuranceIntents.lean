import KubeCenter.Store.AssuranceLedger

/-! # What the calls do to the intents

A claim spends an attempt of intents that are pending and have one left, and a mark changes the
state of a pending one. Sends are counted against attempts: `sendCost` is what a call sends,
`claimGain` what a claim hands out. -/
namespace KubeCenter.Store

open Lib Go List Nat

variable {δ : Type} {newSHA1 : Uuid → String → Uuid} {t : AssuranceTables δ}
  {c : AssuranceCall δ} {ds : List AssuranceDelivery}

/-! ## Effects -/

def claimStep (ids : List Uuid) (d : AssuranceDelivery) : AssuranceDelivery :=
  if ids.contains d.id then d.claimed else d

def markStep (id : Uuid) (f : AssuranceDelivery → AssuranceDeliveryState)
    (d : AssuranceDelivery) : AssuranceDelivery :=
  if pendingWithID id d then { d with state := f d } else d

inductive IntentEffect (t : AssuranceTables δ) :
    AssuranceCall δ → List AssuranceDelivery → Prop where
  | same (c : AssuranceCall δ) : IntentEffect t c t.deliveries
  | enqueued (c : AssuranceCall δ) (d : AssuranceDelivery)
      (hid : ∀ x ∈ t.deliveries, x.id ≠ d.id) (hattempts : d.attempts = 0) :
      IntentEffect t c (t.deliveries ++ [d])
  | claimed (clusterID : String) (maxAttempts limit : ℕ) (locked : List Uuid) :
      IntentEffect t (.claim clusterID maxAttempts limit)
        (t.deliveries.map (claimStep (claimedIDs t clusterID maxAttempts limit locked)))
  | marked (c : AssuranceCall δ) (id : Uuid) (f : AssuranceDelivery → AssuranceDeliveryState) :
      IntentEffect t c (t.deliveries.map (markStep id f))

theorem enqueued_effect {s u : AssuranceTables δ} {now : Time} {id : Uuid}
    {transition : AssuranceTransition}
    (h : enqueueDelivery newSHA1 now id transition s = some u)
    (hs : s.deliveries = t.deliveries) : IntentEffect t c u.deliveries := by
  obtain ⟨-, rfl, hid⟩ := enqueueDelivery_spec h
  rw [hs] at hid
  show IntentEffect t c (s.deliveries ++ _)
  rw [hs]
  exact .enqueued c _ hid rfl

theorem intent_effect (c : AssuranceCall δ) (w : AssuranceChoice) (t : AssuranceTables δ) :
    IntentEffect t c (assuranceExec newSHA1 c w t).2.deliveries := by
  let P (u : AssuranceTables δ) : Prop := IntentEffect t c u.deliveries
  cases c with
  | insertOpen e =>
    refine transact_keeps (P := P) _ (.same _) fun r u h => ?_
    rcases insertOpenException_spec h with ⟨-, rfl⟩ | ⟨-, -, -, h⟩
    · exact .same _
    · exact enqueued_effect h rfl
  | updateResolved id time reason =>
    refine transact_keeps (P := P) _ (.same _) fun b u h => ?_
    rcases updateResolved_spec h with ⟨-, rfl, -⟩ | ⟨-, -, h⟩
    · exact .same _
    · exact enqueued_effect h rfl
  | claim clusterID maxAttempts limit =>
    exact transact_some_keeps (P := P) _ (.same _) (.claimed clusterID maxAttempts limit w.locked)
  | updateDelivered id | updateFailed id =>
    exact transact_some_keeps (P := P) _ (.same _) (.marked _ id _)
  | updateObserved id o => exact transact_some_keeps (P := P) _ (.same _) (.same _)
  | findOpen | probeID | probePolicy | probeState | listOpen | newID | ctxErr | emitSync =>
    exact .same _

/-! ## Bounds -/

@[simp] theorem claimStep_id (ids : List Uuid) (d : AssuranceDelivery) :
    (claimStep ids d).id = d.id := by
  unfold claimStep
  split <;> rfl

@[simp] theorem markStep_id (id : Uuid) (f : AssuranceDelivery → AssuranceDeliveryState)
    (d : AssuranceDelivery) : (markStep id f d).id = d.id := by
  unfold markStep
  split <;> rfl

@[simp] theorem markStep_attempts (id : Uuid) (f : AssuranceDelivery → AssuranceDeliveryState)
    (d : AssuranceDelivery) : (markStep id f d).attempts = d.attempts := by
  unfold markStep
  split <;> rfl

/-- The intents have distinct ids, and none has more attempts than allowed. -/
structure IntentsBounded (maxAttempts : ℕ) (ds : List AssuranceDelivery) : Prop where
  ids : (ds.map (·.id)).Nodup
  attempts : ∀ d ∈ ds, d.attempts ≤ maxAttempts

/-- Claims do not allow more attempts than `maxAttempts`. -/
def ClaimsWithin (maxAttempts : ℕ) : AssuranceCall δ → Prop
  | .claim _ n _ => n ≤ maxAttempts
  | _ => True

theorem claimable_of_contains {maxAttempts : ℕ} (h : (t.deliveries.map (·.id)).Nodup)
    {clusterID : String} {limit : ℕ} {locked d} (hd : d ∈ t.deliveries)
    (hid : (claimedIDs t clusterID maxAttempts limit locked).contains d.id = true) :
    claimable t clusterID maxAttempts locked d = true := by
  obtain ⟨x, hx, hxid⟩ := mem_map.1 (contains_iff_mem.1 hid)
  have hx : x ∈ t.deliveries.filter (claimable t clusterID maxAttempts locked) :=
    (perm_insertionSort _ _).mem_iff.1 (mem_of_mem_take hx)
  obtain ⟨hx, hcl⟩ := mem_filter.1 hx
  rw [← inj_on_of_nodup_map h hx hd hxid]
  exact hcl

theorem IntentsBounded.effect {maxAttempts : ℕ} (h : IntentsBounded maxAttempts t.deliveries)
    (hc : ClaimsWithin maxAttempts c) (hef : IntentEffect t c ds) :
    IntentsBounded maxAttempts ds := by
  cases hef with
  | same => exact h
  | enqueued _ d hid hat =>
    refine ⟨?_, ?_⟩
    · rw [map_append, nodup_append']
      refine ⟨h.ids, nodup_singleton _, ?_⟩
      simpa [disjoint_singleton] using hid
    · intro x hx
      rcases mem_concat hx with hx | hx
      · exact h.attempts x hx
      · rw [hx, hat]
        exact zero_le _
  | claimed clusterID n limit locked =>
    refine ⟨?_, ?_⟩
    · rw [map_map]
      simpa [Function.comp_def] using h.ids
    · intro x' hx'
      obtain ⟨x, hx, rfl⟩ := mem_map.1 hx'
      unfold claimStep
      split
      next hid =>
        have hcl := claimable_of_contains h.ids hx hid
        simp only [claimable, Bool.and_eq_true, decide_eq_true_eq] at hcl
        exact le_trans hcl.1.1.2 hc
      · exact h.attempts x hx
  | marked _ id f =>
    refine ⟨?_, ?_⟩
    · rw [map_map]
      simpa [Function.comp_def] using h.ids
    · intro x' hx'
      obtain ⟨x, hx, rfl⟩ := mem_map.1 hx'
      rw [markStep_attempts]
      exact h.attempts x hx

theorem finished_kept (h : (t.deliveries.map (·.id)).Nodup) (hef : IntentEffect t c ds) {d}
    (hd : d ∈ t.deliveries) (hsa : d.state ≠ .pending) : d ∈ ds := by
  cases hef with
  | same => exact hd
  | enqueued _ x hid hat => exact mem_append_left _ hd
  | claimed clusterID n limit locked =>
    refine mem_map.2 ⟨d, hd, if_neg fun hid => hsa ?_⟩
    have hcl := claimable_of_contains h hd hid
    simp only [claimable, Bool.and_eq_true, decide_eq_true_eq] at hcl
    exact hcl.1.1.1
  | marked _ id f =>
    refine mem_map.2 ⟨d, hd, if_neg fun hpn => hsa ?_⟩
    simp only [pendingWithID, Bool.and_eq_true, decide_eq_true_eq] at hpn
    exact hpn.2

/-! ## Sends against attempts -/

def attemptsIn (ds : List AssuranceDelivery) (id : Uuid) : ℕ :=
  ((ds.filter (·.id = id)).map (·.attempts)).sum

def sendCost : AssuranceCall δ → Uuid → ℕ
  | .emitSync job, id => if job.delivery.id = id then 1 else 0
  | _, _ => 0

def claimGain : (c : AssuranceCall δ) → c.Answer → Uuid → ℕ
  | .claim _ _ _, .ok jobs, id => (jobs.map (·.delivery.id)).count id
  | _, _, _ => 0

theorem attemptsIn_cons (x : AssuranceDelivery) (ds : List AssuranceDelivery) (id : Uuid) :
    attemptsIn (x :: ds) id = (if x.id = id then x.attempts else 0) + attemptsIn ds id := by
  unfold attemptsIn
  by_cases hid : x.id = id
  · simp [hid]
  · simp [hid]

theorem attemptsIn_eq_zero {id : Uuid} (h : id ∉ ds.map (·.id)) : attemptsIn ds id = 0 := by
  have hno : ds.filter (·.id = id) = [] := by
    refine filter_eq_nil_iff.2 fun d hd hid => h ?_
    rw [← of_decide_eq_true hid]
    exact mem_map_of_mem hd
  simp [attemptsIn, hno]

theorem attemptsIn_eq {d} (h : (ds.map (·.id)).Nodup) (hd : d ∈ ds) :
    attemptsIn ds d.id = d.attempts := by
  induction ds with
  | nil => cases hd
  | cons x ds ih =>
    rw [map_cons, nodup_cons] at h
    rw [attemptsIn_cons]
    rcases mem_cons.1 hd with rfl | hd
    · rw [if_pos rfl, attemptsIn_eq_zero h.1, add_zero]
    · have hne : x.id ≠ d.id := by
        intro hid
        refine h.1 ?_
        rw [hid]
        exact mem_map_of_mem hd
      rw [if_neg hne, zero_add, ih h.2 hd]

theorem attemptsIn_append (x : AssuranceDelivery) (hat : x.attempts = 0) (id : Uuid) :
    attemptsIn (ds ++ [x]) id = attemptsIn ds id := by
  induction ds with
  | nil => simp [attemptsIn_cons, hat]
  | cons y ds ih => rw [cons_append, attemptsIn_cons, ih, attemptsIn_cons]

theorem attemptsIn_marked (markID : Uuid) (f : AssuranceDelivery → AssuranceDeliveryState)
    (id : Uuid) : attemptsIn (ds.map (markStep markID f)) id = attemptsIn ds id := by
  induction ds with
  | nil => rfl
  | cons x ds ih =>
    rw [map_cons, attemptsIn_cons, markStep_id, markStep_attempts, ih, attemptsIn_cons]

theorem claimStep_attempts (ids : List Uuid) (d : AssuranceDelivery) :
    (claimStep ids d).attempts = d.attempts + if ids.contains d.id then 1 else 0 := by
  unfold claimStep
  split <;> rfl

theorem attemptsIn_claimed (ids : List Uuid) (id : Uuid) : attemptsIn (ds.map (claimStep ids)) id =
      attemptsIn ds id + ((ds.filter (ids.contains ·.id)).map (·.id)).count id := by
  induction ds with
  | nil => rfl
  | cons x ds ih =>
    rw [map_cons, attemptsIn_cons, attemptsIn_cons, claimStep_id, claimStep_attempts, ih,
      filter_cons]
    by_cases hcla : ids.contains x.id = true
    · rw [if_pos hcla, if_pos hcla, map_cons, count_cons]
      by_cases hid : x.id = id
      · simp only [hid, if_true, BEq.rfl]
        omega
      · simp only [hid, if_false, beq_iff_eq]
        omega
    · rw [if_neg hcla, if_neg hcla, add_zero, add_assoc]

theorem attemptsIn_le (hef : IntentEffect t c ds) (id : Uuid) :
    attemptsIn t.deliveries id ≤ attemptsIn ds id := by
  cases hef with
  | same => exact le_rfl
  | enqueued _ d hid hat => rw [attemptsIn_append d hat]
  | claimed clusterID n limit locked =>
    rw [attemptsIn_claimed]
    exact le_add_right _ _
  | marked _ markID f => rw [attemptsIn_marked]

theorem count_claimedJobs_le (ids : List Uuid) (id : Uuid) :
    ((claimedJobs t ids).map (·.delivery.id)).count id ≤
      ((t.deliveries.filter (ids.contains ·.id)).map (·.id)).count id := by
  have hsub : ∀ l : List AssuranceDelivery,
      ((l.filterMap fun d => (t.exceptions.find? (·.id = d.exceptionID)).map
        fun e => (⟨d.claimed, e⟩ : AssuranceDeliveryJob δ)).map (·.delivery.id)).Sublist
        (l.map (·.id)) := by
    intro l
    induction l with
    | nil => exact .refl _
    | cons x l ih =>
      cases hfd : t.exceptions.find? (·.id = x.exceptionID) with
      | none =>
        rw [filterMap_cons_none (by rw [hfd]; rfl), map_cons]
        exact ih.cons _
      | some e =>
        rw [filterMap_cons_some (by rw [hfd]; rfl), map_cons, map_cons]
        exact ih.cons_cons _
  refine ((hsub _).count_le id).trans ?_
  rw [((perm_insertionSort _ _).map _).count_eq]

theorem attempts_earned (c : AssuranceCall δ) (w : AssuranceChoice) (t : AssuranceTables δ)
    (id : Uuid) :
    attemptsIn t.deliveries id + claimGain c (assuranceExec newSHA1 c w t).1 id ≤
      attemptsIn (assuranceExec newSHA1 c w t).2.deliveries id := by
  have hle : attemptsIn t.deliveries id ≤
      attemptsIn (assuranceExec newSHA1 c w t).2.deliveries id :=
    attemptsIn_le (intent_effect c w t) id
  cases c with
  | claim clusterID n limit =>
    cases hfl : w.fault with
    | noFault =>
      simp only [assuranceExec, hfl, AssuranceFault.transact]
      show _ + ((claimedJobs t _).map (·.delivery.id)).count id ≤
        attemptsIn (t.deliveries.map (claimStep _)) id
      rw [attemptsIn_claimed]
      exact Nat.add_le_add_left (count_claimedJobs_le _ id) _
    | rolledBack | lostReply =>
      simp only [assuranceExec, hfl, AssuranceFault.transact] at hle ⊢
      exact hle
  | _ => exact hle

theorem sends_cost (c : AssuranceCall δ) (w : AssuranceChoice) (t : AssuranceTables δ) (id : Uuid) :
    (assuranceExec newSHA1 c w t).2.sends.count id ≤ t.sends.count id + sendCost c id := by
  let P (u : AssuranceTables δ) : Prop := u.sends.count id ≤ t.sends.count id + sendCost c id
  have hsm : P t := le_add_right _ _
  cases c with
  | emitSync job =>
    show (t.sends ++ [job.delivery.id]).count id ≤ _
    rw [count_append, count_singleton]
    simp only [sendCost, beq_iff_eq, le_refl]
  | insertOpen e =>
    refine transact_keeps (P := P) _ hsm fun r u h => ?_
    rcases insertOpenException_spec h with ⟨-, rfl⟩ | ⟨-, -, -, h⟩
    · exact hsm
    · obtain ⟨-, rfl, -⟩ := enqueueDelivery_spec h
      exact hsm
  | updateResolved id time reason =>
    refine transact_keeps (P := P) _ hsm fun b u h => ?_
    rcases updateResolved_spec h with ⟨-, rfl, -⟩ | ⟨-, -, h⟩
    · exact hsm
    · obtain ⟨-, rfl, -⟩ := enqueueDelivery_spec h
      exact hsm
  | claim | updateDelivered | updateFailed | updateObserved =>
    exact transact_some_keeps (P := P) _ hsm hsm
  | findOpen | probeID | probePolicy | probeState | listOpen | newID | ctxErr => exact hsm

end KubeCenter.Store
