import KubeCenter.Store.AssuranceIntents
import KubeCenter.Velero.Reconciliation

/-! # Transitions and their notifications, on any number of replicas

Any number of replicas reconcile and drain over one set of tables, with the lease or without it. A
call may be rolled back, its answer lost, and a replica lost between two calls. -/
namespace KubeCenter.Velero

open Lib Go Store List

/-! ## The replicas -/

inductive AssuranceJob where
  | reconcile (clusterID : String) (now : Time) (obs : Observation) (findings : List Finding)
  | drain (clusterID : String)

def AssuranceJob.program : AssuranceJob → AssuranceProgram Detail PUnit
  | .reconcile clusterID now obs findings =>
    (reconcileTick clusterID now obs findings).bind fun _ => .done ⟨⟩
  | .drain clusterID => (drainDeliveries clusterID).bind fun _ => .done ⟨⟩

abbrev ReplicaAction (n : ℕ) := PoolAction AssuranceChoice AssuranceJob n

/-- The tables after a run of `n` replicas that begins with policies only. -/
def tablesAfter (newSHA1 : Uuid → String → Uuid) (policies : List BackupAssurancePolicy) {n : ℕ}
    (as : List (ReplicaAction n)) : AssuranceTables Detail :=
  ((pool (assuranceExec newSHA1) AssuranceJob.program { policies } n).run as).shared

/-! ## Their calls -/

/-- The calls of a tick that reconciles: nothing is claimed and nothing is sent. -/
def Reconciling : AssuranceCall Detail → Prop
  | .updateResolved _ _ _ | .listOpen _ => True
  | c => Opening c

theorem only_reconcileTick (clusterID : String) (now : Time) (obs : Observation)
    (findings : List Finding) :
    (reconcileTick clusterID now obs findings).Only Reconciling := by
  have hop : ∀ c, Opening c → Reconciling c := by
    intro c hc
    cases c with
    | updateResolved | listOpen => trivial
    | _ => exact hc
  refine (Program.only_request trivial).andThen fun rows => ?_
  refine (Program.only_loop (fun f _ p =>
    (only_reconcileFinding clusterID now rows p f).mono hop) _).andThen fun p => ?_
  split
  · trivial
  · refine (Program.only_loop (fun e _ b => ?_) ()).andThen fun _ => trivial
    unfold resolveUnmatched
    split
    · trivial
    · exact (only_resolveException trivial).andThen fun _ => trivial

theorem only_mark {P} (id : Uuid) (outcome : EmitOutcome) (hdl : P (.updateDelivered id))
    (hfl : P (.updateFailed id assuranceMaxDeliveryAttempts)) : (mark id outcome).Only P := by
  cases outcome with
  | delivered =>
    refine (Program.only_request hdl).andThen fun b => ?_
    cases b <;> trivial
  | error | notDelivered =>
    refine (Program.only_request hfl).andThen fun b => ?_
    cases b <;> trivial

theorem only_deliver {P} (j : AssuranceDeliveryJob Detail) (hctx : P .ctxErr)
    (hem : P (.emitSync j)) (hdl : P (.updateDelivered j.delivery.id))
    (hfl : P (.updateFailed j.delivery.id assuranceMaxDeliveryAttempts)) (b : Unit) :
    (deliver b j).Only P := by
  refine (Program.only_request hctx).bind fun ended => ?_
  cases ended with
  | true => trivial
  | false =>
    refine (Program.only_request hem).bind fun outcome => ?_
    refine (only_mark j.delivery.id outcome hdl hfl).bind fun r => ?_
    split
    · trivial
    · trivial

theorem only_claimsWithin (job : AssuranceJob) :
    job.program.Only (ClaimsWithin assuranceMaxDeliveryAttempts) := by
  cases job with
  | reconcile clusterID now obs findings =>
    refine Program.Only.bind ?_ fun _ => trivial
    refine (only_reconcileTick clusterID now obs findings).mono fun c hc => ?_
    cases c with
    | claim => exact hc.elim
    | _ => trivial
  | drain clusterID =>
    refine Program.Only.bind ?_ fun _ => trivial
    refine (Program.only_request trivial).bind fun ended => ?_
    cases ended with
    | true => trivial
    | false =>
      have hcl : (claimPendingDeliveries clusterID assuranceMaxDeliveryAttempts
          assuranceDeliveryBatch).Only
          (ClaimsWithin (δ := Detail) assuranceMaxDeliveryAttempts) := by
        unfold claimPendingDeliveries
        split
        · trivial
        · split
          · trivial
          · exact Program.only_request le_rfl
      exact hcl.andThen fun jobs =>
        Program.only_loop (fun j _ b => only_deliver j trivial trivial trivial trivial b) ()

/-! ## Their sends -/

def oneSend (j : AssuranceDeliveryJob Detail) (id : Uuid) : ℕ := if j.delivery.id = id then 1 else 0

theorem sum_oneSend (jobs : List (AssuranceDeliveryJob Detail)) (id : Uuid) :
    (jobs.map oneSend).sum id = (jobs.map (·.delivery.id)).count id := by
  induction jobs with
  | nil => rfl
  | cons j jobs ih =>
    rw [map_cons, sum_cons, Pi.add_apply, ih, map_cons, count_cons]
    simp only [oneSend, beq_iff_eq]
    exact Nat.add_comm _ _

theorem affordable_deliver (b : Unit) (j : AssuranceDeliveryJob Detail) :
    (deliver b j).Affordable sendCost claimGain (oneSend j) := by
  refine ⟨fun _ => Nat.zero_le _, fun ended => ?_⟩
  cases ended with
  | true => trivial
  | false =>
    refine ⟨fun id => ?_, fun outcome => ?_⟩
    · show oneSend j id ≤ oneSend j id - 0 + 0
      exact le_rfl
    · refine Program.Only.affordable ?_ _
      refine (only_mark (P := fun c => sendCost c = 0) j.delivery.id outcome rfl rfl).bind
        fun r => ?_
      split
      · trivial
      · trivial

theorem affordable_drain (clusterID : String) :
    (drainDeliveries clusterID).Affordable sendCost claimGain 0 := by
  refine ⟨fun _ => Nat.zero_le _, fun ended => ?_⟩
  cases ended with
  | true => trivial
  | false =>
    by_cases hcu : clusterID = ""
    · have hcl : claimPendingDeliveries (δ := Detail) clusterID assuranceMaxDeliveryAttempts
          assuranceDeliveryBatch = .done (.error
            (.refused "claim backup_assurance_deliveries: cluster id is required")) :=
        if_pos hcu
      show Program.Affordable sendCost claimGain _
        (Program.andThen (claimPendingDeliveries _ _ _) _)
      rw [hcl]
      trivial
    · have hcl : claimPendingDeliveries (δ := Detail) clusterID assuranceMaxDeliveryAttempts
          assuranceDeliveryBatch =
            ask (.claim clusterID assuranceMaxDeliveryAttempts assuranceDeliveryBatch) := by
        unfold claimPendingDeliveries
        rw [if_neg hcu, if_neg (by decide)]
      show Program.Affordable sendCost claimGain _
        (Program.andThen (claimPendingDeliveries _ _ _) _)
      rw [hcl]
      refine ⟨fun _ => Nat.zero_le _, fun answer => ?_⟩
      cases answer with
      | error err => trivial
      | ok jobs =>
        refine (Program.affordable_loop affordable_deliver jobs ()).mono fun id => ?_
        rw [sum_oneSend]
        exact Nat.le_add_left _ _

theorem affordable_program (job : AssuranceJob) : job.program.Affordable sendCost claimGain 0 := by
  cases job with
  | reconcile clusterID now obs findings =>
    refine Program.Only.affordable ?_ 0
    refine Program.Only.bind ?_ fun _ => trivial
    refine (only_reconcileTick clusterID now obs findings).mono fun c hc => ?_
    cases c with
    | emitSync => exact hc.elim
    | _ => rfl
  | drain clusterID =>
    have hdn : ∀ _ : Except AssuranceError Unit, (Program.done ⟨⟩ :
        AssuranceProgram Detail PUnit).Affordable sendCost claimGain 0 := fun _ => trivial
    refine ((affordable_drain clusterID).bind hdn).mono ?_
    rw [add_zero]

/-! ## Every run -/

/-- What every call keeps. -/
structure TablesKept (t : AssuranceTables Detail) : Prop where
  ledger : t.ledger.InStep
  intents : IntentsBounded assuranceMaxDeliveryAttempts t.deliveries

theorem TablesKept.exec {newSHA1 c} (w : AssuranceChoice) {t}
    (hc : ClaimsWithin assuranceMaxDeliveryAttempts c) (h : TablesKept t) :
    TablesKept (assuranceExec newSHA1 c w t).2 where
  ledger := h.ledger.move (ledger_move c w t)
  intents := h.intents.effect hc (intent_effect c w t)

theorem tablesKept_start (policies : List BackupAssurancePolicy) :
    TablesKept { policies := policies } where
  ledger :=
    { ids := nodup_nil
      identities := nodup_nil
      once := nodup_nil
      owned := fun _ h => absurd h not_mem_nil
      opened := fun _ h => absurd h not_mem_nil
      resolved := fun _ h => absurd h not_mem_nil }
  intents := ⟨nodup_nil, fun _ h => absurd h not_mem_nil⟩

section Runs

variable (newSHA1 : Uuid → String → Uuid) (policies : List BackupAssurancePolicy) {n : ℕ}
  (as bs : List (ReplicaAction n))

theorem tablesKept_after : TablesKept (tablesAfter newSHA1 policies as) :=
  pool_inv only_claimsWithin (tablesKept_start policies) (fun _ w _ hc ht => ht.exec w hc) as

theorem stays {Q : AssuranceTables Detail → Prop}
    (hst : ∀ c w t, TablesKept t → Q t → Q (assuranceExec newSHA1 c w t).2)
    (h : Q (tablesAfter newSHA1 policies as)) : Q (tablesAfter newSHA1 policies (as ++ bs)) :=
  pool_stable only_claimsWithin (tablesKept_start policies) (fun _ w _ hc ht => ht.exec w hc)
    (fun c w t _ ht hQ => hst c w t ht hQ) as bs h

theorem resolved_stays {r : LedgerRow} (hr : r ∈ (tablesAfter newSHA1 policies as).ledger.rows)
    (hsa : r.state = .stateResolved) :
    r ∈ (tablesAfter newSHA1 policies (as ++ bs)).ledger.rows :=
  stays (Q := fun t => r ∈ t.ledger.rows) newSHA1 policies as bs
    (fun c w t _ ht => (ledger_move c w t).keeps_resolved ht hsa) hr

theorem finished_stays {d : AssuranceDelivery}
    (hd : d ∈ (tablesAfter newSHA1 policies as).deliveries) (hsa : d.state ≠ .pending) :
    d ∈ (tablesAfter newSHA1 policies (as ++ bs)).deliveries :=
  stays (Q := fun t => d ∈ t.deliveries) newSHA1 policies as bs
    (fun c w t ht hd => finished_kept ht.intents.ids (intent_effect c w t) hd hsa) hd

theorem sends_le_attempts (id : Uuid) : (tablesAfter newSHA1 policies as).sends.count id ≤
      attemptsIn (tablesAfter newSHA1 policies as).deliveries id := by
  refine pool_solvent (fun t id => attemptsIn t.deliveries id) (fun t id => t.sends.count id)
    only_claimsWithin (tablesKept_start policies) (fun _ w _ hc ht => ht.exec w hc)
    (fun _ => Nat.zero_le _) ?_ ?_ affordable_program as id
  · intro c w t _ _ id
    exact attempts_earned c w t id
  · intro c w t _ _ id
    exact sends_cost c w t id

end Runs

/-! ## Transitions in step with their intents -/

def intentCount (t : AssuranceTables Detail) (id : Uuid) (transition : AssuranceTransition) : ℕ :=
  (t.deliveries.filter fun d => d.exceptionID = id && d.transition = transition).length

theorem intentCount_eq (t : AssuranceTables Detail) (id : Uuid) (transition : AssuranceTransition) :
    intentCount t id transition = t.ledger.intents.count (id, transition) := by
  show _ = (t.deliveries.map (·.intent)).count (id, transition)
  rw [intentCount, count_eq_countP, countP_map, countP_eq_length_filter]
  congr 2

structure TransitionsInStep (t : AssuranceTables Detail) : Prop where
  identities : ((t.exceptions.filter (·.state = .stateOpen)).map (·.identity)).Nodup
  opened : ∀ e ∈ t.exceptions, intentCount t e.id .opened = 1
  resolved : ∀ e ∈ t.exceptions,
    intentCount t e.id .resolved = if e.state = .stateResolved then 1 else 0
  attempts : ∀ d ∈ t.deliveries, d.attempts ≤ assuranceMaxDeliveryAttempts
  sends : ∀ d ∈ t.deliveries, t.sends.count d.id ≤ d.attempts

/-- What is resolved, delivered or failed in `t` is so in `u`. -/
structure FinalIn (t u : AssuranceTables Detail) : Prop where
  resolved : ∀ e ∈ t.exceptions, e.state = .stateResolved →
    ∀ e' ∈ u.exceptions, e'.id = e.id → e'.state = .stateResolved
  intents : ∀ d ∈ t.deliveries, d.state ≠ .pending →
    ∀ d' ∈ u.deliveries, d'.id = d.id → d'.state = d.state

/-- Every interleaving on any number of replicas, with any call rolled back or its answer lost and
any replica lost on the way. -/
theorem transitions_in_step (newSHA1 : Uuid → String → Uuid)
    (policies : List BackupAssurancePolicy) (n : ℕ) (as : List (ReplicaAction n)) :
    TransitionsInStep (tablesAfter newSHA1 policies as) ∧ ∀ bs,
        FinalIn (tablesAfter newSHA1 policies as) (tablesAfter newSHA1 policies (as ++ bs)) := by
  have hkp := tablesKept_after newSHA1 policies as
  refine ⟨⟨?_, ?_, ?_, hkp.intents.attempts, ?_⟩, fun bs => ⟨?_, ?_⟩⟩
  · have hide := hkp.ledger.identities
    rw [AssuranceTables.ledger, filter_map, map_map] at hide
    exact hide
  · intro e he
    rw [intentCount_eq]
    exact count_eq_one_of_mem hkp.ledger.once (hkp.ledger.opened _ (mem_rows he))
  · intro e he
    rw [intentCount_eq]
    have hres := hkp.ledger.resolved _ (mem_rows he)
    split
    next hsa => exact count_eq_one_of_mem hkp.ledger.once (hres.1 hsa)
    next hsa => exact count_eq_zero.2 fun hmem => hsa (hres.2 hmem)
  · intro d hd
    rw [← attemptsIn_eq hkp.intents.ids hd]
    exact sends_le_attempts newSHA1 policies as d.id
  · intro e he hsa e' he' hid
    have hrow := resolved_stays newSHA1 policies as bs (mem_rows he) hsa
    have hlt := (tablesKept_after newSHA1 policies (as ++ bs)).ledger
    have hsm := hlt.eq_of_id (mem_rows he') hrow hid
    exact (congrArg LedgerRow.state hsm).trans hsa
  · intro d hd hsa d' hd' hid
    have hsta := finished_stays newSHA1 policies as bs hd hsa
    have hlt := (tablesKept_after newSHA1 policies (as ++ bs)).intents
    rw [inj_on_of_nodup_map hlt.ids hd' hsta hid]

end KubeCenter.Velero
