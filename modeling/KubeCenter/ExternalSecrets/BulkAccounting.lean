import KubeCenter.ExternalSecrets.BulkRefresh

/-! # What a bulk refresh job says of its targets

The results of a job's patch calls reach its row in batches, the last unless a patch panicked.
`Insert` writes `null` into the two JSON columns, and the first batch makes it the first element of
an array: an outcome with no UID and no reason. -/
namespace KubeCenter.ExternalSecrets

open Lib Lib.Go List Nat

/-! ## Rows -/

section Rows

variable {rows : List JobRow} {id id' : Uuid} {f : JobRow → JobRow}

theorem rowOf_cons (r : JobRow) (rows : List JobRow) (id : Uuid) :
    rowOf (r :: rows) id = if r.id = id then some r else rowOf rows id := by
  by_cases h : r.id = id <;> simp [rowOf, h]

theorem rowOf_id {r : JobRow} (h : rowOf rows id = some r) : r.id = id := by
  simpa using find?_some h

def Amends (f : JobRow → JobRow) : Prop := ∀ r, (f r).id = r.id ∧ (f r).targetUIDs = r.targetUIDs

section

variable (hf : Amends f)
include hf

theorem rowOf_updateRow : rowOf (updateRow rows id f) id' =
    (rowOf rows id').map fun r => if r.id = id then f r else r := by
  induction rows with
  | nil => rfl
  | cons r rows ih =>
    have hid : (if r.id = id then f r else r).id = r.id := by
      split
      · exact (hf r).1
      · rfl
    have hco : updateRow (r :: rows) id f =
        (if r.id = id then f r else r) :: updateRow rows id f := rfl
    rw [hco, rowOf_cons, hid, rowOf_cons, ih]
    split <;> rfl

theorem rowOf_updateRow_self : rowOf (updateRow rows id f) id = (rowOf rows id).map f := by
  rw [rowOf_updateRow hf]
  cases h : rowOf rows id with
  | none => rfl
  | some r => exact congrArg some (if_pos (rowOf_id h))

theorem rowOf_updateRow_of_ne (hne : id' ≠ id) :
    rowOf (updateRow rows id f) id' = rowOf rows id' := by
  rw [rowOf_updateRow hf]
  cases h : rowOf rows id' with
  | none => rfl
  | some r => exact congrArg some (if_neg fun he => hne ((rowOf_id h).symm.trans he))

theorem rowOf_updateRow_eq_none :
    rowOf (updateRow rows id f) id' = none ↔ rowOf rows id' = none := by
  rw [rowOf_updateRow hf, Option.map_eq_none_iff]

theorem updateRow_updateRow :
    updateRow (updateRow rows id f) id g = updateRow rows id fun r => g (f r) := by
  rw [updateRow, updateRow, map_map]
  refine map_congr_left fun r _ => ?_
  by_cases h : r.id = id
  · simp [h, (hf r).1]
  · simp [h]

theorem Amends.comp (hg : Amends g) : Amends fun r => g (f r) :=
  fun r => ⟨(hg _).1.trans (hf r).1, (hg _).2.trans (hf r).2⟩

end

theorem amends_id : Amends fun r => r := fun _ => ⟨rfl, rfl⟩

theorem updateRow_id : updateRow rows id (fun r => r) = rows := by
  simp [updateRow]

theorem rowOf_insert (rows : List JobRow) (r : JobRow) (id : Uuid) :
    rowOf (rows ++ [r]) id = (rowOf rows id).or (if r.id = id then some r else none) := by
  rw [rowOf, find?_append, rowOf]
  by_cases h : r.id = id <;> simp [h]

def JobRow.flush (b : BulkOutcomeBatch) (r : JobRow) : JobRow :=
  if b.size = 0 then r else r.append b

theorem amends_flush (b : BulkOutcomeBatch) : Amends (JobRow.flush b) := by
  intro r
  unfold JobRow.flush
  split <;> exact ⟨rfl, rfl⟩

theorem appendOutcomes_eq (b : BulkOutcomeBatch) :
    appendOutcomes rows id b = updateRow rows id (JobRow.flush b) := by
  unfold appendOutcomes
  split
  next h =>
    have hid : JobRow.flush b = fun r => r := funext fun r => if_pos h
    rw [hid, updateRow_id]
  next h =>
    have hap : JobRow.flush b = JobRow.append b := funext fun r => if_neg h
    rw [hap]

def JobRow.close (r : JobRow) : JobRow := { r with completed := true }

theorem amends_close : Amends JobRow.close := fun _ => ⟨rfl, rfl⟩

theorem complete_eq : complete rows id = updateRow rows id JobRow.close := rfl

end Rows

/-! ## Results -/

abbrev Result := String × OutcomeClass

section

variable (rs : List Result)

def succeededOf : List String :=
  rs.filterMap fun r => match r.2 with
    | .succeeded => some r.1
    | _ => none

def failedOf : List BulkRefreshOutcome :=
  rs.filterMap fun r => match r.2 with
    | .failed reason => some ⟨r.1, reason⟩
    | _ => none

def skippedOf : List BulkRefreshOutcome :=
  rs.filterMap fun r => match r.2 with
    | .skipped reason => some ⟨r.1, reason⟩
    | _ => none

def batchOf : BulkOutcomeBatch := ⟨succeededOf rs, failedOf rs, skippedOf rs⟩

theorem batchOf_concat (uid : String) (c : OutcomeClass) :
    (batchOf rs).add uid c = batchOf (rs ++ [(uid, c)]) := by
  cases c <;> simp [batchOf, BulkOutcomeBatch.add, succeededOf, failedOf, skippedOf]

theorem size_batchOf : (batchOf rs).size = rs.length := by
  induction rs using List.reverseRecOn with
  | nil => rfl
  | append_singleton rs r ih =>
    obtain ⟨uid, c⟩ := r
    rw [← batchOf_concat, length_append, ← ih]
    cases c <;> simp [BulkOutcomeBatch.add, BulkOutcomeBatch.size] <;> omega

end

/-- A JSON column: `null` until a batch is written, an array that begins with it afterwards. -/
def column (written : Bool) (outs : List BulkRefreshOutcome) : Json :=
  if written then .arr (.null :: outs.map BulkRefreshOutcome.json) else .null

def panicEntry (panicked : Bool) : List BulkRefreshOutcome :=
  if panicked then [⟨"", "worker_panic"⟩] else []

def written (rs : List Result) (panicked : Bool) : Bool := !rs.isEmpty || panicked

variable {rs : List Result} {r : JobRow}

theorem eq_nil_of_not_written {p : Bool} (h : written rs p = false) : rs = [] := by
  cases rs with
  | nil => rfl
  | cons r rs => cases h

structure Shows (r : JobRow) (rs : List Result) (panicked : Bool) : Prop where
  succeeded : r.succeeded = succeededOf rs
  failed : r.failed = column (written rs panicked) (failedOf rs ++ panicEntry panicked)
  skipped : r.skipped = column (written rs panicked) (skippedOf rs)

theorem marshalOutcomes_eq (outs : List BulkRefreshOutcome) :
    marshalOutcomes outs = .arr (outs.map BulkRefreshOutcome.json) := by
  unfold marshalOutcomes
  split
  next h =>
    rw [h]
    rfl
  · rfl

theorem column_concat (written : Bool) (outs outs' : List BulkRefreshOutcome)
    (h : written = false → outs = []) :
    jsonbConcat (column written outs) (marshalOutcomes outs') = column true (outs ++ outs') := by
  rw [marshalOutcomes_eq]
  cases written with
  | false => simp [column, jsonbConcat, jsonbElements, h rfl]
  | true => simp [column, jsonbConcat, jsonbElements]

theorem Shows.append {rs'} (h : Shows r rs false) (hne : rs' ≠ []) :
    Shows (r.append (batchOf rs')) (rs ++ rs') false := by
  have hwr : written (rs ++ rs') false = true := by
    simp [written, hne]
  have hfa : failedOf (rs ++ rs') ++ panicEntry false =
      (failedOf rs ++ panicEntry false) ++ failedOf rs' := by
    simp [failedOf, panicEntry]
  have hsk : skippedOf (rs ++ rs') = skippedOf rs ++ skippedOf rs' := by
    simp [skippedOf]
  constructor
  · simp [JobRow.append, batchOf, h.succeeded, succeededOf]
  · rw [hwr, hfa, JobRow.append, h.failed]
    exact column_concat _ _ _ fun hf => by rw [eq_nil_of_not_written hf]; rfl
  · rw [hwr, hsk, JobRow.append, h.skipped]
    exact column_concat _ _ _ fun hf => by rw [eq_nil_of_not_written hf]; rfl

theorem Shows.flush {rs'} (h : Shows r rs false) :
    Shows (r.flush (batchOf rs')) (rs ++ rs') false := by
  unfold JobRow.flush
  rw [size_batchOf]
  split
  next hem =>
    rw [length_eq_zero_iff.mp hem, append_nil]
    exact h
  next hne => exact h.append fun hnil => hne (by rw [hnil]; rfl)

theorem Shows.panic (h : Shows r rs false) :
    Shows (r.flush { failed := [⟨"", "worker_panic"⟩] }) rs true := by
  have hwr : written rs true = true := by simp [written]
  have hflu : r.flush { failed := [⟨"", "worker_panic"⟩] } =
      r.append { failed := [⟨"", "worker_panic"⟩] } := rfl
  rw [hflu]
  constructor
  · simp [JobRow.append, h.succeeded]
  · have hold : r.failed = column (written rs false) (failedOf rs) := by
      simpa [panicEntry] using h.failed
    rw [hwr, JobRow.append, hold]
    exact column_concat _ _ _ fun hf => by rw [eq_nil_of_not_written hf]; rfl
  · rw [hwr, JobRow.append, h.skipped]
    have hmr := column_concat (written rs false) (skippedOf rs) []
      fun hf => by rw [eq_nil_of_not_written hf]; rfl
    rw [append_nil] at hmr
    exact hmr

theorem Shows.close {p : Bool} (h : Shows r rs p) :
    Shows r.close rs p := ⟨h.succeeded, h.failed, h.skipped⟩

/-! ## What a row shows while its job goes on -/

def resultsOf (id : Uuid) (trace : List BulkOutput) : List Result :=
  trace.filterMap fun o => match o with
    | .returned id' uid result => if id' = id then some (uid, classify result) else none
    | _ => none

def panickedIn (id : Uuid) (trace : List BulkOutput) : Bool :=
  trace.any fun o => match o with
    | .panicked id' => id' = id
    | _ => false

/-- The results that are written: a panic loses those of the batch that was not full. -/
def keptOf (rs : List Result) (panicked : Bool) : List Result :=
  if panicked then rs.take (outcomeBatchSize * (rs.length / outcomeBatchSize)) else rs

def BulkSystem.jobs (s : BulkSystem) : List Uuid :=
  match s.worker with
  | .running j => j.msg.jobID :: s.queue.map (·.jobID)
  | _ => s.queue.map (·.jobID)

/-- Full batches are in the row, the rest in the batch, the targets without a result to come. -/
structure InHand (r : JobRow) (j : RunningJob) (rs : List Result) : Prop where
  split : ∃ flushed pending, rs = flushed ++ pending ∧ j.batch = batchOf pending ∧
    pending.length < outcomeBatchSize ∧ outcomeBatchSize ∣ flushed.length ∧ Shows r flushed false
  targets : rs.map Prod.fst ++ (j.target :: j.rest).map (·.uid) = r.targetUIDs
  completed : r.completed = false

inductive Standing (s : BulkSystem) (trace : List BulkOutput) (id : Uuid) (c : Checked) :
    JobRow → Prop
  | queued {r : JobRow} (hqueue : c.message id ∈ s.queue) (hresults : resultsOf id trace = [])
      (hpanic : panickedIn id trace = false) (hshows : Shows r [] false)
      (hcompleted : r.completed = false) : Standing s trace id c r
  | running {r : JobRow} {j : RunningJob} (hworker : s.worker = .running j)
      (hmsg : j.msg = c.message id) (hpanic : panickedIn id trace = false)
      (hinhand : InHand r j (resultsOf id trace)) : Standing s trace id c r
  | finished {r : JobRow} (hgone : id ∉ s.jobs)
      (hshows : Shows r (keptOf (resultsOf id trace) (panickedIn id trace)) (panickedIn id trace))
      (htargets : (resultsOf id trace).map Prod.fst <+: r.targetUIDs)
      (hcompleted : r.completed = true ∨ s.cancelled = true) : Standing s trace id c r

/-- Jobs have numbers of their own, and every accepted one stands somewhere. -/
structure Accounts (s : BulkSystem) (trace : List BulkOutput) : Prop where
  nodup : s.jobs.Nodup
  stored : ∀ id ∈ s.jobs, rowOf s.rows id ≠ none
  unknown : ∀ id, rowOf s.rows id = none → resultsOf id trace = [] ∧ panickedIn id trace = false
  standing : ∀ id c, BulkOutput.accepted id c ∈ trace →
    ∃ r, rowOf s.rows id = some r ∧ r.targetUIDs = c.targets.map (·.uid) ∧ Standing s trace id c r

section Steps

variable {s s' : BulkSystem} {trace : List BulkOutput} {o : BulkOutput} {id : Uuid} {c : Checked}
  {r : JobRow} {j : RunningJob} {rs : List Result} {m : BulkJobMessage}
  {queue : List BulkJobMessage}

theorem resultsOf_concat : resultsOf id (trace ++ [o]) = resultsOf id trace ++ resultsOf id [o] :=
  filterMap_append

theorem panickedIn_concat :
    panickedIn id (trace ++ [o]) = (panickedIn id trace || panickedIn id [o]) :=
  any_append

@[simp] theorem resultsOf_quiet : resultsOf id (trace ++ [.quiet]) = resultsOf id trace :=
  resultsOf_concat.trans (append_nil _)

@[simp] theorem panickedIn_quiet : panickedIn id (trace ++ [.quiet]) = panickedIn id trace :=
  panickedIn_concat.trans (Bool.or_false _)

theorem jobs_of_running (h : s.worker = .running j) :
    s.jobs = j.msg.jobID :: s.queue.map (·.jobID) := by
  rw [BulkSystem.jobs, h]

theorem jobs_of_idle (h : s.worker = .idle) : s.jobs = s.queue.map (·.jobID) := by
  rw [BulkSystem.jobs, h]

theorem mem_jobs_of_running (h : s.worker = .running j) : j.msg.jobID ∈ s.jobs := by
  rw [jobs_of_running h]
  exact mem_cons_self

theorem mem_jobs_of_first (hidl : s.worker = .idle) (hqu : s.queue = m :: queue) :
    m.jobID ∈ s.jobs := by
  rw [jobs_of_idle hidl, hqu]
  exact mem_cons_self

theorem not_mem_queue (hnd : s.jobs.Nodup) (h : s.worker = .running j) :
    j.msg.jobID ∉ s.queue.map (·.jobID) := by
  rw [jobs_of_running h] at hnd
  exact (nodup_cons.mp hnd).1

def Silent (id : Uuid) (o : BulkOutput) : Prop := resultsOf id [o] = [] ∧ panickedIn id [o] = false

theorem Standing.keep (h : Standing s trace id c r)
    (hqu : c.message id ∈ s.queue → c.message id ∈ s'.queue)
    (hwor : ∀ j, s.worker = .running j → j.msg.jobID = id → s'.worker = .running j)
    (hgo : id ∉ s.jobs → id ∉ s'.jobs) (hcn : s.cancelled = true → s'.cancelled = true)
    (ho : Silent id o) : Standing s' (trace ++ [o]) id c r := by
  have hr : resultsOf id (trace ++ [o]) = resultsOf id trace := by
    rw [resultsOf_concat, ho.1, append_nil]
  have hp : panickedIn id (trace ++ [o]) = panickedIn id trace := by
    rw [panickedIn_concat, ho.2, Bool.or_false]
  cases h with
  | queued hq hres hpan hsh hcm =>
    exact .queued (hqu hq) (hr.trans hres) (hp.trans hpan) hsh hcm
  | running hj hmsg hpan hinh =>
    exact .running (hwor _ hj (by rw [hmsg]; rfl)) hmsg (hp.trans hpan) (hr ▸ hinh)
  | finished hg hsh htr hcm =>
    refine .finished (hgo hg) ?_ (hr ▸ htr) (hcm.imp_right hcn)
    rw [hr, hp]
    exact hsh

theorem Standing.inHand (h : Standing s trace j.msg.jobID c r) (hnd : s.jobs.Nodup)
    (hj : s.worker = .running j) : j.msg = c.message j.msg.jobID ∧
      panickedIn j.msg.jobID trace = false ∧ InHand r j (resultsOf j.msg.jobID trace) := by
  cases h with
  | queued hqu => exact absurd (mem_map_of_mem hqu) (not_mem_queue hnd hj)
  | running hwor hmsg hpn hinh =>
    cases hj.symm.trans hwor
    exact ⟨hmsg, hpn, hinh⟩
  | finished hgo =>
    rw [jobs_of_running hj] at hgo
    exact absurd mem_cons_self hgo

variable {k : Uuid}

/-! ### The steps of the worker -/

theorem InHand.record (h : InHand r j rs) (c : OutcomeClass) :
    let batch := j.batch.add j.target.uid c
    let full := outcomeBatchSize ≤ batch.size
    ∃ flushed pending, rs ++ [(j.target.uid, c)] = flushed ++ pending ∧
      (if full then {} else batch) = batchOf pending ∧ pending.length < outcomeBatchSize ∧
        outcomeBatchSize ∣ flushed.length ∧
          Shows (if full then r.flush batch else r) flushed false := by
  intro batch full
  obtain ⟨flushed, pending, rfl, hbt, hln, hdvd, hsh⟩ := h.split
  have hadd : batch = batchOf (pending ++ [(j.target.uid, c)]) := by
    rw [← batchOf_concat, ← hbt]
  have hsz : batch.size = pending.length + 1 := by
    rw [hadd, size_batchOf, length_append, length_singleton]
  by_cases hfl : full
  · refine ⟨flushed ++ (pending ++ [(j.target.uid, c)]), [], by simp, if_pos hfl, by decide, ?_, ?_⟩
    · have hft : pending.length + 1 = outcomeBatchSize := by
        omega
      rw [length_append, length_append, length_singleton, hft]
      exact (Nat.dvd_add_self_right).mpr hdvd
    · rw [if_pos hfl, hadd]
      exact hsh.flush
  · refine ⟨flushed, pending ++ [(j.target.uid, c)], by simp, ?_, ?_, hdvd, ?_⟩
    · rw [if_neg hfl, hadd]
    · have : ¬outcomeBatchSize ≤ batch.size := hfl
      rw [length_append, length_singleton]
      omega
    · rw [if_neg hfl]
      exact hsh

theorem InHand.kept (h : InHand r j rs) : Shows r (keptOf rs true) false := by
  obtain ⟨flushed, pending, rfl, -, hln, ⟨n, hn⟩, hsh⟩ := h.split
  have hqt : (flushed ++ pending).length / outcomeBatchSize = n := by
    rw [length_append, hn, mul_add_div (by decide), div_eq_of_lt hln, add_zero]
  have htk : keptOf (flushed ++ pending) true = flushed := by
    rw [keptOf, if_pos rfl, hqt, ← hn, take_left]
  rw [htk]
  exact hsh

theorem InHand.uids (h : InHand r j rs) : rs.map Prod.fst <+: r.targetUIDs := ⟨_, h.targets⟩

theorem flush_completed (b : BulkOutcomeBatch) (r : JobRow) :
    (r.flush b).completed = r.completed := by
  unfold JobRow.flush
  split <;> rfl

def JobRow.settled (j : RunningJob) (c : OutcomeClass) (r : JobRow) : JobRow :=
  let batch := j.batch.add j.target.uid c
  let full := outcomeBatchSize ≤ batch.size
  let r' := if full then r.flush batch else r
  if j.rest = [] then (r'.flush (if full then {} else batch)).close else r'

theorem amends_settled (j : RunningJob) (c : OutcomeClass) : Amends (JobRow.settled j c) := by
  intro r
  unfold JobRow.settled
  dsimp only
  split_ifs <;> simp [JobRow.close, (amends_flush _ _).1, (amends_flush _ _).2]

theorem settle_rows (s : BulkSystem) (j : RunningJob) (result : Option PatchError) :
    (settle s j result).2.rows =
      updateRow s.rows j.msg.jobID (JobRow.settled j (classify result)) := by
  unfold settle JobRow.settled
  by_cases hfl : outcomeBatchSize ≤ (j.batch.add j.target.uid (classify result)).size <;>
    cases j.rest <;>
    simp [hfl, appendOutcomes_eq, complete_eq, updateRow_updateRow, amends_flush, Amends.comp,
      updateRow_id]

/-- How the job of a result stands after it: completed after the last target, in hand before. -/
theorem settle_standing (hnd : s.jobs.Nodup) (hj : s.worker = .running j)
    (result : Option PatchError) (hmsg : j.msg = c.message j.msg.jobID)
    (hpn : panickedIn j.msg.jobID trace = false)
    (hinh : InHand r j (resultsOf j.msg.jobID trace)) :
    Standing (settle s j result).2 (trace ++ [(settle s j result).1]) j.msg.jobID c
      (r.settled j (classify result)) := by
  obtain ⟨flushed, pending, hsp, hbt, hln, hdvd, hsh⟩ := hinh.record (classify result)
  have hre : resultsOf j.msg.jobID (trace ++ [(settle s j result).1]) =
      flushed ++ pending := by
    rw [resultsOf_concat, ← hsp]
    simp [settle, resultsOf]
  have hpn' : panickedIn j.msg.jobID (trace ++ [(settle s j result).1]) = false := by
    rw [panickedIn_concat, hpn]
    simp [settle, panickedIn]
  have htr : (flushed ++ pending).map Prod.fst ++ j.rest.map (·.uid) =
      (r.settled j (classify result)).targetUIDs := by
    rw [(amends_settled j _ r).2, ← hsp, ← hinh.targets]
    simp
  cases hrs : j.rest with
  | nil =>
    refine .finished ?_ ?_ ?_ (.inl ?_)
    · rw [jobs_of_idle (by simp [settle, hrs])]
      simpa [settle, hrs] using not_mem_queue hnd hj
    · rw [hre, hpn', JobRow.settled, if_pos hrs, hbt]
      exact hsh.flush.close
    · rw [hre]
      exact ⟨_, htr⟩
    · rw [JobRow.settled, if_pos hrs]
      rfl
  | cons next rest =>
    have hne : j.rest ≠ [] := by simp [hrs]
    refine .running (j := ⟨j.msg, next, rest, batchOf pending, .delay⟩) ?_ hmsg hpn' ?_
    · simp only [settle, hrs]
      rw [hbt]
    · rw [hre]
      rw [hrs] at htr
      refine ⟨⟨flushed, pending, rfl, rfl, hln, hdvd, ?_⟩, htr, ?_⟩
      · rw [JobRow.settled, if_neg hne]
        exact hsh
      · rw [JobRow.settled, if_neg hne]
        split
        · exact (flush_completed _ _).trans hinh.completed
        · exact hinh.completed

theorem jobs_sublist_of_left (hj : s.worker = .running j) (hidl : s'.worker = .idle)
    (hqu : s'.queue = s.queue) : s'.jobs.Sublist s.jobs := by
  rw [jobs_of_running hj, jobs_of_idle hidl, hqu]
  exact sublist_cons_self _ _

theorem Standing.first (h : Standing s trace m.jobID c r) (hnd : s.jobs.Nodup)
    (hidl : s.worker = .idle) (hqu : s.queue = m :: queue) :
    m = c.message m.jobID ∧ m.jobID ∉ queue.map (·.jobID) ∧ resultsOf m.jobID trace = [] ∧
      panickedIn m.jobID trace = false ∧ Shows r [] false ∧ r.completed = false := by
  rw [jobs_of_idle hidl, hqu, map_cons, nodup_cons] at hnd
  cases h with
  | queued hmem hre hpn hsh hcm =>
    rw [hqu, mem_cons] at hmem
    rcases hmem with hm | hm
    · exact ⟨hm.symm, hnd.1, hre, hpn, hsh, hcm⟩
    · exact absurd (mem_map_of_mem hm) hnd.1
  | running hwor =>
    rw [hidl] at hwor
    cases hwor
  | finished hgo =>
    rw [jobs_of_idle hidl, hqu] at hgo
    exact absurd mem_cons_self hgo

theorem rowOf_inserted_self (hid : rowOf s.rows id = none) :
    rowOf (s.rows ++ [insertedRow (c.job id)]) id = some (insertedRow (c.job id)) := by
  rw [rowOf_insert, hid]
  exact if_pos rfl

theorem rowOf_inserted_of_ne (hne : k ≠ id) :
    rowOf (s.rows ++ [insertedRow (c.job id)]) k = rowOf s.rows k := by
  have hid : (insertedRow (c.job id)).id ≠ k := fun he => hne he.symm
  rw [rowOf_insert, if_neg hid, Option.or_none]

section

variable (h : Accounts s trace)
include h

theorem Accounts.unknown_concat {id : Uuid} (hno : rowOf s.rows id = none) (ho : Silent id o) :
    resultsOf id (trace ++ [o]) = [] ∧ panickedIn id (trace ++ [o]) = false :=
  ⟨by rw [resultsOf_concat, (h.unknown id hno).1, ho.1]; rfl,
    by rw [panickedIn_concat, (h.unknown id hno).2, ho.2]; rfl⟩

/-- A step of the worker on one job `k`: it is enough to say how that one stands. -/
theorem Accounts.act {f} (hf : Amends f) (hk : k ∈ s.jobs)
    (hrw : s'.rows = updateRow s.rows k f) (hjb : s'.jobs.Sublist s.jobs)
    (hqu : ∀ m ∈ s.queue, m.jobID ≠ k → m ∈ s'.queue)
    (hwor : ∀ j, s.worker = .running j → j.msg.jobID = k)
    (hcn : s.cancelled = true → s'.cancelled = true)
    (ho : ∀ id, id ≠ k → Silent id o)
    (hnew : ∀ id c, o ≠ .accepted id c)
    (hown : ∀ c r, r.targetUIDs = c.targets.map (·.uid) → Standing s trace k c r →
      Standing s' (trace ++ [o]) k c (f r)) : Accounts s' (trace ++ [o]) where
  nodup := h.nodup.sublist hjb
  stored := by
    intro id hid hno
    rw [hrw, rowOf_updateRow_eq_none hf] at hno
    exact h.stored id (hjb.subset hid) hno
  unknown := by
    intro id hno
    rw [hrw, rowOf_updateRow_eq_none hf] at hno
    have hne : id ≠ k := by
      rintro rfl
      exact h.stored id hk hno
    exact h.unknown_concat hno (ho id hne)
  standing := by
    intro id c hmem
    have hold := (mem_concat hmem).resolve_right (hnew id c).symm
    obtain ⟨r, hr, htr, hst⟩ := h.standing id c hold
    rw [hrw]
    by_cases hid : id = k
    · subst hid
      refine ⟨f r, ?_, (hf r).2.trans htr, hown c r htr hst⟩
      rw [rowOf_updateRow_self hf, hr, Option.map_some]
    · refine ⟨r, (rowOf_updateRow_of_ne hf hid).trans hr, htr, hst.keep ?_ ?_ ?_
        hcn (ho id hid)⟩
      · exact fun hq => hqu _ hq hid
      · exact fun j hj hjob => absurd (hjob.symm.trans (hwor j hj)) hid
      · exact fun hgo hmem => hgo (hjb.subset hmem)

/-- The same for the job in hand, which may leave the worker and changes nothing in the queue. -/
theorem Accounts.actInHand (hj : s.worker = .running j) {f}
    (hf : Amends f) (hrw : s'.rows = updateRow s.rows j.msg.jobID f)
    (hqu : s'.queue = s.queue) (hjb : s'.jobs.Sublist s.jobs)
    (hcn : s'.cancelled = s.cancelled)
    (ho : ∀ id, id ≠ j.msg.jobID → Silent id o)
    (hnew : ∀ id c, o ≠ .accepted id c)
    (hown : ∀ c r, j.msg = c.message j.msg.jobID → panickedIn j.msg.jobID trace = false →
      InHand r j (resultsOf j.msg.jobID trace) →
      Standing s' (trace ++ [o]) j.msg.jobID c (f r)) : Accounts s' (trace ++ [o]) := by
  refine h.act hf (mem_jobs_of_running hj) hrw hjb (fun _ hm _ => hqu ▸ hm) ?_
    hcn.trans ho hnew ?_
  · intro j' hj'
    cases hj.symm.trans hj'
    rfl
  · intro c r _ hst
    obtain ⟨hmsg, hpn, hinh⟩ := hst.inHand h.nodup hj
    exact hown c r hmsg hpn hinh

theorem Accounts.quiet (hrw : s'.rows = s.rows) (hqu : s'.queue = s.queue)
    (hwor : ∀ j, s.worker = .running j → s'.worker = .running j) (hjb : s'.jobs = s.jobs)
    (hcn : s.cancelled = true → s'.cancelled = true)
    (ho : ∀ id, Silent id o)
    (hnew : ∀ id c, o ≠ .accepted id c) : Accounts s' (trace ++ [o]) := by
  refine ⟨hjb ▸ h.nodup, fun id hid => hrw ▸ h.stored id (hjb ▸ hid), ?_, ?_⟩
  · intro id hno
    rw [hrw] at hno
    exact h.unknown_concat hno (ho id)
  intro id c hmem
  have hold := (mem_concat hmem).resolve_right (hnew id c).symm
  obtain ⟨r, hr, htr, hst⟩ := h.standing id c hold
  refine ⟨r, hrw ▸ hr, htr, hst.keep ?_ ?_ ?_ hcn (ho id)⟩
  · exact fun hq => hqu ▸ hq
  · exact fun j hj _ => hwor j hj
  · exact fun hgo => hjb ▸ hgo

theorem Accounts.insert (hid : rowOf s.rows k = none)
    (hrow : rowOf s'.rows k = some r) (hrw : ∀ id, id ≠ k → rowOf s'.rows id = rowOf s.rows id)
    (hwor : s'.worker = s.worker) (hcn : s'.cancelled = s.cancelled)
    (ho : ∀ id, Silent id o)
    (hqu : s'.queue = s.queue ∨ ∃ m, m.jobID = k ∧ s'.queue = s.queue ++ [m])
    (hnew : ∀ id c, o = .accepted id c → id = k ∧ r.targetUIDs = c.targets.map (·.uid) ∧
      Standing s' (trace ++ [o]) id c r) : Accounts s' (trace ++ [o]) := by
  have hfr : k ∉ s.jobs := fun hmem => h.stored _ hmem hid
  have hjb : s'.jobs = s.jobs ∨ s'.jobs = s.jobs ++ [k] := by
    rcases hqu with hq | ⟨m, hm, hq⟩
    · exact .inl (by rw [BulkSystem.jobs, hwor, hq]; rfl)
    · refine .inr ?_
      simp only [BulkSystem.jobs, hwor, hq, map_append, map_cons, map_nil, hm]
      cases s.worker <;> simp
  have hmem : ∀ id, id ∈ s'.jobs → id = k ∨ id ∈ s.jobs := by
    intro id hid
    rcases hjb with he | he
    · exact .inr (he ▸ hid)
    · rw [he, mem_append, mem_singleton] at hid
      exact hid.symm
  refine ⟨?_, ?_, ?_, ?_⟩
  · rcases hjb with he | he
    · exact he ▸ h.nodup
    · rw [he, ← concat_eq_append]
      exact h.nodup.concat hfr
  · intro id hid
    by_cases hk : id = k
    · rw [hk, hrow]
      exact Option.some_ne_none r
    · rw [hrw id hk]
      exact h.stored id ((hmem id hid).resolve_left hk)
  · intro id hno
    rw [hrw id (ne_of_unused hno hrow).symm] at hno
    exact h.unknown_concat hno (ho id)
  · intro id c hacc
    rcases mem_concat hacc with hacc | hacc
    · obtain ⟨r', hr, htr, hst⟩ := h.standing id c hacc
      have hk := ne_of_unused hid hr
      refine ⟨r', (hrw id hk).trans hr, htr, hst.keep ?_ ?_ ?_ hcn.trans (ho id)⟩
      · intro hq
        rcases hqu with he | ⟨m, -, he⟩
        · exact he ▸ hq
        · exact he ▸ mem_append_left _ hq
      · exact fun j hj _ => hwor.trans hj
      · exact fun hgo hmem' => hgo ((hmem id hmem').resolve_left hk)
    · obtain ⟨rfl, htr, hst⟩ := hnew id c hacc.symm
      exact ⟨r, hrow, htr, hst⟩

theorem Accounts.settle (hj : s.worker = .running j) (result : Option PatchError) :
    Accounts (settle s j result).2 (trace ++ [(settle s j result).1]) := by
  refine h.actInHand hj (amends_settled j _) (settle_rows s j result) ?_ ?_ ?_ ?_ ?_
    fun c r => settle_standing h.nodup hj result
  · simp only [ExternalSecrets.settle]
    split <;> rfl
  · rw [jobs_of_running hj]
    cases hrs : j.rest with
    | nil | cons => simp [BulkSystem.jobs, ExternalSecrets.settle, hrs]
  · simp only [ExternalSecrets.settle]
    split <;> rfl
  · intro id hid
    simp [ExternalSecrets.settle, Silent, resultsOf, panickedIn, hid.symm]
  · intro id c hc
    simp [ExternalSecrets.settle] at hc

theorem Accounts.panic (hj : s.worker = .running j) :
    Accounts (recoverPanic s j).2 (trace ++ [(recoverPanic s j).1]) := by
  refine h.actInHand hj ((amends_flush { failed := [⟨"", "worker_panic"⟩] }).comp amends_close) ?_
    rfl (jobs_sublist_of_left hj rfl rfl) rfl ?_ (fun _ _ => nofun) ?_
  · rw [recoverPanic, appendOutcomes_eq, complete_eq, updateRow_updateRow (amends_flush _)]
  · intro id hid
    simp [recoverPanic, Silent, resultsOf, panickedIn, hid.symm]
  · intro c r _ hpn hinh
    have hre : resultsOf j.msg.jobID (trace ++ [(recoverPanic s j).1]) =
        resultsOf j.msg.jobID trace := by
      simp [recoverPanic, resultsOf]
    have hpn' : panickedIn j.msg.jobID (trace ++ [(recoverPanic s j).1]) = true := by
      simp [recoverPanic, panickedIn]
    refine .finished ?_ ?_ ?_ (.inl rfl)
    · rw [jobs_of_idle rfl]
      exact (not_mem_queue h.nodup hj :)
    · rw [hre, hpn']
      exact hinh.kept.panic.close
    · rw [hre]
      exact (amends_flush _ r).2.symm ▸ hinh.uids

theorem Accounts.abandon (hj : s.worker = .running j)
    (hcn : s.cancelled = true) : Accounts (abandon s j) (trace ++ [.quiet]) := by
  refine h.actInHand hj (amends_flush j.batch) (appendOutcomes_eq _) rfl
    (jobs_sublist_of_left hj rfl rfl) rfl (fun _ _ => ⟨rfl, rfl⟩) (fun _ _ => nofun) ?_
  intro c r _ hpn hinh
  obtain ⟨flushed, pending, hsp, hbt, -, -, hsh⟩ := hinh.split
  refine .finished ?_ ?_ ?_ (.inr hcn)
  · rw [jobs_of_idle rfl]
    exact (not_mem_queue h.nodup hj :)
  · rw [resultsOf_quiet, panickedIn_quiet, hpn, hsp, hbt]
    exact hsh.flush
  · rw [resultsOf_quiet]
    exact (amends_flush _ r).2.symm ▸ hinh.uids

theorem Accounts.advance (hj : s.worker = .running j) (phase : Phase)
    (hrw : s'.rows = s.rows) (hqu : s'.queue = s.queue)
    (hwor : s'.worker = .running { j with phase := phase })
    (hcn : s'.cancelled = s.cancelled) : Accounts s' (trace ++ [.quiet]) := by
  refine h.actInHand hj amends_id (hrw.trans updateRow_id.symm) hqu ?_ hcn
    (fun _ _ => ⟨rfl, rfl⟩) (fun _ _ => nofun) ?_
  · rw [jobs_of_running hj, jobs_of_running hwor, hqu]
  · intro c r hmsg hpn hinh
    refine .running hwor hmsg (panickedIn_quiet.trans hpn) ?_
    rw [resultsOf_quiet]
    exact ⟨hinh.split, hinh.targets, hinh.completed⟩

theorem Accounts.close (hidl : s.worker = .idle) (hqu : s.queue = m :: queue) :
    Accounts { s with queue := queue, rows := complete s.rows m.jobID } (trace ++ [.quiet]) := by
  have hjb : BulkSystem.jobs { s with queue := queue, rows := complete s.rows m.jobID } =
      queue.map (·.jobID) := jobs_of_idle hidl
  refine h.act amends_close (mem_jobs_of_first hidl hqu) rfl ?_ ?_ ?_ id
    (fun _ _ => ⟨rfl, rfl⟩) (fun _ _ => nofun) ?_
  · rw [hjb, jobs_of_idle hidl, hqu]
    exact sublist_cons_self _ _
  · intro m' hm' hne
    rw [hqu, mem_cons] at hm'
    exact hm'.resolve_left fun he => hne (by rw [he])
  · intro j hj
    rw [hidl] at hj
    cases hj
  · intro c r _ hst
    obtain ⟨-, hout, hre, hpn, hsh, -⟩ := hst.first h.nodup hidl hqu
    refine .finished ?_ ?_ ?_ (.inl rfl)
    · rw [hjb]
      exact hout
    · rw [resultsOf_quiet, panickedIn_quiet, hre, hpn]
      exact hsh.close
    · rw [resultsOf_quiet, hre]
      exact nil_prefix

theorem Accounts.start {target rest} (hidl : s.worker = .idle)
    (hqu : s.queue = m :: queue) (htr : m.targets = target :: rest) :
    Accounts { s with queue := queue, worker := .running ⟨m, target, rest, {}, .head⟩ }
      (trace ++ [.quiet]) := by
  have hjb : BulkSystem.jobs
      { s with queue := queue, worker := .running ⟨m, target, rest, {}, .head⟩ } = s.jobs := by
    rw [jobs_of_running rfl, jobs_of_idle hidl, hqu]
    rfl
  refine h.act amends_id (mem_jobs_of_first hidl hqu) updateRow_id.symm ?_ ?_ ?_ id
    (fun _ _ => ⟨rfl, rfl⟩) (fun _ _ => nofun) ?_
  · rw [hjb]
  · intro m' hm' hne
    rw [hqu, mem_cons] at hm'
    exact hm'.resolve_left fun he => hne (by rw [he])
  · intro j hj
    rw [hidl] at hj
    cases hj
  · intro c r hud hst
    obtain ⟨hm, -, hre, hpn, hsh, hcm⟩ := hst.first h.nodup hidl hqu
    refine .running rfl hm (panickedIn_quiet.trans hpn) ?_
    rw [resultsOf_quiet, hre]
    refine ⟨⟨[], [], rfl, rfl, by decide, Nat.dvd_zero _, hsh⟩, ?_, hcm⟩
    have hsm : m.targets = c.targets := congrArg BulkJobMessage.targets hm
    rw [hud, ← hsm, htr]
    rfl

theorem Accounts.accept {n : ℕ} (hid : rowOf s.rows id = none) : Accounts { s with
        checked := Function.update s.checked n none
        rows := s.rows ++ [insertedRow (c.job id)]
        queue := s.queue ++ [c.message id] } (trace ++ [.accepted id c]) := by
  refine h.insert hid (rowOf_inserted_self hid) (fun _ hne => rowOf_inserted_of_ne hne) rfl rfl
    (fun _ => ⟨rfl, rfl⟩) (.inr ⟨c.message id, rfl, rfl⟩) ?_
  rintro id' c' hacc
  cases hacc
  obtain ⟨hre, hpn⟩ := h.unknown id hid
  refine ⟨rfl, rfl, .queued ?_ ?_ ?_ ⟨rfl, rfl, rfl⟩ rfl⟩
  · exact mem_append_right _ (mem_singleton_self _)
  · rw [resultsOf_concat, hre]
    rfl
  · rw [panickedIn_concat, hpn]
    rfl

theorem Accounts.overflow {n : ℕ} (hid : rowOf s.rows id = none) : Accounts { s with
        checked := Function.update s.checked n none
        rows := complete (s.rows ++ [insertedRow (c.job id)]) id }
      (trace ++ [.replied .queueFull]) := by
  refine h.insert (r := (insertedRow (c.job id)).close) hid ?_ ?_ rfl rfl
    (fun _ => ⟨rfl, rfl⟩) (.inl rfl) (fun _ _ => nofun)
  · exact (rowOf_updateRow_self amends_close).trans (by rw [rowOf_inserted_self hid]; rfl)
  · exact fun k hne => (rowOf_updateRow_of_ne amends_close hne).trans (rowOf_inserted_of_ne hne)

theorem Accounts.move {e} (hmv : BulkMove s e o s') : Accounts s' (trace ++ [o]) := by
  cases hmv with
  | refuse | nothing | unemployed | check | withdraw | create | delete | takeEffect | drop =>
    exact h.quiet rfl rfl (fun _ => id) rfl id (fun _ => ⟨rfl, rfl⟩) fun _ _ => nofun
  | cancel =>
    exact h.quiet rfl rfl (fun _ => id) rfl (fun _ => rfl) (fun _ => ⟨rfl, rfl⟩) fun _ _ => nofun
  | accept hc hid => exact h.accept hid
  | overflow hid => exact h.overflow hid
  | close hidl hqu => exact h.close hidl hqu
  | start hidl hqu htr => exact h.start hidl hqu htr
  | advance hj | send hj => exact h.advance hj _ rfl rfl rfl rfl
  | settle result hj => exact h.settle hj result
  | panic hj => exact h.panic hj
  | abandon hj hcn => exact h.abandon hj hcn
  | stop hidl hcn =>
    refine h.quiet rfl rfl (fun j hj => ?_) (jobs_of_idle hidl).symm id (fun _ => ⟨rfl, rfl⟩)
      fun _ _ => nofun
    rw [hidl] at hj
    cases hj

end

end Steps

theorem run_accounts (rows : List JobRow) (objects : String → String → Option String)
    (events : List BulkEvent) : Accounts ((bulkRefresh rows objects).run events)
      ((bulkRefresh rows objects).trace events) := by
  refine Reactive.run_inv ⟨nodup_nil, nofun, fun _ _ => ⟨rfl, rfl⟩, nofun⟩ ?_ events
  exact fun s trace e h => h.move (bulkReact_move s e)

/-! ## Every job comes to an end

A call of the worker brings the job in hand closer to its end, and so every job behind it in
the queue. -/

def RunningJob.cost (j : RunningJob) : ℕ := j.phase.cost + 10 * j.rest.length

def BulkJobMessage.cost (m : BulkJobMessage) : ℕ := 1 + 10 * m.targets.length

def backlog (id : Uuid) : List BulkJobMessage → ℕ
  | [] => 0
  | m :: queue => m.cost + if m.jobID = id then 0 else backlog id queue

def waiting (id : Uuid) (queue : List BulkJobMessage) : ℕ :=
  if id ∈ queue.map (·.jobID) then backlog id queue else 0

def Worker.cost : Worker → ℕ
  | .running j => j.cost
  | _ => 0

def workload (s : BulkSystem) (id : Uuid) : ℕ := s.worker.cost + waiting id s.queue

def BulkEvent.isWork : BulkEvent → Bool
  | .work _ => true
  | _ => false

section Progress

variable {s s' : BulkSystem} {o : BulkOutput} {e : BulkEvent} {id : Uuid}

theorem Phase.cost_pos (p : Phase) : 0 < p.cost := by
  cases p <;> simp only [Phase.cost] <;> omega

theorem backlog_append {q : List BulkJobMessage} (h : id ∈ q.map (·.jobID))
    (q' : List BulkJobMessage) : backlog id (q ++ q') = backlog id q := by
  induction q with
  | nil => cases h
  | cons m q ih =>
    simp only [cons_append, backlog]
    by_cases hm : m.jobID = id
    · rw [if_pos hm, if_pos hm]
    · rw [if_neg hm, if_neg hm, ih]
      exact (mem_cons.mp h).resolve_left fun he => hm he.symm

theorem waiting_tail {m q} (hnd : ((m :: q).map (·.jobID)).Nodup)
    (h : id ∈ (m :: q).map (·.jobID)) : waiting id q + m.cost ≤ waiting id (m :: q) := by
  rw [map_cons, nodup_cons] at hnd
  rw [waiting, waiting, if_pos h, backlog]
  by_cases hm : m.jobID = id
  · rw [if_neg (hm ▸ hnd.1), if_pos hm]
    omega
  · have hq : id ∈ q.map (·.jobID) := (mem_cons.mp h).resolve_left fun he => hm he.symm
    rw [if_pos hq, if_neg hm]
    omega

theorem workload_pos (h : id ∈ s.jobs) : 0 < workload s id := by
  cases hwor : s.worker with
  | running j =>
    have hpos : 0 < j.phase.cost := j.phase.cost_pos
    simp only [workload, hwor, Worker.cost, RunningJob.cost]
    omega
  | idle | stopped =>
    rw [BulkSystem.jobs, hwor] at h
    have hpos : 0 < backlog id s.queue := by
      cases hq : s.queue with
      | nil =>
        rw [hq] at h
        cases h
      | cons m queue =>
        simp only [backlog, BulkJobMessage.cost]
        omega
    rw [workload, waiting, if_pos h]
    omega

structure Live (s : BulkSystem) : Prop where
  cancelled : s.cancelled = false
  worker : s.worker ≠ .stopped

theorem settle_worker (s : BulkSystem) (j : RunningJob) (result : Option PatchError) :
    (settle s j result).2.worker.cost ≤ 10 * j.rest.length ∧
      (settle s j result).2.worker ≠ .stopped ∧ (settle s j result).2.queue = s.queue ∧
        (settle s j result).2.cancelled = s.cancelled ∧
          (settle s j result).2.jobs.Sublist (j.msg.jobID :: s.queue.map (·.jobID)) := by
  simp only [settle]
  split
  · exact ⟨zero_le _, nofun, rfl, rfl, sublist_cons_self _ _⟩
  next next rest hrs =>
    refine ⟨?_, nofun, rfl, rfl, .refl _⟩
    rw [hrs, length_cons]
    simp only [Worker.cost, RunningJob.cost, Phase.cost]
    omega

theorem Live.move (h : Live s) (he : e ≠ .cancel) (hmv : BulkMove s e o s') : Live s' := by
  cases hmv with
  | refuse | nothing | unemployed | check | withdraw | create | delete | takeEffect | drop
  | accept | overflow | close => exact ⟨h.cancelled, h.worker⟩
  | start | advance | send | panic => exact ⟨h.cancelled, nofun⟩
  | settle result hj =>
    obtain ⟨-, hwor, -, hcn, -⟩ := settle_worker s _ result
    exact ⟨hcn.trans h.cancelled, hwor⟩
  | cancel => exact absurd rfl he
  | abandon _ hcn | stop _ hcn =>
    rw [h.cancelled] at hcn
    cases hcn

theorem move_jobs (hmv : BulkMove s e o s') (hrow : rowOf s.rows id ≠ none)
    (h : id ∈ s'.jobs) : id ∈ s.jobs := by
  cases hmv with
  | refuse | nothing | unemployed | check | withdraw | create | delete | takeEffect | drop
  | overflow | cancel => exact h
  | accept hc hid =>
    rename_i id' c
    have hne : id ≠ id' := fun he => hrow (he ▸ hid)
    cases hwor : s.worker <;> simp [BulkSystem.jobs, hwor, hne, Checked.message] at h ⊢ <;>
      exact h
  | close hidl hqu =>
    rw [jobs_of_idle hidl, hqu]
    rw [BulkSystem.jobs, hidl] at h
    exact mem_cons_of_mem _ h
  | start hidl hqu htr =>
    rw [jobs_of_idle hidl, hqu]
    exact h
  | advance hj | send hj =>
    rw [jobs_of_running hj]
    exact h
  | settle result hj =>
    rw [jobs_of_running hj]
    exact (settle_worker s _ result).2.2.2.2.subset h
  | panic hj | abandon hj =>
    rw [jobs_of_running hj]
    exact mem_cons_of_mem _ h
  | stop hidl =>
    rw [jobs_of_idle hidl]
    exact h

theorem move_row (hmv : BulkMove s e o s') (hrow : rowOf s.rows id ≠ none) :
    rowOf s'.rows id ≠ none := by
  have hin : ∀ c k, rowOf (s.rows ++ [insertedRow (Checked.job c k)]) id ≠ none := by
    intro c k
    rw [rowOf_insert]
    simpa using fun hno => absurd hno hrow
  cases hmv with
  | refuse | nothing | unemployed | check | withdraw | create | delete | takeEffect | drop
  | cancel | start | advance | send | stop => exact hrow
  | accept => exact hin _ _
  | overflow => exact (rowOf_updateRow_eq_none amends_close).not.mpr (hin _ _)
  | close => exact (rowOf_updateRow_eq_none amends_close).not.mpr hrow
  | panic =>
    rw [recoverPanic, appendOutcomes_eq, complete_eq, updateRow_updateRow (amends_flush _)]
    exact (rowOf_updateRow_eq_none ((amends_flush _).comp amends_close)).not.mpr hrow
  | abandon =>
    rw [abandon, appendOutcomes_eq]
    exact (rowOf_updateRow_eq_none (amends_flush _)).not.mpr hrow
  | settle result hj =>
    rw [settle_rows]
    exact (rowOf_updateRow_eq_none (amends_settled _ _)).not.mpr hrow

theorem move_workload (hmv : BulkMove s e o s') (hli : Live s) (hnd : s.jobs.Nodup)
    (hrow : rowOf s.rows id ≠ none) (h : id ∈ s.jobs) :
    workload s' id + (if e.isWork then 1 else 0) ≤ workload s id := by
  cases hmv with
  | refuse | check | withdraw | create | delete | takeEffect | overflow | cancel =>
    exact le_of_eq rfl
  | nothing he | drop _ he =>
    have hwo : e.isWork = false := by
      cases e with
      | work a => exact absurd rfl (he a)
      | _ => rfl
    rw [hwo]
    exact le_of_eq rfl
  | unemployed hidl =>
    rcases hidl with hsto | ⟨hidl, hqu⟩
    · exact absurd hsto hli.worker
    · rw [jobs_of_idle hidl, hqu] at h
      cases h
  | accept hc hid =>
    rename_i id' c
    have hne : id ≠ id' := fun he => hrow (he ▸ hid)
    by_cases hq : id ∈ s.queue.map (·.jobID)
    · simp [workload, waiting, hq, backlog_append hq, BulkEvent.isWork]
    · simp [workload, waiting, hq, hne, Checked.message, BulkEvent.isWork]
  | close hidl hqu =>
    rw [jobs_of_idle hidl, hqu] at h hnd
    have htl := waiting_tail hnd h
    simp only [workload, hidl, hqu, Worker.cost, BulkEvent.isWork, ite_true,
      BulkJobMessage.cost] at htl ⊢
    omega
  | start hidl hqu htr =>
    rw [jobs_of_idle hidl, hqu] at h hnd
    have htl := waiting_tail hnd h
    simp only [workload, hidl, hqu, htr, Worker.cost, RunningJob.cost, Phase.cost,
      BulkEvent.isWork, ite_true, BulkJobMessage.cost, length_cons] at htl ⊢
    omega
  | advance hj hcs =>
    simp only [workload, goto, hj, Worker.cost, RunningJob.cost, BulkEvent.isWork, ite_true]
    omega
  | send hj hph hli' hpin =>
    simp only [workload, hj, Worker.cost, RunningJob.cost, BulkEvent.isWork, ite_true, hph,
      Phase.cost]
    omega
  | settle result hj =>
    rename_i j
    obtain ⟨hcs, -, hqu, -, -⟩ := settle_worker s j result
    have hpos : 0 < j.phase.cost := j.phase.cost_pos
    simp only [workload, hqu, hj, Worker.cost, RunningJob.cost, BulkEvent.isWork,
      ite_true] at hcs ⊢
    omega
  | panic hj =>
    rename_i j
    have hpos : 0 < j.phase.cost := j.phase.cost_pos
    simp only [workload, recoverPanic, hj, Worker.cost, RunningJob.cost, BulkEvent.isWork, ite_true]
    omega
  | abandon _ hcn | stop _ hcn =>
    rw [hli.cancelled] at hcn
    cases hcn

variable {rows : List JobRow} {objects : String → String → Option String}
  {events more : List BulkEvent}

theorem run_live (h : BulkEvent.cancel ∉ events) :
    Live ((bulkRefresh rows objects).run events) := by
  refine Reactive.run_inv_of_split (P := fun s _ => Live s) ?_ ?_ events [] (append_nil events).symm
  · have hidl : Worker.idle ≠ .stopped := nofun
    exact ⟨rfl, hidl⟩
  · intro as e bs hall hli
    refine hli.move (fun he => h ?_) (bulkReact_move _ e)
    rw [hall, he]
    exact mem_append_right as mem_cons_self

/-- While nothing is cancelled, a job is at its end or every call has brought it nearer. -/
theorem run_workload (hrow : rowOf ((bulkRefresh rows objects).run events).rows id ≠ none)
    (h : BulkEvent.cancel ∉ events ++ more) :
    rowOf ((bulkRefresh rows objects).run (events ++ more)).rows id ≠ none ∧
      (id ∉ ((bulkRefresh rows objects).run (events ++ more)).jobs ∨
        workload ((bulkRefresh rows objects).run (events ++ more)) id +
          more.countP BulkEvent.isWork ≤ workload ((bulkRefresh rows objects).run events) id) := by
  induction more using List.reverseRecOn with
  | nil => exact ⟨by rwa [append_nil], .inr (by rw [append_nil]; exact le_rfl)⟩
  | append_singleton more e ih =>
    rw [← append_assoc] at h ⊢
    obtain ⟨hrow', hnr⟩ := ih fun hmem => h (mem_append_left _ hmem)
    have hli : Live ((bulkRefresh rows objects).run (events ++ more)) :=
      run_live fun hmem => h (mem_append_left _ hmem)
    have hnd := (run_accounts rows objects (events ++ more)).nodup
    rw [Reactive.run_concat]
    have hmv := bulkReact_move ((bulkRefresh rows objects).run (events ++ more)) e
    refine ⟨move_row hmv hrow', ?_⟩
    by_cases hjb : id ∈ ((bulkRefresh rows objects).run (events ++ more)).jobs
    · have hld := hnr.resolve_left fun hgo => hgo hjb
      have hste := move_workload hmv hli hnd hrow' hjb
      refine .inr (le_trans ?_ hld)
      rw [countP_append, countP_singleton, add_comm (more.countP _), ← add_assoc]
      exact Nat.add_le_add_right hste _
    · exact .inl fun hmem => hjb (move_jobs hmv hrow' hmem)

end Progress

/-! ## Reading a job back -/

/-- What `Get` makes of the `null` at the head of a column. -/
def blankEntry (rs : List Result) (panicked : Bool) : List BulkRefreshOutcome :=
  if written rs panicked then [⟨"", ""⟩] else []

theorem scanOutcomes_column (w : Bool) (outs : List BulkRefreshOutcome)
    (h : w = false → outs = []) :
    (scanOutcomes (column w outs)).getD [] = (if w then [⟨"", ""⟩] else []) ++ outs := by
  cases w with
  | false => rw [h rfl]; rfl
  | true =>
    simp only [column, ite_true, scanOutcomes, map_cons, map_map, Option.getD_some,
      cons_append, nil_append]
    refine congrArg (_ :: ·) ?_
    exact (map_congr_left fun _ _ => rfl).trans (map_id outs)

theorem Shows.scanned {r : JobRow} {rs : List Result} {p : Bool} (h : Shows r rs p) :
    (scanJob r).succeeded = succeededOf rs ∧
      (scanJob r).failed.getD [] = blankEntry rs p ++ (failedOf rs ++ panicEntry p) ∧
        (scanJob r).skipped.getD [] = blankEntry rs p ++ skippedOf rs := by
  have hno : written rs p = false → rs = [] ∧ p = false := by
    intro hw
    have hnil := eq_nil_of_not_written hw
    exact ⟨hnil, by simpa [written, hnil] using hw⟩
  refine ⟨h.succeeded, ?_, ?_⟩
  · refine (congrArg (fun j => (scanOutcomes j).getD []) h.failed).trans
      (scanOutcomes_column _ _ ?_)
    intro hw
    obtain ⟨rfl, rfl⟩ := hno hw
    rfl
  · refine (congrArg (fun j => (scanOutcomes j).getD []) h.skipped).trans
      (scanOutcomes_column _ _ ?_)
    intro hw
    rw [(hno hw).1]
    rfl

theorem blank_notMem_skippedOf (id : Uuid) (trace : List BulkOutput) :
    ⟨"", ""⟩ ∉ skippedOf (resultsOf id trace) := by
  have hreason : ∀ result, classify result ≠ .skipped "" := by
    intro result h
    unfold classify at h
    split at h <;> simp at h
  intro hmem
  obtain ⟨⟨uid, c⟩, hres, hc⟩ := mem_filterMap.mp hmem
  obtain ⟨o, -, ho⟩ := mem_filterMap.mp hres
  cases o with
  | returned id' uid' result =>
    have := hreason result
    grind
  | _ => cases ho

theorem listed_exactly_iff {returned : List Result} {panicked : Bool}
    (hno : ⟨"", ""⟩ ∉ skippedOf returned) :
    succeededOf (keptOf returned panicked) = succeededOf returned ∧
      blankEntry (keptOf returned panicked) panicked ++
        (failedOf (keptOf returned panicked) ++ panicEntry panicked) =
          failedOf returned ++ panicEntry panicked ∧
      blankEntry (keptOf returned panicked) panicked ++ skippedOf (keptOf returned panicked) =
        skippedOf returned ↔ returned = [] ∧ panicked = false := by
  constructor
  · rintro ⟨-, -, hskipped⟩
    cases hw : written (keptOf returned panicked) panicked with
    | true =>
      rw [← hskipped, blankEntry, if_pos hw] at hno
      exact absurd mem_cons_self hno
    | false =>
      have hnil := eq_nil_of_not_written hw
      obtain rfl : panicked = false := by simpa [written, hnil] using hw
      exact ⟨hnil, rfl⟩
  · rintro ⟨rfl, rfl⟩
    exact ⟨rfl, rfl, rfl⟩

/-- Once the worker is done with an accepted job, the job read back has the result of every patch
call that returned, in order and under its class, but after a panic not those since the last full
batch; once anything has been written, `failed` and `skipped` begin with an entry without UID and
reason. So it lists exactly the results only where no call returned and none panicked. If nothing
was cancelled the job is completed after finitely many calls. -/
theorem bulk_refresh_accounts {rows : List JobRow} {objects : String → String → Option String}
    {events : List BulkEvent} {id : Uuid} {c : Checked}
    (haccepted : BulkOutput.accepted id c ∈ (bulkRefresh rows objects).trace events) :
    let M := bulkRefresh rows objects
    let returned := resultsOf id (M.trace events)
    let panicked := panickedIn id (M.trace events)
    let kept := keptOf returned panicked
    (id ∉ (M.run events).jobs → ∃ job, getJob (M.run events).rows id = some job ∧
      job.targetUIDs = c.targets.map (·.uid) ∧ returned.map Prod.fst <+: job.targetUIDs ∧
      job.succeeded = succeededOf kept ∧
      job.failed.getD [] = blankEntry kept panicked ++ (failedOf kept ++ panicEntry panicked) ∧
      job.skipped.getD [] = blankEntry kept panicked ++ skippedOf kept ∧
      (job.succeeded = succeededOf returned ∧
        job.failed.getD [] = failedOf returned ++ panicEntry panicked ∧
        job.skipped.getD [] = skippedOf returned ↔ returned = [] ∧ panicked = false) ∧
      (BulkEvent.cancel ∉ events → job.completed = true)) ∧
    (∀ more, BulkEvent.cancel ∉ events ++ more →
      workload (M.run events) id ≤ more.countP BulkEvent.isWork →
      id ∉ (M.run (events ++ more)).jobs) := by
  intro M returned panicked kept
  obtain ⟨r, hrow, htr, hst⟩ := (run_accounts rows objects events).standing id c haccepted
  constructor
  · intro hdn
    cases hst with
    | queued hqu =>
      have hmem : id ∈ (M.run events).queue.map (·.jobID) := mem_map_of_mem hqu
      refine absurd ?_ hdn
      cases hwor : (M.run events).worker <;> simp only [BulkSystem.jobs, hwor]
      · exact hmem
      · exact mem_cons_of_mem _ hmem
      · exact hmem
    | running hwor hmsg =>
      rw [jobs_of_running hwor, hmsg] at hdn
      exact absurd mem_cons_self hdn
    | finished hgo hsh hret hcm =>
      obtain ⟨hsc, hfa, hsk⟩ := hsh.scanned
      refine ⟨scanJob r, congrArg (Option.map scanJob) hrow, htr, hret, hsc, hfa, hsk, ?_,
        fun hca => hcm.resolve_right ?_⟩
      · rw [hsc, hfa, hsk]
        exact listed_exactly_iff (blank_notMem_skippedOf id _)
      · rw [(run_live hca).cancelled]
        exact Bool.false_ne_true
  · intro more hca hld
    have hsd : rowOf (M.run events).rows id ≠ none := by
      rw [hrow]
      exact Option.some_ne_none r
    rcases (run_workload hsd hca).2 with hgo | hnr
    · exact hgo
    · intro hjb
      have hpos : 0 < workload (M.run (events ++ more)) id := workload_pos hjb
      exact absurd (Nat.le_of_add_le_add_right (hnr.trans (hld.trans (Nat.zero_add _).ge)))
        (Nat.not_le_of_lt hpos)

theorem bulk_refresh_accounts_cancelled : let M := bulkRefresh [] sampleObjects
    let cancelled := sampleAccepted ++ [sampleWork, .cancel, sampleWork]
    1 ∉ (M.run (sampleAccepted ++ List.replicate 21 sampleWork)).jobs ∧
      ∃ job, getJob (M.run cancelled).rows 1 = some job ∧
        job.succeeded = [] ∧ job.failed.getD [] = [] ∧ job.skipped.getD [] = [] := by
  intro M cancelled
  obtain ⟨c, hc⟩ : ∃ c, BulkOutput.accepted 1 c ∈ M.trace sampleAccepted :=
    ⟨_, mem_cons_of_mem _ mem_cons_self⟩
  obtain ⟨c', hc'⟩ : ∃ c, BulkOutput.accepted 1 c ∈ M.trace cancelled :=
    ⟨_, mem_cons_of_mem _ mem_cons_self⟩
  refine ⟨(bulk_refresh_accounts hc).2 _ ?_ ?_, ?_⟩
  · simp [sampleAccepted, sampleWork]
  · decide
  · obtain ⟨job, hget, -, -, -, -, -, hexact, -⟩ := (bulk_refresh_accounts hc').1 (by decide)
    exact ⟨job, hget, hexact.mpr (by decide)⟩

/-- Two targets that succeed, then the same two with a panic at the second. -/
theorem bulk_refresh_miscounts : let M := bulkRefresh [] sampleObjects
    let listed := fun events => (getJob (M.run events).rows 1).map fun job =>
      (job.succeeded, job.failed, job.skipped)
    let done := sampleAccepted ++ List.replicate 8 sampleWork
    let panic := sampleAccepted ++ List.replicate 6 sampleWork ++
      [.work ⟨true, .panics, .applied, false⟩]
    listed done = some (["u1", "u2"], some [⟨"", ""⟩], some [⟨"", ""⟩]) ∧
      resultsOf 1 (M.trace panic) = [("u1", .succeeded)] ∧
      listed panic = some ([], some [⟨"", ""⟩, ⟨"", "worker_panic"⟩], some [⟨"", ""⟩]) := by
  decide

end KubeCenter.ExternalSecrets
