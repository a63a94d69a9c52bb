import KubeCenter.Store.BackupAssuranceDelivery

/-! # The collector lease

`AcquireOrRenewLease` and `ReleaseLease` of `backup_assurance_delivery.go`: one row for each
cluster, written by one statement whose `NOW()` is the database's clock, which does not go back.
The fence counts the tenures. -/
namespace KubeCenter.Store

open Lib.Go List
open Function (update update_eq_self update_of_ne update_self)

/-! ## The statements -/

structure LeaseRow where
  holder : String
  fence : ℕ := 1
  acquiredAt : Time
  renewedAt : Time
  expiresAt : Time
deriving DecidableEq

abbrev Leases := String → Option LeaseRow

structure AssuranceLease where
  clusterID : String
  holder : String
  fence : ℕ
  acquiredAt : Time
  renewedAt : Time
  expiresAt : Time
  expired : Bool
deriving DecidableEq

def LeaseRow.lease (l : LeaseRow) (clusterID : String) (now : Time) : AssuranceLease :=
  ⟨clusterID, l.holder, l.fence, l.acquiredAt, l.renewedAt, l.expiresAt, l.expiresAt ≤ now⟩

inductive LeaseError where
  | refused (msg : String)
  | ttlNotPositive (ttl : Duration)
  | heldByOther
  | database
deriving DecidableEq

def LeaseRow.heldBy (l : LeaseRow) (holder : String) (now : Time) : Bool :=
  l.holder = holder && l.expiresAt > now

/-- The largest `BIGINT`. -/
def maxBigint : ℕ := 2 ^ 63 - 1

inductive Upsert where
  | wrote (row : LeaseRow)
  | noRow
  | outOfRange

/-- `INSERT ... ON CONFLICT (cluster_id) DO UPDATE ... WHERE`. -/
def upsertLease (now : Time) (holder : String) (expiresAt : Time) : Option LeaseRow → Upsert
  | none => .wrote { holder, acquiredAt := now, renewedAt := now, expiresAt }
  | some l =>
    if l.holder = holder || l.expiresAt ≤ now then
      if l.heldBy holder now then
        .wrote ⟨holder, l.fence, l.acquiredAt, now, expiresAt⟩
      else if l.fence < maxBigint then
        .wrote ⟨holder, l.fence + 1, now, now, expiresAt⟩
      else .outOfRange
    else .noRow

def releaseRow (now : Time) (holder : String) : Option LeaseRow → Option LeaseRow
  | none => none
  | some l => if l.heldBy holder now then some { l with expiresAt := now } else some l

/-! ## The methods -/

/-- `interval` is `make_interval(secs => ttl.Seconds())`. -/
def acquireOrRenewLease (interval : Duration → Duration) (now : Time) (fault : AssuranceFault)
    (clusterID holder : String) (ttl : Duration) (leases : Leases) :
    Except LeaseError AssuranceLease × Leases :=
  if clusterID = "" || holder = "" then
    (.error (.refused "acquire backup assurance lease: cluster id and holder are required"), leases)
  else if ttl ≤ 0 then (.error (.ttlNotPositive ttl), leases)
  else
    match fault, upsertLease now holder (now + interval ttl) (leases clusterID) with
    | .noFault, .wrote row => (.ok (row.lease clusterID now), update leases clusterID (some row))
    | .noFault, .noRow => (.error .heldByOther, leases)
    | .lostReply, .wrote row => (.error .database, update leases clusterID (some row))
    | _, _ => (.error .database, leases)

def releaseLease (now : Time) (fault : AssuranceFault) (clusterID holder : String)
    (leases : Leases) : Except LeaseError Unit × Leases :=
  let released := update leases clusterID (releaseRow now holder (leases clusterID))
  match fault with
  | .noFault => (.ok (), released)
  | .rolledBack => (.error .database, leases)
  | .lostReply => (.error .database, released)

/-! ## Histories -/

inductive LeaseOp where
  | acquire (clusterID holder : String) (ttl : Duration)
  | release (clusterID holder : String)
deriving DecidableEq

structure LeaseCall where
  now : Time
  op : LeaseOp
  fault : AssuranceFault := .noFault
deriving DecidableEq

def LeaseCall.exec (interval : Duration → Duration) (c : LeaseCall) (leases : Leases) :
    Except LeaseError (Option AssuranceLease) × Leases :=
  match c.op with
  | .acquire clusterID holder ttl =>
    let r := acquireOrRenewLease interval c.now c.fault clusterID holder ttl leases
    (r.1.map some, r.2)
  | .release clusterID holder =>
    let r := releaseLease c.now c.fault clusterID holder leases
    (r.1.map fun _ => none, r.2)

def leasesAfter (interval : Duration → Duration) (calls : List LeaseCall) : Leases :=
  calls.foldl (fun leases c => (c.exec interval leases).2) fun _ => none

def InOrder (calls : List LeaseCall) : Prop := calls.Pairwise (·.now ≤ ·.now)

variable {interval : Duration → Duration} {clusterID : String}

theorem leasesAfter_concat (as : List LeaseCall) (c : LeaseCall) :
    leasesAfter interval (as ++ [c]) = (c.exec interval (leasesAfter interval as)).2 :=
  foldl_append

/-! ## The moves of a row -/

/-- What a call at `now` may do to the row of a cluster. -/
inductive LeaseMove (now : Time) : Option LeaseRow → Option LeaseRow → Prop where
  | same (l : Option LeaseRow) : LeaseMove now l l
  | first (row : LeaseRow) : LeaseMove now none (some row)
  | renewed (l row : LeaseRow) (hlive : now < l.expiresAt) (hholder : row.holder = l.holder)
      (hfence : row.fence = l.fence) : LeaseMove now (some l) (some row)
  | taken (l row : LeaseRow) (hfence : row.fence = l.fence + 1) : LeaseMove now (some l) (some row)
  | released (l : LeaseRow) : LeaseMove now (some l) (some { l with expiresAt := now })

/-- The first row, the next of a live tenure of the same holder, or that of a next tenure. -/
theorem upsertLease_wrote {now expiresAt : Time} {holder : String} {l} {row : LeaseRow}
    (h : upsertLease now holder expiresAt l = .wrote row) : row.holder = holder ∧
      ((l = none ∧ row.fence = 1) ∨
        ∃ x, l = some x ∧ ((x.holder = holder ∧ now < x.expiresAt ∧ row.fence = x.fence) ∨
          (x.expiresAt ≤ now ∧ row.fence = x.fence + 1))) := by
  unfold upsertLease at h
  split at h
  · cases h
    exact ⟨rfl, .inl ⟨rfl, rfl⟩⟩
  next x =>
    split at h
    · rename_i hgr
      split at h
      · rename_i hhd
        cases h
        simp only [LeaseRow.heldBy, Bool.and_eq_true, decide_eq_true_eq] at hhd
        exact ⟨rfl, .inr ⟨x, rfl, .inl ⟨hhd.1, hhd.2, rfl⟩⟩⟩
      · rename_i hhd
        split at h
        · cases h
          refine ⟨rfl, .inr ⟨x, rfl, .inr ⟨?_, rfl⟩⟩⟩
          -- not held live by the caller, and free for the caller: expired
          simp only [LeaseRow.heldBy, Bool.and_eq_true, decide_eq_true_eq, not_and, not_lt] at hhd
          simp only [Bool.or_eq_true, decide_eq_true_eq] at hgr
          rcases hgr with hhl | hexp
          · exact hhd hhl
          · exact hexp
        · cases h
    · cases h

theorem releaseRow_move (now : Time) (holder : String) (l : Option LeaseRow) :
    LeaseMove now l (releaseRow now holder l) := by
  cases l with
  | none => exact .same none
  | some x =>
    simp only [releaseRow]
    split
    · exact .released x
    · exact .same _

theorem error_ne_ok {e} (lease : AssuranceLease) :
    (.error e : Except LeaseError AssuranceLease) ≠ .ok lease := by
  intro h
  cases h

/-- Nothing, without a lease in reply, or the row of its cluster is written. -/
theorem acquire_cases (interval : Duration → Duration) (now : Time) (fault : AssuranceFault)
    (cluster holder : String) (ttl : Duration) (leases : Leases) :
    let r := acquireOrRenewLease interval now fault cluster holder ttl leases
    (r.2 = leases ∧ ∀ lease, r.1 ≠ .ok lease) ∨
      ∃ row, upsertLease now holder (now + interval ttl) (leases cluster) = .wrote row ∧
        r.2 = update leases cluster (some row) ∧
        (r.1 = .ok (row.lease cluster now) ∨ fault = .lostReply ∧ ∀ lease, r.1 ≠ .ok lease) := by
  intro r
  simp only [r, acquireOrRenewLease]
  split
  · exact .inl ⟨rfl, error_ne_ok⟩
  · split
    · exact .inl ⟨rfl, error_ne_ok⟩
    · split
      next row hwr => exact .inr ⟨row, hwr, rfl, .inl rfl⟩
      · exact .inl ⟨rfl, error_ne_ok⟩
      next row hwr => exact .inr ⟨row, hwr, rfl, .inr ⟨rfl, error_ne_ok⟩⟩
      · exact .inl ⟨rfl, error_ne_ok⟩

theorem release_cases (now : Time) (fault : AssuranceFault) (cluster holder : String)
    (leases : Leases) :
    let r := releaseLease now fault cluster holder leases
    (r.2 = leases ∧ fault = .rolledBack) ∨
      r.2 = update leases cluster (releaseRow now holder (leases cluster)) := by
  cases fault with
  | noFault | lostReply => exact .inr rfl
  | rolledBack => exact .inl ⟨rfl, rfl⟩

theorem upsertLease_move {now expiresAt : Time} {holder : String} {l} {row : LeaseRow}
    (h : upsertLease now holder expiresAt l = .wrote row) : LeaseMove now l (some row) := by
  obtain ⟨hhl, ⟨rfl, -⟩ | ⟨x, rfl, ⟨hx, hli, hfn⟩ | ⟨-, hfn⟩⟩⟩ := upsertLease_wrote h
  · exact .first row
  · exact .renewed x row hli (hhl.trans hx.symm) hfn
  · exact .taken x row hfn

theorem LeaseMove.update {now : Time} {leases : Leases} {cluster : String} {row}
    (h : LeaseMove now (leases cluster) row) (clusterID : String) :
    LeaseMove now (leases clusterID) (update leases cluster row clusterID) := by
  by_cases hc : clusterID = cluster
  · subst hc
    rw [update_self]
    exact h
  · rw [update_of_ne hc]
    exact .same _

theorem exec_move (interval : Duration → Duration) (c : LeaseCall) (leases : Leases)
    (clusterID : String) :
    LeaseMove c.now (leases clusterID) ((c.exec interval leases).2 clusterID) := by
  unfold LeaseCall.exec
  split
  next cluster holder ttl _ =>
    rcases acquire_cases interval c.now c.fault cluster holder ttl leases with
      ⟨hsm, -⟩ | ⟨row, hwr, hrw, -⟩
    · simp only [hsm]
      exact .same _
    · simp only [hrw]
      exact (upsertLease_move hwr).update clusterID
  next cluster holder _ =>
    rcases release_cases c.now c.fault cluster holder leases with ⟨hsm, -⟩ | hrw
    · simp only [hsm]
      exact .same _
    · simp only [hrw]
      exact (releaseRow_move c.now holder _).update clusterID

/-! ## The fence over a history -/

/-- The call is an acquisition of the cluster by the holder that returns the lease. -/
def Acquires (interval : Duration → Duration) (before : List LeaseCall) (c : LeaseCall)
    (clusterID holder : String) (lease : AssuranceLease) : Prop :=
  (∃ ttl, c.op = .acquire clusterID holder ttl) ∧
    (c.exec interval (leasesAfter interval before)).1 = .ok (some lease)

/-- At `s` the holder has the lease, under the fence. -/
def HeldAt (leases : Leases) (clusterID holder : String) (fence : ℕ) (s : Time) : Prop :=
  ∃ row, leases clusterID = some row ∧ row.holder = holder ∧ row.fence = fence ∧ s < row.expiresAt

theorem ok_of_map_some {r : Except LeaseError AssuranceLease} {lease}
    (h : r.map some = .ok (some lease)) : r = .ok lease := by
  cases r with
  | error e => cases h
  | ok l =>
    cases h
    rfl

theorem Acquires.row {before c} {holder : String} {lease}
    (h : Acquires interval before c clusterID holder lease) :
    ∃ row, leasesAfter interval (before ++ [c]) clusterID = some row ∧
      row.fence = lease.fence ∧ row.holder = holder ∧
      ∀ x, leasesAfter interval before clusterID = some x →
        (x.holder = holder ∧ c.now < x.expiresAt ∧ row.fence = x.fence) ∨
          (x.expiresAt ≤ c.now ∧ row.fence = x.fence + 1) := by
  obtain ⟨⟨ttl, hop⟩, hrp⟩ := h
  rw [leasesAfter_concat]
  simp only [LeaseCall.exec, hop] at hrp ⊢
  rcases acquire_cases interval c.now c.fault clusterID holder ttl (leasesAfter interval before)
    with ⟨-, hno⟩ | ⟨row, hwr, hrw, hok | ⟨-, hno⟩⟩
  · exact absurd (ok_of_map_some hrp) (hno lease)
  · rw [hok] at hrp
    cases hrp
    obtain ⟨hhl, hbe⟩ := upsertLease_wrote hwr
    refine ⟨row, by rw [hrw, update_self], rfl, hhl, ?_⟩
    intro x hx
    rcases hbe with ⟨hn, -⟩ | ⟨y, hy, hcs⟩
    · rw [hx] at hn
      cases hn
    · rw [hx] at hy
      cases hy
      exact hcs
  · exact absurd (ok_of_map_some hrp) (hno lease)

theorem LeaseMove.fence_le {now : Time} {l : LeaseRow} {m} (h : LeaseMove now (some l) m) :
    ∃ row, m = some row ∧ l.fence ≤ row.fence := by
  cases h with
  | same => exact ⟨l, rfl, le_rfl⟩
  | renewed _ row _ _ hfn => exact ⟨row, rfl, hfn.ge⟩
  | taken _ row hfn => exact ⟨row, rfl, by omega⟩
  | released => exact ⟨_, rfl, le_rfl⟩

theorem fence_mono (as bs : List LeaseCall) {row : LeaseRow}
    (hrow : leasesAfter interval as clusterID = some row) :
    ∃ row', leasesAfter interval (as ++ bs) clusterID = some row' ∧ row.fence ≤ row'.fence := by
  induction bs generalizing as row with
  | nil => exact ⟨row, by rw [append_nil, hrow], le_rfl⟩
  | cons c bs ih =>
    have hmv := exec_move interval c (leasesAfter interval as) clusterID
    rw [hrow, ← leasesAfter_concat] at hmv
    obtain ⟨next, hnx, hle⟩ := hmv.fence_le
    obtain ⟨last, hla, hle'⟩ := ih (as ++ [c]) hnx
    rw [append_assoc, singleton_append] at hla
    exact ⟨last, hla, hle.trans hle'⟩

/-- While the fence stays what it is, and the last row is live at `T`, the lease is held
throughout, by one holder. By induction on the calls: a call that keeps the fence found the lease
live, or did nothing. -/
theorem held_throughout (bs : List LeaseCall) :
    ∀ (as : List LeaseCall) (row last : LeaseRow) (T : Time),
      leasesAfter interval as clusterID = some row →
      leasesAfter interval (as ++ bs) clusterID = some last → row.fence = last.fence →
      T < last.expiresAt → InOrder bs → (∀ c ∈ bs, c.now ≤ T) →
      ∀ bs₁ bs₂, bs = bs₁ ++ bs₂ → ∀ s ≤ T, (∀ c ∈ bs₂, s ≤ c.now) →
        HeldAt (leasesAfter interval (as ++ bs₁)) clusterID last.holder last.fence s := by
  induction bs with
  | nil =>
    intro as row last T _ hla _ hli _ _ bs₁ bs₂ hsp s hs _
    obtain ⟨rfl, rfl⟩ := append_eq_nil_iff.mp hsp.symm
    exact ⟨last, hla, rfl, rfl, hs.trans_lt hli⟩
  | cons c bs ih =>
    intro as row last T hrow hla hfn hli hor hbe bs₁ bs₂ hsp s hs hlt
    have hmv := exec_move interval c (leasesAfter interval as) clusterID
    rw [hrow, ← leasesAfter_concat] at hmv
    obtain ⟨next, hnx, hle⟩ := hmv.fence_le
    have hla' : leasesAfter interval ((as ++ [c]) ++ bs) clusterID = some last := by
      rw [append_assoc, singleton_append, hla]
    have hnextFence : next.fence = last.fence := by
      obtain ⟨row', hend, hle'⟩ := fence_mono (as ++ [c]) bs hnx
      rw [hla'] at hend
      cases hend
      omega
    obtain ⟨hfi, hrs⟩ := pairwise_cons.mp hor
    have hhd := ih (as ++ [c]) next last T hnx hla' hnextFence hli hrs
      fun x hx => hbe x (mem_cons_of_mem _ hx)
    cases bs₁ with
    | cons x bs₁ =>
      obtain ⟨rfl, rfl⟩ := List.cons.inj hsp
      have := hhd bs₁ bs₂ rfl s hs hlt
      rwa [append_assoc, singleton_append] at this
    | nil =>
      subst hsp
      -- the row after the call is live at the call's own time
      obtain ⟨x, hx, hxh, hxf, hxl⟩ := hhd [] bs rfl c.now (hbe c mem_cons_self) hfi
      rw [append_nil, hnx] at hx
      cases hx
      have hsc : s ≤ c.now := hlt c mem_cons_self
      rw [append_nil]
      rw [hnx] at hmv
      cases hmv with
      | same => exact ⟨row, hrow, hxh, hxf, hsc.trans_lt hxl⟩
      | renewed _ _ hrowLive hhl _ =>
        exact ⟨row, hrow, hhl.symm.trans hxh, hfn, hsc.trans_lt hrowLive⟩
      | taken _ _ htk => omega
      | released => exact absurd hxl (lt_irrefl c.now)

/-- A call that returns no lease, and whose reply is not lost, keeps the fence. -/
theorem fence_kept {before} {c : LeaseCall} {row : LeaseRow}
    (hrow : leasesAfter interval before clusterID = some row) (hfl : c.fault ≠ .lostReply)
    (hno : ∀ holder lease, ¬ Acquires interval before c clusterID holder lease) :
    ∃ row', leasesAfter interval (before ++ [c]) clusterID = some row' ∧
      row'.fence = row.fence := by
  rw [leasesAfter_concat]
  cases hop : c.op with
  | acquire cluster holder ttl =>
    have hrp := fun lease (h : clusterID = cluster) => hno holder lease
    simp only [Acquires, LeaseCall.exec, hop] at hrp ⊢
    rcases acquire_cases interval c.now c.fault cluster holder ttl (leasesAfter interval before)
      with ⟨hsm, -⟩ | ⟨written, -, hrw, hok | ⟨hls, -⟩⟩
    · exact ⟨row, by rw [hsm, hrow], rfl⟩
    · by_cases hc : clusterID = cluster
      · subst hc
        refine absurd ⟨⟨ttl, rfl⟩, ?_⟩ (hrp (written.lease clusterID c.now) rfl)
        rw [hok]
        rfl
      · exact ⟨row, by rw [hrw, update_of_ne hc, hrow], rfl⟩
    · exact absurd hls hfl
  | release cluster holder =>
    simp only [LeaseCall.exec, hop]
    rcases release_cases c.now c.fault cluster holder (leasesAfter interval before) with
      ⟨hsm, -⟩ | hrw
    · exact ⟨row, by rw [hsm, hrow], rfl⟩
    · by_cases hc : clusterID = cluster
      · subst hc
        rw [hrw, update_self, hrow]
        simp only [releaseRow]
        split
        · exact ⟨_, rfl, rfl⟩
        · exact ⟨row, rfl, rfl⟩
      · exact ⟨row, by rw [hrw, update_of_ne hc, hrow], rfl⟩

/-! ## Whole histories -/

/-- The fence of a cluster counts tenures, in a history. -/
structure CountsTenures (interval : Duration → Duration) (calls : List LeaseCall)
    (clusterID : String) : Prop where
  nondecreasing : ∀ as bs cs, calls = as ++ bs ++ cs → ∀ row,
    leasesAfter interval as clusterID = some row →
    ∃ row', leasesAfter interval (as ++ bs) clusterID = some row' ∧ row.fence ≤ row'.fence
  /-- Two acquisitions of one fence have one holder, which holds the lease in between: `s` is any
  time up to the calls to come. -/
  continuous : ∀ as a bs b cs, calls = as ++ a :: bs ++ b :: cs →
    ∀ holder holder' l l', Acquires interval as a clusterID holder l →
      Acquires interval (as ++ a :: bs) b clusterID holder' l' → l.fence = l'.fence →
      holder = holder' ∧ ∀ bs₁ bs₂, bs = bs₁ ++ bs₂ → ∀ s, (∀ c ∈ bs₂ ++ [b], s ≤ c.now) →
        HeldAt (leasesAfter interval (as ++ a :: bs₁)) clusterID holder l.fence s
  /-- A change of holder, and a return after the lease has ended, is the next tenure. -/
  next : ∀ as c cs, calls = as ++ c :: cs → ∀ holder l row,
    Acquires interval as c clusterID holder l → leasesAfter interval as clusterID = some row →
    row.holder ≠ holder ∨ row.expiresAt ≤ c.now → l.fence = row.fence + 1
  /-- The fence of the row is the one last returned, unless a reply was lost since. -/
  previous : ∀ as a bs cs, calls = as ++ a :: bs ++ cs → ∀ holder l,
    Acquires interval as a clusterID holder l →
    (∀ bs₁ c bs₂, bs = bs₁ ++ c :: bs₂ → c.fault ≠ .lostReply ∧
      ∀ holder' l', ¬ Acquires interval (as ++ a :: bs₁) c clusterID holder' l') →
    ∃ row, leasesAfter interval (as ++ a :: bs) clusterID = some row ∧ row.fence = l.fence
  /-- A release ends the tenure: its holder does not hold the lease from then on. -/
  released : ∀ as c cs, calls = as ++ c :: cs → ∀ holder, c.op = .release clusterID holder →
    c.fault ≠ .rolledBack → ∀ row, leasesAfter interval (as ++ [c]) clusterID = some row →
    row.holder = holder → row.expiresAt ≤ c.now
  lost : ∀ as c cs, calls = as ++ c :: cs → ∀ holder, c.op = .release clusterID holder →
    (∀ row, leasesAfter interval as clusterID = some row →
      row.holder ≠ holder ∨ row.expiresAt ≤ c.now) →
    leasesAfter interval (as ++ [c]) = leasesAfter interval as

theorem continuous_of_inOrder {as bs a b} (hor : InOrder (a :: (bs ++ [b])))
    {holder holder' : String} {l l'} (ha : Acquires interval as a clusterID holder l)
    (hb : Acquires interval (as ++ a :: bs) b clusterID holder' l') (hfn : l.fence = l'.fence) :
    holder = holder' ∧ ∀ bs₁ bs₂, bs = bs₁ ++ bs₂ → ∀ s, (∀ c ∈ bs₂ ++ [b], s ≤ c.now) →
      HeldAt (leasesAfter interval (as ++ a :: bs₁)) clusterID holder l.fence s := by
  obtain ⟨row, hrow, hrowFence, hhl, -⟩ := ha.row
  obtain ⟨final, -, hfinalFence, -, hbe⟩ := hb.row
  have hass : ∀ cs : List LeaseCall, as ++ a :: cs = (as ++ [a]) ++ cs := by simp
  obtain ⟨last, hla, hle⟩ := fence_mono (as ++ [a]) bs hrow
  rw [← hass] at hla
  -- the second acquisition renewed: had it begun a tenure, its fence would be larger
  obtain ⟨hlastHolder, hli, hsm⟩ : last.holder = holder' ∧ b.now < last.expiresAt ∧
      final.fence = last.fence := by
    rcases hbe last hla with hrn | ⟨-, htk⟩
    · exact hrn
    · omega
  obtain ⟨hfi, hrs⟩ := pairwise_cons.mp hor
  obtain ⟨hin, -, hlt⟩ := pairwise_append.mp hrs
  rw [hass] at hla
  have hhd := held_throughout bs (as ++ [a]) row last b.now hrow hla (by omega) hli hin
    fun c hc => hlt c hc b mem_cons_self
  have hall : ∀ bs₁ bs₂, bs = bs₁ ++ bs₂ → ∀ s, (∀ c ∈ bs₂ ++ [b], s ≤ c.now) →
      HeldAt (leasesAfter interval (as ++ a :: bs₁)) clusterID holder' l.fence s := by
    intro bs₁ bs₂ hsp s hs
    have hat := hhd bs₁ bs₂ hsp s (hs b (by simp)) fun c hc => hs c (by simp [hc])
    rwa [hlastHolder, ← hass, ← hsm, hfinalFence, ← hfn] at hat
  -- at the first acquisition the row names its holder
  obtain rfl : holder = holder' := by
    obtain ⟨x, hx, hxh, -⟩ := hall [] bs rfl a.now hfi
    rw [hrow] at hx
    cases hx
    exact hhl.symm.trans hxh
  exact ⟨rfl, hall⟩

theorem fence_last_returned {as a} {holder : String} {l}
    (ha : Acquires interval as a clusterID holder l) (bs : List LeaseCall)
    (hqu : ∀ bs₁ c bs₂, bs = bs₁ ++ c :: bs₂ → c.fault ≠ .lostReply ∧
      ∀ holder' l', ¬ Acquires interval (as ++ a :: bs₁) c clusterID holder' l') :
    ∃ row, leasesAfter interval (as ++ a :: bs) clusterID = some row ∧ row.fence = l.fence := by
  -- from the end: the last call keeps the fence the calls before it left
  induction bs using List.reverseRecOn with
  | nil =>
    obtain ⟨row, hrow, hfn, -⟩ := ha.row
    exact ⟨row, hrow, hfn⟩
  | append_singleton bs c ih =>
    obtain ⟨row, hrow, hfn⟩ := ih fun bs₁ x bs₂ hsp => hqu bs₁ x (bs₂ ++ [c]) (by simp [hsp])
    obtain ⟨hfl, hno⟩ := hqu bs c [] rfl
    obtain ⟨row', hrow', hkp⟩ := fence_kept hrow hfl hno
    refine ⟨row', ?_, hkp.trans hfn⟩
    rw [← hrow', append_assoc, cons_append]

theorem release_after (interval : Duration → Duration) (as : List LeaseCall) {c : LeaseCall}
    {holder : String}
    (hop : c.op = .release clusterID holder) :
    (leasesAfter interval (as ++ [c]) = leasesAfter interval as ∧ c.fault = .rolledBack) ∨
      leasesAfter interval (as ++ [c]) = update (leasesAfter interval as) clusterID
        (releaseRow c.now holder (leasesAfter interval as clusterID)) := by
  rw [leasesAfter_concat]
  simp only [LeaseCall.exec, hop]
  exact release_cases c.now c.fault clusterID holder _

theorem releaseRow_expired {now : Time} {holder : String} {l} {row : LeaseRow}
    (h : releaseRow now holder l = some row) (hhl : row.holder = holder) :
    row.expiresAt ≤ now := by
  cases l with
  | none => cases h
  | some x =>
    simp only [releaseRow] at h
    split at h
    · cases h
      exact le_refl now
    next hhd =>
      cases h
      simpa [LeaseRow.heldBy, hhl] using hhd

theorem releaseRow_lost {now : Time} {holder : String} {l}
    (h : ∀ row, l = some row → row.holder ≠ holder ∨ row.expiresAt ≤ now) :
    releaseRow now holder l = l := by
  cases l with
  | none => rfl
  | some x =>
    simp only [releaseRow]
    split
    next hhd =>
      simp only [LeaseRow.heldBy, Bool.and_eq_true, decide_eq_true_eq] at hhd
      rcases h x rfl with hot | hexp
      · exact absurd hhd.1 hot
      · exact absurd hhd.2 (not_lt.mpr hexp)
    · rfl

/-- In every history whose times do not decrease the fence of every cluster counts tenures. -/
theorem fence_counts_tenures (interval : Duration → Duration) (calls : List LeaseCall)
    (hordered : InOrder calls) (clusterID : String) :
    CountsTenures interval calls clusterID where
  nondecreasing := by
    intro as bs cs _ row hrow
    exact fence_mono as bs hrow
  continuous := by
    intro as a bs b cs hcl holder holder' l l' ha hb hfn
    refine continuous_of_inOrder ?_ ha hb hfn
    refine hordered.sublist ?_
    rw [hcl, append_assoc]
    refine List.Sublist.trans ?_ (sublist_append_right as _)
    exact List.Sublist.append_left (l := a :: bs) (singleton_sublist.mpr mem_cons_self)
  next := by
    intro as c cs _ holder l row hacq hrow hen
    obtain ⟨row', -, hfn, -, hbe⟩ := hacq.row
    rcases hbe row hrow with ⟨hhl, hli, -⟩ | ⟨-, hnx⟩
    · rcases hen with hot | hexp
      · exact absurd hhl hot
      · exact absurd hli (not_lt.mpr hexp)
    · exact hfn.symm.trans hnx
  previous := by
    intro as a bs cs _ holder l ha hqu
    exact fence_last_returned ha bs hqu
  released := by
    intro as c cs _ holder hop hfl row hrow hhl
    rcases release_after interval as hop with ⟨-, hbc⟩ | hrw
    · exact absurd hbc hfl
    · rw [hrw, update_self] at hrow
      exact releaseRow_expired hrow hhl
  lost := by
    intro as c cs _ holder hop hls
    rcases release_after interval as hop with ⟨hsm, -⟩ | hrw
    · exact hsm
    · rw [hrw, releaseRow_lost hls, update_eq_self]

/-- Replica `a` renews, loses the lease to `b` by letting it expire, and releases late. -/
def failover : List LeaseCall :=
  [⟨0, .acquire "local" "a" 60, .noFault⟩, ⟨30, .acquire "local" "a" 60, .noFault⟩,
    ⟨100, .acquire "local" "b" 60, .noFault⟩, ⟨110, .release "local" "a", .noFault⟩]

theorem fence_counts_tenures_failover : CountsTenures id failover "local" ∧
      leasesAfter id (failover.take 2) "local" = some ⟨"a", 1, 0, 30, 90⟩ ∧
      leasesAfter id failover "local" = some ⟨"b", 2, 100, 100, 160⟩ :=
  ⟨fence_counts_tenures id failover (by simp [InOrder, failover]) "local", rfl, rfl⟩

end KubeCenter.Store
