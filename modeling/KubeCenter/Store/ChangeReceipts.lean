import KubeCenter.Gitops.Types
import KubeCenter.Diagnostics.CheckResult

/-! # Change receipts: rows and guarded writes

One row per tracked apply, keyed by the client's operation id. `Fault` says whether the database
answered a write, lost it before the commit, or committed it and lost the answer. The JSON columns
are modelled by what they decode to. -/
namespace KubeCenter.Store
open Lib.Go Gitops Diagnostics
open Function (update update_of_ne update_self)

inductive ReceiptState where
  | previewed
  | applying
  | applied
  | partlyApplied
  | failed
  | unknown
deriving DecidableEq

def ReceiptState.text : ReceiptState → String
  | .previewed => "previewed"
  | .applying => "applying"
  | .applied => "applied"
  | .partlyApplied => "partial"
  | .failed => "failed"
  | .unknown => "unknown"

def ReceiptState.isTerminal : ReceiptState → Bool
  | .applied | .partlyApplied | .failed | .unknown => true
  | .previewed | .applying => false

inductive VerificationState where
  | pending
  | verifying
  | verified
  | inconclusive
  | verificationFailed
deriving DecidableEq

def VerificationState.isFinal : VerificationState → Bool
  | .verified | .inconclusive | .verificationFailed => true
  | .pending | .verifying => false

inductive Action where
  | created
  | configured
  | unchanged
  | failed
  | unrecognized (text : String)
deriving DecidableEq

/-- One per-document outcome of `change_receipts.objects`. -/
structure ReceiptObject where
  index : Int
  group : String
  version : String
  resource : String
  kind : String
  namespace_ : String
  name : String
  uid : String
  action : Action
  error : String
  errorClass : String
  recordedAt : Time
deriving DecidableEq

/-- One row of `change_receipts`. -/
structure ChangeReceipt where
  id : Uuid
  ownerID : String
  ownerUsername : String
  clusterID : String
  clusterGeneration : String
  contentDigest : String
  documentCount : Nat
  force : Bool
  containsSecret : Bool
  repairOf : Option Uuid
  state : ReceiptState
  objects : List ReceiptObject
  ownership : List OwnershipResult
  verificationState : VerificationState
  verification : List CheckResult
  createdAt : Time
  mutationStartedAt : Option Time
  completedAt : Option Time
  verifiedAt : Option Time
deriving DecidableEq

abbrev Receipts := Uuid → Option ChangeReceipt

/-- `database` is every driver error that is not one of the store's own. -/
inductive ReceiptError where
  | receiptExists
  | receiptNotFound
  | receiptAlreadyFinal
  | receiptInvalid (text : String)
  | database
deriving DecidableEq

inductive Fault where
  | none
  | before
  | after
deriving DecidableEq

/-- A write that turns `old` into `new` and answers `answer`, under a fault. -/
def Fault.write {σ : Type} (f : Fault) (old new : σ) (answer : Except ReceiptError Unit) :
    σ × Except ReceiptError Unit :=
  match f with
  | .none => (new, answer)
  | .before => (old, .error .database)
  | .after => (new, .error .database)

/-- Why `jsonArrayOrEmpty` refuses a column value. -/
inductive JsonArrayError where
  | notAnArray
  | notValidJson
deriving DecidableEq

def JsonArrayError.text (field : String) : JsonArrayError → String
  | .notAnArray => field ++ " must be a JSON array"
  | .notValidJson => field ++ " is not valid JSON"

/-- The database stamps the rest. `ownership` is what `jsonArrayOrEmpty` makes of the submitted
text. -/
structure NewReceipt where
  id : Uuid
  ownerID : String
  ownerUsername : String
  clusterID : String
  clusterGeneration : String
  contentDigest : String
  documentCount : Nat
  force : Bool
  containsSecret : Bool
  repairOf : Option Uuid
  ownership : Except JsonArrayError (List OwnershipResult)

/-- For a receipt inserted as `applying` with no objects and no verification. -/
def NewReceipt.validate (r : NewReceipt) : Except ReceiptError Unit :=
  if r.id = Uuid.nil then .error (.receiptInvalid "id is required")
  else if r.ownerID = "" then .error (.receiptInvalid "owner id is required")
  else if r.contentDigest = "" then .error (.receiptInvalid "content digest is required")
  else match r.ownership with
    | .error e => .error (.receiptInvalid (e.text "ownership"))
    | .ok _ => .ok ()

def NewReceipt.row (r : NewReceipt) (now : Time) : ChangeReceipt where
  id := r.id
  ownerID := r.ownerID
  ownerUsername := r.ownerUsername
  clusterID := if r.clusterID = "" then "local" else r.clusterID
  clusterGeneration := r.clusterGeneration
  contentDigest := r.contentDigest
  documentCount := r.documentCount
  force := r.force
  containsSecret := r.containsSecret
  repairOf := r.repairOf
  state := .applying
  objects := []
  ownership := r.ownership.toOption.getD []
  verificationState := .pending
  verification := []
  createdAt := now
  mutationStartedAt := none
  completedAt := none
  verifiedAt := none

namespace Receipts

/-- `Insert`: the primary key collision is the statement's own answer. -/
def insert (rs : Receipts) (r : NewReceipt) (f : Fault) (now : Time) :
    Receipts × Except ReceiptError Unit :=
  match r.validate with
  | .error e => (rs, .error e)
  | .ok () =>
    match rs r.id with
    | some _ => f.write rs rs (.error .receiptExists)
    | none => f.write rs (update rs r.id (some (r.row now))) (.ok ())

section

variable (rs : Receipts) (id : Uuid)

/-- `noRowsError`: why a guarded UPDATE matched nothing. -/
def noRowsError : ReceiptError := if (rs id).isNone then .receiptNotFound else .receiptAlreadyFinal

/-- The last branch is the idempotent one: already stamped and still in flight. -/
def markMutationStarted (f : Fault) (now : Time) : Receipts × Except ReceiptError Unit :=
  match rs id with
  | none => f.write rs rs (.error .receiptNotFound)
  | some r =>
    if r.mutationStartedAt.isNone && r.completedAt.isNone then
      f.write rs (update rs id (some { r with mutationStartedAt := some now })) (.ok ())
    else if r.completedAt.isSome then f.write rs rs (.error .receiptAlreadyFinal)
    else f.write rs rs (.ok ())

def appendObject (o : ReceiptObject) (f : Fault) : Receipts × Except ReceiptError Unit :=
  match rs id with
  | some r =>
    if r.completedAt.isNone then
      f.write rs (update rs id (some { r with objects := r.objects ++ [o] })) (.ok ())
    else f.write rs rs (.error (noRowsError rs id))
  | none => f.write rs rs (.error (noRowsError rs id))

def finalize (state : ReceiptState) (f : Fault) (now : Time) :
    Receipts × Except ReceiptError Unit :=
  if !state.isTerminal then
    (rs, .error (.receiptInvalid ("\"" ++ state.text ++ "\" is not a terminal state")))
  else match rs id with
  | some r =>
    if r.completedAt.isNone then
      f.write rs (update rs id (some { r with state := state, completedAt := some now })) (.ok ())
    else f.write rs rs (.error (noRowsError rs id))
  | none => f.write rs rs (.error (noRowsError rs id))

/-- `SetVerification`: refused once the stored verification state is final. -/
def setVerification (state : VerificationState)
    (payload : List CheckResult) (f : Fault) (now : Time) : Receipts × Except ReceiptError Unit :=
  match rs id with
  | some r =>
    if r.verificationState.isFinal then f.write rs rs (.error (noRowsError rs id))
    else
      f.write rs (update rs id (some { r with
        verificationState := state
        verification := payload
        verifiedAt := if state.isFinal then some now else r.verifiedAt })) (.ok ())
  | none => f.write rs rs (.error (noRowsError rs id))

end

/-- What `ReconcileOrphans` does to one row. -/
def reconcileRow (now : Time) (olderThan : Duration) (r : ChangeReceipt) : ChangeReceipt :=
  if r.completedAt.isNone && r.state == .applying && decide (r.createdAt < now - olderThan) then
    { r with
      state := if r.mutationStartedAt.isNone then .failed else .unknown
      verificationState := .inconclusive
      verifiedAt := some now
      completedAt := some now }
  else r

/-- `ReconcileOrphans`: one statement over every row. -/
def reconcileOrphans (rs : Receipts) (olderThan : Duration) (f : Fault) (now : Time) :
    Receipts × Except ReceiptError Unit :=
  if olderThan ≤ 0 then (rs, .error (.receiptInvalid "reconcile age bound must be positive"))
  else f.write rs (fun id => (rs id).map (reconcileRow now olderThan)) (.ok ())

/-! ## What each write can do -/

variable {a b : Except ReceiptError Unit} {rs rs' : Receipts} {f : Fault} {id : Uuid} {now : Time}
  {σ : Type} {old : σ} {t : σ}

theorem write_cases {new : σ} (h : f.write old new a = (t, b)) :
    (t = new ∧ (b = a ∨ b = .error .database)) ∨ (t = old ∧ b = .error .database) := by
  cases f <;> cases h
  · exact .inl ⟨rfl, .inl rfl⟩
  · exact .inr ⟨rfl, rfl⟩
  · exact .inl ⟨rfl, .inr rfl⟩

/-- A write that would change nothing says `ok` only when that is its answer. -/
theorem write_same (h : f.write old old a = (t, b)) : t = old ∧ (b = .ok () → a = .ok ()) := by
  rcases write_cases h with ⟨ht, hb⟩ | ⟨ht, hb⟩
  · refine ⟨ht, fun hok => ?_⟩
    rcases hb with hb | hb
    · rw [← hb]; exact hok
    · rw [hb] at hok; cases hok
  · exact ⟨ht, fun hok => by rw [hb] at hok; cases hok⟩

theorem write_refused {e} (h : f.write old old (.error e) = (t, b)) : t = old ∧ b ≠ .ok () := by
  obtain ⟨ht, hok⟩ := write_same h
  exact ⟨ht, fun hb => by cases hok hb⟩

theorem write_new {new : σ} (h : f.write old new a = (t, b)) :
    t = new ∨ (t = old ∧ b ≠ .ok ()) := by
  rcases write_cases h with ⟨ht, _⟩ | ⟨ht, hb⟩
  · exact .inl ht
  · exact .inr ⟨ht, by rw [hb]; exact nofun⟩

theorem insert_cases {r} (h : rs.insert r f now = (rs', a)) : (rs' = rs ∧ a ≠ .ok ()) ∨
      (rs r.id = none ∧ rs' = update rs r.id (some (r.row now))) := by
  unfold insert at h
  split at h
  · cases h; exact .inl ⟨rfl, nofun⟩
  · split at h
    · exact .inl (write_refused h)
    next hno =>
      rcases write_new h with ht | ht
      · exact .inr ⟨hno, ht⟩
      · exact .inl ht

theorem markMutationStarted_cases (h : rs.markMutationStarted id f now = (rs', a)) :
    (rs' = rs ∧ (a = .ok () → ∃ r, rs id = some r ∧ r.mutationStartedAt ≠ none ∧
      r.completedAt = none)) ∨
      ∃ r, rs id = some r ∧ r.mutationStartedAt = none ∧ r.completedAt = none ∧
        rs' = update rs id (some { r with mutationStartedAt := some now }) := by
  unfold markMutationStarted at h
  split at h
  · obtain ⟨ht, hok⟩ := write_same h
    exact .inl ⟨ht, fun ha => by cases hok ha⟩
  next r hr =>
    split at h
    · rename_i hg
      simp only [Bool.and_eq_true, Option.isNone_iff_eq_none] at hg
      rcases write_new h with ht | ⟨ht, hne⟩
      · exact .inr ⟨r, hr, hg.1, hg.2, ht⟩
      · exact .inl ⟨ht, fun ha => absurd ha hne⟩
    · rename_i hg
      split at h
      · obtain ⟨ht, hok⟩ := write_same h
        exact .inl ⟨ht, fun ha => by cases hok ha⟩
      · rename_i hc
        have hc : r.completedAt = none := by simpa using hc
        refine .inl ⟨(write_same h).1, fun _ => ⟨r, hr, ?_, hc⟩⟩
        intro hm
        simp [hm, hc] at hg

theorem appendObject_cases {o} (h : rs.appendObject id o f = (rs', a)) : (rs' = rs ∧ a ≠ .ok ()) ∨
      ∃ r, rs id = some r ∧ r.completedAt = none ∧
        rs' = update rs id (some { r with objects := r.objects ++ [o] }) := by
  unfold appendObject at h
  split at h
  next r hr =>
    split at h
    · rename_i hc
      rcases write_new h with ht | ht
      · exact .inr ⟨r, hr, by simpa using hc, ht⟩
      · exact .inl ht
    · exact .inl (write_refused h)
  · exact .inl (write_refused h)

theorem finalize_cases {state} (h : rs.finalize id state f now = (rs', a)) :
    (rs' = rs ∧ a ≠ .ok ()) ∨ ∃ r, rs id = some r ∧ r.completedAt = none ∧
        rs' = update rs id (some { r with state := state, completedAt := some now }) := by
  unfold finalize at h
  split at h
  · cases h; exact .inl ⟨rfl, nofun⟩
  · split at h
    next r hr =>
      split at h
      · rename_i hc
        rcases write_new h with ht | ht
        · exact .inr ⟨r, hr, by simpa using hc, ht⟩
        · exact .inl ht
      · exact .inl (write_refused h)
    · exact .inl (write_refused h)

theorem setVerification_cases {state payload}
    (h : rs.setVerification id state payload f now = (rs', a)) : (rs' = rs ∧ a ≠ .ok ()) ∨
      ∃ r, rs id = some r ∧ r.verificationState.isFinal = false ∧ rs' = update rs id (some { r with
          verificationState := state
          verification := payload
          verifiedAt := if state.isFinal then some now else r.verifiedAt }) := by
  unfold setVerification at h
  split at h
  next r hr =>
    split at h
    · exact .inl (write_refused h)
    · rename_i hv
      rcases write_new h with ht | ht
      · exact .inr ⟨r, hr, by simpa using hv, ht⟩
      · exact .inl ht
  · exact .inl (write_refused h)

theorem get_of_fresh {id₁ : Uuid} {r₁} (hno : rs id = none) (r : ChangeReceipt)
    (hr₁ : rs id₁ = some r₁) : update rs id (some r) id₁ = some r₁ := by
  have hne : id₁ ≠ id := by
    rintro rfl
    rw [hno] at hr₁
    cases hr₁
  rw [update_of_ne hne, hr₁]

theorem exists_of_update {id₁ : Uuid} {r r' r₁ : ChangeReceipt}
    {R : ChangeReceipt → ChangeReceipt → Prop} (hrf : R r₁ r₁) (hr : rs id = some r) (h : R r r')
    (hr₁ : rs id₁ = some r₁) : ∃ r₂, update rs id (some r') id₁ = some r₂ ∧ R r₁ r₂ := by
  by_cases he : id₁ = id
  · subst he
    rw [hr] at hr₁
    cases hr₁
    exact ⟨r', update_self .., h⟩
  · exact ⟨r₁, by rw [update_of_ne he, hr₁], hrf⟩

theorem reconcileOrphans_cases {olderThan : Duration}
    (h : rs.reconcileOrphans olderThan f now = (rs', a)) :
    rs' = rs ∨ rs' = fun id => (rs id).map (reconcileRow now olderThan) := by
  unfold reconcileOrphans at h
  split at h
  · cases h; exact .inl rfl
  · rcases write_new h with ht | ht
    · exact .inr ht
    · exact .inl ht.1

theorem reconcileRow_cases (now : Time) (olderThan : Duration) (r : ChangeReceipt) :
    reconcileRow now olderThan r = r ∨ (r.completedAt = none ∧ r.state = .applying ∧
        reconcileRow now olderThan r = { r with
          state := if r.mutationStartedAt.isNone then .failed else .unknown
          verificationState := .inconclusive
          verifiedAt := some now
          completedAt := some now }) := by
  unfold reconcileRow
  split
  next h =>
    simp only [Bool.and_eq_true, Option.isNone_iff_eq_none, beq_iff_eq] at h
    exact .inr ⟨h.1.1, h.1.2, rfl⟩
  · exact .inl rfl

end Receipts

end KubeCenter.Store
