import KubeCenter.Lib.Reactive
import Mathlib.Data.List.Sort

/-! # Revisions of a cluster's compliance identity

`store/compliance_identity.go` on the row of one cluster, statement by statement. An INSERT draws
its revision with its VALUES and only then finds out whether there is a row: another save can
commit in between. -/
namespace KubeCenter.Store.ComplianceIdentity
open Lib List
open Function (update update_self update_of_ne)

structure Identity where
  username : String
  groups : List String
deriving DecidableEq

structure Row where
  identity : Identity
  revision : ℕ
deriving DecidableEq

/-- An `Upsert` between its statements. -/
inductive Save
  | idle
  /-- The UPDATE found no row. -/
  | missed (identity : Identity)
  /-- The INSERT has evaluated its VALUES. -/
  | drawn (excluded : Row)
  | done

structure Db where
  /-- The last value `nextval` gave. -/
  seq : ℕ
  row : Option Row
  saves : ℕ → Save
  /-- What was committed, in order; a clear is `none`. -/
  history : List (Option Row)
  /-- The saves in the order in which they drew their revisions. -/
  draws : List ℕ
  /-- Those that changed the identity, in the order in which they committed. -/
  changes : List ℕ

inductive Statement
  | update (save : ℕ) (identity : Identity)
  | values (save : ℕ)
  | insert (save : ℕ)
  | delete
  /-- A `nextval` whose value is not stored, as by an UPDATE that is evaluated again. -/
  | skip

/-- The row a save leaves, where the revision of `new` is that of a change. -/
def stored (row : Option Row) (new : Row) : Row :=
  match row with
  | some old =>
    ⟨new.identity, if old.identity ≠ new.identity then new.revision else old.revision⟩
  | none => new

/-- A save of the identity changes the row, or there was none. -/
def Changes (old : Option Row) (identity : Identity) : Prop := ∀ r ∈ old, r.identity ≠ identity

instance (old : Option Row) (identity : Identity) : Decidable (Changes old identity) :=
  inferInstanceAs (Decidable (∀ r ∈ old, _))

namespace Db

def commit (d : Db) (row : Option Row) : Db := { d with row, history := d.history ++ [row] }

def store (d : Db) (save : ℕ) (new : Row) : Db :=
  { d with
    saves := update d.saves save .done
    changes := if Changes d.row new.identity then d.changes ++ [save] else d.changes }.commit
      (some (stored d.row new))

/-- The save draws its revision with `nextval`. -/
def draw (d : Db) (save : ℕ) (identity : Identity) : Db :=
  { d with
    seq := d.seq + 1
    saves := update d.saves save (.drawn ⟨identity, d.seq + 1⟩)
    draws := d.draws ++ [save] }

def exec (d : Db) : Statement → Db
  | .update save identity =>
    match d.saves save, d.row with
    | .idle, some old =>
      -- `nextval` stands in the branch that needs it
      (if old.identity ≠ identity then d.draw save identity else d).store save
        ⟨identity, d.seq + 1⟩
    | .idle, none => { d with saves := update d.saves save (.missed identity) }
    | _, _ => d
  | .values save =>
    match d.saves save with
    | .missed identity => d.draw save identity
    | _ => d
  | .insert save =>
    match d.saves save with
    | .drawn excluded => d.store save excluded
    | _ => d
  | .delete => if d.row.isSome then d.commit none else d
  | .skip => { d with seq := d.seq + 1 }

def empty : Db := ⟨0, none, fun _ => .idle, [], [], []⟩

def run (statements : List Statement) : Db := statements.foldl exec empty

def rows (d : Db) : List Row := d.history.filterMap id

end Db

/-- What is committed after a history is no change, or has the largest revision. -/
def Grown (history : List (Option Row)) (x : Option Row) : Prop :=
  ∀ new ∈ x, Changes history.getLast?.join new.identity →
    ∀ r ∈ history.filterMap id, r.revision < new.revision

/-- Every change has a larger revision than every row before it. -/
def Grows (history : List (Option Row)) : Prop :=
  ∀ before x, before ++ [x] <+: history → Grown before x

namespace Db

/-- What holds of a save, where `of` gives each the row it drew. -/
def Follows (of : ℕ → Row) (draws changes : List ℕ) (a : ℕ) : Save → Prop
  | .idle | .missed _ => a ∉ draws
  | .drawn x => of a = x ∧ a ∈ draws ∧ a ∉ changes
  | .done => True

def Ordered (of : ℕ → Row) : List ℕ → Prop :=
  List.Pairwise fun a b => (of a).revision < (of b).revision

structure Inv (of : ℕ → Row) (d : Db) : Prop where
  last : d.row = d.history.getLast?.join
  ordered : Ordered of d.draws
  bound : ∀ a ∈ d.draws, (of a).revision ≤ d.seq
  drew : d.changes ⊆ d.draws
  rows : ∀ r, r ∈ d.rows ↔ ∃ a ∈ d.changes, of a = r
  saves : ∀ a, Follows of d.draws d.changes a (d.saves a)
  grows : Grows d.history ↔ Ordered of d.changes

variable {d : Db} {of : ℕ → Row} {new : Row} {save : ℕ}

theorem stored_cases (row : Option Row) (new : Row) :
    Changes row new.identity ∧ stored row new = new ∨
      ∃ old, row = some old ∧ old.identity = new.identity ∧ stored row new = old := by
  cases row with
  | none => exact .inl ⟨nofun, rfl⟩
  | some old =>
    by_cases h : old.identity = new.identity
    · exact .inr ⟨old, rfl, h, by rw [stored, if_neg (not_not.mpr h), ← h]⟩
    · exact .inl ⟨by rintro r ⟨⟩; exact h, by rw [stored, if_pos h]⟩

theorem forall_beginning_concat {α : Type} {P : List α → α → Prop} {l : List α} {a : α} :
    (∀ b x, b ++ [x] <+: l ++ [a] → P b x) ↔ (∀ b x, b ++ [x] <+: l → P b x) ∧ P l a := by
  refine ⟨fun h => ⟨fun b x hb => h b x (hb.trans ⟨[a], rfl⟩), h l a ( prefix_refl _)⟩, ?_⟩
  rintro ⟨h, ha⟩ b x hb
  rcases prefix_concat_iff.mp hb with he | hb
  · obtain ⟨rfl, hx⟩ := append_inj' he rfl
    cases hx
    exact ha
  · exact h b x hb

theorem rows_commit (d : Db) (x : Option Row) (r : Row) :
    r ∈ (d.commit x).rows ↔ r ∈ d.rows ∨ r ∈ x := by
  cases x <;> simp [Db.rows, Db.commit, eq_comm]

/-- A commit that is no change. -/
theorem Inv.commit (h : Inv of d) {x : Option Row} (hx : ∀ r ∈ x, d.row = some r) :
    Inv of (d.commit x) := by
  refine { h with last := by simp [Db.commit], rows := fun r => ?_, grows := ?_ }
  · refine (rows_commit d x r).trans ((or_iff_left_of_imp fun hr => ?_).trans (h.rows r))
    have hold := hx r hr
    rw [h.last, Option.join_eq_some_iff] at hold
    exact mem_filterMap.mpr ⟨_, mem_of_getLast? hold, rfl⟩
  · refine forall_beginning_concat.trans ((and_iff_left fun new hn hc => ?_).trans h.grows)
    rw [← h.last] at hc
    exact absurd rfl (hc new (hx new hn))

theorem Inv.goto (h : Inv of d) {s : Save} (hs : Follows of d.draws d.changes save s) :
    Inv of { d with saves := update d.saves save s } := by
  refine { h with saves := ?_ }
  exact (Function.forall_update_iff _ fun a => Follows of d.draws d.changes a).mpr
    ⟨hs, fun a _ => h.saves a⟩

theorem Inv.change (h : Inv of d) (hs : of save = new ∧ save ∈ d.draws ∧ save ∉ d.changes)
    (hdone : d.saves save = .done) (hc : Changes d.row new.identity) :
    Inv of ({ d with changes := d.changes ++ [save] }.commit (some new)) := by
  obtain ⟨rfl, hdr, hno⟩ := hs
  refine { h with
    last := by simp [Db.commit]
    drew := by simpa [Db.commit] using ⟨h.drew, hdr⟩
    rows := fun r => ?_
    saves := fun a => ?_
    grows := forall_beginning_concat.trans ?_ }
  · rw [rows_commit]
    simp [Db.commit, or_and_right, exists_or, ← h.rows, Db.rows]
  · have ha := h.saves a
    simp only [Db.commit]
    cases hsa : d.saves a with
    | drawn x =>
      rw [hsa] at ha
      have hne : a ≠ save := fun he => by simp [he, hdone] at hsa
      exact ⟨ha.1, ha.2.1, by simp [ha.2.2, hne]⟩
    | idle | missed =>
      rw [hsa] at ha
      exact ha
    | done => trivial
  · have hgr : Grown d.history (some (of save)) ↔
        ∀ a ∈ d.changes, (of a).revision < (of save).revision := by
      simp only [Grown, Option.mem_some_iff, forall_eq', ← h.last, hc, forall_const]
      exact ⟨fun hg a ha => hg _ ((h.rows _).mpr ⟨a, ha, rfl⟩), fun hg r hr => by
        obtain ⟨a, ha, rfl⟩ := (h.rows r).mp hr
        exact hg a ha⟩
    rw [hgr]
    refine (and_congr_left' h.grows).trans ?_
    simp [Db.commit, Ordered, pairwise_append]

theorem Inv.store (h : Inv of d) (hs : Changes d.row new.identity →
    of save = new ∧ save ∈ d.draws ∧ save ∉ d.changes) : Inv of (d.store save new) := by
  have hdone : Inv of { d with saves := update d.saves save .done } := h.goto trivial
  rcases stored_cases d.row new with ⟨hc, he⟩ | ⟨old, hr, hi, he⟩
  · rw [Db.store, if_pos hc, he]
    exact hdone.change (hs hc) (update_self ..) hc
  · rw [Db.store, if_neg fun hc => hc old hr hi, he]
    exact hdone.commit fun r hr' => by cases hr'; exact hr

theorem Inv.draw (h : Inv of d) (hno : save ∉ d.draws) (identity : Identity) :
    Inv (update of save ⟨identity, d.seq + 1⟩) (d.draw save identity) := by
  have hof : ∀ a ∈ d.draws, update of save ⟨identity, d.seq + 1⟩ a = of a := fun a ha =>
    update_of_ne (by rintro rfl; exact hno ha) ..
  have hord : ∀ {l}, l ⊆ d.draws →
      (Ordered (update of save ⟨identity, d.seq + 1⟩) l ↔ Ordered of l) := fun hl =>
    Pairwise.iff_of_mem fun ha hb => by rw [hof _ (hl ha), hof _ (hl hb)]
  refine ⟨h.last, ?_, ?_, fun a ha => mem_append_left _ (h.drew ha), fun r => ?_, ?_, ?_⟩
  · refine pairwise_append.mpr ⟨(hord (Subset.refl _)).mpr h.ordered, pairwise_singleton .., ?_⟩
    intro a ha b hb
    rw [mem_singleton.mp hb, hof a ha, update_self]
    exact Nat.lt_succ_of_le (h.bound a ha)
  · intro a ha
    rcases mem_append.mp ha with ha | ha
    · rw [hof a ha]
      exact Nat.le_succ_of_le (h.bound a ha)
    · rw [mem_singleton.mp ha, update_self]
      exact Nat.le_refl _
  · refine (h.rows r).trans (exists_congr fun a => and_congr_right fun ha => ?_)
    rw [hof a (h.drew ha)]
  · refine (Function.forall_update_iff _ fun a => Follows _ _ _ a).mpr
      ⟨⟨update_self .., mem_append_right _ (mem_singleton_self _), fun hc => hno (h.drew hc)⟩,
        fun a ha => ?_⟩
    have hs := h.saves a
    cases hsa : d.saves a with
    | drawn x =>
      rw [hsa] at hs
      exact ⟨(hof a hs.2.1).trans hs.1, mem_append_left _ hs.2.1, hs.2.2⟩
    | idle | missed =>
      rw [hsa] at hs
      simpa [Follows, Db.draw, ha] using hs
    | done => trivial
  · exact h.grows.trans (hord h.drew).symm

theorem Inv.exec (h : Inv of d) (s : Statement) : ∃ of', Inv of' (d.exec s) := by
  cases s with
  | update save identity =>
    have hs := h.saves save
    simp only [Db.exec]
    split
    next old hid hr =>
      rw [hid] at hs
      have hd := h.draw hs identity
      by_cases he : old.identity = identity
      · rw [if_neg (not_not.mpr he)]
        exact ⟨of, h.store fun hc => absurd he (hc old hr)⟩
      · rw [if_pos he]
        exact ⟨_, hd.store fun _ => by simpa [Db.draw, Follows] using hd.saves save⟩
    next hid _ =>
      rw [hid] at hs
      exact ⟨of, h.goto hs⟩
    · exact ⟨of, h⟩
  | values save =>
    have hs := h.saves save
    simp only [Db.exec]
    split
    next identity hm =>
      rw [hm] at hs
      exact ⟨_, h.draw hs identity⟩
    · exact ⟨of, h⟩
  | insert save =>
    have hs := h.saves save
    simp only [Db.exec]
    split
    next new hd =>
      rw [hd] at hs
      exact ⟨of, h.store fun _ => hs⟩
    · exact ⟨of, h⟩
  | delete =>
    simp only [Db.exec]
    split
    · exact ⟨of, h.commit nofun⟩
    · exact ⟨of, h⟩
  | skip => exact ⟨of, { h with bound := fun a ha => Nat.le_succ_of_le (h.bound a ha) }⟩

theorem exists_inv (statements : List Statement) : ∃ of, Inv of (run statements) := by
  induction statements using reverseRecOn with
  | nil =>
    refine ⟨fun _ => ⟨⟨"", []⟩, 0⟩, rfl, .nil, nofun, nofun, by simp [run, empty, Db.rows], ?_, ?_⟩
    · exact fun a => not_mem_nil
    · simp [Grows, run, empty, Ordered]
  | append_singleton statements s ih =>
    obtain ⟨of, h⟩ := ih
    rw [run, foldl_append]
    exact h.exec s

theorem Inv.inj (h : Inv of d) {a b : ℕ} (ha : a ∈ d.draws) (hb : b ∈ d.draws)
    (he : (of a).revision = (of b).revision) : a = b :=
  inj_on_of_nodup_map (f := fun a => (of a).revision)
    (pairwise_map.mpr (h.ordered.imp Nat.ne_of_lt)) ha hb he

/-- Strictly ordered lists of saves that drew are those in the order of the draws. -/
theorem Inv.ordered_iff (h : Inv of d) : Ordered of d.changes ↔ d.changes <+ d.draws := by
  have hasymm : Std.Antisymm fun a b => (of a).revision < (of b).revision :=
    ⟨fun _ _ hab hba => absurd hab (Nat.lt_asymm hba)⟩
  refine ⟨fun ho => sublist_of_subperm_of_pairwise ?_ ho h.ordered, fun hs => h.ordered.sublist hs⟩
  exact subperm_of_subset (ho.imp fun hlt he => by simp [he] at hlt) h.drew

end Db

/-- A revision names one identity, and the revisions of changes grow exactly when the saves that
changed the identity committed in the order in which they drew. -/
theorem revisions_grow_iff_in_order (statements : List Statement) :
    (∀ r ∈ (Db.run statements).rows, ∀ r' ∈ (Db.run statements).rows, r.revision = r'.revision →
      r.identity = r'.identity) ∧
    (Grows (Db.run statements).history ↔
      (Db.run statements).changes <+ (Db.run statements).draws) := by
  obtain ⟨of, h⟩ := Db.exists_inv statements
  refine ⟨fun r hr r' hr' he => ?_, h.grows.trans h.ordered_iff⟩
  obtain ⟨a, ha, rfl⟩ := (h.rows r).mp hr
  obtain ⟨b, hb, rfl⟩ := (h.rows r').mp hr'
  rw [h.inj (h.drew ha) (h.drew hb) he]

private def firstSaves : List Statement :=
  [.update 0 ⟨"alice", []⟩, .update 1 ⟨"bob", []⟩, .values 0, .values 1, .insert 1, .insert 0]

/-- Two first saves overlap, and the one that drew first commits last. -/
theorem revision_goes_down :
    (Db.run firstSaves).history = [some ⟨⟨"bob", []⟩, 2⟩, some ⟨⟨"alice", []⟩, 1⟩] ∧
    ¬Grows (Db.run firstSaves).history := by
  have hrun : (Db.run firstSaves).history =
      [some ⟨⟨"bob", []⟩, 2⟩, some ⟨⟨"alice", []⟩, 1⟩] := by decide
  refine ⟨hrun, fun h => ?_⟩
  rw [hrun] at h
  have hlt := h [some ⟨⟨"bob", []⟩, 2⟩] (some ⟨⟨"alice", []⟩, 1⟩) (prefix_refl _) _ rfl
    (by rintro r ⟨⟩; decide) ⟨⟨"bob", []⟩, 2⟩ (by decide)
  exact absurd hlt (by decide)

end KubeCenter.Store.ComplianceIdentity
