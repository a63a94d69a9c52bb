import KubeCenter.Lib.Reactive
import Mathlib.Data.List.AList

/-! # Pending creates

`frontend/lib/incident-create.ts`: the record of a create of unknown outcome is in sessionStorage,
and in a map of the page while storage refuses. A tombstone in that map hides what storage would
not remove. -/
namespace KubeCenter.Client.Pending
open Lib List
open Function (update)

/-- `ν` are the numbers. -/
structure PendingCreate (ν : Type) where
  requestId : String
  title : String
  summary : String
  windowStart : String
  windowEnd : Option String
  createdAt : ν
  sentAt : Option ν
  id : Option String
deriving DecidableEq

inductive PendingCapture (ν : Type)
  | create (c : PendingCreate ν)
  | conflict (sentAt : Option ν)
deriving DecidableEq

/-- What storage has under the prefix, as written, and the overrides. A `none` is a tombstone. -/
structure Page (ν : Type) where
  storage : AList fun _ : String => PendingCapture ν
  fallback : String → Option (Option (PendingCapture ν))

/-- A call, with which of its accesses throw. `clearAll` gets the first `listed` keys of storage. -/
inductive Op (ν : Type)
  | write (key : String) (r : PendingCapture ν) (setThrows : Bool)
  | clear (key : String) (removeThrows getThrows : Bool)
  | clearAll (listed : ℕ) (removeThrows getThrows : String → Bool)
  | read (key : String) (getThrows : Bool)

variable {ν : Type}

section

variable (json : ν → Option ν) (zero : ν)

/-- A text comes back as it is, a number as `json` says. -/
def parse : PendingCapture ν → Option (PendingCapture ν)
  | .conflict sentAt => some (.conflict (sentAt.bind json))
  | .create c =>
    if c.requestId = "" then none
    else some (.create { c with
      windowEnd := c.windowEnd.filter (· ≠ "")
      createdAt := (json c.createdAt).getD zero
      sentAt := c.sentAt.bind json
      id := c.id.filter (· ≠ "") })

namespace Page

def stored (p : Page ν) (key : String) (getThrows : Bool) : Option (PendingCapture ν) :=
  if getThrows then none else (p.storage.lookup key).bind (parse json zero)

def readPendingCapture (p : Page ν) (key : String) (getThrows : Bool) :
    Option (PendingCapture ν) × Page ν :=
  match p.fallback key with
  | some (some r) => (some r, p)
  | some none =>
    (none, if (p.stored json zero key getThrows).isNone then
      { p with fallback := update p.fallback key none } else p)
  | none => (p.stored json zero key getThrows, p)

def writePendingCapture (p : Page ν) (key : String) (r : PendingCapture ν) (setThrows : Bool) :
    Page ν :=
  if setThrows then { p with fallback := update p.fallback key (some (some r)) }
  else ⟨p.storage.insert key r, update p.fallback key none⟩

def clearPendingCapture (p : Page ν) (key : String) (removeThrows getThrows : Bool) : Page ν :=
  if removeThrows then
    let hides := if (p.stored json zero key getThrows).isNone then none else some none
    { p with fallback := update p.fallback key hides }
  else ⟨p.storage.erase key, update p.fallback key none⟩

def clearPendingCaptures (p : Page ν) (listed : ℕ) (removeThrows getThrows : String → Bool) :
    Page ν :=
  (p.storage.keys.take listed).foldl
    (fun p key => p.clearPendingCapture json zero key (removeThrows key) (getThrows key))
    { p with fallback := fun _ => none }

end Page

def pendingPage : Reactive (Page ν) (Op ν) (Option (PendingCapture ν)) where
  init := ⟨∅, fun _ => none⟩
  react p
    | .write key r setThrows => (none, p.writePendingCapture key r setThrows)
    | .clear key removeThrows getThrows =>
      (none, p.clearPendingCapture json zero key removeThrows getThrows)
    | .clearAll listed removeThrows getThrows =>
      (none, p.clearPendingCaptures json zero listed removeThrows getThrows)
    | .read key getThrows => p.readPendingCapture json zero key getThrows

end

/-! ## The last write -/

def Op.next (key : String) (last : Option (PendingCapture ν)) : Op ν → Option (PendingCapture ν)
  | .write k r _ => if k = key then some r else last
  | .clear k _ _ => if k = key then none else last
  | .clearAll .. => none
  | .read .. => last

def lastWrite (key : String) (ops : List (Op ν)) : Option (PendingCapture ν) :=
  ops.foldl (Op.next key) none

section

variable {json : ν → Option ν} {zero : ν}

variable (json zero) in
/-- Storage gives back what is written, and tells of every record that the call has to hide. -/
def Op.Told (p : Page ν) : Op ν → Prop
  | .write _ r setThrows => setThrows = false → parse json zero r = some r
  | .clear key removeThrows getThrows =>
    removeThrows → getThrows → p.stored json zero key false = none
  | .clearAll listed removeThrows getThrows => ∀ key, p.stored json zero key false ≠ none →
    key ∈ p.storage.keys.take listed ∧ ¬ (removeThrows key ∧ getThrows key)
  | .read key getThrows => getThrows → p.fallback key = some none →
    p.stored json zero key false = none

variable (json zero) in
def Page.shown (p : Page ν) (key : String) : Option (PendingCapture ν) :=
  (p.fallback key).getD (p.stored json zero key false)

variable {p : Page ν} {key k : String}

theorem read_shown : (p.readPendingCapture json zero key false).1 = p.shown json zero key := by
  unfold Page.readPendingCapture Page.shown
  split <;> simp [*]

theorem shown_read {getThrows : Bool} (h : (Op.read k getThrows).Told json zero p) :
    (p.readPendingCapture json zero k getThrows).2.shown json zero key = p.shown json zero key := by
  unfold Page.readPendingCapture
  split
  · rfl
  next hk =>
    split
    next hno =>
      by_cases hkey : key = k
      · subst hkey
        have hno : p.stored json zero key false = none := by
          cases getThrows with
          | true => exact h rfl hk
          | false => exact Option.isNone_iff_eq_none.mp hno
        simpa [Page.shown, Page.stored, hk] using hno
      · simp [Page.shown, Page.stored, hkey]
    · rfl
  · rfl

theorem shown_write {r : PendingCapture ν} {setThrows : Bool}
    (h : (Op.write k r setThrows).Told json zero p) :
    (p.writePendingCapture k r setThrows).shown json zero key =
      if k = key then some r else p.shown json zero key := by
  unfold Page.writePendingCapture
  by_cases hkey : key = k
  · subst hkey
    cases setThrows with
    | true => simp [Page.shown]
    | false => simpa [Page.shown, Page.stored] using h rfl
  · cases setThrows <;> simp [Page.shown, Page.stored, hkey, Ne.symm hkey, AList.lookup_insert_ne]

theorem shown_clear {removeThrows getThrows : Bool}
    (h : (Op.clear k removeThrows getThrows).Told json zero p) :
    (p.clearPendingCapture json zero k removeThrows getThrows).shown json zero key =
      if k = key then none else p.shown json zero key := by
  unfold Page.clearPendingCapture
  by_cases hkey : key = k
  · subst hkey
    cases removeThrows with
    | false => simp [Page.shown, Page.stored]
    | true =>
      cases getThrows with
      | true => simpa [Page.shown, Page.stored] using h rfl rfl
      | false => cases hs : p.stored json zero key false <;> simp_all [Page.shown, Page.stored]
  · cases removeThrows <;> simp [Page.shown, Page.stored, hkey, Ne.symm hkey, AList.lookup_erase_ne]

theorem unstored_clear {removeThrows getThrows : Bool} (h : p.stored json zero key false = none) :
    (p.clearPendingCapture json zero k removeThrows getThrows).stored json zero key false =
      none := by
  unfold Page.clearPendingCapture
  split
  · exact h
  · by_cases hkey : key = k
    · subst hkey
      simp [Page.stored]
    · simpa [Page.stored, AList.lookup_erase_ne hkey] using h

theorem shown_clears {keys : List String} {removeThrows getThrows : String → Bool}
    (h : ∀ k ∈ keys, removeThrows k → getThrows k → p.stored json zero k false = none) :
    (keys.foldl (fun p k => p.clearPendingCapture json zero k (removeThrows k) (getThrows k))
      p).shown json zero key = if key ∈ keys then none else p.shown json zero key := by
  induction keys generalizing p with
  | nil => rfl
  | cons k keys ih =>
    obtain ⟨hk, hks⟩ := forall_mem_cons.mp h
    rw [foldl_cons, ih fun k' hk' hr hg => unstored_clear (hks k' hk' hr hg), shown_clear hk]
    grind

theorem shown_react {op : Op ν} (h : op.Told json zero p) :
    ((pendingPage json zero).react p op).2.shown json zero key =
      op.next key (p.shown json zero key) := by
  cases op with
  | write k r setThrows => exact shown_write h
  | clear k removeThrows getThrows => exact shown_clear h
  | read k getThrows => exact shown_read h
  | clearAll listed removeThrows getThrows =>
    refine (shown_clears fun k _ hr hg => ?_).trans ?_
    · by_contra hk
      exact (h k hk).2 ⟨hr, hg⟩
    · split
      · rfl
      next hkey =>
        by_contra hk
        exact hkey (h key hk).1

end

/-- Where storage tells what a call has to hide, reads return the last write. -/
theorem read_returns_last_write (json : ν → Option ν) (zero : ν) (history : List (Op ν))
    (htold : ∀ before op after, history = before ++ op :: after →
      op.Told json zero ((pendingPage json zero).run before)) (key : String) :
    (pendingPage json zero).event history (.read key false) = lastWrite key history := by
  refine read_shown.trans ?_
  induction history using reverseRecOn with
  | nil => rfl
  | append_singleton ops op ih =>
    have hops := ih fun before x after hsp => htold before x (after ++ [op]) (by simp [hsp])
    rw [Reactive.run_concat, shown_react (htold ops op [] rfl), hops, lastWrite, lastWrite,
      foldl_concat]

private def sent : PendingCapture ℕ := .create ⟨"r1", "Pods failing", "", "t0", none, 5, none, none⟩

/-- Storage that only refuses to be changed. -/
theorem read_returns_last_write_refused :
    (pendingPage some 0).event [.write "k" sent false, .clear "k" true false] (.read "k" false) =
      lastWrite "k" [.write "k" sent false, .clear "k" true false] := by
  refine read_returns_last_write some 0 _ (fun before op after hsp => ?_) "k"
  rcases before with _ | ⟨_, _ | ⟨_, before⟩⟩
  · cases hsp
    exact fun _ => rfl
  · cases hsp
    exact fun _ => nofun
  · simp at hsp

/-- A clear that storage refuses and does not answer leaves the record to be read. -/
theorem cleared_create_comes_back :
    (pendingPage some 0).event [.write "k" sent false, .clear "k" true true] (.read "k" false) ≠
      lastWrite "k" [.write "k" sent false, .clear "k" true true] := by
  decide

end KubeCenter.Client.Pending
