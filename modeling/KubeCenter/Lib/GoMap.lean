import KubeCenter.Lib.Bytes
import Mathlib.Data.List.Dedup
import Mathlib.Data.List.Lex
import Mathlib.Data.List.Sort

/-! # Maps with byte string keys

A map is the list of its entries; the first entry of a key counts. Everything that depends on an
order goes through the sorted keys. -/
namespace KubeCenter.Lib
open List

abbrev GoMap (V : Type*) := List (Bytes × V)

namespace GoMap

variable {V W X : Type*}

/-- `m[k]`, if present. -/
def get (m : GoMap V) (k : Bytes) : Option V := m.lookup k

/-- `m[k] = v`. -/
def set : GoMap V → Bytes → V → GoMap V
  | [], k, v => [(k, v)]
  | (k', v') :: m, k, v => if k' = k then (k, v) :: m else (k', v') :: set m k v

/-- `delete(m, k)`. -/
def erase (m : GoMap V) (k : Bytes) : GoMap V := m.filter fun e => e.1 ≠ k

def keys (m : GoMap V) : List Bytes := (m.map Prod.fst).dedup

def LeBytes (a b : Bytes) : Prop := a.map UInt8.toNat ≤ b.map UInt8.toNat

instance : DecidableRel LeBytes := fun a b =>
  inferInstanceAs (Decidable (a.map UInt8.toNat ≤ b.map UInt8.toNat))

instance : Std.Total LeBytes := ⟨fun _ _ => le_total _ _⟩

instance : IsTrans Bytes LeBytes := ⟨fun _ _ _ => le_trans⟩

theorem LeBytes.antisymm {a b : Bytes} (hab : LeBytes a b) (hba : LeBytes b a) : a = b :=
  map_injective_iff.2 (fun _ _ => UInt8.toNat_inj.1) (le_antisymm hab hba)

def sortedKeys (m : GoMap V) : List Bytes := m.keys.insertionSort LeBytes

theorem mem_keys {m : GoMap V} {k : Bytes} : k ∈ keys m ↔ get m k ≠ none := by
  simp [keys, get]

theorem get_set_of_ne {m : GoMap V} {k k' : Bytes} (h : k' ≠ k) (v : V) :
    get (set m k v) k' = get m k' := by
  have hbeq : (k' == k) = false := beq_false_of_ne h
  induction m with
  | nil => simp [set, get, lookup_cons, hbeq]
  | cons e m ih =>
    obtain ⟨k₀, v₀⟩ := e
    simp only [get] at ih
    by_cases hk : k₀ = k
    · subst hk
      simp [set, get, lookup_cons, hbeq]
    · simp [set, get, lookup_cons, hk, ih]

theorem mem_sortedKeys {m : GoMap V} {k : Bytes} : k ∈ sortedKeys m ↔ get m k ≠ none := by
  rw [sortedKeys, mem_insertionSort, mem_keys]

theorem nodup_sortedKeys (m : GoMap V) : (sortedKeys m).Nodup :=
  (perm_insertionSort _ _).nodup_iff.2 (nodup_dedup _)

/-- What is read off two maps in key order is the same when the same is read at
every key. -/
theorem sortedKeys_filterMap_congr {m : GoMap V} {m' : GoMap W} {f f' : Bytes → Option X}
    (hff : ∀ k, f k = f' k) (hm : ∀ k, f k ≠ none → get m k ≠ none)
    (hm' : ∀ k, f' k ≠ none → get m' k ≠ none) :
    (sortedKeys m).filterMap f = (sortedKeys m').filterMap f' := by
  obtain rfl : f = f' := funext hff
  have hks : (sortedKeys m).filter (fun k => (f k).isSome) =
      (sortedKeys m').filter fun k => (f k).isSome := by
    refine List.Perm.eq_of_pairwise (fun _ _ _ _ => LeBytes.antisymm)
      ((pairwise_insertionSort _ _).filter _) ((pairwise_insertionSort _ _).filter _)
      ((perm_ext_iff_of_nodup ((nodup_sortedKeys m).filter _)
        ((nodup_sortedKeys m').filter _)).2 fun k => ?_)
    simp only [mem_filter, mem_sortedKeys, Option.isSome_iff_ne_none]
    exact ⟨fun h => ⟨hm' k h.2, h.2⟩, fun h => ⟨hm k h.2, h.2⟩⟩
  have hsk : ∀ l : List Bytes, l.filterMap f = (l.filter fun k => (f k).isSome).filterMap f := by
    intro l
    rw [filterMap_filter]
    congr 1
    funext k
    cases f k <;> rfl
  rw [hsk, hks, ← hsk]

end GoMap

end KubeCenter.Lib
