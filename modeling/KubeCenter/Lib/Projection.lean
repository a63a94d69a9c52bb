import KubeCenter.Lib.GoMap
import Mathlib.Data.List.Forall2

/-! # Projecting a tree onto an allowlist

A function is blind to a relation when related arguments give one result. Noninterference is
blindness of what a program shows to the relation that fixes only what the observer may see.

A tree of maps, lists and scalars, and an allowlist of the fields that are copied. Trees that agree
on it have equal projections (`Allow.bind_project_eq`), and trees that differ at a path it hides
agree (`Allow.agree_of_differs`). -/
namespace KubeCenter.Lib

/-! ## Blind functions -/

section Blind

open List

variable {α β γ : Type*} {R : α → α → Prop}

/-- Arguments related by `R` give one result. -/
def Blind (R : α → α → Prop) (f : α → β) : Prop := ∀ ⦃x y⦄, R x y → f x = f y

theorem Blind.comp {f} (h : Blind R f) (g : β → γ) : Blind R (g ∘ f) :=
  fun _ _ hxy => congrArg g (h hxy)

theorem Blind.prodMk {f : α → β} {g : α → γ} (hf : Blind R f) (hg : Blind R g) :
    Blind R fun x => (f x, g x) :=
  fun _ _ hxy => Prod.ext (hf hxy) (hg hxy)

theorem Blind.map {f : α → β} (h : Blind R f) : Blind (List.Forall₂ R) (List.map f) := by
  intro xs ys hxy
  induction hxy with
  | nil => rfl
  | cons hab _ ih => rw [map_cons, map_cons, h hab, ih]

theorem Blind.flatMap {f : α → List β} (h : Blind R f) :
    Blind (List.Forall₂ R) (List.flatMap f) := by
  intro xs ys hxy
  rw [flatMap_def, flatMap_def, h.map hxy]

theorem Blind.filterMap {f : α → Option β} (h : Blind R f) :
    Blind (List.Forall₂ R) (List.filterMap f) := by
  intro xs ys hxy
  have hmap := congrArg (List.filterMap id) (h.map hxy)
  rwa [filterMap_map, filterMap_map] at hmap

theorem Blind.countP {p : α → Bool} (h : Blind R p) : Blind (List.Forall₂ R) (List.countP p) := by
  intro xs ys hxy
  have hmap := h.map hxy
  have hcn : ∀ zs : List α, zs.countP p = (zs.map p).countP id := fun zs => by
    rw [countP_map]
    rfl
  rw [hcn, hcn, hmap]

end Blind

/-! ## Trees -/

/-- As a decoder leaves it. A number is its text and whether an encoder accepts that text. -/
inductive Value where
  | null
  | bool (b : Bool)
  | num (text : Bytes) (valid : Bool)
  | str (s : Bytes)
  | list (vs : List Value)
  | map (m : List (Bytes × Value))
  | other

namespace Value

def asString : Value → Option Bytes
  | .str s => some s
  | _ => none

def asBool : Value → Option Bool
  | .bool b => some b
  | _ => none

def asNumber : Value → Option Value
  | .num text valid => some (.num text valid)
  | _ => none

def asList : Value → Option (List Value)
  | .list vs => some vs
  | _ => none

def asMap : Value → Option (GoMap Value)
  | .map m => some m
  | _ => none

end Value

/-! ## Allowlists -/

/-- A text, a number, a flag; the texts under the keys `keep` allows, `max` of them; the named
fields of a map; the maps of a list, `max` of them. -/
inductive Allow where
  | text
  | number
  | flag
  | texts (keep : Bytes → Bool) (max : Nat)
  | fields (names : List Bytes) (sub : Bytes → Allow)
  | each (item : Allow) (max : Nat)

/-- Sets field `k` of `out` to what is copied of it, if anything is. -/
def copyField (copy : Value → Option Value) (m out : GoMap Value) (k : Bytes) : GoMap Value :=
  match (GoMap.get m k).bind copy with
  | none => out
  | some v => GoMap.set out k v

def allowedTexts (keep : Bytes → Bool) (m : GoMap Value) : List (Bytes × Bytes) :=
  (GoMap.sortedKeys m).filterMap fun k =>
    if keep k then ((GoMap.get m k).bind Value.asString).map (k, ·) else none

/-- Sets the cleaned key to the cleaned text unless the map is full. -/
def copyText (clean : Bytes → Bytes) (max : Nat) (out : GoMap Value) (e : Bytes × Bytes) :
    GoMap Value :=
  if out.length < max then GoMap.set out (clean e.1) (.str (clean e.2)) else out

/-- What the allowlist copies of a value, with its texts cleaned. -/
def Allow.project (clean : Bytes → Bytes) : Allow → Value → Option Value
  | .text, v => v.asString.map fun s => .str (clean s)
  | .number, v => v.asNumber
  | .flag, v => v.asBool.map .bool
  | .texts keep max, v => v.asMap.map fun m =>
    .map ((allowedTexts keep m).foldl (copyText clean max) [])
  | .fields names sub, v => v.asMap.map fun m =>
    .map (names.foldl (fun out k => copyField ((sub k).project clean) m out k) [])
  | .each item max, v => v.asList.map fun l =>
    .list (((l.filterMap Value.asMap).filterMap fun m => item.project clean (.map m)).take max)

/-! ## Agreement -/

/-- The same at every field the allowlist copies. A value of another kind is as good as none. -/
def Allow.Agree : Allow → Option Value → Option Value → Prop
  | .text, v, v' => v.bind Value.asString = v'.bind Value.asString
  | .number, v, v' => v.bind Value.asNumber = v'.bind Value.asNumber
  | .flag, v, v' => v.bind Value.asBool = v'.bind Value.asBool
  | .texts keep _, v, v' =>
    Option.Rel (fun m m' => ∀ k, keep k →
      (GoMap.get m k).bind Value.asString = (GoMap.get m' k).bind Value.asString)
      (v.bind Value.asMap) (v'.bind Value.asMap)
  | .fields names sub, v, v' =>
    Option.Rel (fun m m' => ∀ k ∈ names, (sub k).Agree (GoMap.get m k) (GoMap.get m' k))
      (v.bind Value.asMap) (v'.bind Value.asMap)
  | .each item _, v, v' =>
    Option.Rel (fun l l' => List.Forall₂ (fun m m' => item.Agree (some (.map m)) (some (.map m')))
      (l.filterMap Value.asMap) (l'.filterMap Value.asMap))
      (v.bind Value.asList) (v'.bind Value.asList)

theorem allowedTexts_congr {keep m m'} (h : ∀ k, keep k →
      (GoMap.get m k).bind Value.asString = (GoMap.get m' k).bind Value.asString) :
    allowedTexts keep m = allowedTexts keep m' := by
  have hpr : ∀ (m : GoMap Value) (k : Bytes),
      (if keep k then ((GoMap.get m k).bind Value.asString).map (k, ·) else none) ≠ none →
        GoMap.get m k ≠ none := by
    intro m k hk hno
    simp [hno] at hk
  refine GoMap.sortedKeys_filterMap_congr (fun k => ?_) (hpr m) (hpr m')
  split
  next hk => rw [h k hk]
  · rfl

theorem bind_map_eq_of_rel {α β γ : Type*} {R read} {g : β → γ} {v v' : Option α}
    (h : Option.Rel R (v.bind read) (v'.bind read)) (hg : Blind R g) :
    (v.bind fun x => (read x).map g) = v'.bind fun x => (read x).map g := by
  have hout : ∀ o : Option α, (o.bind fun x => (read x).map g) = (o.bind read).map g := by
    intro o
    cases o <;> rfl
  rw [hout, hout]
  generalize v.bind read = o at h
  generalize v'.bind read = o' at h
  cases h with
  | none => rfl
  | some hr => exact congrArg some (hg hr)

theorem rel_refl {α : Type*} {R} (hR : ∀ x, R x x) (o : Option α) : Option.Rel R o o := by
  cases o with
  | none => exact .none
  | some a => exact .some (hR a)

theorem rel_of_eq {α : Type*} {o o' : Option α} (h : o = o') : Option.Rel Eq o o' :=
  h ▸ rel_refl (fun _ => rfl) o

/-- Trees that agree on an allowlist have the same projection. -/
theorem Allow.bind_project_eq (clean : Bytes → Bytes) (a : Allow) {v v' : Option Value}
    (h : a.Agree v v') : v.bind (a.project clean) = v'.bind (a.project clean) := by
  induction a generalizing v v' with
  | text => exact bind_map_eq_of_rel (rel_of_eq h) fun _ _ hs => by rw [hs]
  | number => exact h
  | flag => exact bind_map_eq_of_rel (rel_of_eq h) fun _ _ hb => by rw [hb]
  | texts keep max => exact bind_map_eq_of_rel h fun m m' hm => by rw [allowedTexts_congr hm]
  | fields names sub ih =>
    refine bind_map_eq_of_rel h fun m m' hm => congrArg Value.map ?_
    refine List.foldl_ext _ _ [] fun out k hk => ?_
    rw [copyField, copyField, ih k (hm k hk)]
  | each item max ih =>
    refine bind_map_eq_of_rel h fun l l' hl => congrArg (fun vs => Value.list (List.take max vs)) ?_
    have hit : Blind (fun m m' => item.Agree (some (.map m)) (some (.map m')))
        fun m => item.project clean (.map m) := fun m m' hm => ih hm
    exact hit.filterMap hl

/-! ## Hidden paths -/

inductive Step where
  | key (k : Bytes)
  | item (i : Nat)
deriving DecidableEq

/-- The path leaves the allowlist: nothing at or below it is copied. -/
def Allow.hides : Allow → List Step → Bool
  | _, [] => false
  | .fields names sub, .key k :: path => if k ∈ names then (sub k).hides path else true
  | .texts keep _, .key k :: path => !keep k || !path.isEmpty
  | .each item _, .item _ :: path => item.hides path
  | _, _ => true

/-- Two trees that are the same except at a path, where anything may stand or
nothing. -/
inductive Differs : List Step → Option Value → Option Value → Prop where
  | here (v v' : Option Value) : Differs [] v v'
  | key {path k m m'} (same : ∀ k', k' ≠ k → GoMap.get m k' = GoMap.get m' k')
      (sub : Differs path (GoMap.get m k) (GoMap.get m' k)) :
      Differs (.key k :: path) (some (.map m)) (some (.map m'))
  | item {path before after v v'} (sub : Differs path (some v) (some v')) :
      Differs (.item before.length :: path) (some (.list (before ++ v :: after)))
        (some (.list (before ++ v' :: after)))

theorem forall₂_agree_refl {item : Allow} (h : ∀ v, item.Agree v v) (ms : List (GoMap Value)) :
    List.Forall₂ (fun m m' => item.Agree (some (.map m)) (some (.map m'))) ms ms :=
  List.forall₂_same.2 fun m _ => h (some (.map m))

theorem Allow.agree_refl (a : Allow) (v : Option Value) : a.Agree v v := by
  induction a generalizing v with
  | text | number | flag => rfl
  | texts keep max => exact rel_refl (fun _ _ _ => rfl) _
  | fields names sub ih => exact rel_refl (fun _ k _ => ih k _) _
  | each item max ih =>
    rw [Allow.Agree]
    exact rel_refl (fun l => forall₂_agree_refl ih (l.filterMap Value.asMap)) _

theorem Allow.hides_nil (a : Allow) : a.hides [] = false := by
  cases a <;> rfl

theorem Differs.asString_eq_none {path v v'} (h : Differs path v v') (hpt : path ≠ []) :
    v.bind Value.asString = none ∧ v'.bind Value.asString = none := by
  cases h with
  | here => exact absurd rfl hpt
  | key | item => exact ⟨rfl, rfl⟩

/-- Trees that differ at a hidden path agree. -/
theorem Allow.agree_of_differs (a : Allow) {path v v'} (hhd : a.hides path)
    (h : Differs path v v') : a.Agree v v' := by
  induction a generalizing path v v' with
  | text | number | flag =>
    cases h with
    | here => cases hhd
    | key _ _ => rfl
    | item _ => rfl
  | texts keep max =>
    cases h with
    | here => cases hhd
    | item _ => exact .none
    | @key path k m m' same sub =>
      refine .some fun k' hkp => ?_
      by_cases hk : k' = k
      · subst hk
        have hpt : path ≠ [] := by
          rintro rfl
          simp [Allow.hides, hkp] at hhd
        obtain ⟨hm, hm'⟩ := sub.asString_eq_none hpt
        rw [hm, hm']
      · rw [same k' hk]
  | fields names sub ih =>
    cases h with
    | here => cases hhd
    | item _ => exact .none
    | @key path k m m' same below =>
      refine .some fun k' hmem => ?_
      by_cases hk : k' = k
      · subst hk
        rw [Allow.hides, if_pos hmem] at hhd
        exact ih k' hhd below
      · rw [same k' hk]
        exact (sub k').agree_refl _
  | each item max ih =>
    cases h with
    | here => cases hhd
    | key _ _ => exact .none
    | @item path before after w w' below =>
      have hit : item.hides path := hhd
      refine .some ?_
      rw [List.filterMap_append, List.filterMap_append]
      refine List.rel_append (forall₂_agree_refl item.agree_refl _) ?_
      have haf := forall₂_agree_refl item.agree_refl (after.filterMap Value.asMap)
      cases below with
      | here =>
        rw [Allow.hides_nil] at hit
        cases hit
      | item _ => exact haf
      | key same sub => exact .cons (ih hit (.key same sub)) haf

end KubeCenter.Lib
