import KubeCenter.Incidents.Redactor

/-! # The reduction ladder ends

Every rung of `shrink` takes a value out of the projection or lowers the string bound
(`shrink_lt`). What it leaves fits. -/
namespace KubeCenter.Incidents

open Lib List Nat

/-! ## Counting values -/

theorem nodes_pos (v : Value) : 0 < nodes v := by
  cases v <;> simp only [nodes] <;> omega

variable {m : GoMap Value} {k : Bytes}

theorem nodesFields_set {old : Value} (h : GoMap.get m k = some old) (v : Value) :
    nodesFields (GoMap.set m k v) + nodes old = nodesFields m + nodes v := by
  induction m with
  | nil => simp [GoMap.get] at h
  | cons e m ih =>
    obtain ⟨k₀, v₀⟩ := e
    by_cases hk : k₀ = k
    · subst hk
      obtain rfl : v₀ = old := by simpa [GoMap.get] using h
      simp only [GoMap.set, if_pos, nodesFields]
      omega
    · have hre : GoMap.get m k = some old := by
        simpa [GoMap.get, lookup_cons, beq_false_of_ne (Ne.symm hk)] using h
      have := ih hre
      simp only [GoMap.set, if_neg hk, nodesFields]
      omega

theorem nodesFields_set_lt {old v : Value} (h : GoMap.get m k = some old)
    (hlt : nodes v < nodes old) : nodesFields (GoMap.set m k v) < nodesFields m := by
  have := nodesFields_set h v
  omega

theorem nodesFields_filter (p : Bytes × Value → Bool) (m : GoMap Value) :
    nodesFields (m.filter p) + nodesFields (m.filter (!p ·)) = nodesFields m := by
  induction m with
  | nil => rfl
  | cons e m ih => cases hp : p e <;> simp [hp, nodesFields] <;> omega

theorem nodesFields_filter_le (p : Bytes × Value → Bool) (m : GoMap Value) :
    nodesFields (m.filter p) ≤ nodesFields m := by
  have := nodesFields_filter p m
  omega

theorem nodesFields_filter_lt {p} (h : ∃ e ∈ m, p e = false) :
    nodesFields (m.filter p) < nodesFields m := by
  have hsum := nodesFields_filter p m
  have hpos : 0 < nodesFields (m.filter (!p ·)) := by
    obtain ⟨e, he, hp⟩ := h
    cases hgone : m.filter (!p ·) with
    | nil => simpa [hp] using filter_eq_nil_iff.mp hgone e he
    | cons x rest => exact Nat.add_pos_left (nodes_pos x.2) _
  omega

theorem exists_mem_of_get (h : GoMap.get m k ≠ none) : ∃ e ∈ m, e.1 = k := by
  have hks := GoMap.mem_keys.2 h
  simpa [GoMap.keys] using hks

theorem nodesFields_erase_lt (h : GoMap.get m k ≠ none) :
    nodesFields (GoMap.erase m k) < nodesFields m := by
  obtain ⟨e, he, rfl⟩ := exists_mem_of_get h
  exact nodesFields_filter_lt ⟨e, he, by simp⟩

theorem nodesList_take_lt {l : List Value} {n : Nat} (h : n < l.length) :
    nodesList (l.take n) < nodesList l := by
  induction l generalizing n with
  | nil => simp at h
  | cons v l ih =>
    have hpos := nodes_pos v
    cases n with
    | zero =>
      simp only [take_zero, nodesList]
      omega
    | succ n =>
      simp only [take_succ_cons, nodesList]
      have := ih (lt_of_succ_lt_succ h)
      omega

/-! ## Edits that take values out -/

/-- The edit adds no value, and takes one out when it says that it changed
something. -/
def Lessens (r : Reduction) : Prop :=
  ∀ out, nodesFields (r out).1 ≤ nodesFields out ∧
    ((r out).2 = true → nodesFields (r out).1 < nodesFields out)

theorem bind_asMap_eq_some {o : Option Value} {c} (h : o.bind Value.asMap = some c) :
    o = some (.map c) := by
  cases o with
  | none => cases h
  | some v => cases v <;> simp_all [Value.asMap]

theorem bind_asList_eq_some {o : Option Value} {l} (h : o.bind Value.asList = some l) :
    o = some (.list l) := by
  cases o with
  | none => cases h
  | some v => cases v <;> simp_all [Value.asList]

theorem lessens_halveList (key : Bytes) : Lessens (halveList key) := by
  intro m
  unfold halveList
  split
  · exact ⟨nodesFields_filter_le _ m, nofun⟩
  next h =>
    have hlt := nodesFields_erase_lt (m := m) (k := key) (by simp [bind_asList_eq_some h])
    exact ⟨le_of_lt hlt, fun _ => hlt⟩
  next list hne h =>
    have hhl : list.length / 2 < list.length := Nat.div_lt_self (length_pos_iff.2 hne) (by omega)
    have hlt := nodesFields_set_lt (bind_asList_eq_some h) (v := .list (list.take _))
      (Nat.add_lt_add_left (nodesList_take_lt hhl) 1)
    exact ⟨le_of_lt hlt, fun _ => hlt⟩

theorem exists_mem_drop_sortedKeys (h : m ≠ []) :
    ∃ e ∈ m, e.1 ∈ (GoMap.sortedKeys m).drop ((GoMap.sortedKeys m).length / 2) := by
  obtain ⟨e, t, rfl⟩ := exists_cons_of_ne_nil h
  have hfi : e.1 ∈ GoMap.sortedKeys (e :: t) := GoMap.mem_sortedKeys.2 (by simp [GoMap.get])
  have hlen : 0 < (GoMap.sortedKeys (e :: t)).length := length_pos_of_mem hfi
  generalize hks : GoMap.sortedKeys (e :: t) = keys at *
  obtain ⟨k, hk⟩ : ∃ k, k ∈ keys.drop (keys.length / 2) :=
    exists_mem_of_length_pos (by rw [length_drop]; omega)
  have hmem : k ∈ GoMap.sortedKeys (e :: t) := hks ▸ mem_of_mem_drop hk
  obtain ⟨e', he', rfl⟩ := exists_mem_of_get (GoMap.mem_sortedKeys.1 hmem)
  exact ⟨e', he', hk⟩

theorem lessens_halveMap (key : Bytes) : Lessens (halveMap key) := by
  intro m
  unfold halveMap
  split
  · exact ⟨nodesFields_filter_le _ m, nofun⟩
  next h =>
    have hlt := nodesFields_erase_lt (m := m) (k := key) (by simp [bind_asMap_eq_some h])
    exact ⟨le_of_lt hlt, fun _ => hlt⟩
  next sm hne h =>
    dsimp only
    obtain ⟨e, he, hgo⟩ := exists_mem_drop_sortedKeys hne
    generalize (GoMap.sortedKeys sm).drop ((GoMap.sortedKeys sm).length / 2) = gone at hgo ⊢
    have hfil : nodesFields (sm.filter fun e => e.1 ∉ gone) < nodesFields sm :=
      nodesFields_filter_lt ⟨e, he, by simp [hgo]⟩
    have hlt := nodesFields_set_lt (bind_asMap_eq_some h) (v := .map _) (Nat.add_lt_add_left hfil 1)
    exact ⟨le_of_lt hlt, fun _ => hlt⟩

theorem Lessens.updateAt {r} (h : Lessens r) (path : List Bytes) : Lessens (updateAt r path) := by
  induction path with
  | nil => exact h
  | cons k path ih =>
    intro m
    unfold Incidents.updateAt
    split
    · exact ⟨le_rfl, nofun⟩
    next c hc =>
      obtain ⟨hle, hlt⟩ := ih c
      have hset := nodesFields_set (bind_asMap_eq_some hc) (.map (Incidents.updateAt r path c).1)
      simp only [nodes] at hset
      dsimp only
      refine ⟨by omega, fun hchg => ?_⟩
      have := hlt hchg
      omega

theorem Lessens.firstOf {rs} (h : ∀ r ∈ rs, Lessens r) : Lessens (firstOf rs) := by
  induction rs with
  | nil => exact fun out => ⟨le_rfl, nofun⟩
  | cons r rs ih =>
    obtain ⟨hr, hrs⟩ := forall_mem_cons.1 h
    intro out
    unfold Incidents.firstOf
    split
    · exact hr out
    · obtain ⟨hle, hlt⟩ := ih hrs (r out).1
      exact ⟨le_trans hle (hr out).1, fun hchg => lt_of_lt_of_le (hlt hchg) (hr out).1⟩

theorem Lessens.allOf {rs} (h : ∀ r ∈ rs, Lessens r) : Lessens (allOf rs) := by
  induction rs with
  | nil => exact fun out => ⟨le_rfl, nofun⟩
  | cons r rs ih =>
    obtain ⟨hr, hrs⟩ := forall_mem_cons.1 h
    intro out
    obtain ⟨hle, hlt⟩ := ih hrs (r out).1
    obtain ⟨hle', hlt'⟩ := hr out
    refine ⟨le_trans hle hle', fun hchg => ?_⟩
    rcases (Bool.or_eq_true _ _).mp hchg with hfi | hre
    · exact lt_of_le_of_lt hle (hlt' hfi)
    · exact lt_of_lt_of_le (hlt hre) hle'

theorem lessens_cutTails : Lessens cutTails := by
  refine Lessens.firstOf ?_
  simp only [forall_mem_cons, not_mem_nil, false_imp_iff, implies_true, and_true]
  refine ⟨(lessens_halveList _).updateAt _, (lessens_halveMap _).updateAt _,
    (lessens_halveMap _).updateAt _, (lessens_halveList _).updateAt _, Lessens.allOf fun r hr => ?_⟩
  obtain ⟨path, -, hr⟩ := mem_flatMap.1 hr
  simp only [mem_cons, not_mem_nil, or_false] at hr
  rcases hr with rfl | rfl <;> exact (lessens_halveList _).updateAt _

/-! ## The loop -/

mutual

theorem nodes_retruncateEntry (bound : Nat) : ∀ v, nodes (retruncateEntry bound v) = nodes v
  | .list vs => by simp only [retruncateEntry, nodes, nodesList_retruncateList bound vs]
  | .map m => by simp only [retruncateEntry, nodes, nodesFields_retruncate bound m]
  | .null => rfl
  | .bool _ => rfl
  | .num _ _ => rfl
  | .str _ => rfl
  | .other => rfl

theorem nodesList_retruncateList (bound : Nat) :
    ∀ vs, nodesList (retruncateList bound vs) = nodesList vs
  | [] => rfl
  | v :: vs => by
    simp only [retruncateList, nodesList, nodes_retruncateEntry bound v,
      nodesList_retruncateList bound vs]

theorem nodesFields_retruncate (bound : Nat) : ∀ m, nodesFields (retruncate bound m) = nodesFields m
  | [] => rfl
  | (_, v) :: m => by
    simp only [retruncate, nodesFields, nodes_retruncateEntry bound v,
      nodesFields_retruncate bound m]

end

variable {out : GoMap Value}

/-- Every reduction takes a value out or lowers the bound. -/
theorem shrink_lt {bound bound' : Nat} {out'} (h : shrink bound out = some (bound', out')) :
    nodesFields out' + bound' < nodesFields out + bound := by
  obtain ⟨hle, hlt⟩ := lessens_cutTails out
  unfold shrink at h
  split at h
  next hchg =>
    obtain ⟨rfl, rfl⟩ : bound = bound' ∧ (cutTails out).1 = out' := by simpa using h
    have := hlt hchg
    omega
  · split at h
    next hbn =>
      obtain ⟨rfl, rfl⟩ : bound / 2 = bound' ∧
          retruncate (bound / 2) (cutTails out).1 = out' := by simpa using h
      rw [nodesFields_retruncate]
      have : minFieldBytes = 16 := rfl
      omega
    · cases h

theorem reduceLoop_fuel (maxBytes : Nat) {f g bound : Nat} (hf : nodesFields out + bound < f)
    (hg : nodesFields out + bound < g) :
    reduceLoop maxBytes f bound out = reduceLoop maxBytes g bound out := by
  induction f generalizing g bound out with
  | zero => omega
  | succ f ih =>
    obtain ⟨g, rfl⟩ : ∃ n, g = n + 1 := ⟨g - 1, by omega⟩
    unfold reduceLoop
    split
    · rfl
    split
    · rfl
    next bound' out' hsh =>
      have hlt := shrink_lt hsh
      rw [ih (g := g) (by omega) (by omega)]

/-- Any number of rounds from the one `reduce` allows gives the same projection. -/
theorem reduce_eq_reduceLoop (maxBytes : Nat) {fuel : Nat}
    (h : nodesFields out + maxFieldBytes < fuel) :
    reduce maxBytes out = reduceLoop maxBytes fuel maxFieldBytes out :=
  reduceLoop_fuel maxBytes (lt_succ_self _) h

theorem fits_reduceLoop {maxBytes : Nat} (hmin : minMaxBytes ≤ maxBytes) (fuel bound : Nat)
    (out : GoMap Value) : fits maxBytes (reduceLoop maxBytes fuel bound out).1 = true := by
  have hempty : fits maxBytes ([] : GoMap Value) = true := by
    have : minMaxBytes = 64 := rfl
    simp only [fits, jsonSize, jsonSizeFields, Option.map_some, decide_eq_true_eq]
    simp
    omega
  induction fuel generalizing bound out with
  | zero => exact hempty
  | succ fuel ih =>
    unfold reduceLoop
    split
    next hf => exact hf
    next =>
      split
      · exact hempty
      · exact ih _ _

theorem reduceLoop_kept {maxBytes fuel bound : Nat} {out : GoMap Value}
    (h : (reduceLoop maxBytes fuel bound out).2 = false) :
    (reduceLoop maxBytes fuel bound out).1 = out := by
  cases fuel with
  | zero => cases h
  | succ fuel =>
    unfold reduceLoop at h ⊢
    split at h
    next hf => simp [hf]
    next => split at h <;> cases h

/-- **A redacted object fits.** The reduction ends, its encoding has at most `maxBytes` bytes, and
unless it is marked as truncated it is the whole projection. -/
theorem redactObject_fits (maxBytes : Nat) (hmin : minMaxBytes ≤ maxBytes) (obj : GoMap Value)
    (sourceResource : Bytes) :
    let projected := (object maxFieldBytes obj (isSecret obj sourceResource)).value
    let out := redactObject maxBytes obj sourceResource
    fits maxBytes out.1 = true ∧
    (∀ fuel, nodesFields projected + maxFieldBytes < fuel →
      out.1 = (reduceLoop maxBytes fuel maxFieldBytes projected).1) ∧
    (out.2.truncated = false → out.1 = projected) := by
  refine ⟨fits_reduceLoop hmin _ _ _, fun fuel hf => ?_, fun ht => ?_⟩
  · exact congrArg Prod.fst (reduce_eq_reduceLoop maxBytes hf)
  · exact reduceLoop_kept (Bool.or_eq_false_iff.mp ht).2

def labelledPod : GoMap Value :=
  [(ascii "kind", .str (ascii "Pod")), (ascii "metadata", .map [(ascii "labels", .map
    [(ascii "app", .str (ascii "storefront")), (ascii "tier", .str (ascii "backend"))])])]

/-- The labels are halved. -/
theorem redactObject_fits_pod :
    fits 64 (object maxFieldBytes labelledPod (isSecret labelledPod (ascii "pods"))).value = false ∧
      fits 64 (redactObject 64 labelledPod (ascii "pods")).1 = true :=
  ⟨by decide +kernel, (redactObject_fits 64 (by decide) _ _).1⟩

end KubeCenter.Incidents
