import KubeCenter.Incidents.Redactor

/-! # The projection shows only allowlisted fields

The projector computes the projection of an explicit allowlist (`object_value`); what the reduction
makes of it depends on nothing else. -/
namespace KubeCenter.Incidents

open Lib List

/-! ## The allowlist -/

def containerAllow : Allow := .fields [ascii "name", ascii "image"] fun _ => .text

def podSpecAllow : Allow := .fields containerKeys fun _ => .each containerAllow maxContainers

def templateAllow : Allow := .fields [ascii "spec"] fun _ => podSpecAllow

def jobTemplateAllow : Allow :=
  .fields [ascii "spec"] fun _ => .fields [ascii "template"] fun _ => templateAllow

def specAllow : Allow :=
  .fields ([ascii "replicas"] ++ containerKeys ++ [ascii "template", ascii "jobTemplate"]) fun k =>
    if k = ascii "replicas" then .number
    else if k = ascii "template" then templateAllow
    else if k = ascii "jobTemplate" then jobTemplateAllow
    else .each containerAllow maxContainers

def conditionAllow : Allow := .fields conditionStrings fun _ => .text

def statusAllow : Allow :=
  .fields (statusNumbers ++ [ascii "phase", ascii "conditions"]) fun k =>
    if k = ascii "phase" then .text
    else if k = ascii "conditions" then .each conditionAllow maxConditions
    else .number

def ownerReferenceAllow : Allow :=
  .fields (ownerReferenceStrings ++ [ascii "controller"]) fun k =>
    if k = ascii "controller" then .flag else .text

def metadataAllow : Allow :=
  .fields (metadataStrings ++ [ascii "labels", ascii "annotations", ascii "ownerReferences"])
    fun k =>
      if k = ascii "labels" then .texts (fun _ => true) maxLabels
      else if k = ascii "annotations" then .texts annotationKept maxAnnotations
      else if k = ascii "ownerReferences" then .each ownerReferenceAllow maxOwnerReferences
      else .text

/-- What is copied of an object; of a Secret, its metadata only. -/
def allowlist (secret : Bool) : Allow :=
  .fields ([ascii "apiVersion", ascii "kind", ascii "metadata"] ++
      if secret then [] else [ascii "spec", ascii "status"]) fun k =>
    if k = ascii "metadata" then metadataAllow
    else if k = ascii "spec" then specAllow
    else if k = ascii "status" then statusAllow
    else .text

/-! ## The projector computes it -/

def cleaned (bound : Nat) (s : Bytes) : Bytes := (sanitize s bound).out

variable {bound : Nat}

@[simp] theorem str_value (v : Value) : (str bound v).value = v.asString.map (cleaned bound) := by
  unfold str
  cases v.asString <;> rfl

theorem foldlM_copyField {step : GoMap Value → Bytes → Proj (GoMap Value)}
    {project : Value → Option Value} {src : GoMap Value}
    (h : ∀ out k, (step out k).value = copyField project src out k) (out : GoMap Value)
    (keys : List Bytes) :
    (keys.foldlM step out).value = keys.foldl (copyField project src) out := by
  rw [Logged.value_foldlM]
  congr 1
  funext out k
  exact h out k

section

variable (src out : GoMap Value)

@[simp] theorem copyStrings_value (keys : List Bytes) : (copyStrings bound src out keys).value =
      keys.foldl (copyField (Allow.text.project (cleaned bound)) src) out := by
  refine foldlM_copyField ?_ out keys
  intro out k
  unfold copyField
  cases GoMap.get src k with
  | none => rfl
  | some v => cases v <;> rfl

@[simp] theorem copyNumbers_value (keys : List Bytes) :
    (copyNumbers src out keys).value = keys.foldl (copyField Value.asNumber src) out := by
  refine foldlM_copyField ?_ out keys
  intro out k
  unfold copyField
  cases GoMap.get src k with
  | none => rfl
  | some v => cases v <;> rfl

@[simp] theorem copyFlag_value (key : Bytes) : (copyFlag src out key).value =
      copyField (fun v => v.asBool.map Value.bool) src out key := by
  unfold copyFlag copyField
  cases GoMap.get src key with
  | none => rfl
  | some v => cases v <;> rfl

@[simp] theorem copyChild_value (key : Bytes) (project : GoMap Value → Proj (GoMap Value)) :
    (copyChild src out key project).value =
      copyField (fun v => v.asMap.map fun m => .map (project m).value) src out key := by
  unfold copyChild child copyField
  cases GoMap.get src key with
  | none => rfl
  | some v => cases v <;> rfl

@[simp] theorem copyList_value (key : Bytes) (project : List Value → Proj (List Value)) :
    (copyList src out key project).value =
      copyField (fun v => v.asList.map fun l => .list (project l).value) src out key := by
  unfold copyList copyField
  cases GoMap.get src key with
  | none => rfl
  | some v => cases v <;> rfl

end

section

variable (max : Nat) (project : GoMap Value → Proj (GoMap Value))

theorem keepMap_value (out : List Value) (v : Value) : (keepMap max project out v).value =
      match v.asMap with
      | none => out
      | some m => if max ≤ out.length then out else out ++ [.map (project m).value] := by
  unfold keepMap keep
  cases v.asMap with
  | none => rfl
  | some m =>
    rw [Logged.value_bind]
    dsimp only
    split <;> rfl

/-- From any list within the cap: it fills up to the cap with the projected maps. -/
theorem foldl_keepMap (list out : List Value) (hout : out.length ≤ max) :
    (list.foldlM (keepMap max project) out).value =
      out ++ ((list.filterMap Value.asMap).map fun m => Value.map (project m).value).take
        (max - out.length) := by
  induction list generalizing out with
  | nil => simp
  | cons v list ih =>
    rw [foldlM_cons, Logged.value_bind, keepMap_value]
    cases hv : v.asMap with
    | none =>
      rw [filterMap_cons_none hv]
      exact ih out hout
    | some m =>
      rw [filterMap_cons_some hv, map_cons]
      dsimp only
      split
      next hfl => rw [ih out hout, Nat.sub_eq_zero_of_le hfl, take_zero, take_zero]
      next hrm =>
        have hlen : (out ++ [Value.map (project m).value]).length = out.length + 1 := by simp
        obtain ⟨n, hn⟩ : ∃ n, max - out.length = n + 1 := ⟨max - out.length - 1, by omega⟩
        have hn' : max - (out.length + 1) = n := by omega
        rw [ih _ (by omega), hlen, hn, hn', take_succ_cons, append_assoc, singleton_append]

theorem mapsOf_value (list : List Value) : (mapsOf max project list).value =
      ((list.filterMap Value.asMap).map fun m => Value.map (project m).value).take max := by
  simpa [mapsOf] using foldl_keepMap max project list [] (Nat.zero_le _)

end

theorem lastAppliedConfig_not_kept : annotationKept lastAppliedConfigAnnotation = false := by
  decide

theorem annotationAllowed_value (k : Bytes) : (annotationAllowed k).value = annotationKept k := by
  unfold annotationAllowed
  split
  next hk =>
    rw [hk, lastAppliedConfig_not_kept]
    rfl
  · split
    next hkp => exact hkp.symm
    next hkp =>
      simp only [Bool.not_eq_true] at hkp
      exact hkp.symm

theorem stringMap_value (max : Nat) {allowed kept} (h : ∀ k, (allowed k).value = kept k)
    (src : GoMap Value) : (stringMap bound max allowed src).value =
      (allowedTexts kept src).foldl (copyText (cleaned bound) max) [] := by
  rw [stringMap, Logged.value_foldlM, allowedTexts, foldl_filterMap]
  congr 1
  funext out k
  rw [copyTextEntry, Logged.value_bind, h]
  cases kept k with
  | false => rfl
  | true =>
    simp only [if_true]
    cases (GoMap.get src k).bind Value.asString with
    | none => rfl
    | some raw =>
      by_cases hfl : max ≤ out.length
      · simp [hfl, copyText, Nat.not_lt.2 hfl]
      · simp [hfl, copyText, Nat.not_le.1 hfl, Value.asString]

/-! ## Each part of the object -/

theorem each_project {item : Allow} (max : Nat) {project}
    (h : ∀ m, item.project (cleaned bound) (.map m) = some (.map (project m).value)) :
    (fun v => v.asList.map fun l => Value.list (mapsOf max project l).value) =
      (Allow.each item max).project (cleaned bound) := by
  funext v
  simp only [Allow.project, mapsOf_value, h]
  congr 1
  funext l
  rw [← filterMap_eq_map]
  rfl

theorem child_project {names : List Bytes} {sub : Bytes → Allow}
    {project : GoMap Value → Proj (GoMap Value)}
    (h : ∀ m, (Allow.fields names sub).project (cleaned bound) (.map m) =
      some (.map (project m).value)) :
    (fun v => v.asMap.map fun m => Value.map (project m).value) =
      (Allow.fields names sub).project (cleaned bound) := by
  funext v
  cases v with
  | map m => exact (h m).symm
  | _ => rfl

theorem texts_project (max : Nat) {allowed kept} (h : ∀ k, (allowed k).value = kept k) :
    (fun v => v.asMap.map fun m => Value.map (stringMap bound max allowed m).value) =
      (Allow.texts kept max).project (cleaned bound) := by
  funext v
  simp only [stringMap_value max h, Allow.project]

variable (bound)

theorem container_project (c : GoMap Value) :
    containerAllow.project (cleaned bound) (.map c) = some (.map (container bound c).value) := by
  simp only [container, Logged.value_bind, Logged.value_pure, copyStrings_value]
  rfl

theorem containerLists_value (ps out : GoMap Value) :
    (containerLists bound ps out).value = containerKeys.foldl
      (copyField ((Allow.each containerAllow maxContainers).project (cleaned bound)) ps) out := by
  simp only [containerLists, containers, Logged.value_foldlM, copyList_value,
    each_project maxContainers (container_project bound)]

theorem podSpec_project (ps : GoMap Value) :
    podSpecAllow.project (cleaned bound) (.map ps) = some (.map (podSpec bound ps).value) := by
  simp only [podSpec, Logged.value_bind, Logged.value_pure, containerLists_value]
  rfl

theorem template_project (tpl : GoMap Value) :
    templateAllow.project (cleaned bound) (.map tpl) = some (.map (template bound tpl).value) := by
  simp only [template, Logged.value_bind, Logged.value_pure, copyChild_value,
    child_project (podSpec_project bound)]
  rfl

theorem jobTemplate_project (jt : GoMap Value) :
    jobTemplateAllow.project (cleaned bound) (.map jt) =
      some (.map (jobTemplate bound jt).value) := by
  have hsp : ∀ js : GoMap Value,
      (Allow.fields [ascii "template"] fun _ => templateAllow).project (cleaned bound) (.map js) =
        some (.map (jobSpec bound js).value) := fun js => by
    simp only [jobSpec, Logged.value_bind, Logged.value_pure, copyChild_value,
      child_project (template_project bound)]
    rfl
  simp only [jobTemplate, Logged.value_bind, Logged.value_pure, copyChild_value, child_project hsp]
  rfl

theorem spec_project (sp : GoMap Value) :
    specAllow.project (cleaned bound) (.map sp) = some (.map (spec bound sp).value) := by
  simp only [spec, Logged.value_bind, Logged.value_pure, copyChild_value, containerLists_value,
    copyNumbers_value, child_project (template_project bound),
    child_project (jobTemplate_project bound)]
  rfl

theorem condition_project (c : GoMap Value) :
    conditionAllow.project (cleaned bound) (.map c) = some (.map (condition bound c).value) := by
  simp only [condition, Logged.value_bind, Logged.value_pure, copyStrings_value]
  rfl

theorem status_project (st : GoMap Value) :
    statusAllow.project (cleaned bound) (.map st) = some (.map (status bound st).value) := by
  simp only [status, conditions, Logged.value_bind, Logged.value_pure, copyNumbers_value,
    copyStrings_value, copyList_value, each_project maxConditions (condition_project bound)]
  rfl

theorem ownerReference_project (ref : GoMap Value) :
    ownerReferenceAllow.project (cleaned bound) (.map ref) =
      some (.map (ownerReference bound ref).value) := by
  simp only [ownerReference, Logged.value_bind, Logged.value_pure, copyStrings_value,
    copyFlag_value]
  rfl

theorem metadata_project (md : GoMap Value) :
    metadataAllow.project (cleaned bound) (.map md) = some (.map (metadata bound md).value) := by
  have hall : ∀ _ : Bytes, (pure true : Proj Bool).value = true := fun _ => rfl
  simp only [metadata, ownerReferences, Logged.value_bind, Logged.value_pure, copyStrings_value,
    copyChild_value, copyList_value, texts_project maxLabels hall,
    texts_project maxAnnotations annotationAllowed_value,
    each_project maxOwnerReferences (ownerReference_project bound)]
  rfl

theorem object_project (obj : GoMap Value) (secret : Bool) :
    (allowlist secret).project (cleaned bound) (.map obj) =
      some (.map (object bound obj secret).value) := by
  cases secret with
  | true =>
    simp only [object, Logged.value_bind, Logged.value_pure, copyStrings_value, copyChild_value,
      child_project (metadata_project bound), if_true]
    rfl
  | false =>
    simp only [object, Logged.value_bind, Logged.value_pure, copyStrings_value, copyChild_value,
      child_project (metadata_project bound), child_project (spec_project bound),
      child_project (status_project bound), Bool.false_eq_true, if_false]
    rfl

/-! ## Noninterference -/

theorem isSecret_eq {obj obj'} {resource : Bytes}
    (h : (allowlist (isSecret obj resource)).Agree (some (.map obj)) (some (.map obj'))) :
    isSecret obj resource = isSecret obj' resource := by
  have hkn : (GoMap.get obj (ascii "kind")).bind Value.asString =
      (GoMap.get obj' (ascii "kind")).bind Value.asString := by
    cases h with
    | some hfi => exact hfi (ascii "kind") (by simp)
  rw [isSecret, isSecret, hkn]

theorem redactObject_eq_of_agree (maxBytes : Nat) {obj obj'} {resource : Bytes}
    (h : (allowlist (isSecret obj resource)).Agree (some (.map obj)) (some (.map obj'))) :
    (redactObject maxBytes obj resource).1 = (redactObject maxBytes obj' resource).1 := by
  have hpr := Allow.bind_project_eq (cleaned maxFieldBytes) _ h
  simp only [Option.bind_some, object_project] at hpr
  have hvl : (object maxFieldBytes obj (isSecret obj resource)).value =
      (object maxFieldBytes obj' (isSecret obj resource)).value := by
    simpa using hpr
  simp only [redactObject, ← isSecret_eq h, hvl]

theorem hides_annotation (secret : Bool) {k : Bytes} (hk : annotationKept k = false)
    (path : List Step) :
    (allowlist secret).hides
      (.key (ascii "metadata") :: .key (ascii "annotations") :: .key k :: path) := by
  have hmt : (allowlist secret).hides
      (.key (ascii "metadata") :: .key (ascii "annotations") :: .key k :: path) =
        (!annotationKept k || !path.isEmpty) := by
    cases secret <;> rfl
  simp [hmt, hk]

/-- Redaction lets nothing through but the allowlisted fields: objects that agree on them have one
redaction, and so have objects that differ at a path the allowlist hides, such as a Secret's data
or the environment of a container. -/
theorem evidence_projection_noninterfering (maxBytes : Nat) (resource : Bytes) :
    (∀ obj obj' : GoMap Value,
      (allowlist (isSecret obj resource)).Agree (some (.map obj)) (some (.map obj')) →
        (redactObject maxBytes obj resource).1 = (redactObject maxBytes obj' resource).1) ∧
    (∀ (obj obj' : GoMap Value) (path : List Step), (allowlist (isSecret obj resource)).hides path →
        Differs path (some (.map obj)) (some (.map obj')) →
          (redactObject maxBytes obj resource).1 = (redactObject maxBytes obj' resource).1) ∧
    (∀ path, (allowlist true).hides (.key (ascii "data") :: path) ∧
      (allowlist true).hides (.key (ascii "stringData") :: path)) ∧
    (∀ secret path k, k = lastAppliedConfigAnnotation ∨ annotationKept k = false →
      (allowlist secret).hides
        (.key (ascii "metadata") :: .key (ascii "annotations") :: .key k :: path)) ∧
    (∀ secret path,
      (allowlist secret).hides (.key (ascii "metadata") :: .key (ascii "managedFields") :: path)) ∧
    (∀ podPath ∈ podSpecPaths, ∀ key ∈ containerKeys, ∀ i path,
      (allowlist false).hides (podPath.map .key ++ .key key :: .item i ::
        .key (ascii "env") :: path)) := by
  refine ⟨fun obj obj' h => redactObject_eq_of_agree maxBytes h,
    fun obj obj' path hhd h => redactObject_eq_of_agree maxBytes
      ((allowlist _).agree_of_differs hhd h), fun path => ⟨rfl, rfl⟩, ?_, ?_, ?_⟩
  · rintro secret path k (rfl | hk)
    · exact hides_annotation secret lastAppliedConfig_not_kept path
    · exact hides_annotation secret hk path
  · intro secret path
    cases secret <;> rfl
  · intro podPath hpt key hkey i path
    simp only [podSpecPaths, containerKeys, mem_cons, not_mem_nil, or_false] at hpt hkey
    rcases hpt with rfl | rfl | rfl <;> rcases hkey with rfl | rfl <;> rfl

def secretWithData (data : Value) : GoMap Value :=
  [(ascii "kind", .str (ascii "Secret")), (ascii "data", data)]

theorem evidence_projection_noninterfering_secretData :
    (redactObject 64 (secretWithData (.map [(ascii "PROD_DB_PASSWORD", .str (ascii "aHVudGVy"))]))
        (ascii "secrets")).1 =
      (redactObject 64 (secretWithData .null) (ascii "secrets")).1 := by
  obtain ⟨-, hdf, hdt, -⟩ := evidence_projection_noninterfering 64 (ascii "secrets")
  refine hdf _ _ [.key (ascii "data")] (hdt []).1 (.key (fun k hk => ?_) (.here _ _))
  exact GoMap.get_set_of_ne (m := secretWithData .null) hk _

end KubeCenter.Incidents
