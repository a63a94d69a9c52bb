import Mathlib.Algebra.Order.Ring.Int
import KubeCenter.Incidents.Redaction

/-! # Fitting a projection

The rest of `incidents/redaction.go`: the size of a projection's encoding, the
ladder that reduces it, `RedactObject` and the record of what was redacted. -/
namespace KubeCenter.Incidents

open Lib

/-! ## The size of an encoding -/

/-- The bytes `json.Marshal` writes for a rune inside a string. -/
def escapedSize : Rune → Nat
  | .invalid _ => 6
  | .valid code encoding =>
    if code ∈ [0x22, 0x5C, 0x08, 0x09, 0x0A, 0x0C, 0x0D] then 2
    else if code < 0x20 ∨ code ∈ [0x26, 0x3C, 0x3E, 0x2028, 0x2029] then 6
    else encoding.length

def jsonStringSize (s : Bytes) : Nat := 2 + ((runes s).map escapedSize).sum

mutual

/-- The length of `json.Marshal` of a value; `none` is an error. -/
def jsonSize : Value → Option Nat
  | .null => some 4
  | .bool b => some (if b then 4 else 5)
  | .num text valid => if valid then some text.length else none
  | .str s => some (jsonStringSize s)
  | .list vs => (jsonSizeList vs).map fun n => 2 + n + (vs.length - 1)
  | .map m => (jsonSizeFields m).map fun n => 2 + n + (m.length - 1)
  | .other => none

def jsonSizeList : List Value → Option Nat
  | [] => some 0
  | v :: vs => do
    let n ← jsonSize v
    let rest ← jsonSizeList vs
    pure (n + rest)

def jsonSizeFields : List (Bytes × Value) → Option Nat
  | [] => some 0
  | (k, v) :: m => do
    let n ← jsonSize v
    let rest ← jsonSizeFields m
    pure (jsonStringSize k + 1 + n + rest)

end

/-! ## The reduction ladder -/

def mapAt : List Bytes → GoMap Value → Option (GoMap Value)
  | [], m => some m
  | k :: path, m => (GoMap.get m k).bind Value.asMap |>.bind (mapAt path)

/-- Changes the map at a path in place; there may be none. -/
def updateAt (f : GoMap Value → GoMap Value × Bool) : List Bytes → GoMap Value → GoMap Value × Bool
  | [], m => f m
  | k :: path, m =>
    match (GoMap.get m k).bind Value.asMap with
    | none => (m, false)
    | some c => (GoMap.set m k (.map (updateAt f path c).1), (updateAt f path c).2)

/-- Keeps the first half of the list at `m[key]`; an emptied list is removed. -/
def halveList (key : Bytes) (m : GoMap Value) : GoMap Value × Bool :=
  match (GoMap.get m key).bind Value.asList with
  | none => (GoMap.erase m key, false)
  | some [] => (GoMap.erase m key, true)
  | some list => (GoMap.set m key (.list (list.take (list.length / 2))), true)

/-- Keeps the first half of the map at `m[key]` in key order; an emptied map is
removed. -/
def halveMap (key : Bytes) (m : GoMap Value) : GoMap Value × Bool :=
  match (GoMap.get m key).bind Value.asMap with
  | none => (GoMap.erase m key, false)
  | some [] => (GoMap.erase m key, true)
  | some sm =>
    let keys := GoMap.sortedKeys sm
    let gone := keys.drop (keys.length / 2)
    (GoMap.set m key (.map (sm.filter fun e => e.1 ∉ gone)), true)

mutual

/-- An entry of a map or list with every string in it cut to `bound`. -/
def retruncateEntry (bound : Nat) : Value → Value
  | .str s => .str (truncateRunes s bound)
  | .list vs => .list (retruncateList bound vs)
  | .map m => .map (retruncate bound m)
  | v => v

def retruncateList (bound : Nat) : List Value → List Value
  | [] => []
  | v :: vs => retruncateEntry bound v :: retruncateList bound vs

def retruncate (bound : Nat) : List (Bytes × Value) → List (Bytes × Value)
  | [] => []
  | (k, v) :: m => (k, retruncateEntry bound v) :: retruncate bound m

end

def podSpecPaths : List (List Bytes) :=
  [[ascii "spec"], [ascii "spec", ascii "template", ascii "spec"],
    [ascii "spec", ascii "jobTemplate", ascii "spec", ascii "template", ascii "spec"]]

abbrev Reduction := GoMap Value → GoMap Value × Bool

/-- The first of the edits that changes something; `a || b` in the source. -/
def firstOf : List Reduction → Reduction
  | [], out => (out, false)
  | r :: rs, out => if (r out).2 then r out else firstOf rs (r out).1

def allOf : List Reduction → Reduction
  | [], out => (out, false)
  | r :: rs, out => ((allOf rs (r out).1).1, (r out).2 || (allOf rs (r out).1).2)

def cutTails : Reduction :=
  firstOf [updateAt (halveList (ascii "conditions")) [ascii "status"],
      updateAt (halveMap (ascii "labels")) [ascii "metadata"],
      updateAt (halveMap (ascii "annotations")) [ascii "metadata"],
      updateAt (halveList (ascii "ownerReferences")) [ascii "metadata"],
      allOf (podSpecPaths.flatMap fun path =>
        [updateAt (halveList (ascii "containers")) path,
          updateAt (halveList (ascii "initContainers")) path])]

/-- One reduction: the new bound and projection, or `none` when there is
nothing left to reduce. -/
def shrink (bound : Nat) (out : GoMap Value) : Option (Nat × GoMap Value) :=
  if (cutTails out).2 then some (bound, (cutTails out).1)
  else if minFieldBytes < bound then some (bound / 2, retruncate (bound / 2) (cutTails out).1)
  else none

def fits (maxBytes : Nat) (out : GoMap Value) : Bool :=
  match jsonSize (.map out) with
  | some n => n ≤ maxBytes
  | none => false

/-- The loop of `RedactObject`: the projection that fits and whether it had to
be reduced. -/
def reduceLoop (maxBytes : Nat) : Nat → Nat → GoMap Value → GoMap Value × Bool
  | 0, _, _ => ([], true)
  | fuel + 1, bound, out =>
    if fits maxBytes out then (out, false)
    else
      match shrink bound out with
      | none => ([], true)
      | some (bound, out) => ((reduceLoop maxBytes fuel bound out).1, true)

mutual

def nodes : Value → Nat
  | .list vs => 1 + nodesList vs
  | .map m => 1 + nodesFields m
  | _ => 1

def nodesList : List Value → Nat
  | [] => 0
  | v :: vs => nodes v + nodesList vs

def nodesFields : List (Bytes × Value) → Nat
  | [] => 0
  | (_, v) :: m => nodes v + nodesFields m

end

/-- Every reduction takes a value out or halves the bound, which limits their number. -/
def reduce (maxBytes : Nat) (out : GoMap Value) : GoMap Value × Bool :=
  reduceLoop maxBytes (nodesFields out + maxFieldBytes + 1) maxFieldBytes out

/-! ## References to Secrets -/

/-- `m[key]` exists and refers to something. -/
def present (m : GoMap Value) (key : Bytes) : Bool :=
  match GoMap.get m key with
  | none => false
  | some .null => false
  | some (.list []) => false
  | some _ => true

/-- The map at `m[key]` refers to something at `field`. -/
def presentIn (m : GoMap Value) (key field : Bytes) : Bool :=
  match (GoMap.get m key).bind Value.asMap with
  | none => false
  | some sub => present sub field

def listOfMaps (v : Option Value) : List (GoMap Value) :=
  ((v.bind Value.asList).getD []).filterMap Value.asMap

/-- The volume sources, beside `secret` and `projected`, that name a Secret. -/
def volumeSecretFields : List (Bytes × Bytes) :=
  [(ascii "csi", ascii "nodePublishSecretRef"), (ascii "rbd", ascii "secretRef"),
    (ascii "cinder", ascii "secretRef"), (ascii "cephfs", ascii "secretRef"),
    (ascii "flexVolume", ascii "secretRef"), (ascii "iscsi", ascii "secretRef"),
    (ascii "scaleIO", ascii "secretRef"), (ascii "storageos", ascii "secretRef"),
    (ascii "azureFile", ascii "secretName")]

def containerReferencesSecret (c : GoMap Value) : Bool :=
  (listOfMaps (GoMap.get c (ascii "env"))).any
      (fun e => presentIn e (ascii "valueFrom") (ascii "secretKeyRef")) ||
    (listOfMaps (GoMap.get c (ascii "envFrom"))).any fun e => present e (ascii "secretRef")

def volumeReferencesSecret (vol : GoMap Value) : Bool :=
  present vol (ascii "secret") || volumeSecretFields.any (fun f => presentIn vol f.1 f.2) ||
    match (GoMap.get vol (ascii "projected")).bind Value.asMap with
    | none => false
    | some proj =>
      (listOfMaps (GoMap.get proj (ascii "sources"))).any fun src => present src (ascii "secret")

def referencesSecret (obj : GoMap Value) : Bool :=
  podSpecPaths.any fun path =>
    match mapAt path obj with
    | none => false
    | some ps =>
      present ps (ascii "imagePullSecrets") ||
        [ascii "containers", ascii "initContainers", ascii "ephemeralContainers"].any
          (fun key => (listOfMaps (GoMap.get ps key)).any containerReferencesSecret) ||
        (listOfMaps (GoMap.get ps (ascii "volumes"))).any volumeReferencesSecret

/-! ## Redaction -/

inductive Rule where
  | secretValues
  | lastAppliedConfig
  | annotationAllowlist
  | fieldAllowlist
  | textSanitized
  | truncated
deriving DecidableEq

def Rule.text : Rule → String
  | .secretValues => "secret-values"
  | .lastAppliedConfig => "last-applied-config"
  | .annotationAllowlist => "annotation-allowlist"
  | .fieldAllowlist => "field-allowlist"
  | .textSanitized => "text-sanitized"
  | .truncated => "truncated"

structure RedactionMeta where
  applied : Bool
  rules : List Rule
  fieldsRemoved : Nat
  truncated : Bool
  secretDerived : Bool
deriving DecidableEq

/-- `strings.ToLower` as far as a comparison with ASCII text without `i` and `k` can tell. -/
def lowerAscii (s : Bytes) : Bytes :=
  s.map fun b => if byte 'A' ≤ b ∧ b ≤ byte 'Z' then b + 0x20 else b

def isSecretsResource (resource : Bytes) : Bool :=
  [ascii "secrets", ascii "v1/secrets", ascii "core/secrets", ascii "/secrets"].contains
    (lowerAscii (trimSpace resource))

def isSecret (obj : GoMap Value) (sourceResource : Bytes) : Bool :=
  (GoMap.get obj (ascii "kind")).bind Value.asString == some (ascii "Secret") ||
    isSecretsResource sourceResource

def redactObject (maxBytes : Nat) (obj : GoMap Value) (sourceResource : Bytes) :
    GoMap Value × RedactionMeta :=
  let secret := isSecret obj sourceResource
  let projected := object maxFieldBytes obj secret
  let reduced := reduce maxBytes projected.value
  let tally := projected.log
  let truncated := tally.truncated || reduced.2
  let rules :=
    [(secret, Rule.secretValues), (tally.lastApplied, .lastAppliedConfig),
      (decide (0 < tally.annotationHits), .annotationAllowlist),
      (decide (0 < tally.fieldHits), .fieldAllowlist), (tally.sanitized, .textSanitized),
      (truncated, .truncated)].filterMap fun r => if r.1 then some r.2 else none
  (reduced.1,
    { applied := !rules.isEmpty
      rules := rules
      fieldsRemoved := tally.removed
      truncated := truncated
      secretDerived := secret || referencesSecret obj })

end KubeCenter.Incidents
