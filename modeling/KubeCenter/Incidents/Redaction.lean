import KubeCenter.Lib.Control
import KubeCenter.Lib.Projection
import KubeCenter.Lib.Utf8

/-! # Redaction of captured objects

`incidents/redaction.go`: an object is projected onto an allowlist, every string that survives is
sanitized and bounded, and the projection is reduced until its JSON encoding fits. The counters are
a tally beside the projection, which takes its byte bound as an argument. -/
namespace KubeCenter.Incidents

open Lib

def minMaxBytes : Nat := 64
def lastAppliedConfigAnnotation : Bytes := ascii "kubectl.kubernetes.io/last-applied-configuration"

def maxFieldBytes : Nat := 4096
def minFieldBytes : Nat := 16
def maxLabels : Nat := 64
def maxAnnotations : Nat := 32
def maxConditions : Nat := 32
def maxContainers : Nat := 64
def maxOwnerReferences : Nat := 16

/-! ## Text -/

/-- Cuts to at most `n` bytes without splitting a rune. -/
def truncateRunes (s : Bytes) (n : Nat) : Bytes :=
  if s.length ≤ n then s else s.take (runeStartBefore s n)

def keptRune (code : Nat) : Bool :=
  !((code < 0x20 && code != 0x0A && code != 0x09) || code == 0x7F || (0x80 ≤ code && code ≤ 0x9F))

/-- A text after `sanitize`: whether an edit changed it, whether it was cut. -/
structure Sanitized where
  out : Bytes
  changed : Bool
  truncated : Bool
deriving DecidableEq

def sanitize (s : Bytes) (bound : Nat) : Sanitized :=
  let out := filterRunes keptRune (toValidUTF8 s replacementChar)
  if bound < out.length then ⟨truncateRunes out bound, out != s, true⟩
  else ⟨out, out != s, false⟩

/-! ## The projector -/

structure Tally where
  removed : Nat := 0
  fieldHits : Nat := 0
  annotationHits : Nat := 0
  lastApplied : Bool := false
  sanitized : Bool := false
  truncated : Bool := false
deriving DecidableEq

instance : Zero Tally := ⟨{}⟩

instance : Add Tally where
  add a b :=
    { removed := a.removed + b.removed
      fieldHits := a.fieldHits + b.fieldHits
      annotationHits := a.annotationHits + b.annotationHits
      lastApplied := a.lastApplied || b.lastApplied
      sanitized := a.sanitized || b.sanitized
      truncated := a.truncated || b.truncated }

abbrev Proj := Logged Tally

open Logged (tell)

variable (bound : Nat)

def drop : Proj Unit := tell { removed := 1, fieldHits := 1 }

def str (v : Value) : Proj (Option Bytes) :=
  match v.asString with
  | none => pure none
  | some s => do
    let r := sanitize s bound
    tell { sanitized := r.changed, truncated := r.truncated }
    pure (some r.out)

def copyStrings (src out : GoMap Value) (keys : List Bytes) : Proj (GoMap Value) :=
  keys.foldlM (fun out k =>
    match GoMap.get src k with
    | none => pure out
    | some v => do
      match ← str bound v with
      | some s => pure (GoMap.set out k (.str s))
      | none => do
        drop
        pure out) out

/-- A number that is not finite or does not parse is a `Value.other` and counts as one. -/
def copyNumbers (src out : GoMap Value) (keys : List Bytes) : Proj (GoMap Value) :=
  keys.foldlM (fun out k =>
    match GoMap.get src k with
    | none => pure out
    | some v =>
      match v.asNumber with
      | some n => pure (GoMap.set out k n)
      | none => do
        drop
        pure out) out

def dropOthers (src : GoMap Value) (keep : List Bytes) : Proj Unit :=
  (GoMap.keys src).foldlM (fun _ k => if k ∈ keep then pure () else drop) ()

/-- `src[key]` as a map; another value is dropped. -/
def child (src : GoMap Value) (key : Bytes) : Proj (Option (GoMap Value)) :=
  match GoMap.get src key with
  | none => pure none
  | some v =>
    match v.asMap with
    | some m => pure (some m)
    | none => do
      drop
      pure none

def copyChild (src out : GoMap Value) (key : Bytes)
    (project : GoMap Value → Proj (GoMap Value)) : Proj (GoMap Value) := do
  match ← child src key with
  | none => pure out
  | some m => do
    let projected ← project m
    pure (GoMap.set out key (.map projected))

def copyList (src out : GoMap Value) (key : Bytes)
    (project : List Value → Proj (List Value)) : Proj (GoMap Value) :=
  match GoMap.get src key with
  | none => pure out
  | some v =>
    match v.asList with
    | some l => do
      let projected ← project l
      pure (GoMap.set out key (.list projected))
    | none => do
      drop
      pure out

def annotationKept (key : Bytes) : Bool :=
  (ascii "kubecenter.io/").isPrefixOf key || key == ascii "deployment.kubernetes.io/revision"

/-- Whether the annotation stays; a removal is counted. -/
def annotationAllowed (key : Bytes) : Proj Bool :=
  if key = lastAppliedConfigAnnotation then do
    tell { lastApplied := true, removed := 1 }
    pure false
  else if annotationKept key then pure true
  else do
    tell { annotationHits := 1, removed := 1 }
    pure false

def copyTextEntry (bound max : Nat) (allowed : Bytes → Proj Bool) (src out : GoMap Value)
    (k : Bytes) : Proj (GoMap Value) := do
  if ← allowed k then
    match (GoMap.get src k).bind Value.asString with
    | none => do
      drop
      pure out
    | some raw =>
      if max ≤ out.length then do
        tell { truncated := true }
        pure out
      else do
        let v ← str bound (.str raw)
        let sk ← str bound (.str k)
        pure (GoMap.set out (sk.getD []) (.str (v.getD [])))
  else pure out

/-- The texts under allowed keys, in key order, up to `max` entries. -/
def stringMap (bound max : Nat) (allowed : Bytes → Proj Bool) (src : GoMap Value) :
    Proj (GoMap Value) :=
  (GoMap.sortedKeys src).foldlM (copyTextEntry bound max allowed src) []

def keep (out : List Value) (o : GoMap Value) (max : Nat) : Proj (List Value) :=
  if max ≤ out.length then do
    tell { truncated := true }
    pure out
  else pure (out ++ [.map o])

/-- One element of a list: a map is projected and kept, anything else is
dropped. -/
def keepMap (max : Nat) (project : GoMap Value → Proj (GoMap Value)) (out : List Value)
    (v : Value) : Proj (List Value) :=
  match v.asMap with
  | none => do
    drop
    pure out
  | some m => do
    let o ← project m
    keep out o max

def mapsOf (max : Nat) (project : GoMap Value → Proj (GoMap Value)) (list : List Value) :
    Proj (List Value) :=
  list.foldlM (keepMap max project) []

def ownerReferenceStrings : List Bytes :=
  [ascii "apiVersion", ascii "kind", ascii "name", ascii "uid"]

def copyFlag (src out : GoMap Value) (key : Bytes) : Proj (GoMap Value) :=
  match GoMap.get src key with
  | none => pure out
  | some c =>
    match c.asBool with
    | some b => pure (GoMap.set out key (.bool b))
    | none => do
      drop
      pure out

def ownerReference (ref : GoMap Value) : Proj (GoMap Value) := do
  let o ← copyStrings bound ref [] ownerReferenceStrings
  let o ← copyFlag ref o (ascii "controller")
  dropOthers ref (ownerReferenceStrings ++ [ascii "controller"])
  pure o

def ownerReferences (refs : List Value) : Proj (List Value) :=
  mapsOf maxOwnerReferences (ownerReference bound) refs

def metadataStrings : List Bytes :=
  [ascii "name", ascii "namespace", ascii "uid", ascii "resourceVersion", ascii "creationTimestamp"]

def metadata (md : GoMap Value) : Proj (GoMap Value) := do
  let out ← copyStrings bound md [] metadataStrings
  let out ← copyChild md out (ascii "labels") (stringMap bound maxLabels fun _ => pure true)
  let out ← copyChild md out (ascii "annotations")
    (stringMap bound maxAnnotations annotationAllowed)
  let out ← copyList md out (ascii "ownerReferences") (ownerReferences bound)
  dropOthers md (metadataStrings ++ [ascii "labels", ascii "annotations", ascii "ownerReferences"])
  pure out

def container (c : GoMap Value) : Proj (GoMap Value) := do
  let o ← copyStrings bound c [] [ascii "name", ascii "image"]
  dropOthers c [ascii "name", ascii "image"]
  pure o

def containers (list : List Value) : Proj (List Value) :=
  mapsOf maxContainers (container bound) list

def containerKeys : List Bytes := [ascii "containers", ascii "initContainers"]

def containerLists (podSpec out : GoMap Value) : Proj (GoMap Value) :=
  containerKeys.foldlM (fun out key => copyList podSpec out key (containers bound)) out

def podSpec (ps : GoMap Value) : Proj (GoMap Value) := do
  let so ← containerLists bound ps []
  dropOthers ps containerKeys
  pure so

def template (tpl : GoMap Value) : Proj (GoMap Value) := do
  let out ← copyChild tpl [] (ascii "spec") (podSpec bound)
  dropOthers tpl [ascii "spec"]
  pure out

def jobSpec (js : GoMap Value) : Proj (GoMap Value) := do
  let so ← copyChild js [] (ascii "template") (template bound)
  dropOthers js [ascii "template"]
  pure so

def jobTemplate (jt : GoMap Value) : Proj (GoMap Value) := do
  let jo ← copyChild jt [] (ascii "spec") (jobSpec bound)
  dropOthers jt [ascii "spec"]
  pure jo

def spec (sp : GoMap Value) : Proj (GoMap Value) := do
  let out ← copyNumbers sp [] [ascii "replicas"]
  let out ← containerLists bound sp out
  let out ← copyChild sp out (ascii "template") (template bound)
  let out ← copyChild sp out (ascii "jobTemplate") (jobTemplate bound)
  dropOthers sp ([ascii "replicas"] ++ containerKeys ++ [ascii "template", ascii "jobTemplate"])
  pure out

def conditionStrings : List Bytes :=
  [ascii "type", ascii "status", ascii "reason", ascii "message", ascii "lastTransitionTime"]

def condition (c : GoMap Value) : Proj (GoMap Value) := do
  let o ← copyStrings bound c [] conditionStrings
  dropOthers c conditionStrings
  pure o

def conditions (list : List Value) : Proj (List Value) :=
  mapsOf maxConditions (condition bound) list

def statusNumbers : List Bytes :=
  [ascii "replicas", ascii "readyReplicas", ascii "availableReplicas"]

def status (st : GoMap Value) : Proj (GoMap Value) := do
  let out ← copyNumbers st [] statusNumbers
  let out ← copyStrings bound st out [ascii "phase"]
  let out ← copyList st out (ascii "conditions") (conditions bound)
  dropOthers st (statusNumbers ++ [ascii "phase", ascii "conditions"])
  pure out

def dropSecretFields (obj : GoMap Value) : Proj Unit :=
  (GoMap.keys obj).foldlM (fun _ k =>
    if k ∈ [ascii "apiVersion", ascii "kind", ascii "metadata"] then pure ()
    else if k ∈ [ascii "data", ascii "stringData"] then tell { removed := 1 }
    else drop) ()

def object (obj : GoMap Value) (isSecret : Bool) : Proj (GoMap Value) := do
  let out ← copyStrings bound obj [] [ascii "apiVersion", ascii "kind"]
  let out ← copyChild obj out (ascii "metadata") (metadata bound)
  if isSecret then do
    dropSecretFields obj
    pure out
  else do
    let out ← copyChild obj out (ascii "spec") (spec bound)
    let out ← copyChild obj out (ascii "status") (status bound)
    dropOthers obj
      [ascii "apiVersion", ascii "kind", ascii "metadata", ascii "spec", ascii "status"]
    pure out

end KubeCenter.Incidents
