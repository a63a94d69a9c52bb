import KubeCenter.Changes.Service

/-! # The observed apply loop

`ApplyDocumentsObserved` under `trackedApplyEngine`, one external call a step. Every answer is a
free choice, so a run covers every cluster and every cancellation point. The loop's own response is
not modelled: the tracked path discards it. -/
namespace KubeCenter.Yaml
open Store Changes List

/-- The fields of `meta.RESTMapping` the applier reads. -/
structure RESTMapping where
  group : String
  version : String
  resource : String
  namespaced : Bool
deriving DecidableEq

/-- The fields read of an object the API server returned. -/
structure LiveObject where
  uid : String
  resourceVersion : String
deriving DecidableEq

def extractValidationMessage (err : ApiError) : String :=
  match err.status with
  | some st => st.message
  | none => err.text

/-! ## One document -/

def gvkString (d : Document) : String := d.group ++ "/" ++ d.version ++ ", Kind=" ++ d.kind

def targetNamespace (m : RESTMapping) (d : Document) : String :=
  if m.namespaced then (if d.namespace_ = "" then "default" else d.namespace_) else d.namespace_

/-- `changeObservation` of an outcome reached after the mapping was resolved. -/
def mappedObservation (i : Nat) (d : Document) (m : RESTMapping) (uid : String) (action : Action)
    (error errorClass : String) : ApplyObservation where
  index := i
  group := m.group
  version := m.version
  resource := m.resource
  kind := d.kind
  namespace_ := targetNamespace m d
  name := d.name
  uid := uid
  action := action
  error := error
  errorClass := errorClass

def unmappedObservation (i : Nat) (d : Document) (mapErr : String) : ApplyObservation where
  index := i
  kind := d.kind
  namespace_ := d.namespace_
  name := d.name
  action := .failed
  error := "unknown resource type " ++ gvkString d ++ ": " ++ mapErr

def patchErrorText (err : ApiError) : String :=
  if err.isConflict then "field ownership conflict: " ++ err.text ++ ". Use force to override."
  else if err.isForbidden then "permission denied: " ++ err.text
  else if err.isInvalid then extractValidationMessage err
  else err.text

def priorUID : Except ApiError LiveObject → String
  | .ok live => live.uid
  | .error _ => ""

/-- How a successful PATCH is named, given what the read before it answered. -/
def appliedAction (existing : Except ApiError LiveObject) (applied : LiveObject) : Action :=
  match existing with
  | .error e => if e.isNotFound then .created else .configured
  | .ok live => if live.resourceVersion = applied.resourceVersion then .unchanged else .configured

def patchObservation (i : Nat) (d : Document) (m : RESTMapping)
    (existing : Except ApiError LiveObject) : Except ApiError LiveObject → ApplyObservation
  | .error e => mappedObservation i d m (priorUID existing) .failed (patchErrorText e)
      (classifyAPIError e)
  | .ok applied => mappedObservation i d m applied.uid (appliedAction existing applied) "" ""

/-! ## The loop -/

/-- Where the loop is. `index` is the document at hand. -/
inductive Pc where
  | top
  | mapping (attempt : Nat)
  | waiting (attempt : Nat)
  | get (m : RESTMapping)
  | marshal (m : RESTMapping) (existing : Except ApiError LiveObject)
  | ready (m : RESTMapping) (existing : Except ApiError LiveObject)
  | patching (m : RESTMapping) (existing : Except ApiError LiveObject)
  | report (obs : ApplyObservation)
  | halted

structure State where
  docs : List Document
  index : Nat
  attempted : List ApplyObservation
  stopped : Option RecordingError
  pc : Pc

inductive Choice where
  | ctx (done : Bool)
  | mapped (answer : Except String RESTMapping)
  | waited (cancelled : Bool)
  | got (answer : Except ApiError LiveObject)
  | marshalled (err : Option String)
  | patched (answer : Except ApiError LiveObject)
  | proceed

/-- `applyOne` returned an outcome: it is settled and goes to the observer. -/
def State.settle (s : State) (obs : ApplyObservation) : EngineCall State :=
  .go [.settled obs] { s with pc := .report obs }

/-- The context was done before the PATCH: neither this document nor a later one is observed. -/
def State.abandon (s : State) : EngineCall State := .go [] { s with pc := .halted }

/-- The outcome joins `Attempted` before it is recorded, and a recording error stops the loop. -/
def State.observed (s : State) (obs : ApplyObservation) : Option RecordingError → State
  | none => { s with attempted := s.attempted ++ [obs], index := s.index + 1, pc := .top }
  | some e => { s with attempted := s.attempted ++ [obs], stopped := some e, pc := .halted }

/-- One step of the loop on document `d`. -/
def State.advance (s : State) (d : Document) : Pc → Choice → Option (EngineCall State)
  | .top, .ctx done => some (if done then s.abandon else .go [] { s with pc := .mapping 0 })
  | .mapping _, .mapped (.ok m) => some (.go [] { s with pc := .get m })
  | .mapping attempt, .mapped (.error e) =>
    some (if attempt = 2 then s.settle (unmappedObservation s.index d e)
      else .go [] { s with pc := .waiting attempt })
  | .waiting attempt, .waited cancelled =>
    some (if cancelled then s.abandon else .go [] { s with pc := .mapping (attempt + 1) })
  | .get m, .got answer => some (.go [] { s with pc := .marshal m answer })
  | .marshal m existing, .marshalled none => some (.go [] { s with pc := .ready m existing })
  | .marshal m _, .marshalled (some e) =>
    some (s.settle (mappedObservation s.index d m "" .failed ("marshaling object: " ++ e) ""))
  -- the last look at the context; past it the PATCH is on its way
  | .ready m existing, .ctx done =>
    some (if done then s.abandon else .go [.patch s.index] { s with pc := .patching m existing })
  | .patching m existing, .patched answer =>
    some (s.settle (patchObservation s.index d m existing answer))
  | .report obs, .proceed => some (.observe obs (s.observed obs))
  | _, _ => none

def State.next (s : State) (c : Choice) : Option (EngineCall State) :=
  match s.docs[s.index]?, s.pc with
  | _, .halted => some (.ret ⟨s.attempted, s.stopped⟩)
  | none, _ => some (.ret ⟨s.attempted, s.stopped⟩)
  | some d, pc => s.advance d pc c

abbrev trackedApplyEngine : Engine where
  State := State
  Choice := Choice
  init req := ⟨req.docs, 0, [], none, .top⟩
  next := State.next

/-! ## What the loop keeps

`E` is what has reached the cluster, or been settled about it, so far. -/

def Pc.sent : Pc → Bool
  | .patching .. | .report _ => true
  | _ => false

def Pc.inBody : Pc → Bool
  | .top | .halted => false
  | _ => true

/-- The indices of outcomes reported one document after the other from the first. -/
def Consecutive (attempted : List ApplyObservation) : Prop :=
  attempted.map (·.index) = (List.range attempted.length).map fun i : Nat => (i : Int)

theorem Consecutive.snoc {attempted} {obs : ApplyObservation} (h : Consecutive attempted)
    (hi : obs.index = (attempted.length : Int)) : Consecutive (attempted ++ [obs]) := by
  unfold Consecutive at *
  simp [range_succ, h, hi]

theorem Consecutive.exists_of_lt {attempted} (h : Consecutive attempted) {i : Nat}
    (hi : i < attempted.length) : ∃ o ∈ attempted, o.index = (i : Int) := by
  have hm : (i : Int) ∈ attempted.map (·.index) := by
    rw [h]
    exact mem_map.mpr ⟨i, mem_range.mpr hi, rfl⟩
  obtain ⟨o, ho, he⟩ := mem_map.mp hm
  exact ⟨o, ho, he⟩

/-- An outcome is of a document whose PATCH was issued, or of one that failed
before it. -/
def Honest (E : ClusterEvent → Prop) (o : ApplyObservation) : Prop :=
  ∃ i : Nat, o.index = (i : Int) ∧ (E (.patch i) ∨ o.action = .failed)

structure State.Ok (docs : List Document) (E : ClusterEvent → Prop) (s : State) : Prop where
  given : s.docs = docs
  indices : Consecutive s.attempted
  patched : ∀ i, E (.patch i) → i < s.attempted.length ∨ (i = s.attempted.length ∧ s.pc.sent)
  running : s.pc ≠ .halted → s.index = s.attempted.length
  inBody : s.pc.inBody → s.index < docs.length
  sending : ∀ m existing, s.pc = .patching m existing → E (.patch s.index)
  report : ∀ obs, s.pc = .report obs → obs.index = (s.index : Int) ∧ E (.settled obs)
  honest : ∀ o, E (.settled o) → Honest E o

/-- `E` after `events`. -/
def after (E : ClusterEvent → Prop) (events : List ClusterEvent) (e : ClusterEvent) : Prop :=
  e ∈ events ∨ E e

theorem init_ok (req : TrackedApplyRequest) :
    (trackedApplyEngine.init req : State).Ok req.docs (fun _ => False) where
  given := rfl
  indices := rfl
  patched _ h := h.elim
  running _ := rfl
  inBody h := by cases h
  sending _ _ h := by cases h
  report _ h := by cases h
  honest _ h := h.elim

variable {E : ClusterEvent → Prop} {docs : List Document} {s : State}

theorem Honest.mono {F} (hEF : ∀ e, E e → F e) {o} (h : Honest E o) : Honest F o := by
  obtain ⟨i, hi, hp⟩ := h
  exact ⟨i, hi, hp.imp_left (hEF _)⟩

theorem State.Ok.goto {pc : Pc} (h : s.Ok docs E) (hrun : s.pc ≠ .halted)
    (hsn : s.pc.sent = false) (hbd : pc.inBody → s.index < docs.length)
    (hpa : ∀ m x, pc ≠ .patching m x) (hrp : ∀ o, pc ≠ .report o) :
    ({ s with pc := pc } : State).Ok docs (after E []) where
  given := h.given
  indices := h.indices
  patched i hi := by
    rcases hi with hi | hi
    · cases hi
    · rcases h.patched i hi with hlt | ⟨_, hs⟩
      · exact .inl hlt
      · rw [hsn] at hs; cases hs
  running _ := h.running hrun
  inBody := hbd
  sending m x he := absurd he (hpa m x)
  report o he := absurd he (hrp o)
  honest o ho := by
    rcases ho with ho | ho
    · cases ho
    · exact (h.honest o ho).mono fun _ => .inr

theorem State.Ok.settle {obs : ApplyObservation} (h : s.Ok docs E) (hbd : s.pc.inBody = true)
    (hi : obs.index = (s.index : Int)) (hobs : E (.patch s.index) ∨ obs.action = .failed) :
    ({ s with pc := .report obs } : State).Ok docs (after E [.settled obs]) where
  given := h.given
  indices := h.indices
  patched i hp := by
    rcases hp with hp | hp
    · simp at hp
    · rcases h.patched i hp with hlt | ⟨he, _⟩
      · exact .inl hlt
      · exact .inr ⟨he, rfl⟩
  running _ := h.running fun he => by rw [he] at hbd; cases hbd
  inBody _ := h.inBody hbd
  sending _ _ he := by cases he
  report o he := by cases he; exact ⟨hi, .inl (by simp)⟩
  honest o ho := by
    rcases ho with ho | ho
    · simp only [mem_singleton, ClusterEvent.settled.injEq] at ho
      subst ho
      exact ⟨s.index, hi, hobs.imp_left .inr⟩
    · exact (h.honest o ho).mono fun _ => .inr

theorem State.Ok.observed {docs : List Document} {E : ClusterEvent → Prop} {s : State} {obs}
    (h : s.Ok docs E) (hpc : s.pc = .report obs) (answer : Option RecordingError) :
    (s.observed obs answer).Ok docs E := by
  have hrun : s.index = s.attempted.length := h.running (by rw [hpc]; exact fun h => by cases h)
  have hi : obs.index = (s.attempted.length : Int) := by rw [← hrun]; exact (h.report obs hpc).1
  have hpt : ∀ i, E (.patch i) → i < (s.attempted ++ [obs]).length := by
    intro i hp
    rw [length_append, length_singleton]
    rcases h.patched i hp with hlt | ⟨he, _⟩ <;> omega
  cases answer with
  | none =>
    exact ⟨h.given, h.indices.snoc hi, fun i hp => .inl (hpt i hp),
      fun _ => by simp [State.observed, hrun], nofun, nofun,
      nofun, h.honest⟩
  | some e =>
    exact ⟨h.given, h.indices.snoc hi, fun i hp => .inl (hpt i hp), absurd rfl, nofun, nofun,
      nofun, h.honest⟩

/-- What one step of the loop can be, from a state that is `Ok`. -/
inductive Spoke (docs : List Document) (E : ClusterEvent → Prop) (s : State) :
    EngineCall State → Prop
  | go {events t} (kept : t.attempted = s.attempted) (ok : t.Ok docs (after E events)) :
      Spoke docs E s (.go events t)
  | observe {obs} (running : s.pc ≠ .halted) (index : obs.index = (s.attempted.length : Int))
      (inRange : s.attempted.length < docs.length) (settled : E (.settled obs))
      (ok : ∀ answer, (s.observed obs answer).Ok docs E) :
      Spoke docs E s (.observe obs (s.observed obs))
  | ret (patched : ∀ i, E (.patch i) → i < s.attempted.length) :
      Spoke docs E s (.ret ⟨s.attempted, s.stopped⟩)

theorem State.Ok.abandon {docs : List Document} {E : ClusterEvent → Prop} {s : State}
    {pc : Pc} (h : s.Ok docs E) (hpc : s.pc = pc) (hrun : pc ≠ .halted) (hsn : pc.sent = false) :
    Spoke docs E s s.abandon :=
  .go rfl (h.goto (hpc ▸ hrun) (hpc ▸ hsn) nofun nofun nofun)

theorem State.Ok.send {m existing} (h : s.Ok docs E) (hpc : s.pc = .ready m existing) :
    ({ s with pc := .patching m existing } : State).Ok docs (after E [.patch s.index]) := by
  have hrun : s.index = s.attempted.length := h.running (by rw [hpc]; exact fun h => by cases h)
  refine ⟨h.given, h.indices, fun i hp => ?_, fun _ => hrun,
    fun _ => h.inBody (by rw [hpc]; rfl), fun _ _ _ => .inl (by simp),
    nofun, fun o ho => ?_⟩
  · rcases hp with hp | hp
    · simp only [mem_singleton, ClusterEvent.patch.injEq] at hp
      exact .inr ⟨hp.trans hrun, rfl⟩
    · rcases h.patched i hp with hlt | ⟨_, hs⟩
      · exact .inl hlt
      · rw [hpc] at hs; cases hs
  · rcases ho with ho | ho
    · simp at ho
    · exact (h.honest o ho).mono fun _ => .inr

theorem patchObservation_index (i : Nat) (d : Document) (m : RESTMapping)
    (existing answer : Except ApiError LiveObject) :
    (patchObservation i d m existing answer).index = (i : Int) := by
  cases answer <;> rfl

theorem State.Ok.advance {docs : List Document} {E : ClusterEvent → Prop} {s : State} {d : Document}
    {c : Choice} {ec} (h : s.Ok docs E) (hd : s.docs[s.index]? = some d)
    (hs : s.advance d s.pc c = some ec) : Spoke docs E s ec := by
  have hlt : s.index < docs.length := by
    rw [← h.given]
    exact (List.getElem?_eq_some_iff.mp hd).1
  have quiet : ∀ {pc pc' : Pc}, s.pc = pc → pc ≠ .halted → pc.sent = false →
      (∀ m x, pc' ≠ .patching m x) → (∀ o, pc' ≠ .report o) →
      Spoke docs E s (.go [] { s with pc := pc' }) :=
    fun hpc hr hn hp ho => .go rfl (h.goto (hpc ▸ hr) (hpc ▸ hn) (fun _ => hlt) hp ho)
  unfold State.advance at hs
  split at hs
  all_goals cases hs
  next hpc =>
    split
    · exact h.abandon hpc nofun rfl
    · exact quiet hpc nofun rfl nofun nofun
  next hpc => exact quiet hpc nofun rfl nofun nofun
  next hpc =>
    split
    · exact .go rfl (h.settle (by rw [hpc]; rfl) rfl (.inr rfl))
    · exact quiet hpc nofun rfl nofun nofun
  next hpc =>
    split
    · exact h.abandon hpc nofun rfl
    · exact quiet hpc nofun rfl nofun nofun
  next hpc => exact quiet hpc nofun rfl nofun nofun
  next hpc => exact quiet hpc nofun rfl nofun nofun
  next hpc => exact .go rfl (h.settle (by rw [hpc]; rfl) rfl (.inr rfl))
  next hpc =>
    split
    · exact h.abandon hpc nofun rfl
    · exact .go rfl (h.send hpc)
  next hpc =>
    exact .go rfl (h.settle (by rw [hpc]; rfl) (patchObservation_index _ _ _ _ _)
      (.inl (h.sending _ _ hpc)))
  next hpc =>
    have hrun := h.running (by simp [hpc])
    obtain ⟨hi, hset⟩ := h.report _ hpc
    exact .observe (by simp [hpc]) (by rw [hi, hrun]) (hrun ▸ hlt) hset
      fun answer => h.observed hpc answer

theorem State.Ok.next {docs : List Document} {E : ClusterEvent → Prop} {s : State} {c : Choice} {ec}
    (h : s.Ok docs E) (hs : s.next c = some ec) : Spoke docs E s ec := by
  have notSent : s.pc.sent = false → ∀ i, E (.patch i) → i < s.attempted.length := by
    intro hn i hp
    rcases h.patched i hp with hlt | ⟨_, hsn⟩
    · exact hlt
    · rw [hn] at hsn; cases hsn
  unfold State.next at hs
  split at hs
  next hpc =>
    cases hs
    exact .ret (notSent (by rw [hpc]; rfl))
  next hno _ =>
    cases hs
    refine .ret (notSent ?_)
    -- past the last document the loop is at its head or has stopped
    cases hb : s.pc.inBody with
    | true =>
      have hlt := h.inBody hb
      rw [← h.given] at hlt
      rw [getElem?_eq_none_iff] at hno
      omega
    | false => cases hpc : s.pc <;> rw [hpc] at hb <;> first | rfl | cases hb
  next d hd _ => exact h.advance hd hs

end KubeCenter.Yaml
