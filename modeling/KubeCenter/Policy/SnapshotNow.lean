import KubeCenter.Lib.Reactive

/-! # Coalesced compliance snapshots

`SnapshotNow` of `policy/remote_recorder.go`. A call for a cluster without a background run starts
one, a call for a cluster with one asks it for a further snapshot. Calls and the steps of the
background runs interleave in any order. -/
namespace KubeCenter.Policy
open Lib List
open Function (update update_self)

/-- Where a background run stands in its loop. -/
inductive RunPc
  /-- Before `snapshotNowOnce` asks for the identity. -/
  | starting
  /-- The identity was asked for. The snapshot goes on until it returns, fails or panics. -/
  | snapshotting
  /-- Before the locked section that ends the pass. -/
  | settling
deriving DecidableEq

structure RemoteComplianceRecorder where
  nowRunning : String → Option Bool
  /-- The background runs of a cluster. -/
  runs : String → List RunPc

/-- A call, or the next step of the `i`-th background run of a cluster. -/
inductive RecorderStep
  | snapshotNow (clusterID : String)
  | advance (clusterID : String) (i : ℕ)
deriving DecidableEq

inductive RecorderEvent
  | started (clusterID : String)
  | coalesced (clusterID : String)
  | readIdentity (clusterID : String)
  | again (clusterID : String)
  | stopped (clusterID : String)
  | quiet
deriving DecidableEq

open RecorderStep RecorderEvent

namespace RemoteComplianceRecorder

def snapshotNow (r : RemoteComplianceRecorder) (c : String) :
    RecorderEvent × RemoteComplianceRecorder :=
  match r.nowRunning c with
  | some _ => (coalesced c, { r with nowRunning := update r.nowRunning c (some true) })
  | none =>
    (started c, ⟨update r.nowRunning c (some false), update r.runs c (r.runs c ++ [.starting])⟩)

def advance (r : RemoteComplianceRecorder) (c : String) (i : ℕ) :
    RecorderEvent × RemoteComplianceRecorder :=
  let goto pc := update r.runs c ((r.runs c).set i pc)
  match (r.runs c)[i]? with
  | none => (quiet, r)
  | some .starting => (readIdentity c, { r with runs := goto .snapshotting })
  | some .snapshotting => (quiet, { r with runs := goto .settling })
  | some .settling =>
    if !(r.nowRunning c).getD false then
      (stopped c, ⟨update r.nowRunning c none, update r.runs c ((r.runs c).eraseIdx i)⟩)
    else (again c, ⟨update r.nowRunning c (some false), goto .starting⟩)

end RemoteComplianceRecorder

def recorder : Reactive RemoteComplianceRecorder RecorderStep RecorderEvent where
  init := ⟨fun _ => none, fun _ => []⟩
  react r a := match a with
    | .snapshotNow c => r.snapshotNow c
    | .advance c i => r.advance c i

/-- What a cluster's entry and runs come to: nothing, or a flag with the only run. -/
def Shows (r : RemoteComplianceRecorder) (c : String) (v : Option (Bool × RunPc)) : Prop :=
  r.nowRunning c = v.map Prod.fst ∧ r.runs c = (v.map Prod.snd).toList

/-- The steps of one cluster. -/
inductive SlotStep (c : String) : RecorderStep → RecorderEvent → Option (Bool × RunPc) →
    Option (Bool × RunPc) → Prop
  | other {a e v} : a ≠ .snapshotNow c → e ≠ again c → e ≠ stopped c → e ≠ started c →
    SlotStep c a e v v
  | start : SlotStep c (.snapshotNow c) (started c) none (some (false, .starting))
  | join {f pc} : SlotStep c (.snapshotNow c) (coalesced c) (some (f, pc)) (some (true, pc))
  | read {f i} :
    SlotStep c (.advance c i) (readIdentity c) (some (f, .starting)) (some (f, .snapshotting))
  | finish {f i} : SlotStep c (.advance c i) quiet (some (f, .snapshotting)) (some (f, .settling))
  | stop {i} : SlotStep c (.advance c i) (stopped c) (some (false, .settling)) none
  | further {i} :
    SlotStep c (.advance c i) (again c) (some (true, .settling)) (some (false, .starting))

variable {r : RemoteComplianceRecorder} {c : String} {v : Option (Bool × RunPc)}

theorem Shows.snapshotNow (h : Shows r c v) :
    ∃ v', Shows (r.snapshotNow c).2 c v' ∧
      SlotStep c (.snapshotNow c) (r.snapshotNow c).1 v v' := by
  obtain ⟨hf, hr⟩ := h
  cases v with
  | none =>
    simp only [RemoteComplianceRecorder.snapshotNow, hf, Option.map_none]
    exact ⟨some (false, .starting), ⟨update_self .., by simp [hr]⟩, .start⟩
  | some v =>
    simp only [RemoteComplianceRecorder.snapshotNow, hf, Option.map_some]
    exact ⟨some (true, v.2), ⟨update_self .., hr⟩, .join⟩

theorem Shows.advance (h : Shows r c v) (i : ℕ) :
    ∃ v', Shows (r.advance c i).2 c v' ∧ SlotStep c (.advance c i) (r.advance c i).1 v v' := by
  obtain ⟨hf, hr⟩ := h
  have idle : (r.runs c)[i]? = none → ∃ v', Shows (r.advance c i).2 c v' ∧
      SlotStep c (.advance c i) (r.advance c i).1 v v' := fun hi => by
    simp only [RemoteComplianceRecorder.advance, hi]
    exact ⟨v, ⟨hf, hr⟩, .other nofun nofun nofun nofun⟩
  cases v with
  | none => exact idle (by simp [hr])
  | some v =>
    obtain ⟨f, pc⟩ := v
    cases i with
    | succ i => exact idle (by simp [hr])
    | zero =>
      have hi : (r.runs c)[0]? = some pc := by simp [hr]
      simp only [RemoteComplianceRecorder.advance, hi]
      cases pc with
      | starting => exact ⟨some (f, .snapshotting), ⟨hf, by simp [hr]⟩, .read⟩
      | snapshotting => exact ⟨some (f, .settling), ⟨hf, by simp [hr]⟩, .finish⟩
      | settling =>
        simp only [hf, Option.map_some, Option.getD_some]
        cases f with
        | false => exact ⟨none, ⟨update_self .., by simp [hr]⟩, .stop⟩
        | true => exact ⟨some (false, .starting), ⟨update_self .., by simp [hr]⟩, .further⟩

theorem Shows.react (h : Shows r c v) (a : RecorderStep) :
    ∃ v', Shows (recorder.react r a).2 c v' ∧ SlotStep c a (recorder.react r a).1 v v' := by
  cases a with
  | snapshotNow c' =>
    by_cases hc : c' = c
    · subst hc
      exact h.snapshotNow
    · refine ⟨v, ?_, .other (by simpa using hc) ?_ ?_ ?_⟩ <;>
        simp only [recorder, RemoteComplianceRecorder.snapshotNow] <;> split <;>
        simp [Shows, Ne.symm hc, hc, h.1, h.2]
  | advance c' i =>
    by_cases hc : c' = c
    · subst hc
      exact h.advance i
    · refine ⟨v, ?_, .other nofun ?_ ?_ ?_⟩ <;>
        simp only [recorder, RemoteComplianceRecorder.advance] <;> split <;>
        (try split) <;> simp [Shows, Ne.symm hc, hc, h.1, h.2]

theorem shows_run (history : List RecorderStep) : ∃ v, Shows (recorder.run history) c v := by
  induction history using reverseRecOn with
  | nil => exact ⟨none, rfl, rfl⟩
  | append_singleton history a ih =>
    obtain ⟨v, h⟩ := ih
    obtain ⟨v', h', -⟩ := h.react a
    exact ⟨v', recorder.run_concat .. ▸ h'⟩

/-- The run is asked for a further snapshot, or has not read the identity of the present one. -/
def Owed (v : Option (Bool × RunPc)) : Prop :=
  ∃ f pc, v = some (f, pc) ∧ (f = true ∨ pc = .starting)

theorem SlotStep.owed {a e v'} (h : SlotStep c a e v v') (ho : Owed v) :
    Owed v' ∨ e = readIdentity c := by
  obtain ⟨f, pc, rfl, hp⟩ := ho
  cases h with
  | other => exact .inl ⟨f, pc, rfl, hp⟩
  | join => exact .inl ⟨true, pc, rfl, .inl rfl⟩
  | read => exact .inr rfl
  | finish => exact .inl ⟨f, _, rfl, .inl (hp.resolve_right nofun)⟩
  | stop => exact (hp.elim nofun nofun)
  | further => exact .inl ⟨false, _, rfl, .inr rfl⟩

theorem SlotStep.owed_of_call {e v'} (h : SlotStep c (.snapshotNow c) e v v') : Owed v' := by
  cases h with
  | other ha => exact absurd rfl ha
  | start => exact ⟨_, _, rfl, .inr rfl⟩
  | join => exact ⟨_, _, rfl, .inl rfl⟩

theorem Shows.read_or_owed (h : Shows r c v) (ho : Owed v) (steps : List RecorderStep) :
    readIdentity c ∈ recorder.traceFrom r steps ∨
      ∃ v', Shows (recorder.runFrom r steps) c v' ∧ Owed v' := by
  induction steps generalizing r v with
  | nil => exact .inr ⟨v, h, ho⟩
  | cons a steps ih =>
    obtain ⟨v', h', hs⟩ := h.react a
    rcases hs.owed ho with ho' | he
    · exact (ih h' ho').imp_left (mem_cons_of_mem _)
    · exact .inl (mem_cons.mpr (.inl he.symm))

/-- A further snapshot begins, or the run ends. -/
abbrev Settles (c : String) (e : RecorderEvent) : Prop := e = again c ∨ e = stopped c

theorem SlotStep.during {a e v' f pc} (h : SlotStep c a e (some (f, pc)) v') (hs : ¬Settles c e) :
    ∃ pc', v' = some (f || a = .snapshotNow c, pc') := by
  cases h with
  | other ha => exact ⟨pc, by simp [ha]⟩
  | join => exact ⟨pc, by simp⟩
  | read => exact ⟨.snapshotting, by simp⟩
  | finish => exact ⟨.settling, by simp⟩
  | stop => exact absurd (.inr rfl) hs
  | further => exact absurd (.inl rfl) hs

/-- Until a snapshot settles, the flag says whether there was a call. -/
theorem Shows.during {f : Bool} {pc} (h : Shows r c (some (f, pc))) {steps : List RecorderStep}
    (hq : ∀ e ∈ recorder.traceFrom r steps, ¬Settles c e) : ∃ pc',
      Shows (recorder.runFrom r steps) c (some (f || .snapshotNow c ∈ steps, pc')) := by
  induction steps generalizing r f pc with
  | nil => exact ⟨pc, by simpa [Reactive.runFrom] using h⟩
  | cons a steps ih =>
    obtain ⟨v', h', hs⟩ := h.react a
    obtain ⟨hne, hq⟩ := forall_mem_cons.mp hq
    obtain ⟨pc', rfl⟩ := hs.during hne
    obtain ⟨pc'', h''⟩ := ih h' hq
    refine ⟨pc'', ?_⟩
    simpa [Reactive.runFrom, Bool.or_assoc, eq_comm] using h''

theorem SlotStep.settles {a e v' f pc} (h : SlotStep c a e (some (f, pc)) v') (hs : Settles c e) :
    e = again c ↔ f = true := by
  cases h with
  | other _ hag hst => exact (hs.elim hag hst).elim
  | stop => exact ⟨nofun, nofun⟩
  | further => exact ⟨fun _ => rfl, fun _ => rfl⟩
  | _ => exact hs.elim nofun nofun

theorem SlotStep.begins {a e v'} (h : SlotStep c a e v v') (hb : e = started c ∨ e = again c) :
    v' = some (false, .starting) := by
  cases h with
  | other _ hag _ hst => exact (hb.elim hst hag).elim
  | start => rfl
  | further => rfl
  | _ => exact hb.elim nofun nofun

/-- At most one background run of a cluster; when none is left every call was followed by a read of
the identity; and a snapshot is followed by one more exactly when there were calls during it. -/
theorem snapshotNow_loses_no_request (c : String) (before during : List RecorderStep) :
    ((recorder.run before).runs c).length ≤ 1 ∧
    ((recorder.run (before ++ .snapshotNow c :: during)).runs c = [] →
      readIdentity c ∈ recorder.traceFrom (recorder.run (before ++ [.snapshotNow c])) during) ∧
    ∀ first, recorder.event before first = started c ∨ recorder.event before first = again c →
      (∀ e ∈ recorder.traceFrom (recorder.run (before ++ [first])) during, ¬Settles c e) →
      ∀ last, Settles c (recorder.event (before ++ first :: during) last) →
        (recorder.event (before ++ first :: during) last = again c ↔ .snapshotNow c ∈ during) := by
  obtain ⟨v, h⟩ := shows_run (c := c) before
  refine ⟨?_, fun hnone => ?_, fun first hb hq last hl => ?_⟩
  · rw [h.2]
    cases v <;> simp
  · obtain ⟨v', h', hs⟩ := h.react (.snapshotNow c)
    rw [recorder.run_concat]
    rw [recorder.run_append_cons, recorder.run_concat] at hnone
    refine (h'.read_or_owed hs.owed_of_call during).resolve_right ?_
    rintro ⟨_, h'', _, _, rfl, -⟩
    rw [h''.2] at hnone
    cases hnone
  · obtain ⟨v', h', hs⟩ := h.react first
    obtain rfl := hs.begins hb
    rw [← recorder.run_concat] at h'
    obtain ⟨pc, h''⟩ := h'.during hq
    rw [← recorder.run_append_cons] at h''
    obtain ⟨v'', -, hs'⟩ := h''.react last
    rw [Reactive.event] at hl ⊢
    simpa using hs'.settles hl

/-- Two calls during a snapshot. -/
theorem snapshotNow_loses_no_request_twice :
    recorder.event [.snapshotNow "prod", .advance "prod" 0, .snapshotNow "prod",
      .snapshotNow "prod", .advance "prod" 0] (.advance "prod" 0) = again "prod" :=
  ((snapshotNow_loses_no_request "prod" [] [.advance "prod" 0, .snapshotNow "prod",
    .snapshotNow "prod", .advance "prod" 0]).2.2 (.snapshotNow "prod") (by decide) (by decide)
    (.advance "prod" 0) (by decide)).mpr (by decide)

end KubeCenter.Policy
