import Mathlib.Algebra.BigOperators.Fin
import Mathlib.Algebra.BigOperators.Pi
import KubeCenter.Lib.Machine

/-! # Programs that call a shared service

A program is the calls it makes and what it does with each answer. What the service does with a
call depends on its state and on a choice of its own. In a pool any program may make its next call
at any time, and may be lost between two calls.

`Affordable`: the program makes no call it has not gained the means for from earlier answers. -/
namespace KubeCenter.Lib
open List
open Function (forall_update_iff update update_of_ne)

universe u

/-- A program over the calls `Call` with their answers, with result in `α`. -/
inductive Program (Call : Type u) (Answer : Call → Type u) (α : Type u) where
  | done (a : α)
  | call (c : Call) (k : Answer c → Program Call Answer α)

namespace Program

variable {Call : Type u} {Answer : Call → Type u} {α β γ σ ε : Type u} {ω : Type*}

def request (c : Call) : Program Call Answer (Answer c) := .call c .done

def bind (p : Program Call Answer α) (f : α → Program Call Answer β) : Program Call Answer β :=
  match p with
  | .done a => f a
  | .call c k => .call c fun a => (k a).bind f

/-- On with the value, unless there was an error. -/
def andThen (p : Program Call Answer (Except ε α)) (f : α → Program Call Answer (Except ε β)) :
    Program Call Answer (Except ε β) :=
  p.bind fun
    | .ok a => f a
    | .error e => .done (.error e)

/-- One iteration for each element, up to the first error. -/
def loop (f : β → γ → Program Call Answer (Except ε β)) :
    List γ → β → Program Call Answer (Except ε β)
  | [], b => .done (.ok b)
  | c :: cs, b => (f b c).andThen (loop f cs)

/-! ## Alone -/

section Alone

variable {exec : (c : Call) → ω → σ → Answer c × σ}

/-- The program, alone on the service in state `s`, may return `a` and leave `t`. -/
inductive Runs (exec : (c : Call) → ω → σ → Answer c × σ) :
    Program Call Answer α → σ → α → σ → Prop where
  | done (a : α) (s : σ) : Runs exec (.done a) s a s
  | call {c k s t a} (w : ω) (h : Runs exec (k (exec c w s).1) (exec c w s).2 a t) :
      Runs exec (.call c k) s a t

theorem runs_done {a b : α} {s t : σ} : Runs exec (.done a) s b t ↔ b = a ∧ t = s := by
  constructor
  · rintro ⟨⟩
    exact ⟨rfl, rfl⟩
  · rintro ⟨rfl, rfl⟩
    exact .done b t

theorem runs_request {c : Call} {s t : σ} {a : Answer c} :
    Runs exec (request c) s a t ↔ ∃ w, exec c w s = (a, t) := by
  constructor
  · rintro ⟨⟩
    rename_i w h
    obtain ⟨rfl, rfl⟩ := runs_done.1 h
    exact ⟨w, rfl⟩
  · rintro ⟨w, h⟩
    have ha : a = (exec c w s).1 := by rw [h]
    have ht : t = (exec c w s).2 := by rw [h]
    subst ha ht
    exact .call w (.done _ _)

variable {b : β}

theorem runs_bind {p : Program Call Answer α} {f} {s t : σ} :
    Runs exec (p.bind f) s b t ↔ ∃ a m, Runs exec p s a m ∧ Runs exec (f a) m b t := by
  induction p generalizing s with
  | done a =>
    constructor
    · intro h
      exact ⟨a, s, .done a s, h⟩
    · rintro ⟨a', m, hp, hf⟩
      obtain ⟨rfl, rfl⟩ := runs_done.1 hp
      exact hf
  | call c k ih =>
    constructor
    · rintro ⟨⟩
      rename_i w h
      obtain ⟨a, m, hp, hf⟩ := (ih _).1 h
      exact ⟨a, m, .call w hp, hf⟩
    · rintro ⟨a, m, ⟨⟩, hf⟩
      rename_i w hp
      exact .call w ((ih _).2 ⟨a, m, hp, hf⟩)

theorem runs_andThen {p : Program Call Answer (Except ε α)} {f} {s t : σ} {r : Except ε β} :
    Runs exec (p.andThen f) s r t ↔ (∃ a m, Runs exec p s (.ok a) m ∧ Runs exec (f a) m r t) ∨
      ∃ e, Runs exec p s (.error e) t ∧ r = .error e := by
  unfold andThen
  rw [runs_bind]
  constructor
  · rintro ⟨a, m, hp, hf⟩
    cases a with
    | ok a => exact .inl ⟨a, m, hp, hf⟩
    | error e =>
      obtain ⟨rfl, rfl⟩ := runs_done.1 hf
      exact .inr ⟨e, hp, rfl⟩
  · rintro (⟨a, m, hp, hf⟩ | ⟨e, hp, rfl⟩)
    · exact ⟨.ok a, m, hp, hf⟩
    · exact ⟨.error e, t, hp, .done _ _⟩

theorem runs_andThen_ok {p : Program Call Answer (Except ε α)} {f} {s t : σ} :
    Runs exec (p.andThen f) s (.ok b) t ↔
      ∃ a m, Runs exec p s (.ok a) m ∧ Runs exec (f a) m (.ok b) t := by
  simp [runs_andThen]

/-- `I` of what is done so far holds at the start and is kept by every iteration. -/
theorem runs_loop {f : β → γ → Program Call Answer (Except ε β)} {I : List γ → β → σ → Prop}
    {l : List γ} {b' : β} {s t : σ}
    (hst : ∀ before c after b s b' t, l = before ++ c :: after → I before b s →
      Runs exec (f b c) s (.ok b') t → I (before ++ [c]) b' t) (hsta : I [] b s)
    (h : Runs exec (loop f l b) s (.ok b') t) : I l b' t := by
  have hrs : ∀ after before b s, l = before ++ after → I before b s →
      Runs exec (loop f after b) s (.ok b') t → I l b' t := by
    intro after
    induction after with
    | nil =>
      intro before b s hl hI h
      obtain ⟨hb, rfl⟩ := runs_done.1 h
      cases hb
      rw [hl, append_nil]
      exact hI
    | cons c after ih =>
      intro before b s hl hI h
      rcases runs_andThen.1 h with ⟨b1, m, hc, haft⟩ | ⟨e, -, he⟩
      · exact ih (before ++ [c]) b1 m (by simp [hl]) (hst before c after b s b1 m hl hI hc) haft
      · cases he
  exact hrs l [] b s rfl hsta h

theorem runs_loop_keeps {f} {P : σ → Prop} {l : List γ} {s t : σ} {r : Except ε β}
    (hst : ∀ c ∈ l, ∀ b s r t, P s → Runs exec (f b c) s r t → P t) (hs : P s)
    (h : Runs exec (loop f l b) s r t) : P t := by
  induction l generalizing b s with
  | nil =>
    obtain ⟨-, rfl⟩ := runs_done.1 h
    exact hs
  | cons c cs ih =>
    rcases runs_andThen.1 h with ⟨b1, m, hc, hcs⟩ | ⟨e, hc, -⟩
    · exact ih (fun c hc => hst c (mem_cons_of_mem _ hc)) (hst c mem_cons_self b s _ m hs hc) hcs
    · exact hst c mem_cons_self b s _ t hs hc

/-- The run with the given choices, if they are as many as the calls. -/
def run (exec : (c : Call) → ω → σ → Answer c × σ) :
    Program Call Answer α → List ω → σ → Option (α × σ)
  | .done a, [], s => some (a, s)
  | .call c k, w :: ws, s => run exec (k (exec c w s).1) ws (exec c w s).2
  | _, _, _ => none

theorem runs_of_run {p} (ws : List ω) {s t : σ} {a : α} (h : run exec p ws s = some (a, t)) :
    Runs exec p s a t := by
  induction p generalizing ws s with
  | done b =>
    cases ws with
    | nil =>
      cases h
      exact .done _ _
    | cons w ws => cases h
  | call c k ih =>
    cases ws with
    | nil => cases h
    | cons w ws => exact .call w (ih _ ws h)

end Alone

/-! ## Calls -/

/-- Every call the program can make satisfies `P`. -/
def Only (P : Call → Prop) : Program Call Answer α → Prop
  | .done _ => True
  | .call c k => P c ∧ ∀ a, (k a).Only P

variable {p : Program Call Answer α} {P : Call → Prop}

theorem Only.bind {f : α → Program Call Answer β} (hp : p.Only P) (hf : ∀ a, (f a).Only P) :
    (p.bind f).Only P := by
  induction p with
  | done a => exact hf a
  | call c k ih => exact ⟨hp.1, fun a => ih a (hp.2 a)⟩

theorem Only.andThen {p : Program Call Answer (Except ε α)}
    {f : α → Program Call Answer (Except ε β)} (hp : p.Only P) (hf : ∀ a, (f a).Only P) :
    (p.andThen f).Only P := by
  refine hp.bind fun r => ?_
  cases r with
  | ok a => exact hf a
  | error e => trivial

theorem only_request {c : Call} (h : P c) :
    (request c : Program Call Answer (Answer c)).Only P := ⟨h, fun _ => trivial⟩

theorem only_loop {f : β → γ → Program Call Answer (Except ε β)} {l : List γ}
    (h : ∀ c ∈ l, ∀ b, (f b c).Only P) (b : β) : (loop f l b).Only P := by
  induction l generalizing b with
  | nil => trivial
  | cons c cs ih =>
    refine (h c mem_cons_self b).andThen fun b' => ih ?_ b'
    intro c hc
    exact h c (mem_cons_of_mem _ hc)

theorem Only.mono {Q} (h : p.Only P) (hPQ : ∀ c, P c → Q c) : p.Only Q := by
  induction p with
  | done a => trivial
  | call c k ih => exact ⟨hPQ c h.1, fun a => ih a (h.2 a)⟩

theorem only_true (p : Program Call Answer α) : p.Only fun _ => True := by
  induction p with
  | done a => trivial
  | call c k ih => exact ⟨trivial, ih⟩

theorem Runs.keeps {exec : (c : Call) → ω → σ → Answer c × σ} {C : Call → Prop} {P : σ → Prop}
    (hex : ∀ c w s, C c → P s → P (exec c w s).2) {s t : σ} {a : α} (h : Runs exec p s a t)
    (hp : p.Only C) (hs : P s) : P t := by
  induction h with
  | done a s => exact hs
  | call w _ ih => exact ih (hp.2 _) (hex _ w _ hp.1 hs)

section Affordable

variable {κ : Type*} {cost : Call → κ → ℕ} {gain : (c : Call) → Answer c → κ → ℕ}

/-- With `credit` the program can pay for every call it makes. -/
def Affordable (cost : Call → κ → ℕ) (gain : (c : Call) → Answer c → κ → ℕ) :
    (κ → ℕ) → Program Call Answer α → Prop
  | _, .done _ => True
  | credit, .call c k =>
    cost c ≤ credit ∧ ∀ a, Affordable cost gain (credit - cost c + gain c a) (k a)

variable {p : Program Call Answer α} {credit credit' : κ → ℕ}

theorem Affordable.mono (h : p.Affordable cost gain credit) (hle : credit ≤ credit') :
    p.Affordable cost gain credit' := by
  induction p generalizing credit credit' with
  | done a => trivial
  | call c k ih =>
    refine ⟨h.1.trans hle, fun a => ih a (h.2 a) fun x => ?_⟩
    exact Nat.add_le_add_right (Nat.sub_le_sub_right (hle x) _) _

theorem Only.affordable (h : p.Only fun c => cost c = 0) (credit : κ → ℕ) :
    p.Affordable cost gain credit := by
  induction p generalizing credit with
  | done a => trivial
  | call c k ih =>
    refine ⟨fun x => ?_, fun a => ih a (h.2 a) _⟩
    rw [h.1]
    exact Nat.zero_le _

theorem Affordable.bind {f : α → Program Call Answer β} (hp : p.Affordable cost gain credit)
    (hf : ∀ a, (f a).Affordable cost gain credit') :
    (p.bind f).Affordable cost gain (credit + credit') := by
  induction p generalizing credit with
  | done a =>
    refine (hf a).mono fun x => ?_
    exact Nat.le_add_left _ _
  | call c k ih =>
    refine ⟨fun x => (hp.1 x).trans (Nat.le_add_right _ _), fun a => ?_⟩
    refine (ih a (hp.2 a)).mono fun x => ?_
    have hco : cost c x ≤ credit x := hp.1 x
    simp only [Pi.add_apply, Pi.sub_apply]
    omega

theorem Affordable.andThen {p : Program Call Answer (Except ε α)}
    {f : α → Program Call Answer (Except ε β)} (hp : p.Affordable cost gain credit)
    (hf : ∀ a, (f a).Affordable cost gain credit') :
    (p.andThen f).Affordable cost gain (credit + credit') := by
  refine hp.bind fun r => ?_
  cases r with
  | ok a => exact hf a
  | error e => trivial

theorem affordable_loop {price : γ → κ → ℕ} {f : β → γ → Program Call Answer (Except ε β)}
    (h : ∀ b c, (f b c).Affordable cost gain (price c)) (l : List γ) (b : β) :
    (loop f l b).Affordable cost gain (l.map price).sum := by
  induction l generalizing b with
  | nil => trivial
  | cons c cs ih => exact (h b c).andThen ih

end Affordable

end Program

/-! ## Together -/

section Pool

variable {Call : Type u} {Answer : Call → Type u} {σ : Type u} {ω ι : Type*} {n : ℕ}

/-- `n` programs over one shared state. -/
structure Pool (Call : Type u) (Answer : Call → Type u) (σ : Type u) (n : ℕ) where
  shared : σ
  threads : Fin n → Program Call Answer PUnit

/-- Thread `i` takes up a job, makes its next call, or is lost. -/
inductive PoolAction (ω ι : Type*) (n : ℕ) where
  | start (i : Fin n) (job : ι)
  | step (i : Fin n) (w : ω)
  | lose (i : Fin n)

/-- The pool over a service, with the jobs its threads may take up. -/
def pool (exec : (c : Call) → ω → σ → Answer c × σ) (jobs : ι → Program Call Answer PUnit)
    (init : σ) (n : ℕ) : Machine (Pool Call Answer σ n) (PoolAction ω ι n) where
  init := ⟨init, fun _ => .done ⟨⟩⟩
  next s
    | .start i job =>
      match s.threads i with
      | .done _ => some { s with threads := update s.threads i (jobs job) }
      | .call _ _ => none
    | .step i w =>
      match s.threads i with
      | .done _ => none
      | .call c k => some ⟨(exec c w s.shared).2, update s.threads i (k (exec c w s.shared).1)⟩
    | .lose i => some { s with threads := update s.threads i (.done ⟨⟩) }

variable {exec : (c : Call) → ω → σ → Answer c × σ} {jobs : ι → Program Call Answer PUnit}
  {init : σ} {s t : Pool Call Answer σ n} {a : PoolAction ω ι n}

/-- One thread is replaced and the shared state stays, or one thread makes a call. -/
theorem pool_next_cases (h : (pool exec jobs init n).next s a = some t) :
    (∃ i job, t = { s with threads := update s.threads i (jobs job) }) ∨
    (∃ i, t = { s with threads := update s.threads i (.done ⟨⟩) }) ∨
    ∃ i w c k, s.threads i = .call c k ∧
      t = ⟨(exec c w s.shared).2, update s.threads i (k (exec c w s.shared).1)⟩ := by
  cases a with
  | start i job =>
    simp only [pool] at h
    split at h
    · cases h
      exact .inl ⟨i, job, rfl⟩
    · cases h
  | step i w =>
    simp only [pool] at h
    split at h
    · cases h
    next c k hth =>
      cases h
      exact .inr (.inr ⟨i, w, c, k, hth, rfl⟩)
  | lose i =>
    cases h
    exact .inr (.inl ⟨i, rfl⟩)

/-- `P` holds of the shared state, and the threads make calls in `C` only. -/
def Within (C : Call → Prop) (P : σ → Prop) (s : Pool Call Answer σ n) : Prop :=
  P s.shared ∧ ∀ i, (s.threads i).Only C

variable {p : Program Call Answer PUnit} {C : Call → Prop} {P : σ → Prop}

theorem only_update {threads} (h : ∀ i, (threads i).Only C) {i : Fin n} (hp : p.Only C)
    (j : Fin n) : (update threads i p j).Only C :=
  (forall_update_iff threads fun _ p => p.Only C).mpr ⟨hp, fun j _ => h j⟩ j

section

variable (hjb : ∀ job, (jobs job).Only C) (hin : P init)
  (hex : ∀ c w s, C c → P s → P (exec c w s).2)
include hjb hex

theorem Within.next (hs : Within C P s)
    (h : (pool exec jobs init n).next s a = some t) : Within C P t := by
  rcases pool_next_cases h with ⟨i, job, rfl⟩ | ⟨i, rfl⟩ | ⟨i, w, c, k, hth, rfl⟩
  · exact ⟨hs.1, only_update hs.2 (hjb job)⟩
  · exact ⟨hs.1, only_update hs.2 trivial⟩
  · have hcl := hs.2 i
    rw [hth] at hcl
    exact ⟨hex c w _ hcl.1 hs.1, only_update hs.2 (hcl.2 _)⟩

include hin

/-- What holds initially and is kept by every call the jobs can make holds after every run of the
pool. -/
theorem pool_inv (as : List (PoolAction ω ι n)) : P ((pool exec jobs init n).run as).shared := by
  have hsta : Within C P (pool exec jobs init n).init := ⟨hin, fun _ => trivial⟩
  exact (Machine.run_inv hsta (fun _ _ _ hs h => hs.next hjb hex h) as).1

theorem pool_stable {Q : σ → Prop}
    (hsty : ∀ c w s, C c → P s → Q s → Q (exec c w s).2) (as bs : List (PoolAction ω ι n))
    (h : Q ((pool exec jobs init n).run as).shared) :
    Q ((pool exec jobs init n).run (as ++ bs)).shared := by
  have hsta : Within C P (pool exec jobs init n).init := ⟨hin, fun _ => trivial⟩
  refine Machine.run_stable (Q := fun s => Q s.shared) hsta
    (fun _ _ _ hs h => hs.next hjb hex h) ?_ as bs h
  intro s a t hs hQ h
  have hbt : Within C (fun s => P s ∧ Q s) s := ⟨⟨hs.1, hQ⟩, hs.2⟩
  exact (hbt.next hjb (fun c w s hc hs => ⟨hex c w s hc hs.1, hsty c w s hc hs.1 hs.2⟩) h).1.2

end

/-! ## What a pool spends -/

variable {κ : Type*} {cost : Call → κ → ℕ} {gain : (c : Call) → Answer c → κ → ℕ}
  {earned spent : σ → κ → ℕ}

/-- Every thread can pay for its calls with what is earned and not spent. -/
def Solvent (cost : Call → κ → ℕ) (gain : (c : Call) → Answer c → κ → ℕ)
    (earned spent : σ → κ → ℕ) (s : Pool Call Answer σ n) : Prop :=
  ∃ credit : Fin n → κ → ℕ, (∀ i, (s.threads i).Affordable cost gain (credit i)) ∧
    ∀ x, spent s.shared x + ∑ i, credit i x ≤ earned s.shared x

theorem sum_update (credit : Fin n → κ → ℕ) (i : Fin n) (new : κ → ℕ) (x : κ) :
    ∑ j, update credit i new j x + credit i x = ∑ j, credit j x + new x := by
  have hup : (fun j => update credit i new j x) = update (fun j => credit j x) i (new x) := by
    funext j
    by_cases hj : j = i
    · subst hj
      simp
    · simp [update_of_ne hj]
  rw [hup, Finset.sum_update_of_mem (Finset.mem_univ i),
    ← Finset.add_sum_erase Finset.univ (fun j => credit j x) (Finset.mem_univ i),
    Finset.sdiff_singleton_eq_erase]
  omega

theorem affordable_update {threads credit} (h : ∀ i, (threads i).Affordable cost gain (credit i))
    {i : Fin n} {new} (hp : p.Affordable cost gain new) (j : Fin n) :
    (update threads i p j).Affordable cost gain (update credit i new j) := by
  by_cases hj : j = i
  · subst hj
    simpa using hp
  · simpa [update_of_ne hj] using h j

theorem Solvent.replace (h : Solvent cost gain earned spent s) (i : Fin n)
    (hp : p.Affordable cost gain 0) :
    Solvent cost gain earned spent { s with threads := update s.threads i p } := by
  obtain ⟨credit, haf, hsum⟩ := h
  refine ⟨update credit i 0, affordable_update haf hp, fun x => ?_⟩
  have hup := sum_update credit i 0 x
  have := hsum x
  simp only [Pi.zero_apply] at hup
  show spent s.shared x + _ ≤ earned s.shared x
  omega

/-- Each call earns what its caller gains and costs its caller what it spends. -/
theorem pool_solvent (earned spent : σ → κ → ℕ) (hjb : ∀ job, (jobs job).Only C) (hin : P init)
    (hex : ∀ c w s, C c → P s → P (exec c w s).2) (hzr : ∀ x, spent init x ≤ earned init x)
    (her : ∀ c w s, C c → P s → ∀ x, earned s x + gain c (exec c w s).1 x ≤ earned (exec c w s).2 x)
    (hsp : ∀ c w s, C c → P s → ∀ x, spent (exec c w s).2 x ≤ spent s x + cost c x)
    (haf : ∀ job, (jobs job).Affordable cost gain 0) (as : List (PoolAction ω ι n)) (x : κ) :
    spent ((pool exec jobs init n).run as).shared x ≤
      earned ((pool exec jobs init n).run as).shared x := by
  have hrun : Within C P ((pool exec jobs init n).run as) ∧
      Solvent cost gain earned spent ((pool exec jobs init n).run as) := by
    refine Machine.run_inv (P := fun s : Pool Call Answer σ n =>
      Within C P s ∧ Solvent cost gain earned spent s) ?_ ?_ as
    · refine ⟨⟨hin, fun _ => trivial⟩, fun _ => 0, fun i => trivial, fun x => ?_⟩
      show spent init x + _ ≤ earned init x
      simpa using hzr x
    · intro s a t hs h
      refine ⟨hs.1.next hjb hex h, ?_⟩
      rcases pool_next_cases h with ⟨i, job, rfl⟩ | ⟨i, rfl⟩ | ⟨i, w, c, k, hth, rfl⟩
      · exact hs.2.replace i (haf job)
      · exact hs.2.replace i trivial
      · obtain ⟨credit, hcr, hsum⟩ := hs.2
        have hcl := hcr i
        have hon := hs.1.2 i
        rw [hth] at hcl hon
        refine ⟨update credit i (credit i - cost c + gain c (exec c w s.shared).1),
          affordable_update hcr (hcl.2 _), fun x => ?_⟩
        have hup := sum_update credit i (credit i - cost c + gain c (exec c w s.shared).1) x
        have hco : cost c x ≤ credit i x := hcl.1 x
        have := hsum x
        have := her c w s.shared hon.1 hs.1.1 x
        have := hsp c w s.shared hon.1 hs.1.1 x
        simp only [Pi.add_apply, Pi.sub_apply] at hup
        show spent (exec c w s.shared).2 x + _ ≤ earned (exec c w s.shared).2 x
        omega
  obtain ⟨-, credit, -, hsum⟩ := hrun
  exact (Nat.le_add_right _ _).trans (hsum x)

end Pool

end KubeCenter.Lib
