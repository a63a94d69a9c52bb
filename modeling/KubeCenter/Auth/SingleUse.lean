import KubeCenter.Auth.Sessions
import KubeCenter.Lib.Calls
import KubeCenter.Lib.Lineage

/-! # Refresh tokens are single-use

A session is held in one place: in the store, or by the refresh that removed it. A logout removes
it from the store only: a refresh that holds it may put it back. -/
namespace KubeCenter.Auth
open Lib Go Lib.Holding List Nat

/-! ## Where a token is held -/

inductive Place where
  | store
  | call (k : ℕ)
deriving DecidableEq

/-- The tokens with a session in the store, and those of the sessions the calls have removed. -/
def AuthServer.holding (s : AuthServer) : Holding Place where
  holds
    | .store, t => ∃ session, s.sessions t = some session
    | .call k, t => ∃ c session, s.calls k = some c ∧ c.stage.held = some session ∧
        session.token = t
  next := s.nextToken

def AuthEvent.deed : AuthEvent → Deed
  | .loggedIn t _ _ => .draw t
  | .issued _ t t' _ _ => .spend t t'
  | _ => .other

structure WellKept (s : AuthServer) : Prop where
  stored : ∀ t session, s.sessions t = some session → session.token = t
  held : ∀ k c session, s.calls k = some c → c.stage.held = some session → session.token = c.token
  unused : ∀ k, s.started ≤ k → s.calls k = none

/-! ## Where sessions and calls come from -/

def RefreshStage.resolved : RefreshStage → Option (User × Time × Origin)
  | .mint _ user lastRevalidated origin => some (user, lastRevalidated, origin)
  | .store _ user _ lastRevalidated origin => some (user, lastRevalidated, origin)
  | _ => none

/-- A session that is stored after a move was stored before, is new, or is put back. -/
inductive StoredFrom (s : AuthServer) (e : AuthEvent) : ℕ → RefreshSession → Prop
  | kept {t session} (hsession : s.sessions t = some session) : StoredFrom s e t session
  | login {user} (expiresAt : Time) (he : e = .loggedIn s.nextToken user s.now) :
      StoredFrom s e s.nextToken (sessionFor s.nextToken user expiresAt s.now)
  | issued {k c held user expiresAt lastRevalidated origin} (hc : s.calls k = some c)
      (hstage : c.stage = .store held user expiresAt lastRevalidated origin)
      (he : e = .issued k c.token s.nextToken user origin) :
      StoredFrom s e s.nextToken (sessionFor s.nextToken user expiresAt lastRevalidated)
  | restored {k c session status message} (hc : s.calls k = some c)
      (hstage : c.stage = .restore session status message)
      (he : e = .restored k c.token status message) : StoredFrom s e session.token session

/-- A call ran before or is new; if it went on, it took its session from the store or kept the one
it held. -/
inductive CallFrom (registry : String → Option CredentialProvider) (s : AuthServer)
    (e : AuthEvent) : ℕ → RefreshCall → Prop
  | kept {k c} (hc : s.calls k = some c) : CallFrom registry s e k c
  | started {token} (he : e = .started s.started token) :
      CallFrom registry s e s.started ⟨token, .rotate⟩
  | rotated {k c session} (hc : s.calls k = some c) (hsession : s.sessions c.token = some session) :
      CallFrom registry s e k { c with stage := .resolve session }
  | onward {k c stage session} (hc : s.calls k = some c) (hheld : c.stage.held = some session)
      (hstage : stage.held = some session)
      (hresolved : ∀ u lastRevalidated origin, stage.resolved = some (u, lastRevalidated, origin) →
        c.stage.resolved = some (u, lastRevalidated, origin) ∨
          ∃ o record, resolveUser registry session o record s.now =
              .issue u lastRevalidated origin ∧
            (origin = .directory → e = .revalidated k c.token u s.now)) :
      CallFrom registry s e k { c with stage }

variable {registry : String → Option CredentialProvider} {s s' : AuthServer} {e : AuthEvent}
  {t k : ℕ} {session : RefreshSession} {c : RefreshCall}

section

variable (hmv : AuthMove registry s e s')
include hmv

theorem AuthMove.storedFrom (h : s'.sessions t = some session) : StoredFrom s e t session := by
  have put : ∀ {t' new}, StoredFrom s e t' new →
      Function.update s.sessions t' (some new) t = some session → StoredFrom s e t session :=
    fun hnew h => forall_update (fun _ _ => .kept) hnew _ _ h
  cases hmv with
  | login user => exact put (.login _ rfl) h
  | store hc hstg => exact put (.issued hc hstg rfl) h
  | restore hc hstg => exact put (.restored hc hstg rfl) h
  | expire | rotate | logout | cleanup => exact .kept (update_none_cases h).2
  | _ => exact .kept h

theorem AuthMove.callFrom (h : s'.calls k = some c) : CallFrom registry s e k c := by
  have moved : ∀ {k' c'}, CallFrom registry s e k' c' →
      Function.update s.calls k' (some c') k = some c → CallFrom registry s e k c := fun hnew h =>
    forall_update (fun _ _ => .kept) hnew _ _ h
  cases hmv with
  | start token => exact moved (.started rfl) h
  | rotate hc _ hse => exact moved (.rotated hc hse) h
  | revalidate hc hstg hre =>
    refine moved (.onward hc (by rw [hstg]; rfl) rfl ?_) h
    rintro _ _ _ ⟨⟩
    exact .inr ⟨_, _, hre, fun _ => rfl⟩
  | reuse hc hstg hor hre =>
    refine moved (.onward hc (by rw [hstg]; rfl) rfl ?_) h
    rintro _ _ _ ⟨⟩
    exact .inr ⟨_, _, hre, fun heq => absurd heq hor⟩
  | mint hc hstg =>
    refine moved (.onward hc (by rw [hstg]; rfl) rfl fun _ _ _ hr => .inl ?_) h
    rw [hstg]
    exact hr
  | hold hc hhd => exact moved (.onward hc hhd rfl fun _ _ _ hr => by cases hr) h
  | refuse | expire | reject | store | restore => exact .kept (update_none_cases h).2
  | _ => exact .kept h

theorem AuthMove.nextToken_le : s.nextToken ≤ s'.nextToken := by
  cases hmv with
  | login | store => exact le_succ _
  | _ => exact le_rfl

end

section

variable {p : Place} {stage : RefreshStage} {c' : RefreshCall} {token k' : ℕ}

theorem holds_finish (h : (s.finish k).holding.holds p t) : p ≠ .call k ∧ s.holding.holds p t := by
  cases p with
  | store => exact ⟨by simp, h⟩
  | call k' =>
    obtain ⟨c', session, hc', hhd, htk⟩ := h
    obtain ⟨hne, hc'⟩ := update_none_cases hc'
    exact ⟨by simpa using hne, c', session, hc', hhd, htk⟩

theorem holds_goto (hstg : stage.held = some session) (h : (s.goto k c stage).holding.holds p t) :
    (p = .call k ∧ t = session.token) ∨ (p ≠ .call k ∧ s.holding.holds p t) := by
  cases p with
  | store => exact .inr ⟨by simp, h⟩
  | call k' =>
    obtain ⟨c', session', hc', hhd, htk⟩ := h
    rcases update_some_cases hc' with ⟨rfl, rfl⟩ | ⟨hne, hc'⟩
    · dsimp only at hhd
      rw [hstg] at hhd
      cases hhd
      exact .inl ⟨rfl, htk.symm⟩
    · exact .inr ⟨by simpa using hne, c', session', hc', hhd, htk⟩

theorem holds_of_goto_same (hc : s.calls k = some c) (hhd : c.stage.held = some session)
    (hstg : stage.held = some session) (h : (s.goto k c stage).holding.holds p t) :
    s.holding.holds p t := by
  rcases holds_goto hstg h with ⟨rfl, rfl⟩ | ⟨-, h⟩
  · exact ⟨c, session, hc, hhd, rfl⟩
  · exact h

theorem holds_delete (h : (s.delete token).holding.holds p t) :
    s.holding.holds p t ∧ (p = .store → t ≠ token) := by
  cases p with
  | store =>
    obtain ⟨session, hse⟩ := h
    obtain ⟨hne, hse⟩ := update_none_cases hse
    exact ⟨⟨session, hse⟩, fun _ => hne⟩
  | call k' => exact ⟨h, by simp⟩

theorem holds_put (h : (s.put session).holding.holds p t) :
    (p = .store ∧ t = session.token) ∨ s.holding.holds p t := by
  cases p with
  | store =>
    obtain ⟨session', hse'⟩ := h
    rcases update_some_cases hse' with ⟨ht, -⟩ | ⟨-, hse'⟩
    · exact .inl ⟨rfl, ht⟩
    · exact .inr ⟨session', hse'⟩
  | call k' => exact .inr h

theorem holds_issue {user : User} {expiresAt lastRevalidated : Time}
    (h : (s.issue user expiresAt lastRevalidated).holding.holds p t) :
    (p = .store ∧ t = s.nextToken) ∨ s.holding.holds p t :=
  holds_put (s := { s with nextToken := s.nextToken + 1 }) h

theorem holds_start (h : (s.start token).holding.holds p t) : s.holding.holds p t := by
  cases p with
  | store => exact h
  | call k' =>
    obtain ⟨c', session, hc', hhd, htk⟩ := h
    rcases update_some_cases hc' with ⟨-, rfl⟩ | ⟨-, hc'⟩
    · cases hhd
    · exact ⟨c', session, hc', hhd, htk⟩

theorem AuthMove.step {ds} (hmv : AuthMove registry s e s') (hs : WellKept s)
    (hds : Orderly s.holding ds) : Step s.holding e.deed s'.holding := by
  -- a token that one place holds is held by no other
  have hot : ∀ {q q' : Place} {u v : ℕ}, s.holding.holds q u → s.holding.holds q' v → q ≠ q' →
      u ≠ v := by
    rintro q q' u _ hq hq' hne rfl
    exact hne (hds.onePlace q q' _ hq hq')
  cases hmv with
  | stay | elapse => exact .drop rfl fun _ _ h => h
  | login user => exact .draw .store rfl fun _ _ h => holds_issue h
  | start token => exact .drop rfl fun _ _ h => holds_start h
  | refuse | reject => exact .drop rfl fun _ _ h => (holds_finish h).2
  | expire => exact .drop rfl fun _ _ h => (holds_delete (holds_finish h).2).1
  | @rotate k c session hc hstg hse =>
    have hsto : s.holding.holds .store c.token := ⟨session, hse⟩
    refine Step.carry (.call k) rfl hsto fun q u hq => ?_
    rcases holds_goto rfl hq with ⟨rfl, rfl⟩ | ⟨-, hq⟩
    · exact .inl ⟨rfl, hs.stored _ _ hse⟩
    · obtain ⟨hq, hne⟩ := holds_delete hq
      refine .inr ⟨hq, ?_⟩
      by_cases hpl : q = .store
      · exact hne hpl
      · exact hot hq hsto hpl
  | revalidate hc hstg | reuse hc hstg | mint hc hstg =>
    exact .drop rfl fun _ _ h => holds_of_goto_same hc (by rw [hstg]; rfl) rfl h
  | hold hc hhd => exact .drop rfl fun _ _ h => holds_of_goto_same hc hhd rfl h
  | @store k c session user expiresAt lastRevalidated origin hc hstg =>
    have hhd : c.stage.held = some session := by rw [hstg]; rfl
    have hcl : s.holding.holds (.call k) c.token :=
      ⟨c, session, hc, hhd, hs.held k c session hc hhd⟩
    refine Step.spend .store rfl hcl fun q u hq => ?_
    obtain ⟨hne, hq⟩ := holds_finish hq
    rcases holds_issue hq with hnew | hq
    · exact .inl hnew
    · exact .inr ⟨hq, hot hq hcl hne⟩
  | @restore k c session status message hc hstg =>
    have hcl : s.holding.holds (.call k) session.token := ⟨c, session, hc, by rw [hstg]; rfl, rfl⟩
    refine Step.carry .store rfl hcl fun q u hq => ?_
    obtain ⟨hne, hq⟩ := holds_finish hq
    rcases holds_put hq with hnew | hq
    · exact .inl hnew
    · exact .inr ⟨hq, hot hq hcl hne⟩
  | logout | cleanup => exact .drop rfl fun _ _ h => (holds_delete h).1

/-! ## Sessions under their own tokens -/

theorem WellKept.move (hs : WellKept s) (hmv : AuthMove registry s e s') : WellKept s' where
  stored t session h := by
    cases hmv.storedFrom h with
    | kept hse => exact hs.stored _ _ hse
    | login | issued | restored => rfl
  held k c session hc hhd := by
    cases hmv.callFrom hc with
    | kept hrun => exact hs.held _ _ _ hrun hhd
    | started => cases hhd
    | rotated hrun hse =>
      cases hhd
      exact hs.stored _ _ hse
    | onward hrun hold hstg =>
      have htk := hs.held _ _ _ hrun (hold.trans (hstg.symm.trans hhd))
      exact htk
  unused k hk := by
    cases hmv with
    | start => exact unused_start hs.unused _ hk
    | refuse | expire | reject | store | restore => exact update_none_of_none (hs.unused k hk)
    | rotate hc | revalidate hc | reuse hc | mint hc | hold hc =>
      exact unused_update hs.unused hc _ hk
    | _ => exact hs.unused k hk

theorem AuthMove.call_lt (hmv : AuthMove registry s e s') (hs : WellKept s) :
    s.started ≤ s'.started ∧ (∀ k token, e = .started k token → k = s.started) ∧
      ∀ k t t' u o, e = .issued k t t' u o → k < s.started ∧ s.holding.holds (.call k) t := by
  have hcl : ∀ {k c}, s.calls k = some c → k < s.started := lt_of_running hs.unused
  cases hmv with
  | start token =>
    refine ⟨le_succ _, ?_, by simp⟩
    rintro k token' heq
    cases heq
    rfl
  | @store k c session user expiresAt lastRevalidated origin hc hstg =>
    refine ⟨le_rfl, by simp, ?_⟩
    rintro k' t t' u o heq
    cases heq
    have hhd : c.stage.held = some session := by rw [hstg]; rfl
    exact ⟨hcl hc, c, session, hc, hhd, hs.held k c session hc hhd⟩
  | _ => exact ⟨le_rfl, by simp, by simp⟩

theorem authServer_orderly (registry : String → Option CredentialProvider) (now : Time)
    (history : List AuthAction) :
    WellKept ((authServer registry now).run history) ∧
      Orderly ((authServer registry now).run history).holding
        (((authServer registry now).trace history).map AuthEvent.deed) ∧
      ∀ k t t' u o, .issued k t t' u o ∈ (authServer registry now).trace history →
        k < ((authServer registry now).run history).started := by
  refine Reactive.run_inv (M := authServer registry now)
    (P := fun s es => WellKept s ∧ Orderly s.holding (es.map AuthEvent.deed) ∧
      ∀ k t t' u o, .issued k t t' u o ∈ es → k < s.started) ?_ ?_ history
  · refine ⟨⟨by simp [authServer], by simp [authServer], by simp [authServer]⟩, orderly_nil ?_,
      by simp⟩
    rintro (_ | k) t
    · rintro ⟨session, hse⟩
      cases hse
    · rintro ⟨c, session, hc, -⟩
      cases hc
  · intro s es a ⟨hs, hds, his⟩
    have hmv := s.react_move registry a
    obtain ⟨hle, -, hlt⟩ := hmv.call_lt hs
    rw [map_append]
    refine ⟨hs.move hmv, hds.step (hmv.step hs hds), fun k t t' u o hmem => ?_⟩
    rcases mem_concat hmem with hmem | hmem
    · exact lt_of_lt_of_le (his k t t' u o hmem) hle
    · exact lt_of_lt_of_le (hlt k t t' u o hmem.symm).1 hle

end

/-! ## One successor -/

def SingleUse (es : List AuthEvent) : Prop :=
  ∀ (x y k k' t t₁ t₂ : ℕ) (u u' : User) (o o' : Origin), es[x]? = some (.issued k t t₁ u o) →
    es[y]? = some (.issued k' t t₂ u' o') → x = y

theorem singleUse_of_orderly {H : Holding Place} {es : List AuthEvent}
    (h : Orderly H (es.map AuthEvent.deed)) : SingleUse es := by
  -- of two places the later one would spend the token again
  have hla : ∀ {x y k k' t t₁ t₂ : ℕ} {u u' : User} {o o' : Origin},
      es[x]? = some (.issued k t t₁ u o) → es[y]? = some (.issued k' t t₂ u' o') → ¬ x < y := by
    intro x y k k' t t₁ t₂ u u' o o' hx hy hlt
    obtain ⟨hxl, hx⟩ := List.getElem?_eq_some_iff.mp hx
    obtain ⟨hyl, hy⟩ := List.getElem?_eq_some_iff.mp hy
    have hpr := pairwise_iff_getElem.mp (pairwise_map.mp h.once) x y hxl hyl hlt
    rw [hx, hy] at hpr
    exact hpr t t₁ t₂ rfl rfl
  intro x y k k' t t₁ t₂ u u' o o' hx hy
  exact le_antisymm (not_lt.mp (hla hy hx)) (not_lt.mp (hla hx hy))

/-! ## After a logout -/

def AuthEvent.HandsOut (e : AuthEvent) (t : ℕ) : Prop :=
  e.deed = .draw t ∨ ∃ t₀, e.deed = .spend t₀ t

/-- The token that a refresh presents; the calls are numbered in the order of their refreshes. -/
def AuthAction.presents : AuthAction → Option ℕ
  | .refresh token => some token
  | _ => none

/-- No refresh of the token runs its restore after the logout. -/
def NotPutBack (history : List AuthAction) (x t : ℕ) : Prop :=
  ∀ y k, x < y → history[y]? = some (.restore k) →
    (history.filterMap AuthAction.presents)[k]? ≠ some t

def LogoutFinal (es : List AuthEvent) (x t : ℕ) : Prop :=
  ∀ (y z k t' : ℕ) (u : User) (o : Origin), x < y → es[y]? = some (.started k t) →
    es[z]? ≠ some (.issued k t t' u o)

section

variable {k₀ : ℕ}

/-- The token has no session in the store and none with a call from a number on. -/
structure Gone (t k₀ : ℕ) (s : AuthServer) : Prop where
  stored : s.sessions t = none
  drawn : t < s.nextToken
  numbered : k₀ ≤ s.started
  held : ∀ k c session, k₀ ≤ k → s.calls k = some c → c.stage.held = some session →
    session.token ≠ t

theorem Gone.move (h : Gone t k₀ s) (hs : WellKept s) (hmv : AuthMove registry s e s')
    (hbc : ∀ k status message, e ≠ .restored k t status message) : Gone t k₀ s' where
  stored := by
    refine Option.eq_none_iff_forall_ne_some.mpr fun session hse => ?_
    have hdrawn := h.drawn
    cases hmv.storedFrom hse with
    | kept hse => exact absurd hse (by simp [h.stored])
    | login | issued => exact absurd hdrawn (lt_irrefl _)
    | restored hc hstg he =>
      have hcl := hs.held _ _ _ hc (by rw [hstg]; rfl)
      exact hbc _ _ _ (by rw [he, hcl])
  drawn := lt_of_lt_of_le h.drawn hmv.nextToken_le
  numbered := le_trans h.numbered (hmv.call_lt hs).1
  held k c session hk hc hhd htk := by
    cases hmv.callFrom hc with
    | kept hrun => exact h.held _ _ _ hk hrun hhd htk
    | started => cases hhd
    | rotated hrun hse =>
      cases hhd
      rw [← hs.stored _ _ hse, htk, h.stored] at hse
      cases hse
    | onward hrun hold hstg =>
      exact h.held _ _ _ hk hrun (hold.trans (hstg.symm.trans hhd)) htk

theorem Gone.runFrom (h : Gone t k₀ s) (hs : WellKept s)
    (registry : String → Option CredentialProvider) (now : Time) (as : List AuthAction)
    (hbc : ∀ k status message,
      .restored k t status message ∉ (authServer registry now).traceFrom s as) :
    (∀ k token, .started k token ∈ (authServer registry now).traceFrom s as → k₀ ≤ k) ∧
      ∀ k t' u o, .issued k t t' u o ∈ (authServer registry now).traceFrom s as → k < k₀ := by
  have hinv := Reactive.runFrom_inv (M := authServer registry now) (s := s)
    (P := fun s es => (∀ k status message, .restored k t status message ∉ es) →
      WellKept s ∧ Gone t k₀ s ∧ (∀ k token, .started k token ∈ es → k₀ ≤ k) ∧
        ∀ k t' u o, .issued k t t' u o ∈ es → k < k₀) ?_ ?_ as
  · exact (hinv hbc).2.2
  · exact fun _ => ⟨hs, h, by simp, by simp⟩
  · intro s es a hP hbc
    obtain ⟨hs, hgo, hst, his⟩ := hP fun k status message hmem =>
      hbc k status message (mem_append_left _ hmem)
    have hmv := s.react_move registry a
    obtain ⟨-, hnm, hhl⟩ := hmv.call_lt hs
    refine ⟨hs.move hmv, hgo.move hs hmv ?_, ?_, ?_⟩
    · intro k status message heq
      exact hbc k status message (mem_append_right _ (mem_singleton.mpr heq.symm))
    · intro k token hmem
      rcases mem_concat hmem with hmem | hmem
      · exact hst k token hmem
      · rw [hnm k token hmem.symm]
        exact hgo.numbered
    · intro k t' u o hmem
      rcases mem_concat hmem with hmem | hmem
      · exact his k t' u o hmem
      · obtain ⟨-, c, session, hc, hhd, htk⟩ := hhl k t t' u o hmem.symm
        by_contra hk
        exact hgo.held k c session (not_lt.mp hk) hc hhd htk

end

/-! ## Which call presents which token -/

variable (registry) in
theorem AuthServer.react_presents (s : AuthServer) (a : AuthAction) :
    (s.react registry a).2.started = s.started + a.presents.toList.length ∧
      (∀ k token, (s.react registry a).1 = .started k token → a.presents = some token) ∧
      ∀ k token status message, (s.react registry a).1 = .restored k token status message →
        a = .restore k := by
  cases a with
  | refresh token => simp [react, start, AuthAction.presents]
  | login | logout | elapse => simp [react, issue, put, delete, AuthAction.presents]
  | cleanup token =>
    simp only [react, AuthAction.presents]
    repeat' split
    all_goals simp [delete]
  | rotate k | resolve k o record | mint k succeeds | store k | restore k =>
    simp only [react, withCall, AuthAction.presents]
    split
    case h_1 c hc =>
      simp only [rotate, resolve, mint, store, restore]
      repeat' split
      all_goals simp +contextual [delete, goto, finish, issue, put]
    case h_2 => simp

theorem AuthMove.running_of_restored {status : ℕ} {message : String}
    (hmv : AuthMove registry s (.restored k t status message) s') :
    ∃ c, s.calls k = some c ∧ c.token = t := by
  cases hmv with
  | restore hc => exact ⟨_, hc, rfl⟩

/-- A call that runs is the refresh of its number, and has the token that this presented. -/
theorem presents_of_running (registry : String → Option CredentialProvider) (now : Time)
    (history : List AuthAction) :
    ((authServer registry now).run history).started =
        (history.filterMap AuthAction.presents).length ∧
      ∀ k c, ((authServer registry now).run history).calls k = some c →
        (history.filterMap AuthAction.presents)[k]? = some c.token := by
  induction history using List.reverseRecOn with
  | nil => exact ⟨rfl, by simp [Reactive.run, Reactive.runFrom, authServer]⟩
  | append_singleton history a ih =>
    obtain ⟨hln, hru⟩ := ih
    have hmv := AuthServer.react_move ((authServer registry now).run history) registry a
    obtain ⟨hsta, hst, -⟩ :=
      AuthServer.react_presents registry ((authServer registry now).run history) a
    have hfm : [a].filterMap AuthAction.presents = a.presents.toList := by
      cases a <;> rfl
    rw [Reactive.run_concat, filterMap_append, length_append, hfm, ← hln]
    refine ⟨hsta, fun k c hc => ?_⟩
    have hold : ∀ {c' : RefreshCall}, ((authServer registry now).run history).calls k = some c' →
        (history.filterMap AuthAction.presents ++ a.presents.toList)[k]? = some c'.token := by
      intro c' hc'
      have hk := hru k c' hc'
      rw [getElem?_append_left (List.getElem?_eq_some_iff.mp hk).1, hk]
    cases hmv.callFrom hc with
    | kept hrun | rotated hrun | onward hrun =>
      have htk := hold hrun
      exact htk
    | started he => simp [hst _ _ he, hln]

section

variable {now : Time} {history : List AuthAction} {x : ℕ}

theorem restore_of_restored {status : ℕ} {message : String}
    (h : ((authServer registry now).trace history)[x]? = some (.restored k t status message)) :
    history[x]? = some (.restore k) ∧
      (history.filterMap AuthAction.presents)[k]? = some t := by
  obtain ⟨a, hsp, hev, -⟩ := Reactive.event_at h
  have hre := (AuthServer.react_presents registry _ a).2.2 _ _ _ _ hev
  have hmv : AuthMove registry ((authServer registry now).run (history.take x))
      (.restored k t status message)
      ((authServer registry now).react ((authServer registry now).run (history.take x)) a).2 :=
    hev ▸ AuthServer.react_move _ _ a
  obtain ⟨c, hc, rfl⟩ := hmv.running_of_restored
  have hpr := (presents_of_running registry now (history.take x)).2 k c hc
  constructor
  · have hlt := (List.getElem?_eq_some_iff.mp h).1
    rw [Reactive.length_trace] at hlt
    have hln : (history.take x).length = x := by rw [length_take, min_eq_left hlt.le]
    rw [hsp, getElem?_append_right hln.le, hln, Nat.sub_self, hre]
    rfl
  · rw [hsp, filterMap_append, getElem?_append_left (List.getElem?_eq_some_iff.mp hpr).1, hpr]

variable (hx : ((authServer registry now).trace history)[x]? = some (.loggedOut t))
  (hdrawn : ∃ w e, w < x ∧ ((authServer registry now).trace history)[w]? = some e ∧ e.HandsOut t)
include hdrawn hx

theorem gone_after_logout : Gone t ((authServer registry now).run (history.take (x + 1))).started
      ((authServer registry now).run (history.take (x + 1))) := by
  obtain ⟨a, -, hev, hnx⟩ := Reactive.event_at hx
  obtain ⟨hs, hds, -⟩ := authServer_orderly registry now (history.take x)
  rw [Reactive.trace_take] at hds
  rw [hnx]
  have hmv : AuthMove registry ((authServer registry now).run (history.take x)) (.loggedOut t)
      ((authServer registry now).react ((authServer registry now).run (history.take x)) a).2 :=
    hev ▸ AuthServer.react_move _ _ a
  have htk : t < ((authServer registry now).run (history.take x)).nextToken := by
    obtain ⟨w, e, hw, he, hout⟩ := hdrawn
    have hmem : e.deed ∈ (((authServer registry now).trace history).take x).map AuthEvent.deed := by
      refine mem_map_of_mem (mem_of_getElem? (i := w) ?_)
      rw [getElem?_take, if_pos hw, he]
    rcases hout with hdr | ⟨t₀, hsn⟩
    · exact hds.drew t (hdr ▸ hmem)
    · exact (hds.spent t₀ t (hsn ▸ hmem)).2.1
  generalize ((authServer registry now).react
    ((authServer registry now).run (history.take x)) a).2 = s' at hmv ⊢
  have hs' := hs.move hmv
  cases hmv
  refine ⟨by simp [AuthServer.delete], htk, le_rfl, fun k c session hk hc => ?_⟩
  exact absurd hc (by rw [hs'.unused k hk]; simp)

theorem logoutFinal_of_notPutBack (hbc : NotPutBack history x t) :
    LogoutFinal ((authServer registry now).trace history) x t := by
  have hgo := gone_after_logout hx hdrawn
  obtain ⟨hs, -, hbe⟩ := authServer_orderly registry now (history.take (x + 1))
  have hln : ((authServer registry now).trace (history.take (x + 1))).length = x + 1 := by
    have hlt := (List.getElem?_eq_some_iff.mp hx).1
    rw [Reactive.length_trace] at hlt
    rw [Reactive.length_trace, length_take]
    omega
  have htr := (authServer registry now).trace_append (history.take (x + 1)) (history.drop (x + 1))
  rw [take_append_drop] at htr
  -- a place after the logout is one of the rest of the run
  have hrs : ∀ {y e}, x < y → ((authServer registry now).trace history)[y]? = some e →
      e ∈ (authServer registry now).traceFrom
        ((authServer registry now).run (history.take (x + 1))) (history.drop (x + 1)) := by
    intro y e hy he
    rw [htr, getElem?_append_right (by omega)] at he
    exact mem_of_getElem? he
  obtain ⟨hst, his⟩ := hgo.runFrom hs registry now
    (history.drop (x + 1)) fun k status message hmem => by
      obtain ⟨y, hy⟩ := mem_iff_getElem?.mp hmem
      have hat : ((authServer registry now).trace history)[x + 1 + y]? =
          some (.restored k t status message) := by
        rw [htr, getElem?_append_right (by omega), hln, Nat.add_sub_cancel_left, hy]
      obtain ⟨hre, hpr⟩ := restore_of_restored hat
      exact hbc (x + 1 + y) k (by omega) hre hpr
  intro y z k t' u o hy hsta hiss
  have hk := hst k t (hrs hy hsta)
  by_cases hz : x < z
  · exact absurd (his k t' u o (hrs hz hiss)) (not_lt.mpr hk)
  · rw [htr, getElem?_append_left (by omega)] at hiss
    exact absurd (hbe k t t' u o (mem_of_getElem? hiss)) (not_lt.mpr hk)

end

/-- Every token has one successor at most, and a logout is final unless the session is put back. -/
theorem refresh_single_use (registry : String → Option CredentialProvider) (now : Time)
    (history : List AuthAction) :
    SingleUse ((authServer registry now).trace history) ∧
      ∀ x t, ((authServer registry now).trace history)[x]? = some (.loggedOut t) →
        (∃ w e, w < x ∧ ((authServer registry now).trace history)[w]? = some e ∧ e.HandsOut t) →
        NotPutBack history x t → LogoutFinal ((authServer registry now).trace history) x t :=
  ⟨singleUse_of_orderly (authServer_orderly registry now history).2.1,
    fun _ _ hx hdrawn hbc => logoutFinal_of_notPutBack hx hdrawn hbc⟩

section

private def ada : User := ⟨"oidc:ada", "ada", .oidc, "ada", ["k8scenter:users"], ["user"]⟩

/-- A logout while a refresh is under way, which then succeeds. -/
private def overtaken : List AuthAction :=
  [.login ada, .refresh 0, .rotate 0, .logout 0, .resolve 0 .noConnection none, .mint 0 true,
    .store 0, .refresh 0, .rotate 1]

private theorem overtaken_trace : (authServer (fun _ => none) 0).trace overtaken =
      [.loggedIn 0 ada 0, .started 0 0, .idle, .loggedOut 0, .idle, .idle,
        .issued 0 0 1 ada .stored, .started 1 0,
        .refused 1 401 "invalid or expired refresh token"] := by
  decide

theorem refresh_single_use_overtaken : SingleUse ((authServer (fun _ => none) 0).trace overtaken) ∧
      LogoutFinal ((authServer (fun _ => none) 0).trace overtaken) 3 0 := by
  obtain ⟨hsi, hfn⟩ := refresh_single_use (fun _ => none) 0 overtaken
  refine ⟨hsi, hfn 3 0 (by rw [overtaken_trace]; rfl)
    ⟨0, .loggedIn 0 ada 0, by decide, by rw [overtaken_trace]; rfl, .inl rfl⟩ ?_⟩
  intro y k _ hre
  exact absurd (mem_of_getElem? hre) (by simp [overtaken])

/-- A refresh that has removed the session fails to mint, and puts it back after the logout. -/
private def putBack : List AuthAction :=
  [.login ada, .refresh 0, .rotate 0, .resolve 0 .noConnection none, .mint 0 false, .logout 0,
    .restore 0, .refresh 0, .rotate 1, .resolve 1 .noConnection none, .mint 1 true, .store 1]

private theorem putBack_trace : (authServer (fun _ => none) 0).trace putBack =
      [.loggedIn 0 ada 0, .started 0 0, .idle, .idle, .idle, .loggedOut 0,
        .restored 0 0 500 "failed to issue token", .started 1 0, .idle, .idle, .idle,
        .issued 1 0 1 ada .stored] := by
  decide

theorem issued_after_logout :
    ¬ ∀ (registry : String → Option CredentialProvider) (now : Time) (history : List AuthAction)
      (x t : ℕ), ((authServer registry now).trace history)[x]? = some (.loggedOut t) →
        (∃ w e, w < x ∧ ((authServer registry now).trace history)[w]? = some e ∧ e.HandsOut t) →
        LogoutFinal ((authServer registry now).trace history) x t := by
  intro h
  have hfn := h (fun _ => none) 0 putBack 5 0 (by rw [putBack_trace]; rfl)
    ⟨0, .loggedIn 0 ada 0, by decide, by rw [putBack_trace]; rfl, .inl rfl⟩
  exact hfn 7 11 1 1 ada .stored (by decide) rfl rfl

end

end KubeCenter.Auth
