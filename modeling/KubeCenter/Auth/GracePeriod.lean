import KubeCenter.Auth.SingleUse

/-! # The grace period of a directory outage

A refresh that meets a transient directory error may go on with its session's identity for five
minutes from the time the directory returned it. Identity and time pass on together. -/
namespace KubeCenter.Auth
open Lib Go Lib.Holding List Nat

/-! ## What a resolved user comes from -/

variable {registry : String → Option CredentialProvider} {session : RefreshSession}
  {lastRevalidated now : Time} {origin : Origin} {s s' : AuthServer} {e : AuthEvent}

section

variable {o : DirectoryOutcome} {record : Option UserRecord} {user : User}

theorem revalidate_provider {config} {userDN : String} (h : revalidate config userDN o = .ok user) :
    user.provider = .ldap := by
  unfold revalidate at h
  split at h
  · cases h
  · split at h <;> cases h
    rfl

/-- The time since the last answer is as long as it looks while it is short. -/
theorem sub_le_of_sub_le {t u : Time} (h : t.sub u ≤ ldapGracePeriod) :
    t - u ≤ ldapGracePeriod := by
  have hmax : ldapGracePeriod < 2 ^ 63 - 1 := by decide
  rcases min_le_iff.mp (max_le_iff.mp h).2 with hbn | hsh
  · exact absurd hbn (not_le.mpr hmax)
  · exact hsh

/-- It issues for the user the directory returned now, or within the grace period for its own. -/
theorem revalidateLDAPSession_issue
    (h : revalidateLDAPSession registry session o now = .issue user lastRevalidated origin) :
    (origin = .directory ∧ user.provider = .ldap ∧ lastRevalidated = now) ∨
      (origin = .grace now ∧ session.cachedUser = some user ∧
        lastRevalidated = session.lastRevalidated ∧ now - lastRevalidated ≤ ldapGracePeriod) := by
  unfold revalidateLDAPSession at h
  split at h
  case h_1 scheme providerID userDN hpr =>
    split at h
    · cases h
    · split at h
      case h_1 => cases h
      case h_2 => cases h
      case h_3 config hcf =>
        split at h
        case h_1 u hrv =>
          cases h
          exact .inl ⟨rfl, revalidate_provider hrv, rfl⟩
        case h_2 =>
          split at h
          case h_1 => cases h
          case h_2 cachedUser hch =>
            split at h
            · cases h
            next hgr =>
              cases h
              exact .inr ⟨rfl, hch, rfl, sub_le_of_sub_le (not_lt.mp (not_or.mp hgr).2)⟩
        case h_3 => cases h
  case h_2 => cases h

theorem resolveUser_issue
    (h : resolveUser registry session o record now = .issue user lastRevalidated origin) :
    (origin = .directory ∧ user.provider = .ldap ∧ lastRevalidated = now) ∨
      (origin = .grace now ∧ session.provider = .ldap ∧ session.cachedUser = some user ∧
        lastRevalidated = session.lastRevalidated ∧ now - lastRevalidated ≤ ldapGracePeriod) ∨
      (origin = .stored ∧ session.provider ≠ .ldap ∧
        (session.cachedUser = some user ∨ user.provider = .local)) := by
  unfold resolveUser at h
  split at h
  case h_1 hld =>
    rcases revalidateLDAPSession_issue h with hdir | ⟨hor, hrs⟩
    · exact .inl hdir
    · exact .inr (.inl ⟨hor, hld, hrs⟩)
  case h_2 hot =>
    refine .inr (.inr ?_)
    split at h
    case h_1 u hch =>
      cases h
      exact ⟨rfl, hot, .inl hch⟩
    case h_2 =>
      split at h
      case h_1 u hsd =>
        cases h
        refine ⟨rfl, hot, .inr ?_⟩
        unfold getUserByID at hsd
        split at hsd
        · obtain ⟨r, -, rfl⟩ := Option.map_eq_some_iff.mp hsd
          rfl
        · cases hsd
      case h_2 => cases h

end

/-! ## Users the directory returned -/

/-- The directory returned the user at the login `t₀` is the token of, or when asked between `t₀`
and `t`. -/
def FromDirectory (es : List AuthEvent) (t₀ : ℕ) (u₀ : User) (τ₀ : Time) (t : ℕ) (u : User)
    (τ : Time) : Prop :=
  (u = u₀ ∧ τ = τ₀) ∨ ∃ k t₁, .revalidated k t₁ u τ ∈ es ∧
    Descends (es.map AuthEvent.deed) t₀ t₁ ∧ Descends (es.map AuthEvent.deed) t₁ t

/-- A user and a time that a token stands for, whichever login it descends from. -/
structure Sourced (es : List AuthEvent) (now : Time) (t : ℕ) (u : User) (τ : Time) : Prop where
  past : τ ≤ now
  source : ∀ t₀ u₀ τ₀, .loggedIn t₀ u₀ τ₀ ∈ es → Descends (es.map AuthEvent.deed) t₀ t →
    FromDirectory es t₀ u₀ τ₀ t u τ

section

variable {es es' : List AuthEvent} {t₀ t : ℕ} {u₀ u : User} {τ₀ τ now' : Time}
  {H H' : Holding Place}

theorem FromDirectory.mono (h : FromDirectory es t₀ u₀ τ₀ t u τ) (hsub : es ⊆ es') :
    FromDirectory es' t₀ u₀ τ₀ t u τ := by
  rcases h with hlg | ⟨k, t₁, han, hbe, haf⟩
  · exact .inl hlg
  · exact .inr ⟨k, t₁, hsub han, hbe.mono (map_subset _ hsub), haf.mono (map_subset _ hsub)⟩

theorem Sourced.later (h : Sourced es now t u τ) (hnow : now ≤ now') : Sourced es now' t u τ :=
  ⟨h.past.trans hnow, h.source⟩

section

variable (hds : Orderly H (es.map AuthEvent.deed))
include hds

theorem login_of_concat (hst : Step H e.deed H') (ht : t < H.next)
    (hlg : .loggedIn t₀ u₀ τ₀ ∈ es ++ [e])
    (hde : Descends ((es ++ [e]).map AuthEvent.deed) t₀ t) :
    .loggedIn t₀ u₀ τ₀ ∈ es ∧ Descends (es.map AuthEvent.deed) t₀ t := by
  rw [map_append] at hde
  have hold := hst.descends_of_concat hds ht hde
  rcases mem_concat hlg with hlg | rfl
  · exact ⟨hlg, hold⟩
  · -- the token of a new login has no descendants yet
    have hnx : t₀ = H.next := hst.eq_next_of_draw
    have heq := hds.eq_of_next_descends hold (le_of_eq hnx.symm)
    omega

theorem Sourced.extend (h : Sourced es now t u τ) (hst : Step H e.deed H') (ht : t < H.next) :
    Sourced (es ++ [e]) now t u τ where
  past := h.past
  source t₀ u₀ τ₀ hlg hde := by
    obtain ⟨hlg, hde⟩ := login_of_concat hds hst ht hlg hde
    exact (h.source t₀ u₀ τ₀ hlg hde).mono (subset_append_left _ _)

theorem Sourced.successor {k : ℕ} {v : User} {o : Origin} {p : Place} (h : Sourced es now t u τ)
    (hp : H.holds p t) :
    Sourced (es ++ [.issued k t H.next v o]) now H.next u τ where
  past := h.past
  source t₀ u₀ τ₀ hlg hde := by
    have hlg : .loggedIn t₀ u₀ τ₀ ∈ es := by simpa using hlg
    have hdr : t₀ < H.next := hds.drew t₀ (mem_map_of_mem hlg)
    rw [map_append] at hde
    rcases hde.of_concat_spend hds.next_not_spent (Nat.ne_of_lt (hds.drawn p t hp)) with
      hde | ⟨-, hde⟩
    · exact absurd (hds.eq_of_descends_next hde le_rfl) (Nat.ne_of_lt hdr)
    · have hsub : es ⊆ es ++ [.issued k t H.next v o] := subset_append_left _ _
      rcases (h.source t₀ u₀ τ₀ hlg hde).mono hsub with hfi | ⟨k', t₁, han, hb, ha⟩
      · exact .inl hfi
      · exact .inr ⟨k', t₁, han, hb, ha.spend (by simp [AuthEvent.deed])⟩

theorem sourced_login (u : User) (now : Time) :
    Sourced (es ++ [.loggedIn H.next u now]) now H.next u now where
  past := le_refl now
  source t₀ u₀ τ₀ hlg hde := by
    rw [map_append] at hde
    have heq := hds.eq_of_descends_next (hde.of_concat (by simp [AuthEvent.deed])) le_rfl
    rcases mem_concat hlg with hlg | hlg
    · exact absurd heq (Nat.ne_of_lt (hds.drew t₀ (mem_map_of_mem hlg)))
    · cases hlg
      exact .inl ⟨rfl, rfl⟩

end

theorem sourced_revalidated (k t : ℕ) (u : User) (now : Time) :
    Sourced (es ++ [.revalidated k t u now]) now t u now where
  past := le_refl now
  source _ _ _ _ hde := .inr ⟨k, t, by simp, hde, .self⟩

end

/-! ## Sessions and their times -/

/-- A user of the session's own provider; for LDAP, one the directory returned when the session
says. -/
structure Kept (es : List AuthEvent) (now : Time) (session : RefreshSession) : Prop where
  provider : ∀ u, session.cachedUser = some u → u.provider = session.provider
  source : ∀ u, session.cachedUser = some u → session.provider = .ldap →
    Sourced es now session.token u session.lastRevalidated

/-- What a refresh may issue tokens for. -/
structure Issuable (es : List AuthEvent) (now : Time) (t : ℕ) (u : User) (lastRevalidated : Time)
    (origin : Origin) : Prop where
  source : u.provider = .ldap → Sourced es now t u lastRevalidated
  grace : ∀ checkedAt, origin = .grace checkedAt → u.provider = .ldap ∧
    lastRevalidated ≤ checkedAt ∧ checkedAt - lastRevalidated ≤ ldapGracePeriod

structure Dated (es : List AuthEvent) (s : AuthServer) : Prop where
  stored : ∀ t session, s.sessions t = some session → Kept es s.now session
  held : ∀ k c session, s.calls k = some c → c.stage.held = some session → Kept es s.now session
  resolved : ∀ k c u lastRevalidated origin, s.calls k = some c →
    c.stage.resolved = some (u, lastRevalidated, origin) →
    Issuable es s.now c.token u lastRevalidated origin

section

variable {es : List AuthEvent} {k t : ℕ} {c : RefreshCall} {u : User}

theorem kept_sessionFor {expiresAt : Time}
    (h : u.provider = .ldap → Sourced es now t u lastRevalidated) :
    Kept es now (sessionFor t u expiresAt lastRevalidated) := by
  have hch : ∀ v, (sessionFor t u expiresAt lastRevalidated).cachedUser = some v → v = u := by
    intro v hv
    unfold sessionFor at hv
    split at hv <;> cases hv
    rfl
  refine ⟨fun v hv => ?_, fun v hv hld => ?_⟩
  · rw [hch v hv]
    rfl
  · rw [hch v hv]
    exact h hld

theorem Kept.issuable (h : Kept es now session) {o record} (hor : origin ≠ .directory)
    (hres : resolveUser registry session o record now = .issue u lastRevalidated origin) :
    Issuable es now session.token u lastRevalidated origin := by
  rcases resolveUser_issue hres with
    ⟨hdir, -⟩ | ⟨rfl, hld, hch, rfl, hgr⟩ | ⟨rfl, hot, hus⟩
  · exact absurd hdir hor
  · have hsr := h.source u hch hld
    refine ⟨fun _ => hsr, fun checkedAt heq => ?_⟩
    cases heq
    exact ⟨(h.provider u hch).trans hld, hsr.past, hgr⟩
  · refine ⟨fun hld => ?_, nofun⟩
    rcases hus with hch | hlc
    · exact absurd ((h.provider u hch).symm.trans hld) hot
    · rw [hlc] at hld
      cases hld

theorem Issuable.mono {es'} {now' : Time} (h : Issuable es now t u lastRevalidated origin)
    (hmn : Sourced es now t u lastRevalidated → Sourced es' now' t u lastRevalidated) :
    Issuable es' now' t u lastRevalidated origin :=
  ⟨fun hld => hmn (h.source hld), h.grace⟩

theorem Kept.mono {es'} {now' : Time} (h : Kept es now session)
    (hmn : ∀ u, Sourced es now session.token u session.lastRevalidated →
      Sourced es' now' session.token u session.lastRevalidated) : Kept es' now' session :=
  ⟨h.provider, fun u hch hld => hmn u (h.source u hch hld)⟩

theorem Dated.extend (h : Dated es s) (hs : WellKept s)
    (hds : Orderly s.holding (es.map AuthEvent.deed)) (hst : Step s.holding e.deed s'.holding)
    (hre : ∀ k c r, s.calls k = some c → c.stage.resolved = some r →
      c.token < s.nextToken) : Dated (es ++ [e]) s where
  stored t session hss := (h.stored t session hss).mono fun u hu =>
    hu.extend hds hst (hds.drawn .store _ ⟨session, by rwa [hs.stored t session hss]⟩)
  held k c session hc hhd := (h.held k c session hc hhd).mono fun u hu =>
    hu.extend hds hst (hds.drawn (.call k) _ ⟨c, session, hc, hhd, rfl⟩)
  resolved k c u lastRevalidated origin hc hres :=
    (h.resolved k c u lastRevalidated origin hc hres).mono fun hu =>
      hu.extend hds hst (hre k c _ hc hres)

theorem held_of_resolved {stage : RefreshStage} {r} (h : stage.resolved = some r) :
    ∃ session, stage.held = some session := by
  cases stage with
  | mint session | store session => exact ⟨session, rfl⟩
  | rotate | resolve | restore => cases h

theorem AuthMove.now_le (hmv : AuthMove registry s e s') : s.now ≤ s'.now := by
  cases hmv with
  | elapse d => exact Int.le_add_of_nonneg_right (Int.natCast_nonneg d)
  | _ => exact le_rfl

theorem Dated.move (h : Dated es s) (hs : WellKept s)
    (hds : Orderly s.holding (es.map AuthEvent.deed)) (hmv : AuthMove registry s e s') :
    Dated (es ++ [e]) s' := by
  have hcl : ∀ {k c session}, s.calls k = some c → c.stage.held = some session →
      s.holding.holds (.call k) c.token := fun hc hhd =>
    ⟨_, _, hc, hhd, hs.held _ _ _ hc hhd⟩
  have hnew : Dated (es ++ [e]) s := h.extend hs hds (hmv.step hs hds) fun k c r hc hr => by
    obtain ⟨session, hhd⟩ := held_of_resolved hr
    exact hds.drawn _ _ (hcl hc hhd)
  have hkp : ∀ {session}, Kept (es ++ [e]) s.now session → Kept (es ++ [e]) s'.now session :=
    fun hk => hk.mono fun _ hu => hu.later hmv.now_le
  refine ⟨fun t session hss => hkp ?_, fun k c session hc hhd => hkp ?_,
    fun k c u lastRevalidated origin hc hr => Issuable.mono ?_ fun hu => hu.later hmv.now_le⟩
  · cases hmv.storedFrom hss with
    | kept hss => exact hnew.stored _ _ hss
    | login _ he =>
      subst he
      exact kept_sessionFor fun _ => sourced_login hds _ s.now
    | issued hrun hsta he =>
      subst he
      refine kept_sessionFor fun hld => ?_
      have his := h.resolved _ _ _ _ _ hrun (by rw [hsta]; rfl)
      exact (his.source hld).successor hds (hcl hrun (by rw [hsta]; rfl))
    | restored hrun hsta => exact hnew.held _ _ _ hrun (by rw [hsta]; rfl)
  · cases hmv.callFrom hc with
    | kept hrun => exact hnew.held _ _ _ hrun hhd
    | started => cases hhd
    | rotated hrun hss =>
      cases hhd
      exact hnew.stored _ _ hss
    | onward hrun hold hsta => exact hnew.held _ _ _ hrun (hold.trans (hsta.symm.trans hhd))
  · cases hmv.callFrom hc with
    | kept hrun => exact hnew.resolved _ _ _ _ _ hrun hr
    | started | rotated => cases hr
    | onward hrun hold hsta hres =>
      rcases hres _ _ _ hr with hold' | ⟨o, record, hres, hev⟩
      · have his := hnew.resolved _ _ _ _ _ hrun hold'
        exact his
      · by_cases hor : origin = .directory
        · refine ⟨fun _ => ?_, fun _ heq => by rw [hor] at heq; cases heq⟩
          rw [hev hor]
          rcases resolveUser_issue hres with ⟨-, -, rfl⟩ | ⟨heq, -⟩ | ⟨heq, -⟩
          · exact sourced_revalidated _ _ u s.now
          · rw [hor] at heq
            cases heq
          · rw [hor] at heq
            cases heq
        · have his := (hnew.held _ _ _ hrun hold).issuable hor hres
          rw [hs.held _ _ _ hrun hold] at his
          exact his

end

/-! ## Over a whole run -/

/-- Tokens issued on the grace period are for a user the directory returned at the login or since,
at most the period before the check. -/
def GraceBounded (es : List AuthEvent) (t₀ : ℕ) (u₀ : User) (τ₀ : Time) : Prop :=
  ∀ (x k t t' : ℕ) (u : User) (checkedAt : Time),
    es[x]? = some (.issued k t t' u (.grace checkedAt)) →
    Descends (es.map AuthEvent.deed) t₀ t →
    ∃ τ, τ ≤ checkedAt ∧ checkedAt - τ ≤ ldapGracePeriod ∧ FromDirectory (es.take x) t₀ u₀ τ₀ t u τ

/-- After a session was refused for good, no token of its chain yields tokens. -/
def RejectionFinal (es : List AuthEvent) (t₀ : ℕ) : Prop :=
  ∀ (x y k k' t t₁ t₂ status : ℕ) (message : String) (u : User) (o : Origin), x < y →
    es[x]? = some (.rejected k t status message) → Descends (es.map AuthEvent.deed) t₀ t →
    es[y]? = some (.issued k' t₁ t₂ u o) → ¬ Descends (es.map AuthEvent.deed) t₀ t₁

/-- The chains of the tokens that were refused have ended. -/
structure Closed (es : List AuthEvent) (s : AuthServer) : Prop where
  drawn : ∀ k t status message, .rejected k t status message ∈ es → t < s.nextToken
  ended : ∀ k t status message t₀, .rejected k t status message ∈ es →
    Descends (es.map AuthEvent.deed) t₀ t → Ended s.holding (es.map AuthEvent.deed) t₀

section

variable {es : List AuthEvent} {t₀ : ℕ}

theorem AuthMove.rejected_held {k t status : ℕ} {message : String} (hs : WellKept s)
    (hmv : AuthMove registry s (.rejected k t status message) s') :
    s.holding.holds (.call k) t ∧ s' = s.finish k := by
  cases hmv with
  | @reject k c session hc hsta =>
    have hhd : c.stage.held = some session := by rw [hsta]; rfl
    exact ⟨⟨c, session, hc, hhd, hs.held k c session hc hhd⟩, rfl⟩

theorem AuthMove.issued_resolved {k t t' : ℕ} {u : User} {o : Origin}
    (hmv : AuthMove registry s (.issued k t t' u o) s') : ∃ c lastRevalidated,
      s.calls k = some c ∧ c.token = t ∧ c.stage.resolved = some (u, lastRevalidated, o) := by
  cases hmv with
  | @store k c session user expiresAt lastRevalidated origin hc hsta =>
    exact ⟨c, lastRevalidated, hc, rfl, by rw [hsta]; rfl⟩

variable (hds : Orderly s.holding (es.map AuthEvent.deed))
include hds

theorem ended_of_rejected {k t status : ℕ} {message : String} (hs : WellKept s)
    (hmv : AuthMove registry s (.rejected k t status message) s')
    (hde : Descends (es.map AuthEvent.deed) t₀ t) :
    Ended s'.holding (es.map AuthEvent.deed) t₀ := by
  obtain ⟨hhd, rfl⟩ := hmv.rejected_held hs
  refine ⟨?_, fun p v hp hv => ?_⟩
  · by_contra hnx
    have heq := hds.eq_of_next_descends hde (not_lt.mp hnx)
    exact hnx (heq ▸ hds.drawn _ t hhd)
  · obtain ⟨hne, hp⟩ := holds_finish hp
    have heq : v = t := hds.oneHeld t₀ p (.call k) v t hp hhd hv hde
    exact hne (hds.onePlace p (.call k) t (heq ▸ hp) hhd)

theorem Closed.move (h : Closed es s) (hs : WellKept s) (hmv : AuthMove registry s e s') :
    Closed (es ++ [e]) s' where
  drawn k t status message hmem := by
    rcases mem_concat hmem with hmem | rfl
    · exact lt_of_lt_of_le (h.drawn k t status message hmem) hmv.nextToken_le
    · exact lt_of_lt_of_le (hds.drawn _ t (hmv.rejected_held hs).1) hmv.nextToken_le
  ended k t status message t₀ hmem hde := by
    have hst := hmv.step hs hds
    rw [map_append] at hde ⊢
    rcases mem_concat hmem with hmem | rfl
    · have hold := hst.descends_of_concat hds (h.drawn k t status message hmem) hde
      exact ((h.ended k t status message t₀ hmem hold).step hds hst).1
    · obtain ⟨hdra, hno⟩ := ended_of_rejected hds hs hmv (hde.of_concat (by simp [AuthEvent.deed]))
      exact ⟨hdra, fun p v hp hv => hno p v hp (hv.of_concat (by simp [AuthEvent.deed]))⟩

theorem descends_of_issued {x k t t' : ℕ} {u : User} {o : Origin}
    (hst : Step s.holding e.deed s'.holding)
    (hx : es[x]? = some (.issued k t t' u o))
    (hde : Descends ((es ++ [e]).map AuthEvent.deed) t₀ t) :
    Descends (es.map AuthEvent.deed) t₀ t := by
  rw [map_append] at hde
  have hsn : .spend t t' ∈ es.map AuthEvent.deed :=
    mem_map_of_mem (f := AuthEvent.deed) (mem_of_getElem? hx)
  exact hst.descends_of_concat hds (hds.spent t t' hsn).1 hde

theorem RejectionFinal.move (h : RejectionFinal es t₀) (hcs : Closed es s) (hs : WellKept s)
    (hmv : AuthMove registry s e s') :
    RejectionFinal (es ++ [e]) t₀ := by
  have hst := hmv.step hs hds
  intro x y k k' t t₁ t₂ status message u o hxy hx hde hy hde₁
  -- the refusal comes before the last event
  have hx : es[x]? = some (.rejected k t status message) := by
    rcases getElem?_concat_cases hx with hx | ⟨rfl, -⟩
    · exact hx
    · have hlt := (List.getElem?_eq_some_iff.mp hy).1
      rw [length_append, length_singleton] at hlt
      omega
  have hmem := mem_of_getElem? hx
  rw [map_append] at hde
  have hold := hst.descends_of_concat hds (hcs.drawn k t status message hmem) hde
  rcases getElem?_concat_cases hy with hy | ⟨-, rfl⟩
  · exact h x y k k' t t₁ t₂ status message u o hxy hx hold hy (descends_of_issued hds hst hy hde₁)
  · have hsp := ((hcs.ended k t status message t₀ hmem hold).step hds hst).2
    have hhd := ((hmv.call_lt hs).2.2 k' t₁ t₂ u o rfl).2
    rw [map_append] at hde₁
    exact hsp t₁ t₂ rfl (hst.descends_of_concat hds (hds.drawn _ t₁ hhd) hde₁)

theorem graceBounded_move (h : ∀ t₀ u₀ τ₀, .loggedIn t₀ u₀ τ₀ ∈ es → GraceBounded es t₀ u₀ τ₀)
    (hdt : Dated es s) (hs : WellKept s) (hmv : AuthMove registry s e s') :
    ∀ t₀ u₀ τ₀, .loggedIn t₀ u₀ τ₀ ∈ es ++ [e] → GraceBounded (es ++ [e]) t₀ u₀ τ₀ := by
  have hst := hmv.step hs hds
  intro t₀ u₀ τ₀ hlg x k t t' u checkedAt hx hde
  rcases getElem?_concat_cases hx with hx | ⟨rfl, rfl⟩
  · have hsn : .spend t t' ∈ es.map AuthEvent.deed :=
      mem_map_of_mem (f := AuthEvent.deed) (mem_of_getElem? hx)
    obtain ⟨hlg, hde⟩ := login_of_concat hds hst (hds.spent t t' hsn).1 hlg hde
    rw [List.take_append_of_le_length (le_of_lt (List.getElem?_eq_some_iff.mp hx).1)]
    exact h t₀ u₀ τ₀ hlg x k t t' u checkedAt hx hde
  · have hhd := ((hmv.call_lt hs).2.2 k t t' u _ rfl).2
    obtain ⟨hlg', hde'⟩ := login_of_concat hds hst (hds.drawn _ t hhd) hlg hde
    obtain ⟨c, lastRevalidated, hc, rfl, hres⟩ := hmv.issued_resolved
    have his := hdt.resolved k c u lastRevalidated _ hc hres
    obtain ⟨hld, hps, hgr⟩ := his.grace checkedAt rfl
    rw [take_left]
    exact ⟨lastRevalidated, hps, hgr, (his.source hld).source t₀ u₀ τ₀ hlg' hde'⟩

end

/-- An outage lends a chain of refreshes no more than the grace period, and a refusal ends the
chain. -/
theorem outage_within_grace (registry : String → Option CredentialProvider) (now : Time)
    (history : List AuthAction) (t₀ : ℕ) (u₀ : User) (τ₀ : Time)
    (hlogin : .loggedIn t₀ u₀ τ₀ ∈ (authServer registry now).trace history) :
    GraceBounded ((authServer registry now).trace history) t₀ u₀ τ₀ ∧
      RejectionFinal ((authServer registry now).trace history) t₀ := by
  have hinv := Reactive.run_inv (M := authServer registry now)
    (P := fun s es => (WellKept s ∧ Orderly s.holding (es.map AuthEvent.deed)) ∧ Dated es s ∧
      Closed es s ∧ (∀ t₀ u₀ τ₀, .loggedIn t₀ u₀ τ₀ ∈ es → GraceBounded es t₀ u₀ τ₀) ∧
        ∀ t₀, RejectionFinal es t₀) ?_ ?_ history
  · obtain ⟨-, -, -, hgr, hfn⟩ := hinv
    exact ⟨hgr t₀ u₀ τ₀ hlogin, hfn t₀⟩
  · obtain ⟨hs, hds, -⟩ := authServer_orderly registry now []
    refine ⟨⟨hs, hds⟩, ⟨?_, ?_, ?_⟩, ⟨by simp, by simp⟩, by simp, ?_⟩
    · simp [authServer]
    · simp [authServer]
    · simp [authServer]
    · intro t₀ x y k k' t t₁ t₂ status message u o _ hx
      simp at hx
  · rintro s es a ⟨⟨hs, hds⟩, hdt, hcs, hgr, hfn⟩
    have hmv := s.react_move registry a
    refine ⟨⟨hs.move hmv, ?_⟩, hdt.move hs hds hmv, hcs.move hds hs hmv,
      graceBounded_move hds hgr hdt hs hmv, fun t₀ => (hfn t₀).move hds hcs hs hmv⟩
    rw [map_append]
    exact hds.step (hmv.step hs hds)

section

private def corp : LDAPConfig := ⟨"corp", "uid", "corp:"⟩

private def entry : LDAPEntry := ⟨"uid=eve", [("uid", "eve"), ("cn", "Eve")]⟩

private def eve : User := mapToUser corp entry ["dev"]

private def eveLater : User := mapToUser corp entry ["ops"]

private def corpOnly (id : String) : Option CredentialProvider :=
  if id = "corp" then some (.ldap corp) else none

private def minutes (n : ℕ) : ℕ := n * 60000000000

private def refreshWith (k token : ℕ) (o : DirectoryOutcome) : List AuthAction :=
  [.refresh token, .rotate k, .resolve k o none, .mint k true, .store k, .restore k]

/-- The directory is away for six minutes, answers once, is away again, then knows the user no
more. -/
private def outage : List AuthAction :=
  [.login eve, .elapse (minutes 4)] ++ refreshWith 0 0 .noConnection ++ [.elapse (minutes 2)] ++
    refreshWith 1 1 .bindFailed ++ refreshWith 2 1 (.found [(entry, ["ops"])]) ++
    [.elapse (minutes 1)] ++ refreshWith 3 2 .cancelled ++ refreshWith 4 3 (.found [])

private theorem outage_trace : ((authServer corpOnly 0).trace outage).filter (· ≠ .idle) =
      [.loggedIn 0 eve 0, .started 0 0, .issued 0 0 1 eve (.grace (4 * minute)), .started 1 1,
        .restored 1 1 401 "ldap unavailable, please retry", .started 2 1,
        .revalidated 2 1 eveLater (6 * minute), .issued 2 1 2 eveLater .directory, .started 3 2,
        .issued 3 2 3 eveLater (.grace (7 * minute)), .started 4 3,
        .rejected 4 3 401 "user no longer authorised"] := by
  decide

theorem outage_within_grace_outage :
    .issued 3 2 3 eveLater (.grace (7 * minute)) ∈ (authServer corpOnly 0).trace outage ∧
      .rejected 4 3 401 "user no longer authorised" ∈ (authServer corpOnly 0).trace outage ∧
      GraceBounded ((authServer corpOnly 0).trace outage) 0 eve 0 ∧
      RejectionFinal ((authServer corpOnly 0).trace outage) 0 := by
  have hmem : ∀ e, e ∈ ((authServer corpOnly 0).trace outage).filter (· ≠ .idle) →
      e ∈ (authServer corpOnly 0).trace outage := fun _ h => (mem_filter.mp h).1
  rw [outage_trace] at hmem
  exact ⟨hmem _ (by simp), hmem _ (by simp),
    outage_within_grace corpOnly 0 outage 0 eve 0 (hmem _ (by simp))⟩

end

end KubeCenter.Auth
