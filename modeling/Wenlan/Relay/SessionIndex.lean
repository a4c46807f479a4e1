import Wenlan.Relay.Sessions

/-!
# The index of the session owners

A backend session belongs to at most one session that is active and not over, since the
index of the owners points at every such session.  The claim of a session, its end and the
sweep keep it so; no other operation of the authority touches a session.
-/

namespace Wenlan.Relay

open Support.Transition Table

section Index

variable (hashSecret : String → String)

/-- A session that can still be used at `now`. -/
def Usable (session : SessionRecord) (now : Nat) : Prop :=
  session.active = true ∧ now < session.expiresAt

/-- Records lie under their own ids, and the index points at each one that is usable. -/
structure SessionsIndexed (store : Store) (now : Nat) : Prop where
  own : ∀ id session, store.sessions id = some session → session.id = id
  indexed : ∀ id session, store.sessions id = some session → Usable session now →
    store.sessionOwners (sessionOwnerKey hashSecret session) = some id

variable {hashSecret} {store store' : Store} {now now' : Nat}

section

variable (h : SessionsIndexed hashSecret store now)
include h

theorem SessionsIndexed.later (hle : now ≤ now') : SessionsIndexed hashSecret store now' :=
  ⟨h.own, fun id session hses huse =>
    h.indexed id session hses ⟨huse.1, Nat.lt_of_le_of_lt hle huse.2⟩⟩

theorem SessionsIndexed.congr (hsess : store'.sessions = store.sessions)
    (howner : store'.sessionOwners = store.sessionOwners) :
    SessionsIndexed hashSecret store' now := by
  constructor
  · rw [hsess]
    exact h.own
  · rw [hsess, howner]
    exact h.indexed

theorem SessionsIndexed.unique {id id' : String}
    {session session' : SessionRecord} (hid : store.sessions id = some session)
    (hid' : store.sessions id' = some session') (huse : Usable session now)
    (huse' : Usable session' now) (hroute : session.route = session'.route)
    (hback : session.backendId = session'.backendId) : id = id' := by
  have hkey : sessionOwnerKey hashSecret session = sessionOwnerKey hashSecret session' := by
    rw [sessionOwnerKey, sessionOwnerKey, hroute, hback]
  have hown := h.indexed id session hid huse
  rw [hkey, h.indexed id' session' hid' huse'] at hown
  exact (Option.some.inj hown).symm

end

theorem sessionsIndexed_empty : SessionsIndexed hashSecret .empty now :=
  ⟨nofun, nofun⟩

/-- The claim of a session that is not accepted changes nothing. -/
theorem claimSession_false {candidate : SessionRecord}
    (h : claimSession hashSecret store candidate now = (store', false)) : store' = store := by
  unfold claimSession at h
  simp only [] at h
  split_ifs at h
  · exact (Prod.mk.inj h).1.symm
  · exact (Prod.mk.inj h).1.symm
  · cases (Prod.mk.inj h).2

theorem claimSession_true {candidate : SessionRecord}
    (h : claimSession hashSecret store candidate now = (store', true)) :
    (∀ id prior, store.sessionOwners (sessionOwnerKey hashSecret candidate) = some id →
      store.sessions id = some prior → ¬Usable prior now) ∧ store.sessions candidate.id = none ∧
    store'.sessions = store.sessions.put candidate.id candidate ∧ store'.sessionOwners =
      store.sessionOwners.put (sessionOwnerKey hashSecret candidate) candidate.id := by
  unfold claimSession at h
  simp only [] at h
  split_ifs at h with hprior hused
  · cases (Prod.mk.inj h).2
  · cases (Prod.mk.inj h).2
  · obtain rfl := (Prod.mk.inj h).1
    refine ⟨?_, by simpa using hused, rfl, rfl⟩
    intro id prior hid hses huse
    refine hprior ?_
    simp [hid, hses, huse.1, huse.2]

theorem SessionsIndexed.claim (h : SessionsIndexed hashSecret store now) {candidate : SessionRecord}
    (hclaim : claimSession hashSecret store candidate now = (store', true)) :
    SessionsIndexed hashSecret store' now := by
  obtain ⟨hfree, hunus, hsess, howner⟩ := claimSession_true hclaim
  constructor
  · intro id session hses
    rw [hsess] at hses
    by_cases hid : id = candidate.id
    · subst hid
      rw [put_same] at hses
      rw [Option.some.inj hses]
    · rw [put_other _ _ hid] at hses
      exact h.own id session hses
  · intro id session hses huse
    rw [hsess] at hses
    rw [howner]
    by_cases hid : id = candidate.id
    · subst hid
      rw [put_same] at hses
      rw [Option.some.inj hses, put_same]
    · rw [put_other _ _ hid] at hses
      have hind := h.indexed id session hses huse
      -- The index moves to the candidate only from a session that is not usable.
      have hkey : sessionOwnerKey hashSecret session ≠ sessionOwnerKey hashSecret candidate := by
        intro hsame
        rw [hsame] at hind
        exact hfree id session hind hses huse
      rw [put_other _ _ hkey]
      exact hind

variable (hashSecret) in
/-- What `deactivate` leaves: nothing changed, or one record is not active any more. -/
theorem deactivateSession_sessions (store : Store) (query : Query) (session : SessionRecord) :
    (deactivateSession hashSecret store query session).sessionOwners = store.sessionOwners ∧
      ((deactivateSession hashSecret store query session).sessions = store.sessions ∨
        ∃ current, store.sessions session.id = some current ∧
          (deactivateSession hashSecret store query session).sessions =
            store.sessions.put current.id { current with active := false }) := by
  unfold deactivateSession
  split
  · exact ⟨rfl, .inl rfl⟩
  · next current hcur =>
      split_ifs
      · exact ⟨rfl, .inr ⟨current, hcur, rfl⟩⟩
      · exact ⟨rfl, .inl rfl⟩

theorem SessionsIndexed.deactivate (h : SessionsIndexed hashSecret store now) (query : Query)
    (session : SessionRecord) :
    SessionsIndexed hashSecret (deactivateSession hashSecret store query session) now := by
  obtain ⟨howner, hsame | ⟨current, hcur, hput⟩⟩ :=
    deactivateSession_sessions hashSecret store query session
  · exact h.congr hsame howner
  · constructor
    · intro id other hother
      rw [hput] at hother
      by_cases hid : id = current.id
      · rw [hid, put_same] at hother
        rw [← Option.some.inj hother, hid]
      · rw [put_other _ _ hid] at hother
        exact h.own id other hother
    · intro id other hother huse
      rw [hput] at hother
      rw [howner]
      by_cases hid : id = current.id
      · rw [hid, put_same] at hother
        rw [← Option.some.inj hother] at huse
        exact absurd huse.1 Bool.false_ne_true
      · rw [put_other _ _ hid] at hother
        exact h.indexed id other hother huse

/-! ### The authority's own operations -/

/-- The sessions of `current`, part of the way through a sweep of `old`: what is gone was
not usable. -/
structure SessionsSwept (old : Store) (now : Nat) (current : Store) : Prop where
  sessions : ∀ id, current.sessions id = old.sessions id ∨
    current.sessions id = none ∧ ∀ session, old.sessions id = some session → ¬Usable session now
  owners : ∀ digest, current.sessionOwners digest = old.sessionOwners digest ∨
    current.sessionOwners digest = none ∧ ∀ id session, old.sessionOwners digest = some id →
      old.sessions id = some session → ¬Usable session now

theorem not_usable {session : SessionRecord}
    (h : (!session.active || expired session.expiresAt now)) : ¬Usable session now := by
  rintro ⟨hact, hlive⟩
  simp only [hact, expired, Bool.not_true, Bool.false_or, decide_eq_true_eq] at h
  omega

variable {old : Store}

theorem SessionsSwept.congr {current current' : Store} (h : SessionsSwept old now current)
    (hsess : current'.sessions = current.sessions)
    (howner : current'.sessionOwners = current.sessionOwners) :
    SessionsSwept old now current' := by
  constructor
  · rw [hsess]
    exact h.sessions
  · rw [howner]
    exact h.owners

theorem sweepEntry_sessions (lease : String) (acc : Store × Option CleanupJob)
    (key : StoreKey) (hown : ∀ id session, old.sessions id = some session → session.id = id)
    (h : SessionsSwept old now acc.1) :
    SessionsSwept old now (sweepEntry hashSecret old now lease acc key).1 := by
  unfold sweepEntry
  cases key with
  | sessionOwner digest =>
    simp only []
    split
    · exact h
    · next id hlist =>
        split_ifs with hover
        · refine ⟨h.sessions, fun other => ?_⟩
          by_cases hsame : other = digest
          · rw [hsame]
            refine .inr ⟨delete_same .., fun id' session hid hses => ?_⟩
            obtain rfl := Option.mem_unique hlist hid
            rcases h.sessions id with hkept | ⟨-, hgone⟩
            · rw [hkept, hses] at hover
              exact not_usable (by simpa [Bool.not_and] using hover)
            · exact hgone session hses
          · simp only [delete_other _ hsame]
            exact h.owners other
        · exact h
  | session id =>
    simp only []
    split
    · exact h
    · next session hlist =>
        have hdel : ¬Usable session now → ∀ other,
            acc.1.sessions.delete id other = old.sessions other ∨
              acc.1.sessions.delete id other = none ∧
                ∀ session, old.sessions other = some session → ¬Usable session now := by
          intro hgone other
          by_cases hsame : other = id
          · rw [hsame]
            refine .inr ⟨delete_same .., fun session' hses' => ?_⟩
            obtain rfl := Option.mem_unique hlist hses'
            exact hgone
          · rw [delete_other _ hsame]
            exact h.sessions other
        split_ifs with hover hind
        · have hgone := not_usable hover
          refine ⟨hdel hgone, fun digest => ?_⟩
          by_cases hsame : digest = sessionOwnerKey hashSecret session
          · rw [hsame]
            refine .inr ⟨delete_same .., fun id' session' hid hses' => ?_⟩
            rcases h.owners (sessionOwnerKey hashSecret session) with hkept | ⟨hnone, -⟩
            · rw [← hkept, hind] at hid
              rw [← Option.some.inj hid, hown id session hlist, hlist] at hses'
              rw [← Option.some.inj hses']
              exact hgone
            · rw [hnone] at hind
              cases hind
          · simp only [delete_other _ hsame]
            exact h.owners digest
        · exact ⟨hdel (not_usable hover), h.owners⟩
        · exact h
  | grant subject id =>
    simp only []
    split
    · exact h
    · next listed _ =>
        obtain ⟨grants, hframe⟩ := sweepGrant_frame hashSecret acc.1 acc.2 (subject, id)
          listed now lease
        rw [hframe]
        exact h.congr rfl rfl
  | device | connector =>
    simp only []
    split
    · exact h
    · split
      · exact h.congr rfl rfl
      · exact h
  | _ => exact h.congr rfl rfl

theorem sweepPage_sessions (page : List StoreKey) (lease : String)
    (hown : ∀ id session, old.sessions id = some session → session.id = id) :
    SessionsSwept old now (sweepPage hashSecret old page now lease).1 := by
  suffices hfold : ∀ acc : Store × Option CleanupJob, SessionsSwept old now acc.1 →
      SessionsSwept old now (page.foldl (sweepEntry hashSecret old now lease) acc).1 from
    hfold _ ⟨fun _ => .inl rfl, fun _ => .inl rfl⟩
  induction page with
  | nil => exact fun acc h => h
  | cons key page ih => exact fun acc h => ih _ (sweepEntry_sessions lease acc key hown h)

/-- A sweep at an earlier time than now leaves the index intact. -/
theorem SessionsIndexed.sweep {swept : Store} (h : SessionsIndexed hashSecret store now)
    (hle : now' ≤ now) (hswept : SessionsSwept store now' swept) :
    SessionsIndexed hashSecret swept now := by
  have hbef : ∀ id session, swept.sessions id = some session →
      store.sessions id = some session := by
    intro id session hses
    rcases hswept.sessions id with hkept | ⟨hnone, -⟩
    · rw [← hkept, hses]
    · rw [hnone] at hses
      cases hses
  constructor
  · exact fun id session hses => h.own id session (hbef id session hses)
  · intro id session hses huse
    have hold := hbef id session hses
    have hind := h.indexed id session hold huse
    rcases hswept.owners (sessionOwnerKey hashSecret session) with hkept | ⟨-, hover⟩
    · rw [hkept, hind]
    · exact absurd ⟨huse.1, Nat.lt_of_le_of_lt hle huse.2⟩
        (hover id session hind hold)

variable {tunnelOrigin : String → Option String} {props : String × String → GrantProps}
  {a b : Authority} {op : AuthorityOp}

/-- The authority's own operations sweep the sessions, or leave them alone. -/
theorem authority_sessions (hstep : AuthorityStep hashSecret tunnelOrigin props a op b)
    (hown : ∀ id session, a.store.sessions id = some session → session.id = id) :
    a.clock ≤ b.clock ∧ ∃ now, now ≤ a.clock ∧ SessionsSwept a.store now b.store := by
  have hclock := (step_consent hstep).clock
  have hkept : b.store.sessions = a.store.sessions → b.store.sessionOwners = a.store.sessionOwners →
      ∃ now, now ≤ a.clock ∧ SessionsSwept a.store now b.store := by
    intro hsess howner
    refine ⟨a.clock, Nat.le_refl _, ?_⟩
    exact ⟨fun id => .inl (by rw [hsess]), fun digest => .inl (by rw [howner])⟩
  refine ⟨hclock, ?_⟩
  obtain ⟨hprom, rfl⟩ := hstep
  cases op with
  | tick | replace => exact hkept rfl rfl
  | device op =>
    obtain ⟨devices, routes, hframe⟩ := deviceStep_frame hashSecret tunnelOrigin a.store op
    apply hkept <;> simp only [authorityStep, hframe]
  | claim identity grant authorizationId later =>
    obtain ⟨grants, hframe⟩ :=
      claim_frame hashSecret a.store identity grant authorizationId a.clock later
    apply hkept <;> simp only [authorityStep, hframe]
  | touch identity grant now =>
    obtain ⟨grants, hframe⟩ := touch_frame hashSecret a.store identity grant now
    apply hkept <;> simp only [authorityStep, hframe]
  | revokeGrant deviceId credential grantId later =>
    obtain ⟨grants, hframe⟩ :=
      revokeGrant_frame hashSecret a.store deviceId credential grantId a.clock later
    apply hkept <;> simp only [authorityStep, hframe]
  | finishRevocation subject grantId =>
    obtain ⟨grants, hframe⟩ := finishRevocation_frame a.store subject grantId
    apply hkept <;> simp only [authorityStep, hframe]
  | sweep page now lease => exact ⟨now, hprom, sweepPage_sessions page lease hown⟩
  | recordCleanup job outcome now =>
    obtain ⟨grants, hframe⟩ := recordCleanup_frame a.store job outcome now
    apply hkept <;> simp only [authorityStep, hframe]

end Index

end Wenlan.Relay
