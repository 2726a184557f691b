import SecureShare.Auth.Sessions
import SecureShare.Library.Transition
import Mathlib.Data.Set.Function

/-!
# The life of a session

The operations on the store of sessions, one at a time and in the order of their
times, together with the history of what they have done. The store keeps times in
microseconds and the time a session was last used only; that it accepts a session
is nevertheless decided by the history, to the nanosecond.
-/
namespace SecureShare.Auth
open Go Library Library.Transition
open Delivery (UUID Bytes)

inductive SessionOp where
  | createForUser (idBytes : Option Bytes) (sessionID : Option UUID) (user : User)
  | fromRequest (cookie : Option Text)
  | destroy (cookie : Option Text)
  | revokeOtherSessions (userID : UUID) (id : Text)
  | updateUser (id : UUID) (columns : UserColumns)
  deriving DecidableEq, Repr

/-- An operation at a time of the server and one of the database. It fails without
effect when the database is not available. -/
structure SessionAction where
  now : ℤ
  databaseNow : ℤ
  available : Bool
  op : SessionOp
  deriving DecidableEq, Repr

/-- What an operation has done. Times are those of the server. -/
inductive SessionEvent where
  | created (id : Text) (userID : UUID) (now expiresAt : ℤ)
  | accepted (id : Text) (now : ℤ)
  | destroyed (id : Text)
  | othersRevoked (userID : UUID) (id : Text)
  deriving DecidableEq, Repr

/-- The last event comes first. -/
structure SessionState where
  store : AuthStore
  clock : ℤ
  history : List SessionEvent

namespace SessionManager
variable (m : SessionManager)

/-- `FromRequest` -/
def fromRequest (now : ℤ) (s : AuthStore) (cookie : Option Text) : Option (AuthStore × Session) :=
  (cookie.bind m.unsign).bind (m.lookup now s)

/-- `Destroy` -/
def destroy (databaseNow : ℤ) (s : AuthStore) (cookie : Option Text) : Option (AuthStore × Text) :=
  (cookie.bind m.unsign).bind fun id =>
    (Repository.revokeSession databaseNow s (m.tokenHash id)).map fun r => (r.1, id)

/-- The effect of an operation, and the event. -/
def perform (a : SessionAction) (s : AuthStore) : Option (AuthStore × List SessionEvent) :=
  match a.op with
  | .createForUser idBytes sessionID user =>
    (m.issue a.databaseNow a.now s idBytes sessionID user).map fun r =>
      (r.1, [.created r.2.id user.id a.now r.2.expiresAt])
  | .fromRequest cookie =>
    (m.fromRequest a.now s cookie).map fun r => (r.1, [.accepted r.2.id a.now])
  | .destroy cookie => (m.destroy a.databaseNow s cookie).map fun r => (r.1, [.destroyed r.2])
  | .revokeOtherSessions userID id =>
    (Repository.revokeOtherSessions a.databaseNow s userID (m.tokenHash id)).map fun r =>
      (r.1, [.othersRevoked userID id])
  | .updateUser id columns =>
    (Repository.updateColumns a.databaseNow s.users id columns).map fun r =>
      ({ s with users := r.1 }, [])

/-- One operation, no earlier than the one before it. -/
def step (s : SessionState) (a : SessionAction) : Option SessionState :=
  if a.now < s.clock then none
  else
    match (if a.available then m.perform a s.store else none) with
    | none => some { s with clock := a.now }
    | some (store, events) => some ⟨store, a.now, events ++ s.history⟩

/-- The session IDs that the operation hashes. -/
def hashed (a : SessionAction) : List Text :=
  match a.op with
  | .createForUser idBytes _ _ => (idBytes.map rawURLEncode).toList
  | .fromRequest cookie | .destroy cookie => (cookie.bind m.unsign).toList
  | .revokeOtherSessions _ id => [id]
  | .updateUser _ _ => []

/-- The steps that only hash IDs in `I`. -/
def stepWithin (I : Set Text) [DecidablePred (· ∈ I)] (s : SessionState) (a : SessionAction) :
    Option SessionState :=
  if ∀ id ∈ m.hashed a, id ∈ I then m.step s a else none

end SessionManager

/-- The event revokes the session of this user, if there is one. -/
def SessionEvent.Revokes (id : Text) (userID : UUID) : SessionEvent → Prop
  | .created _ _ _ _ | .accepted _ _ => False
  | .destroyed id' => id' = id
  | .othersRevoked userID' id' => userID' = userID ∧ id' ≠ id

/-- Since it was created, the session of this user has been revoked. -/
def Revocation (id : Text) (userID : UUID) : List SessionEvent → Prop
  | [] => False
  | .created id' _ _ _ :: history => id' ≠ id ∧ Revocation id userID history
  | event :: history => event.Revokes id userID ∨ Revocation id userID history

/-- The session was created or accepted at this time. -/
def SeenAt (id : Text) (t : ℤ) (history : List SessionEvent) : Prop :=
  (∃ userID expiresAt, .created id userID t expiresAt ∈ history) ∨ .accepted id t ∈ history

/-- What a row says of the session with this ID. -/
structure SessionRow.Describes (r : SessionRow) (id : Text) (history : List SessionEvent) : Prop where
  created : ∃ t e, .created id r.userID t e ∈ history ∧ r.expiresAt = timestamp e
  seen : ∃ t, SeenAt id t history ∧ r.lastSeenAt = timestamp t
  revoked : Revocation id r.userID history → r.revokedAt ≠ none

/-- The rows and the history tell the same. -/
structure SessionState.Consistent (m : SessionManager) (I : Set Text) (s : SessionState) : Prop where
  rows : ∀ r ∈ s.store.sessions.rows, ∃ id ∈ I, r.tokenHash = m.tokenHash id ∧
    r.Describes id s.history
  created : ∀ id userID t e, .created id userID t e ∈ s.history → id ∈ I ∧
    ∃ r ∈ s.store.sessions.rows, r.tokenHash = m.tokenHash id ∧ r.userID = userID ∧
      r.expiresAt = timestamp e

variable {m : SessionManager} {I : Set Text} {s s' : AuthStore} {a : SessionAction}
  {events : List SessionEvent}

/-- What an operation can do to the sessions. -/
inductive SessionEffect (m : SessionManager) (a : SessionAction) (s s' : AuthStore) :
    List SessionEvent → Prop
  | unchanged : s'.sessions = s.sessions → SessionEffect m a s s' []
  | created (id : Text) (sessionID userID : UUID) (e : ℤ) : id ∈ m.hashed a →
      s.sessions.insert ⟨sessionID, userID, m.tokenHash id, timestamp e, timestamp a.now,
        a.databaseNow, none⟩ = some s'.sessions →
      SessionEffect m a s s' [.created id userID a.now e]
  | accepted (id : Text) : id ∈ m.hashed a →
      s.sessions.update (Repository.sessionMatches s (m.tokenHash id) a.now m.idleTimeout)
        (fun r => { r with lastSeenAt := timestamp a.now }) = some s'.sessions →
      SessionEffect m a s s' [.accepted id a.now]
  | destroyed (id : Text) : id ∈ m.hashed a →
      s.sessions.update (fun r => decide (r.tokenHash = m.tokenHash id) && r.revokedAt.isNone)
        (fun r => { r with revokedAt := some a.databaseNow }) = some s'.sessions →
      SessionEffect m a s s' [.destroyed id]
  | othersRevoked (userID : UUID) (id : Text) : id ∈ m.hashed a →
      s.sessions.update (fun r => (decide (r.userID = userID) &&
          decide (r.tokenHash ≠ m.tokenHash id)) && r.revokedAt.isNone)
        (fun r => { r with revokedAt := some a.databaseNow }) = some s'.sessions →
      SessionEffect m a s s' [.othersRevoked userID id]

theorem Repository.revokeSessions_eq_some {databaseNow : ℤ} {p : SessionRow → Bool} {u : Unit}
    (h : Repository.revokeSessions databaseNow s p = some (s', u)) :
    s.sessions.update (fun r => p r && r.revokedAt.isNone)
      (fun r => { r with revokedAt := some databaseNow }) = some s'.sessions := by
  obtain ⟨sessions, hsessions, heq⟩ := Option.map_eq_some_iff.mp h
  cases heq
  exact hsessions

theorem Repository.sessionByHash_eq_some {tokenHash : Bytes} {now : ℤ} {idleTimeout : Duration}
    {accepted : AcceptedSession}
    (h : Repository.sessionByHash s tokenHash now idleTimeout = some (s', accepted)) :
    s.sessions.update (Repository.sessionMatches s tokenHash now idleTimeout)
        (fun r => { r with lastSeenAt := timestamp now }) = some s'.sessions ∧
      ∃ r ∈ s.sessions.rows, Repository.sessionMatches s tokenHash now idleTimeout r = true ∧
        ∃ user, s.users.find (·.id) r.userID = some user ∧
          accepted = ⟨user.toUser, r.id, r.expiresAt, timestamp now⟩ := by
  obtain ⟨sessions, hsessions, h⟩ := Option.bind_eq_some_iff.mp h
  obtain ⟨r', hr', h⟩ := Option.bind_eq_some_iff.mp h
  obtain ⟨user, huser, heq⟩ := Option.map_eq_some_iff.mp h
  cases heq
  obtain ⟨r, hr, hmatches, rfl⟩ := Table.mem_returning.mp (List.mem_of_mem_head? hr')
  exact ⟨hsessions, r, hr, hmatches, user, huser, rfl⟩

/-- The statement of an accepted cookie. -/
theorem SessionManager.fromRequest_eq_some {now : ℤ} {cookie : Option Text} {session : Session}
    (h : m.fromRequest now s cookie = some (s', session)) :
    ∃ id accepted, cookie.bind m.unsign = some id ∧
      Repository.sessionByHash s (m.tokenHash id) now m.idleTimeout = some (s', accepted) ∧
      session = sessionOf id accepted := by
  obtain ⟨id, hid, h⟩ := Option.bind_eq_some_iff.mp h
  obtain ⟨⟨_, accepted⟩, haccepted, heq⟩ := Option.map_eq_some_iff.mp h
  cases heq
  exact ⟨id, accepted, hid, haccepted, rfl⟩

theorem SessionManager.perform_effect (h : m.perform a s = some (s', events)) :
    SessionEffect m a s s' events := by
  obtain ⟨now, databaseNow, available, op⟩ := a
  unfold perform at h
  cases op with
  | createForUser idBytes sessionID user =>
      obtain ⟨⟨_, session⟩, hissue, heq⟩ := Option.map_eq_some_iff.mp h
      cases heq
      unfold issue at hissue
      split at hissue
      · next bytes sessionID =>
        obtain ⟨⟨_, id⟩, hcreate, heq⟩ := Option.map_eq_some_iff.mp hissue
        cases heq
        unfold Repository.createSession at hcreate
        split_ifs at hcreate
        obtain ⟨sessions, hinsert, heq⟩ := Option.map_eq_some_iff.mp hcreate
        cases heq
        exact .created _ sessionID user.id _ List.mem_cons_self hinsert
      · cases hissue
  | fromRequest cookie =>
      obtain ⟨⟨_, session⟩, hrequest, heq⟩ := Option.map_eq_some_iff.mp h
      cases heq
      obtain ⟨id, accepted, hid, haccepted, rfl⟩ := fromRequest_eq_some hrequest
      refine .accepted id ?_ (Repository.sessionByHash_eq_some haccepted).1
      change id ∈ (cookie.bind m.unsign).toList
      rw [hid]
      exact List.mem_cons_self
  | destroy cookie =>
      obtain ⟨⟨_, id⟩, hdestroy, heq⟩ := Option.map_eq_some_iff.mp h
      cases heq
      obtain ⟨id', hid, hdestroy⟩ := Option.bind_eq_some_iff.mp hdestroy
      obtain ⟨⟨_, _⟩, hrevoke, heq⟩ := Option.map_eq_some_iff.mp hdestroy
      cases heq
      refine .destroyed id ?_ (Repository.revokeSessions_eq_some hrevoke)
      change id ∈ (cookie.bind m.unsign).toList
      rw [hid]
      exact List.mem_cons_self
  | revokeOtherSessions userID id =>
      obtain ⟨⟨_, _⟩, hrevoke, heq⟩ := Option.map_eq_some_iff.mp h
      cases heq
      exact .othersRevoked userID id List.mem_cons_self (Repository.revokeSessions_eq_some hrevoke)
  | updateUser id columns =>
      obtain ⟨⟨_, _⟩, _, heq⟩ := Option.map_eq_some_iff.mp h
      cases heq
      exact .unchanged rfl

theorem Revocation.mono {id : Text} {userID : UUID} {history : List SessionEvent}
    (h : ¬Revocation id userID history) {event : SessionEvent}
    (hevent : ¬event.Revokes id userID) : ¬Revocation id userID (event :: history) := by
  intro hrevocation
  cases event with
  | created => exact h hrevocation.2
  | accepted | destroyed | othersRevoked => exact hrevocation.elim hevent h

/-- Another event says nothing new of the row. -/
theorem SessionRow.Describes.cons {r : SessionRow} {id : Text} {history : List SessionEvent}
    (h : r.Describes id history) {event : SessionEvent}
    (hevent : r.revokedAt = none → ¬event.Revokes id r.userID) :
    r.Describes id (event :: history) where
  created := by
    obtain ⟨t, e, hcreated, he⟩ := h.created
    exact ⟨t, e, List.mem_cons_of_mem _ hcreated, he⟩
  seen := by
    obtain ⟨t, hseen, ht⟩ := h.seen
    refine ⟨t, ?_, ht⟩
    rcases hseen with ⟨userID, e, hcreated⟩ | haccepted
    · exact .inl ⟨userID, e, List.mem_cons_of_mem _ hcreated⟩
    · exact .inr (List.mem_cons_of_mem _ haccepted)
  revoked hrevocation hnone := by
    exact Revocation.mono (fun hbefore => h.revoked hbefore hnone) (hevent hnone) hrevocation

/-- An UPDATE that keeps the columns that never change. -/
theorem SessionState.Consistent.update {state : SessionState} (h : state.Consistent m I)
    {p : SessionRow → Bool} {f : SessionRow → SessionRow} {event : SessionEvent} {clock : ℤ}
    (hupdate : state.store.sessions.update p f = some s'.sessions)
    (hkeep : ∀ r, (f r).tokenHash = r.tokenHash ∧ (f r).userID = r.userID ∧
      (f r).expiresAt = r.expiresAt)
    (hevent : ∀ id userID t e, event ≠ .created id userID t e)
    (hrow : ∀ r id, id ∈ I → r.tokenHash = m.tokenHash id → r.Describes id state.history →
      (if p r then f r else r).Describes id (event :: state.history)) :
    SessionState.Consistent m I ⟨s', clock, event :: state.history⟩ := by
  have hrows : s'.sessions.rows = _ := Table.rows_of_ofRows hupdate
  have hcolumns : ∀ r, (if p r then f r else r).tokenHash = r.tokenHash ∧
      (if p r then f r else r).userID = r.userID ∧
      (if p r then f r else r).expiresAt = r.expiresAt := by
    intro r
    split_ifs
    · exact hkeep r
    · exact ⟨rfl, rfl, rfl⟩
  constructor
  · intro r' hr'
    rw [hrows] at hr'
    obtain ⟨r, hr, rfl⟩ := List.mem_map.mp hr'
    obtain ⟨id, hid, hhash, hdescribes⟩ := h.rows r hr
    exact ⟨id, hid, (hcolumns r).1.trans hhash, hrow r id hid hhash hdescribes⟩
  · intro id userID t e hcreated
    rcases List.mem_cons.mp hcreated with heq | hcreated
    · exact absurd heq.symm (hevent id userID t e)
    · obtain ⟨hid, r, hr, hhash, huser, he⟩ := h.created id userID t e hcreated
      refine ⟨hid, _, hrows ▸ List.mem_map_of_mem hr, ?_, ?_, ?_⟩
      · exact (hcolumns r).1.trans hhash
      · exact (hcolumns r).2.1.trans huser
      · exact (hcolumns r).2.2.trans he

/-- An UPDATE that revokes the rows of the sessions that its event names. -/
theorem SessionRow.Describes.revoke {r : SessionRow} {id : Text} {history : List SessionEvent}
    (h : r.Describes id history) {p : SessionRow → Bool} {now : ℤ} {event : SessionEvent}
    (hp : event.Revokes id r.userID → p r = true) :
    (if p r && r.revokedAt.isNone then { r with revokedAt := some now } else r).Describes id
      (event :: history) := by
  split_ifs with hmatches
  · have hrevoked : ({ r with revokedAt := some now } : SessionRow).Describes id history :=
      ⟨h.created, h.seen, fun _ h => by cases h⟩
    exact hrevoked.cons fun h => by cases h
  · refine h.cons fun hnone hrevokes => hmatches ?_
    rw [hp hrevokes, hnone]
    rfl

theorem SessionState.Consistent.perform {state : SessionState} (hinj : Set.InjOn m.tokenHash I)
    (h : state.Consistent m I) (hI : ∀ id ∈ m.hashed a, id ∈ I)
    (heffect : SessionEffect m a state.store s' events) (clock : ℤ) :
    SessionState.Consistent m I ⟨s', clock, events ++ state.history⟩ := by
  cases heffect with
  | unchanged heq =>
      constructor
      · intro r hr
        exact h.rows r (heq ▸ hr)
      · intro id userID t e hcreated
        obtain ⟨hid, r, hr, hrow⟩ := h.created id userID t e hcreated
        exact ⟨hid, r, heq.symm ▸ hr, hrow⟩
  | created id sessionID userID e hid hinsert =>
      have hrows : s'.sessions.rows = _ := Table.rows_of_ofRows hinsert
      constructor
      · intro r hr
        rw [hrows] at hr
        rcases List.mem_cons.mp hr with rfl | hr
        · refine ⟨id, hI id hid, rfl, ⟨a.now, e, List.mem_cons_self, rfl⟩, ?_, ?_⟩
          · exact ⟨a.now, .inl ⟨userID, e, List.mem_cons_self⟩, rfl⟩
          · exact fun hrevocation => absurd rfl hrevocation.1
        · obtain ⟨id', hid', hhash, hdescribes⟩ := h.rows r hr
          exact ⟨id', hid', hhash, hdescribes.cons fun _ h => h⟩
      · intro id' userID' t e' hcreated
        rw [hrows]
        rcases List.mem_cons.mp hcreated with heq | hcreated
        · cases heq
          exact ⟨hI _ hid, _, List.mem_cons_self, rfl, rfl, rfl⟩
        · obtain ⟨hid', r, hr, hrow⟩ := h.created id' userID' t e' hcreated
          exact ⟨hid', r, List.mem_cons_of_mem _ hr, hrow⟩
  | accepted id hid hupdate =>
      refine h.update hupdate (fun _ => ⟨rfl, rfl, rfl⟩) (fun _ _ _ _ h => by cases h)
        fun r id' hid' hhash hdescribes => ?_
      have hcons : r.Describes id' (.accepted id a.now :: state.history) :=
        hdescribes.cons fun _ h => h
      split_ifs with hmatches
      · have hhash' : r.tokenHash = m.tokenHash id := by
          simp only [Repository.sessionMatches, Bool.and_eq_true, decide_eq_true_eq] at hmatches
          exact hmatches.1.1.1.1
        have heq : id' = id := hinj hid' (hI id hid) (hhash.symm.trans hhash')
        subst heq
        exact ⟨hcons.created, ⟨a.now, .inr List.mem_cons_self, rfl⟩, hcons.revoked⟩
      · exact hcons
  | destroyed id hid hupdate =>
      refine h.update hupdate (fun _ => ⟨rfl, rfl, rfl⟩) (fun _ _ _ _ h => by cases h)
        fun r id' hid' hhash hdescribes => ?_
      apply hdescribes.revoke
      intro hrevokes
      rw [hhash, hrevokes]
      exact decide_eq_true rfl
  | othersRevoked userID id hid hupdate =>
      refine h.update hupdate (fun _ => ⟨rfl, rfl, rfl⟩) (fun _ _ _ _ h => by cases h)
        fun r id' hid' hhash hdescribes => ?_
      apply hdescribes.revoke
      intro hrevokes
      have hhash' : r.tokenHash ≠ m.tokenHash id := by
        intro heq
        exact hrevokes.2 (hinj (hI id hid) hid' (heq.symm.trans hhash))
      simp [hrevokes.1, hhash']

/-- What a step does: it moves the clock on, and may perform its operation. -/
theorem SessionManager.step_cases {s s' : SessionState} (h : m.step s a = some s') :
    s.clock ≤ a.now ∧ s'.clock = a.now ∧ ∃ events, s'.history = events ++ s.history ∧
      SessionEffect m a s.store s'.store events := by
  unfold step at h
  split_ifs at h with hclock havailable
  · split at h
    · cases h
      exact ⟨by omega, rfl, [], rfl, .unchanged rfl⟩
    · next store events hperform =>
      cases h
      exact ⟨by omega, rfl, events, rfl, perform_effect hperform⟩
  · cases h
    exact ⟨by omega, rfl, [], rfl, .unchanged rfl⟩

theorem SessionManager.stepWithin_cases [DecidablePred (· ∈ I)] {s s' : SessionState}
    (h : m.stepWithin I s a = some s') :
    (∀ id ∈ m.hashed a, id ∈ I) ∧ m.step s a = some s' := by
  unfold stepWithin at h
  split_ifs at h with hI
  exact ⟨hI, h⟩

/-- A row whose session can never be accepted again. -/
def SessionRow.Ended (m : SessionManager) (clock : ℤ) (r : SessionRow) : Prop :=
  r.revokedAt ≠ none ∨ r.expiresAt ≤ timestamp clock ∨
    r.lastSeenAt ≤ timestamp clock - Delivery.Row.interval (idleSeconds m.idleTimeout)

theorem SessionRow.Ended.mono {r : SessionRow} {clock now : ℤ} (h : r.Ended m clock)
    (hle : clock ≤ now) : r.Ended m now := by
  have hstamp : timestamp clock ≤ timestamp now := Int.ediv_le_ediv (by decide) hle
  rcases h with h | h | h
  · exact .inl h
  · exact .inr (.inl (by omega))
  · exact .inr (.inr (by omega))

theorem sessionMatches_iff {tokenHash : Bytes} {now : ℤ} {r : SessionRow} :
    Repository.sessionMatches s tokenHash now m.idleTimeout r = true ↔
      r.tokenHash = tokenHash ∧ ¬r.Ended m now ∧
        ∃ user, s.users.find (·.id) r.userID = some user ∧ user.status = .active := by
  simp only [Repository.sessionMatches, Bool.and_eq_true, decide_eq_true_eq, SessionRow.Ended,
    Option.isNone_iff_eq_none, Option.any_eq_true, ne_eq, not_or, not_le, Decidable.not_not]
  tauto

/-- The session with this ID has a row, which has ended. -/
def EndedRow (m : SessionManager) (id : Text) (s : SessionState) : Prop :=
  ∃ r ∈ s.store.sessions.rows, r.tokenHash = m.tokenHash id ∧ r.Ended m s.clock

theorem EndedRow.step {s s' : SessionState} {id : Text} (h : EndedRow m id s)
    (hstep : m.step s a = some s') : EndedRow m id s' := by
  obtain ⟨r, hr, hhash, hended⟩ := h
  obtain ⟨hle, hclock, events, _, heffect⟩ := SessionManager.step_cases hstep
  have hended : r.Ended m s'.clock := hended.mono (hclock ▸ hle)
  cases heffect with
  | unchanged heq => exact ⟨r, heq.symm ▸ hr, hhash, hended⟩
  | created id' sessionID userID e _ hinsert =>
      refine ⟨r, ?_, hhash, hended⟩
      rw [Table.rows_of_ofRows hinsert]
      exact List.mem_cons_of_mem _ hr
  | accepted id' _ hupdate =>
      refine ⟨r, ?_, hhash, hended⟩
      rw [Table.rows_of_ofRows hupdate]
      refine List.mem_map.mpr ⟨r, hr, if_neg fun hmatches => ?_⟩
      exact (sessionMatches_iff.mp hmatches).2.1 (hclock ▸ hended)
  | destroyed _ _ hupdate | othersRevoked _ _ _ hupdate =>
      have hrows := Table.rows_of_ofRows hupdate
      refine ⟨_, hrows ▸ List.mem_map_of_mem hr, ?_, ?_⟩
      · split_ifs <;> exact hhash
      · split_ifs
        · exact .inl fun h => by cases h
        · exact hended

/-- No user has a session yet. -/
def SessionState.init (users : UserTable) (clock : ℤ) : SessionState :=
  ⟨⟨users, .empty⟩, clock, []⟩

section main
variable {state : SessionState} {users : UserTable} {clock now : ℤ}

/-- By the history, the session that was created with this ID is over. -/
def SessionState.Over (state : SessionState) (m : SessionManager) (id : Text) (userID : UUID)
    (expiresAt : ℤ) : Prop :=
  Revocation id userID state.history ∨ expiresAt ≤ state.clock ∨
    ∀ t, SeenAt id t state.history → m.idleTimeout.toInt ≤ state.clock - t

theorem idleSeconds_of_whole {k : ℤ} (hk : 0 < k) (hidle : m.idleTimeout.toInt = k * 1000000000) :
    idleSeconds m.idleTimeout = k := by
  have hseconds := Duration.int64Seconds_of_whole hk.le hidle
  rw [idleSeconds, hseconds, if_neg (by omega)]

/-- What is over by the history has ended in the table. -/
theorem SessionState.Over.endedRow {id : Text} {userID : UUID} {t e k : ℤ}
    (hk : 0 < k) (hidle : m.idleTimeout.toInt = k * 1000000000) (hinj : Set.InjOn m.tokenHash I)
    (hstate : state.Consistent m I) (hcreated : .created id userID t e ∈ state.history)
    (h : state.Over m id userID e) : EndedRow m id state := by
  obtain ⟨hid, r, hr, hhash, huser, he⟩ := hstate.created id userID t e hcreated
  obtain ⟨id', hid', hhash', hdescribes⟩ := hstate.rows r hr
  obtain rfl : id = id' := hinj hid hid' (hhash.symm.trans hhash')
  refine ⟨r, hr, hhash, ?_⟩
  rcases h with h | h | h
  · exact .inl (hdescribes.revoked (huser ▸ h))
  · refine .inr (.inl ?_)
    rw [he]
    exact Int.ediv_le_ediv (by decide) h
  · obtain ⟨t', hseen, ht'⟩ := hdescribes.seen
    have hlapsed := h t' hseen
    refine .inr (.inr ?_)
    rw [ht', idleSeconds_of_whole hk hidle, Delivery.Row.interval, timestamp, timestamp]
    omega

theorem EndedRow.not_accepted {id : Text} {cookie : Option Text} {session : Session}
    (h : EndedRow m id state) (hle : state.clock ≤ now)
    (haccepted : m.fromRequest now state.store cookie = some (s', session)) : session.id ≠ id := by
  rintro rfl
  obtain ⟨r, hr, hhash, hended⟩ := h
  obtain ⟨id, accepted, _, hstatement, rfl⟩ := SessionManager.fromRequest_eq_some haccepted
  obtain ⟨_, r', hr', hmatches, _⟩ := Repository.sessionByHash_eq_some hstatement
  obtain ⟨hhash', hnot, _⟩ := sessionMatches_iff.mp hmatches
  obtain rfl := Table.eq_of_clash hr hr' (isKey_sessionHash (hhash.trans hhash'.symm))
  exact hnot (hended.mono hle)

variable [DecidablePred (· ∈ I)]

theorem consistent_of_reachable (hinj : Set.InjOn m.tokenHash I)
    (h : Reachable (m.stepWithin I) (.init users clock) state) : state.Consistent m I := by
  refine h.preserves ⟨fun r hr => absurd hr List.not_mem_nil,
    fun _ _ _ _ hcreated => absurd hcreated List.not_mem_nil⟩ ?_
  intro u a v hu hstep
  obtain ⟨hI, hstep⟩ := SessionManager.stepWithin_cases hstep
  obtain ⟨_, _, events, hhistory, heffect⟩ := SessionManager.step_cases hstep
  have hconsistent := hu.perform hinj hI heffect v.clock
  rwa [← hhistory] at hconsistent

/-- A cookie is accepted only for a session that was created and is not over, of a user
who is active and whose role gives the permissions; and no session that is over is
accepted at any later time. -/
theorem session_lifecycle {k : ℤ} (hk : 0 < k) (hidle : m.idleTimeout.toInt = k * 1000000000)
    (hinj : Set.InjOn m.tokenHash I)
    (h : Reachable (m.stepWithin I) (.init users clock) state) :
    (∀ now cookie s' session, (∀ id ∈ cookie.bind m.unsign, id ∈ I) →
      m.fromRequest now state.store cookie = some (s', session) →
      cookie = some (m.sign session.id) ∧
      (∃ t e, .created session.id session.userID t e ∈ state.history ∧ now < e) ∧
      ¬Revocation session.id session.userID state.history ∧
      (∃ t, SeenAt session.id t state.history ∧ now - t < m.idleTimeout.toInt) ∧
      ∃ user, state.store.users.find (·.id) session.userID = some user ∧ user.status = .active ∧
        session.permissions = permissionsForRole user.role) ∧
    ∀ id userID t e, .created id userID t e ∈ state.history → state.Over m id userID e →
      ∀ later, Reachable (m.stepWithin I) state later → ∀ now cookie s' session,
        later.clock ≤ now → m.fromRequest now later.store cookie = some (s', session) →
        session.id ≠ id := by
  have hstate := consistent_of_reachable hinj h
  constructor
  · intro now cookie s' session hcookie haccepted
    obtain ⟨id, accepted, hid, hstatement, rfl⟩ := SessionManager.fromRequest_eq_some haccepted
    obtain ⟨_, r, hr, hmatches, user, huser, rfl⟩ := Repository.sessionByHash_eq_some hstatement
    obtain ⟨hhash, hnot, user', huser', hactive⟩ := sessionMatches_iff.mp hmatches
    obtain rfl := Option.some.inj (huser.symm.trans huser')
    obtain ⟨id', hid', hhash', hdescribes⟩ := hstate.rows r hr
    obtain rfl : id = id' := hinj (hcookie id hid) hid' (hhash.symm.trans hhash')
    have hself := Table.key_of_find huser
    unfold SessionRow.Ended at hnot
    rw [idleSeconds_of_whole hk hidle, Delivery.Row.interval] at hnot
    rw [not_or, not_or, not_not, not_le, not_le] at hnot
    obtain ⟨hrevoked, hexpires, hseen⟩ := hnot
    obtain ⟨t, e, hcreated, he⟩ := hdescribes.created
    obtain ⟨t', hseenAt, ht'⟩ := hdescribes.seen
    rw [he, timestamp, timestamp] at hexpires
    rw [ht', timestamp, timestamp] at hseen
    change cookie = some (m.sign id) ∧ (∃ t e, .created id user.id t e ∈ state.history ∧ now < e) ∧
      ¬Revocation id user.id state.history ∧ _
    rw [hself]
    refine ⟨?_, ⟨t, e, hcreated, by omega⟩, fun hrevocation => ?_, ⟨t', hseenAt, by omega⟩, ?_⟩
    · obtain ⟨value, rfl, hvalue⟩ := Option.bind_eq_some_iff.mp hid
      rw [m.sign_of_unsign hvalue]
    · exact hdescribes.revoked hrevocation hrevoked
    · refine ⟨user, ?_, hactive, rfl⟩
      change state.store.users.find (·.id) user.id = some user
      rw [hself]
      exact huser
  · intro id userID t e hcreated hover later hlater now cookie s' session hle haccepted
    have hrow : EndedRow m id later := by
      refine hlater.preserves (hover.endedRow hk hidle hinj hstate hcreated) ?_
      intro u a v hu hstep
      exact hu.step (SessionManager.stepWithin_cases hstep).2
    exact hrow.not_accepted hle haccepted

end main

def sampleManager : SessionManager where
  hmac := Delivery.sampleDependencies.hmac
  secret := "session".toList
  csrfSecret := "csrf".toList
  ttl := 12 * 3600 * Duration.second
  idleTimeout := 1800 * Duration.second

def sampleID : Text := "AQID".toList

/-- A login, and half an hour later less a nanosecond a request with its cookie. -/
def sampleVisit : List SessionAction :=
  [⟨0, 0, true, .createForUser (some [1, 2, 3]) (some 9) sampleUser.toUser⟩,
    ⟨1799999999999, 0, true, .fromRequest (some (sampleManager.sign sampleID))⟩]

theorem session_lifecycle_sample : ∃ state s' session,
    Reachable (sampleManager.stepWithin {id | id = sampleID}) (.init sampleUsers 0) state ∧
    sampleManager.fromRequest 1800000000000 state.store (some (sampleManager.sign sampleID)) =
      some (s', session) ∧
    ¬Revocation session.id session.userID state.history := by
  have hrun : ((run (sampleManager.stepWithin {id | id = sampleID}) (.init sampleUsers 0)
      sampleVisit).map fun state => ((sampleManager.fromRequest 1800000000000 state.store
        (some (sampleManager.sign sampleID))).map Prod.snd).isSome) = some true := by
    decide +kernel
  obtain ⟨state, hstate, hsome⟩ := Reachable.of_map hrun
  obtain ⟨session, hsession⟩ := Option.isSome_iff_exists.mp hsome
  obtain ⟨⟨s', session⟩, haccepted, _⟩ := Option.map_eq_some_iff.mp hsession
  have hinj : Set.InjOn sampleManager.tokenHash {id | id = sampleID} :=
    fun _ h _ h' _ => h.trans h'.symm
  have hcookie : ∀ id ∈ (some (sampleManager.sign sampleID)).bind sampleManager.unsign,
      id ∈ {id | id = sampleID} := by
    have hsign : sampleManager.unsign (sampleManager.sign sampleID) = some sampleID := by
      decide +kernel
    intro id hid
    rw [Option.bind_some, hsign] at hid
    exact (Option.some.inj hid).symm
  obtain ⟨_, _, hrevocation, _⟩ := (session_lifecycle (k := 1800) (by decide) (by decide) hinj
    hstate).1 _ _ s' session hcookie haccepted
  exact ⟨state, s', session, hstate, haccepted, hrevocation⟩

end SecureShare.Auth
