import SecureShare.Auth.SessionLifecycle
import SecureShare.Delivery.Create

/-!
# The idle timeout

The store compares whole seconds. A fraction of the timeout is lost, and where nothing but
a fraction is configured the timeout becomes a year.
-/
namespace SecureShare.Auth
open Go Library

/-- The session is open, and its user is active. -/
def SessionRow.Valid (s : AuthStore) (now : ℤ) (r : SessionRow) : Prop :=
  r.revokedAt = none ∧ now < r.expiresAt * 1000 ∧
    ∃ user, s.users.find (·.id) r.userID = some user ∧ user.status = .active

/-- The nanoseconds since the session was last seen. -/
def SessionRow.idleFor (now : ℤ) (r : SessionRow) : ℤ := now - r.lastSeenAt * 1000

/-- Every session is rejected as soon as the timeout has passed since it was last seen, and
accepted before, if nothing else ends it. -/
def IdleEnforced (idleTimeout : Duration) : Prop :=
  ∀ (s : AuthStore) (r : SessionRow) (now : ℤ), r ∈ s.sessions.rows →
    (idleTimeout.toInt ≤ r.idleFor now →
      Repository.sessionByHash s r.tokenHash now idleTimeout = none) ∧
    (r.idleFor now < idleTimeout.toInt → r.Valid s now →
      ∃ s' accepted, Repository.sessionByHash s r.tokenHash now idleTimeout = some (s', accepted) ∧
        accepted.sessionID = r.id)

section statement
variable {s : AuthStore} {r : SessionRow} {now : ℤ} {idleTimeout : Duration}

theorem sessionMatches_self_iff :
    Repository.sessionMatches s r.tokenHash now idleTimeout r = true ↔
      r.Valid s now ∧ r.idleFor now < idleSeconds idleTimeout * 1000000000 := by
  have hexpires : timestamp now < r.expiresAt ↔ now < r.expiresAt * 1000 := by
    unfold timestamp
    omega
  have hseen : timestamp now - Delivery.Row.interval (idleSeconds idleTimeout) < r.lastSeenAt ↔
      r.idleFor now < idleSeconds idleTimeout * 1000000000 := by
    unfold timestamp Delivery.Row.interval SessionRow.idleFor
    omega
  simp only [Repository.sessionMatches, SessionRow.Valid, Bool.and_eq_true, decide_eq_true_eq,
    Option.isNone_iff_eq_none, Option.any_eq_true, hexpires, hseen]
  tauto

/-- Only the row of the hash matches. -/
theorem eq_of_sessionMatches (hr : r ∈ s.sessions.rows) {r' : SessionRow}
    (hr' : r' ∈ s.sessions.rows)
    (h : Repository.sessionMatches s r.tokenHash now idleTimeout r' = true) : r' = r := by
  have hhash : r'.tokenHash = r.tokenHash := by
    simp only [Repository.sessionMatches, Bool.and_eq_true, decide_eq_true_eq] at h
    exact h.1.1.1.1
  exact Table.eq_of_clash hr' hr (isKey_sessionHash hhash)

theorem sessionByHash_isSome (hr : r ∈ s.sessions.rows)
    (h : Repository.sessionMatches s r.tokenHash now idleTimeout r = true) :
    ∃ s' accepted, Repository.sessionByHash s r.tokenHash now idleTimeout = some (s', accepted) ∧
      accepted.sessionID = r.id := by
  let p := Repository.sessionMatches s r.tokenHash now idleTimeout
  let touch : SessionRow → SessionRow := fun r => { r with lastSeenAt := timestamp now }
  obtain ⟨sessions, hsessions⟩ : ∃ sessions, s.sessions.update p touch = some sessions := by
    apply Table.update_isSome
    · exact fun _ hcheck => hcheck
    · intro r r' hclash
      split_ifs at hclash <;> exact hclash
  have hmem : touch r ∈ s.sessions.returning p touch := Table.mem_returning.mpr ⟨r, hr, h, rfl⟩
  obtain ⟨first, hfirst⟩ : ∃ first, (s.sessions.returning p touch).head? = some first :=
    ⟨_, List.head?_eq_some_head (List.ne_nil_of_mem hmem)⟩
  obtain ⟨u, hu, hmatches, rfl⟩ := Table.mem_returning.mp (List.mem_of_mem_head? hfirst)
  obtain rfl := eq_of_sessionMatches hr hu hmatches
  obtain ⟨⟨_, _, user, huser, _⟩, _⟩ := sessionMatches_self_iff.mp h
  refine ⟨{ s with sessions }, ⟨user.toUser, u.id, u.expiresAt, timestamp now⟩, ?_, rfl⟩
  have hfind : s.users.find (·.id) (touch u).userID = some user := huser
  change (s.sessions.update p touch).bind _ = _
  rw [hsessions, Option.bind_some, hfirst, Option.bind_some, hfind]
  rfl

/-- Whole seconds decide. -/
theorem sessionByHash_isSome_iff (hr : r ∈ s.sessions.rows) :
    (Repository.sessionByHash s r.tokenHash now idleTimeout).isSome ↔
      r.Valid s now ∧ r.idleFor now < idleSeconds idleTimeout * 1000000000 := by
  rw [← sessionMatches_self_iff]
  constructor
  · intro h
    obtain ⟨⟨s', accepted⟩, hstatement⟩ := Option.isSome_iff_exists.mp h
    obtain ⟨_, r', hr', hmatches, _⟩ := Repository.sessionByHash_eq_some hstatement
    rwa [eq_of_sessionMatches hr hr' hmatches] at hmatches
  · intro hmatches
    obtain ⟨s', accepted, hstatement, _⟩ := sessionByHash_isSome hr hmatches
    rw [hstatement]
    rfl

/-- Where the seconds of the statement are the timeout, it is enforced. -/
theorem idleEnforced_of_seconds
    (h : idleSeconds idleTimeout * 1000000000 = idleTimeout.toInt) : IdleEnforced idleTimeout := by
  intro s r now hr
  constructor
  · intro hidle
    rw [← Option.isNone_iff_eq_none, ← Option.not_isSome, Bool.not_eq_true',
      ← Bool.not_eq_true, sessionByHash_isSome_iff hr]
    rintro ⟨_, hlt⟩
    omega
  · intro hidle hvalid
    exact sessionByHash_isSome hr (sessionMatches_self_iff.mpr ⟨hvalid, by omega⟩)

end statement

/-- One session of the sample user, seen at time 0. -/
def idleRow (expiresAt : ℤ) : SessionRow where
  id := 1
  userID := 1
  tokenHash := List.replicate 32 0
  expiresAt := expiresAt
  lastSeenAt := 0
  createdAt := 0
  revokedAt := none

def idleStore (expiresAt : ℤ) : AuthStore where
  users := sampleUsers
  sessions := ⟨[idleRow expiresAt], List.forall_mem_singleton.mpr List.length_replicate,
    List.pairwise_singleton _ _⟩

theorem idleRow_valid {now : ℤ} (h : 0 ≤ now) :
    (idleRow (now + 1)).Valid (idleStore (now + 1)) now := by
  refine ⟨rfl, ?_, sampleUser, rfl, rfl⟩
  change now < (now + 1) * 1000
  omega

theorem idleSeconds_pos (idleTimeout : Duration) : 0 < idleSeconds idleTimeout := by
  unfold idleSeconds
  split_ifs <;> omega

/-- Otherwise a session shows the difference. -/
theorem not_idleEnforced {idleTimeout : Duration} (hpos : 0 < idleTimeout.toInt)
    (h : idleSeconds idleTimeout * 1000000000 ≠ idleTimeout.toInt) : ¬IdleEnforced idleTimeout := by
  intro henforced
  have hseconds := idleSeconds_pos idleTimeout
  rcases lt_or_gt_of_ne h with hlt | hgt
  · -- rejected although the timeout has not passed
    let now := idleSeconds idleTimeout * 1000000000
    have hrow : idleRow (now + 1) ∈ (idleStore (now + 1)).sessions.rows := List.mem_cons_self
    have hidle : (idleRow (now + 1)).idleFor now = now := Int.sub_zero now
    obtain ⟨s', accepted, hstatement, _⟩ := (henforced _ _ now hrow).2 (by omega)
      (idleRow_valid (by omega))
    have hsome := (sessionByHash_isSome_iff hrow).mp (by rw [hstatement]; rfl)
    omega
  · -- accepted although it has
    let now := idleTimeout.toInt
    have hrow : idleRow (now + 1) ∈ (idleStore (now + 1)).sessions.rows := List.mem_cons_self
    have hidle : (idleRow (now + 1)).idleFor now = now := Int.sub_zero now
    have hnone := (henforced _ _ now hrow).1 (by omega)
    have hsome : (Repository.sessionByHash (idleStore (now + 1)) (idleRow (now + 1)).tokenHash now
        idleTimeout).isSome :=
      (sessionByHash_isSome_iff hrow).mpr ⟨idleRow_valid hpos.le, by omega⟩
    rw [hnone] at hsome
    cases hsome

theorem idleSeconds_eq_iff {idleTimeout : Duration} (hpos : 0 < idleTimeout.toInt) :
    idleSeconds idleTimeout * 1000000000 = idleTimeout.toInt ↔
      idleTimeout.toInt % 1000000000 = 0 := by
  constructor
  · intro h
    omega
  · intro h
    have hwhole : idleTimeout.toInt = idleTimeout.toInt / 1000000000 * 1000000000 := by omega
    have hseconds := Duration.int64Seconds_of_whole (by omega) hwhole
    rw [idleSeconds, hseconds, if_neg (by omega)]
    omega

/-- The idle timeout is enforced exactly if it is a whole number of seconds. -/
theorem idle_enforced_iff {idleTimeout : Duration} (hpos : 0 < idleTimeout.toInt) :
    IdleEnforced idleTimeout ↔ idleTimeout.toInt % 1000000000 = 0 := by
  rw [← idleSeconds_eq_iff hpos]
  exact ⟨not_imp_not.mp (not_idleEnforced hpos), idleEnforced_of_seconds⟩

theorem idle_enforced_iff_sample :
    IdleEnforced (1800 * Duration.second) ↔ (1800 * Duration.second).toInt % 1000000000 = 0 :=
  idle_enforced_iff (by decide)

/-- Half a second loads, and a session that was last seen an hour ago is accepted. -/
theorem half_second_is_a_year :
    ({ Delivery.sampleConfig with sessionIdleTimeout := 500000000 } : Config).Accepted
        (fun _ => none) id ∧
      (Repository.sessionByHash (idleStore 3600000001) (idleRow 3600000001).tokenHash
        3600000000000 500000000).isSome = true ∧
      ¬IdleEnforced 500000000 := by
  refine ⟨by decide, by decide +kernel, ?_⟩
  exact not_idleEnforced (by decide) (by decide +kernel)

end SecureShare.Auth
