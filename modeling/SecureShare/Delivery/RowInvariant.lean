import SecureShare.Delivery.Create

/-!
# The representation invariant

Which columns of a delivery are set in which status. The constraints of the
schema state only the directions that a CHECK can see in one row; here every
statement is shown to keep both directions, and what a row holds is related to
what was inserted.
-/
namespace SecureShare.Delivery
open Go

/-- How a row relates to the row `origin` that was inserted. -/
structure Represents (origin r : Row) : Prop where
  startedAt : r.consumingStartedAt ≠ none ↔ r.status = .consuming
  leaseID : r.consumingLeaseID ≠ none ↔ r.status = .consuming
  consumedAt : r.consumedAt ≠ none ↔ r.status = .consumed
  revokedAt : r.revokedAt ≠ none ↔ r.status = .revoked
  live : r.status = .active ∨ r.status = .consuming →
    r.encryptedPayload = origin.encryptedPayload ∧ r.failedAttempts < r.maxFailedAttempts
  delivered : r.status = .consumed ∨ r.status = .revoked → r.encryptedPayload = []
  expired : r.status = .expired →
    r.encryptedPayload = origin.encryptedPayload ∨ r.encryptedPayload = []
  failedAttempts : 0 ≤ r.failedAttempts ∧ r.failedAttempts ≤ r.maxFailedAttempts
  exhausted : r.failedAttempts = r.maxFailedAttempts → r.status = .revoked
  unassigned : Statement.Unassigned origin r

theorem represents_row {p : InsertParams} (now : ℤ) (h : 0 < p.maxFailedAttempts) :
    Represents (p.row now) (p.row now) where
  startedAt := by simp [InsertParams.row]
  leaseID := by simp [InsertParams.row]
  consumedAt := by simp [InsertParams.row]
  revokedAt := by simp [InsertParams.row]
  live := fun _ => ⟨rfl, h⟩
  delivered := by simp [InsertParams.row]
  expired := fun _ => .inl rfl
  failedAttempts := ⟨le_rfl, h.le⟩
  exhausted := fun heq => absurd heq h.ne
  unassigned := .refl _

namespace Represents

variable {origin r : Row}

theorem consumedAt_eq_none (h : Represents origin r) (hs : r.status ≠ .consumed) :
    r.consumedAt = none := by
  by_contra hne
  exact hs (h.consumedAt.mp hne)

theorem revokedAt_eq_none (h : Represents origin r) (hs : r.status ≠ .revoked) :
    r.revokedAt = none := by
  by_contra hne
  exact hs (h.revokedAt.mp hne)

theorem not_consuming (h : Represents origin r) (hs : r.status ≠ .consuming) :
    r.consumingStartedAt = none ∧ r.consumingLeaseID = none := by
  constructor
  · by_contra hne
    exact hs (h.startedAt.mp hne)
  · by_contra hne
    exact hs (h.leaseID.mp hne)

end Represents

/-- Only retention matches a row in a terminal status. -/
theorem Statement.guard_status {now : ℤ} {s : Statement} {r : Row} (h : s.Guard now r) :
    (r.status = .active ∨ r.status = .consuming) ∨
      ∃ consumed expired revoked, s = .blankRetained consumed expired revoked ∧
        r.status.terminal = true := by
  cases s with
  | beginConsume | recordPasswordFailure => exact .inl (h.2.2.2.2.imp_right And.left)
  | updatePasswordProtection => exact .inl (.inl h.2.1)
  | restoreConsume | completeConsume => exact .inl (.inr h.2.1)
  | revoke => exact .inl h.2
  | expireActive => exact .inl (.inl h.1)
  | restoreStale => exact .inl (.inr h.1)
  | blankRetained =>
      refine .inr ⟨_, _, _, rfl, ?_⟩
      rcases h.2 with ⟨hs, _⟩ | ⟨hs, _⟩ | ⟨hs, _⟩ <;> rw [hs] <;> rfl

/-- Every statement keeps the invariant on a row that it matches. -/
theorem Represents.set {origin r : Row} {now : ℤ} {s : Statement}
    (h : Represents origin r) (guard : s.Guard now r) : Represents origin (s.set now r) := by
  have hun := h.unassigned.trans (Statement.set_unassigned now s r)
  obtain ⟨hmin, hmax⟩ := h.failedAttempts
  rcases Statement.guard_status guard with hlive | ⟨_, _, _, rfl, hterminal⟩
  · obtain ⟨hpayload, hfailed⟩ := h.live hlive
    have hconsumed : r.consumedAt = none :=
      h.consumedAt_eq_none (by rcases hlive with hs | hs <;> simp [hs])
    have hrevoked : r.revokedAt = none :=
      h.revokedAt_eq_none (by rcases hlive with hs | hs <;> simp [hs])
    cases s with
    | beginConsume | restoreConsume | restoreStale =>
        exact ⟨by simp [Statement.set], by simp [Statement.set],
          by simp [Statement.set, hconsumed], by simp [Statement.set, hrevoked],
          fun _ => ⟨hpayload, hfailed⟩, by simp [Statement.set], by simp [Statement.set],
          ⟨hmin, hmax⟩, fun heq => absurd heq hfailed.ne, hun⟩
    | completeConsume =>
        exact ⟨by simp [Statement.set], by simp [Statement.set], by simp [Statement.set],
          by simp [Statement.set, hrevoked], by simp [Statement.set], fun _ => rfl,
          fun _ => .inr rfl, ⟨hmin, hmax⟩, fun heq => absurd heq hfailed.ne, hun⟩
    | revoke =>
        exact ⟨by simp [Statement.set], by simp [Statement.set],
          by simp [Statement.set, hconsumed], by simp [Statement.set], by simp [Statement.set],
          fun _ => rfl, fun _ => .inr rfl, ⟨hmin, hmax⟩, fun _ => rfl, hun⟩
    | expireActive =>
        have hnone := h.not_consuming (by rw [guard.1]; decide)
        exact ⟨by simp [Statement.set, hnone], by simp [Statement.set, hnone],
          by simp [Statement.set, hconsumed], by simp [Statement.set, hrevoked],
          by simp [Statement.set], by simp [Statement.set], fun _ => .inl hpayload,
          ⟨hmin, hmax⟩, fun heq => absurd heq hfailed.ne, hun⟩
    | updatePasswordProtection =>
        have hpos : 0 < r.maxFailedAttempts := hmin.trans_lt hfailed
        exact ⟨h.startedAt, h.leaseID, h.consumedAt, h.revokedAt, fun _ => ⟨hpayload, hpos⟩,
          h.delivered, h.expired, ⟨le_rfl, hpos.le⟩, fun heq => absurd heq hpos.ne, hun⟩
    | recordPasswordFailure =>
        by_cases hlast : r.LastAttempt
        · have heq : r.failedAttempts + 1 = r.maxFailedAttempts := by
            unfold Row.LastAttempt at hlast
            omega
          exact ⟨by simp [Statement.set, hlast], by simp [Statement.set, hlast],
            by simp [Statement.set, hlast, hconsumed], by simp [Statement.set, hlast],
            by simp [Statement.set, hlast], by simp [Statement.set, hlast],
            by simp [Statement.set, hlast], ⟨add_nonneg hmin (by norm_num), heq.le⟩,
            by simp [Statement.set, hlast], hun⟩
        · have hlt : r.failedAttempts + 1 < r.maxFailedAttempts := by
            unfold Row.LastAttempt at hlast
            omega
          exact ⟨by simp [Statement.set, hlast], by simp [Statement.set, hlast],
            by simp [Statement.set, hlast, hconsumed], by simp [Statement.set, hlast, hrevoked],
            by simpa [Statement.set, hlast] using ⟨hpayload, hlt⟩,
            by simp [Statement.set, hlast], by simp [Statement.set, hlast],
            ⟨add_nonneg hmin (by norm_num), hlt.le⟩, fun heq => absurd heq hlt.ne, hun⟩
    | blankRetained =>
        rcases guard.2 with ⟨hs, _⟩ | ⟨hs, _⟩ | ⟨hs, _⟩ <;> simp [hs] at hlive
  · have hdead : ¬(r.status = .active ∨ r.status = .consuming) := by
      rintro (hs | hs) <;> rw [hs] at hterminal <;> cases hterminal
    exact ⟨h.startedAt, h.leaseID, h.consumedAt, h.revokedAt, fun hlive => absurd hlive hdead,
      fun _ => rfl, fun _ => .inr rfl, ⟨hmin, hmax⟩, h.exhausted, hun⟩

theorem Represents.exec {origin r : Row} (now : ℤ) (s : Statement)
    (h : Represents origin r) : Represents origin (s.exec now r) :=
  Statement.exec_cases h fun guard => h.set guard

theorem Represents.execAll {origin r : Row} (h : Represents origin r)
    (ops : List (ℤ × Operation)) : Represents origin (Operation.execAll r ops) :=
  Operation.execAll_preserves (P := Represents origin) (fun now s _ h => h.exec now s) h ops

/-- A row inserted for an accepted request, after any calls at any times. -/
theorem represents_of_insertParams {deps : Dependencies} {cfg : Config} {inputs : CreateInputs}
    {actorID : Text} {req : CreateRequest} {params : InsertParams} {token : Text}
    (h : insertParams deps cfg inputs actorID req = .ok (params, token)) (created : ℤ)
    (ops : List (ℤ × Operation)) :
    Represents (params.row created) (Operation.execAll (params.row created) ops) := by
  obtain ⟨p, haccepts⟩ := insertParams_spec h
  exact (represents_row created haccepts.maxFailedAttempts_pos.1).execAll ops

/-- The representation invariant of `secret_deliveries`. -/
theorem secret_deliveries_representation {deps : Dependencies} {cfg : Config}
    {inputs : CreateInputs} {actorID : Text} {req : CreateRequest} {params : InsertParams}
    {token : Text} (h : insertParams deps cfg inputs actorID req = .ok (params, token))
    (created : ℤ) (ops : List (ℤ × Operation)) :
    Represents (params.row created) (Operation.execAll (params.row created) ops) :=
  represents_of_insertParams h created ops

theorem secret_deliveries_representation_sample :
    Represents (sampleParams.row 0) (Operation.execAll (sampleParams.row 0)
      [(10, .beginConsume sampleParams.tokenHash none 1 sampleConfig.consumingLeaseTTL),
        (20, .completeConsume 7 1)]) :=
  secret_deliveries_representation insertParams_sample 0 _

end SecureShare.Delivery
