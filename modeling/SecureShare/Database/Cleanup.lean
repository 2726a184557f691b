import SecureShare.Delivery.Retention
import SecureShare.Http.Audit

/-!
# Cleanup

The transaction that every worker runs: three updates of the deliveries, which feed each
other, and the deletion of old audit rows. A second run at the same time finds nothing to
do, and no run takes anything from a delivery that can still be read.
-/
namespace SecureShare.Database
open Go
open Delivery (Row Statement Operation UUID)
open Http (AuditEvent)

/-- The rows that cleanup is about. -/
structure CleanupRows where
  links : Delivery.Table
  audit : List AuditEvent

/-- `CleanupResult` -/
structure CleanupCounts where
  expired : ℕ
  payloadsCleared : ℕ
  leasesRestored : ℕ
  auditDeleted : ℕ
  deriving DecidableEq, Repr

/-- What `Repository.Cleanup` is called with. -/
structure CleanupParams where
  consumedRetention : Duration
  expiredRetention : Duration
  revokedRetention : Duration
  leaseTTL : Duration
  auditRetention : Duration

namespace CleanupParams
variable (p : CleanupParams) (now : ℤ)

def restoreStale : Statement := .restoreStale p.leaseTTL.int64Seconds

def blankRetained : Statement :=
  .blankRetained p.consumedRetention.int64Seconds p.expiredRetention.int64Seconds
    p.revokedRetention.int64Seconds

/-- The condition of the DELETE. -/
def Old (e : AuditEvent) : Prop := e.occurredAt ≤ now - Row.interval p.auditRetention.int64Seconds

instance (e : AuditEvent) : Decidable (p.Old now e) := by
  unfold Old
  infer_instance

/-- `Repository.Cleanup`, once it is committed. -/
def cleanup (s : CleanupRows) : CleanupRows × CleanupCounts :=
  let expired := Delivery.Repository.cleanupStatement s.links now .expireActive
  let restored := Delivery.Repository.cleanupStatement expired.1 now p.restoreStale
  let cleared := Delivery.Repository.cleanupStatement restored.1 now p.blankRetained
  (⟨cleared.1, s.audit.filter fun e => ¬p.Old now e⟩,
    ⟨expired.2, cleared.2, restored.2, s.audit.countP fun e => p.Old now e⟩)

/-- What becomes of a delivery. -/
def row (r : Row) : Row :=
  (Operation.cleanup p.consumedRetention p.expiredRetention p.revokedRetention p.leaseTTL).exec now r

end CleanupParams

section row
variable {p : CleanupParams} {now : ℤ} {r : Row}

/-- None of the statements matches the row. -/
structure Clean (p : CleanupParams) (now : ℤ) (r : Row) : Prop where
  expire : ¬Statement.expireActive.Guard now r
  restore : ¬p.restoreStale.Guard now r
  blank : ¬p.blankRetained.Guard now r

theorem not_guard_of_expired (r : Row) :
    ¬Statement.expireActive.Guard now (Statement.expireActive.exec now r) := by
  by_cases h : Statement.expireActive.Guard now r
  · rw [Statement.exec_of_guard h]
    rintro ⟨hactive, _⟩
    cases hactive
  · rwa [Statement.exec_of_not_guard h]

/-- A lease is given back only before the delivery expires. -/
theorem not_guard_of_restored (hexpire : ¬Statement.expireActive.Guard now r) :
    ¬Statement.expireActive.Guard now (p.restoreStale.exec now r) ∧
      ¬p.restoreStale.Guard now (p.restoreStale.exec now r) := by
  by_cases h : p.restoreStale.Guard now r
  · rw [Statement.exec_of_guard h]
    have hexpires : now < r.expiresAt := h.2.2
    constructor
    · rintro ⟨_, hle⟩
      exact absurd hle (Int.not_le.mpr hexpires)
    · rintro ⟨hconsuming, _⟩
      cases hconsuming
  · rw [Statement.exec_of_not_guard h]
    exact ⟨hexpire, h⟩

/-- Clearing a payload changes nothing that the other two look at. -/
theorem clean_of_cleared (hexpire : ¬Statement.expireActive.Guard now r)
    (hrestore : ¬p.restoreStale.Guard now r) : Clean p now (p.blankRetained.exec now r) := by
  by_cases h : p.blankRetained.Guard now r
  · rw [Statement.exec_of_guard h]
    exact ⟨hexpire, hrestore, fun hblank => hblank.1 rfl⟩
  · rw [Statement.exec_of_not_guard h]
    exact ⟨hexpire, hrestore, h⟩

theorem clean_row (p : CleanupParams) (now : ℤ) (r : Row) : Clean p now (p.row now r) := by
  obtain ⟨hexpire, hrestore⟩ := not_guard_of_restored (p := p) (not_guard_of_expired r)
  exact clean_of_cleared hexpire hrestore

/-- What a run keeps of a delivery: the secret of one that can be read, the lease of a reader
that is not late, and the end of one that has come to it. -/
structure CleanupKeeps (leaseSeconds now : ℤ) (r r' : Row) : Prop where
  readable : r.status = .active ∨ r.status = .consuming → now < r.expiresAt →
    r'.encryptedPayload = r.encryptedPayload ∧ r'.passwordHash = r.passwordHash ∧
      r'.failedAttempts = r.failedAttempts ∧ r'.maxFailedAttempts = r.maxFailedAttempts ∧
      r'.expiresAt = r.expiresAt ∧ (r'.status = .active ∨ r'.status = .consuming)
  lease : (∀ started ∈ r.consumingStartedAt, now - started ≤ Row.interval leaseSeconds) →
    r'.consumingLeaseID = r.consumingLeaseID ∧ r'.consumingStartedAt = r.consumingStartedAt ∧
      (r.status = .consuming → r'.status = .consuming)
  ended : r.status.terminal = true → r'.status = r.status

theorem keeps_expired (h : r.status = .active) (hexpires : r.expiresAt ≤ now) (n : ℤ) :
    CleanupKeeps n now r (Statement.expireActive.set now r) where
  readable := fun _ hlt => absurd hexpires (Int.not_le.mpr hlt)
  lease := fun _ => ⟨rfl, rfl, fun hconsuming => by rw [h] at hconsuming; cases hconsuming⟩
  ended := fun hended => by rw [h] at hended; cases hended

theorem keeps_restored (h : p.restoreStale.Guard now r) :
    CleanupKeeps p.leaseTTL.int64Seconds now r (p.restoreStale.set now r) where
  readable := fun _ _ => ⟨rfl, rfl, rfl, rfl, rfl, .inl rfl⟩
  lease := by
    intro hyoung
    obtain ⟨_, ⟨started, hstarted, hstale⟩, _⟩ := h
    have := hyoung started hstarted
    omega
  ended := fun hended => by rw [h.1] at hended; cases hended

theorem keeps_cleared (h : p.blankRetained.Guard now r) (n : ℤ) :
    CleanupKeeps n now r (p.blankRetained.set now r) where
  readable := by
    intro hlive
    rcases h.2 with ⟨hs, _⟩ | ⟨hs, _⟩ | ⟨hs, _⟩ <;> simp [hs] at hlive
  lease := fun _ => ⟨rfl, rfl, id⟩
  ended := fun _ => rfl

theorem CleanupKeeps.refl (n : ℤ) (r : Row) : CleanupKeeps n now r r where
  readable := fun hlive _ => ⟨rfl, rfl, rfl, rfl, rfl, hlive⟩
  lease := fun _ => ⟨rfl, rfl, id⟩
  ended := fun _ => rfl

theorem CleanupKeeps.trans {n : ℤ} {r r' r'' : Row} (h : CleanupKeeps n now r r')
    (h' : CleanupKeeps n now r' r'') : CleanupKeeps n now r r'' where
  readable := by
    intro hlive hexpires
    obtain ⟨hpayload, hpassword, hfailed, hmax, hexpiry, hlive'⟩ := h.readable hlive hexpires
    obtain ⟨hpayload', hpassword', hfailed', hmax', hexpiry', hlive''⟩ :=
      h'.readable hlive' (hexpiry ▸ hexpires)
    exact ⟨hpayload'.trans hpayload, hpassword'.trans hpassword, hfailed'.trans hfailed,
      hmax'.trans hmax, hexpiry'.trans hexpiry, hlive''⟩
  lease := by
    intro hyoung
    obtain ⟨hlease, hstarted, hconsuming⟩ := h.lease hyoung
    obtain ⟨hlease', hstarted', hconsuming'⟩ := h'.lease (hstarted ▸ hyoung)
    exact ⟨hlease'.trans hlease, hstarted'.trans hstarted, fun hs => hconsuming' (hconsuming hs)⟩
  ended := by
    intro hended
    have hsame := h.ended hended
    exact (h'.ended (hsame ▸ hended)).trans hsame

theorem keeps_row (p : CleanupParams) (now : ℤ) (r : Row) :
    CleanupKeeps p.leaseTTL.int64Seconds now r (p.row now r) := by
  have hexpire (r : Row) : CleanupKeeps p.leaseTTL.int64Seconds now r
      (Statement.expireActive.exec now r) :=
    Statement.exec_cases (.refl _ r) fun h => keeps_expired h.1 h.2 _
  have hrestore (r : Row) : CleanupKeeps p.leaseTTL.int64Seconds now r (p.restoreStale.exec now r) :=
    Statement.exec_cases (.refl _ r) fun h => keeps_restored h
  have hclear (r : Row) : CleanupKeeps p.leaseTTL.int64Seconds now r (p.blankRetained.exec now r) :=
    Statement.exec_cases (.refl _ r) fun h => keeps_cleared h _
  exact (hexpire r).trans ((hrestore _).trans (hclear _))

end row

section table
variable {p : CleanupParams} {now : ℤ} {s : CleanupRows}

theorem cleanup_links (p : CleanupParams) (now : ℤ) (s : CleanupRows) :
    (p.cleanup now s).1.links.rows = s.links.rows.map (p.row now) := by
  simp only [CleanupParams.cleanup, Delivery.Repository.cleanupStatement, Delivery.Table.exec,
    List.map_map]
  rfl

theorem find_cleanup {d : UUID} {r : Row} (hr : s.links.find d = some r) :
    (p.cleanup now s).1.links.find d = some (p.row now r) := by
  simp only [CleanupParams.cleanup, Delivery.Repository.cleanupStatement, Delivery.Table.find_exec,
    hr, Option.map_some]
  rfl

/-- Rows that no statement matches. -/
structure CleanRows (p : CleanupParams) (now : ℤ) (s : CleanupRows) : Prop where
  links : ∀ r ∈ s.links.rows, Clean p now r
  audit : ∀ e ∈ s.audit, ¬p.Old now e

theorem cleanRows_cleanup (p : CleanupParams) (now : ℤ) (s : CleanupRows) :
    CleanRows p now (p.cleanup now s).1 where
  links := by
    intro r hr
    rw [cleanup_links] at hr
    obtain ⟨r', _, rfl⟩ := List.mem_map.mp hr
    exact clean_row p now r'
  audit := by
    intro e he
    simpa using (List.mem_filter.mp he).2

theorem cleanupStatement_of_unmatched {t : Delivery.Table} {stmt : Statement}
    (h : ∀ r ∈ t.rows, ¬stmt.Guard now r) :
    Delivery.Repository.cleanupStatement t now stmt = (t, 0) := by
  rw [Delivery.Repository.cleanupStatement, Delivery.Table.exec_eq_self h,
    Delivery.Table.rowsAffected, List.countP_eq_zero.mpr (by simpa using h)]

/-- There is nothing left to do. -/
theorem CleanRows.cleanup_eq (h : CleanRows p now s) : p.cleanup now s = (s, ⟨0, 0, 0, 0⟩) := by
  have hexpire := cleanupStatement_of_unmatched fun r hr => (h.links r hr).expire
  have hrestore := cleanupStatement_of_unmatched fun r hr => (h.links r hr).restore
  have hclear := cleanupStatement_of_unmatched fun r hr => (h.links r hr).blank
  have hfilter : s.audit.filter (fun e => ¬p.Old now e) = s.audit :=
    List.filter_eq_self.mpr (by simpa using h.audit)
  have hcount : s.audit.countP (fun e => p.Old now e) = 0 :=
    List.countP_eq_zero.mpr (by simpa using h.audit)
  simp only [CleanupParams.cleanup, hexpire, hrestore, hclear, hfilter, hcount]

/-- The rows after so many runs at the same time. -/
def cleanupTimes (p : CleanupParams) (now : ℤ) (s : CleanupRows) : ℕ → CleanupRows
  | 0 => s
  | n + 1 => (p.cleanup now (cleanupTimes p now s n)).1

/-- Every further run at the same time leaves the rows of the first one and counts none, and
each run keeps what it has to keep. -/
theorem cleanup_idempotent (p : CleanupParams) (now : ℤ) (s : CleanupRows) :
    (∀ n, cleanupTimes p now s (n + 1) = (p.cleanup now s).1 ∧
      (p.cleanup now (cleanupTimes p now s (n + 1))).2 = ⟨0, 0, 0, 0⟩) ∧
    ∀ d r, s.links.find d = some r → ∃ r', (p.cleanup now s).1.links.find d = some r' ∧
      CleanupKeeps p.leaseTTL.int64Seconds now r r' := by
  have hsecond := (cleanRows_cleanup p now s).cleanup_eq
  constructor
  · intro n
    have hrows : cleanupTimes p now s (n + 1) = (p.cleanup now s).1 := by
      induction n with
      | zero => rfl
      | succ n ih => rw [cleanupTimes, ih, hsecond]
    rw [hrows, hsecond]
    exact ⟨rfl, rfl⟩
  · intro d r hr
    exact ⟨_, find_cleanup hr, keeps_row p now r⟩

end table
end SecureShare.Database
