import SecureShare.Delivery.Model

/-!
# The statements of the repository

A row of `secret_deliveries`, the constraints of the schema, and every UPDATE of
the repository as a guard (its WHERE clause) and an assignment (its SET clause).
`NOW()` is the start of the transaction. A comparison with NULL is not true, and
`make_interval` takes whole seconds.
-/
namespace SecureShare.Delivery
open Go

structure Row where
  id : UUID
  tokenHash : Bytes
  encryptedPayload : Text
  title : Option Text
  description : Option Text
  recipientReference : Option Text
  status : Status
  expiresAt : ℤ
  consumedAt : Option ℤ
  revokedAt : Option ℤ
  consumingStartedAt : Option ℤ
  consumingLeaseID : Option UUID
  passwordHash : Option Text
  failedAttempts : ℤ
  maxFailedAttempts : ℤ
  createdBy : Text
  createdAt : ℤ
  updatedAt : ℤ
  payloadType : Text
  payloadFieldCount : ℕ
  payloadContainsSensitive : Bool
  deriving DecidableEq, Repr

/-- A `varchar(n)` or length-checked text; PostgreSQL stores no zero character. -/
def storable (limit : ℕ) (s : Text) : Prop := s.length ≤ limit ∧ '\u0000' ∉ s

instance (limit : ℕ) (s : Text) : Decidable (storable limit s) := by
  unfold storable
  infer_instance

namespace Row

/-- The column types and CHECK constraints of the schema. -/
def Checks (r : Row) : Prop :=
  r.tokenHash.length = 32 ∧
  (∀ s ∈ r.title, storable 255 s) ∧ (∀ s ∈ r.description, storable 2000 s) ∧
  (∀ s ∈ r.recipientReference, storable 255 s) ∧ storable 255 r.createdBy ∧
  0 ≤ r.failedAttempts ∧ 1 ≤ r.maxFailedAttempts ∧ r.maxFailedAttempts ≤ 20 ∧
  r.payloadType ∈ ["structured".toList, "text".toList, "json".toList] ∧
  (r.status = .consumed → r.consumedAt ≠ none) ∧
  (r.status = .revoked → r.revokedAt ≠ none) ∧
  (r.status = .consuming → r.consumingStartedAt ≠ none ∧ r.consumingLeaseID ≠ none)

instance (r : Row) : Decidable r.Checks := by
  unfold Checks
  infer_instance

/-- `make_interval(secs => n)` -/
def interval (seconds : ℤ) : ℤ := seconds * 1000000

/-- `consuming_started_at < NOW() - make_interval(secs => n)` -/
def LeaseStale (leaseSeconds : ℤ) (now : ℤ) (r : Row) : Prop :=
  ∃ started ∈ r.consumingStartedAt, started < now - interval leaseSeconds

/-- The condition that looking up, leasing and counting a failure share. -/
def Available (leaseSeconds : ℤ) (now : ℤ) (r : Row) : Prop :=
  now < r.expiresAt ∧ r.failedAttempts < r.maxFailedAttempts ∧
    (r.status = .active ∨ r.status = .consuming ∧ r.LeaseStale leaseSeconds now)

instance (leaseSeconds : ℤ) (now : ℤ) (r : Row) :
    Decidable (r.LeaseStale leaseSeconds now) := by
  unfold LeaseStale
  infer_instance

instance (leaseSeconds : ℤ) (now : ℤ) (r : Row) :
    Decidable (r.Available leaseSeconds now) := by
  unfold Available
  infer_instance

/-- The password failure that is about to be counted is the last one allowed. -/
def LastAttempt (r : Row) : Prop := r.maxFailedAttempts ≤ r.failedAttempts + 1

instance (r : Row) : Decidable r.LastAttempt := by
  unfold LastAttempt
  infer_instance

end Row

/-- Every UPDATE of the repository with its parameters. The last three are the
statements of `Cleanup`. -/
inductive Statement where
  | beginConsume (tokenHash : Bytes) (expectedPasswordHash : Option Text) (leaseID : UUID)
      (leaseSeconds : ℤ)
  | recordPasswordFailure (tokenHash : Bytes) (expectedPasswordHash : Text) (leaseSeconds : ℤ)
  | updatePasswordProtection (id : UUID) (passwordHash : Option Text)
  | restoreConsume (id leaseID : UUID)
  | completeConsume (id leaseID : UUID)
  | revoke (id : UUID)
  | expireActive
  | restoreStale (leaseSeconds : ℤ)
  | blankRetained (consumedSeconds expiredSeconds revokedSeconds : ℤ)
  deriving DecidableEq, Repr

namespace Statement

def Guard (now : ℤ) (r : Row) : Statement → Prop
  | .beginConsume tokenHash expectedPasswordHash _ leaseSeconds =>
    r.tokenHash = tokenHash ∧ r.passwordHash = expectedPasswordHash ∧ r.Available leaseSeconds now
  | .recordPasswordFailure tokenHash expectedPasswordHash leaseSeconds =>
    r.tokenHash = tokenHash ∧ r.passwordHash = some expectedPasswordHash ∧
      r.Available leaseSeconds now
  | .updatePasswordProtection id _ => r.id = id ∧ r.status = .active ∧ now < r.expiresAt
  | .restoreConsume id leaseID =>
    r.id = id ∧ r.status = .consuming ∧ r.consumingLeaseID = some leaseID
  | .completeConsume id leaseID =>
    r.id = id ∧ r.status = .consuming ∧ r.consumingLeaseID = some leaseID
  | .revoke id => r.id = id ∧ (r.status = .active ∨ r.status = .consuming)
  | .expireActive => r.status = .active ∧ r.expiresAt ≤ now
  | .restoreStale leaseSeconds =>
    r.status = .consuming ∧ r.LeaseStale leaseSeconds now ∧ now < r.expiresAt
  | .blankRetained consumedSeconds expiredSeconds revokedSeconds =>
    r.encryptedPayload ≠ [] ∧
      (r.status = .consumed ∧ (∃ at' ∈ r.consumedAt, at' ≤ now - Row.interval consumedSeconds) ∨
        r.status = .expired ∧ r.updatedAt ≤ now - Row.interval expiredSeconds ∨
        r.status = .revoked ∧ ∃ at' ∈ r.revokedAt, at' ≤ now - Row.interval revokedSeconds)

def set (now : ℤ) (r : Row) : Statement → Row
  | .beginConsume _ _ leaseID _ =>
    { r with
      status := .consuming
      consumingStartedAt := some now
      consumingLeaseID := some leaseID
      updatedAt := now }
  | .recordPasswordFailure _ _ _ =>
    { r with
      failedAttempts := r.failedAttempts + 1
      status := if r.LastAttempt then .revoked else .active
      revokedAt := if r.LastAttempt then some now else r.revokedAt
      encryptedPayload := if r.LastAttempt then [] else r.encryptedPayload
      consumingStartedAt := none
      consumingLeaseID := none
      updatedAt := now }
  | .updatePasswordProtection _ passwordHash =>
    { r with passwordHash := passwordHash, failedAttempts := 0, updatedAt := now }
  | .restoreConsume _ _ =>
    { r with
      status := .active
      consumingStartedAt := none
      consumingLeaseID := none
      updatedAt := now }
  | .completeConsume _ _ =>
    { r with
      status := .consumed
      consumedAt := some now
      encryptedPayload := []
      consumingStartedAt := none
      consumingLeaseID := none
      updatedAt := now }
  | .revoke _ =>
    { r with
      status := .revoked
      revokedAt := some now
      encryptedPayload := []
      consumingStartedAt := none
      consumingLeaseID := none
      updatedAt := now }
  | .expireActive => { r with status := .expired, updatedAt := now }
  | .restoreStale _ =>
    { r with
      status := .active
      consumingStartedAt := none
      consumingLeaseID := none
      updatedAt := now }
  | .blankRetained _ _ _ => { r with encryptedPayload := [], updatedAt := now }

instance (now : ℤ) (r : Row) (s : Statement) : Decidable (s.Guard now r) :=
  match s with
  | .beginConsume _ _ _ _ => inferInstanceAs (Decidable (_ ∧ _ ∧ _))
  | .recordPasswordFailure _ _ _ => inferInstanceAs (Decidable (_ ∧ _ ∧ _))
  | .updatePasswordProtection _ _ => inferInstanceAs (Decidable (_ ∧ _ ∧ _))
  | .restoreConsume _ _ => inferInstanceAs (Decidable (_ ∧ _ ∧ _))
  | .completeConsume _ _ => inferInstanceAs (Decidable (_ ∧ _ ∧ _))
  | .revoke _ => inferInstanceAs (Decidable (_ ∧ _))
  | .expireActive => inferInstanceAs (Decidable (_ ∧ _))
  | .restoreStale _ => inferInstanceAs (Decidable (_ ∧ _ ∧ _))
  | .blankRetained _ _ _ => inferInstanceAs (Decidable (_ ∧ _))

/-- What a statement does to one row. -/
def exec (now : ℤ) (s : Statement) (r : Row) : Row :=
  if s.Guard now r then s.set now r else r

theorem exec_of_guard {now : ℤ} {s : Statement} {r : Row} (h : s.Guard now r) :
    s.exec now r = s.set now r := if_pos h

theorem exec_of_not_guard {now : ℤ} {s : Statement} {r : Row} (h : ¬s.Guard now r) :
    s.exec now r = r := if_neg h

/-- Either the row is not matched and stays as it is, or it is assigned. -/
theorem exec_cases {P : Row → Prop} {now : ℤ} {s : Statement} {r : Row} (stay : P r)
    (assigned : s.Guard now r → P (s.set now r)) : P (s.exec now r) := by
  by_cases h : s.Guard now r
  · rw [exec_of_guard h]
    exact assigned h
  · rw [exec_of_not_guard h]
    exact stay

theorem set_checks {now : ℤ} {s : Statement} {r : Row} (guard : s.Guard now r)
    (h : r.Checks) : (s.set now r).Checks := by
  obtain ⟨htoken, htitle, hdescription, hreference, hcreator, hfailed, hmin, hmax, htype,
    hconsumed, hrevoked, hconsuming⟩ := h
  cases s with
  | beginConsume | completeConsume | revoke | restoreConsume | restoreStale | expireActive =>
      refine ⟨htoken, htitle, hdescription, hreference, hcreator, hfailed, hmin, hmax, htype, ?_⟩
      simp [set]
  | recordPasswordFailure =>
      refine ⟨htoken, htitle, hdescription, hreference, hcreator, ?_, hmin, hmax, htype, ?_⟩
      · exact add_nonneg hfailed (by norm_num)
      · by_cases hlast : r.LastAttempt <;> simp [set, hlast]
  | updatePasswordProtection =>
      exact ⟨htoken, htitle, hdescription, hreference, hcreator, le_rfl, hmin, hmax, htype,
        hconsumed, hrevoked, hconsuming⟩
  | blankRetained =>
      exact ⟨htoken, htitle, hdescription, hreference, hcreator, hfailed, hmin, hmax, htype,
        hconsumed, hrevoked, hconsuming⟩

theorem exec_checks {now : ℤ} {s : Statement} {r : Row} (h : r.Checks) :
    (s.exec now r).Checks := exec_cases h fun guard => set_checks guard h

/-- The columns that no statement assigns. -/
structure Unassigned (r r' : Row) : Prop where
  id : r'.id = r.id
  tokenHash : r'.tokenHash = r.tokenHash
  title : r'.title = r.title
  description : r'.description = r.description
  recipientReference : r'.recipientReference = r.recipientReference
  expiresAt : r'.expiresAt = r.expiresAt
  maxFailedAttempts : r'.maxFailedAttempts = r.maxFailedAttempts
  createdBy : r'.createdBy = r.createdBy
  createdAt : r'.createdAt = r.createdAt
  payloadType : r'.payloadType = r.payloadType
  payloadFieldCount : r'.payloadFieldCount = r.payloadFieldCount
  payloadContainsSensitive : r'.payloadContainsSensitive = r.payloadContainsSensitive

theorem Unassigned.refl (r : Row) : Unassigned r r := by constructor <;> rfl

theorem Unassigned.trans {r r' r'' : Row} (h : Unassigned r r') (h' : Unassigned r' r'') :
    Unassigned r r'' := by
  constructor
  · exact h'.id.trans h.id
  · exact h'.tokenHash.trans h.tokenHash
  · exact h'.title.trans h.title
  · exact h'.description.trans h.description
  · exact h'.recipientReference.trans h.recipientReference
  · exact h'.expiresAt.trans h.expiresAt
  · exact h'.maxFailedAttempts.trans h.maxFailedAttempts
  · exact h'.createdBy.trans h.createdBy
  · exact h'.createdAt.trans h.createdAt
  · exact h'.payloadType.trans h.payloadType
  · exact h'.payloadFieldCount.trans h.payloadFieldCount
  · exact h'.payloadContainsSensitive.trans h.payloadContainsSensitive

theorem set_unassigned (now : ℤ) (s : Statement) (r : Row) :
    Unassigned r (s.set now r) := by
  cases s <;> constructor <;> rfl

theorem exec_unassigned (now : ℤ) (s : Statement) (r : Row) :
    Unassigned r (s.exec now r) := exec_cases (.refl r) fun _ => set_unassigned now s r

@[simp] theorem exec_id (now : ℤ) (s : Statement) (r : Row) : (s.exec now r).id = r.id :=
  (exec_unassigned now s r).id

@[simp] theorem exec_tokenHash (now : ℤ) (s : Statement) (r : Row) :
    (s.exec now r).tokenHash = r.tokenHash := (exec_unassigned now s r).tokenHash

end Statement

/-- The calls of the repository that write deliveries. -/
inductive Operation where
  | beginConsume (tokenHash : Bytes) (expectedPasswordHash : Option Text) (leaseID : UUID)
      (leaseTTL : Duration)
  | recordPasswordFailure (tokenHash : Bytes) (expectedPasswordHash : Text) (leaseTTL : Duration)
  | updatePasswordProtection (id : UUID) (passwordHash : Option Text)
  | restoreConsume (id leaseID : UUID)
  | completeConsume (id leaseID : UUID)
  | revoke (id : UUID)
  | cleanup (consumedRetention expiredRetention revokedRetention leaseTTL : Duration)
  deriving DecidableEq, Repr

namespace Operation

/-- The UPDATEs of a call, all at the start of its transaction. -/
def statements : Operation → List Statement
  | .beginConsume tokenHash expected leaseID leaseTTL =>
    [.beginConsume tokenHash expected leaseID leaseTTL.int64Seconds]
  | .recordPasswordFailure tokenHash expected leaseTTL =>
    [.recordPasswordFailure tokenHash expected leaseTTL.int64Seconds]
  | .updatePasswordProtection id passwordHash => [.updatePasswordProtection id passwordHash]
  | .restoreConsume id leaseID => [.restoreConsume id leaseID]
  | .completeConsume id leaseID => [.completeConsume id leaseID]
  | .revoke id => [.revoke id]
  | .cleanup consumed expired revoked leaseTTL =>
    [.expireActive, .restoreStale leaseTTL.int64Seconds,
      .blankRetained consumed.int64Seconds expired.int64Seconds revoked.int64Seconds]

def exec (now : ℤ) (op : Operation) (r : Row) : Row :=
  op.statements.foldl (fun r s => s.exec now r) r

/-- Calls one after the other, each at its own time. -/
def execAll (r : Row) (ops : List (ℤ × Operation)) : Row :=
  ops.foldl (fun r op => op.2.exec op.1 r) r

/-- What every statement preserves at the times of the calls, the calls preserve. -/
theorem execAll_preserves_of {P : Row → Prop} {T : ℤ → Prop}
    (step : ∀ now s r, T now → P r → P (Statement.exec now s r)) {r : Row} (h : P r)
    (ops : List (ℤ × Operation)) (times : ∀ op ∈ ops, T op.1) : P (execAll r ops) := by
  have hstatements : ∀ (now : ℤ), T now → ∀ (ss : List Statement) (r : Row), P r →
      P (ss.foldl (fun r s => s.exec now r) r) := by
    intro now hnow ss
    induction ss with
    | nil => exact fun r hr => hr
    | cons s ss ih => exact fun r hr => ih _ (step now s r hnow hr)
  induction ops generalizing r with
  | nil => exact h
  | cons op ops ih =>
      have hop := times op List.mem_cons_self
      exact ih (hstatements op.1 hop op.2.statements r h)
        fun op' hop' => times op' (List.mem_cons_of_mem op hop')

theorem execAll_preserves {P : Row → Prop} (step : ∀ now s r, P r → P (Statement.exec now s r))
    {r : Row} (h : P r) (ops : List (ℤ × Operation)) : P (execAll r ops) :=
  execAll_preserves_of (T := fun _ => True) (fun now s r _ => step now s r) h ops
    fun _ _ => trivial

theorem exec_preserves {P : Row → Prop} (step : ∀ now s r, P r → P (Statement.exec now s r))
    (now : ℤ) (op : Operation) {r : Row} (h : P r) : P (op.exec now r) :=
  execAll_preserves step h [(now, op)]

theorem exec_unassigned (now : ℤ) (op : Operation) (r : Row) :
    Statement.Unassigned r (op.exec now r) :=
  op.exec_preserves (P := Statement.Unassigned r)
    (fun now s r' h => h.trans (Statement.exec_unassigned now s r')) now (.refl r)

end Operation
end SecureShare.Delivery
