import SecureShare.Delivery.RowInvariant

/-!
# The documented state machine

The diagram of the architecture document, and what the calls of the repository
do to it. On the status column every call takes at most one arrow. Read with the
clock, where an active delivery past its expiry counts as expired before a
cleanup has marked it, two calls still find the old column: an admin revokes such
a delivery, and a reader gives a late lease back.
-/
namespace SecureShare.Delivery
open Go

/-- The arrows of the diagram. -/
inductive Arrow : Status → Status → Prop
  | reveal : Arrow .active .consuming
  | expire : Arrow .active .expired
  | revokeActive : Arrow .active .revoked
  | restore : Arrow .consuming .active
  | deliver : Arrow .consuming .consumed
  | revokeConsuming : Arrow .consuming .revoked

/-- The documented state of a row: the TTL of an active one may have elapsed. -/
def documented (now : ℤ) (r : Row) : Status :=
  if r.status = .active ∧ r.expiresAt ≤ now then .expired else r.status

/-- A reader takes over a stale lease under its own lease ID. -/
def Takeover (now : ℤ) (op : Operation) (r r' : Row) : Prop :=
  ∃ tokenHash expected leaseID leaseTTL, op = .beginConsume tokenHash expected leaseID leaseTTL ∧
    r.status = .consuming ∧ r.LeaseStale leaseTTL.int64Seconds now ∧
    r' = (Statement.beginConsume tokenHash expected leaseID leaseTTL.int64Seconds).set now r

/-- The two calls that act on the column although the TTL has elapsed. -/
inductive Late (now : ℤ) (r r' : Row) : Operation → Prop
  | revoke (id : UUID) : r.expiresAt ≤ now → r.status = .active → r'.status = .revoked →
      Late now r r' (.revoke id)
  | restore (id leaseID : UUID) : r.expiresAt ≤ now → r.status = .consuming →
      r'.status = .active → Late now r r' (.restoreConsume id leaseID)

/-- The column and the lease stay as they are. -/
def Stutters (r r' : Row) : Prop :=
  r'.status = r.status ∧ r'.consumingLeaseID = r.consumingLeaseID

/-- A terminal row may only lose its ciphertext. -/
def Absorbed (r r' : Row) : Prop :=
  ∃ payload updated, (payload = r.encryptedPayload ∨ payload = []) ∧
    r' = { r with encryptedPayload := payload, updatedAt := updated }

theorem Absorbed.refl (r : Row) : Absorbed r r := ⟨_, _, .inl rfl, rfl⟩

theorem exec_absorbed {r : Row} (h : r.status.terminal = true) (now : ℤ) (s : Statement) :
    Absorbed r (s.exec now r) := by
  refine Statement.exec_cases (.refl r) fun guard => ?_
  rcases Statement.guard_status guard with hlive | ⟨_, _, _, rfl, _⟩
  · rcases hlive with hs | hs <;> rw [hs] at h <;> cases h
  · exact ⟨[], now, .inr rfl, rfl⟩

/-- No sequence of calls leaves a terminal status. -/
theorem execAll_absorbed {r : Row} (h : r.status.terminal = true)
    (ops : List (ℤ × Operation)) : Absorbed r (Operation.execAll r ops) := by
  refine Operation.execAll_preserves (P := Absorbed r) ?_ (.refl r) ops
  rintro now s r' ⟨payload, updated, hpayload, rfl⟩
  obtain ⟨payload', updated', hpayload', heq⟩ := exec_absorbed
    (r := { r with encryptedPayload := payload, updatedAt := updated }) h now s
  rw [heq]
  refine ⟨payload', updated', ?_, rfl⟩
  rcases hpayload' with rfl | rfl
  · exact hpayload
  · exact .inr rfl

theorem blank_stutters (now : ℤ) (a b c : ℤ) (r : Row) :
    Stutters r ((Statement.blankRetained a b c).exec now r) ∧
      ((Statement.blankRetained a b c).exec now r).expiresAt = r.expiresAt :=
  ⟨Statement.exec_cases ⟨rfl, rfl⟩ fun _ => ⟨rfl, rfl⟩, (Statement.exec_unassigned now _ r).expiresAt⟩

/-- Cleanup marks a row whose TTL elapsed. -/
def Marked (now : ℤ) (r r' : Row) : Prop :=
  r.status = .active ∧ r.expiresAt ≤ now ∧ r'.status = .expired ∧
    r'.consumingLeaseID = r.consumingLeaseID

/-- An arrow that is also one when the TTL is taken into account. -/
def Timely (now : ℤ) (r r' : Row) : Prop :=
  Arrow r.status r'.status ∧ (r.status = .active ∨ r'.status = .active → now < r.expiresAt)

/-- One run of cleanup changes the status at most once. -/
theorem cleanup_status (now : ℤ) (consumed expired revoked leaseTTL : Duration) (r : Row) :
    let r' := (Operation.cleanup consumed expired revoked leaseTTL).exec now r
    Stutters r r' ∨ Marked now r r' ∨ Timely now r r' := by
  intro r'
  have hblank := fun r => (blank_stutters now consumed.int64Seconds expired.int64Seconds
    revoked.int64Seconds r).1
  have hr' : r' = (Statement.blankRetained consumed.int64Seconds expired.int64Seconds
    revoked.int64Seconds).exec now ((Statement.restoreStale leaseTTL.int64Seconds).exec now
      (Statement.expireActive.exec now r)) := rfl
  by_cases hexpire : Statement.expireActive.Guard now r
  · have hno : ¬(Statement.restoreStale leaseTTL.int64Seconds).Guard now
        (Statement.expireActive.set now r) := fun h => by cases h.1
    rw [Statement.exec_of_guard hexpire, Statement.exec_of_not_guard hno] at hr'
    refine .inr (.inl ⟨hexpire.1, hexpire.2, ?_, ?_⟩)
    · rw [hr', (hblank _).1]
      rfl
    · rw [hr', (hblank _).2]
      rfl
  · rw [Statement.exec_of_not_guard hexpire] at hr'
    by_cases hrestore : (Statement.restoreStale leaseTTL.int64Seconds).Guard now r
    · rw [Statement.exec_of_guard hrestore] at hr'
      refine .inr (.inr ⟨?_, fun _ => hrestore.2.2⟩)
      rw [hr', (hblank _).1, hrestore.1]
      exact .restore
    · rw [Statement.exec_of_not_guard hrestore] at hr'
      rw [hr']
      exact .inl (hblank r)

/-- Where one call may take a row. -/
inductive Move (now : ℤ) (op : Operation) (r r' : Row) : Prop
  | stutters : Stutters r r' → Move now op r r'
  | takeover : Takeover now op r r' → Move now op r r'
  | late : Late now r r' op → Move now op r r'
  | marked : Marked now r r' → Move now op r r'
  | timely : Timely now r r' → Move now op r r'

theorem exec_move {origin r : Row} (h : Represents origin r) (now : ℤ) (op : Operation) :
    Move now op r (op.exec now r) := by
  have hstay : Move now op r r := .stutters ⟨rfl, rfl⟩
  cases op with
  | cleanup consumed expired revoked leaseTTL =>
      rcases cleanup_status now consumed expired revoked leaseTTL r with h | h | h
      · exact .stutters h
      · exact .marked h
      · exact .timely h
  | beginConsume tokenHash expected leaseID leaseTTL =>
      refine Statement.exec_cases (P := Move now _ r) hstay fun guard => ?_
      obtain ⟨_, _, hexpires, _, hs | ⟨hs, hstale⟩⟩ := guard
      · exact .timely ⟨by rw [hs]; exact .reveal, fun _ => hexpires⟩
      · exact .takeover ⟨tokenHash, expected, leaseID, leaseTTL, rfl, hs, hstale, rfl⟩
  | recordPasswordFailure tokenHash expected leaseTTL =>
      refine Statement.exec_cases (P := Move now _ r) hstay fun guard => ?_
      obtain ⟨_, _, hexpires, _, hstatus⟩ := guard
      by_cases hlast : r.LastAttempt
      · refine .timely ⟨?_, fun _ => hexpires⟩
        rcases hstatus with hs | ⟨hs, _⟩
        · simpa [Statement.set, hlast, hs] using Arrow.revokeActive
        · simpa [Statement.set, hlast, hs] using Arrow.revokeConsuming
      · rcases hstatus with hs | ⟨hs, _⟩
        · have hlease := (h.not_consuming (by rw [hs]; decide)).2
          exact .stutters ⟨by simp [Statement.set, hlast, hs], by simp [Statement.set, hlease]⟩
        · refine .timely ⟨?_, fun _ => hexpires⟩
          simpa [Statement.set, hlast, hs] using Arrow.restore
  | updatePasswordProtection id hash =>
      exact Statement.exec_cases (P := Move now _ r) hstay fun _ => .stutters ⟨rfl, rfl⟩
  | restoreConsume id leaseID =>
      refine Statement.exec_cases (P := Move now _ r) hstay fun guard => ?_
      by_cases hexpires : r.expiresAt ≤ now
      · exact .late (.restore id leaseID hexpires guard.2.1 rfl)
      · exact .timely ⟨by rw [guard.2.1]; exact .restore, fun _ => by omega⟩
  | completeConsume id leaseID =>
      refine Statement.exec_cases (P := Move now _ r) hstay fun guard => .timely ⟨?_, ?_⟩
      · rw [guard.2.1]
        exact .deliver
      · rw [guard.2.1]
        rintro (hs | hs) <;> cases hs
  | revoke id =>
      refine Statement.exec_cases (P := Move now _ r) hstay fun guard => ?_
      rcases guard.2 with hs | hs
      · by_cases hexpires : r.expiresAt ≤ now
        · exact .late (.revoke id hexpires hs rfl)
        · exact .timely ⟨by rw [hs]; exact .revokeActive, fun _ => by omega⟩
      · refine .timely ⟨by rw [hs]; exact .revokeConsuming, ?_⟩
        rw [hs]
        rintro (hs | hs) <;> cases hs

/-- Every move follows the diagram on the column. -/
theorem Move.column {now : ℤ} {op : Operation} {r r' : Row} (h : Move now op r r') :
    Stutters r r' ∨ Arrow r.status r'.status ∨ Takeover now op r r' := by
  cases h with
  | stutters h => exact .inl h
  | takeover h => exact .inr (.inr h)
  | late h =>
      cases h with
      | revoke id _ hs hs' => exact .inr (.inl (by rw [hs, hs']; exact .revokeActive))
      | restore id leaseID _ hs hs' => exact .inr (.inl (by rw [hs, hs']; exact .restore))
  | marked h => exact .inr (.inl (by rw [h.1, h.2.2.1]; exact .expire))
  | timely h => exact .inr (.inl h.1)

/-- With the clock, only the late calls leave the diagram. -/
theorem Move.clock {now : ℤ} {op : Operation} {r r' : Row} (h : Move now op r r')
    (hexpires : r'.expiresAt = r.expiresAt) :
    documented now r' = documented now r ∧ r'.consumingLeaseID = r.consumingLeaseID ∨
      Arrow (documented now r) (documented now r') ∨ Takeover now op r r' ∨ Late now r r' op := by
  have hdocumented : ∀ u : Row, ¬(u.status = .active ∧ u.expiresAt ≤ now) →
      documented now u = u.status := fun u hu => if_neg hu
  cases h with
  | stutters h => exact .inl ⟨by rw [documented, documented, h.1, hexpires], h.2⟩
  | takeover h => exact .inr (.inr (.inl h))
  | late h => exact .inr (.inr (.inr h))
  | marked h =>
      obtain ⟨hs, hle, hs', hlease⟩ := h
      refine .inl ⟨?_, hlease⟩
      rw [hdocumented r' (by rw [hs']; simp), hs', documented, if_pos ⟨hs, hle⟩]
  | timely h =>
      obtain ⟨harrow, hlt⟩ := h
      refine .inr (.inl ?_)
      rw [hdocumented r fun hr => absurd (hlt (.inl hr.1)) (by omega),
        hdocumented r' fun hr => absurd (hlt (.inr hr.1)) (by rw [hexpires] at hr; omega)]
      exact harrow

/-- Every call on every reachable row: what it does to the column, what it does to
the documented state, and that the terminal statuses absorb. -/
theorem operations_follow_diagram {deps : Dependencies} {cfg : Config} {inputs : CreateInputs}
    {actorID : Text} {req : CreateRequest} {params : InsertParams} {token : Text}
    (h : insertParams deps cfg inputs actorID req = .ok (params, token)) (created now : ℤ)
    (ops : List (ℤ × Operation)) (op : Operation) :
    let r := Operation.execAll (params.row created) ops
    let r' := op.exec now r
    (Stutters r r' ∨ Arrow r.status r'.status ∨ Takeover now op r r') ∧
    (documented now r' = documented now r ∧ r'.consumingLeaseID = r.consumingLeaseID ∨
      Arrow (documented now r) (documented now r') ∨ Takeover now op r r' ∨ Late now r r' op) ∧
    (r.status.terminal = true → ∀ later, Absorbed r (Operation.execAll r later)) := by
  intro r r'
  have hr : Represents (params.row created) r := represents_of_insertParams h created ops
  have hmove : Move now op r r' := exec_move hr now op
  have hexpires : r'.expiresAt = r.expiresAt := (Operation.exec_unassigned now op r).expiresAt
  exact ⟨hmove.column, hmove.clock hexpires, fun hterminal later => execAll_absorbed hterminal later⟩

theorem operations_follow_diagram_sample :
    let r := Operation.execAll (sampleParams.row 0)
      [(10, .beginConsume sampleParams.tokenHash none 1 sampleConfig.consumingLeaseTTL)]
    let r' := (Operation.restoreConsume 7 1).exec 20 r
    (Stutters r r' ∨ Arrow r.status r'.status ∨ Takeover 20 (.restoreConsume 7 1) r r') ∧
    (documented 20 r' = documented 20 r ∧ r'.consumingLeaseID = r.consumingLeaseID ∨
      Arrow (documented 20 r) (documented 20 r') ∨ Takeover 20 (.restoreConsume 7 1) r r' ∨
        Late 20 r r' (.restoreConsume 7 1)) ∧
    (r.status.terminal = true → ∀ later, Absorbed r (Operation.execAll r later)) :=
  operations_follow_diagram insertParams_sample 0 20 _ _

/-- One hour after its creation the sample has expired, and an admin can still
revoke it: an arrow that the diagram does not have. -/
theorem revoke_of_expired_leaves_diagram :
    insertParams sampleDependencies sampleConfig sampleInputs "admin".toList sampleRequest =
      .ok (sampleParams, ['t']) ∧
    let r := Operation.execAll (sampleParams.row 0) []
    let r' := (Operation.revoke 7).exec 3600000000 r
    ¬(documented 3600000000 r' = documented 3600000000 r ∨
      Arrow (documented 3600000000 r) (documented 3600000000 r') ∨
        Takeover 3600000000 (.revoke 7) r r') := by
  refine ⟨insertParams_sample, ?_⟩
  have hbefore : documented 3600000000 (Operation.execAll (sampleParams.row 0) []) = .expired := by
    decide +kernel
  have hafter : documented 3600000000 ((Operation.revoke 7).exec 3600000000
      (Operation.execAll (sampleParams.row 0) [])) = .revoked := by
    decide +kernel
  simp only [hbefore, hafter]
  rintro (h | h | ⟨_, _, _, _, h, _⟩) <;> cases h

end SecureShare.Delivery
