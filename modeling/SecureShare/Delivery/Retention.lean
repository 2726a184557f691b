import SecureShare.Delivery.RowInvariant

/-!
# Retention

Whether two runs of cleanup, the second one a retention period later, blank a
delivery that has expired. They do so for every row except one whose reader never
came back: cleanup marks only active rows as expired and gives back only leases
of unexpired ones, so a lease that is still held at expiry keeps the ciphertext.
-/
namespace SecureShare.Delivery
open Go

/-- The call that `Service.Cleanup` makes. -/
def serviceCleanup (cfg : Config) : Operation :=
  .cleanup cfg.consumedRetention cfg.expiredRetention cfg.revokedRetention cfg.consumingLeaseTTL

/-- The longest of the three retentions. -/
def longestRetention (cfg : Config) : ℤ :=
  max cfg.consumedRetention.toInt (max cfg.expiredRetention.toInt cfg.revokedRetention.toInt)

theorem exec_blank {r : Row} (h : r.encryptedPayload = []) (now : ℤ) (s : Statement) :
    (s.exec now r).encryptedPayload = [] := by
  refine Statement.exec_cases (P := fun r' => r'.encryptedPayload = []) h fun _ => ?_
  cases s with
  | recordPasswordFailure => by_cases hlast : r.LastAttempt <;> simp [Statement.set, hlast, h]
  | beginConsume | updatePasswordProtection | restoreConsume | expireActive | restoreStale => exact h
  | completeConsume | revoke | blankRetained => rfl

theorem exec_updatedAt {r : Row} {bound now : ℤ} (h : r.updatedAt ≤ bound) (hnow : now ≤ bound)
    (s : Statement) : (s.exec now r).updatedAt ≤ bound := by
  refine Statement.exec_cases (P := fun r' => r'.updatedAt ≤ bound) h fun _ => ?_
  cases s <;> exact hnow

/-- Past its expiry a row that is being consumed is matched by no statement of
cleanup. -/
theorem cleanup_of_consuming {r : Row} {now : ℤ} (hs : r.status = .consuming)
    (hexpires : r.expiresAt ≤ now) (cfg : Config) : (serviceCleanup cfg).exec now r = r := by
  have hexpire : ¬Statement.expireActive.Guard now r := by
    rintro ⟨h, _⟩
    rw [hs] at h
    cases h
  have hrestore : ∀ n, ¬(Statement.restoreStale n).Guard now r := by
    rintro n ⟨_, _, h⟩
    omega
  have hblank : ∀ a b c, ¬(Statement.blankRetained a b c).Guard now r := by
    rintro a b c ⟨_, ⟨h, _⟩ | ⟨h, _⟩ | ⟨h, _⟩⟩ <;> rw [hs] at h <;> cases h
  simp only [serviceCleanup, Operation.exec, Operation.statements, List.foldl_cons,
    List.foldl_nil, Statement.exec_of_not_guard hexpire, Statement.exec_of_not_guard (hrestore _),
    Statement.exec_of_not_guard (hblank _ _ _)]

/-- The ciphertext is gone, or the row was marked as expired by `now`. -/
def Doomed (now : ℤ) (r : Row) : Prop :=
  r.encryptedPayload = [] ∨ r.status = .expired ∧ r.updatedAt ≤ now

private theorem blank_doomed {r : Row} {now : ℤ} (hs : r.status = .expired)
    (hupdated : r.updatedAt ≤ now) (a b c : ℤ) :
    Doomed now ((Statement.blankRetained a b c).exec now r) :=
  Statement.exec_cases (P := Doomed now) (.inr ⟨hs, hupdated⟩) fun _ => .inl rfl

private theorem restoreStale_of_expired {r : Row} (hs : r.status = .expired) (now n : ℤ) :
    (Statement.restoreStale n).exec now r = r := by
  refine Statement.exec_of_not_guard ?_
  rintro ⟨h, _⟩
  rw [hs] at h
  cases h

/-- One run of cleanup after the expiry dooms every row that is not held. -/
theorem cleanup_dooms {origin r : Row} {now : ℤ} (h : Represents origin r)
    (hs : r.status ≠ .consuming) (hexpires : r.expiresAt ≤ now) (hupdated : r.updatedAt ≤ now)
    (cfg : Config) : Doomed now ((serviceCleanup cfg).exec now r) := by
  have hgone : r.encryptedPayload = [] → Doomed now ((serviceCleanup cfg).exec now r) :=
    fun hr => .inl (Operation.exec_preserves (P := fun r => r.encryptedPayload = [])
      (fun now s _ h => exec_blank h now s) now _ hr)
  cases hstatus : r.status with
  | consuming => exact absurd hstatus hs
  | consumed => exact hgone (h.delivered (.inl hstatus))
  | revoked => exact hgone (h.delivered (.inr hstatus))
  | active =>
      simp only [serviceCleanup, Operation.exec, Operation.statements, List.foldl_cons,
        List.foldl_nil, Statement.exec_of_guard (s := .expireActive) ⟨hstatus, hexpires⟩]
      rw [restoreStale_of_expired rfl]
      exact blank_doomed rfl le_rfl _ _ _
  | expired =>
      have hexpire : ¬Statement.expireActive.Guard now r := by
        rintro ⟨h, _⟩
        rw [hstatus] at h
        cases h
      simp only [serviceCleanup, Operation.exec, Operation.statements, List.foldl_cons,
        List.foldl_nil, Statement.exec_of_not_guard hexpire]
      rw [restoreStale_of_expired hstatus]
      exact blank_doomed hstatus hupdated _ _ _

/-- A retention period later the next run blanks what is doomed. Rounding the
retention to seconds never asks for a later microsecond. -/
theorem cleanup_of_doomed {r : Row} {now later : ℤ} {cfg : Config} (h : Doomed now r)
    (hretention : 0 ≤ cfg.expiredRetention.toInt)
    (hlater : now * 1000 + cfg.expiredRetention.toInt ≤ later * 1000) :
    ((serviceCleanup cfg).exec later r).encryptedPayload = [] := by
  rcases h with h | ⟨hs, hupdated⟩
  · exact Operation.exec_preserves (P := fun r => r.encryptedPayload = [])
      (fun now s _ h => exec_blank h now s) later _ h
  · have hexpire : ¬Statement.expireActive.Guard later r := by
      rintro ⟨h, _⟩
      rw [hs] at h
      cases h
    simp only [serviceCleanup, Operation.exec, Operation.statements, List.foldl_cons,
      List.foldl_nil, Statement.exec_of_not_guard hexpire, restoreStale_of_expired hs]
    by_cases hne : r.encryptedPayload = []
    · exact exec_blank hne _ _
    · have hseconds := Duration.int64Seconds_lt hretention
      rw [Statement.exec_of_guard]
      · rfl
      · refine ⟨hne, .inr (.inl ⟨hs, ?_⟩)⟩
        rw [Row.interval]
        omega

/-- Two runs of cleanup, the second one after the longest retention, blank a
reachable expired row exactly when it is not held by a reader. -/
theorem cleanup_blanks_iff {deps : Dependencies} {cfg : Config} {inputs : CreateInputs}
    {actorID : Text} {req : CreateRequest} {params : InsertParams} {token : Text}
    {created t later : ℤ} {ops : List (ℤ × Operation)}
    (h : insertParams deps cfg inputs actorID req = .ok (params, token))
    (hretention : 0 ≤ cfg.expiredRetention.toInt) (hcreated : created ≤ t)
    (hops : ∀ op ∈ ops, op.1 ≤ t) (hexpires : params.expiresAt / 1000 ≤ t)
    (hlater : t * 1000 + longestRetention cfg ≤ later * 1000) :
    let r := Operation.execAll (params.row created) ops
    ((serviceCleanup cfg).exec later ((serviceCleanup cfg).exec t r)).encryptedPayload = [] ↔
      r.status ≠ .consuming := by
  intro r
  have hr : Represents (params.row created) r := represents_of_insertParams h created ops
  have hle : r.expiresAt ≤ t := hr.unassigned.expiresAt.trans_le hexpires
  have hlong : cfg.expiredRetention.toInt ≤ longestRetention cfg :=
    (le_max_left _ _).trans (le_max_right _ _)
  constructor
  · intro hblank hs
    rw [cleanup_of_consuming hs hle, cleanup_of_consuming hs (by omega)] at hblank
    obtain ⟨p, haccepts⟩ := insertParams_spec h
    exact haccepts.nonempty ((hr.live (.inr hs)).1.symm.trans hblank)
  · intro hs
    have hupdated : r.updatedAt ≤ t := by
      refine Operation.execAll_preserves_of (P := fun r => r.updatedAt ≤ t) (T := (· ≤ t)) ?_
        hcreated ops hops
      exact fun now s r hnow hr => exec_updatedAt hr hnow s
    exact cleanup_of_doomed (cleanup_dooms hr hs hle hupdated cfg) hretention (by omega)

theorem cleanup_blanks_iff_sample :
    let r := Operation.execAll (sampleParams.row 0) [(10, .revoke 8)]
    ((serviceCleanup sampleConfig).exec 90000000000
      ((serviceCleanup sampleConfig).exec 3600000000 r)).encryptedPayload = [] ↔
        r.status ≠ .consuming :=
  cleanup_blanks_iff insertParams_sample (by decide) (by decide) (by decide) (by decide)
    (by decide +kernel)

/-- A reader takes the lease one second before the expiry and is never heard of
again. Both runs of cleanup leave the ciphertext in place. -/
theorem abandoned_reader_keeps_ciphertext :
    sampleConfig.Accepted (fun _ => none) id ∧
    0 ≤ sampleConfig.consumedRetention.toInt ∧ 0 ≤ sampleConfig.expiredRetention.toInt ∧
    0 ≤ sampleConfig.revokedRetention.toInt ∧
    sampleConfig.consumingLeaseTTL.toInt = 30 * 1000000000 ∧
    insertParams sampleDependencies sampleConfig sampleInputs "admin".toList sampleRequest =
      .ok (sampleParams, ['t']) ∧
    let r := Operation.execAll (sampleParams.row 0)
      [(3599000000, .beginConsume sampleParams.tokenHash none 1 sampleConfig.consumingLeaseTTL)]
    r.expiresAt ≤ 3700000000 ∧
    (∀ started ∈ r.consumingStartedAt,
      started * 1000 + sampleConfig.consumingLeaseTTL.toInt < 3700000000 * 1000) ∧
    3700000000 * 1000 + longestRetention sampleConfig ≤ 90200000000 * 1000 ∧
    ((serviceCleanup sampleConfig).exec 90200000000
      ((serviceCleanup sampleConfig).exec 3700000000 r)).encryptedPayload ≠ [] := by
  refine ⟨sampleConfig_accepted, by decide, by decide, by decide, by decide, insertParams_sample,
    ?_⟩
  decide +kernel

end SecureShare.Delivery
