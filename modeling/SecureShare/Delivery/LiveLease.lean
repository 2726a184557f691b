import SecureShare.Delivery.Authorisation
import SecureShare.Delivery.Undisturbed

/-!
# The exclusivity of a live lease

Nobody but its holder or an admin ends a lease before its TTL has passed, as long
as the TTL loses at most a microsecond in the conversion to the whole seconds that
the statements compare with. A longer fraction is lost, and another reader takes
the lease over too early.
-/
namespace SecureShare.Delivery
open Go Library.Transition

/-- The start of the transaction that a cleanup is in. -/
def CleanupPhase.start : CleanupPhase → Option ℤ
  | .restoring start _ | .blanking start _ _ => some start
  | .starting | .finished _ | .failed | .abandoned => none

section time
variable {svc : Service} {s s' : State} {clock : ℤ}

theorem advance_cleanup {inputs : Inputs} {now : ℤ} {call : Call} {t t' : Table}
    {phase' : CleanupPhase}
    (h : call.advance svc inputs now t = some (t', .cleanup phase')) {start : ℤ}
    (hstart : phase'.start = some start) :
    start = now ∨ ∃ phase, call = .cleanup phase ∧ phase.start = some start := by
  cases call with
  | cleanup phase =>
      obtain ⟨⟨_, _⟩, hr, heq⟩ := Option.map_eq_some_iff.mp h
      cases heq
      cases phase with
      | starting =>
          simp only [Service.cleanup] at hr
          split at hr <;> cases hr <;> cases hstart
          exact .inl rfl
      | restoring =>
          cases hr
          exact .inr ⟨_, rfl, hstart⟩
      | blanking =>
          obtain ⟨_, rfl⟩ := Prod.mk.inj (Option.some.inj hr)
          split at hstart <;> cases hstart
      | finished | failed | abandoned => cases hr
  | create _ _ phase => cases phase <;> cases h
  | consume | revoke | protect =>
      obtain ⟨_, _, heq⟩ := Option.map_eq_some_iff.mp h
      cases heq

theorem abandon_cleanup {call : Call} {phase' : CleanupPhase}
    (h : call.abandon = some (.cleanup phase')) : phase' = .abandoned := by
  cases call with
  | cleanup phase => cases phase <;> cases h <;> rfl
  | create _ _ phase => cases phase <;> cases h
  | consume _ _ phase => cases phase <;> cases h
  | revoke _ phase => cases phase <;> cases h
  | protect _ _ phase => cases phase <;> cases h

/-- A cleanup began in the past. -/
theorem start_le_clock (h : Reachable (step svc) (State.init clock) s) {i : ℕ}
    {phase : CleanupPhase} (hcall : s.calls[i]? = some (.cleanup phase)) {start : ℤ}
    (hstart : phase.start = some start) : start ≤ s.clock := by
  refine h.preserves (P := fun u => ∀ phase start, u.calls[i]? = some (.cleanup phase) →
    phase.start = some start → start ≤ u.clock) ?_ ?_ phase start hcall hstart
  · intro phase start hphase
    rw [call_init] at hphase
    cases hphase
  intro u a v hu hstep phase start hphase hstart
  have hclock := step_clock hstep
  cases step_call hstep hphase with
  | same _ hsame => exact (hu phase start hsame hstart).trans hclock
  | spawned request _ heq =>
      cases request <;> cases heq
      cases hstart
  | advanced inputs call hcall _ _ hadvance =>
      rcases advance_cleanup hadvance hstart with rfl | ⟨phase₀, rfl, hstart₀⟩
      · exact hclock
      · exact (hu phase₀ start hcall hstart₀).trans hclock
  | abandoned call _ habandon =>
      rw [abandon_cleanup habandon] at hstart
      cases hstart

theorem issues_time_le (h : Reachable (step svc) (State.init clock) s) {i : ℕ} {inputs : Inputs}
    {call : Call} {time : ℤ} {stmt : Statement} (hcall : s.calls[i]? = some call)
    (hissues : Issues svc inputs s.clock call time stmt) : time ≤ s.clock := by
  cases hissues with
  | counting | leasing | restoring | completing | revoking | protecting | expiring => exact le_rfl
  | givingBack | blanking => exact start_le_clock h hcall rfl

end time

/-- The statement ends the lease for its holder, or revokes the delivery. -/
def MayEnd (d leaseID : UUID) (stmt : Statement) : Prop :=
  stmt = .restoreConsume d leaseID ∨ stmt = .completeConsume d leaseID ∨ stmt = .revoke d

/-- No step replaces or clears a lease before its TTL has passed, except for its
holder's and a revocation. -/
def LeaseExclusive (svc : Service) : Prop :=
  ∀ (clock : ℤ) (s s' : State) (a : Action) (d leaseID : UUID) (r : Row) (started : ℤ),
    Reachable (step svc) (State.init clock) s → step svc s a = some s' →
    s.table.find d = some r → r.LeasedBy leaseID → r.consumingStartedAt = some started →
    s.clock * 1000 < started * 1000 + svc.cfg.consumingLeaseTTL.toInt →
    (∃ r', s'.table.find d = some r' ∧ r'.LeasedBy leaseID ∧
        r'.consumingStartedAt = some started) ∨
      ∃ i inputs call time stmt, a = .advance i inputs ∧ s.calls[i]? = some call ∧
        Issues svc inputs s.clock call time stmt ∧ MayEnd d leaseID stmt

/-- A row that is leased is matched only by statements that may end the lease, or
once the lease is stale. -/
theorem guard_of_leased {stmt : Statement} {time : ℤ} {r : Row} {d leaseID : UUID}
    {svc : Service} {inputs : Inputs} {now : ℤ} {call : Call} (hid : r.id = d)
    (hleased : r.LeasedBy leaseID) (hguard : stmt.Guard time r)
    (hissues : Issues svc inputs now call time stmt) :
    MayEnd d leaseID stmt ∨
      r.LeaseStale svc.cfg.consumingLeaseTTL.int64Seconds time := by
  obtain ⟨hs, hl⟩ := hleased
  have hactive : r.status ≠ .active := by
    rw [hs]
    decide
  cases hissues with
  | counting | leasing =>
      rcases hguard.2.2.2.2 with h | ⟨_, hstale⟩
      · exact absurd h hactive
      · exact .inr hstale
  | restoring _ _ item l =>
      obtain ⟨hitem, _, hlease⟩ := hguard
      cases hl.symm.trans hlease
      exact .inl (.inl (by rw [← hitem, hid]))
  | completing _ _ item l =>
      obtain ⟨hitem, _, hlease⟩ := hguard
      cases hl.symm.trans hlease
      exact .inl (.inr (.inl (by rw [← hitem, hid])))
  | revoking id => exact .inl (.inr (.inr (by rw [← hguard.1, hid])))
  | protecting => exact absurd hguard.2.1 hactive
  | expiring => exact absurd hguard.1 hactive
  | givingBack => exact .inr hguard.2.1
  | blanking =>
      rcases hguard.2 with ⟨h, _⟩ | ⟨h, _⟩ | ⟨h, _⟩ <;> rw [hs] at h <;> cases h

theorem leaseExclusive_of_le {svc : Service}
    (h : svc.cfg.consumingLeaseTTL.toInt ≤
      svc.cfg.consumingLeaseTTL.int64Seconds * 1000000000 + 1000) : LeaseExclusive svc := by
  intro clock s s' a d leaseID r started hreach hstep hr hleased hstarted hlive
  rcases step_find hstep hr with hsame | ⟨i, inputs, call, time, stmt, rfl, hcall, hissues,
    hguard, _⟩
  · exact .inl ⟨r, hsame, hleased, hstarted⟩
  · rcases guard_of_leased (Table.find_id hr) hleased hguard hissues with hend | hstale
    · exact .inr ⟨i, inputs, call, time, stmt, rfl, hcall, hissues, hend⟩
    · exfalso
      obtain ⟨at', hat, hlt⟩ := hstale
      cases hstarted.symm.trans hat
      have htime := issues_time_le hreach hcall hissues
      rw [Row.interval] at hlt
      omega

theorem find_exec_begin {t : Table} {r : Row} (hr : t.find r.id = some r) {n now : ℤ}
    (havailable : r.Available n now) (leaseID : UUID) :
    (t.exec now (.beginConsume r.tokenHash r.passwordHash leaseID n)).find r.id =
      some ((Statement.beginConsume r.tokenHash r.passwordHash leaseID n).set now r) := by
  have hguard : (Statement.beginConsume r.tokenHash r.passwordHash leaseID n).Guard now r :=
    ⟨rfl, rfl, havailable⟩
  rw [Table.find_exec, hr, Option.map_some, Statement.exec_of_guard hguard]

/-- A reader takes the lease of an open delivery, and one microsecond after the whole
seconds of the TTL another one takes it over. -/
theorem overtaken {svc : Service} {s : State} {clock : ℤ} {r : Row} {token password : Text}
    (hs : Reachable (step svc) (State.init clock) s) (hr : s.table.find r.id = some r)
    (htoken : svc.deps.tokenHMAC svc.cfg.tokenHMACPepper token = some r.tokenHash)
    (hpassword : Verifies svc.deps password r.passwordHash) {l₁ l₂ : UUID}
    (hfresh₁ : l₁ ∉ s.leases) (hfresh₂ : l₂ ∉ l₁ :: s.leases) (hactive : r.status = .active)
    (hfailed : r.failedAttempts < r.maxFailedAttempts)
    (hnonneg : 0 ≤ svc.cfg.consumingLeaseTTL.int64Seconds)
    (hexpires : s.clock + svc.cfg.consumingLeaseTTL.int64Seconds * 1000000 + 1 < r.expiresAt)
    (hlong : svc.cfg.consumingLeaseTTL.int64Seconds * 1000000000 + 1000 <
      svc.cfg.consumingLeaseTTL.toInt) : ¬LeaseExclusive svc := by
  intro hexclusive
  let n := svc.cfg.consumingLeaseTTL.int64Seconds
  let e := (n * 1000000 + 1).toNat
  have he : (e : ℤ) = n * 1000000 + 1 := Int.toNat_of_nonneg (by omega)
  have havailable₁ : r.Available n (s.clock + (0 : ℕ)) := by
    refine ⟨?_, hfailed, .inl hactive⟩
    rw [Nat.cast_zero, add_zero]
    omega
  obtain ⟨u, v, i, inputs, hu, hv, _, _, _, hclock, hleases, htable⟩ :=
    exists_begin hr htoken hpassword havailable₁ hfresh₁
  let r₁ := (Statement.beginConsume r.tokenHash r.passwordHash l₁ n).set (s.clock + (0 : ℕ)) r
  have hr₁ : v.table.find r₁.id = some r₁ := by
    rw [htable]
    exact find_exec_begin hr havailable₁ l₁
  have havailable₂ : r₁.Available n (v.clock + e) := by
    rw [hclock, he, Nat.cast_zero, add_zero]
    refine ⟨?_, hfailed, .inr ⟨rfl, s.clock + (0 : ℕ), rfl, ?_⟩⟩
    · change s.clock + (n * 1000000 + 1) < r.expiresAt
      omega
    · rw [Nat.cast_zero, Row.interval]
      omega
  obtain ⟨u', v', j, inputs', hu', hv', huclock, hutable, hcall, _, _, htable'⟩ :=
    exists_begin (s := v) (r := r₁) hr₁ htoken hpassword havailable₂ (hleases ▸ hfresh₂)
  have hreach : Reachable (step svc) (State.init clock) u' := ((hs.trans hu).tail hv).trans hu'
  have hlive : u'.clock * 1000 < (s.clock + (0 : ℕ)) * 1000 + svc.cfg.consumingLeaseTTL.toInt := by
    rw [huclock, hclock, he, Nat.cast_zero]
    omega
  rcases hexclusive clock u' v' (.advance j inputs') r₁.id l₁ r₁ (s.clock + (0 : ℕ)) hreach hv'
    (hutable ▸ hr₁) ⟨rfl, rfl⟩ rfl hlive with ⟨r₂, hr₂, ⟨_, hl⟩, _⟩ |
      ⟨_, _, call, _, stmt, heq, hcall', hissues, hend⟩
  · rw [htable', find_exec_begin hr₁ havailable₂ l₂] at hr₂
    cases hr₂
    cases hl
    exact hfresh₂ List.mem_cons_self
  · cases heq
    rw [hcall] at hcall'
    cases hcall'
    cases hissues
    rcases hend with h | h | h <;> cases h

/-- The sample service with another lease TTL. -/
def leaseService (leaseTTL : Duration) : Service :=
  ⟨{ sampleConfig with consumingLeaseTTL := leaseTTL }, sampleDependencies⟩

theorem leaseService_token (leaseTTL : Duration) :
    (leaseService leaseTTL).deps.tokenHMAC (leaseService leaseTTL).cfg.tokenHMACPepper ['t'] =
      some sampleParams.tokenHash := rfl

theorem reachable_created (leaseTTL : Duration) (clock : ℤ) :
    ∃ s, Reachable (step (leaseService leaseTTL)) (State.init clock) s ∧ s.clock = clock ∧
      s.leases = [] ∧ s.table.find 7 = some (sampleParams.row clock) := by
  let r := sampleParams.row clock
  have hchecks : r.Checks := (by decide : (sampleParams.row 0).Checks)
  let t : Table := ⟨[r], List.nodup_singleton _, List.nodup_singleton _, by simpa using hchecks⟩
  have hinsert : Table.empty.insert r = some t :=
    dif_pos ⟨hchecks, List.not_mem_nil, List.not_mem_nil⟩
  have hparams : insertParams (leaseService leaseTTL).deps (leaseService leaseTTL).cfg
      (sampleAnswers none).toCreateInputs "admin".toList sampleRequest =
        .ok (sampleParams, ['t']) := insertParams_sample
  exact ⟨_, .of_run (createRun_inserts (s := .init clock) hparams hinsert rfl), rfl, rfl,
    Table.find_eq_some.mpr ⟨List.mem_singleton_self r, rfl⟩⟩

/-- Where the fraction of the TTL is lost, the lease is not exclusive. -/
theorem leaseService_not_exclusive {leaseTTL : Duration} (hpos : 0 < leaseTTL.toInt)
    (hlong : leaseTTL.int64Seconds * 1000000000 + 1000 < leaseTTL.toInt) :
    ¬LeaseExclusive (leaseService leaseTTL) := by
  have hnonneg : 0 ≤ leaseTTL.int64Seconds := Duration.int64Seconds_nonneg hpos.le
  -- the clock starts so that the takeover happens at time 0
  obtain ⟨s, hs, hclock, hleases, hr⟩ :=
    reachable_created leaseTTL (-(leaseTTL.int64Seconds * 1000000 + 1))
  let r := sampleParams.row (-(leaseTTL.int64Seconds * 1000000 + 1))
  have hfailed : r.failedAttempts < r.maxFailedAttempts := (by decide : (0 : ℤ) < 3)
  have hexpires : s.clock + leaseTTL.int64Seconds * 1000000 + 1 < r.expiresAt := by
    rw [hclock]
    change _ < (3600000000 : ℤ)
    omega
  have hfresh₁ : (1 : UUID) ∉ s.leases := by
    rw [hleases]
    exact List.not_mem_nil
  have hfresh₂ : (2 : UUID) ∉ 1 :: s.leases := by
    rw [hleases]
    decide
  have hpassword : Verifies (leaseService leaseTTL).deps [] r.passwordHash := verifies_none _ _
  exact overtaken (r := r) hs hr (leaseService_token leaseTTL) hpassword hfresh₁ hfresh₂ rfl
    hfailed hnonneg hexpires hlong

/-- The lease is exclusive under every accepted configuration with the given TTL
exactly when the conversion of the TTL loses no more than a microsecond. -/
theorem lease_exclusive_iff {leaseTTL : Duration} (hpos : 0 < leaseTTL.toInt) :
    (∀ (parseRequestURI : Text → Option String) (toLower : Text → Text) (svc : Service),
      svc.cfg.Accepted parseRequestURI toLower → svc.cfg.consumingLeaseTTL = leaseTTL →
      LeaseExclusive svc) ↔
    leaseTTL.toInt % 1000000000 ≤ 1000 ∨ leaseTTL.RoundsUp := by
  have hseconds := Duration.int64Seconds_eq hpos.le
  constructor
  · intro h
    by_contra hno
    rw [not_or] at hno
    rw [if_neg hno.2] at hseconds
    exact leaseService_not_exclusive hpos (by omega) (h (fun _ => none) id (leaseService leaseTTL)
      (sampleConfig_accepted.withConsumingLeaseTTL hpos) rfl)
  · rintro h _ _ svc _ rfl
    apply leaseExclusive_of_le
    rcases h with hsmall | hup
    · have hfloor := Duration.floor_le_int64Seconds hpos.le
      omega
    · rw [if_pos hup] at hseconds
      omega

theorem lease_exclusive_iff_sample :
    (∀ (parseRequestURI : Text → Option String) (toLower : Text → Text) (svc : Service),
      svc.cfg.Accepted parseRequestURI toLower →
      svc.cfg.consumingLeaseTTL = 30 * Duration.second → LeaseExclusive svc) ↔
    (30 * Duration.second).toInt % 1000000000 ≤ 1000 ∨ Duration.RoundsUp (30 * Duration.second) :=
  lease_exclusive_iff (by decide)

/-- With a TTL of a second and a half, which loads, a lease is taken over after a
second and a microsecond. -/
theorem fraction_of_lease_is_lost :
    (leaseService 1500000000).cfg.Accepted (fun _ => none) id ∧
      (leaseService 1500000000).cfg.consumingLeaseTTL.toInt = 1500000000 ∧
      ¬LeaseExclusive (leaseService 1500000000) := by
  have hpos : 0 < (1500000000 : Duration).toInt := by decide
  refine ⟨sampleConfig_accepted.withConsumingLeaseTTL hpos, by decide, ?_⟩
  exact leaseService_not_exclusive hpos (by decide +kernel)

end SecureShare.Delivery
