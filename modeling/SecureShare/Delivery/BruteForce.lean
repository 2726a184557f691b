import SecureShare.Delivery.Authorisation
import SecureShare.Delivery.Retention
import SecureShare.Delivery.Revocation

/-!
# Guessing the password of a delivery

As long as the password is not managed again, the counter of a row is the number of wrong
guesses that were recorded, in whatever order the calls run. The one that reaches the
limit revokes the row, which stays so.
-/
namespace SecureShare.Delivery
open Go Library.Transition

/-- The UPDATE that counts a wrong guess. -/
def Service.failure (svc : Service) (tokenHash : Bytes) (hash : Text) : Statement :=
  .recordPasswordFailure tokenHash hash svc.cfg.consumingLeaseTTL.int64Seconds

/-- The step records a wrong guess for the delivery. -/
def recordsFailure (svc : Service) (d : UUID) (u : State) : Action → Bool
  | .advance i inputs =>
    match u.calls[i]? with
    | some (.consume _ _ (.failing tokenHash hash)) => inputs.database ≠ .failed &&
        (u.table.find d).any fun r => (svc.failure tokenHash hash).Guard u.clock r
    | _ => false
  | _ => false

/-- The step does not set or remove the password of the delivery. -/
def NotManaged (d : UUID) (u : State) (a : Action) : Prop :=
  ∀ i inputs password, a = .advance i inputs → u.calls[i]? ≠ some (.protect d password .updating)

/-- The call has been answered `LINK_PASSWORD_INVALID` for the token. -/
def Call.toldInvalid (svc : Service) (tokenHash : Bytes) : Call → Bool
  | .consume token _ (.refused e) => e.kind = .linkPasswordInvalid &&
      svc.deps.tokenHMAC svc.cfg.tokenHMACPepper token = some tokenHash
  | _ => false

def State.toldInvalid (svc : Service) (tokenHash : Bytes) (u : State) : ℕ :=
  u.calls.countP (Call.toldInvalid svc tokenHash)

section steps
variable {svc : Service} {inputs : Inputs} {now : ℤ} {t t' : Table} {token password : Text}
  {phase : ConsumePhase} {u v : State} {d : UUID} {r : Row} {a : Action} {i : ℕ}

/-- Only the answer to a recorded guess that is not the last one is `LINK_PASSWORD_INVALID`. -/
theorem consume_invalid {e : ServiceError}
    (h : svc.consume inputs now t token password phase = some (t', .refused e))
    (he : e.kind = .linkPasswordInvalid) :
    ∃ tokenHash hash r, phase = .failing tokenHash hash ∧ inputs.database = .answered ∧
      t.find r.id = some r ∧ (svc.failure tokenHash hash).Guard now r ∧ ¬r.LastAttempt := by
  cases phase with
  | finding =>
      have hphase := (Prod.mk.inj (Option.some.inj h)).2
      unfold Service.consumeFind at hphase
      split at hphase
      · cases hphase
        cases he
      · split at hphase
        · cases hphase
          cases he
        · cases hphase
          cases he
        · split at hphase
          · cases hphase
          · split_ifs at hphase
  | failing tokenHash hash =>
      have hphase := (Prod.mk.inj (Option.some.inj h)).2
      split at hphase
      · cases hphase
        cases he
      · rename_i failure hanswer
        obtain ⟨hanswered, hfailure⟩ := Outcome.answer_eq_some hanswer
        split_ifs at hphase with hunusual
        · cases hphase
          cases he
        · simp only [Repository.recordPasswordFailure] at hfailure
          cases hreturning : t.returning now (.recordPasswordFailure tokenHash hash
              svc.cfg.consumingLeaseTTL.int64Seconds) with
          | none =>
              rw [hreturning] at hfailure
              rw [← hfailure] at hunusual
              cases hunusual rfl
          | some r' =>
              obtain ⟨r, hr, hguard, rfl⟩ := Table.returning_eq_some hreturning
              refine ⟨tokenHash, hash, r, rfl, hanswered, hr, hguard, fun hlast => ?_⟩
              rw [hreturning] at hfailure
              rw [← hfailure] at hunusual
              simp [Statement.set, hlast] at hunusual
  | leasing tokenHash hash =>
      have hphase : (svc.consumeBegin inputs now t tokenHash hash).2 = .refused e :=
        congrArg Prod.snd (Option.some.inj h)
      unfold Service.consumeBegin at hphase
      split at hphase
      · cases hphase
        cases he
      · dsimp only at hphase
        split at hphase
        · cases hphase
          cases he
        · cases hphase
          cases he
        · cases hphase
  | decrypting item leaseID =>
      have hphase := (Prod.mk.inj (Option.some.inj h)).2
      unfold Service.consumeDecrypt at hphase
      split_ifs at hphase
      · split at hphase <;> cases hphase
  | restoring item leaseID =>
      cases h
      cases he
  | completing item leaseID plaintext =>
      have hphase : (Service.consumeComplete inputs now t item leaseID plaintext).2 = .refused e :=
        congrArg Prod.snd (Option.some.inj h)
      unfold Service.consumeComplete at hphase
      dsimp only at hphase
      split at hphase
      · cases hphase
        cases he
      · cases hphase
        cases he
      · split at hphase
        · cases hphase
          cases he
        · cases hphase
  | delivered | refused | abandoned => cases h

/-- A call that is about to count a failure was asked for the token that it counts for. -/
theorem failing_token {clock : ℤ} (h : Reachable (step svc) (State.init clock) u)
    {tokenHash : Bytes} {hash : Text}
    (hcall : u.calls[i]? = some (.consume token password (.failing tokenHash hash))) :
    svc.deps.tokenHMAC svc.cfg.tokenHMACPepper token = some tokenHash := by
  refine h.preserves (P := fun u => ∀ tokenHash hash,
    u.calls[i]? = some (.consume token password (.failing tokenHash hash)) →
    svc.deps.tokenHMAC svc.cfg.tokenHMACPepper token = some tokenHash) ?_ ?_ tokenHash hash hcall
  · intro tokenHash hash hcall
    rw [call_init] at hcall
    cases hcall
  intro u a v hu hstep tokenHash hash hcall
  cases step_call hstep hcall with
  | same _ hsame => exact hu tokenHash hash hsame
  | spawned request _ heq => cases request <;> cases heq
  | advanced inputs call hcall₀ _ _ hadvance =>
      obtain ⟨phase, rfl, hconsume⟩ := advance_eq_consume hadvance
      cases phase with
      | finding =>
          have hphase := (Prod.mk.inj (Option.some.inj hconsume)).2
          unfold Service.consumeFind at hphase
          split at hphase
          · cases hphase
          · rename_i hash' htoken
            split at hphase
            · cases hphase
            · cases hphase
            · split at hphase
              · cases hphase
              · split_ifs at hphase
                cases hphase
                exact htoken
      | failing | leasing | decrypting | restoring | completing =>
          generalize v.table = t at hconsume
          cases consume_step hconsume
      | delivered | refused | abandoned => cases hconsume
  | abandoned call _ habandon => cases abandon_consume habandon

/-- What a step of a call that counts a failure does. -/
theorem failing_step {tokenHash : Bytes} {hash : Text}
    (hcall : u.calls[i]? = some (.consume token password (.failing tokenHash hash)))
    (hstep : step svc u (.advance i inputs) = some v) :
    v.table = inputs.database.table u.table (u.table.exec u.clock (svc.failure tokenHash hash)) := by
  rw [step, hcall, Option.bind_some] at hstep
  split_ifs at hstep
  cases hstep
  rfl

theorem recordsFailure_iff : recordsFailure svc d u a = true ↔
    ∃ i inputs token password tokenHash hash r, a = .advance i inputs ∧
      u.calls[i]? = some (.consume token password (.failing tokenHash hash)) ∧
      inputs.database ≠ .failed ∧ u.table.find d = some r ∧
      (svc.failure tokenHash hash).Guard u.clock r := by
  constructor
  · intro h
    unfold recordsFailure at h
    split at h
    · split at h
      · rename_i i inputs _ token password tokenHash hash hcall
        rw [Bool.and_eq_true, decide_eq_true_eq, Option.any_eq_true] at h
        obtain ⟨hdatabase, r, hr, hguard⟩ := h
        exact ⟨i, inputs, token, password, tokenHash, hash, r, rfl, hcall, hdatabase, hr,
          of_decide_eq_true hguard⟩
      · cases h
    · cases h
  · rintro ⟨i, inputs, token, password, tokenHash, hash, r, rfl, hcall, hdatabase, hr, hguard⟩
    simp [recordsFailure, hcall, hdatabase, hr, hguard]

/-- The row after a guess that is recorded. -/
theorem row_of_recorded (hstep : step svc u a = some v) (hr : u.table.find d = some r)
    (h : recordsFailure svc d u a = true) : ∃ tokenHash hash,
      (svc.failure tokenHash hash).Guard u.clock r ∧
      v.table.find d = some ((svc.failure tokenHash hash).set u.clock r) := by
  obtain ⟨i, inputs, token, password, tokenHash, hash, r', rfl, hcall, hdatabase, hr', hguard⟩ :=
    recordsFailure_iff.mp h
  cases hr.symm.trans hr'
  have htable := failing_step hcall hstep
  have heffect : v.table = u.table.exec u.clock (svc.failure tokenHash hash) := by
    rw [htable]
    cases hout : inputs.database with
    | answered | lost => rfl
    | failed => exact absurd hout hdatabase
  refine ⟨tokenHash, hash, hguard, ?_⟩
  rw [heffect, Table.find_exec, hr, Option.map_some, Statement.exec_of_guard hguard]

/-- What the other steps keep of a row. -/
structure Uncounted (r r' : Row) : Prop where
  tokenHash : r'.tokenHash = r.tokenHash
  passwordHash : r'.passwordHash = r.passwordHash
  failedAttempts : r'.failedAttempts = r.failedAttempts
  maxFailedAttempts : r'.maxFailedAttempts = r.maxFailedAttempts
  locked : r.status = .revoked → r.encryptedPayload = [] →
    r'.status = .revoked ∧ r'.encryptedPayload = []

theorem Uncounted.refl (r : Row) : Uncounted r r := ⟨rfl, rfl, rfl, rfl, fun h h' => ⟨h, h'⟩⟩

theorem locked_stays {stmt : Statement} (hguard : stmt.Guard now r) (hs : r.status = .revoked)
    (hblank : r.encryptedPayload = []) :
    (stmt.set now r).status = .revoked ∧ (stmt.set now r).encryptedPayload = [] := by
  have hterminal : r.status.terminal = true := by rw [hs]; rfl
  obtain ⟨_, _, _, heq⟩ := exec_absorbed hterminal now stmt
  have hempty := exec_blank hblank now stmt
  rw [Statement.exec_of_guard hguard] at heq hempty
  exact ⟨by rw [heq]; exact hs, hempty⟩

theorem row_of_unrecorded (hstep : step svc u a = some v) (hr : u.table.find d = some r)
    (hmanaged : NotManaged d u a) (h : recordsFailure svc d u a = false) :
    ∃ r', v.table.find d = some r' ∧ Uncounted r r' := by
  rcases step_find hstep hr with hsame | ⟨i, inputs, call, time, stmt, rfl, hcall, hstmt, hguard, hset⟩
  · exact ⟨r, hsame, .refl r⟩
  · have hid : r.id = d := Table.find_id hr
    cases hstmt with
    | counting token password tokenHash hash =>
        have hfailed : inputs.database = .failed := by
          by_contra hdatabase
          have hrecords := recordsFailure_iff.mpr
            ⟨i, inputs, token, password, tokenHash, hash, r, rfl, hcall, hdatabase, hr, hguard⟩
          rw [h] at hrecords
          cases hrecords
        refine ⟨r, ?_, .refl r⟩
        rw [failing_step hcall hstep, hfailed]
        exact hr
    | protecting id password hash _ =>
        obtain rfl : r.id = id := hguard.1
        subst hid
        exact absurd hcall (hmanaged i inputs password rfl)
    | leasing | restoring | completing | revoking | expiring | givingBack | blanking =>
        exact ⟨_, hset, ⟨rfl, rfl, rfl, rfl, locked_stays hguard⟩⟩

theorem toldInvalid_iff {tokenHash : Bytes} {call : Call} : call.toldInvalid svc tokenHash = true ↔
    ∃ token password e, call = .consume token password (.refused e) ∧
      e.kind = .linkPasswordInvalid ∧
      svc.deps.tokenHMAC svc.cfg.tokenHMACPepper token = some tokenHash := by
  constructor
  · intro h
    unfold Call.toldInvalid at h
    split at h
    · rw [Bool.and_eq_true, decide_eq_true_eq, decide_eq_true_eq] at h
      exact ⟨_, _, _, rfl, h⟩
    · cases h
  · rintro ⟨token, password, e, rfl, hkind, htoken⟩
    simp [Call.toldInvalid, hkind, htoken]

theorem told_set {tokenHash : Bytes} {call : Call} (call' : Call) (hcall : u.calls[i]? = some call)
    (hbefore : call.toldInvalid svc tokenHash = false) :
    (u.calls.set i call').countP (Call.toldInvalid svc tokenHash) =
      u.toldInvalid svc tokenHash + (call'.toldInvalid svc tokenHash).toNat := by
  obtain ⟨hlt, hget⟩ := List.getElem?_eq_some_iff.mp hcall
  rw [List.countP_set hlt, hget, hbefore]
  cases call'.toldInvalid svc tokenHash <;> rfl

/-- A call is told that its guess is wrong by the step that records it, unless that was
the last one. -/
theorem toldInvalid_step {clock : ℤ} (hreach : Reachable (step svc) (State.init clock) u)
    (hstep : step svc u a = some v) (hr : u.table.find d = some r) :
    v.toldInvalid svc r.tokenHash = u.toldInvalid svc r.tokenHash ∨
      recordsFailure svc d u a = true ∧ ¬r.LastAttempt ∧
        v.toldInvalid svc r.tokenHash = u.toldInvalid svc r.tokenHash + 1 := by
  cases step_taken hstep with
  | tick => exact .inl rfl
  | spawn request =>
      left
      have hnew : request.call.toldInvalid svc r.tokenHash = false := by cases request <;> rfl
      simp [State.toldInvalid, List.countP_append, hnew]
  | abandon i call call' hcall habandon =>
      left
      have hbefore : call.toldInvalid svc r.tokenHash = false := by
        rw [← Bool.not_eq_true, toldInvalid_iff]
        rintro ⟨_, _, _, rfl, _⟩
        cases habandon
      have hafter : call'.toldInvalid svc r.tokenHash = false := by
        rw [← Bool.not_eq_true, toldInvalid_iff]
        rintro ⟨_, _, _, rfl, _⟩
        cases abandon_consume habandon
      rw [State.toldInvalid, told_set call' hcall hbefore, hafter]
      rfl
  | advance i inputs call call' t hcall _ hadvance =>
      have hbefore : call.toldInvalid svc r.tokenHash = false := by
        rw [← Bool.not_eq_true, toldInvalid_iff]
        rintro ⟨_, _, _, rfl, _⟩
        cases hadvance
      have hcount := told_set call' hcall hbefore
      cases hafter : call'.toldInvalid svc r.tokenHash with
      | false =>
          left
          rw [hafter] at hcount
          exact hcount
      | true =>
          right
          rw [hafter] at hcount
          obtain ⟨token, password, e, rfl, hkind, htoken⟩ := toldInvalid_iff.mp hafter
          obtain ⟨phase, rfl, hconsume⟩ := advance_eq_consume hadvance
          obtain ⟨tokenHash, hash, r', rfl, hanswered, hr', hguard, hlast⟩ :=
            consume_invalid hconsume hkind
          have hfailing := failing_token hreach hcall
          have hhash : r.tokenHash = r'.tokenHash := by
            rw [hguard.1, ← Option.some.injEq, ← htoken, ← hfailing]
          obtain rfl := Table.eq_of_tokenHash hr hr' hhash
          refine ⟨recordsFailure_iff.mpr ⟨i, inputs, token, password, tokenHash, hash, r, rfl, hcall,
            ?_, hr, hguard⟩, hlast, hcount⟩
          rw [hanswered]
          decide

/-- A wrong guess leaves the row as it is, or it finds no lease or one that is over, and
leaves none. -/
theorem wrong_guess_step {tokenHash : Bytes} {hash : Text} {k : ℤ} (hk : 0 ≤ k)
    (hwhole : svc.cfg.consumingLeaseTTL.toInt = k * 1000000000)
    (hcall : u.calls[i]? = some (.consume token password (.failing tokenHash hash)))
    (hstep : step svc u (.advance i inputs) = some v) (hr : u.table.find d = some r) :
    ∃ r', v.table.find d = some r' ∧ (r' = r ∨ r'.consumingLeaseID = none ∧
      (r.status = .active ∨ r.status = .consuming ∧ ∃ started ∈ r.consumingStartedAt,
        started * 1000 + svc.cfg.consumingLeaseTTL.toInt < u.clock * 1000)) := by
  rw [failing_step hcall hstep]
  rcases inputs.database.table_eq u.table (u.table.exec u.clock (svc.failure tokenHash hash)) with
    htable | htable
  · rw [htable]
    exact ⟨r, hr, .inl rfl⟩
  · rw [htable, Table.find_exec, hr, Option.map_some]
    refine ⟨_, rfl, ?_⟩
    by_cases hguard : (svc.failure tokenHash hash).Guard u.clock r
    · right
      rw [Statement.exec_of_guard hguard]
      refine ⟨rfl, hguard.2.2.2.2.imp_right ?_⟩
      rintro ⟨hs, started, hstarted, hstale⟩
      rw [Duration.int64Seconds_of_whole hk hwhole, Row.interval] at hstale
      exact ⟨hs, started, hstarted, by omega⟩
    · exact .inl (Statement.exec_of_not_guard hguard)

/-- Whoever takes the lease has passed the password that the row has. -/
theorem lease_taken_step {clock : ℤ} (hreach : Reachable (step svc) (State.init clock) u)
    (hstep : step svc u a = some v) (hr : u.table.find d = some r) {r' : Row} {leaseID : UUID}
    (hr' : v.table.find d = some r') (hleased : r'.LeasedBy leaseID)
    (hnew : ¬r.LeasedBy leaseID) :
    ∃ i inputs token password tokenHash hash, a = .advance i inputs ∧
      u.calls[i]? = some (.consume token password (.leasing tokenHash hash)) ∧
      Verifies svc.deps password r.passwordHash := by
  rcases step_find hstep hr with hsame | ⟨i, inputs, call, time, stmt, rfl, hcall, hstmt, hguard, hset⟩
  · cases hsame.symm.trans hr'
    exact absurd hleased hnew
  · cases hset.symm.trans hr'
    obtain ⟨tokenHash, hash, n, rfl⟩ := Statement.set_leasedBy hguard hleased
    cases hstmt with
    | leasing token password _ _ _ _ =>
        obtain ⟨_, hverifies⟩ := sound_of_reachable hreach hcall
        refine ⟨i, inputs, token, password, tokenHash, hash, rfl, hcall, ?_⟩
        rw [hguard.2.1]
        exact hverifies

/-- The delivery that a reader has completed is consumed. -/
theorem consumed_of_delivered {clock : ℤ} (h : Reachable (step svc) (State.init clock) u)
    {item : ConsumeCandidate} {response : ConsumeResponse}
    (hcall : u.calls[i]? = some (.consume token password (.delivered item response))) :
    ∃ r, u.table.find item.id = some r ∧ r.status = .consumed := by
  refine h.preserves (P := fun u => u.calls[i]? = some (.consume token password
    (.delivered item response)) → ∃ r, u.table.find item.id = some r ∧ r.status = .consumed)
    ?_ ?_ hcall
  · intro hcall
    rw [call_init] at hcall
    cases hcall
  intro u a v hu hstep hcall
  cases step_call hstep hcall with
  | same _ hsame =>
      obtain ⟨r, hr, hs⟩ := hu hsame
      obtain ⟨r', hr', hs'⟩ := terminal_stays (.of_step hstep) hr (by rw [hs]; rfl)
      exact ⟨r', hr', hs'.trans hs⟩
  | spawned request _ heq => cases request <;> cases heq
  | advanced inputs call hcall₀ _ _ hadvance =>
      obtain ⟨phase, rfl, hconsume⟩ := advance_consume hadvance
      generalize v.table = t at hconsume ⊢
      cases hconsume with
      | completed _ leaseID plaintext canonical legacy r hr hguard _ =>
          rw [Table.find_exec, hr, Option.map_some, Statement.exec_of_guard hguard]
          exact ⟨_, rfl, rfl⟩
  | abandoned call _ habandon => cases abandon_consume habandon

end steps

section runs
variable {svc : Service} {s t u v : State} {as : List Action} {a : Action} {d : UUID} {r : Row}
  {clock : ℤ} {told n : ℕ}

/-- The state of a delivery for which so many wrong guesses have been recorded. -/
structure Guessed (svc : Service) (clock : ℤ) (d : UUID) (r : Row) (told n : ℕ) (u : State) :
    Prop where
  reachable : Reachable (step svc) (State.init clock) u
  row : ∃ r', u.table.find d = some r' ∧ r'.tokenHash = r.tokenHash ∧
    r'.maxFailedAttempts = r.maxFailedAttempts ∧ r'.failedAttempts = n ∧
    (n = r.maxFailedAttempts → r'.status = .revoked ∧ r'.encryptedPayload = [])
  bounded : n ≤ r.maxFailedAttempts
  told_le : u.toldInvalid svc r.tokenHash ≤ told + n
  told_lt : u.toldInvalid svc r.tokenHash < told + r.maxFailedAttempts

theorem Guessed.step (h : Guessed svc clock d r told n u) (hmanaged : NotManaged d u a)
    (hstep : Delivery.step svc u a = some v) :
    Guessed svc clock d r told (n + (recordsFailure svc d u a).toNat) v := by
  obtain ⟨r', hr', htoken, hmax, hfailed, hlocked⟩ := h.row
  have hreach := h.reachable.tail hstep
  have hle := h.told_le
  have hlt := h.told_lt
  have hbound := h.bounded
  have htold := toldInvalid_step h.reachable hstep hr'
  rw [htoken] at htold
  cases hrecords : recordsFailure svc d u a with
  | true =>
      obtain ⟨tokenHash, hash, hguard, hset⟩ := row_of_recorded hstep hr' hrecords
      have hleft : r'.failedAttempts < r'.maxFailedAttempts := hguard.2.2.2.1
      refine ⟨hreach, ⟨_, hset, htoken, hmax, ?_, ?_⟩, ?_, ?_, ?_⟩
      · simp [Service.failure, Statement.set, hfailed]
      · intro hlimit
        have hlast : r'.LastAttempt := by
          simp only [Bool.toNat_true, Nat.cast_add, Nat.cast_one] at hlimit
          rw [Row.LastAttempt]
          omega
        simp [Service.failure, Statement.set, hlast]
      · simp only [Bool.toNat_true, Nat.cast_add, Nat.cast_one]
        omega
      · simp only [Bool.toNat_true]
        omega
      · rcases htold with hsame | ⟨_, hlast, hmore⟩
        · omega
        · rw [Row.LastAttempt] at hlast
          omega
  | false =>
      obtain ⟨r'', hr'', hkept⟩ := row_of_unrecorded hstep hr' hmanaged hrecords
      have hsame : v.toldInvalid svc r.tokenHash = u.toldInvalid svc r.tokenHash := by
        rcases htold with hsame | ⟨htrue, _⟩
        · exact hsame
        · rw [hrecords] at htrue
          cases htrue
      refine ⟨hreach, ⟨r'', hr'', hkept.tokenHash.trans htoken, hkept.maxFailedAttempts.trans hmax,
        hkept.failedAttempts.trans hfailed, fun hlimit => ?_⟩, hbound, ?_, ?_⟩
      · obtain ⟨hs, hblank⟩ := hlocked hlimit
        exact hkept.locked hs hblank
      · rw [hsame]
        exact hle
      · rw [hsame]
        exact hlt

/-- Of a delivery without recorded guesses, at the end of a run. -/
theorem guessed_of_run (hreach : Reachable (step svc) (State.init clock) s)
    (hr : s.table.find d = some r) (hfresh : r.failedAttempts = 0)
    (hrun : run (step svc) s as = some t) (hmanaged : EveryStep (step svc) s as (NotManaged d)) :
    Guessed svc clock d r (s.toldInvalid svc r.tokenHash)
      (tally (step svc) (recordsFailure svc d) s as) t := by
  have hpos : 0 < r.maxFailedAttempts := by
    obtain ⟨_, _, _, _, _, _, hmax, _⟩ := s.table.checks r (Table.find_eq_some.mp hr).1
    omega
  have hstart : Guessed svc clock d r (s.toldInvalid svc r.tokenHash) 0 s :=
    ⟨hreach, ⟨r, hr, rfl, rfl, hfresh, fun hlimit => by omega⟩, hpos.le, by omega, by omega⟩
  have hend := tally_induction (P := Guessed svc clock d r (s.toldInvalid svc r.tokenHash)) hrun
    hmanaged hstart fun n u a v hu ha hstep => hu.step ha hstep
  rwa [Nat.zero_add] at hend

/-- What wrong guesses achieve in a run, and what they prevent. -/
structure GuessesBounded (svc : Service) (d : UUID) (r : Row) (s : State) (as : List Action)
    (t : State) : Prop where
  recorded : tally (step svc) (recordsFailure svc d) s as ≤ r.maxFailedAttempts
  locks : ∀ pre a u v, pre ++ [a] <+: as → run (step svc) s pre = some u →
    step svc u a = some v → recordsFailure svc d u a = true →
    ∃ r₁ r₂, u.table.find d = some r₁ ∧ v.table.find d = some r₂ ∧
      if tally (step svc) (recordsFailure svc d) s pre + 1 = r.maxFailedAttempts then
        r₂.status = .revoked ∧ r₂.encryptedPayload = []
      else r₂.status = .active ∧ r₂.encryptedPayload = r₁.encryptedPayload
  answered : t.toldInvalid svc r.tokenHash ≤
    s.toldInvalid svc r.tokenHash + (r.maxFailedAttempts - 1)
  keepsLease : EveryStep (step svc) s as fun u a => ∀ i inputs token password tokenHash hash v,
    a = .advance i inputs →
    u.calls[i]? = some (.consume token password (.failing tokenHash hash)) →
    step svc u a = some v → ∃ r₁ r₂, u.table.find d = some r₁ ∧ v.table.find d = some r₂ ∧
      (r₂ = r₁ ∨ r₂.consumingLeaseID = none ∧
        (r₁.status = .active ∨ r₁.status = .consuming ∧ ∃ started ∈ r₁.consumingStartedAt,
          started * 1000 + svc.cfg.consumingLeaseTTL.toInt < u.clock * 1000))
  earnsLease : EveryStep (step svc) s as fun u a => ∀ r₁ r₂ leaseID v,
    step svc u a = some v → u.table.find d = some r₁ → v.table.find d = some r₂ →
    r₂.LeasedBy leaseID → ¬r₁.LeasedBy leaseID →
    ∃ i inputs token password tokenHash hash, a = .advance i inputs ∧
      u.calls[i]? = some (.consume token password (.leasing tokenHash hash)) ∧
      Verifies svc.deps password r₁.passwordHash
  final : tally (step svc) (recordsFailure svc d) s as = r.maxFailedAttempts →
    ∀ (i : ℕ) (c : Call), t.calls[i]? = some c → ¬c.Delivered d

/-- Whatever is guessed, by however many calls in whatever order, at most so many guesses
are recorded as the delivery allows, the last one locks it, and nobody reads it then. -/
theorem guesses_bounded {k : ℤ} (hk : 0 ≤ k)
    (hwhole : svc.cfg.consumingLeaseTTL.toInt = k * 1000000000)
    (hreach : Reachable (step svc) (State.init clock) s) (hr : s.table.find d = some r)
    (hfresh : r.failedAttempts = 0) (hrun : run (step svc) s as = some t)
    (hmanaged : EveryStep (step svc) s as (NotManaged d)) :
    GuessesBounded svc d r s as t := by
  have hbefore : ∀ pre u, pre <+: as → run (step svc) s pre = some u →
      Guessed svc clock d r (s.toldInvalid svc r.tokenHash)
        (tally (step svc) (recordsFailure svc d) s pre) u :=
    fun pre u hpre hu => guessed_of_run hreach hr hfresh hu (hmanaged.of_prefix hpre)
  have hend := hbefore as t (List.prefix_refl as) hrun
  constructor
  case recorded => exact hend.bounded
  case locks =>
    intro pre a u v hpre hu hstep hrecords
    obtain ⟨r₁, hr₁, _, hmax, hfailed, _⟩ :=
      (hbefore pre u ((List.prefix_append pre [a]).trans hpre) hu).row
    obtain ⟨tokenHash, hash, hguard, hset⟩ := row_of_recorded hstep hr₁ hrecords
    have hleft : r₁.failedAttempts < r₁.maxFailedAttempts := hguard.2.2.2.1
    refine ⟨r₁, _, hr₁, hset, ?_⟩
    split_ifs with hlimit
    · have hlast : r₁.LastAttempt := by
        rw [Row.LastAttempt]
        omega
      simp [Service.failure, Statement.set, hlast]
    · have hlast : ¬r₁.LastAttempt := by
        rw [Row.LastAttempt]
        omega
      simp [Service.failure, Statement.set, hlast]
  case answered =>
    have hlt := hend.told_lt
    omega
  case keepsLease =>
    rintro pre a u hpre hu i inputs token password tokenHash hash v rfl hcall hstep
    obtain ⟨r₁, hr₁, _⟩ := (hbefore pre u ((List.prefix_append pre _).trans hpre) hu).row
    obtain ⟨r₂, hr₂, hkept⟩ := wrong_guess_step hk hwhole hcall hstep hr₁
    exact ⟨r₁, r₂, hr₁, hr₂, hkept⟩
  case earnsLease =>
    intro pre a u hpre hu r₁ r₂ leaseID v hstep hr₁ hr₂ hleased hnew
    exact lease_taken_step (hreach.trans (.of_run hu)) hstep hr₁ hr₂ hleased hnew
  case final =>
    rintro hlimit i c hcall ⟨token, password, item, response, rfl, hitem⟩
    obtain ⟨r', hr', _, _, _, hlocked⟩ := hend.row
    obtain ⟨r'', hr'', hconsumed⟩ := consumed_of_delivered hend.reachable hcall
    rw [hitem, hr'] at hr''
    cases hr''
    have hrevoked := (hlocked hlimit).1
    rw [hconsumed] at hrevoked
    cases hrevoked

/-- A call that is about managing a password after its step was so before. -/
theorem advance_protect {call : Call} {inputs : Inputs} {now : ℤ} {t t' : Table}
    {password : Option Text} {phase' : ProtectPhase}
    (h : call.advance svc inputs now t = some (t', .protect d password phase')) :
    ∃ phase, call = .protect d password phase := by
  cases call with
  | protect _ _ phase =>
      obtain ⟨⟨_, _⟩, _, heq⟩ := Option.map_eq_some_iff.mp h
      cases heq
      exact ⟨phase, rfl⟩
  | create _ _ phase => cases phase <;> cases h
  | consume | revoke | cleanup =>
      obtain ⟨_, _, heq⟩ := Option.map_eq_some_iff.mp h
      cases heq

theorem abandon_protect {call : Call} {password : Option Text} {phase' : ProtectPhase}
    (h : call.abandon = some (.protect d password phase')) :
    ∃ phase, call = .protect d password phase := by
  cases call with
  | protect _ _ phase =>
      cases phase <;> cases h
      exact ⟨_, rfl⟩
  | create _ _ phase => cases phase <;> cases h
  | consume _ _ phase => cases phase <;> cases h
  | revoke _ phase => cases phase <;> cases h
  | cleanup phase => cases phase <;> cases h

/-- Where nobody is asked to manage the password, nobody does. -/
theorem notManaged_of_requests
    (hcalls : ∀ c ∈ s.calls, ∀ password phase, c ≠ .protect d password phase)
    (hspawned : ∀ a ∈ as, ∀ password, a ≠ .spawn (.protect d password)) :
    EveryStep (step svc) s as (NotManaged d) := by
  have hevery : EveryStep (step svc) s as fun _ a => ∀ password, a ≠ .spawn (.protect d password) :=
    fun pre a u hpre _ => hspawned a (hpre.subset (by simp))
  have hnone := hevery.always
    (P := fun u => ∀ c ∈ u.calls, ∀ password phase, c ≠ .protect d password phase) hcalls ?_
  · rintro pre a u hpre hrun i inputs password _ hcall
    exact hnone pre u ((List.prefix_append pre [a]).trans hpre) hrun _
      (List.mem_of_getElem? hcall) password .updating rfl
  rintro u a v hu ha hstep c hc password phase rfl
  cases step_taken hstep with
  | tick => exact hu _ hc password phase rfl
  | spawn request =>
      rcases List.mem_append.mp hc with hold | hnew
      · exact hu _ hold password phase rfl
      · have heq := List.mem_singleton.mp hnew
        cases request <;> cases heq
        exact ha password rfl
  | advance i inputs call call' t' hcall _ hadvance =>
      rcases List.mem_or_eq_of_mem_set hc with hold | rfl
      · exact hu _ hold password phase rfl
      · obtain ⟨phase₀, rfl⟩ := advance_protect hadvance
        exact hu _ (List.mem_of_getElem? hcall) password phase₀ rfl
  | abandon i call call' hcall habandon =>
      rcases List.mem_or_eq_of_mem_set hc with hold | rfl
      · exact hu _ hold password phase rfl
      · obtain ⟨phase₀, rfl⟩ := abandon_protect habandon
        exact hu _ (List.mem_of_getElem? hcall) password phase₀ rfl

/-- A delivery that two wrong guesses lock. -/
def sampleProtectedCreation : List Action :=
  [.spawn (.create "admin".toList
      { sampleRequest with password := some ['p'], maxFailedAttempts := 2 }),
    .advance 0 (sampleAnswers none)]

/-- Two guesses are counted after the right password has been verified. -/
def sampleGuessing : List Action :=
  [.spawn (.consume ['t'] ['x']), .spawn (.consume ['t'] ['p']), .spawn (.consume ['t'] ['y']),
    .advance 1 (sampleAnswers none), .advance 2 (sampleAnswers none),
    .advance 3 (sampleAnswers none), .advance 1 (sampleAnswers none),
    .advance 3 (sampleAnswers none), .advance 2 (sampleAnswers (some 1))]

theorem guesses_bounded_sample :
    ∃ s r t, Reachable (step sampleService) (State.init 0) s ∧ s.table.find 7 = some r ∧
      r.maxFailedAttempts = 2 ∧ run (step sampleService) s sampleGuessing = some t ∧
      t.calls[2]? = some (.consume ['t'] ['p'] (.refused unavailable)) ∧
      GuessesBounded sampleService 7 r s sampleGuessing t := by
  have hrun : (run (step sampleService) (State.init 0) sampleProtectedCreation).map (fun s =>
      ((s.table.find 7).map fun r => (r.failedAttempts, r.maxFailedAttempts),
        s.calls.all fun c => c matches .create _ _ _)) = some (some (0, 2), true) := by
    decide +kernel
  have hrun' : (run (step sampleService) (State.init 0)
      (sampleProtectedCreation ++ sampleGuessing)).map (fun t => t.calls[2]?) =
      some (some (.consume ['t'] ['p'] (.refused unavailable))) := by
    decide +kernel
  obtain ⟨s, hs, hread⟩ := Option.map_eq_some_iff.mp hrun
  obtain ⟨t, ht, hcall⟩ := Option.map_eq_some_iff.mp hrun'
  rw [run_append, hs, Option.bind_some] at ht
  obtain ⟨hrow, hcreate⟩ := Prod.mk.inj hread
  obtain ⟨r, hr, hattempts⟩ := Option.map_eq_some_iff.mp hrow
  obtain ⟨hfresh, hmax⟩ := Prod.mk.inj hattempts
  refine ⟨s, r, t, .of_run hs, hr, hmax, ht, hcall, ?_⟩
  refine guesses_bounded (k := 30) (by decide) (by decide) (.of_run hs) hr hfresh ht ?_
  apply notManaged_of_requests
  · rintro c hc password phase rfl
    cases List.all_eq_true.mp hcreate _ hc
  · intro a ha password heq
    subst heq
    simp [sampleGuessing] at ha

end runs
end SecureShare.Delivery
