import SecureShare.Delivery.LeaseToken

/-!
# Authorisation at the moment of reveal

While a row carries a lease that was drawn in the past, no statement changes it.
What a reader knew of the delivery when it took the lease is therefore still true
when it completes: the token, the password hash that its password passed, and the
ciphertext that it decrypted.
-/
namespace SecureShare.Delivery
open Go Library.Transition

/-- The row is leased under the given ID. -/
def Row.LeasedBy (leaseID : UUID) (r : Row) : Prop :=
  r.status = .consuming ∧ r.consumingLeaseID = some leaseID

theorem Statement.set_leasedBy {now : ℤ} {stmt : Statement} {r : Row} {leaseID : UUID}
    (hguard : stmt.Guard now r) (h : (stmt.set now r).LeasedBy leaseID) :
    ∃ tokenHash hash n, stmt = .beginConsume tokenHash hash leaseID n := by
  obtain ⟨hs, hl⟩ := h
  cases stmt with
  | beginConsume =>
      cases hl
      exact ⟨_, _, _, rfl⟩
  | recordPasswordFailure | restoreConsume | completeConsume | revoke | restoreStale => cases hl
  | updatePasswordProtection =>
      have hactive := hguard.2.1
      rw [show r.status = .consuming from hs] at hactive
      cases hactive
  | expireActive => cases hs
  | blankRetained =>
      rcases hguard.2 with ⟨h, _⟩ | ⟨h, _⟩ | ⟨h, _⟩ <;>
        rw [show r.status = .consuming from hs] at h <;> cases h

/-- Only a lease that is drawn in the step itself appears in a row. -/
theorem leasedBy_back {svc : Service} {s s' : State} {a : Action} (h : step svc s a = some s')
    {d leaseID : UUID} {r : Row} (hr : s'.table.find d = some r) (hleased : r.LeasedBy leaseID)
    (hissued : leaseID ∈ s.leases) : s.table.find d = some r := by
  cases step_taken h with
  | tick | spawn | abandon => exact hr
  | advance i inputs call call' t hcall hfresh hadvance =>
      cases advance_writes hadvance with
      | nothing => exact hr
      | insert _ r' hinserts =>
          obtain ⟨_, _, params, _, _, _, rfl, hinsert⟩ := hinserts
          have hfind := Table.find_insert hinsert d
          split_ifs at hfind with hid
          · rw [hfind] at hr
            cases hr
            cases hleased.1
          · exact hfind.symm.trans hr
      | statement time stmt hstmt =>
          have hfind := Table.find_exec time stmt s.table d
          obtain ⟨r₀, hr₀, heq⟩ := Option.map_eq_some_iff.mp (hfind.symm.trans hr)
          subst heq
          by_cases hguard : stmt.Guard time r₀
          · rw [Statement.exec_of_guard hguard] at hleased
            obtain ⟨tokenHash, hash, n, rfl⟩ := Statement.set_leasedBy hguard hleased
            refine absurd hissued (hfresh leaseID ?_)
            cases hstmt with
            | leasing _ _ _ _ _ hdrawn => exact hdrawn
          · rwa [Statement.exec_of_not_guard hguard]

/-- What a reader that took a lease may rely on for as long as the row carries it. -/
structure Entitled (svc : Service) (s : State) (token password : Text) (item : ConsumeCandidate)
    (leaseID : UUID) : Prop where
  issued : leaseID ∈ s.leases
  password : Verifies svc.deps password item.passwordHash
  row : ∀ r, s.table.find item.id = some r → r.LeasedBy leaseID → r.candidate = item ∧
    svc.deps.tokenHMAC svc.cfg.tokenHMACPepper token = some r.tokenHash

/-- What is known of a reader in each phase. -/
def Sound (svc : Service) (s : State) (token password : Text) : ConsumePhase → Prop
  | .leasing tokenHash hash =>
    svc.deps.tokenHMAC svc.cfg.tokenHMACPepper token = some tokenHash ∧
      Verifies svc.deps password hash
  | .decrypting item leaseID | .restoring item leaseID =>
    Entitled svc s token password item leaseID
  | .completing item leaseID plaintext => Entitled svc s token password item leaseID ∧
    svc.deps.decrypt item.encryptedPayload = some plaintext
  | .finding | .failing _ _ | .delivered _ _ | .refused _ | .abandoned => True

section invariant
variable {svc : Service} {s s' : State} {a : Action} {token password : Text}

theorem step_leases (h : step svc s a = some s') : s.leases ⊆ s'.leases := by
  cases step_taken h with
  | tick | spawn | abandon => exact List.Subset.refl _
  | advance => exact List.subset_append_right _ _

theorem Entitled.step {item : ConsumeCandidate} {leaseID : UUID}
    (h : Entitled svc s token password item leaseID) (hstep : step svc s a = some s') :
    Entitled svc s' token password item leaseID where
  issued := step_leases hstep h.issued
  password := h.password
  row := fun r hr hleased => h.row r (leasedBy_back hstep hr hleased h.issued) hleased

theorem Sound.step {phase : ConsumePhase} (h : Sound svc s token password phase)
    (hstep : Delivery.step svc s a = some s') : Sound svc s' token password phase := by
  cases phase with
  | leasing => exact h
  | decrypting | restoring => exact Entitled.step h hstep
  | completing => exact ⟨h.1.step hstep, h.2⟩
  | finding | failing | delivered | refused | abandoned => trivial

theorem ConsumeStep.sound {inputs : Inputs} {phase phase' : ConsumePhase}
    (h : Sound svc s token password phase)
    (hleases : s'.leases = ((Call.consume token password phase).drawnLease inputs).toList ++
      s.leases)
    (hstep : ConsumeStep svc inputs s.clock token password s.table phase s'.table phase')
    (hentitled : ∀ item leaseID, Entitled svc s token password item leaseID →
      Entitled svc s' token password item leaseID) : Sound svc s' token password phase' := by
  generalize htable : s'.table = t at hstep
  cases hstep with
  | found _ _ htoken hverifies => exact ⟨htoken, hverifies⟩
  | mismatched | unfound | counted | unleased | leaseLost | restored | uncompleted | completed =>
      trivial
  | leased tokenHash hash leaseID r hlease hr hguard =>
      obtain ⟨htoken, hverifies⟩ := h
      have hdrawn : (Call.consume token password (.leasing tokenHash hash)).drawnLease inputs =
          some leaseID := hlease
      rw [hdrawn] at hleases
      have hhash : r.candidate.passwordHash = hash := hguard.2.1
      refine ⟨?_, by rwa [hhash], ?_⟩
      · rw [hleases]
        exact List.mem_cons_self
      · intro r' hr' _
        have hfind : s'.table.find r.id = some (Statement.set s.clock r
            (.beginConsume tokenHash hash leaseID svc.cfg.consumingLeaseTTL.int64Seconds)) := by
          rw [htable, Table.find_exec, hr, Option.map_some, Statement.exec_of_guard hguard]
        obtain rfl := Option.some.inj (hr'.symm.trans hfind)
        exact ⟨rfl, hguard.1 ▸ htoken⟩
  | decrypted item leaseID plaintext hdecrypt => exact ⟨hentitled item leaseID h, hdecrypt⟩
  | undecrypted item leaseID => exact hentitled item leaseID h

theorem sound_of_reachable {clock : ℤ} (h : Reachable (step svc) (State.init clock) s) {i : ℕ}
    {phase : ConsumePhase} (hcall : s.calls[i]? = some (.consume token password phase)) :
    Sound svc s token password phase := by
  refine h.preserves (P := fun u => ∀ phase, u.calls[i]? = some (.consume token password phase) →
    Sound svc u token password phase) ?_ ?_ phase hcall
  · intro phase hphase
    rw [call_init] at hphase
    cases hphase
  intro u a v hu hstep phase hphase
  cases step_call hstep hphase with
  | same _ hsame => exact (hu phase hsame).step hstep
  | spawned request _ heq =>
      cases request <;> cases heq
      trivial
  | advanced inputs call hcall _ hleases hadvance =>
      obtain ⟨phase₀, rfl, hconsume⟩ := advance_consume hadvance
      exact hconsume.sound (hu phase₀ hcall) hleases fun _ _ hentitled => hentitled.step hstep
  | abandoned call _ habandon =>
      rw [abandon_consume habandon]
      trivial

end invariant

section reveal
variable {svc : Service} {s : State} {clock : ℤ} {i : ℕ} {token password : Text}
  {item : ConsumeCandidate}

/-- Call `i` takes the lease of a delivery that is unexpired and not locked. -/
def Leases (svc : Service) (i : ℕ) (token password : Text) (item : ConsumeCandidate)
    (leaseID : UUID) (u : State) (a : Action) : Prop :=
  ∃ inputs tokenHash hash r, a = .advance i inputs ∧ inputs.leaseID = some leaseID ∧
    u.calls[i]? = some (.consume token password (.leasing tokenHash hash)) ∧
    u.table.find item.id = some r ∧ r.candidate = item ∧
    (Statement.beginConsume tokenHash hash leaseID
      svc.cfg.consumingLeaseTTL.int64Seconds).Guard u.clock r ∧
    u.clock < r.expiresAt ∧ r.failedAttempts < r.maxFailedAttempts

/-- Call `i` completes the delivery, and at that instant its token and its password
open it. -/
def Reveals (svc : Service) (i : ℕ) (token password : Text) (item : ConsumeCandidate)
    (leaseID : UUID) (response : ConsumeResponse) (u : State) (a : Action) : Prop :=
  ∃ inputs plaintext r, a = .advance i inputs ∧
    u.calls[i]? = some (.consume token password (.completing item leaseID plaintext)) ∧
    u.table.find item.id = some r ∧
    (Statement.completeConsume item.id leaseID).Guard u.clock r ∧
    svc.deps.tokenHMAC svc.cfg.tokenHMACPepper token = some r.tokenHash ∧
    Verifies svc.deps password r.passwordHash ∧
    svc.deps.decrypt r.encryptedPayload = some plaintext ∧
    normalizeConsumedPayload plaintext = some (response.payload, response.secret)

/-- A call that holds a lease got it from its own UPDATE. -/
theorem occurs_leased {as : List Action} (h : run (step svc) (State.init clock) as = some s)
    {phase : ConsumePhase} (hcall : s.calls[i]? = some (.consume token password phase))
    {leaseID : UUID} (hleased : phase.leased = some (item, leaseID)) :
    Occurs (step svc) (State.init clock) as fun _ u a v => ∃ inputs tokenHash hash r,
      a = .advance i inputs ∧ inputs.leaseID = some leaseID ∧
      u.calls[i]? = some (.consume token password (.leasing tokenHash hash)) ∧
      u.table.find r.id = some r ∧ r.candidate = item ∧
      (Statement.beginConsume tokenHash hash leaseID
        svc.cfg.consumingLeaseTTL.int64Seconds).Guard u.clock r ∧
      v.table = u.table.exec u.clock (.beginConsume tokenHash hash leaseID
        svc.cfg.consumingLeaseTTL.int64Seconds) ∧ v.clock = u.clock := by
  let Q : State → Prop := fun u => ∃ phase, u.calls[i]? = some (.consume token password phase) ∧
    phase.leased = some (item, leaseID)
  have hinit : ¬Q (State.init clock) := by
    rintro ⟨_, hnone, _⟩
    rw [call_init] at hnone
    cases hnone
  refine (occurs_of_becomes h hinit ⟨phase, hcall, hleased⟩).imp ?_
  rintro pre u a v _ hstep ⟨hbefore, phase, hphase, hleased⟩
  cases step_call hstep hphase with
  | same _ hsame => exact absurd ⟨phase, hsame, hleased⟩ hbefore
  | spawned request _ heq =>
      cases request <;> cases heq
      cases hleased
  | advanced inputs call hcall _ _ hadvance =>
      obtain ⟨phase₀, rfl, hconsume⟩ := advance_consume hadvance
      have hclock : v.clock = u.clock := by
        cases step_taken hstep
        rfl
      generalize v.table = t at hconsume ⊢
      cases hconsume with
      | leased tokenHash hash l r hlease hr hguard =>
          cases hleased
          exact ⟨inputs, tokenHash, hash, r, rfl, hlease, hcall, hr, rfl, hguard, rfl, hclock⟩
      | decrypted | undecrypted => exact absurd ⟨_, hcall, hleased⟩ hbefore
      | found | mismatched | unfound | counted | unleased | leaseLost | restored | uncompleted
      | completed => cases hleased
  | abandoned call _ habandon =>
      rw [abandon_consume habandon] at hleased
      cases hleased

theorem leases_of_leased {as : List Action} (h : run (step svc) (State.init clock) as = some s)
    {phase : ConsumePhase} (hcall : s.calls[i]? = some (.consume token password phase))
    {leaseID : UUID} (hleased : phase.leased = some (item, leaseID)) :
    Occurs (step svc) (State.init clock) as fun _ u a _ =>
      Leases svc i token password item leaseID u a := by
  refine (occurs_leased h hcall hleased).imp ?_
  rintro _ u a v _ _ ⟨inputs, tokenHash, hash, r, ha, hlease, hcall, hr, rfl, hguard, _, _⟩
  exact ⟨inputs, tokenHash, hash, r, ha, hlease, hcall, hr, rfl, hguard, hguard.2.2.1,
    hguard.2.2.2.1⟩

/-- Whenever a call returns the plaintext of a delivery, its token and password
open the delivery at the instant it completes, and the delivery was unexpired and
not locked at the instant it took the lease. -/
theorem authorised_at_reveal {as : List Action}
    (h : run (step svc) (State.init clock) as = some s) {response : ConsumeResponse}
    (hcall : s.calls[i]? = some (.consume token password (.delivered item response))) :
    ∃ leaseID, Occurs (step svc) (State.init clock) as fun pre u a _ =>
      Reveals svc i token password item leaseID response u a ∧
        Occurs (step svc) (State.init clock) pre fun _ u' a' _ =>
          Leases svc i token password item leaseID u' a' := by
  let Q : State → Prop := fun u =>
    u.calls[i]? = some (.consume token password (.delivered item response))
  have hinit : ¬Q (State.init clock) := by
    intro hnone
    cases hnone.symm.trans (call_init clock i)
  obtain ⟨pre, a, post, u, v, rfl, hpre, hstep, hbefore, hafter⟩ := occurs_of_becomes h hinit hcall
  suffices hreveal : ∃ leaseID, Reveals svc i token password item leaseID response u a ∧
      Occurs (step svc) (State.init clock) pre fun _ u' a' _ =>
        Leases svc i token password item leaseID u' a' by
    obtain ⟨leaseID, hreveal⟩ := hreveal
    exact ⟨leaseID, pre, a, post, u, v, rfl, hpre, hstep, hreveal⟩
  cases step_call hstep hafter with
  | same _ hsame => exact absurd hsame hbefore
  | spawned request _ heq => cases request <;> cases heq
  | advanced inputs call hcall₀ _ _ hadvance =>
      obtain ⟨phase₀, rfl, hconsume⟩ := advance_consume hadvance
      generalize v.table = t at hconsume
      cases hconsume with
      | completed _ leaseID plaintext canonical legacy r hr hguard hpayload =>
          obtain ⟨hentitled, hdecrypt⟩ := sound_of_reachable (.of_run hpre) hcall₀
          obtain ⟨hitem, htoken⟩ := hentitled.row r hr hguard.2
          refine ⟨leaseID, ⟨inputs, plaintext, r, rfl, hcall₀, hr, hguard, htoken, ?_, ?_,
            hpayload⟩, leases_of_leased hpre hcall₀ rfl⟩
          · rw [← hitem] at hentitled
            exact hentitled.password
          · rw [← hitem] at hdecrypt
            exact hdecrypt
  | abandoned call _ habandon => cases abandon_consume habandon

theorem authorised_at_reveal_sample :
    ∃ leaseID, Occurs (step sampleService) (State.init 0) sampleReveal fun pre u a _ =>
      Reveals sampleService 1 ['t'] [] sampleItem leaseID sampleResponse u a ∧
        Occurs (step sampleService) (State.init 0) pre fun _ u' a' _ =>
          Leases sampleService 1 ['t'] [] sampleItem leaseID u' a' := by
  have hrun : (run (step sampleService) (State.init 0) sampleReveal).map (fun s => s.calls[1]?) =
      some (some (.consume ['t'] [] (.delivered sampleItem sampleResponse))) := by
    decide +kernel
  obtain ⟨s, hs, hcall⟩ := Option.map_eq_some_iff.mp hrun
  exact authorised_at_reveal hs hcall

end reveal
end SecureShare.Delivery
