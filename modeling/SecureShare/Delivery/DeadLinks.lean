import SecureShare.Delivery.Prepare

/-!
# Links that are gone

A token whose delivery cannot be revealed is answered like any other such token, whatever
the reason and whatever password comes with it. Nothing is written, and Vault is not asked.
-/
namespace SecureShare.Delivery
open Go Library.Transition

/-- Why a delivery cannot be revealed. -/
inductive Row.Dead (leaseSeconds now : ℤ) (r : Row) : Prop
  | consumed : r.status = .consumed → Row.Dead leaseSeconds now r
  | revoked : r.status = .revoked → Row.Dead leaseSeconds now r
  | marked : r.status = .expired → Row.Dead leaseSeconds now r
  | elapsed : r.expiresAt ≤ now → Row.Dead leaseSeconds now r
  | locked : r.maxFailedAttempts ≤ r.failedAttempts → Row.Dead leaseSeconds now r
  | leased (started : ℤ) : r.status = .consuming → r.consumingStartedAt = some started →
      now - Row.interval leaseSeconds ≤ started → Row.Dead leaseSeconds now r

/-- These are all the reasons. -/
theorem Row.dead_iff {leaseSeconds now : ℤ} {r : Row} (hchecks : r.Checks) :
    r.Dead leaseSeconds now ↔ ¬r.Available leaseSeconds now := by
  constructor
  · rintro hdead ⟨hexpires, hfailed, hstatus⟩
    cases hdead with
    | consumed hs | revoked hs | marked hs => simp [hs] at hstatus
    | elapsed hle => omega
    | locked hle => omega
    | leased started hs hstarted hlive =>
        rw [hs] at hstatus
        rcases hstatus with hactive | ⟨_, started', hstarted', hlt⟩
        · cases hactive
        · cases hstarted.symm.trans hstarted'
          omega
  · intro hunavailable
    by_cases hexpires : now < r.expiresAt
    · by_cases hfailed : r.failedAttempts < r.maxFailedAttempts
      · cases hs : r.status with
        | active => exact absurd ⟨hexpires, hfailed, .inl hs⟩ hunavailable
        | consuming =>
            obtain ⟨started, hstarted⟩ := Option.ne_none_iff_exists'.mp
              (hchecks.2.2.2.2.2.2.2.2.2.2.2 hs).1
            refine .leased started hs hstarted ?_
            by_contra hlt
            exact hunavailable ⟨hexpires, hfailed, .inr ⟨hs, started, hstarted, by omega⟩⟩
        | consumed => exact .consumed hs
        | expired => exact .marked hs
        | revoked => exact .revoked hs
      · exact .locked (by omega)
    · exact .elapsed (by omega)

/-- The delivery of the token cannot be revealed, or there is none. -/
def DeadToken (svc : Service) (t : Table) (now : ℤ) (token : Text) : Prop :=
  ∀ r ∈ t.rows, svc.deps.tokenHMAC svc.cfg.tokenHMACPepper token = some r.tokenHash →
    r.Dead svc.cfg.consumingLeaseTTL.int64Seconds now

/-- What `Consume` answers then. -/
def deadAnswer (svc : Service) (inputs : Inputs) (token : Text) : ServiceError :=
  if svc.deps.tokenHMAC svc.cfg.tokenHMACPepper token = none ∨ inputs.database = .answered then
    unavailable
  else internal "find consume candidate failed"

/-- What `Prepare` answers then. -/
def deadPrepare (svc : Service) (inputs : Inputs) (token : Text) : Option PrepareResponse :=
  if svc.deps.tokenHMAC svc.cfg.tokenHMACPepper token = none ∨ inputs.database = .answered then
    some ⟨false, false, none⟩
  else none

section dead
variable {svc : Service} {inputs : Inputs} {t : Table} {now : ℤ} {token password : Text}

theorem DeadToken.unavailable (h : DeadToken svc t now token) {r : Row} (hr : r ∈ t.rows)
    (htoken : svc.deps.tokenHMAC svc.cfg.tokenHMACPepper token = some r.tokenHash) :
    ¬r.Available svc.cfg.consumingLeaseTTL.int64Seconds now :=
  (Row.dead_iff (t.checks r hr)).mp (h r hr htoken)

theorem DeadToken.find?_eq_none (h : DeadToken svc t now token) {tokenHash : Bytes}
    (htoken : svc.deps.tokenHMAC svc.cfg.tokenHMACPepper token = some tokenHash)
    {P : Row → Prop} [DecidablePred P]
    (hP : ∀ r, P r → r.Available svc.cfg.consumingLeaseTTL.int64Seconds now) :
    (t.rows.find? fun r => r.tokenHash = tokenHash ∧ P r) = none := by
  rw [List.find?_eq_none]
  intro r hr hmatch
  obtain ⟨rfl, hPr⟩ : r.tokenHash = tokenHash ∧ P r := by simpa using hmatch
  exact h.unavailable hr htoken (hP r hPr)

theorem consumeFind_of_dead (h : DeadToken svc t now token) :
    svc.consumeFind inputs now t token password = .refused (deadAnswer svc inputs token) := by
  rw [Service.consumeFind, deadAnswer]
  cases htoken : svc.deps.tokenHMAC svc.cfg.tokenHMACPepper token with
  | none => rfl
  | some tokenHash =>
      have hnone : Repository.findConsumeCandidate t now tokenHash svc.cfg.consumingLeaseTTL =
          none := by
        rw [Repository.findConsumeCandidate, h.find?_eq_none htoken fun r hr => hr, Option.map_none]
      simp only [hnone]
      cases inputs.database <;> rfl

theorem prepare_of_dead (h : DeadToken svc t now token) :
    svc.prepare inputs now t token = deadPrepare svc inputs token := by
  rw [Service.prepare, deadPrepare]
  cases htoken : svc.deps.tokenHMAC svc.cfg.tokenHMACPepper token with
  | none => rfl
  | some tokenHash =>
      have hnone : Repository.prepare t now tokenHash = ⟨false, false, none⟩ := by
        rw [Repository.prepare, h.find?_eq_none htoken fun r hr => ?_]
        exact ⟨hr.2.1, hr.2.2, .inl hr.1⟩
      simp only [hnone]
      cases inputs.database <;> rfl

end dead

/-- The call has ended with the error, having changed no row and without ever asking Vault. -/
structure Inert (svc : Service) (s u : State) (i : ℕ) (token password : Text) (e : ServiceError) :
    Prop where
  rows : u.table = s.table
  answer : ∀ w, Reachable (step svc) u w →
    w.calls[i]? = some (.consume token password (.refused e))
  vault : ∀ w, Reachable (step svc) u w → ∀ item leaseID,
    w.calls[i]? ≠ some (.consume token password (.decrypting item leaseID))

theorem inert_of_dead {svc : Service} {s u : State} {i : ℕ} {token password : Text}
    {inputs : Inputs} (hdead : DeadToken svc s.table s.clock token)
    (hcall : s.calls[i]? = some (.consume token password .finding))
    (hstep : step svc s (.advance i inputs) = some u) :
    Inert svc s u i token password (deadAnswer svc inputs token) := by
  have hanswer : u.calls[i]? = some (.consume token password (.refused (deadAnswer svc inputs token))) ∧
      u.table = s.table := by
    cases step_taken hstep with
    | advance _ _ call call' t' hcall' _ hadvance =>
        cases hcall.symm.trans hcall'
        rw [Call.advance, Service.consume, consumeFind_of_dead hdead] at hadvance
        cases hadvance
        exact ⟨List.getElem?_set_self (List.getElem?_eq_some_iff.mp hcall).1, rfl⟩
  have hstays (w : State) (hw : Reachable (step svc) u w) :=
    settled_stays hw hanswer.1 (fun _ _ _ => rfl) rfl
  refine ⟨hanswer.2, hstays, fun w hw item leaseID heq => ?_⟩
  rw [hstays w hw] at heq
  cases heq

/-- Two stores in which a token is dead answer `Prepare` and `Consume` alike, with any
passwords, and nothing happens in either. -/
theorem dead_links_indistinguishable {svc : Service} {s s' : State} {token : Text}
    (hdead : DeadToken svc s.table s.clock token)
    (hdead' : DeadToken svc s'.table s'.clock token) (inputs : Inputs) :
    svc.prepare inputs s.clock s.table token = svc.prepare inputs s'.clock s'.table token ∧
    ∀ (i i' : ℕ) (password password' : Text) (u u' : State),
      s.calls[i]? = some (.consume token password .finding) →
      s'.calls[i']? = some (.consume token password' .finding) →
      step svc s (.advance i inputs) = some u → step svc s' (.advance i' inputs) = some u' →
      ∃ e, Inert svc s u i token password e ∧ Inert svc s' u' i' token password' e ∧
        (inputs.database = .answered → e = unavailable) := by
  constructor
  · rw [prepare_of_dead hdead, prepare_of_dead hdead']
  · intro i i' password password' u u' hcall hcall' hstep hstep'
    refine ⟨_, inert_of_dead hdead hcall hstep, inert_of_dead hdead' hcall' hstep', ?_⟩
    intro hanswered
    rw [deadAnswer, if_pos (.inr hanswered)]

/-- The sample is leased in one store, and the other one is empty. -/
theorem dead_links_indistinguishable_sample :
    ∃ s s' u u', Reachable (step sampleService) (State.init 0) s ∧
      Reachable (step sampleService) (State.init 0) s' ∧
      step sampleService s (.advance 2 (sampleAnswers none)) = some u ∧
      step sampleService s' (.advance 0 (sampleAnswers none)) = some u' ∧
      ∃ e, Inert sampleService s u 2 ['t'] ['x'] e ∧ Inert sampleService s' u' 0 ['t'] [] e ∧
        e = unavailable := by
  let as : List Action := sampleLeasing ++ [.spawn (.consume ['t'] ['x'])]
  have hrun : (run (step sampleService) (State.init 0) as).map (fun s =>
      (s.clock, s.table.rows.map fun r => (r.status, r.consumingStartedAt), s.calls[2]?)) =
      some (0, [(.consuming, some 0)], some (.consume ['t'] ['x'] .finding)) := by
    decide +kernel
  have hnext : (run (step sampleService) (State.init 0)
      (as ++ [.advance 2 (sampleAnswers none)])).isSome := by
    decide +kernel
  have hnext' : (run (step sampleService) (State.init 0)
      [.spawn (.consume ['t'] []), .advance 0 (sampleAnswers none)]).isSome := by
    decide +kernel
  obtain ⟨s, hs, hread⟩ := Option.map_eq_some_iff.mp hrun
  obtain ⟨hclock, hread⟩ := Prod.mk.inj hread
  obtain ⟨hrows, hcall⟩ := Prod.mk.inj hread
  obtain ⟨u, hu⟩ := Option.isSome_iff_exists.mp hnext
  rw [run_append, hs, Option.bind_some, run_cons, Option.bind_eq_some_iff] at hu
  obtain ⟨u, hu, _⟩ := hu
  obtain ⟨u', hu'⟩ := Option.isSome_iff_exists.mp hnext'
  rw [run_cons_of rfl, run_cons, Option.bind_eq_some_iff] at hu'
  obtain ⟨u', hu', _⟩ := hu'
  have hdead : DeadToken sampleService s.table s.clock ['t'] := by
    intro r hr _
    have hmem := List.mem_map_of_mem (f := fun r => (r.status, r.consumingStartedAt)) hr
    rw [hrows] at hmem
    obtain ⟨hstatus, hstarted⟩ := Prod.mk.inj (List.mem_singleton.mp hmem)
    refine .leased 0 hstatus hstarted ?_
    rw [hclock]
    decide +kernel
  let s' : State := ⟨0, .empty, [.consume ['t'] [] .finding], []⟩
  have hdead' : DeadToken sampleService s'.table s'.clock ['t'] :=
    fun r hr => absurd hr List.not_mem_nil
  obtain ⟨_, hinert⟩ := dead_links_indistinguishable hdead hdead' (sampleAnswers none)
  obtain ⟨e, he, he', hunavailable⟩ := hinert 2 0 ['x'] [] u u' hcall rfl hu hu'
  exact ⟨s, s', u, u', ⟨as, hs⟩, ⟨[.spawn (.consume ['t'] [])], rfl⟩, hu, hu', e, he, he',
    hunavailable rfl⟩

end SecureShare.Delivery
