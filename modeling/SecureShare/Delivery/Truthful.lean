import SecureShare.Delivery.BruteForce
import SecureShare.Delivery.Prepare

/-!
# What `SECRET_UNAVAILABLE` says

The page drops the token on this answer. A `Consume` call gives it when one of its
statements does not find the delivery, or has locked it. Where the row still has the
password hash that the call read, the delivery could not be consumed at that instant or
at an earlier one of the call. Where the password was managed in between, a delivery that
is open throughout is reported as gone.
-/
namespace SecureShare.Delivery
open Go Library.Transition

/-- The delivery can be revealed: it is open and no reader holds a lease that is at most as
old as the TTL. -/
def Row.Consumable (leaseTTL : Duration) (now : ℤ) (r : Row) : Prop :=
  now < r.expiresAt ∧ r.failedAttempts < r.maxFailedAttempts ∧
    (r.status = .active ∨ r.status = .consuming ∧
      ∃ started ∈ r.consumingStartedAt, started * 1000 + leaseTTL.toInt < now * 1000)

instance (leaseTTL : Duration) (now : ℤ) (r : Row) : Decidable (r.Consumable leaseTTL now) := by
  unfold Row.Consumable
  infer_instance

/-- The token names a delivery that can be revealed. -/
def ConsumableToken (svc : Service) (token : Text) (u : State) : Prop :=
  ∃ r ∈ u.table.rows, svc.deps.tokenHMAC svc.cfg.tokenHMACPepper token = some r.tokenHash ∧
    r.Consumable svc.cfg.consumingLeaseTTL u.clock

instance (svc : Service) (token : Text) (u : State) : Decidable (ConsumableToken svc token u) := by
  unfold ConsumableToken
  infer_instance

namespace ConsumePhase

/-- The call has not answered yet. -/
def running : ConsumePhase → Bool
  | .delivered _ _ | .refused _ | .abandoned => false
  | .finding | .failing _ _ | .leasing _ _ | .decrypting _ _ | .restoring _ _
  | .completing _ _ _ => true

/-- The password hash that the next statement of the call expects of the row of its token. -/
def expects : ConsumePhase → Option (Bytes × Option Text)
  | .failing tokenHash hash => some (tokenHash, some hash)
  | .leasing tokenHash hash => some (tokenHash, hash)
  | .finding | .decrypting _ _ | .restoring _ _ | .completing _ _ _ | .delivered _ _ | .refused _
  | .abandoned => none

end ConsumePhase

/-- Call `i` reads the token and has not answered yet. -/
def Running (i : ℕ) (token password : Text) (u : State) : Prop :=
  ∃ phase, u.calls[i]? = some (.consume token password phase) ∧ phase.running = true

/-- Where call `i` checks the row of its token again, it still has the password hash that the
call read. -/
def HashKept (i : ℕ) (u : State) (a : Action) : Prop :=
  ∀ inputs token password phase tokenHash hash, a = .advance i inputs →
    u.calls[i]? = some (.consume token password phase) →
    phase.expects = some (tokenHash, hash) →
    ∀ r ∈ u.table.rows, r.tokenHash = tokenHash → r.passwordHash = hash

/-- At some instant of the call, before or after a step of the run, the delivery cannot be
revealed. -/
def GoneDuring (svc : Service) (clock : ℤ) (as : List Action) (i : ℕ) (token password : Text) :
    Prop :=
  Occurs (step svc) (State.init clock) as fun _ u _ v => Running i token password u ∧
    (¬ConsumableToken svc token u ∨ ¬ConsumableToken svc token v)

section consumable
variable {svc : Service} {inputs : Inputs} {now : ℤ} {t t' : Table} {token password : Text}
  {phase : ConsumePhase} {r : Row}

/-- The seconds that the statements compare with are at most the TTL. -/
theorem Row.Consumable.available {leaseTTL : Duration} (h : r.Consumable leaseTTL now)
    (hpos : 0 < leaseTTL.toInt) (hexact : ¬leaseTTL.RoundsUp) :
    r.Available leaseTTL.int64Seconds now := by
  obtain ⟨hexpires, hfailed, hactive | ⟨hconsuming, started, hstarted, hold⟩⟩ := h
  · exact ⟨hexpires, hfailed, .inl hactive⟩
  · refine ⟨hexpires, hfailed, .inr ⟨hconsuming, started, hstarted, ?_⟩⟩
    have hseconds := Duration.int64Seconds_eq hpos.le
    rw [if_neg hexact] at hseconds
    rw [Row.interval]
    omega

/-- Why a step answers `SECRET_UNAVAILABLE`. -/
inductive Misses (svc : Service) (now : ℤ) (t : Table) (token : Text) :
    ConsumePhase → Table → Prop
  | unfound : (∀ r ∈ t.rows,
        svc.deps.tokenHMAC svc.cfg.tokenHMACPepper token = some r.tokenHash →
        ¬r.Available svc.cfg.consumingLeaseTTL.int64Seconds now) →
      Misses svc now t token .finding t
  | uncounted (tokenHash : Bytes) (hash : Text) (t' : Table) : (∀ r ∈ t.rows,
        ¬(svc.failure tokenHash hash).Guard now r) →
      Misses svc now t token (.failing tokenHash hash) t'
  | locked (tokenHash : Bytes) (hash : Text) (r : Row) : t.find r.id = some r →
      (svc.failure tokenHash hash).Guard now r → r.LastAttempt →
      Misses svc now t token (.failing tokenHash hash) (t.exec now (svc.failure tokenHash hash))
  | unleased (tokenHash : Bytes) (hash : Option Text) (leaseID : UUID) (t' : Table) :
      (∀ r ∈ t.rows, ¬(Statement.beginConsume tokenHash hash leaseID
        svc.cfg.consumingLeaseTTL.int64Seconds).Guard now r) →
      Misses svc now t token (.leasing tokenHash hash) t'
  | overtaken (item : ConsumeCandidate) (leaseID : UUID) (plaintext : Text) (t' : Table) :
      Misses svc now t token (.completing item leaseID plaintext) t'

theorem Table.returning_none {s : Statement} (h : t.returning now s = none) :
    ∀ r ∈ t.rows, ¬s.Guard now r := by
  rw [Table.returning, Option.map_eq_none_iff, List.find?_eq_none] at h
  simpa using h

theorem consume_unavailable {e : ServiceError}
    (h : svc.consume inputs now t token password phase = some (t', .refused e))
    (he : e.kind = .secretUnavailable) : Misses svc now t token phase t' := by
  cases phase with
  | finding =>
      obtain ⟨rfl, hphase⟩ := Prod.mk.inj (Option.some.inj h)
      refine .unfound fun r hr htoken havailable => ?_
      unfold Service.consumeFind at hphase
      simp only [htoken, findConsumeCandidate_eq hr, if_pos havailable] at hphase
      cases hdatabase : inputs.database with
      | answered =>
          simp only [hdatabase, Outcome.answer] at hphase
          split at hphase
          · cases hphase
          · split_ifs at hphase
      | failed | lost =>
          simp only [hdatabase, Outcome.answer] at hphase
          cases hphase
          cases he
  | failing tokenHash hash =>
      obtain ⟨rfl, hphase⟩ := Prod.mk.inj (Option.some.inj h)
      split at hphase
      · cases hphase
        cases he
      · rename_i failure hanswer
        obtain ⟨hanswered, hfailure⟩ := Outcome.answer_eq_some hanswer
        split_ifs at hphase with hunusual
        · rw [hanswered]
          simp only [Repository.recordPasswordFailure] at hfailure
          cases hreturning : t.returning now (svc.failure tokenHash hash) with
          | none => exact .uncounted tokenHash hash _ (Table.returning_none hreturning)
          | some r' =>
              obtain ⟨r, hr, hguard, rfl⟩ := Table.returning_eq_some hreturning
              by_cases hlast : r.LastAttempt
              · exact .locked tokenHash hash r hr hguard hlast
              · unfold Service.failure at hreturning
                rw [hreturning] at hfailure
                rw [← hfailure] at hunusual
                simp [Statement.set, hlast] at hunusual
        · cases hphase
          cases he
  | leasing tokenHash hash =>
      have hphase : (svc.consumeBegin inputs now t tokenHash hash).2 = .refused e :=
        congrArg Prod.snd (Option.some.inj h)
      unfold Service.consumeBegin at hphase
      split at hphase
      · cases hphase
        cases he
      · rename_i leaseID hleaseID
        dsimp only at hphase
        split at hphase
        · cases hphase
          cases he
        · rename_i hanswer
          obtain ⟨_, hnone⟩ := Outcome.answer_eq_some hanswer
          exact .unleased tokenHash hash leaseID _
            (Table.returning_none (Option.map_eq_none_iff.mp hnone))
        · cases hphase
  | decrypting item leaseID =>
      have hphase := (Prod.mk.inj (Option.some.inj h)).2
      unfold Service.consumeDecrypt at hphase
      split_ifs at hphase
      · split at hphase <;> cases hphase
  | restoring item leaseID =>
      cases h
      cases he
  | completing item leaseID plaintext => exact .overtaken item leaseID plaintext t'
  | delivered | refused | abandoned => cases h

end consumable

section runs
variable {svc : Service} {clock : ℤ} {s u v : State} {i : ℕ} {token password : Text}
  {as : List Action} {r : Row}

/-- At most one row has the token. -/
theorem not_consumableToken (hr : r ∈ u.table.rows)
    (htoken : svc.deps.tokenHMAC svc.cfg.tokenHMACPepper token = some r.tokenHash)
    (h : ¬r.Consumable svc.cfg.consumingLeaseTTL u.clock) : ¬ConsumableToken svc token u := by
  rintro ⟨r', hr', htoken', hconsumable⟩
  have hsame : r' = r := by
    rw [htoken, Option.some.injEq] at htoken'
    exact List.inj_on_of_nodup_map u.table.tokenHashes hr' hr htoken'.symm
  exact h (hsame ▸ hconsumable)

theorem Row.not_consumable_of_terminal {leaseTTL : Duration} {now : ℤ}
    (h : r.status.terminal = true) : ¬r.Consumable leaseTTL now := by
  rintro ⟨_, _, hs | ⟨hs, _⟩⟩ <;> rw [hs] at h <;> cases h

/-- A lease of this instant is not older than the TTL. -/
theorem Row.not_consumable_of_leased {leaseTTL : Duration} {now : ℤ} (hpos : 0 < leaseTTL.toInt)
    (hs : r.status = .consuming) (hstarted : r.consumingStartedAt = some now) :
    ¬r.Consumable leaseTTL now := by
  rintro ⟨_, _, hs' | ⟨_, started, hstarted', hold⟩⟩
  · rw [hs] at hs'
    cases hs'
  · cases hstarted.symm.trans hstarted'
    omega

/-- The statement that misses the delivery, or locks it, meets one that cannot be revealed,
unless the call has already leased it. -/
theorem gone_of_misses (hpos : 0 < svc.cfg.consumingLeaseTTL.toInt)
    (hexact : ¬svc.cfg.consumingLeaseTTL.RoundsUp)
    (hreach : Reachable (step svc) (State.init clock) u) {phase : ConsumePhase} {inputs : Inputs}
    (hcall : u.calls[i]? = some (.consume token password phase))
    (hkept : HashKept i u (.advance i inputs))
    (h : Misses svc u.clock u.table token phase v.table) :
    ¬ConsumableToken svc token u ∨ ¬ConsumableToken svc token v ∨
      ∃ leased, phase.leased = some leased := by
  generalize htable : v.table = t at h
  cases h with
  | unfound hnone =>
      left
      rintro ⟨r, hr, htoken, hconsumable⟩
      exact hnone r hr htoken (hconsumable.available hpos hexact)
  | uncounted tokenHash hash _ hnone =>
      left
      rintro ⟨r, hr, htoken, hconsumable⟩
      obtain rfl := Option.some.inj (htoken.symm.trans (failing_token hreach hcall))
      have hhash := hkept inputs token password _ _ _ rfl hcall rfl r hr rfl
      exact hnone r hr ⟨rfl, hhash, hconsumable.available hpos hexact⟩
  | locked tokenHash hash r hr hguard hlast =>
      right
      left
      have hfind : v.table.find r.id = some ((svc.failure tokenHash hash).set u.clock r) := by
        rw [htable, Table.find_exec, hr, Option.map_some, Statement.exec_of_guard hguard]
      have hrevoked : ((svc.failure tokenHash hash).set u.clock r).status = .revoked := by
        simp [Service.failure, Statement.set, hlast]
      have htoken := failing_token hreach hcall
      rw [← hguard.1] at htoken
      refine not_consumableToken (Table.find_eq_some.mp hfind).1 htoken ?_
      exact Row.not_consumable_of_terminal (by rw [hrevoked]; rfl)
  | unleased tokenHash hash leaseID _ hnone =>
      left
      rintro ⟨r, hr, htoken, hconsumable⟩
      obtain rfl := Option.some.inj (htoken.symm.trans (sound_of_reachable hreach hcall).1)
      have hhash := hkept inputs token password _ _ _ rfl hcall rfl r hr rfl
      exact hnone r hr ⟨rfl, hhash, hconsumable.available hpos hexact⟩
  | overtaken item leaseID plaintext => exact .inr (.inr ⟨(item, leaseID), rfl⟩)

/-- Nobody else can reveal the delivery right after the call has leased it. -/
theorem gone_of_leased (hpos : 0 < svc.cfg.consumingLeaseTTL.toInt)
    (h : run (step svc) (State.init clock) as = some u) {phase : ConsumePhase}
    (hcall : u.calls[i]? = some (.consume token password phase))
    {leased : ConsumeCandidate × UUID} (hleased : phase.leased = some leased) :
    GoneDuring svc clock as i token password := by
  refine (occurs_leased h hcall hleased).imp ?_
  rintro pre u a v hpre _ ⟨inputs, tokenHash, hash, r, _, _, hcall, hr, _, hguard, htable, hclock⟩
  refine ⟨⟨_, hcall, rfl⟩, .inr ?_⟩
  have hfind := Table.find_exec u.clock (.beginConsume tokenHash hash leased.2
    svc.cfg.consumingLeaseTTL.int64Seconds) u.table r.id
  rw [hr, Option.map_some, Statement.exec_of_guard hguard, ← htable] at hfind
  have htoken := (sound_of_reachable (.of_run hpre) hcall).1
  rw [← hguard.1] at htoken
  refine not_consumableToken (Table.find_eq_some.mp hfind).1 htoken ?_
  rw [hclock]
  exact Row.not_consumable_of_leased hpos rfl rfl

/-- Where call `i` never meets a row whose password was managed since it read it, its answer
`SECRET_UNAVAILABLE` is true at some instant of the call. -/
theorem unavailable_truthful (hpos : 0 < svc.cfg.consumingLeaseTTL.toInt)
    (hexact : ¬svc.cfg.consumingLeaseTTL.RoundsUp)
    (h : run (step svc) (State.init clock) as = some s)
    (hkept : EveryStep (step svc) (State.init clock) as (HashKept i)) {e : ServiceError}
    (hcall : s.calls[i]? = some (.consume token password (.refused e)))
    (he : e.kind = .secretUnavailable) : GoneDuring svc clock as i token password := by
  let Q : State → Prop := fun u => u.calls[i]? = some (.consume token password (.refused e))
  have hinit : ¬Q (State.init clock) := by
    intro hnone
    cases hnone.symm.trans (call_init clock i)
  obtain ⟨pre, a, post, u, v, rfl, hpre, hstep, hbefore, hafter⟩ := occurs_of_becomes h hinit hcall
  cases step_call hstep hafter with
  | same _ hsame => exact absurd hsame hbefore
  | spawned request _ heq => cases request <;> cases heq
  | abandoned call _ habandon => cases abandon_consume habandon
  | advanced inputs call hcall₀ _ _ hadvance =>
      obtain ⟨phase, rfl, hconsume⟩ := advance_eq_consume hadvance
      have hrunning : phase.running = true := by
        cases phase with
        | delivered | refused | abandoned => cases hconsume
        | finding | failing | leasing | decrypting | restoring | completing => rfl
      have hstepKept : HashKept i u (.advance i inputs) :=
        hkept pre (.advance i inputs) u ⟨post, by simp⟩ hpre
      rcases gone_of_misses (v := v) hpos hexact (.of_run hpre) hcall₀ hstepKept
        (consume_unavailable hconsume he) with hgone | hgone | ⟨leased, hleased⟩
      · exact ⟨pre, _, post, u, v, rfl, hpre, hstep, ⟨phase, hcall₀, hrunning⟩, .inl hgone⟩
      · exact ⟨pre, _, post, u, v, rfl, hpre, hstep, ⟨phase, hcall₀, hrunning⟩, .inr hgone⟩
      · obtain ⟨pre', a', post', u', v', rfl, hrest⟩ := gone_of_leased hpos hpre hcall₀ hleased
        exact ⟨pre', a', post' ++ .advance i inputs :: post, u', v', by simp, hrest⟩

/-- The sample is leased, and another reader finds it so. -/
def sampleLateReader : List Action :=
  sampleLeasing ++ [.spawn (.consume ['t'] []), .advance 2 (sampleAnswers none)]

/-- A reader that has not found a row, or has been refused. -/
def Call.expectsNothing : Call → Bool
  | .consume _ _ .finding | .consume _ _ (.refused _) => true
  | _ => false

theorem unavailable_truthful_sample :
    GoneDuring sampleService 0 sampleLateReader 2 ['t'] [] := by
  have hrun : (run (step sampleService) (State.init 0) sampleLateReader).map (fun s =>
      s.calls[2]?) = some (some (.consume ['t'] [] (.refused unavailable))) := by
    decide +kernel
  have hcalls : Always (step sampleService) (State.init 0) sampleLateReader fun u =>
      u.calls[2]?.all Call.expectsNothing = true :=
    always_of_take (by decide +kernel)
  obtain ⟨s, hs, hcall⟩ := Option.map_eq_some_iff.mp hrun
  refine unavailable_truthful (by decide) (by decide +kernel) hs ?_ hcall rfl
  intro pre a u hpre hu inputs token password phase tokenHash hash _ hphase hexpects
  have hstate := hcalls pre u ((List.prefix_append pre [a]).trans hpre) hu
  simp only [hphase] at hstate
  cases phase <;> cases hexpects <;> cases hstate

/-- The reader looks the sample up, its owner sets a password, and the reader asks for the
lease. -/
def sampleManagedBetween : List Action :=
  sampleCreation ++ [.spawn (.consume ['t'] []), .advance 1 (sampleAnswers none),
    .spawn (.protect 7 (some ['p'])), .advance 2 (sampleAnswers none),
    .advance 1 (sampleAnswers (some 1))]

/-- The reader is told that the delivery is gone although it is open throughout. -/
theorem open_link_reported_gone :
    (run (step sampleService) (State.init 0) sampleManagedBetween).map (fun s => s.calls[1]?) =
        some (some (.consume ['t'] [] (.refused unavailable))) ∧
      ¬GoneDuring sampleService 0 sampleManagedBetween 1 ['t'] [] := by
  refine ⟨by decide +kernel, ?_⟩
  have hopen : Always (step sampleService) (State.init 0) sampleManagedBetween fun u =>
      (u.calls[1]?.isNone || decide (ConsumableToken sampleService ['t'] u)) = true :=
    always_of_take (by decide +kernel)
  rintro ⟨pre, a, post, u, v, has, hpre, hstep, ⟨phase, hcall, _⟩, hgone⟩
  have hu := hopen pre u ⟨a :: post, has.symm⟩ hpre
  have hv := hopen (pre ++ [a]) v ⟨post, by simp [has]⟩ (run_concat hpre hstep)
  obtain ⟨call', hcall'⟩ := step_call_exists hstep hcall
  simp only [hcall] at hu
  simp only [hcall'] at hv
  rcases hgone with hgone | hgone
  · exact hgone (of_decide_eq_true hu)
  · exact hgone (of_decide_eq_true hv)

end runs
end SecureShare.Delivery
