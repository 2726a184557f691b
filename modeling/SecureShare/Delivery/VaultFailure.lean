import SecureShare.Delivery.Recovery

/-!
# A reveal that Vault fails

A reader takes the lease before it asks Vault, and gives it back when Vault does not
decrypt. With a healthy database, and if nobody else writes to the delivery meanwhile, only
the lease columns and the time of the update differ afterwards, however often it happens.
-/
namespace SecureShare.Delivery
open Go Library.Transition

namespace Row

/-- The delivery with a lease. -/
def leasedAt (leaseID : UUID) (now : ℤ) (r : Row) : Row :=
  { r with
    status := .consuming
    consumingStartedAt := some now
    consumingLeaseID := some leaseID
    updatedAt := now }

/-- The delivery after its lease was given back. -/
def reopened (now : ℤ) (r : Row) : Row :=
  { r with
    status := .active
    consumingStartedAt := none
    consumingLeaseID := none
    updatedAt := now }

/-- The status of a delivery that nobody is reading. -/
def Idle (leaseSeconds now : ℤ) (r : Row) : Prop :=
  r.status = .active ∨ r.status = .consuming ∧ r.LeaseStale leaseSeconds now

theorem Idle.later {r : Row} {n now now' : ℤ} (h : r.Idle n now) (hle : now ≤ now') :
    r.Idle n now' := by
  refine h.imp_right ?_
  rintro ⟨hs, started, hstarted, hlt⟩
  exact ⟨hs, started, hstarted, hlt.trans_le (sub_le_sub_right hle _)⟩

theorem idle_reopened (r : Row) (n now now' : ℤ) : (r.reopened now).Idle n now' := .inl rfl

end Row

/-- The action is a step of call `i`. -/
def Action.advances (i : ℕ) : Action → Bool
  | .advance j _ => j = i
  | _ => false

theorem Action.advances_iff {i : ℕ} {a : Action} :
    a.advances i = true ↔ ∃ inputs, a = .advance i inputs := by
  cases a with
  | advance j inputs =>
      rw [advances, decide_eq_true_eq]
      exact ⟨fun h => ⟨inputs, by rw [h]⟩, fun ⟨_, h⟩ => (Action.advance.inj h).1⟩
  | tick | spawn | abandon => simp [advances]

/-- Reader `i` runs with a healthy database and a Vault that does not decrypt, the delivery
does not expire before it takes the lease, and the other steps leave the delivery alone. -/
structure VaultFails (svc : Service) (i : ℕ) (r : Row) (u : State) (a : Action) : Prop where
  answered : ∀ inputs, a = .advance i inputs → inputs.database = .answered
  drawn : ∀ inputs, a = .advance i inputs → inputs.leaseID ≠ none
  undecrypted : ∀ inputs, a = .advance i inputs →
    inputs.vaultUp = false ∨ svc.deps.decrypt r.encryptedPayload = none
  unexpired : ∀ inputs token password phase, a = .advance i inputs →
    u.calls[i]? = some (.consume token password phase) → phase.leased = none →
    u.clock < r.expiresAt
  awaited : a ≠ .abandon i
  undisturbed : a.advances i = false → ∀ v, step svc u a = some v →
    v.table.find r.id = u.table.find r.id

/-- What `Service.Consume` answers when Vault does not decrypt. -/
def vaultError : ServiceError :=
  { kind := .dependencyUnavailable, detail := "vault decrypt failed" }

/-- The delivery and the reader after so many steps of the reader. -/
inductive VaultProgress (r : Row) : ℕ → Row → ConsumePhase → Prop
  | finding : VaultProgress r 0 r .finding
  | leasing : VaultProgress r 1 r (.leasing r.tokenHash r.passwordHash)
  | decrypting (leaseID : UUID) (now : ℤ) :
      VaultProgress r 2 (r.leasedAt leaseID now) (.decrypting r.candidate leaseID)
  | restoring (leaseID : UUID) (now : ℤ) :
      VaultProgress r 3 (r.leasedAt leaseID now) (.restoring r.candidate leaseID)
  | refused (now : ℤ) : VaultProgress r 4 (r.reopened now) (.refused vaultError)

section calls
variable {svc : Service} {inputs : Inputs} {now : ℤ} {t : Table} {r : Row}
  {token password : Text}

theorem consumeDecrypt_of_failing {item : ConsumeCandidate} (leaseID : UUID)
    (h : inputs.vaultUp = false ∨ svc.deps.decrypt item.encryptedPayload = none) :
    svc.consumeDecrypt inputs item leaseID = .restoring item leaseID := by
  rw [Service.consumeDecrypt]
  rcases h with hdown | hnone
  · simp [hdown]
  · simp [hnone]

/-- Giving the lease back keeps everything but the lease and the time of the update. -/
theorem find_restored {leaseID : UUID} {started : ℤ}
    (hr : t.find r.id = some (r.leasedAt leaseID started)) :
    (Repository.restoreConsume t now r.candidate.id leaseID).find r.id =
      some (r.reopened now) := by
  have hguard : (Statement.restoreConsume r.candidate.id leaseID).Guard now
      (r.leasedAt leaseID started) := ⟨rfl, rfl, rfl⟩
  rw [Repository.restoreConsume, Table.find_exec, hr, Option.map_some,
    Statement.exec_of_guard hguard]
  rfl

/-- One step of the reader. -/
theorem VaultProgress.advance {n : ℕ} {r' : Row} {phase : ConsumePhase} {call' : Call} {t' : Table}
    (h : VaultProgress r n r' phase) (hr : t.find r.id = some r')
    (htoken : svc.deps.tokenHMAC svc.cfg.tokenHMACPepper token = some r.tokenHash)
    (hpassword : Verifies svc.deps password r.passwordHash)
    (havailable : phase.leased = none → r.Available svc.cfg.consumingLeaseTTL.int64Seconds now)
    (hdatabase : inputs.database = .answered) (hdrawn : inputs.leaseID ≠ none)
    (hvault : inputs.vaultUp = false ∨ svc.deps.decrypt r.encryptedPayload = none)
    (hadvance : (Call.consume token password phase).advance svc inputs now t = some (t', call')) :
    ∃ r'' phase', call' = .consume token password phase' ∧ t'.find r.id = some r'' ∧
      VaultProgress r (n + 1) r'' phase' := by
  cases h with
  | finding =>
      rw [Call.advance, Service.consume,
        consumeFind_of_available hr (havailable rfl) htoken hpassword hdatabase] at hadvance
      cases hadvance
      exact ⟨r, _, rfl, hr, .leasing⟩
  | leasing =>
      obtain ⟨leaseID, hlease⟩ := Option.ne_none_iff_exists'.mp hdrawn
      rw [Call.advance, Service.consume,
        consumeBegin_of_available hr (havailable rfl) hlease hdatabase] at hadvance
      cases hadvance
      exact ⟨_, _, rfl, find_exec_begin hr (havailable rfl) leaseID, .decrypting leaseID now⟩
  | decrypting leaseID started =>
      have hfailing : svc.consumeDecrypt inputs r.candidate leaseID =
          .restoring r.candidate leaseID := consumeDecrypt_of_failing leaseID hvault
      rw [Call.advance, Service.consume, hfailing] at hadvance
      cases hadvance
      exact ⟨_, _, rfl, hr, .restoring leaseID started⟩
  | restoring leaseID started =>
      cases hadvance
      refine ⟨_, _, rfl, ?_, .refused now⟩
      rw [Service.consumeRestore, hdatabase]
      exact find_restored hr
  | refused => cases hadvance

/-- The reader is never stuck before it is answered. -/
theorem VaultProgress.advance_isSome {n : ℕ} {r' : Row} {phase : ConsumePhase}
    (h : VaultProgress r n r' phase) (hn : n < 4) (svc : Service) (inputs : Inputs) (now : ℤ)
    (t : Table) (token password : Text) :
    ∃ p, (Call.consume token password phase).advance svc inputs now t = some p := by
  cases h with
  | finding | leasing | decrypting | restoring => exact ⟨_, rfl⟩
  | refused => omega

theorem mem_of_mem_drawnLease {call : Call} {leaseID : UUID}
    (h : leaseID ∈ call.drawnLease inputs) : leaseID ∈ inputs.leaseID := by
  unfold Call.drawnLease at h
  split at h
  · exact h
  · cases h

end calls

section run
variable {svc : Service} {s t u v : State} {as : List Action} {a : Action} {i n : ℕ}
  {token password : Text} {r : Row}

/-- Reader `i` and the delivery after so many of its steps. -/
structure Failing (svc : Service) (i : ℕ) (token password : Text) (r : Row) (n : ℕ) (u : State) :
    Prop where
  idle : r.Idle svc.cfg.consumingLeaseTTL.int64Seconds u.clock
  progress : ∃ r' phase, u.calls[i]? = some (.consume token password phase) ∧
    u.table.find r.id = some r' ∧ VaultProgress r n r' phase

/-- A call takes no part in the steps of others. -/
theorem call_kept {call : Call} (hstep : step svc u a = some v) (hcall : u.calls[i]? = some call)
    (hother : a.advances i = false) (hawaited : a ≠ .abandon i) : v.calls[i]? = some call := by
  obtain ⟨call', hcall'⟩ := step_call_exists hstep hcall
  rw [hcall']
  cases step_call hstep hcall' with
  | same _ hsame => exact hsame.symm.trans hcall
  | spawned _ hnone =>
      rw [hcall] at hnone
      cases hnone
  | advanced inputs =>
      have hown : (Action.advance i inputs).advances i = true := Action.advances_iff.mpr ⟨_, rfl⟩
      rw [hother] at hown
      cases hown
  | abandoned => exact absurd rfl hawaited

theorem Failing.step (h : Failing svc i token password r n u)
    (htoken : svc.deps.tokenHMAC svc.cfg.tokenHMACPepper token = some r.tokenHash)
    (hpassword : Verifies svc.deps password r.passwordHash)
    (hattempts : r.failedAttempts < r.maxFailedAttempts) (ha : VaultFails svc i r u a)
    (hstep : Delivery.step svc u a = some v) :
    Failing svc i token password r (n + (a.advances i).toNat) v := by
  obtain ⟨r', phase, hcall, hr, hprogress⟩ := h.progress
  refine ⟨h.idle.later (step_clock hstep), ?_⟩
  cases hown : a.advances i with
  | false =>
      exact ⟨r', phase, call_kept hstep hcall hown ha.awaited,
        (ha.undisturbed hown v hstep).trans hr, hprogress⟩
  | true =>
      obtain ⟨inputs, rfl⟩ := Action.advances_iff.mp hown
      cases step_taken hstep with
      | advance _ _ call call' t' hcall' _ hadvance =>
          cases hcall.symm.trans hcall'
          have havailable (hunleased : phase.leased = none) :
              r.Available svc.cfg.consumingLeaseTTL.int64Seconds u.clock :=
            ⟨ha.unexpired inputs token password phase rfl hcall hunleased, hattempts, h.idle⟩
          obtain ⟨r'', phase', rfl, hr'', hprogress'⟩ := hprogress.advance hr htoken hpassword
            havailable (ha.answered inputs rfl) (ha.drawn inputs rfl) (ha.undecrypted inputs rfl)
            hadvance
          have hlt := (List.getElem?_eq_some_iff.mp hcall).1
          exact ⟨r'', phase', List.getElem?_set_self hlt, hr'', hprogress'⟩

/-- The number of steps that reader `i` takes in a run. -/
def ownSteps (svc : Service) (i : ℕ) (s : State) (as : List Action) : ℕ :=
  tally (step svc) (fun _ a => a.advances i) s as

/-- The fourth step of the reader answers that a dependency is unavailable and leaves the
delivery open as it was; before that the reader can go on. -/
structure FailsCleanly (svc : Service) (i : ℕ) (token password : Text) (r : Row) (n : ℕ)
    (t : State) : Prop where
  bounded : n ≤ 4
  answer : n = 4 → t.calls[i]? = some (.consume token password (.refused vaultError)) ∧
    ∃ now, t.table.find r.id = some (r.reopened now)
  proceeds : n < 4 → ∀ inputs, (∀ leaseID ∈ inputs.leaseID, leaseID ∉ t.leases) →
    ∃ v, step svc t (.advance i inputs) = some v

theorem Failing.cleanly (h : Failing svc i token password r n t) :
    FailsCleanly svc i token password r n t := by
  obtain ⟨r', phase, hcall, hr, hprogress⟩ := h.progress
  constructor
  case bounded => cases hprogress <;> decide
  case answer =>
    rintro rfl
    cases hprogress with
    | refused now => exact ⟨hcall, now, hr⟩
  case proceeds =>
    intro hn inputs hfresh
    obtain ⟨p, hadvance⟩ :=
      hprogress.advance_isSome hn svc inputs t.clock t.table token password
    have hnone : ((Call.consume token password phase).drawnLease inputs).any
        (fun leaseID => leaseID ∈ t.leases) = false := by
      rw [Option.any_eq_false]
      intro leaseID hdrawn
      exact decide_eq_false (hfresh leaseID (mem_of_mem_drawnLease hdrawn))
    simp [Delivery.step, hcall, hnone, hadvance]

/-- So many readers in a row, each as above and answered, with any steps that leave the
delivery alone in between. -/
inductive FailedReveals (svc : Service) (d : UUID) (s : State) : ℕ → State → Prop
  | none : FailedReveals svc d s 0 s
  | other (n : ℕ) (u v : State) (a : Action) : FailedReveals svc d s n u →
      step svc u a = some v → v.table.find d = u.table.find d → FailedReveals svc d s n v
  | reveal (n : ℕ) (u v : State) (r : Row) (i : ℕ) (token password : Text) (as : List Action) :
      FailedReveals svc d s n u → u.table.find d = some r →
      u.calls[i]? = some (.consume token password .finding) →
      svc.deps.tokenHMAC svc.cfg.tokenHMACPepper token = some r.tokenHash →
      Verifies svc.deps password r.passwordHash → run (step svc) u as = some v →
      EveryStep (step svc) u as (VaultFails svc i r) → ownSteps svc i u as = 4 →
      FailedReveals svc d s (n + 1) v

/-- A reader with the right token and password, at any point of its run. -/
theorem failing_of_run (hr : s.table.find r.id = some r)
    (hidle : r.Idle svc.cfg.consumingLeaseTTL.int64Seconds s.clock)
    (hattempts : r.failedAttempts < r.maxFailedAttempts)
    (hcall : s.calls[i]? = some (.consume token password .finding))
    (htoken : svc.deps.tokenHMAC svc.cfg.tokenHMACPepper token = some r.tokenHash)
    (hpassword : Verifies svc.deps password r.passwordHash) (hrun : run (step svc) s as = some t)
    (hfails : EveryStep (step svc) s as (VaultFails svc i r)) :
    Failing svc i token password r (ownSteps svc i s as) t := by
  have hstart : Failing svc i token password r 0 s := ⟨hidle, r, _, hcall, hr, .finding⟩
  have hend := tally_induction (P := Failing svc i token password r) hrun hfails hstart
    fun n u a v hu ha hstep => hu.step htoken hpassword hattempts ha hstep
  rwa [Nat.zero_add] at hend

/-- The delivery after failed reveals: as it was, or as it was but without a lease. -/
structure Kept (svc : Service) (r : Row) (s : State) (n : ℕ) (t : State) : Prop where
  reachable : Reachable (step svc) s t
  row : ∃ r', t.table.find r.id = some r' ∧
    (n = 0 ∧ r' = r ∨ 0 < n ∧ ∃ now, r' = r.reopened now)

theorem Kept.idle {r' : Row} (hstart : r.Idle svc.cfg.consumingLeaseTTL.int64Seconds s.clock)
    (h : Kept svc r s n t) (hr' : t.table.find r.id = some r') :
    r'.Idle svc.cfg.consumingLeaseTTL.int64Seconds t.clock := by
  have hclock := h.reachable.preserves (P := fun u => s.clock ≤ u.clock) le_rfl
    fun u a v hu hstep => hu.trans (step_clock hstep)
  obtain ⟨r'', hr'', hcases⟩ := h.row
  cases hr'.symm.trans hr''
  rcases hcases with ⟨_, rfl⟩ | ⟨_, now, rfl⟩
  · exact hstart.later hclock
  · exact r.idle_reopened _ now t.clock

/-- By induction on the number of failures; each of them starts from a row that is idle. -/
theorem FailedReveals.kept (hr : s.table.find r.id = some r)
    (hidle : r.Idle svc.cfg.consumingLeaseTTL.int64Seconds s.clock)
    (hattempts : r.failedAttempts < r.maxFailedAttempts) (h : FailedReveals svc r.id s n t) :
    Kept svc r s n t := by
  induction h with
  | none => exact ⟨.refl s, r, hr, .inl ⟨rfl, rfl⟩⟩
  | other n u v a _ hstep hsame ih =>
      obtain ⟨r', hr', hcases⟩ := ih.row
      exact ⟨ih.reachable.tail hstep, r', hsame.trans hr', hcases⟩
  | reveal n u v r' i token password as _ hr' hcall htoken hpassword hrun hfails hfour ih =>
      have hidle' := ih.idle hidle hr'
      have hid : r'.id = r.id := Table.find_id hr'
      obtain ⟨r'', hr'', hcases⟩ := ih.row
      cases hr'.symm.trans hr''
      have hsame : r'.failedAttempts = r.failedAttempts ∧ r'.maxFailedAttempts = r.maxFailedAttempts ∧
          ∀ now, r'.reopened now = r.reopened now := by
        rcases hcases with ⟨_, rfl⟩ | ⟨_, now, rfl⟩ <;> exact ⟨rfl, rfl, fun _ => rfl⟩
      obtain ⟨hfailed, hmax, hreopened⟩ := hsame
      have hcleanly := (failing_of_run (hid ▸ hr') hidle' (by omega) hcall htoken hpassword hrun
        hfails).cleanly
      obtain ⟨_, now, hv⟩ := hcleanly.answer hfour
      rw [hid, hreopened] at hv
      exact ⟨ih.reachable.trans (.of_run hrun), _, hv, .inr ⟨n.succ_pos, now, rfl⟩⟩

/-- When Vault fails a reader with the right token and password of a delivery that can be
read, the reader is told that a dependency is unavailable, the delivery is open as before,
and after any number of such failures the secret can be read. -/
theorem vault_failures_harmless {clock : ℤ} (h : run (step svc) (State.init clock) as = some s)
    (hr : s.table.find r.id = some r)
    (havailable : r.Available svc.cfg.consumingLeaseTTL.int64Seconds s.clock) :
    (∀ (i : ℕ) (token password : Text) (bs : List Action) (t : State),
      s.calls[i]? = some (.consume token password .finding) →
      svc.deps.tokenHMAC svc.cfg.tokenHMACPepper token = some r.tokenHash →
      Verifies svc.deps password r.passwordHash → run (step svc) s bs = some t →
      EveryStep (step svc) s bs (VaultFails svc i r) →
      FailsCleanly svc i token password r (ownSteps svc i s bs) t) ∧
    ((∀ n p, svc.deps.decrypt (svc.deps.encrypt n p) = some p) →
      ∃ params p, (Occurs (step svc) (State.init clock) as fun _ u a v =>
          Creates svc r.id params p u a v) ∧
        ∀ n t, FailedReveals svc r.id s n t → ∃ r', t.table.find r.id = some r' ∧
          (n = 0 ∧ r' = r ∨ 0 < n ∧ ∃ now, r' = r.reopened now) ∧ Consumable svc t r' p) := by
  obtain ⟨_, hattempts, hidle⟩ := havailable
  constructor
  · intro i token password bs t hcall htoken hpassword hrun hfails
    exact (failing_of_run hr hidle hattempts hcall htoken hpassword hrun hfails).cleanly
  · intro hinverse
    obtain ⟨params, p, created, hoccurs, hrep⟩ := exists_creates h hr
    refine ⟨params, p, hoccurs.imp fun _ _ _ _ _ _ hP => hP.1, fun n t hreveals => ?_⟩
    obtain ⟨_, _, _, _, _, _, _, _, ⟨_, _, _, _, _, _, _, _, haccepts, _⟩, _⟩ := hoccurs
    obtain ⟨nonce, _, hencrypted⟩ := haccepts.encrypted
    obtain ⟨legacy, hread⟩ := haccepts.normalizeConsumedPayload
    have hkept := hreveals.kept hr hidle hattempts
    obtain ⟨r', hr', hcases⟩ := hkept.row
    have hsame : r'.encryptedPayload = r.encryptedPayload ∧ r'.failedAttempts = r.failedAttempts ∧
        r'.maxFailedAttempts = r.maxFailedAttempts := by
      rcases hcases with ⟨_, rfl⟩ | ⟨_, now, rfl⟩ <;> exact ⟨rfl, rfl, rfl⟩
    obtain ⟨hciphertext, hfailed, hmax⟩ := hsame
    have hdecrypt : svc.deps.decrypt r'.encryptedPayload = some p := by
      rw [hciphertext, (hrep.live (hidle.imp_right And.left)).1]
      change svc.deps.decrypt params.encryptedPayload = some p
      rw [hencrypted, hinverse]
    refine ⟨r', hr', hcases, consumable_of_available ?_ (hkept.idle hidle hr') (by omega) hdecrypt
      hread⟩
    rwa [Table.find_id hr']

/-- A reader that runs alone. -/
theorem vaultFails_alone (hown : ∀ a ∈ as, ∃ inputs, a = .advance i inputs ∧
      inputs.database = .answered ∧ inputs.leaseID ≠ none ∧
      (inputs.vaultUp = false ∨ svc.deps.decrypt r.encryptedPayload = none))
    (hexpires : s.clock < r.expiresAt) : EveryStep (step svc) s as (VaultFails svc i r) := by
  have hevery : EveryStep (step svc) s as fun _ a => ∃ inputs, a = .advance i inputs ∧
      inputs.database = .answered ∧ inputs.leaseID ≠ none ∧
      (inputs.vaultUp = false ∨ svc.deps.decrypt r.encryptedPayload = none) :=
    fun pre a u hpre _ => hown a (hpre.subset (by simp))
  have hclock := hevery.always (P := fun u => u.clock < r.expiresAt) hexpires ?_
  · intro pre a u hpre hrun
    obtain ⟨inputs, rfl, hdatabase, hdrawn, hvault⟩ := hevery pre a u hpre hrun
    constructor
    case answered => exact fun _ heq => (Action.advance.inj heq).2 ▸ hdatabase
    case drawn => exact fun _ heq => (Action.advance.inj heq).2 ▸ hdrawn
    case undecrypted => exact fun _ heq => (Action.advance.inj heq).2 ▸ hvault
    case unexpired =>
      exact fun _ _ _ _ _ _ _ => hclock pre u ((List.prefix_append pre _).trans hpre) hrun
    case awaited => exact fun heq => by cases heq
    case undisturbed =>
      intro hother
      rw [Action.advances_iff.mpr ⟨inputs, rfl⟩] at hother
      cases hother
  · rintro u _ v hu ⟨inputs, rfl, _⟩ hstep
    cases step_taken hstep
    exact hu

end run

/-- Vault is down for a whole call of the reader of the sample delivery. -/
def sampleOutage : List Action :=
  List.replicate 4 (.advance 1 { sampleAnswers (some 1) with vaultUp := false })

theorem vault_failures_harmless_sample :
    ∃ s r t, run (step sampleService) (State.init 0) (sampleCreation ++ [.spawn (.consume ['t'] [])]) =
        some s ∧ s.table.find r.id = some r ∧ run (step sampleService) s sampleOutage = some t ∧
      FailsCleanly sampleService 1 ['t'] [] r 4 t ∧
      ∃ r' p, t.table.find r.id = some r' ∧ Consumable sampleService t r' p := by
  have hrun : (run (step sampleService) (State.init 0)
      (sampleCreation ++ [.spawn (.consume ['t'] [])])).map (fun s =>
        (s.table.find 7, s.clock, s.calls[1]?, ownSteps sampleService 1 s sampleOutage)) =
      some (some (sampleParams.row 0), 0, some (.consume ['t'] [] .finding), 4) := by
    decide +kernel
  have hrun' : (run (step sampleService) (State.init 0)
      (sampleCreation ++ [.spawn (.consume ['t'] [])] ++ sampleOutage)).isSome := by
    decide +kernel
  obtain ⟨s, hs, hread⟩ := Option.map_eq_some_iff.mp hrun
  obtain ⟨t, ht⟩ := Option.isSome_iff_exists.mp hrun'
  rw [run_append, hs, Option.bind_some] at ht
  obtain ⟨hr, hread⟩ := Prod.mk.inj hread
  obtain ⟨hclock, hread⟩ := Prod.mk.inj hread
  obtain ⟨hcall, hfour⟩ := Prod.mk.inj hread
  have hexpires : s.clock < (sampleParams.row 0).expiresAt := by
    rw [hclock]
    decide
  have havailable : (sampleParams.row 0).Available
      sampleService.cfg.consumingLeaseTTL.int64Seconds s.clock :=
    ⟨hexpires, by decide, .inl rfl⟩
  have htoken : sampleService.deps.tokenHMAC sampleService.cfg.tokenHMACPepper ['t'] =
      some (sampleParams.row 0).tokenHash := rfl
  have hpassword : Verifies sampleService.deps [] (sampleParams.row 0).passwordHash :=
    verifies_none _ _
  have hfails : EveryStep (step sampleService) s sampleOutage
      (VaultFails sampleService 1 (sampleParams.row 0)) := by
    refine vaultFails_alone (fun a ha => ?_) hexpires
    exact ⟨_, List.eq_of_mem_replicate ha, rfl, by decide, .inl rfl⟩
  obtain ⟨hcleanly, hreadable⟩ := vault_failures_harmless (r := sampleParams.row 0) hs hr havailable
  have hanswer := hcleanly 1 ['t'] [] sampleOutage t hcall htoken hpassword ht hfails
  rw [hfour] at hanswer
  obtain ⟨_, p, _, hreveals⟩ := hreadable fun _ _ => rfl
  obtain ⟨r', hr', _, hconsumable⟩ := hreveals 1 t (.reveal 0 s t (sampleParams.row 0) 1 ['t'] []
    sampleOutage .none hr hcall htoken hpassword ht hfails hfour)
  exact ⟨s, _, t, hs, hr, ht, hanswer, r', p, hr', hconsumable⟩

end SecureShare.Delivery
