import SecureShare.Delivery.LiveLease
import SecureShare.Delivery.RoundTrip

/-!
# No secret is lost before its delivery

From every state that the system can reach, whatever calls failed or were
abandoned on the way, a delivery that is neither consumed nor revoked nor expired
holds the ciphertext it was created with; and once no live lease is in the way, a
reader that nobody disturbs gets the payload back.
-/
namespace SecureShare.Delivery
open Go Library.Transition

/-- The step that stores the payload `p` as delivery `d`. -/
def Creates (svc : Service) (d : UUID) (params : InsertParams) (p : Text) (u : State) (a : Action)
    (v : State) : Prop :=
  ∃ i inputs actorID req token, a = .advance i inputs ∧
    u.calls[i]? = some (.create actorID req .inserting) ∧
    insertParams svc.deps svc.cfg inputs.toCreateInputs actorID req = .ok (params, token) ∧
    Accepts svc.deps svc.cfg inputs.toCreateInputs req params token p ∧ params.id = d ∧
    v.table.find d = some (params.row u.clock)

section origin
variable {svc : Service} {s t : State} {clock : ℤ} {d : UUID} {r : Row}

/-- A row stays, and keeps representing what was inserted. -/
theorem represents_of_reachable (h : Reachable (step svc) s t) {origin : Row}
    (hr : s.table.find d = some r) (hrep : Represents origin r) :
    ∃ r', t.table.find d = some r' ∧ Represents origin r' := by
  refine h.preserves (P := fun u => ∃ r', u.table.find d = some r' ∧ Represents origin r')
    ⟨r, hr, hrep⟩ ?_
  rintro u a v ⟨r', hr', hrep'⟩ hstep
  rcases step_find hstep hr' with hsame | ⟨_, _, _, time, stmt, _, _, _, hguard, hset⟩
  · exact ⟨r', hsame, hrep'⟩
  · exact ⟨_, hset, hrep'.set hguard⟩

/-- Every row was stored by a step of the run. -/
theorem exists_creates {as : List Action} (h : run (step svc) (State.init clock) as = some s)
    (hr : s.table.find d = some r) :
    ∃ params p created, Occurs (step svc) (State.init clock) as
      (fun _ u a v => Creates svc d params p u a v ∧ u.clock = created) ∧
      Represents (params.row created) r := by
  have hinit : ¬∃ r, (State.init clock).table.find d = some r := by
    rintro ⟨_, hnone⟩
    rw [find_init] at hnone
    cases hnone
  obtain ⟨pre, a, post, u, v, rfl, hpre, hstep, hpost, hbefore, r₀, hr₀⟩ :=
    exists_step_of_becomes (Q := fun u => ∃ r, u.table.find d = some r) h hinit ⟨r, hr⟩
  cases step_row hstep d with
  | same _ hsame => exact absurd ⟨r₀, hsame.symm.trans hr₀⟩ hbefore
  | written _ _ _ _ _ _ _ hfind =>
      obtain ⟨r', hr', _⟩ := Option.map_eq_some_iff.mp (hfind.symm.trans hr₀)
      exact absurd ⟨r', hr'⟩ hbefore
  | inserted i inputs call r' hcall hinserts hid _ hfind =>
      obtain ⟨actorID, req, params, token, rfl, hparams, rfl, _⟩ := hinserts
      obtain ⟨p, haccepts⟩ := insertParams_spec hparams
      obtain ⟨r'', hr'', hrep⟩ := represents_of_reachable (.of_run hpost) hfind
        (represents_row u.clock haccepts.maxFailedAttempts_pos.1)
      rw [hr] at hr''
      cases hr''
      exact ⟨params, p, u.clock, ⟨pre, _, post, u, v, rfl, hpre, hstep, ⟨i, inputs, actorID, req,
        token, rfl, hcall, hparams, haccepts, hid, hfind⟩, rfl⟩, hrep⟩

theorem Statement.set_expired {stmt : Statement} {now : ℤ} (hguard : stmt.Guard now r)
    (h : (stmt.set now r).status = .expired) : r.status = .expired ∨ r.expiresAt ≤ now := by
  cases stmt with
  | beginConsume | restoreConsume | completeConsume | revoke | restoreStale => cases h
  | recordPasswordFailure =>
      by_cases hlast : r.LastAttempt <;> simp [set, hlast] at h
  | updatePasswordProtection | blankRetained => exact .inl h
  | expireActive => exact .inr hguard.2

/-- What is marked as expired has expired. -/
theorem expired_past (h : Reachable (step svc) (State.init clock) s)
    (hr : s.table.find d = some r) (hexpired : r.status = .expired) : r.expiresAt ≤ s.clock := by
  refine h.induction (P := fun u => ∀ r, u.table.find d = some r → r.status = .expired →
    r.expiresAt ≤ u.clock) ?_ ?_ r hr hexpired
  · intro r hr
    rw [find_init] at hr
    cases hr
  intro u a v hreach hu hstep r hr hexpired
  have hclock := step_clock hstep
  cases step_row hstep d with
  | same _ hsame => exact (hu r (hsame.symm.trans hr) hexpired).trans hclock
  | written i inputs call time stmt hcall hissues hfind =>
      obtain ⟨r₀, hr₀, rfl⟩ := Option.map_eq_some_iff.mp (hfind.symm.trans hr)
      have htime := issues_time_le hreach hcall hissues
      rw [(Statement.exec_unassigned time stmt r₀).expiresAt]
      by_cases hguard : stmt.Guard time r₀
      · rw [Statement.exec_of_guard hguard] at hexpired
        rcases Statement.set_expired hguard hexpired with hs | hle
        · exact (hu r₀ hr₀ hs).trans hclock
        · exact (hle.trans htime).trans hclock
      · rw [Statement.exec_of_not_guard hguard] at hexpired
        exact (hu r₀ hr₀ hexpired).trans hclock
  | inserted _ _ _ r' _ hinserts _ _ hfind =>
      obtain ⟨_, _, params, _, _, _, rfl, _⟩ := hinserts
      rw [hfind] at hr
      cases hr
      cases hexpired

end origin

/-- The database and Vault answer. -/
def Inputs.Healthy (inputs : Inputs) : Prop :=
  inputs.database = .answered ∧ inputs.vaultUp = true

/-- A reader with the right token and password that nobody disturbs is answered with
the payload. -/
def Consumable (svc : Service) (s : State) (r : Row) (p : Text) : Prop :=
  ∀ (token password : Text) (leaseID : UUID) (e₁ e₂ e₃ e₄ : ℕ) (in₁ in₂ in₃ in₄ : Inputs),
    svc.deps.tokenHMAC svc.cfg.tokenHMACPepper token = some r.tokenHash →
    Verifies svc.deps password r.passwordHash → leaseID ∉ s.leases →
    s.clock + e₁ + e₂ < r.expiresAt → in₁.Healthy → in₂.Healthy → in₃.Healthy → in₄.Healthy →
    in₂.leaseID = some leaseID →
    ∃ t legacy, run (step svc) s
        (deliveryRun s.calls.length token password e₁ e₂ e₃ e₄ in₁ in₂ in₃ in₄) = some t ∧
      t.calls[s.calls.length]? = some (.consume token password (.delivered r.candidate ⟨legacy, p⟩))

theorem consumable_of_available {svc : Service} {s : State} {r : Row} {p legacy : Text}
    (hr : s.table.find r.id = some r)
    (hstatus : r.status = .active ∨ r.status = .consuming ∧
      r.LeaseStale svc.cfg.consumingLeaseTTL.int64Seconds s.clock)
    (hfailed : r.failedAttempts < r.maxFailedAttempts)
    (hdecrypt : svc.deps.decrypt r.encryptedPayload = some p)
    (hpayload : normalizeConsumedPayload p = some (p, legacy)) : Consumable svc s r p := by
  intro token password leaseID e₁ e₂ e₃ e₄ in₁ in₂ in₃ in₄ htoken hpassword hfresh hexpires h₁ h₂ h₃
    h₄ hlease
  have havailable : ∀ e : ℕ, s.clock + e < r.expiresAt →
      r.Available svc.cfg.consumingLeaseTTL.int64Seconds (s.clock + e) := by
    intro e he
    refine ⟨he, hfailed, hstatus.imp_right fun ⟨hs, at', hat, hlt⟩ => ⟨hs, at', hat, ?_⟩⟩
    omega
  have havailable₂ := havailable (e₁ + e₂) (by rwa [Nat.cast_add, ← add_assoc])
  rw [Nat.cast_add, ← add_assoc] at havailable₂
  obtain ⟨t, hrun, hcall⟩ := deliveryRun_delivers hr htoken hpassword
    (havailable e₁ (by omega)) havailable₂ hfresh e₃ e₄ h₁.1 h₂.1 hlease h₃.2 h₄.1 hdecrypt hpayload
  exact ⟨t, legacy, hrun, hcall⟩

/-- What may blank a ciphertext: a completion by a reader that decrypted it, a
revocation, the attempt limit, and retention on a terminal row. -/
inductive Blanks (svc : Service) (r : Row) : Call → Statement → Prop
  | completed (token password : Text) (item : ConsumeCandidate) (leaseID : UUID)
      (plaintext : Text) : svc.deps.decrypt r.encryptedPayload = some plaintext →
      r.LeasedBy leaseID →
      Blanks svc r (.consume token password (.completing item leaseID plaintext))
        (.completeConsume r.id leaseID)
  | revoked : Blanks svc r (.revoke r.id .updating) (.revoke r.id)
  | locked (token password : Text) (hash : Text) (n : ℤ) : r.LastAttempt →
      Blanks svc r (.consume token password (.failing r.tokenHash hash))
        (.recordPasswordFailure r.tokenHash hash n)
  | retained (phase : CleanupPhase) (a b c : ℤ) : r.status.terminal = true →
      Blanks svc r (.cleanup phase) (.blankRetained a b c)

theorem blanks_of_set {svc : Service} {s : State} {clock : ℤ} {d : UUID} {r : Row} {i : ℕ}
    {inputs : Inputs} {call : Call} {time : ℤ} {stmt : Statement}
    (h : Reachable (step svc) (State.init clock) s) (hr : s.table.find d = some r)
    (hcall : s.calls[i]? = some call) (hissues : Issues svc inputs s.clock call time stmt)
    (hguard : stmt.Guard time r) (hne : r.encryptedPayload ≠ [])
    (hnil : (stmt.set time r).encryptedPayload = []) : Blanks svc r call stmt := by
  cases hissues with
  | counting token password tokenHash hash =>
      by_cases hlast : r.LastAttempt
      · rw [← hguard.1]
        exact .locked token password hash _ hlast
      · simp [Statement.set, hlast, hne] at hnil
  | leasing | restoring | protecting | expiring | givingBack => exact absurd hnil hne
  | completing token password item leaseID plaintext =>
      obtain ⟨hentitled, hdecrypt⟩ := sound_of_reachable h hcall
      have hfind : s.table.find item.id = some r := by
        rw [← hguard.1, Table.find_id hr]
        exact hr
      rw [← (hentitled.row r hfind hguard.2).1] at hdecrypt
      rw [← hguard.1]
      exact .completed token password item leaseID plaintext hdecrypt hguard.2
  | revoking id =>
      rw [← hguard.1]
      exact .revoked
  | blanking =>
      rcases Statement.guard_status hguard with hlive | ⟨_, _, _, _, hterminal⟩
      · rcases hguard.2 with ⟨hs, _⟩ | ⟨hs, _⟩ | ⟨hs, _⟩ <;> simp [hs] at hlive
      · exact .retained _ _ _ _ hterminal

/-- The payload of an accepted request can be read back. -/
theorem Accepts.normalizeConsumedPayload {deps : Dependencies} {cfg : Config}
    {inputs : CreateInputs} {req : CreateRequest} {params : InsertParams} {token p : Text}
    (h : Accepts deps cfg inputs req params token p) :
    ∃ legacy, Delivery.normalizeConsumedPayload p = some (p, legacy) := by
  obtain ⟨summary, hcanonical⟩ := h.canonical
  obtain ⟨q, n, _, hn, hp⟩ := canonicalPayload_spec hcanonical
  obtain ⟨legacy, _, hread⟩ := normalizeConsumedPayload_marshal
    (normalized_of_normalizePayload hn) hp (validateCreate_ok h.validated).1
  exact ⟨legacy, hread⟩

section main
variable {svc : Service} {s : State} {clock : ℤ} {d : UUID} {r : Row}

/-- A row that still holds its secret can be consumed. -/
theorem consumable_of_represents {params : InsertParams} {p : Text} {inputs : CreateInputs}
    {req : CreateRequest} {token : Text} {created : ℤ}
    (hwhole : svc.cfg.consumingLeaseTTL.toInt % 1000000000 = 0)
    (hpos : 0 < svc.cfg.consumingLeaseTTL.toInt)
    (hinverse : ∀ n p, svc.deps.decrypt (svc.deps.encrypt n p) = some p)
    (haccepts : Accepts svc.deps svc.cfg inputs req params token p)
    (hrep : Represents (params.row created) r) (hr : s.table.find d = some r)
    (hlive : r.status = .active ∨ r.status = .consuming)
    (hlease : ∀ started ∈ r.consumingStartedAt,
      started * 1000 + svc.cfg.consumingLeaseTTL.toInt < s.clock * 1000) :
    Consumable svc s r p := by
  obtain ⟨hpayload, hfailed⟩ := hrep.live hlive
  obtain ⟨n, _, hencrypted⟩ := haccepts.encrypted
  obtain ⟨legacy, hread⟩ := haccepts.normalizeConsumedPayload
  have hdecrypt : svc.deps.decrypt r.encryptedPayload = some p := by
    rw [hpayload]
    change svc.deps.decrypt params.encryptedPayload = some p
    rw [hencrypted, hinverse]
  have hseconds : svc.cfg.consumingLeaseTTL.int64Seconds =
      svc.cfg.consumingLeaseTTL.toInt / 1000000000 :=
    Duration.int64Seconds_of_whole (by omega) (by omega)
  have hid : r.id = d := Table.find_id hr
  refine consumable_of_available (hid ▸ hr) ?_ hfailed hdecrypt hread
  refine hlive.imp_right fun hs => ⟨hs, ?_⟩
  obtain ⟨started, hstarted⟩ := Option.ne_none_iff_exists'.mp (hrep.startedAt.mpr hs)
  refine ⟨started, hstarted, ?_⟩
  have hold := hlease started hstarted
  rw [Row.interval, hseconds]
  omega

/-- In every state of every run a delivery was stored by a step of the run; unless it
is consumed, revoked or expired it holds the ciphertext of that step, and a reader
gets the payload back once no live lease is in the way. Its ciphertext is blanked
only by a completion after its decryption, a revocation, the attempt limit or
retention. -/
theorem no_secret_is_lost {parseRequestURI : Text → Option String} {toLower : Text → Text}
    (hcfg : svc.cfg.Accepted parseRequestURI toLower)
    (hwhole : svc.cfg.consumingLeaseTTL.toInt % 1000000000 = 0)
    (hinverse : ∀ n p, svc.deps.decrypt (svc.deps.encrypt n p) = some p) {as : List Action}
    (h : run (step svc) (State.init clock) as = some s) (hr : s.table.find d = some r) :
    (∃ params p, (Occurs (step svc) (State.init clock) as fun _ u a v =>
        Creates svc d params p u a v) ∧
      (r.status ≠ .consumed → r.status ≠ .revoked → s.clock < r.expiresAt →
        r.encryptedPayload = params.encryptedPayload ∧
        ((∀ started ∈ r.consumingStartedAt,
            started * 1000 + svc.cfg.consumingLeaseTTL.toInt < s.clock * 1000) →
          Consumable svc s r p))) ∧
    ∀ a s' r', step svc s a = some s' → s'.table.find d = some r' → r.encryptedPayload ≠ [] →
      r'.encryptedPayload = [] → ∃ i inputs call time stmt, a = .advance i inputs ∧
        s.calls[i]? = some call ∧ Issues svc inputs s.clock call time stmt ∧
        stmt.Guard time r ∧ Blanks svc r call stmt := by
  constructor
  · obtain ⟨params, p, created, hoccurs, hrep⟩ := exists_creates h hr
    refine ⟨params, p, hoccurs.imp fun _ _ _ _ _ _ hP => hP.1, ?_⟩
    intro hconsumed hrevoked hexpires
    have hlive : r.status = .active ∨ r.status = .consuming := by
      cases hs : r.status with
      | active => exact .inl rfl
      | consuming => exact .inr rfl
      | consumed => exact absurd hs hconsumed
      | revoked => exact absurd hs hrevoked
      | expired =>
          have hpast := expired_past (.of_run h) hr hs
          omega
    obtain ⟨_, _, _, _, _, _, _, _, ⟨_, _, _, _, _, _, _, _, haccepts, _⟩, _⟩ := hoccurs
    exact ⟨(hrep.live hlive).1, fun hlease => consumable_of_represents hwhole
      hcfg.consumingLeaseTTL_pos hinverse haccepts hrep hr hlive hlease⟩
  · intro a s' r' hstep hr' hne hnil
    rcases step_find hstep hr with hsame | ⟨i, inputs, call, time, stmt, rfl, hcall, hissues,
      hguard, hset⟩
    · rw [hsame] at hr'
      cases hr'
      exact absurd hnil hne
    · rw [hset] at hr'
      cases hr'
      exact ⟨i, inputs, call, time, stmt, rfl, hcall, hissues, hguard,
        blanks_of_set (.of_run h) hr hcall hissues hguard hne hnil⟩

end main

/-- A reader leased the sample and was never heard of again; thirty-one seconds later
the delivery can be read. -/
theorem no_secret_is_lost_sample :
    ∃ s r, run (step sampleService) (State.init 0) (sampleLeasing ++ [.tick 31000000]) = some s ∧
      s.table.find 7 = some r ∧ r.status = .consuming ∧ ∃ p, Consumable sampleService s r p := by
  have hrun : (run (step sampleService) (State.init 0) (sampleLeasing ++ [.tick 31000000])).map
      (fun s => (s.clock, (s.table.find 7).map fun r =>
        (r.status, r.expiresAt, r.consumingStartedAt))) =
      some (31000000, some (.consuming, 3600000000, some 0)) := by
    decide +kernel
  obtain ⟨s, hs, hread⟩ := Option.map_eq_some_iff.mp hrun
  obtain ⟨hclock, hrow⟩ := Prod.mk.inj hread
  obtain ⟨r, hr, hcolumns⟩ := Option.map_eq_some_iff.mp hrow
  obtain ⟨hstatus, hcolumns⟩ := Prod.mk.inj hcolumns
  obtain ⟨hexpires, hstarted⟩ := Prod.mk.inj hcolumns
  have hcfg : sampleService.cfg.Accepted (fun _ => none) id := sampleConfig_accepted
  obtain ⟨⟨params, p, _, hkept⟩, _⟩ :=
    no_secret_is_lost hcfg (by decide) (fun _ _ => rfl) hs hr
  refine ⟨s, r, hs, hr, hstatus, p, (hkept ?_ ?_ ?_).2 ?_⟩
  · rw [hstatus]
    decide
  · rw [hstatus]
    decide
  · rw [hclock, hexpires]
    decide
  · intro started hmem
    rw [hstarted] at hmem
    cases hmem
    rw [hclock]
    decide

end SecureShare.Delivery
