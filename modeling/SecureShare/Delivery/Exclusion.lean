import SecureShare.Delivery.Simulation

/-!
# Exclusive delivery

At most one call wins a delivery, so at most one plaintext of it is returned; and
whoever lost a lease can do no harm with it.
-/
namespace SecureShare.Delivery
open Go Library Library.Transition

section runs
variable {svc : Service} {s t : State} {clock : ℤ} {d : UUID}

/-- Over the whole run at most one call returns the plaintext of a delivery. -/
theorem at_most_one_plaintext (h : Reachable (step svc) (State.init clock) s)
    (k : Reachable (step svc) s t) {i j : ℕ} {c c' : Call} (hi : s.calls[i]? = some c)
    (hc : c.Delivered d) (hj : t.calls[j]? = some c') (hc' : c'.Delivered d) : i = j := by
  have hfinished : i ∈ (fencing d t).finished :=
    Fencing.path_finished (fencing_path k d) ⟨c, hi, .inl hc⟩
  exact (fencing_inv (h.trans k) d).finished_unique i j hfinished ⟨c', hj, .inl hc'⟩

theorem at_most_one_plaintext_sample :
    ∃ s, Reachable (step sampleService) (State.init 0) s ∧
      (∃ c, s.calls[1]? = some c ∧ c.Delivered 7) ∧
      ∀ j c, s.calls[j]? = some c → c.Delivered 7 → 1 = j := by
  have hrun : (run (step sampleService) (State.init 0) sampleReveal).map (fun s => s.calls[1]?) =
      some (some (.consume ['t'] [] (.delivered sampleItem sampleResponse))) := by
    decide +kernel
  obtain ⟨s, hs, hcall⟩ := Reachable.of_map hrun
  have hdelivered : (Call.consume ['t'] [] (.delivered sampleItem sampleResponse)).Delivered 7 :=
    ⟨_, _, _, _, rfl, rfl⟩
  exact ⟨s, hs, ⟨_, hcall, hdelivered⟩,
    fun j c hj hc => at_most_one_plaintext hs (.refl s) hcall hdelivered hj hc⟩

end runs

section lost
variable {svc : Service} {s t : State} {clock : ℤ}

/-- A call that leased `item` still has the lease, delivered that item, or gave up. -/
def Follows (item : ConsumeCandidate) (leaseID : UUID) (phase : ConsumePhase) : Prop :=
  phase.leased = some (item, leaseID) ∨ (∃ response, phase = .delivered item response) ∨
    (∃ e, phase = .refused e) ∨ phase = .abandoned

theorem ConsumeStep.follows {inputs : Inputs} {now : ℤ} {token password : Text} {u v : Table}
    {phase phase' : ConsumePhase} {item : ConsumeCandidate} {leaseID : UUID}
    (h : Follows item leaseID phase)
    (hstep : ConsumeStep svc inputs now token password u phase v phase') :
    Follows item leaseID phase' := by
  have hleased : phase.leased = some (item, leaseID) := by
    rcases h with h | ⟨_, rfl⟩ | ⟨_, rfl⟩ | rfl
    · exact h
    all_goals cases hstep
  cases hstep with
  | found | mismatched | unfound | counted | unleased | leaseLost | leased => cases hleased
  | decrypted | undecrypted => exact .inl hleased
  | restored | uncompleted => exact .inr (.inr (.inl ⟨_, rfl⟩))
  | completed =>
      cases hleased
      exact .inr (.inl ⟨_, rfl⟩)

theorem follows_of_reachable (h : Reachable (step svc) s t) {i : ℕ} {token password : Text}
    {phase : ConsumePhase} {item : ConsumeCandidate} {leaseID : UUID}
    (hcall : s.calls[i]? = some (.consume token password phase))
    (hleased : phase.leased = some (item, leaseID)) :
    ∃ phase', t.calls[i]? = some (.consume token password phase') ∧
      Follows item leaseID phase' := by
  refine h.preserves (P := fun u => ∃ phase', u.calls[i]? = some (.consume token password phase') ∧
    Follows item leaseID phase') ⟨phase, hcall, .inl hleased⟩ ?_
  rintro u a v ⟨phase', hphase', hfollows⟩ hstep
  obtain ⟨c, hc⟩ := step_call_exists hstep hphase'
  cases step_call hstep hc with
  | same _ hsame =>
      rw [hphase'] at hsame
      cases hsame
      exact ⟨phase', hc, hfollows⟩
  | spawned _ hnone =>
      rw [hphase'] at hnone
      cases hnone
  | advanced inputs call hcall' _ _ hadvance =>
      rw [hphase'] at hcall'
      cases hcall'
      obtain ⟨⟨_, phase''⟩, hr, heq⟩ := Option.map_eq_some_iff.mp hadvance
      cases heq
      exact ⟨phase'', hc, (consume_step hr).follows hfollows⟩
  | abandoned call hcall' habandon =>
      rw [hphase'] at hcall'
      cases hcall'
      refine ⟨.abandoned, ?_, .inr (.inr (.inr rfl))⟩
      cases phase' <;> cases habandon <;> exact hc

/-- The row carries the lease. -/
def Carries (s : State) (d leaseID : UUID) : Prop :=
  ∃ r, s.table.find d = some r ∧ r.consumingLeaseID = some leaseID

/-- The call could still change the row by restoring or completing. -/
def Effective (s : State) (d : UUID) (i : ℕ) : Prop :=
  ∃ token password phase item leaseID r now,
    s.calls[i]? = some (.consume token password phase) ∧ phase.leased = some (item, leaseID) ∧
    s.table.find d = some r ∧
    ((Statement.restoreConsume item.id leaseID).exec now r ≠ r ∨
      (Statement.completeConsume item.id leaseID).exec now r ≠ r)

theorem carries_of_holder {d leaseID : UUID} (h : s.table.holder d = some leaseID) :
    Carries s d leaseID := by
  obtain ⟨r, hr, hholder⟩ := Option.bind_eq_some_iff.mp h
  unfold Row.holder at hholder
  split_ifs at hholder
  exact ⟨r, hr, hholder⟩

/-- What a call with a lease of the delivery holds in the fencing protocol. -/
theorem held_of_leased {i : ℕ} {token password : Text} {phase : ConsumePhase}
    {item : ConsumeCandidate} {leaseID : UUID}
    (hcall : s.calls[i]? = some (.consume token password phase))
    (hleased : phase.leased = some (item, leaseID)) :
    (fencing item.id s).held i = some leaseID := by
  simp [fencing, hcall, Call.held, hleased]

theorem holder_of_guard {item : ConsumeCandidate} {leaseID : UUID} {r : Row} {now : ℤ}
    (hr : s.table.find r.id = some r)
    (hguard : (Statement.completeConsume item.id leaseID).Guard now r) :
    (fencing item.id s).holder = some leaseID := by
  change s.table.holder item.id = some leaseID
  rw [Table.holder, ← hguard.1, hr, Option.bind_some, Row.holder, if_pos hguard.2.1, hguard.2.2]

theorem Effective.fenced {d : UUID} {i : ℕ} (h : Effective s d i) :
    ∃ leaseID, (fencing d s).held i = some leaseID ∧ (fencing d s).holder = some leaseID := by
  obtain ⟨token, password, phase, item, leaseID, r, now, hcall, hleased, hr, hchange⟩ := h
  have hguard : (Statement.completeConsume item.id leaseID).Guard now r := by
    rcases hchange with hchange | hchange
    · by_contra hno
      exact hchange (Statement.exec_of_not_guard (s := .restoreConsume item.id leaseID) hno)
    · by_contra hno
      exact hchange (Statement.exec_of_not_guard hno)
  have hid : r.id = d := Table.find_id hr
  have hitem : item.id = d := hguard.1.symm.trans hid
  subst hitem
  exact ⟨leaseID, held_of_leased hcall hleased, holder_of_guard (hid.symm ▸ hr) hguard⟩

/-- A reader whose lease is gone changes no row with it, and returns nothing. -/
theorem lost_lease_stays_lost (h : Reachable (step svc) (State.init clock) s)
    (k : Reachable (step svc) s t) {i : ℕ} {token password : Text} {phase : ConsumePhase}
    {item : ConsumeCandidate} {leaseID : UUID}
    (hcall : s.calls[i]? = some (.consume token password phase))
    (hleased : phase.leased = some (item, leaseID)) (hlost : ¬Carries s item.id leaseID) :
    ∃ phase', t.calls[i]? = some (.consume token password phase') ∧
      phase'.hasDelivered = false ∧
      ∀ item' leaseID', phase'.leased = some (item', leaseID') →
        ∀ r ∈ t.table.rows, ¬(r.id = item'.id ∧ r.status = .consuming ∧
          r.consumingLeaseID = some leaseID') := by
  have hheld := held_of_leased hcall hleased
  have hLost : Fencing.Lost (fencing item.id s) i := by
    refine ⟨⟨_, hcall, ?_⟩, ?_, ?_⟩
    · cases phase <;> cases hleased <;> rfl
    · rintro ⟨c, hc, hwon⟩
      rw [hcall] at hc
      cases hc
      refine not_won_consume ?_ hwon
      cases phase <;> cases hleased <;> rfl
    · intro l hl
      refine ⟨(fencing_inv h item.id).held_issued i l hl, fun hholder => hlost ?_⟩
      rw [hheld] at hl
      cases hl
      exact carries_of_holder hholder
  have hLost' := Fencing.path_lost hLost (fencing_path k item.id)
  obtain ⟨phase', hphase', hfollows⟩ := follows_of_reachable k hcall hleased
  refine ⟨phase', hphase', ?_, ?_⟩
  · rcases hfollows with hfollows | ⟨response, rfl⟩ | ⟨_, rfl⟩ | rfl
    · cases phase' <;> cases hfollows <;> rfl
    · exact absurd ⟨_, hphase', .inl ⟨_, _, _, _, rfl, rfl⟩⟩ hLost'.unfinished
    · rfl
    · rfl
  · intro item' leaseID' hleased' r hr hguard
    have hsame : item' = item ∧ leaseID' = leaseID := by
      rcases hfollows with hfollows | ⟨response, rfl⟩ | ⟨_, rfl⟩ | rfl
      · rw [hleased'] at hfollows
        cases hfollows
        exact ⟨rfl, rfl⟩
      all_goals cases hleased'
    obtain ⟨rfl, rfl⟩ := hsame
    have hmatch : (Statement.completeConsume item'.id leaseID').Guard t.clock r := hguard
    exact (hLost'.fenced leaseID' (held_of_leased hphase' hleased')).2
      (holder_of_guard (Table.find_eq_some.mpr ⟨hr, rfl⟩) hmatch)

/-- Lost leases are harmless, and in every state at most one reader has a lease
that still counts. -/
theorem lost_leases_harmless (h : Reachable (step svc) (State.init clock) s) :
    (∀ i token password phase item leaseID, s.calls[i]? = some (.consume token password phase) →
      phase.leased = some (item, leaseID) → ¬Carries s item.id leaseID →
      ∀ t, Reachable (step svc) s t →
        ∃ phase', t.calls[i]? = some (.consume token password phase') ∧
          phase'.hasDelivered = false ∧
          ∀ inputs u, phase'.leased ≠ none → step svc t (.advance i inputs) = some u →
            u.table = t.table) ∧
    ∀ d i j, Effective s d i → Effective s d j → i = j := by
  constructor
  · intro i token password phase item leaseID hcall hleased hlost t k
    obtain ⟨phase', hcall', hdelivered, hfenced⟩ :=
      lost_lease_stays_lost h k hcall hleased hlost
    refine ⟨phase', hcall', hdelivered, fun inputs u hholds hstep => ?_⟩
    cases step_taken hstep with
    | advance _ _ call call' t' hfind _ hadvance =>
        rw [hcall'] at hfind
        cases hfind
        cases advance_writes hadvance with
        | nothing => rfl
        | insert _ _ hinserts =>
            obtain ⟨_, _, _, _, heq, _⟩ := hinserts
            cases heq
        | statement time stmt hstmt =>
            -- restoring and completing match no row, since none carries the lease
            cases hstmt with
            | counting | leasing => exact absurd rfl hholds
            | restoring _ _ item' leaseID' =>
                exact Table.exec_eq_self fun r hr hguard => hfenced item' leaseID' rfl r hr hguard
            | completing _ _ item' leaseID' plaintext =>
                exact Table.exec_eq_self fun r hr hguard => hfenced item' leaseID' rfl r hr hguard
  · intro d i j hi hj
    obtain ⟨l, hheld, hholder⟩ := hi.fenced
    obtain ⟨m, hheld', hholder'⟩ := hj.fenced
    have hsame : l = m := Option.some.inj (hholder.symm.trans hholder')
    exact (fencing_inv h d).held_unique i j l hheld (hsame ▸ hheld')

/-- Call 1 is overtaken: thirty seconds and a microsecond after it took the lease
another reader takes it. -/
theorem lost_leases_harmless_sample :
    ∃ s, Reachable (step sampleService) (State.init 0) s ∧
      s.calls[1]? = some (.consume ['t'] [] (.decrypting sampleItem 1)) ∧ ¬Carries s 7 1 ∧
      ∀ t, Reachable (step sampleService) s t →
        ∃ phase', t.calls[1]? = some (.consume ['t'] [] phase') ∧ phase'.hasDelivered = false := by
  have hrun : (run (step sampleService) (State.init 0) (sampleLeasing ++
      [.tick 30000001, .spawn (.consume ['t'] []), .advance 2 (sampleAnswers none),
        .advance 2 (sampleAnswers (some 2))])).map
      (fun s => (s.calls[1]?, (s.table.find 7).map Row.consumingLeaseID)) =
      some (some (.consume ['t'] [] (.decrypting sampleItem 1)), some (some 2)) := by
    decide +kernel
  obtain ⟨s, hs, hread⟩ := Reachable.of_map hrun
  obtain ⟨hcall, hlease⟩ := Prod.mk.inj hread
  have hlost : ¬Carries s 7 1 := by
    rintro ⟨r, hr, hcarries⟩
    rw [hr, Option.map_some, hcarries] at hlease
    exact absurd hlease (by decide)
  refine ⟨s, hs, hcall, hlost, fun t k => ?_⟩
  obtain ⟨phase', hcall', hdelivered, _⟩ :=
    (lost_leases_harmless hs).1 1 _ _ _ sampleItem 1 hcall rfl hlost t k
  exact ⟨phase', hcall', hdelivered⟩

end lost

end SecureShare.Delivery
