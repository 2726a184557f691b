import SecureShare.Email.SettingsCalls

/-!
# Settings in every run

Settings that are enabled stay complete whatever the calls do. Between the two statements
of `SetEnabled` an update can be saved, which the second statement then undoes: it writes
back the whole row that it has read.
-/
namespace SecureShare.Email
open Go Library Library.Transition
open Library.Interleaving (System State Reply Action)
open Delivery (UUID)

variable {svc : SettingsService} {inputs : SettingsInputs} {row row' : SettingsRow}
  {call call' : SettingsCall} {actorUserID : UUID} {req : UpdateRequest}

/-- What an update that runs alone leaves at each moment of the row. -/
def AloneFrom (svc : SettingsService) (i : ℕ) (actorUserID : UUID) (req : UpdateRequest)
    (row : SettingsRow) (s : State SettingsRow SettingsCall) : Prop :=
  ∃ phase, s.calls[i]? = some (.update actorUserID req phase) ∧
    req.Progress svc actorUserID row.ciphertext phase ∧
    (phase.pending = true → s.store = row) ∧
    ∀ saved, phase = .answered saved → s.store = some saved

theorem AloneFrom.step {i : ℕ} {u v : State SettingsRow SettingsCall}
    {a : Action SettingsRequest SettingsInputs} (h : AloneFrom svc i actorUserID req row u)
    (honly : a.OnlyBy i) (hstep : svc.system.step u a = some v) :
    AloneFrom svc i actorUserID req row v := by
  obtain ⟨phase, hcall, hprogress, hpending, hanswered⟩ := h
  rcases System.step_cases hstep with ⟨request, rfl, rfl⟩ | ⟨j, x, k, σ, k', rfl, hk, hadvance, rfl⟩
  · refine ⟨phase, ?_, hprogress, hpending, hanswered⟩
    rw [List.getElem?_append_left (List.getElem?_eq_some_iff.mp hcall).choose]
    exact hcall
  · obtain rfl : j = i := honly
    cases hcall.symm.trans hk
    obtain ⟨phase', rfl, hprogress', hpending', hanswered'⟩ := hprogress.step
      (fun h => congrArg SettingsRow.ciphertext (hpending h)) (SettingsService.advance_step hadvance)
    refine ⟨phase', ?_, hprogress', ?_, hanswered'⟩
    · exact List.getElem?_set_self (List.getElem?_eq_some_iff.mp hcall).choose
    · intro h
      obtain ⟨hphase, hrow⟩ := hpending' h
      rw [hrow, hpending hphase]

/-- A call that has not been answered has left the row as it was, unless the answer of its
save was lost. -/
theorem store_of_unanswered (hstep : SettingsStep svc inputs row call row' call')
    (hcall' : ∀ saved, call'.phase ≠ .answered saved) :
    row' = row ∨ ∃ settings, call.phase = .saving settings ∧ inputs.reply = .lost ∧
      row' = some (normalized settings) := by
  cases hstep with
  | failed _ => exact .inl rfl
  | encrypting => exact .inl rfl
  | updating => exact .inl rfl
  | switching => exact .inl rfl
  | saved settings phase hphase _ hanswer =>
      rw [SettingsCall.phase_withPhase] at hcall'
      rcases hanswer with rfl | ⟨_, hlost⟩
      · exact absurd rfl (hcall' _)
      · exact .inr ⟨settings, hphase, hlost, rfl⟩

theorem complete_of_reachable {t : State SettingsRow SettingsCall}
    (hrow : ∀ stored ∈ row, svc.EnabledComplete stored)
    (h : Reachable svc.system.step ⟨row, []⟩ t) : ∀ stored ∈ t.store, svc.EnabledComplete stored := by
  apply (System.assertions_of_reachable (J := fun row => ∀ stored ∈ row, svc.EnabledComplete stored)
    (K := fun _ _ call => call.Checked svc) h hrow ?_ ?_ ?_).1
  · intro i k hk
    cases hk
  · intro i σ₀ request _ _ settings hsaving
    cases request <;> cases hsaving
  · intro x i σ₀ k σ' k' hJ hchecked hadvance
    obtain ⟨hrow', hchecked'⟩ := hchecked.step hJ (SettingsService.advance_step hadvance)
    exact ⟨hrow', hchecked', fun _ _ _ hother => hother⟩

/-- Settings that are enabled are complete in every run, a call that fails has left them
as they were unless only the answer of its save was lost, and an update that runs alone
saves what was requested. -/
theorem enabled_settings_complete {t : State SettingsRow SettingsCall}
    (hrow : ∀ stored ∈ row, svc.EnabledComplete stored)
    (h : Reachable svc.system.step ⟨row, []⟩ t) :
    (∀ stored ∈ t.store, stored.enabled = true →
      validateStored svc.lib svc.appEnv stored true = none) ∧
    (∀ (i : ℕ) call inputs row' call', t.calls[i]? = some call →
      svc.advance inputs t.store call = some (row', call') →
      (∀ saved, call'.phase ≠ .answered saved) →
      row' = t.store ∨ ∃ settings, call.phase = .saving settings ∧ inputs.reply = .lost ∧
        row' = some (normalized settings)) ∧
    ∀ (i : ℕ) actorUserID req as u saved,
      t.calls[i]? = some (.update actorUserID req .reading) →
      run svc.system.step t as = some u → (∀ a ∈ as, a.OnlyBy i) →
      u.calls[i]? = some (.update actorUserID req (.answered saved)) →
      u.store = some saved ∧ saved.toSettings = req.next svc.lib.toLower actorUserID ∧
        req.SetsPassword svc.deps t.store.ciphertext saved.smtpPasswordCiphertext := by
  refine ⟨complete_of_reachable hrow h, ?_, ?_⟩
  · intro i call inputs row' call' _ hadvance hcall'
    exact store_of_unanswered (SettingsService.advance_step hadvance) hcall'
  · intro i actorUserID req as u saved hcall hrun honly hu
    have hevery : EveryStep svc.system.step t as fun _ a => a.OnlyBy i := by
      intro pre a v hpre _
      exact honly a (hpre.subset (by simp))
    have hstart : AloneFrom svc i actorUserID req t.store t :=
      ⟨.reading, hcall, trivial, fun _ => rfl, by simp⟩
    have halways := hevery.always hstart fun _ _ _ hu honly hv => hu.step honly hv
    obtain ⟨phase, hphase, hprogress, _, hanswered⟩ := halways as u (List.prefix_refl _) hrun
    cases hphase.symm.trans hu
    exact ⟨hanswered saved rfl, hprogress.fields, hprogress.password⟩

/-- What `SetEnabled` does not decide of settings. -/
def StoredSettings.configuration (settings : StoredSettings) : StoredSettings :=
  { settings with enabled := false, updatedBy := none }

/-- Any number of calls of `SetEnabled` beside the calls of the first state. -/
def SettingsService.switchSystem (svc : SettingsService) :
    System SettingsRow SettingsCall (UUID × Bool) SettingsInputs where
  start request := .setEnabled request.1 request.2 .reading
  advance inputs row call := svc.advance inputs row call

/-- When the update has been answered it has set what was requested, and the row holds it
but for what `SetEnabled` decides. -/
def UpdateKept (svc : SettingsService) (actorUserID : UUID) (req : UpdateRequest) (previous : Text)
    (s : State SettingsRow SettingsCall) : Prop :=
  ∀ saved, s.calls[0]? = some (.update actorUserID req (.answered saved)) →
    req.Sets svc actorUserID previous saved ∧
      ∃ stored, s.store = some stored ∧ stored.configuration = saved.configuration

/-- What is saved by another call after the update has been answered is so in the row, but
for what `SetEnabled` decides. -/
def SavesCurrent (actorUserID : UUID) (req : UpdateRequest) (s : State SettingsRow SettingsCall)
    (a : Action (UUID × Bool) SettingsInputs) : Prop :=
  ∀ i inputs call settings saved, a = .advance i inputs → s.calls[i]? = some call →
    call.phase = .saving settings → inputs.reply ≠ .failed →
    s.calls[0]? = some (.update actorUserID req (.answered saved)) →
    ∀ stored ∈ s.store, (normalized settings).configuration = stored.configuration

def SettingsCall.isSetEnabled : SettingsCall → Bool
  | .update .. => false
  | .setEnabled .. => true

/-- What the call saves holds the ciphertext. -/
def SettingsCall.Carries (ciphertext : Text) (call : SettingsCall) : Prop :=
  ∀ settings, call.phase = .saving settings → settings.smtpPasswordCiphertext = ciphertext

theorem SettingsStep.isSetEnabled (h : SettingsStep svc inputs row call row' call') :
    call'.isSetEnabled = call.isSetEnabled := by
  cases h with
  | failed | saved => cases call <;> rfl
  | encrypting _ _ _ heq | updating _ _ _ _ heq | switching _ _ _ heq =>
      rw [heq]
      rfl

/-- `SetEnabled` writes the ciphertext back that it has read. -/
theorem SettingsStep.carries {ciphertext : Text} (h : SettingsStep svc inputs row call row' call')
    (hswitch : call.isSetEnabled = true) (hrow : row.ciphertext = ciphertext)
    (hcall : call.Carries ciphertext) :
    row'.ciphertext = ciphertext ∧ call'.Carries ciphertext := by
  cases h with
  | failed _ => exact ⟨hrow, fun _ hphase => by simp at hphase⟩
  | encrypting _ _ _ heq =>
      rw [heq] at hswitch
      cases hswitch
  | updating _ _ _ _ heq =>
      rw [heq] at hswitch
      cases hswitch
  | switching _ _ current _ hcurrent =>
      refine ⟨hrow, fun settings hphase => ?_⟩
      cases hphase
      rw [← hrow, hcurrent]
      rfl
  | saved settings phase hphase _ hanswer =>
      refine ⟨hcall settings hphase, fun next hnext => ?_⟩
      rw [SettingsCall.phase_withPhase] at hnext
      rcases hanswer with rfl | ⟨rfl, _⟩ <;> cases hnext

/-- An update among calls of `SetEnabled`: until it has come to its end, the row and what
the others save hold the ciphertext of the start. -/
structure UpdateAmong (svc : SettingsService) (actorUserID : UUID) (req : UpdateRequest)
    (previous : Text) (phase : SettingsPhase) (s : State SettingsRow SettingsCall) : Prop where
  call : s.calls[0]? = some (.update actorUserID req phase)
  progress : req.Progress svc actorUserID previous phase
  row : phase.pending = true → s.store.ciphertext = previous
  others : ∀ (i : ℕ) call, i ≠ 0 → s.calls[i]? = some call → call.isSetEnabled = true ∧
    (phase.pending = true → call.Carries previous)

theorem UpdateAmong.step {previous : Text} {phase : SettingsPhase}
    {u v : State SettingsRow SettingsCall} {a : Action (UUID × Bool) SettingsInputs}
    (h : UpdateAmong svc actorUserID req previous phase u)
    (hstep : svc.switchSystem.step u a = some v) :
    ∃ phase', UpdateAmong svc actorUserID req previous phase' v := by
  have hlength : 0 < u.calls.length := (List.getElem?_eq_some_iff.mp h.call).choose
  rcases System.step_cases hstep with ⟨request, rfl, rfl⟩ | ⟨i, x, k, σ, k', rfl, hk, hadvance, rfl⟩
  · refine ⟨phase, ?_, h.progress, h.row, ?_⟩
    · rw [List.getElem?_append_left hlength]
      exact h.call
    · intro j call hj hcall
      rw [List.getElem?_append] at hcall
      split_ifs at hcall
      · exact h.others j call hj hcall
      · obtain rfl := List.mem_singleton.mp (List.mem_of_getElem? hcall)
        exact ⟨rfl, fun _ _ hphase => by cases hphase⟩
  · have hmove := SettingsService.advance_step hadvance
    by_cases hi : i = 0
    · subst hi
      cases h.call.symm.trans hk
      obtain ⟨phase', rfl, hprogress, hpending, _⟩ := h.progress.step h.row hmove
      refine ⟨phase', List.getElem?_set_self hlength, hprogress, ?_, ?_⟩
      · intro h'
        obtain ⟨hphase, hrow⟩ := hpending h'
        rw [hrow]
        exact h.row hphase
      · intro j call hj hcall
        rw [List.getElem?_set_ne (Ne.symm hj)] at hcall
        exact (h.others j call hj hcall).imp_right fun hcarries h' => hcarries (hpending h').1
    · obtain ⟨hswitch, hcarries⟩ := h.others i k hi hk
      refine ⟨phase, ?_, h.progress, ?_, ?_⟩
      · rw [List.getElem?_set_ne hi]
        exact h.call
      · intro hphase
        exact (hmove.carries hswitch (h.row hphase) (hcarries hphase)).1
      · intro j call hj hcall
        rw [List.getElem?_set] at hcall
        split_ifs at hcall with hij
        · cases hcall
          refine ⟨hmove.isSetEnabled.trans hswitch, fun hphase => ?_⟩
          exact (hmove.carries hswitch (h.row hphase) (hcarries hphase)).2
        · exact h.others j call hj hcall

/-- A step keeps what was set exactly if it saves what is so. -/
theorem updateKept_step {previous : Text} {phase : SettingsPhase}
    {u v : State SettingsRow SettingsCall} {a : Action (UUID × Bool) SettingsInputs}
    (h : UpdateAmong svc actorUserID req previous phase u)
    (hkept : UpdateKept svc actorUserID req previous u)
    (hstep : svc.switchSystem.step u a = some v) :
    UpdateKept svc actorUserID req previous v ↔ SavesCurrent actorUserID req u a := by
  have hlength : 0 < u.calls.length := (List.getElem?_eq_some_iff.mp h.call).choose
  rcases System.step_cases hstep with ⟨request, rfl, rfl⟩ | ⟨i, x, k, σ, k', rfl, hk, hadvance, rfl⟩
  · constructor
    · rintro _ i inputs call settings saved ⟨⟩
    · intro _ saved hsaved
      rw [List.getElem?_append_left hlength] at hsaved
      exact hkept saved hsaved
  · have hmove := SettingsService.advance_step hadvance
    by_cases hi : i = 0
    · subst hi
      cases h.call.symm.trans hk
      obtain ⟨phase', rfl, hprogress, hpending, hanswered⟩ := h.progress.step h.row hmove
      constructor
      · intro _ i inputs call settings saved haction hcall hphase _ hsaved
        cases haction
        cases hsaved.symm.trans hcall
        cases hphase
      · intro _ saved hsaved
        rw [List.getElem?_set_self hlength] at hsaved
        cases hsaved
        exact ⟨hprogress, saved, hanswered saved rfl, rfl⟩
    · have hfirst : (u.calls.set i k')[0]? = u.calls[0]? := List.getElem?_set_ne hi
      rcases hmove.store_cases with ⟨hunsaved, rfl⟩ | ⟨settings, hphase, hreply, rfl⟩
      · constructor
        · intro _ i inputs call settings saved haction hcall hphase hreply
          cases haction
          cases hk.symm.trans hcall
          exact absurd (hunsaved settings hphase) hreply
        · intro _ saved hsaved
          exact hkept saved (hfirst ▸ hsaved)
      · constructor
        · intro hkept' j inputs call next saved haction hcall hnext _ hsaved stored hstored
          cases haction
          cases hk.symm.trans hcall
          cases hphase.symm.trans hnext
          obtain ⟨_, _, hnew, hsame'⟩ := hkept' saved (hfirst.trans hsaved)
          obtain ⟨_, _, hold, hsame⟩ := hkept saved hsaved
          cases hnew
          cases hold.symm.trans hstored
          rw [hsame', hsame]
        · intro hcurrent saved hsaved
          obtain ⟨hsets, stored, hstored, hsame⟩ := hkept saved (hfirst ▸ hsaved)
          refine ⟨hsets, _, rfl, ?_⟩
          rw [← hsame]
          exact hcurrent i x k settings saved rfl hk hphase hreply (hfirst ▸ hsaved) stored hstored

/-- An update is kept throughout a run exactly if no `SetEnabled` saves something else
than what is so when the update has been answered. -/
theorem update_kept_iff {as : List (Action (UUID × Bool) SettingsInputs)}
    {t : State SettingsRow SettingsCall}
    (h : run svc.switchSystem.step ⟨row, [.update actorUserID req .reading]⟩ as = some t) :
    Always svc.switchSystem.step ⟨row, [.update actorUserID req .reading]⟩ as
        (UpdateKept svc actorUserID req row.ciphertext) ↔
      EveryStep svc.switchSystem.step ⟨row, [.update actorUserID req .reading]⟩ as
        (SavesCurrent actorUserID req) := by
  have hstart : UpdateAmong svc actorUserID req row.ciphertext .reading
      ⟨row, [.update actorUserID req .reading]⟩ := by
    refine ⟨rfl, trivial, fun _ => rfl, fun i call hi hcall => ?_⟩
    rw [List.getElem?_singleton, if_neg hi] at hcall
    cases hcall
  apply always_iff_everyStep_of_invariant
    (I := fun s => ∃ phase, UpdateAmong svc actorUserID req row.ciphertext phase s) ⟨_, hstart⟩ _ _ _ h
  · intro saved hsaved
    cases hsaved
  · rintro u a v ⟨phase, hu⟩ hv
    exact hu.step hv
  · rintro u a v ⟨phase, hu⟩ hkept hv
    exact updateKept_step hu hkept hv

/-- The libraries on ASCII names and addresses. -/
def sampleSettingsService : SettingsService where
  lib := ⟨toLower, fun s t => toLower s = toLower t, fun _ => false, some⟩
  appEnv := "production".toList
  deps := Delivery.sampleDependencies

def sampleUpdate : UpdateRequest where
  enabled := true
  smtpHost := "new.example.com".toList
  smtpPort := 587
  encryptionMode := []
  smtpUsername := "mailer".toList
  smtpPassword := "p".toList
  clearSMTPPassword := false
  fromName := []
  fromEmail := "a@example.com".toList
  replyToEmail := []
  connectionTimeoutSeconds := 0
  sendTimeoutSeconds := 0
  defaultSubject := "s".toList
  defaultMessage := "m".toList
  footerText := []

def sampleStored : StoredSettings where
  toSettings := { sampleUpdate.next toLower 7 with smtpHost := "old.example.com".toList }
  smtpPasswordCiphertext := "vold".toList

/-- What is answered with a nonce. -/
def answeredSettings : SettingsInputs := ⟨.answered, some 0⟩

/-- The password is encrypted between the statements of the update. -/
theorem enabled_settings_complete_sample : ∃ u,
    run sampleSettingsService.system.step
      ⟨some sampleStored, [.update 7 sampleUpdate .reading]⟩
      (List.replicate 3 (.advance 0 answeredSettings)) = some u ∧
    u.store = some ⟨sampleUpdate.next toLower 7, "vp".toList⟩ := by
  have hcomplete : ∀ stored ∈ some sampleStored, sampleSettingsService.EnabledComplete stored := by
    rintro _ ⟨⟩ _
    decide +kernel
  have hreach : Reachable sampleSettingsService.system.step ⟨some sampleStored, []⟩
      ⟨some sampleStored, [.update 7 sampleUpdate .reading]⟩ :=
    .of_step (a := .spawn (.update 7 sampleUpdate)) rfl
  have hrun : (run sampleSettingsService.system.step
      ⟨some sampleStored, [.update 7 sampleUpdate .reading]⟩
      (List.replicate 3 (.advance 0 answeredSettings))).map (fun u => u.calls) =
        some [.update 7 sampleUpdate
          (.answered ⟨sampleUpdate.next toLower 7, "vp".toList⟩)] := by
    decide +kernel
  obtain ⟨u, hu, hcalls⟩ := Option.map_eq_some_iff.mp hrun
  have honly : ∀ a ∈ List.replicate 3 (Action.advance (ρ := SettingsRequest) 0 answeredSettings),
      a.OnlyBy 0 := by
    intro a ha
    obtain rfl := List.eq_of_mem_replicate ha
    rfl
  have hanswered := (enabled_settings_complete hcomplete hreach).2.2 0 7 sampleUpdate _ u _ rfl hu honly
    (by rw [hcalls]; rfl)
  exact ⟨u, hu, hanswered.1⟩

/-- Settings that are enabled and incomplete from the start stay so, and a save takes
effect although its answer is lost. -/
theorem enabled_settings_incomplete :
    (∃ t, Reachable sampleSettingsService.system.step
        ⟨some { sampleStored with smtpHost := [] }, []⟩ t ∧
      ∃ stored ∈ t.store, stored.enabled = true ∧
        validateStored sampleSettingsService.lib sampleSettingsService.appEnv stored true ≠ none) ∧
    ∃ t u, Reachable sampleSettingsService.system.step ⟨none, []⟩ t ∧
      sampleSettingsService.system.step t (.advance 0 ⟨.lost, none⟩) = some u ∧
      u.calls = [.update 7 sampleUpdate .failed] ∧ t.store = none ∧
      u.store = some ⟨sampleUpdate.next toLower 7, "vp".toList⟩ := by
  constructor
  · exact ⟨_, .refl _, _, rfl, rfl, by decide +kernel⟩
  · have hrun : (run sampleSettingsService.system.step ⟨none, []⟩
        [.spawn (.update 7 sampleUpdate), .advance 0 answeredSettings,
          .advance 0 answeredSettings]).map (fun t => (t.calls, t.store)) =
          some ([.update 7 sampleUpdate (.saving ⟨sampleUpdate.next toLower 7, "vp".toList⟩)],
            none) := by
      decide +kernel
    obtain ⟨t, hreach, hend⟩ := Reachable.of_map hrun
    obtain ⟨hcalls, hstore⟩ := Prod.mk.inj hend
    have hsame : normalized ⟨sampleUpdate.next toLower 7, "vp".toList⟩ =
        ⟨sampleUpdate.next toLower 7, "vp".toList⟩ := by
      decide +kernel
    refine ⟨t, _, hreach, System.step_advance (by rw [hcalls]; rfl) rfl, ?_, hstore, ?_⟩
    · rw [hcalls]
      rfl
    · exact congrArg some hsame

/-- The update removes the password, between the two statements of a `SetEnabled`. -/
def sampleClear : UpdateRequest :=
  { sampleUpdate with smtpUsername := [], smtpPassword := [], clearSMTPPassword := true }

def sampleSwitch : List (Action (UUID × Bool) SettingsInputs) :=
  [.spawn (8, false), .advance 1 answeredSettings, .advance 0 answeredSettings,
    .advance 0 answeredSettings, .advance 1 answeredSettings]

theorem sampleSwitch_outcome : (run sampleSettingsService.switchSystem.step
    ⟨some sampleStored, [.update 7 sampleClear .reading]⟩ sampleSwitch).map
      (fun t => (t.calls, t.store)) =
    some ([.update 7 sampleClear (.answered ⟨sampleClear.next toLower 7, []⟩),
      .setEnabled 8 false (.answered (switched sampleStored 8 false))],
      some (switched sampleStored 8 false)) := by
  decide +kernel

theorem sampleSwitch_not_kept {t : State SettingsRow SettingsCall}
    (h : (t.calls, t.store) =
      ([.update 7 sampleClear (.answered ⟨sampleClear.next toLower 7, []⟩),
        .setEnabled 8 false (.answered (switched sampleStored 8 false))],
        some (switched sampleStored 8 false))) :
    ¬UpdateKept sampleSettingsService 7 sampleClear sampleStored.smtpPasswordCiphertext t := by
  obtain ⟨hcalls, hstore⟩ := Prod.mk.inj h
  intro hkept
  obtain ⟨_, stored, hstored, hsame⟩ := hkept _ (by rw [hcalls]; rfl)
  cases hstore.symm.trans hstored
  exact absurd hsame (by decide +kernel)

/-- The old host and the removed password are stored again. -/
theorem update_undone :
    ∃ t, run sampleSettingsService.switchSystem.step
      ⟨some sampleStored, [.update 7 sampleClear .reading]⟩ sampleSwitch = some t ∧
    t.calls = [.update 7 sampleClear (.answered ⟨sampleClear.next toLower 7, []⟩),
      .setEnabled 8 false (.answered (switched sampleStored 8 false))] ∧
    t.store = some (switched sampleStored 8 false) ∧
    ¬UpdateKept sampleSettingsService 7 sampleClear sampleStored.smtpPasswordCiphertext t := by
  obtain ⟨t, ht, hend⟩ := Option.map_eq_some_iff.mp sampleSwitch_outcome
  obtain ⟨hcalls, hstore⟩ := Prod.mk.inj hend
  exact ⟨t, ht, hcalls, hstore, sampleSwitch_not_kept hend⟩

/-- So a step of that run has saved what was not so. -/
theorem update_kept_iff_sample :
    ¬EveryStep sampleSettingsService.switchSystem.step
      ⟨some sampleStored, [.update 7 sampleClear .reading]⟩ sampleSwitch
      (SavesCurrent 7 sampleClear) := by
  obtain ⟨t, ht, hend⟩ := Option.map_eq_some_iff.mp sampleSwitch_outcome
  rw [← update_kept_iff ht]
  intro hall
  exact sampleSwitch_not_kept hend (hall _ t (List.prefix_refl _) ht)

end SecureShare.Email
