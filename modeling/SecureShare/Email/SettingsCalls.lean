import SecureShare.Email.Validation
import SecureShare.Delivery.Create
import SecureShare.Library.Interleaving

/-!
# Updates of the email settings

`Update` and `SetEnabled` read the row, decide, and save all of it, so other calls run
between the two. What is saved has been validated unless it is disabled, so settings that
are enabled are complete in every run.
-/
namespace SecureShare.Email
open Go Library Library.Transition
open Library.Interleaving (System State Reply Action)
open Delivery (UUID Dependencies)

/-- The libraries of the service, `APP_ENV`, and Vault. -/
structure SettingsService where
  lib : Libraries
  appEnv : Text
  deps : Dependencies

/-- No row is `ErrNotConfigured`. -/
abbrev SettingsRow := Option StoredSettings

/-- What a step obtains from outside: the answer of the database, and the nonce of Vault
if it answers. -/
structure SettingsInputs where
  reply : Reply
  nonce : Option ℕ
  deriving DecidableEq, Repr

/-- A call before its next statement or request to Vault. -/
inductive SettingsPhase where
  | reading
  | encrypting (current : StoredSettings)
  | saving (next : StoredSettings)
  | answered (saved : StoredSettings)
  | failed
  deriving DecidableEq, Repr

inductive SettingsCall where
  | update (actorUserID : UUID) (req : UpdateRequest) (phase : SettingsPhase)
  | setEnabled (actorUserID : UUID) (enabled : Bool) (phase : SettingsPhase)
  deriving DecidableEq, Repr

inductive SettingsRequest where
  | update (actorUserID : UUID) (req : UpdateRequest)
  | setEnabled (actorUserID : UUID) (enabled : Bool)
  deriving DecidableEq, Repr

def SettingsRequest.call : SettingsRequest → SettingsCall
  | .update actorUserID req => .update actorUserID req .reading
  | .setEnabled actorUserID enabled => .setEnabled actorUserID enabled .reading

def SettingsCall.phase : SettingsCall → SettingsPhase
  | .update _ _ phase | .setEnabled _ _ phase => phase

/-- `SaveSettings` -/
def saveSettings (settings : StoredSettings) : SettingsRow × StoredSettings :=
  let saved := { settings with toSettings := normalizeSettings settings.toSettings }
  (some saved, saved)

/-- The settings that `SetEnabled` saves. -/
def switched (current : StoredSettings) (actorUserID : UUID) (enabled : Bool) : StoredSettings :=
  { current with
    enabled := enabled
    updatedBy := if actorUserID = 0 then none else some actorUserID }

namespace SettingsService
variable (svc : SettingsService) (inputs : SettingsInputs) (row : SettingsRow)

/-- `GetSettings` -/
def getSettings : Option SettingsRow := (inputs.reply.apply row (some (row, row))).2

/-- The call saves the settings if they pass. -/
def validated (settings : StoredSettings) (requireComplete : Bool) : SettingsPhase :=
  if validateStored svc.lib svc.appEnv settings requireComplete = none then .saving settings
  else .failed

/-- `SaveSettings` as a statement. -/
def save (settings : StoredSettings) : SettingsRow × SettingsPhase :=
  let r := inputs.reply.apply row (some (saveSettings settings))
  (r.1, match r.2 with
    | none => .failed
    | some saved => .answered saved)

/-- One step of `Update`. -/
def update (actorUserID : UUID) (req : UpdateRequest) :
    SettingsPhase → Option (SettingsRow × SettingsPhase)
  | .reading =>
    some (row, match getSettings inputs row with
      | none => .failed
      | some stored =>
        let current := stored.getD defaultStoredSettings
        let next := req.next svc.lib.toLower actorUserID
        if req.clearSMTPPassword then svc.validated ⟨next, []⟩ next.enabled
        else if req.smtpPassword ≠ [] then .encrypting current
        else svc.validated ⟨next, current.smtpPasswordCiphertext⟩ next.enabled)
  | .encrypting _ =>
    some (row, match svc.deps.vaultEncrypt inputs.nonce req.smtpPassword with
      | none => .failed
      | some ciphertext =>
        let next := req.next svc.lib.toLower actorUserID
        svc.validated ⟨next, ciphertext⟩ next.enabled)
  | .saving settings => some (save inputs row settings)
  | .answered _ | .failed => none

/-- One step of `SetEnabled`. -/
def setEnabled (actorUserID : UUID) (enabled : Bool) :
    SettingsPhase → Option (SettingsRow × SettingsPhase)
  | .reading =>
    some (row, match getSettings inputs row with
      | none | some none => .failed
      | some (some current) =>
        let current := switched current actorUserID enabled
        if enabled then svc.validated current true else .saving current)
  | .saving settings => some (save inputs row settings)
  | .encrypting _ | .answered _ | .failed => none

/-- One step of a call. -/
def advance : SettingsCall → Option (SettingsRow × SettingsCall)
  | .update actorUserID req phase =>
    (svc.update inputs row actorUserID req phase).map fun r => (r.1, .update actorUserID req r.2)
  | .setEnabled actorUserID enabled phase =>
    (svc.setEnabled inputs row actorUserID enabled phase).map fun r =>
      (r.1, .setEnabled actorUserID enabled r.2)

/-- Any number of calls of `Update` and `SetEnabled`. -/
def system : System SettingsRow SettingsCall SettingsRequest SettingsInputs where
  start := SettingsRequest.call
  advance inputs row call := svc.advance inputs row call

/-- Settings that are enabled are complete. -/
def EnabledComplete (stored : StoredSettings) : Prop :=
  stored.enabled = true → validateStored svc.lib svc.appEnv stored true = none

end SettingsService

variable {svc : SettingsService} {inputs : SettingsInputs} {row row' : SettingsRow}
  {call call' : SettingsCall} {settings : StoredSettings} {requireComplete : Bool}

/-- What is saved of settings. -/
def normalized (settings : StoredSettings) : StoredSettings :=
  { settings with toSettings := normalizeSettings settings.toSettings }

namespace SettingsService

theorem validated_cases (svc : SettingsService) (settings : StoredSettings) (requireComplete : Bool) :
    svc.validated settings requireComplete = .failed ∨
      validateStored svc.lib svc.appEnv settings requireComplete = none ∧
        svc.validated settings requireComplete = .saving settings := by
  unfold validated
  split_ifs with h
  · exact .inr ⟨h, rfl⟩
  · exact .inl rfl

/-- Settings that have been validated if they are enabled stay complete when they are
normalised. -/
theorem enabledComplete_normalized
    (h : settings.enabled = true → validateStored svc.lib svc.appEnv settings true = none) :
    svc.EnabledComplete (normalized settings) := by
  intro henabled
  have hvalid := h henabled
  have hsame : normalized settings = settings := by
    rw [normalized, normalizeSettings_of_validated hvalid]
  rwa [hsame]

end SettingsService

/-- What a request makes of the ciphertext of the password. -/
structure UpdateRequest.SetsPassword (req : UpdateRequest) (deps : Dependencies)
    (previous ciphertext : Text) : Prop where
  cleared : req.clearSMTPPassword = true → ciphertext = []
  updated : req.clearSMTPPassword = false → req.smtpPassword ≠ [] →
    ciphertext ≠ [] ∧ ∃ nonce, ciphertext = deps.encrypt nonce req.smtpPassword
  kept : req.clearSMTPPassword = false → req.smtpPassword = [] → ciphertext = previous

/-- The ciphertext that the row holds. -/
def SettingsRow.ciphertext (row : SettingsRow) : Text :=
  (row.getD defaultStoredSettings).smtpPasswordCiphertext

def SettingsCall.withPhase (phase : SettingsPhase) : SettingsCall → SettingsCall
  | .update actorUserID req _ => .update actorUserID req phase
  | .setEnabled actorUserID enabled _ => .setEnabled actorUserID enabled phase

@[simp] theorem SettingsCall.phase_withPhase (call : SettingsCall) (phase : SettingsPhase) :
    (call.withPhase phase).phase = phase := by
  cases call <;> rfl

/-- What one step of a call does. -/
inductive SettingsStep (svc : SettingsService) (inputs : SettingsInputs) (row : SettingsRow)
    (call : SettingsCall) : SettingsRow → SettingsCall → Prop
  | failed : (∀ settings, call.phase = .saving settings → inputs.reply = .failed) →
      SettingsStep svc inputs row call row (call.withPhase .failed)
  | encrypting (actorUserID : UUID) (req : UpdateRequest) (current : StoredSettings) :
      call = .update actorUserID req .reading → req.clearSMTPPassword = false →
      req.smtpPassword ≠ [] →
      SettingsStep svc inputs row call row (.update actorUserID req (.encrypting current))
  | updating (actorUserID : UUID) (req : UpdateRequest) (phase : SettingsPhase)
      (settings : StoredSettings) :
      call = .update actorUserID req phase →
      settings.toSettings = req.next svc.lib.toLower actorUserID →
      validateStored svc.lib svc.appEnv settings settings.enabled = none →
      (phase = .reading ∧
          req.SetsPassword svc.deps row.ciphertext settings.smtpPasswordCiphertext ∨
        ∃ current nonce, phase = .encrypting current ∧ settings.smtpPasswordCiphertext ≠ [] ∧
          settings.smtpPasswordCiphertext = svc.deps.encrypt nonce req.smtpPassword) →
      SettingsStep svc inputs row call row (.update actorUserID req (.saving settings))
  | switching (actorUserID : UUID) (enabled : Bool) (current : StoredSettings) :
      call = .setEnabled actorUserID enabled .reading → row = some current →
      (enabled = true → validateStored svc.lib svc.appEnv (switched current actorUserID enabled)
        true = none) →
      SettingsStep svc inputs row call row
        (.setEnabled actorUserID enabled (.saving (switched current actorUserID enabled)))
  | saved (settings : StoredSettings) (phase : SettingsPhase) :
      call.phase = .saving settings → inputs.reply ≠ .failed →
      (phase = .answered (normalized settings) ∨ phase = .failed ∧ inputs.reply = .lost) →
      SettingsStep svc inputs row call (some (normalized settings)) (call.withPhase phase)

namespace SettingsService

/-- The answer of `GetSettings` is the row. -/
theorem getSettings_cases (inputs : SettingsInputs) (row : SettingsRow) :
    getSettings inputs row = none ∨ getSettings inputs row = some row := by
  unfold getSettings
  cases inputs.reply with
  | answered => exact .inr rfl
  | failed => exact .inl rfl
  | lost => exact .inl rfl

theorem save_step (hphase : call.phase = .saving settings) :
    SettingsStep svc inputs row call (save inputs row settings).1
      (call.withPhase (save inputs row settings).2) := by
  unfold save
  cases hreply : inputs.reply with
  | answered => exact .saved settings _ hphase (by simp [hreply]) (.inl rfl)
  | failed => exact .failed fun _ _ => hreply
  | lost => exact .saved settings _ hphase (by simp [hreply]) (.inr ⟨rfl, hreply⟩)

/-- Settings of an update that are saved if they pass. -/
theorem validated_step {actorUserID : UUID} {req : UpdateRequest} {phase : SettingsPhase}
    (hnext : settings.toSettings = req.next svc.lib.toLower actorUserID)
    (hpassword : phase = .reading ∧
        req.SetsPassword svc.deps row.ciphertext settings.smtpPasswordCiphertext ∨
      ∃ current nonce, phase = .encrypting current ∧ settings.smtpPasswordCiphertext ≠ [] ∧
        settings.smtpPasswordCiphertext = svc.deps.encrypt nonce req.smtpPassword) :
    SettingsStep svc inputs row (.update actorUserID req phase) row
      (.update actorUserID req (svc.validated settings settings.enabled)) := by
  rcases svc.validated_cases settings settings.enabled with h | ⟨hvalid, h⟩
  · have hphase : ∀ next, phase ≠ .saving next := by
      rintro next rfl
      simp at hpassword
    rw [h]
    exact .failed fun next hnext => absurd hnext (hphase next)
  · rw [h]
    exact .updating actorUserID req phase settings rfl hnext hvalid hpassword

theorem update_step {actorUserID : UUID} {req : UpdateRequest} {phase phase' : SettingsPhase}
    (h : svc.update inputs row actorUserID req phase = some (row', phase')) :
    SettingsStep svc inputs row (.update actorUserID req phase) row'
      (.update actorUserID req phase') := by
  cases phase with
  | reading =>
      cases h
      rcases getSettings_cases inputs row with hread | hread
      · rw [hread]
        exact .failed fun _ h => by cases h
      · rw [hread]
        dsimp only
        split_ifs with hclear hpassword
        · exact validated_step rfl (.inl ⟨rfl, ⟨fun _ => rfl, by simp [hclear], by simp [hclear]⟩⟩)
        · exact .encrypting actorUserID req _ rfl (by simpa using hclear) hpassword
        · refine validated_step rfl (.inl ⟨rfl, ⟨fun h => absurd h hclear, ?_, fun _ _ => rfl⟩⟩)
          intro _ hne
          exact absurd hne hpassword
  | encrypting current =>
      cases h
      cases hencrypt : svc.deps.vaultEncrypt inputs.nonce req.smtpPassword with
      | none => exact .failed fun _ h => by cases h
      | some ciphertext =>
          obtain ⟨nonce, _, hciphertext, hne⟩ := Delivery.vaultEncrypt_eq_some.mp hencrypt
          exact validated_step rfl (.inr ⟨current, nonce, rfl, hne, hciphertext⟩)
  | saving settings =>
      cases h
      exact save_step rfl
  | answered saved => cases h
  | failed => cases h

theorem setEnabled_step {actorUserID : UUID} {enabled : Bool} {phase phase' : SettingsPhase}
    (h : svc.setEnabled inputs row actorUserID enabled phase = some (row', phase')) :
    SettingsStep svc inputs row (.setEnabled actorUserID enabled phase) row'
      (.setEnabled actorUserID enabled phase') := by
  cases phase with
  | reading =>
      cases h
      rcases getSettings_cases inputs row with hread | hread
      · rw [hread]
        exact .failed fun _ h => by cases h
      · rw [hread]
        cases row with
        | none => exact .failed fun _ h => by cases h
        | some current =>
            dsimp only
            split_ifs with henabled
            · rcases svc.validated_cases (switched current actorUserID enabled) true with
                h | ⟨hvalid, h⟩
              · rw [h]
                exact .failed fun _ h => by cases h
              · rw [h]
                exact .switching actorUserID enabled current rfl rfl fun _ => hvalid
            · exact .switching actorUserID enabled current rfl rfl fun h => absurd h henabled
  | encrypting current => cases h
  | saving settings =>
      cases h
      exact save_step rfl
  | answered saved => cases h
  | failed => cases h

theorem advance_step (h : svc.advance inputs row call = some (row', call')) :
    SettingsStep svc inputs row call row' call' := by
  cases call with
  | update actorUserID req phase =>
      obtain ⟨⟨r, phase'⟩, hupdate, heq⟩ := Option.map_eq_some_iff.mp h
      cases heq
      exact update_step hupdate
  | setEnabled actorUserID enabled phase =>
      obtain ⟨⟨r, phase'⟩, hset, heq⟩ := Option.map_eq_some_iff.mp h
      cases heq
      exact setEnabled_step hset

end SettingsService

/-- A row is written by a save only. -/
theorem SettingsStep.store_cases (h : SettingsStep svc inputs row call row' call') :
    (∀ settings, call.phase = .saving settings → inputs.reply = .failed) ∧ row' = row ∨
    ∃ settings, call.phase = .saving settings ∧ inputs.reply ≠ .failed ∧
      row' = some (normalized settings) := by
  cases h with
  | failed hreply => exact .inl ⟨hreply, rfl⟩
  | encrypting _ _ _ heq =>
      rw [heq]
      exact .inl ⟨fun _ h => (by cases h), rfl⟩
  | updating _ _ phase _ heq _ _ hpassword =>
      rw [heq]
      rcases hpassword with ⟨rfl, _⟩ | ⟨_, _, rfl, _⟩
      · exact .inl ⟨fun _ h => (by cases h), rfl⟩
      · exact .inl ⟨fun _ h => (by cases h), rfl⟩
  | switching _ _ _ heq =>
      rw [heq]
      exact .inl ⟨fun _ h => (by cases h), rfl⟩
  | saved settings _ hphase hreply _ => exact .inr ⟨settings, hphase, hreply, rfl⟩

/-- A call that is about to save settings that are enabled has found them complete. -/
def SettingsCall.Checked (svc : SettingsService) (call : SettingsCall) : Prop :=
  ∀ settings, call.phase = .saving settings → settings.enabled = true →
    validateStored svc.lib svc.appEnv settings true = none

theorem SettingsCall.Checked.step (hcall : call.Checked svc)
    (hrow : ∀ stored ∈ row, svc.EnabledComplete stored)
    (hstep : SettingsStep svc inputs row call row' call') :
    (∀ stored ∈ row', svc.EnabledComplete stored) ∧ call'.Checked svc := by
  cases hstep with
  | failed _ => exact ⟨hrow, fun settings h => by simp at h⟩
  | encrypting => exact ⟨hrow, fun settings h => by cases h⟩
  | updating _ _ _ settings _ _ hvalid _ =>
      refine ⟨hrow, fun next h henabled => ?_⟩
      cases h
      rwa [henabled] at hvalid
  | switching _ _ _ _ _ hvalid =>
      refine ⟨hrow, fun next h henabled => ?_⟩
      cases h
      exact hvalid henabled
  | saved settings phase hphase _ hanswer =>
      constructor
      · rintro _ ⟨⟩
        exact SettingsService.enabledComplete_normalized (hcall settings hphase)
      · intro next h
        rw [SettingsCall.phase_withPhase] at h
        rcases hanswer with hanswer | ⟨hanswer, _⟩ <;> cases hanswer.symm.trans h

/-- What a request sets is what the settings are. -/
structure UpdateRequest.Sets (req : UpdateRequest) (svc : SettingsService) (actorUserID : UUID)
    (previous : Text) (settings : StoredSettings) : Prop where
  fields : settings.toSettings = req.next svc.lib.toLower actorUserID
  password : req.SetsPassword svc.deps previous settings.smtpPasswordCiphertext

/-- The call has not come to its end. -/
def SettingsPhase.pending : SettingsPhase → Bool
  | .reading | .encrypting _ | .saving _ => true
  | .answered _ | .failed => false

/-- What has been found by an update of a row that held the ciphertext. -/
def UpdateRequest.Progress (req : UpdateRequest) (svc : SettingsService) (actorUserID : UUID)
    (previous : Text) : SettingsPhase → Prop
  | .reading | .failed => True
  | .encrypting _ => req.clearSMTPPassword = false ∧ req.smtpPassword ≠ []
  | .saving settings | .answered settings => req.Sets svc actorUserID previous settings

theorem UpdateRequest.Sets.normalized_eq {req : UpdateRequest} {actorUserID : UUID} {previous : Text}
    (h : req.Sets svc actorUserID previous settings) : normalized settings = settings := by
  have hsame : normalizeSettings settings.toSettings = settings.toSettings := by
    rw [h.fields, UpdateRequest.next, normalizeSettings_normalizeSettings]
  rw [normalized, hsame]

theorem UpdateRequest.Progress.step {req : UpdateRequest} {actorUserID : UUID} {previous : Text}
    {phase : SettingsPhase} (h : req.Progress svc actorUserID previous phase)
    (hprevious : phase.pending = true → row.ciphertext = previous)
    (hstep : SettingsStep svc inputs row (.update actorUserID req phase) row' call') :
    ∃ phase', call' = .update actorUserID req phase' ∧
      req.Progress svc actorUserID previous phase' ∧
      (phase'.pending = true → phase.pending = true ∧ row' = row) ∧
      ∀ saved, phase' = .answered saved → row' = some saved := by
  cases hstep with
  | failed _ => exact ⟨.failed, rfl, trivial, by simp [SettingsPhase.pending], by simp⟩
  | encrypting _ _ current heq hclear hpassword =>
      cases heq
      exact ⟨.encrypting current, rfl, ⟨hclear, hpassword⟩, fun _ => ⟨rfl, rfl⟩, by simp⟩
  | updating _ _ _ settings heq hfields _ hpassword =>
      cases heq
      refine ⟨.saving settings, rfl, ⟨hfields, ?_⟩, fun _ => ?_, by simp⟩
      · rcases hpassword with ⟨rfl, hpassword⟩ | ⟨current, nonce, rfl, hne, hciphertext⟩
        · rwa [← hprevious rfl]
        · obtain ⟨hclear, hgiven⟩ := h
          exact ⟨by simp [hclear], fun _ _ => ⟨hne, nonce, hciphertext⟩, fun _ h => absurd h hgiven⟩
      · rcases hpassword with ⟨rfl, _⟩ | ⟨current, nonce, rfl, _⟩ <;> exact ⟨rfl, rfl⟩
  | switching _ _ _ heq => cases heq
  | saved settings phase' hphase _ hanswer =>
      cases hphase
      have hsame := UpdateRequest.Sets.normalized_eq h
      refine ⟨phase', rfl, ?_, ?_, ?_⟩
      · rcases hanswer with rfl | ⟨rfl, _⟩
        · rwa [hsame]
        · trivial
      · rcases hanswer with rfl | ⟨rfl, _⟩ <;> exact fun hpending => by cases hpending
      · rintro saved rfl
        rcases hanswer with hanswer | ⟨hanswer, _⟩
        · cases hanswer
          rfl
        · cases hanswer

end SecureShare.Email
