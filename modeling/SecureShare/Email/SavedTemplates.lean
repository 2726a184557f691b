import SecureShare.Email.Preflight

/-!
# Templates that are saved

`Update` checks how long the templates are and nothing else of them, so settings can be
saved with templates that no email renders with.
-/
namespace SecureShare.Email
open Go Library Library.Transition
open Library.Interleaving (System State Action)
open Delivery (UUID bind_eq_ok)

/-- A template without its placeholders. -/
def ownText (template : Text) : Text := (pieces template).filterMap Piece.literal?

/-- The placeholders are allowed, and there are no other pairs of braces. -/
structure WellFormed (template : Text) (allowed : List Text) : Prop where
  placeholders : ∀ name, .placeholder name ∈ pieces template → name ∈ allowed
  opening : containsPair '{' '{' (ownText template) = false
  closing : containsPair '}' '}' (ownText template) = false

variable {lib : MailLibraries} {settings : Settings} {override : Option TemplateOverride}
  {ctx : TemplateContext} {template : Text} {values values' : Values} {allowed : List Text}

theorem wellFormed_nil (allowed : List Text) : WellFormed [] allowed := by
  refine ⟨fun name h => ?_, rfl, rfl⟩
  cases h

theorem ownText_of_no_placeholder (h : ∀ name, .placeholder name ∉ pieces template) :
    ownText template = template := by
  induction template with
  | nil => rfl
  | cons c template ih =>
      unfold ownText pieces at *
      cases hmatch : matchPlaceholder (c :: template) with
      | some m =>
          simp only [piecesFrom, hmatch] at h
          exact absurd List.mem_cons_self (h m.1)
      | none =>
          simp only [piecesFrom, hmatch] at h ⊢
          have hrest := ih fun name hname => h name (List.mem_cons_of_mem _ hname)
          simp only [List.filterMap_cons, Piece.literal?, hrest]

theorem checkPlaceholders_iff :
    checkPlaceholders template allowed = .ok () ↔ WellFormed template allowed := by
  constructor
  · intro h
    have hplaceholders : ∀ name, .placeholder name ∈ pieces template → name ∈ allowed :=
      fun _ => mem_allowed_of_check h
    unfold checkPlaceholders at h
    split_ifs at h with hpair
    · cases hfind : ((pieces template).filterMap Piece.name?).find? (· ∉ allowed) with
      | some name =>
          rw [hfind] at h
          cases h
      | none =>
          rw [hfind] at h
          dsimp only at h
          split_ifs at h with hown
          rw [Bool.or_eq_true, not_or, Bool.not_eq_true, Bool.not_eq_true] at hown
          exact ⟨hplaceholders, hown.1, hown.2⟩
    · rw [Bool.or_eq_true, not_or, Bool.not_eq_true, Bool.not_eq_true] at hpair
      have hown : ownText template = template := by
        apply ownText_of_no_placeholder
        intro name hname
        rw [containsPair_of_mem_piecesFrom hname] at hpair
        cases hpair.1
      refine ⟨hplaceholders, ?_, ?_⟩
      · rw [hown]
        exact hpair.1
      · rw [hown]
        exact hpair.2
  · intro h
    have hfind : ((pieces template).filterMap Piece.name?).find? (· ∉ allowed) = none := by
      rw [List.find?_eq_none]
      intro name hname
      obtain ⟨piece, hpiece, hpname⟩ := List.mem_filterMap.mp hname
      cases piece with
      | literal c => cases hpname
      | placeholder other =>
          cases hpname
          simpa using h.placeholders name hpiece
    have hown := h.opening
    have hclosing := h.closing
    unfold ownText at hown hclosing
    unfold checkPlaceholders
    rw [hfind]
    dsimp only
    rw [hown, hclosing, Bool.or_self, if_neg Bool.false_ne_true]
    split_ifs <;> rfl

theorem checkFooter_iff {footer : Text} (htrimmed : trimSpace footer = footer) :
    checkFooter footer = .ok () ↔ WellFormed footer messagePlaceholders := by
  unfold checkFooter
  rw [htrimmed]
  split_ifs with hfooter
  · exact checkPlaceholders_iff
  · rw [not_not.mp hfooter]
    simp [wellFormed_nil]

/-- What decides whether an email renders. -/
theorem render_ok_iff : (∃ rendered, render lib settings override ctx = .ok rendered) ↔
    validateTemplateInput (resolveTemplates settings override) = .ok () ∧
    WellFormed (resolveTemplates settings override).subject subjectPlaceholders ∧
    byteLength (substitute (placeholderValues lib ctx) (resolveTemplates settings override).subject) ≤
      255 ∧
    WellFormed (resolveTemplates settings override).message messagePlaceholders ∧
    checkFooter (resolveTemplates settings override).footer = .ok () := by
  have henvelope : (∃ rendered, render lib settings override ctx = .ok rendered) ↔
      ∃ e, envelope lib settings override ctx = .ok e := by
    rw [← render_envelope]
    cases render lib settings override ctx <;> simp [Except.map]
  have hsubject : ∀ subject, validateSubject subject = .ok () ↔ byteLength subject ≤ 255 := by
    intro subject
    unfold validateSubject
    split_ifs with hlength <;> simp <;> omega
  rw [henvelope, ← checkPlaceholders_iff, ← checkPlaceholders_iff, ← hsubject]
  simp only [envelope, bind_eq_ok]
  constructor
  · rintro ⟨e, _, hinput, _, hplaceholders, _, hlength, _, hmessage, _, hfooter, _⟩
    exact ⟨hinput, hplaceholders, hlength, hmessage, hfooter⟩
  · rintro ⟨hinput, hplaceholders, hlength, hmessage, hfooter⟩
    exact ⟨_, (), hinput, (), hplaceholders, (), hlength, (), hmessage, (), hfooter, rfl⟩

theorem byteLength_append (s t : Text) : byteLength (s ++ t) = byteLength s + byteLength t := by
  induction s with
  | nil => simp [byteLength]
  | cons c s ih =>
      simp only [byteLength, List.cons_append, List.foldr_cons] at ih ⊢
      omega

/-- Longer values make a longer text. -/
theorem byteLength_substitute_le
    (h : ∀ name, Piece.placeholder name ∈ pieces template →
      byteLength (values.get name) ≤ byteLength (values'.get name)) :
    byteLength (substitute values template) ≤ byteLength (substitute values' template) := by
  unfold substitute
  generalize pieces template = parts at h
  induction parts with
  | nil => simp
  | cons piece parts ih =>
      have hrest := ih fun name hname => h name (List.mem_cons_of_mem _ hname)
      simp only [List.flatMap_cons, byteLength_append]
      apply Nat.add_le_add _ hrest
      cases piece with
      | literal c => exact Nat.le_refl _
      | placeholder name => exact h name List.mem_cons_self

/-- The values of a subject when the secret has no title. -/
def untitled (fromName : Text) : Values :=
  [("secret_title".toList, []), ("product_name".toList, "SecureShare".toList),
    ("sender_name".toList, if trimSpace fromName = [] then "SecureShare".toList
      else trimSpace fromName)]

/-- The texts of a request are templates that can be rendered, and its subject is short
enough with the names that it always shows. -/
structure UpdateRequest.TemplatesUsable (req : UpdateRequest) : Prop where
  printable : ([req.defaultSubject, req.defaultMessage, req.footerText].any
    fun text => hasDisallowedControl (trimSpace text)) = false
  subject : WellFormed (trimSpace req.defaultSubject) subjectPlaceholders
  message : WellFormed (trimSpace req.defaultMessage) messagePlaceholders
  footer : WellFormed (trimSpace req.footerText) messagePlaceholders
  short : byteLength (substitute (untitled req.fromName) (trimSpace req.defaultSubject)) ≤ 255

/-- The default subject passes all checks. -/
theorem defaultSubject_usable : trimSpace defaultSubject ≠ [] ∧
    hasDisallowedControl defaultSubject = false ∧
    checkPlaceholders defaultSubject subjectPlaceholders = .ok () ∧
    (pieces defaultSubject).filterMap Piece.name? = [] ∧
    byteLength (substitute [] defaultSubject) ≤ 255 := by
  unfold defaultSubject
  rw [String.toList_ofList]
  decide +kernel

theorem defaultMessage_usable : trimSpace defaultMessage ≠ [] ∧
    hasDisallowedControl defaultMessage = false ∧
    checkPlaceholders defaultMessage messagePlaceholders = .ok () := by
  unfold defaultMessage
  simp only [String.toList_append]
  repeat rw [String.toList_ofList]
  decide +kernel

section accepted
variable {svc : SettingsService} {inputs : SettingsInputs} {row row' : SettingsRow}
  {call call' : SettingsCall} {actorUserID : UUID} {req : UpdateRequest} {saved : StoredSettings}
  {phase : SettingsPhase}

/-- The settings that a call has accepted, which it stores or has stored. -/
def SettingsPhase.accepted? : SettingsPhase → Option StoredSettings
  | .saving settings | .answered settings => some settings
  | .reading | .encrypting _ | .failed => none

/-- What an update has accepted is what was requested, and has been validated. -/
def SettingsCall.UpdateValidated (svc : SettingsService) (call : SettingsCall) : Prop :=
  ∀ actorUserID req phase saved, call = .update actorUserID req phase →
    phase.accepted? = some saved → saved.toSettings = req.next svc.lib.toLower actorUserID ∧
      validateStored svc.lib svc.appEnv saved saved.enabled = none

theorem SettingsCall.UpdateValidated.step (h : call.UpdateValidated svc)
    (hstep : SettingsStep svc inputs row call row' call') : call'.UpdateValidated svc := by
  intro actorUserID req phase saved hcall haccepted
  cases hstep with
  | failed _ =>
      cases call <;> cases hcall
      cases haccepted
  | encrypting _ _ _ _ =>
      cases hcall
      cases haccepted
  | updating _ _ _ settings _ hfields hvalid _ =>
      cases hcall
      cases haccepted
      exact ⟨hfields, hvalid⟩
  | switching _ _ _ _ => cases hcall
  | saved settings phase' hphase _ hanswer =>
      cases call with
      | setEnabled _ _ _ => cases hcall
      | update actor request before =>
          cases hcall
          cases hphase
          rcases hanswer with rfl | ⟨rfl, _⟩
          · obtain ⟨hfields, hvalid⟩ := h _ _ _ settings rfl rfl
            have hsame : normalized settings = settings := by
              rw [normalized, normalizeSettings_of_validated hvalid]
            cases haccepted
            rw [hsame]
            exact ⟨hfields, hvalid⟩
          · cases haccepted

theorem updateValidated_of_reachable {t : State SettingsRow SettingsCall}
    (h : Reachable svc.system.step ⟨row, []⟩ t) {i : ℕ} (hcall : t.calls[i]? = some call) :
    call.UpdateValidated svc := by
  refine (System.assertions_of_reachable (J := fun _ => True)
    (K := fun _ _ call => call.UpdateValidated svc) h trivial ?_ ?_ ?_).2 i call hcall
  · intro i k hk
    cases hk
  · intro i _ request _ _ actorUserID req phase saved hstart haccepted
    cases request <;> cases hstart
    cases haccepted
  · intro x i σ₀ k σ' k' _ hk hadvance
    exact ⟨trivial, hk.step (SettingsService.advance_step hadvance), fun _ _ _ hother => hother⟩

end accepted

section usable
variable {toLower : Text → Text} {actorUserID : UUID} {req : UpdateRequest} {saved : StoredSettings}
  {appEnv : Text} {requireComplete : Bool} {libs : Libraries}

/-- A text of the settings is the trimmed text of the request or the default for it, which
passes what the empty text passes. -/
theorem of_trimmed_or_default (P : Text → Prop) {fallback : Text} (text : Text) (hnil : P [])
    (hfallback : P fallback) : P (if trimSpace text = [] then fallback else trimSpace text) ↔
      P (trimSpace text) := by
  split_ifs with h
  · rw [h]
    exact iff_of_true hfallback hnil
  · exact Iff.rfl

theorem next_defaultSubject (toLower : Text → Text) (actorUserID : UUID) (req : UpdateRequest) :
    (req.next toLower actorUserID).defaultSubject =
      if trimSpace req.defaultSubject = [] then defaultSubject else trimSpace req.defaultSubject :=
  rfl

theorem next_defaultMessage (toLower : Text → Text) (actorUserID : UUID) (req : UpdateRequest) :
    (req.next toLower actorUserID).defaultMessage =
      if trimSpace req.defaultMessage = [] then defaultMessage else trimSpace req.defaultMessage :=
  rfl

theorem trimSpace_ne_nil_of_next (toLower : Text → Text) (actorUserID : UUID)
    (req : UpdateRequest) :
    trimSpace (req.next toLower actorUserID).defaultSubject ≠ [] ∧
      trimSpace (req.next toLower actorUserID).defaultMessage ≠ [] := by
  rw [next_defaultSubject, next_defaultMessage]
  constructor
  · split_ifs with h
    · exact defaultSubject_usable.1
    · rwa [trimSpace_trimSpace]
  · split_ifs with h
    · exact defaultMessage_usable.1
    · rwa [trimSpace_trimSpace]

theorem wellFormed_subject_iff (toLower : Text → Text) (actorUserID : UUID) (req : UpdateRequest) :
    WellFormed (req.next toLower actorUserID).defaultSubject subjectPlaceholders ↔
      WellFormed (trimSpace req.defaultSubject) subjectPlaceholders :=
  of_trimmed_or_default (fun text => WellFormed text subjectPlaceholders) req.defaultSubject
    (wellFormed_nil _) (checkPlaceholders_iff.mp defaultSubject_usable.2.2.1)

/-- The saved texts are the templates of an email that has none of its own. -/
theorem resolveTemplates_next (req : UpdateRequest) :
    resolveTemplates (req.next toLower actorUserID) none =
      ⟨(req.next toLower actorUserID).defaultSubject, (req.next toLower actorUserID).defaultMessage,
        (req.next toLower actorUserID).footerText, .globalDefault⟩ := by
  obtain ⟨hsubject, hmessage⟩ := trimSpace_ne_nil_of_next toLower actorUserID req
  unfold resolveTemplates
  dsimp only
  rw [Templates.replacedBy, if_pos (.inl hsubject), if_pos hsubject, if_pos hmessage]

theorem validateTemplateInput_iff {t : Templates} (hsubject : byteLength t.subject ≤ 255)
    (hmessage : byteLength t.message ≤ 10 * 1024) (hfooter : byteLength t.footer ≤ 2 * 1024) :
    validateTemplateInput t = .ok () ↔ hasDisallowedControl t.subject = false ∧
      hasDisallowedControl t.message = false ∧ hasDisallowedControl t.footer = false := by
  unfold validateTemplateInput
  rw [if_neg (by omega), if_neg (by omega), if_neg (by omega)]
  cases hs : hasDisallowedControl t.subject <;> cases hm : hasDisallowedControl t.message <;>
    cases hf : hasDisallowedControl t.footer <;> simp [hs, hm, hf]

/-- Whether an email renders with the templates of a request that has been accepted. -/
theorem render_next_iff (lib : MailLibraries) (ctx : TemplateContext)
    (hfields : saved.toSettings = req.next toLower actorUserID)
    (hvalid : validateStored libs appEnv saved requireComplete = none) :
    (∃ rendered, render lib (req.next toLower actorUserID) none ctx = .ok rendered) ↔
      ([req.defaultSubject, req.defaultMessage, req.footerText].any
        fun text => hasDisallowedControl (trimSpace text)) = false ∧
      WellFormed (trimSpace req.defaultSubject) subjectPlaceholders ∧
      byteLength (substitute (placeholderValues lib ctx)
        (req.next toLower actorUserID).defaultSubject) ≤ 255 ∧
      WellFormed (trimSpace req.defaultMessage) messagePlaceholders ∧
      WellFormed (trimSpace req.footerText) messagePlaceholders := by
  obtain ⟨⟨_, hsubject⟩, ⟨_, hmessage⟩, hfooter⟩ := templates_of_validated hvalid
  rw [hfields] at hsubject hmessage hfooter
  have hsubjectControl := of_trimmed_or_default (fun text => hasDisallowedControl text = false)
    req.defaultSubject rfl defaultSubject_usable.2.1
  have hmessageControl := of_trimmed_or_default (fun text => hasDisallowedControl text = false)
    req.defaultMessage rfl defaultMessage_usable.2.1
  have hsubjectForm := wellFormed_subject_iff toLower actorUserID req
  have hmessageForm := of_trimmed_or_default (fun text => WellFormed text messagePlaceholders)
    req.defaultMessage (wellFormed_nil _) (checkPlaceholders_iff.mp defaultMessage_usable.2.2)
  rw [render_ok_iff, resolveTemplates_next, validateTemplateInput_iff hsubject hmessage hfooter]
  dsimp only
  have hfooterForm : checkFooter (req.next toLower actorUserID).footerText = .ok () ↔
      WellFormed (trimSpace req.footerText) messagePlaceholders :=
    checkFooter_iff (trimSpace_trimSpace req.footerText)
  rw [hfooterForm, hsubjectForm, next_defaultSubject, next_defaultMessage, hsubjectControl,
    hmessageControl, hmessageForm]
  simp [and_assoc, UpdateRequest.next, normalizeSettings]

/-- A link that is sent with the default templates. -/
theorem get_emailTemplateContext {untilText : ℤ → ℤ → Text} {now expiresAt : ℤ}
    {plan : Http.EmailDeliveryPlan} {title link name : Text} (req : UpdateRequest)
    (hname : name ∈ subjectPlaceholders) :
    (placeholderValues lib (Http.emailTemplateContext untilText now (req.next toLower actorUserID)
      plan title link expiresAt)).get name =
      if name = "secret_title".toList then trimSpace title
      else (untitled req.fromName).get name := by
  simp only [subjectPlaceholders, List.mem_cons, List.not_mem_nil, or_false] at hname
  have hproduct : trimSpace "SecureShare".toList = "SecureShare".toList := by decide
  rcases hname with rfl | rfl | rfl
  · rfl
  · rw [if_neg (by decide)]
    change (if trimSpace "SecureShare".toList = [] then "SecureShare".toList
      else trimSpace "SecureShare".toList) = "SecureShare".toList
    rw [hproduct, ite_self]
  · rw [if_neg (by decide)]
    change (if trimSpace (trimSpace req.fromName) = [] then
        if trimSpace "SecureShare".toList = [] then "SecureShare".toList
        else trimSpace "SecureShare".toList
      else trimSpace (trimSpace req.fromName)) =
      if trimSpace req.fromName = [] then "SecureShare".toList else trimSpace req.fromName
    rw [trimSpace_trimSpace, hproduct, ite_self]

end usable

/-- Every email renders with the settings if its subject is short enough, and one that
`preflightEmailDelivery` renders without templates of its own is. -/
def TemplatesRender (lib : MailLibraries) (untilText : ℤ → ℤ → Text) (cfg : Config)
    (settings : Settings) : Prop :=
  (∀ ctx, byteLength (substitute (placeholderValues lib ctx) settings.defaultSubject) ≤ 255 →
    ∃ rendered, render lib settings none ctx = .ok rendered) ∧
  ∃ now plan title expiresAt rendered, plan.useDefaultTemplate = true ∧
    render lib settings (Http.emailOverride plan) (Http.emailTemplateContext untilText now settings
      plan title (cfg.appBaseURL ++ "/s#preview-token-not-real".toList) expiresAt) = .ok rendered

section usable
variable {svc : SettingsService} {row : SettingsRow} {t : State SettingsRow SettingsCall} {i : ℕ}
  {actorUserID : UUID} {req : UpdateRequest} {phase : SettingsPhase} {saved : StoredSettings}

/-- The subject of an email with the default templates is shortest without a title. -/
theorem short_iff (toLower : Text → Text) (actorUserID : UUID) (req : UpdateRequest) :
    byteLength (substitute (untitled req.fromName) (req.next toLower actorUserID).defaultSubject) ≤
      255 ↔
    byteLength (substitute (untitled req.fromName) (trimSpace req.defaultSubject)) ≤ 255 := by
  have hfixed : substitute (untitled req.fromName) defaultSubject = substitute [] defaultSubject := by
    apply substitute_congr
    intro name hname
    have hmem : name ∈ (pieces defaultSubject).filterMap Piece.name? :=
      List.mem_filterMap.mpr ⟨_, hname, rfl⟩
    rw [defaultSubject_usable.2.2.2.1] at hmem
    cases hmem
  rw [next_defaultSubject]
  apply of_trimmed_or_default (fun text => byteLength (substitute _ text) ≤ 255)
  · exact Nat.zero_le _
  · rw [hfixed]
    exact defaultSubject_usable.2.2.2.2

/-- The templates that an update has accepted can be used exactly if they have no control
characters, no placeholders that are not allowed, no other pairs of braces, and a subject
that the name of the sender does not make too long. -/
theorem saved_templates_render_iff (lib : MailLibraries) (untilText : ℤ → ℤ → Text) (cfg : Config)
    (h : Reachable svc.system.step ⟨row, []⟩ t)
    (hcall : t.calls[i]? = some (.update actorUserID req phase))
    (haccepted : phase.accepted? = some saved) :
    TemplatesRender lib untilText cfg (safeSettings saved) ↔ req.TemplatesUsable := by
  obtain ⟨hfields, hvalid⟩ := updateValidated_of_reachable h hcall _ _ _ _ rfl haccepted
  have hsame : safeSettings saved = req.next svc.lib.toLower actorUserID := by
    rw [safeSettings, normalizeSettings_of_validated hvalid, hfields]
  have hrender := fun ctx => render_next_iff lib ctx hfields hvalid
  rw [hsame]
  constructor
  · rintro ⟨_, now, plan, title, expiresAt, rendered, hplan, hrendered⟩
    rw [Http.emailOverride, if_pos hplan] at hrendered
    obtain ⟨hprintable, hsubject, hlength, hmessage, hfooter⟩ := (hrender _).mp ⟨_, hrendered⟩
    have hform := (wellFormed_subject_iff svc.lib.toLower actorUserID req).mpr hsubject
    have hle : byteLength (substitute (untitled req.fromName)
        (req.next svc.lib.toLower actorUserID).defaultSubject) ≤ 255 := by
      refine (byteLength_substitute_le fun name hname => ?_).trans hlength
      rw [get_emailTemplateContext req (hform.placeholders name hname)]
      split_ifs with htitle
      · rw [htitle]
        exact Nat.zero_le _
      · exact Nat.le_refl _
    exact ⟨hprintable, hsubject, hmessage, hfooter, (short_iff svc.lib.toLower actorUserID req).mp hle⟩
  · intro husable
    refine ⟨fun ctx hshort => ?_, ?_⟩
    · exact (hrender ctx).mpr
        ⟨husable.printable, husable.subject, hshort, husable.message, husable.footer⟩
    · have hform := (wellFormed_subject_iff svc.lib.toLower actorUserID req).mpr husable.subject
      have hsame : substitute (placeholderValues lib (Http.emailTemplateContext untilText 0
          (req.next svc.lib.toLower actorUserID) ⟨true, [], [], true, [], []⟩ []
          (cfg.appBaseURL ++ "/s#preview-token-not-real".toList) 0))
          (req.next svc.lib.toLower actorUserID).defaultSubject =
          substitute (untitled req.fromName) (req.next svc.lib.toLower actorUserID).defaultSubject := by
        apply substitute_congr
        intro name hname
        rw [get_emailTemplateContext req (hform.placeholders name hname)]
        split_ifs with htitle
        · rw [htitle]
          rfl
        · rfl
      have hshort := (short_iff svc.lib.toLower actorUserID req).mpr husable.short
      rw [← hsame] at hshort
      obtain ⟨rendered, hrendered⟩ := (hrender _).mpr
        ⟨husable.printable, husable.subject, hshort, husable.message, husable.footer⟩
      exact ⟨0, ⟨true, [], [], true, [], []⟩, [], 0, rendered, rfl, hrendered⟩

end usable

/-- An update that is answered. -/
def answeredUpdate (req : UpdateRequest) : List (Action SettingsRequest SettingsInputs) :=
  .spawn (.update 7 req) :: List.replicate 3 (.advance 0 answeredSettings)

theorem saved_templates_render_iff_sample : ∃ t, Reachable sampleSettingsService.system.step
    ⟨none, []⟩ t ∧
    t.calls = [.update 7 sampleUpdate (.answered ⟨sampleUpdate.next toLower 7, "vp".toList⟩)] ∧
    TemplatesRender sampleMailLibraries (fun _ _ => []) Delivery.sampleConfig
      (safeSettings ⟨sampleUpdate.next toLower 7, "vp".toList⟩) := by
  have hrun : (run sampleSettingsService.system.step ⟨none, []⟩ (answeredUpdate sampleUpdate)).map
      State.calls =
      some [.update 7 sampleUpdate (.answered ⟨sampleUpdate.next toLower 7, "vp".toList⟩)] := by
    decide +kernel
  obtain ⟨t, hreach, hcalls⟩ := Reachable.of_map hrun
  refine ⟨t, hreach, hcalls, ?_⟩
  apply (saved_templates_render_iff (i := 0) sampleMailLibraries (fun _ _ => [])
    Delivery.sampleConfig hreach (by rw [hcalls]; rfl) rfl).mpr
  exact ⟨by decide +kernel, checkPlaceholders_iff.mp (by decide +kernel),
    checkPlaceholders_iff.mp (by decide +kernel), checkPlaceholders_iff.mp (by decide +kernel),
    by decide +kernel⟩

def sampleSubject : UpdateRequest :=
  { sampleUpdate with defaultSubject := "Open \x7b\x7bsecure_link\x7d\x7d".toList }

/-- A subject with the link in it is saved, and no email renders with it. -/
theorem saved_subject_fails : ∃ t, Reachable sampleSettingsService.system.step ⟨none, []⟩ t ∧
    t.calls = [.update 7 sampleSubject (.answered ⟨sampleSubject.next toLower 7, "vp".toList⟩)] ∧
    t.store = some ⟨sampleSubject.next toLower 7, "vp".toList⟩ ∧
    (∃ ctx, byteLength (substitute (placeholderValues sampleMailLibraries ctx)
      (safeSettings ⟨sampleSubject.next toLower 7, "vp".toList⟩).defaultSubject) ≤ 255) ∧
    ∀ ctx, ¬∃ rendered, render sampleMailLibraries
      (safeSettings ⟨sampleSubject.next toLower 7, "vp".toList⟩) none ctx = .ok rendered := by
  have hrun : (run sampleSettingsService.system.step ⟨none, []⟩ (answeredUpdate sampleSubject)).map
      (fun t => (t.calls, t.store)) =
      some ([.update 7 sampleSubject (.answered ⟨sampleSubject.next toLower 7, "vp".toList⟩)],
        some ⟨sampleSubject.next toLower 7, "vp".toList⟩) := by
    decide +kernel
  obtain ⟨t, hreach, hend⟩ := Reachable.of_map hrun
  obtain ⟨hcalls, hstore⟩ := Prod.mk.inj hend
  refine ⟨t, hreach, hcalls, hstore, ⟨⟨[], [], [], [], [], 0, [], [], []⟩, by decide +kernel⟩, ?_⟩
  intro ctx hrendered
  have hform := (render_ok_iff.mp hrendered).2.1
  have hsubject : checkPlaceholders (resolveTemplates (safeSettings
      ⟨sampleSubject.next toLower 7, "vp".toList⟩) none).subject subjectPlaceholders ≠ .ok () := by
    decide +kernel
  exact hsubject (checkPlaceholders_iff.mpr hform)

end SecureShare.Email
