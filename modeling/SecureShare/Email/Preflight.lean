import SecureShare.Email.Message
import SecureShare.Config

/-!
# The preflight of an email

Before a link is created its email is rendered once with a link that is not real. Whether a
template is accepted is decided without the values, and no value that the subject may show
comes from the link or its lifetime, so the email that is sent after the link has been
created renders as the preflight did.
-/
namespace SecureShare.Email
open Go

/-- What `renderPlaceholders` checks of a template. -/
def checkPlaceholders (template : Text) (allowed : List Text) : Except Text Unit :=
  if containsPair '{' '{' template || containsPair '}' '}' template then
    match ((pieces template).filterMap Piece.name?).find? (· ∉ allowed) with
    | some name => .error ("unsupported placeholder ".toList ++ name)
    | none =>
      let stripped := (pieces template).filterMap Piece.literal?
      if containsPair '{' '{' stripped || containsPair '}' '}' stripped then
        .error "malformed placeholder".toList
      else .ok ()
  else .ok ()

variable {lib : MailLibraries} {settings : Settings} {override : Option TemplateOverride}
  {ctx ctx' : TemplateContext} {template name : Text} {values values' : Values} {allowed : List Text}

theorem renderPlaceholders_eq_map (template : Text) (values : Values) (allowed : List Text) :
    renderPlaceholders template values allowed =
      (checkPlaceholders template allowed).map fun _ => substitute values template := by
  unfold renderPlaceholders checkPlaceholders
  split_ifs
  · cases ((pieces template).filterMap Piece.name?).find? (· ∉ allowed) with
    | some name => rfl
    | none =>
        dsimp only
        split_ifs <;> rfl
  · rfl

/-- A placeholder begins with two braces. -/
theorem containsPair_of_matchPlaceholder {s : Text} {length : ℕ}
    (h : matchPlaceholder s = some (name, length)) : ∃ rest, s = '{' :: '{' :: rest := by
  unfold matchPlaceholder at h
  dsimp only at h
  split_ifs at h with hmatch
  obtain ⟨htake, _⟩ := hmatch
  refine ⟨s.drop 2, ?_⟩
  calc s = s.take 2 ++ s.drop 2 := (List.take_append_drop 2 s).symm
    _ = _ := by rw [htake]; rfl

theorem containsPair_cons {a b c : Char} {s : Text} (h : containsPair a b s = true) :
    containsPair a b (c :: s) = true := by
  cases s with
  | nil => cases h
  | cons d s => simp [containsPair, h]

theorem containsPair_of_mem_piecesFrom {n : ℕ} {s : Text}
    (h : Piece.placeholder name ∈ piecesFrom n s) : containsPair '{' '{' s = true := by
  induction n, s using piecesFrom.induct with
  | case1 n => cases h
  | case2 n c s ih =>
      rw [piecesFrom] at h
      exact containsPair_cons (ih h)
  | case3 c s name' length hmatch ih =>
      obtain ⟨rest, hrest⟩ := containsPair_of_matchPlaceholder hmatch
      rw [hrest]
      rfl
  | case4 c s hmatch ih =>
      simp only [piecesFrom, hmatch, List.mem_cons, reduceCtorEq, false_or] at h
      exact containsPair_cons (ih h)

/-- A template that is accepted has no placeholders but those that are allowed. -/
theorem mem_allowed_of_check (h : checkPlaceholders template allowed = .ok ())
    (hname : Piece.placeholder name ∈ pieces template) : name ∈ allowed := by
  have hpair := containsPair_of_mem_piecesFrom hname
  have hmem : name ∈ (pieces template).filterMap Piece.name? :=
    List.mem_filterMap.mpr ⟨_, hname, rfl⟩
  rw [checkPlaceholders, hpair, Bool.true_or, if_pos rfl] at h
  cases hfind : ((pieces template).filterMap Piece.name?).find? (· ∉ allowed) with
  | some other =>
      rw [hfind] at h
      cases h
  | none =>
      have hall := List.find?_eq_none.mp hfind name hmem
      simpa using hall

theorem substitute_congr
    (h : ∀ name, Piece.placeholder name ∈ pieces template → values.get name = values'.get name) :
    substitute values template = substitute values' template := by
  apply List.flatMap_congr
  intro piece hpiece
  cases piece with
  | literal c => rfl
  | placeholder name => exact h name hpiece

/-- The contexts differ at most in the link and its lifetime. -/
structure SameMessage (ctx ctx' : TemplateContext) : Prop where
  secretTitle : ctx'.secretTitle = ctx.secretTitle
  recipientName : ctx'.recipientName = ctx.recipientName
  recipientEmail : ctx'.recipientEmail = ctx.recipientEmail
  senderName : ctx'.senderName = ctx.senderName
  productName : ctx'.productName = ctx.productName
  supportEmail : ctx'.supportEmail = ctx.supportEmail

/-- The values that a subject may show. -/
theorem SameMessage.get_eq (h : SameMessage ctx ctx') (hname : name ∈ subjectPlaceholders) :
    (placeholderValues lib ctx').get name = (placeholderValues lib ctx).get name := by
  have htitle : (placeholderValues lib ctx').get "secret_title".toList =
      (placeholderValues lib ctx).get "secret_title".toList :=
    congrArg trimSpace h.secretTitle
  have hproduct : (placeholderValues lib ctx').get "product_name".toList =
      (placeholderValues lib ctx).get "product_name".toList := by
    change (if trimSpace ctx'.productName = [] then _ else _) = _
    rw [h.productName]
    rfl
  have hsender : (placeholderValues lib ctx').get "sender_name".toList =
      (placeholderValues lib ctx).get "sender_name".toList := by
    change (if trimSpace ctx'.senderName = [] then _ else _) = _
    rw [h.senderName, h.productName]
    rfl
  simp only [subjectPlaceholders, List.mem_cons, List.not_mem_nil, or_false] at hname
  rcases hname with rfl | rfl | rfl
  · exact htitle
  · exact hproduct
  · exact hsender

theorem SameMessage.substitute_eq (h : SameMessage ctx ctx')
    (hcheck : checkPlaceholders template subjectPlaceholders = .ok ()) :
    substitute (placeholderValues lib ctx') template =
      substitute (placeholderValues lib ctx) template :=
  substitute_congr fun _ hname => h.get_eq (mem_allowed_of_check hcheck hname)

/-- Whether a footer is accepted, as far as it is rendered. -/
def checkFooter (footer : Text) : Except Text Unit :=
  if trimSpace footer ≠ [] then checkPlaceholders footer messagePlaceholders else .ok ()

theorem renderFooter_eq_map (footer : Text) (values : Values) :
    ∃ text, renderFooter footer values = (checkFooter footer).map fun _ => text := by
  unfold renderFooter checkFooter
  split_ifs
  · refine ⟨"\n\n".toList ++ substitute values footer, ?_⟩
    rw [renderPlaceholders_eq_map]
    cases checkPlaceholders footer messagePlaceholders <;> rfl
  · exact ⟨[], rfl⟩

/-- What a rendered email shows besides its body. -/
def RenderedTemplate.envelope (r : RenderedTemplate) : Text × TemplateSource :=
  (r.subject, r.templateSource)

/-- The result of `Render`, as far as no body is concerned. -/
def envelope (lib : MailLibraries) (settings : Settings) (override : Option TemplateOverride)
    (ctx : TemplateContext) : Except Text (Text × TemplateSource) := do
  let t := resolveTemplates settings override
  validateTemplateInput t
  checkPlaceholders t.subject subjectPlaceholders
  let subject := substitute (placeholderValues lib ctx) t.subject
  validateSubject subject
  checkPlaceholders t.message messagePlaceholders
  checkFooter t.footer
  .ok (subject, t.source)

theorem render_envelope : (render lib settings override ctx).map RenderedTemplate.envelope =
    envelope lib settings override ctx := by
  unfold render envelope
  dsimp only
  obtain ⟨footer, hfooter⟩ := renderFooter_eq_map (resolveTemplates settings override).footer
    (placeholderValues lib ctx)
  rw [renderPlaceholders_eq_map, renderPlaceholders_eq_map, hfooter]
  cases validateTemplateInput (resolveTemplates settings override) with
  | error e => rfl
  | ok =>
  cases checkPlaceholders (resolveTemplates settings override).subject subjectPlaceholders with
  | error e => rfl
  | ok =>
  change (validateSubject (substitute (placeholderValues lib ctx)
    (resolveTemplates settings override).subject) >>= _).map _ = validateSubject _ >>= _
  cases validateSubject (substitute (placeholderValues lib ctx)
    (resolveTemplates settings override).subject) with
  | error e => rfl
  | ok =>
  cases checkPlaceholders (resolveTemplates settings override).message messagePlaceholders with
  | error e => rfl
  | ok =>
  cases checkFooter (resolveTemplates settings override).footer with
  | error e => rfl
  | ok => rfl

theorem SameMessage.envelope_eq (h : SameMessage ctx ctx') :
    envelope lib settings override ctx' = envelope lib settings override ctx := by
  unfold envelope
  dsimp only
  cases hcheck : checkPlaceholders (resolveTemplates settings override).subject
      subjectPlaceholders with
  | error e => rfl
  | ok => rw [h.substitute_eq hcheck]

end SecureShare.Email

namespace SecureShare.Http
open Go Email
open Delivery (CreateResponse)

inductive PreflightError where
  | notConfigured | invalid
  deriving DecidableEq, Repr

/-- `answer` is what `SafeSettings` returns, if it does not fail. -/
def preflightEmailDelivery (lib : MailLibraries) (untilText : ℤ → ℤ → Text) (cfg : Config)
    (now : ℤ) (answer : Option Settings) (req : EmailDeliveryPlan) (title : Text)
    (expiresAt : ℤ) : Except PreflightError Unit :=
  if trimSpace req.toAddress = [] ∨ lib.parseAddress (trimSpace req.toAddress) = none then
    .error .invalid
  else
    match answer with
    | none => .error .notConfigured
    | some settings =>
      if settings.enabled = false ∨ settings.smtpHost = [] ∨ settings.smtpPort = 0 ∨
          settings.fromEmail = [] then .error .notConfigured
      else if cfg.appEnv = "production".toList ∧ settings.encryptionMode = "none".toList then
        .error .notConfigured
      else
        match render lib settings (emailOverride req) (emailTemplateContext untilText now settings
          req title (cfg.appBaseURL ++ "/s#preview-token-not-real".toList) expiresAt) with
        | .error _ => .error .invalid
        | .ok _ => .ok ()

/-- What `sendCreatedEmail` renders for the link, or the category of its failure. -/
def createdMessage (lib : MailLibraries) (untilText : ℤ → ℤ → Text) (now : ℤ)
    (answer : Option Settings) (req : EmailDeliveryPlan) (title : Text) (resp : CreateResponse) :
    Except Category RenderedTemplate :=
  match answer with
  | none => .error .configurationError
  | some settings =>
    match render lib settings (emailOverride req) (emailTemplateContext untilText now settings req
      title resp.url resp.expiresAt) with
    | .error _ => .error .configurationError
    | .ok rendered => .ok rendered

variable {lib : MailLibraries} {untilText : ℤ → ℤ → Text} {cfg : Config} {now now' : ℤ}
  {answer : Option Settings} {req : EmailDeliveryPlan} {title : Text} {expiresAt : ℤ}

/-- The preflight has rendered the message. -/
theorem preflight_rendered
    (h : preflightEmailDelivery lib untilText cfg now answer req title expiresAt = .ok ()) :
    ∃ settings rendered, answer = some settings ∧
      render lib settings (emailOverride req) (emailTemplateContext untilText now settings req title
        (cfg.appBaseURL ++ "/s#preview-token-not-real".toList) expiresAt) = .ok rendered := by
  unfold preflightEmailDelivery at h
  split_ifs at h with hrecipient
  cases answer with
  | none => cases h
  | some settings =>
      dsimp only at h
      split_ifs at h with hcomplete hmode
      cases hrender : render lib settings (emailOverride req) (emailTemplateContext untilText now
          settings req title (cfg.appBaseURL ++ "/s#preview-token-not-real".toList) expiresAt) with
      | error e =>
          rw [hrender] at h
          cases h
      | ok rendered => exact ⟨settings, rendered, rfl, hrender⟩

theorem sameMessage_emailTemplateContext (settings : Settings) (link link' : Text)
    (expiresAt expiresAt' : ℤ) :
    SameMessage (emailTemplateContext untilText now settings req title link expiresAt)
      (emailTemplateContext untilText now' settings req title link' expiresAt') where
  secretTitle := rfl
  recipientName := rfl
  recipientEmail := rfl
  senderName := rfl
  productName := rfl
  supportEmail := rfl

/-- Neither the link nor its lifetime decides whether a template renders, or what the subject
is, so the message that is sent renders as the preflight has. -/
theorem preflight_sound (lib : MailLibraries) (untilText : ℤ → ℤ → Text) (cfg : Config) :
    (∀ settings override ctx secureLink expiresAt expiresIn,
      (render lib settings override { ctx with secureLink, expiresAt, expiresIn }).map
        RenderedTemplate.envelope =
      (render lib settings override ctx).map RenderedTemplate.envelope) ∧
    ∀ now now' settings req title expiresAt resp,
      preflightEmailDelivery lib untilText cfg now (some settings) req title expiresAt = .ok () →
      ∃ rendered preview,
        createdMessage lib untilText now' (some settings) req title resp = .ok rendered ∧
        render lib settings (emailOverride req) (emailTemplateContext untilText now settings req
          title (cfg.appBaseURL ++ "/s#preview-token-not-real".toList) expiresAt) = .ok preview ∧
        rendered.envelope = preview.envelope := by
  constructor
  · intro settings override ctx secureLink expiresAt expiresIn
    rw [render_envelope, render_envelope]
    exact SameMessage.envelope_eq ⟨rfl, rfl, rfl, rfl, rfl, rfl⟩
  · intro now now' settings req title expiresAt resp hpreflight
    obtain ⟨_, preview, hanswer, hpreview⟩ := preflight_rendered hpreflight
    cases hanswer
    have hsame : envelope lib settings (emailOverride req)
        (emailTemplateContext untilText now' settings req title resp.url resp.expiresAt) =
        envelope lib settings (emailOverride req) (emailTemplateContext untilText now settings req
          title (cfg.appBaseURL ++ "/s#preview-token-not-real".toList) expiresAt) :=
      (sameMessage_emailTemplateContext settings _ _ _ _).envelope_eq
    rw [← render_envelope, ← render_envelope, hpreview] at hsame
    cases hcreated : render lib settings (emailOverride req) (emailTemplateContext untilText now'
        settings req title resp.url resp.expiresAt) with
    | error e =>
        rw [hcreated] at hsame
        cases hsame
    | ok rendered =>
        rw [hcreated] at hsame
        refine ⟨rendered, preview, ?_, hpreview, Except.ok.inj hsame⟩
        simp only [createdMessage, hcreated]

theorem preflight_sound_sample :
    let req := emailDeliveryFromCreate (sampleLinkRequest "Hello".toList)
    ∃ rendered, createdMessage sampleMailLibraries (fun _ _ => "24h0m0s".toList) 5
      (some sampleSender.toSettings) req [] ⟨7, "https://example.com/s#t".toList, 90⟩ =
        .ok rendered := by
  have hpreflight : preflightEmailDelivery sampleMailLibraries (fun _ _ => "24h0m0s".toList)
      Delivery.sampleConfig 0 (some sampleSender.toSettings)
      (emailDeliveryFromCreate (sampleLinkRequest "Hello".toList)) [] 86400000000000 = .ok () := by
    decide +kernel
  obtain ⟨rendered, _, hcreated, _⟩ := (preflight_sound sampleMailLibraries
    (fun _ _ => "24h0m0s".toList) Delivery.sampleConfig).2 0 5 sampleSender.toSettings _ [] _
    ⟨7, "https://example.com/s#t".toList, 90⟩ hpreflight
  exact ⟨rendered, hcreated⟩

end SecureShare.Http
