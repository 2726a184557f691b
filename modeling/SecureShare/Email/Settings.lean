import SecureShare.Delivery.Model

/-!
# Settings of the email service

The one row of `email_settings`, what an update makes of it, and the functions of the
service that decide about settings and templates, whatever they decide.
-/
namespace SecureShare.Email
open Go
open Delivery (UUID)

structure Settings where
  enabled : Bool
  smtpHost : Text
  smtpPort : ℤ
  encryptionMode : Text
  smtpUsername : Text
  fromName : Text
  fromEmail : Text
  replyToEmail : Text
  connectionTimeoutSeconds : ℤ
  sendTimeoutSeconds : ℤ
  defaultSubject : Text
  defaultMessage : Text
  footerText : Text
  updatedBy : Option UUID
  deriving DecidableEq, Repr

structure StoredSettings extends Settings where
  smtpPasswordCiphertext : Text
  deriving DecidableEq, Repr

structure UpdateRequest where
  enabled : Bool
  smtpHost : Text
  smtpPort : ℤ
  encryptionMode : Text
  smtpUsername : Text
  smtpPassword : Text
  clearSMTPPassword : Bool
  fromName : Text
  fromEmail : Text
  replyToEmail : Text
  connectionTimeoutSeconds : ℤ
  sendTimeoutSeconds : ℤ
  defaultSubject : Text
  defaultMessage : Text
  footerText : Text
  deriving DecidableEq, Repr

structure TemplateOverride where
  subject : Text
  message : Text
  footer : Text
  deriving DecidableEq, Repr

/-- `expiresAt` is a time of Go. -/
structure TemplateContext where
  secureLink : Text
  secretTitle : Text
  recipientName : Text
  recipientEmail : Text
  senderName : Text
  expiresAt : ℤ
  expiresIn : Text
  productName : Text
  supportEmail : Text
  deriving DecidableEq, Repr

inductive TemplateSource where
  | fallback | globalDefault | perDelivery
  deriving DecidableEq, Repr

structure RenderedTemplate where
  subject : Text
  text : Text
  html : Text
  templateSource : TemplateSource
  deriving DecidableEq, Repr

/-- The fields with their messages, and whether the cause is `ErrForbidden`. -/
structure ValidationError where
  forbidden : Bool
  fields : List (Text × Text)
  deriving DecidableEq, Repr

inductive EmailError where
  | notConfigured | invalid | dependency | internal
  | validation (e : ValidationError)
  deriving DecidableEq, Repr

/-- How an attempt to send has failed. -/
inductive Category where
  | configurationError | connectionFailed | tlsFailed | authenticationFailed
  | recipientRejected | timeout | deliveryFailed
  deriving DecidableEq, Repr

def Category.text : Category → Text
  | .configurationError => "SMTP_CONFIGURATION_ERROR".toList
  | .connectionFailed => "SMTP_CONNECTION_FAILED".toList
  | .tlsFailed => "SMTP_TLS_FAILED".toList
  | .authenticationFailed => "SMTP_AUTHENTICATION_FAILED".toList
  | .recipientRejected => "SMTP_RECIPIENT_REJECTED".toList
  | .timeout => "SMTP_TIMEOUT".toList
  | .deliveryFailed => "SMTP_DELIVERY_FAILED".toList

/-- `parseAddress` says whether the mail library parses the text, and `untilText` writes
how long it is until a time. -/
structure Functions where
  toLower : Text → Text
  validateStored : StoredSettings → Bool → Option ValidationError
  render : Settings → Option TemplateOverride → TemplateContext → Option RenderedTemplate
  parseAddress : Text → Bool
  untilText : ℤ → ℤ → Text

def encryptionStartTLS : Text := "starttls".toList

def defaultSubject : Text := "A secure one-time secret has been shared with you".toList

def defaultMessage : Text :=
  ("Hello \x7b\x7brecipient_name\x7d\x7d,\n\nA secure one-time secret has been shared with you " ++
    "through \x7b\x7bproduct_name\x7d\x7d.\n\nThe secret can only be viewed once and will expire " ++
    "at \x7b\x7bexpires_at\x7d\x7d.\n\nOpen the secure secret using the link below:\n\n" ++
    "\x7b\x7bsecure_link\x7d\x7d\n\nDo not forward this email or share the link with anyone " ++
    "else.\n\nRegards,\n\x7b\x7bsender_name\x7d\x7d").toList

def defaultStoredSettings : StoredSettings where
  enabled := false
  smtpHost := []
  smtpPort := 0
  encryptionMode := encryptionStartTLS
  smtpUsername := []
  fromName := []
  fromEmail := []
  replyToEmail := []
  connectionTimeoutSeconds := 5
  sendTimeoutSeconds := 10
  defaultSubject := defaultSubject
  defaultMessage := defaultMessage
  footerText := []
  updatedBy := none
  smtpPasswordCiphertext := []

def normalizeSettings (s : Settings) : Settings :=
  { s with
    encryptionMode := if s.encryptionMode = [] then encryptionStartTLS else s.encryptionMode
    connectionTimeoutSeconds :=
      if s.connectionTimeoutSeconds = 0 then 5 else s.connectionTimeoutSeconds
    sendTimeoutSeconds := if s.sendTimeoutSeconds = 0 then 10 else s.sendTimeoutSeconds
    defaultSubject := if s.defaultSubject = [] then defaultSubject else s.defaultSubject
    defaultMessage := if s.defaultMessage = [] then defaultMessage else s.defaultMessage }

theorem normalizeSettings_normalizeSettings (s : Settings) :
    normalizeSettings (normalizeSettings s) = normalizeSettings s := by
  have hmode : encryptionStartTLS ≠ [] := by decide
  have hsubject : defaultSubject ≠ [] := by
    unfold defaultSubject
    rw [Ne, String.toList_eq_nil_iff]
    decide
  have hmessage : defaultMessage ≠ [] := by
    unfold defaultMessage
    rw [Ne, String.toList_eq_nil_iff]
    decide
  simp only [normalizeSettings, Settings.mk.injEq, true_and, and_true]
  split_ifs <;> simp_all

/-- `safeSettings`, without the field that says whether there is a password. -/
def safeSettings (stored : StoredSettings) : Settings := normalizeSettings stored.toSettings

/-- The settings that `Update` validates, but for the password. No user is `uuid.Nil`. -/
def UpdateRequest.next (toLower : Text → Text) (actorUserID : UUID) (req : UpdateRequest) :
    Settings :=
  normalizeSettings
    { enabled := req.enabled
      smtpHost := trimSpace req.smtpHost
      smtpPort := req.smtpPort
      encryptionMode := trimSpace (toLower req.encryptionMode)
      smtpUsername := trimSpace req.smtpUsername
      fromName := trimSpace req.fromName
      fromEmail := trimSpace (toLower req.fromEmail)
      replyToEmail := trimSpace (toLower req.replyToEmail)
      connectionTimeoutSeconds := req.connectionTimeoutSeconds
      sendTimeoutSeconds := req.sendTimeoutSeconds
      defaultSubject := trimSpace req.defaultSubject
      defaultMessage := trimSpace req.defaultMessage
      footerText := trimSpace req.footerText
      updatedBy := if actorUserID = 0 then none else some actorUserID }

end SecureShare.Email
