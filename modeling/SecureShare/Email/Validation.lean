import SecureShare.Email.Settings
import SecureShare.Go.Map

/-!
# Validation of email settings

What `validateStored` checks, with the message for each field, and that settings which
pass are left as they are when they are normalised.
-/
namespace SecureShare.Email
open Go

/-- The libraries for text and addresses: `parseIP` says whether `net.ParseIP` parses the
text, and `parseAddress` is the address that `mail.ParseAddress` finds. -/
structure Libraries where
  toLower : Text → Text
  equalFold : Text → Text → Bool
  parseIP : Text → Bool
  parseAddress : Text → Option Text

def isAlphanumeric (c : Char) : Bool :=
  ('A' ≤ c && c ≤ 'Z') || ('a' ≤ c && c ≤ 'z') || ('0' ≤ c && c ≤ '9')

/-- `smtpHostnamePattern` matches. -/
def matchesHostname (host : Text) : Bool :=
  host.head?.any isAlphanumeric && host.getLast?.any isAlphanumeric && host.length ≤ 253 &&
    host.all fun c => isAlphanumeric c || c = '.' || c = '-'

def containsDots : Text → Bool
  | '.' :: '.' :: _ => true
  | _ :: s => containsDots s
  | [] => false

def validLabel (label : Text) : Bool :=
  label ≠ [] && byteLength label ≤ 63 && label.head? ≠ some '-' && label.getLast? ≠ some '-'

def validSMTPHost (lib : Libraries) (host : Text) : Bool :=
  let host := trimSpace host
  if host = [] ∨ 253 < byteLength host ∨ containsDots host then false
  else if lib.parseIP host then true
  else matchesHostname host && (host.splitOn '.').all validLabel

def validEmailAddress (lib : Libraries) (value : Text) : Bool :=
  (lib.parseAddress value).any fun address => lib.equalFold address (trimSpace value)

/-- The fields that have been found invalid, and their messages. -/
abbrev Fields := List (Text × Text)

/-- Sets the message of a field if the check finds it invalid. -/
def Fields.check (invalid : Bool) (field message : String) (fields : Fields) : Fields :=
  if invalid then assign Prod.fst (field.toList, message.toList) fields else fields

/-- `validateStored`; no error is success. -/
def validateStored (lib : Libraries) (appEnv : Text) (stored : StoredSettings)
    (requireComplete : Bool) : Option ValidationError :=
  let s := stored.toSettings
  let knownMode := s.encryptionMode = "starttls".toList || s.encryptionMode = "tls".toList ||
    s.encryptionMode = "none".toList
  let unencrypted := knownMode && appEnv = "production".toList && s.encryptionMode = "none".toList
  let fields := Fields.check (!knownMode) "encryption_mode" "Select STARTTLS, TLS, or none." []
    |>.check unencrypted "encryption_mode" "Unencrypted SMTP is not allowed in production."
    |>.check (requireComplete && s.smtpHost = []) "smtp_host" "SMTP host is required."
    |>.check (s.smtpHost ≠ [] && !validSMTPHost lib s.smtpHost) "smtp_host"
      "Enter a valid SMTP host name or IP address."
    |>.check (requireComplete && s.smtpPort = 0) "smtp_port" "SMTP port is required."
    |>.check (s.smtpPort < 0 || 65535 < s.smtpPort) "smtp_port"
      "SMTP port must be between 1 and 65535."
    |>.check (requireComplete && s.fromEmail = []) "from_email" "A valid sender email is required."
    |>.check (s.fromEmail ≠ [] && !validEmailAddress lib s.fromEmail) "from_email"
      "A valid sender email is required."
    |>.check (s.replyToEmail ≠ [] && !validEmailAddress lib s.replyToEmail) "reply_to_email"
      "Enter a valid reply-to email."
    |>.check (s.smtpUsername = [] && stored.smtpPasswordCiphertext ≠ []) "smtp_username"
      "SMTP username is required when a password is configured."
    |>.check (255 < byteLength s.smtpHost) "smtp_host" "SMTP host must be 255 characters or fewer."
    |>.check (255 < byteLength s.smtpUsername) "smtp_username"
      "SMTP username must be 255 characters or fewer."
    |>.check (255 < byteLength s.fromName) "from_name" "From name must be 255 characters or fewer."
    |>.check (255 < byteLength s.fromEmail) "from_email"
      "From email must be 255 characters or fewer."
    |>.check (255 < byteLength s.replyToEmail) "reply_to_email"
      "Reply-to email must be 255 characters or fewer."
    |>.check (s.connectionTimeoutSeconds ≤ 0 || 60 < s.connectionTimeoutSeconds)
      "connection_timeout_seconds" "Connection timeout must be between 1 and 60 seconds."
    |>.check (s.sendTimeoutSeconds ≤ 0 || 120 < s.sendTimeoutSeconds) "send_timeout_seconds"
      "Send timeout must be between 1 and 120 seconds."
    |>.check (s.defaultSubject = [] || 255 < byteLength s.defaultSubject) "default_subject"
      "Default subject is required and must be 255 characters or fewer."
    |>.check (s.defaultMessage = [] || 10 * 1024 < byteLength s.defaultMessage) "default_message"
      "Default message is required and must be 10240 characters or fewer."
    |>.check (2 * 1024 < byteLength s.footerText) "footer_text"
      "Footer text must be 2048 characters or fewer."
  if fields = [] then none else some ⟨unencrypted, fields⟩

variable {lib : Libraries} {appEnv : Text} {stored : StoredSettings} {requireComplete : Bool}

theorem Fields.check_eq_nil {invalid : Bool} {field message : String} {fields : Fields} :
    fields.check invalid field message = [] ↔ invalid = false ∧ fields = [] := by
  unfold Fields.check
  cases invalid with
  | false => simp
  | true =>
      simp only [if_true, Bool.true_eq_false, false_and, iff_false]
      unfold assign
      split_ifs with hset
      · intro hnil
        rw [List.map_eq_nil_iff] at hnil
        rw [hnil] at hset
        cases hset
      · exact not_false

/-- The sender of settings that pass is an address, if there is one. -/
theorem validEmailAddress_of_validated
    (h : validateStored lib appEnv stored requireComplete = none) (hsender : stored.fromEmail ≠ []) :
    validEmailAddress lib stored.fromEmail = true := by
  unfold validateStored at h
  dsimp only at h
  split_ifs at h with hfields
  simp only [Fields.check_eq_nil] at hfields
  obtain ⟨_, _, _, _, _, _, _, _, _, _, _, _, haddress, _⟩ := hfields
  simpa [hsender] using haddress

/-- Settings that pass have a mode, timeouts, a subject and a message. -/
theorem normalizeSettings_of_validated (h : validateStored lib appEnv stored requireComplete = none) :
    normalizeSettings stored.toSettings = stored.toSettings := by
  unfold validateStored at h
  dsimp only at h
  split_ifs at h with hfields
  simp only [Fields.check_eq_nil, Bool.or_eq_false_iff, Bool.not_eq_false', Bool.or_eq_true,
    decide_eq_false_iff_not, decide_eq_true_eq] at hfields
  obtain ⟨_, ⟨hmessage, _⟩, ⟨hsubject, _⟩, ⟨hsend, _⟩, ⟨hconnection, _⟩, hrest⟩ := hfields
  have hmode : stored.encryptionMode ≠ [] := by
    obtain ⟨_, _, _, _, _, _, _, _, _, _, _, _, _, _, hmode, _⟩ := hrest
    intro hnil
    rw [hnil] at hmode
    exact absurd hmode (by decide)
  unfold normalizeSettings
  rw [if_neg hmode, if_neg hsubject, if_neg hmessage, if_neg (by omega), if_neg (by omega)]

/-- What is checked of the templates of settings that pass. -/
theorem templates_of_validated (h : validateStored lib appEnv stored requireComplete = none) :
    (stored.defaultSubject ≠ [] ∧ byteLength stored.defaultSubject ≤ 255) ∧
      (stored.defaultMessage ≠ [] ∧ byteLength stored.defaultMessage ≤ 10 * 1024) ∧
      byteLength stored.footerText ≤ 2 * 1024 := by
  unfold validateStored at h
  dsimp only at h
  split_ifs at h with hfields
  simp only [Fields.check_eq_nil, Bool.or_eq_false_iff, decide_eq_false_iff_not, Nat.not_lt] at hfields
  obtain ⟨hfooter, hmessage, hsubject, _⟩ := hfields
  exact ⟨hsubject, hmessage, hfooter⟩

end SecureShare.Email
