import SecureShare.Email.Validation
import SecureShare.Delivery.Create

/-!
# Templates

A template is checked before the values are put in for its placeholders, and only its own
text is: what is rendered holds the values as they are.
-/
namespace SecureShare.Email
open Go
open Delivery (bind_eq_ok)

/-- `formatTime` writes a time in UTC as RFC 3339 has it, and `formatAddress` is
`mail.Address.String`. -/
structure MailLibraries extends Libraries where
  formatTime : ℤ → Text
  formatAddress : Text → Text → Text

/-- `strings.Contains` for two characters. -/
@[grind =] def containsPair (a b : Char) : Text → Bool
  | x :: y :: s => (x = a && y = b) || containsPair a b (y :: s)
  | _ => false

/-- `strings.Split` at two characters. -/
@[grind =] def splitPair (a b : Char) : Text → List Text
  | x :: y :: s =>
    if x = a ∧ y = b then [] :: splitPair a b s
    else (splitPair a b (y :: s)).modifyHead (x :: ·)
  | s => [s]

/-- `strings.ReplaceAll(s, "\r\n", "\n")` -/
@[grind =] def replaceCRLF : Text → Text
  | x :: y :: s => if x = '\r' ∧ y = '\n' then '\n' :: replaceCRLF s else x :: replaceCRLF (y :: s)
  | s => s

/-- `html.EscapeString` -/
def escapeString (s : Text) : Text :=
  s.flatMap fun c =>
    if c = '&' then "&amp;".toList
    else if c = '\u0027' then "&#39;".toList
    else if c = '<' then "&lt;".toList
    else if c = '>' then "&gt;".toList
    else if c = '\u0022' then "&#34;".toList
    else [c]

/-- What `\s` matches. -/
def isPatternSpace (c : Char) : Bool :=
  c = '\t' || c = '\n' || c = '\u000C' || c = '\r' || c = ' '

/-- What `[A-Za-z0-9_]` matches. -/
def isWordRune (c : Char) : Bool := isAlphanumeric c || c = '_'

/-- A template is its own text and the placeholders that the pattern finds. -/
inductive Piece where
  | literal (c : Char)
  | placeholder (name : Text)
  deriving DecidableEq, Repr

/-- The name in a match of `placeholderPattern` at the start of the text, and the length of
the match. -/
def matchPlaceholder (s : Text) : Option (Text × ℕ) :=
  let fromName := (s.drop 2).dropWhile isPatternSpace
  let name := fromName.takeWhile isWordRune
  let rest := (fromName.dropWhile isWordRune).dropWhile isPatternSpace
  if s.take 2 = ['{', '{'] ∧ name ≠ [] ∧ rest.take 2 = ['}', '}'] then
    some (name, s.length - rest.length + 2)
  else none

/-- The pieces from here, where so many characters still belong to the last match. -/
@[grind =] def piecesFrom : ℕ → Text → List Piece
  | _, [] => []
  | n + 1, _ :: s => piecesFrom n s
  | 0, c :: s =>
    match matchPlaceholder (c :: s) with
    | some (name, length) => .placeholder name :: piecesFrom (length - 1) s
    | none => .literal c :: piecesFrom 0 s

def pieces (template : Text) : List Piece := piecesFrom 0 template

def Piece.name? : Piece → Option Text
  | .literal _ => none
  | .placeholder name => some name

def Piece.literal? : Piece → Option Char
  | .literal c => some c
  | .placeholder _ => none

/-- The values of the placeholders. -/
abbrev Values := List (Text × Text)

def Values.get (values : Values) (name : Text) : Text := (values.lookup name).getD []

def Piece.text (values : Values) : Piece → Text
  | .literal c => [c]
  | .placeholder name => values.get name

def substitute (values : Values) (template : Text) : Text :=
  (pieces template).flatMap (Piece.text values)

def messagePlaceholders : List Text :=
  ["secure_link".toList, "secret_title".toList, "recipient_name".toList,
    "recipient_email".toList, "sender_name".toList, "expires_at".toList, "expires_in".toList,
    "product_name".toList, "support_email".toList]

def subjectPlaceholders : List Text :=
  ["secret_title".toList, "product_name".toList, "sender_name".toList]

/-- Every error of this module wraps `ErrInvalid`. -/
def renderPlaceholders (template : Text) (values : Values) (allowed : List Text) :
    Except Text Text :=
  if containsPair '{' '{' template || containsPair '}' '}' template then
    match ((pieces template).filterMap Piece.name?).find? (· ∉ allowed) with
    | some name => .error ("unsupported placeholder ".toList ++ name)
    | none =>
      let stripped := (pieces template).filterMap Piece.literal?
      if containsPair '{' '{' stripped || containsPair '}' '}' stripped then
        .error "malformed placeholder".toList
      else .ok (substitute values template)
  else .ok (substitute values template)

def templateContainsPlaceholder (template name : Text) : Bool := .placeholder name ∈ pieces template

/-- `time.Time{}`, in nanoseconds since 1970. -/
def zeroTime : ℤ := -62135596800 * 10 ^ 9

def placeholderValues (lib : MailLibraries) (ctx : TemplateContext) : Values :=
  let recipientName := if trimSpace ctx.recipientName = [] then "there".toList
    else trimSpace ctx.recipientName
  let productName := if trimSpace ctx.productName = [] then "SecureShare".toList
    else trimSpace ctx.productName
  let senderName := if trimSpace ctx.senderName = [] then productName else trimSpace ctx.senderName
  let expiresAt := if ctx.expiresAt = zeroTime then "the configured expiration time".toList
    else lib.formatTime ctx.expiresAt
  [("secure_link".toList, trimSpace ctx.secureLink),
    ("secret_title".toList, trimSpace ctx.secretTitle),
    ("recipient_name".toList, recipientName),
    ("recipient_email".toList, trimSpace ctx.recipientEmail),
    ("sender_name".toList, senderName),
    ("expires_at".toList, expiresAt),
    ("expires_in".toList, trimSpace ctx.expiresIn),
    ("product_name".toList, productName),
    ("support_email".toList, trimSpace ctx.supportEmail)]

structure Templates where
  subject : Text
  message : Text
  footer : Text
  source : TemplateSource
  deriving DecidableEq, Repr

/-- Templates of the next origin, if one of them is not blank, take the place of these. -/
def Templates.replacedBy (t : Templates) (source : TemplateSource) (subject message footer : Text) :
    Templates :=
  if trimSpace subject ≠ [] ∨ trimSpace message ≠ [] ∨ trimSpace footer ≠ [] then
    { subject := if trimSpace subject ≠ [] then subject else t.subject
      message := if trimSpace message ≠ [] then message else t.message
      footer := footer
      source := source }
  else t

def resolveTemplates (settings : Settings) (override : Option TemplateOverride) : Templates :=
  let fallback : Templates := ⟨defaultSubject, defaultMessage, [], .fallback⟩
  let global := fallback.replacedBy .globalDefault settings.defaultSubject settings.defaultMessage
    settings.footerText
  match override with
  | none => global
  | some o => global.replacedBy .perDelivery o.subject o.message o.footer

def hasDisallowedControl (value : Text) : Bool :=
  value.any fun r => r.toNat < 32 && r ≠ '\n' && r ≠ '\r' && r ≠ '\t'

def validateTemplateInput (t : Templates) : Except Text Unit :=
  if 255 < byteLength t.subject then .error "subject template is too long".toList
  else if 10 * 1024 < byteLength t.message then .error "message template is too long".toList
  else if 2 * 1024 < byteLength t.footer then .error "footer is too long".toList
  else if [t.subject, t.message, t.footer].any hasDisallowedControl then
    .error "template contains disallowed control characters".toList
  else .ok ()

def splitParagraphs (text : Text) : List Text :=
  let chunks := splitPair '\n' '\n' (replaceCRLF text)
  let chunks := chunks.map fun chunk => (chunk.dropWhile (· = '\n')).rdropWhile (· = '\n')
  chunks.filter fun chunk => trimSpace chunk ≠ []

def textToHTML (subject text : Text) : Text :=
  ("<!doctype html><html><body style=\"margin:0;padding:24px;background:#f6f8f7;" ++
      "color:#16211f;font-family:Arial,sans-serif;\">" ++
    "<main style=\"max-width:640px;margin:0 auto;background:#ffffff;" ++
      "border:1px solid #dfe6e3;padding:24px;\">" ++
    "<h1 style=\"font-size:20px;line-height:1.3;margin:0 0 16px;\">").toList ++
  escapeString subject ++ "</h1>".toList ++
  (splitParagraphs text).flatMap (fun paragraph =>
    "<p style=\"font-size:15px;line-height:1.6;margin:0 0 14px;\">".toList ++
    "<br>".toList.intercalate ((paragraph.splitOn '\n').map escapeString) ++ "</p>".toList) ++
  ("<p style=\"font-size:13px;line-height:1.5;margin:18px 0 0;color:#64716d;\">" ++
    "This email contains only a one-time link. The secret value is never included in email.</p>" ++
    "</main></body></html>").toList

/-- The length of the subject is checked again with the values put in. -/
def validateSubject (subject : Text) : Except Text Unit :=
  if 255 < byteLength subject then .error "subject is too long".toList else .ok ()

/-- The link is appended where the message does not place it. -/
def withLink (ctx : TemplateContext) (template message : Text) : Text :=
  if templateContainsPlaceholder template "secure_link".toList then message
  else message.rdropWhile (fun c => c = '\r' || c = '\n') ++
    "\n\nOpen the secure secret using this one-time link:\n".toList ++ ctx.secureLink

def renderFooter (footer : Text) (values : Values) : Except Text Text :=
  if trimSpace footer ≠ [] then
    (renderPlaceholders footer values messagePlaceholders).map ("\n\n".toList ++ ·)
  else .ok []

/-- `Render` -/
def render (lib : MailLibraries) (settings : Settings) (override : Option TemplateOverride)
    (ctx : TemplateContext) : Except Text RenderedTemplate := do
  let t := resolveTemplates settings override
  validateTemplateInput t
  let values := placeholderValues lib ctx
  let subject ← renderPlaceholders t.subject values subjectPlaceholders
  validateSubject subject
  let message ← renderPlaceholders t.message values messagePlaceholders
  let footer ← renderFooter t.footer values
  let text := withLink ctx t.message message ++ footer
  .ok ⟨subject, text, textToHTML subject text, t.source⟩

variable {lib : MailLibraries} {settings : Settings} {override : Option TemplateOverride}
  {ctx : TemplateContext} {rendered : RenderedTemplate} {template : Text} {values : Values}
  {allowed : List Text} {text : Text}

/-- What is rendered is the template with the values put in. -/
theorem renderPlaceholders_eq_substitute
    (h : renderPlaceholders template values allowed = .ok text) : text = substitute values template := by
  unfold renderPlaceholders at h
  split at h
  · split at h
    · cases h
    · dsimp only at h
      split at h
      · cases h
      · exact (Except.ok.inj h).symm
  · exact (Except.ok.inj h).symm

theorem render_subject (h : render lib settings override ctx = .ok rendered) :
    rendered.subject =
      substitute (placeholderValues lib ctx) (resolveTemplates settings override).subject := by
  simp only [render, bind_eq_ok] at h
  obtain ⟨_, _, subject, hsubject, _, _, _, _, _, _, h⟩ := h
  cases h
  exact renderPlaceholders_eq_substitute hsubject

end SecureShare.Email
