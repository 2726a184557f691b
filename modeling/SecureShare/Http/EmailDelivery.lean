import SecureShare.Email.Settings

/-!
# The email that a link is sent in

What a request to create a link asks for, and what the templates are given for it.
-/
namespace SecureShare.Http
open Go
open Delivery (CreateRequest)
open Email (Settings TemplateOverride TemplateContext)

structure EmailDeliveryRequest where
  send : Option Bool
  toAddress : Text
  recipientName : Text
  useDefaultTemplate : Bool
  subject : Text
  message : Text
  deriving DecidableEq, Repr

/-- The rest of `CreateRequest`, which only the handler reads. `delivery` is the object
with its member `email`. -/
structure CreateLinkRequest extends CreateRequest where
  delivery : Option (Option EmailDeliveryRequest)
  sendEmail : Option Bool
  recipientEmail : Text
  deriving DecidableEq, Repr

structure EmailDeliveryPlan where
  requested : Bool
  toAddress : Text
  recipientName : Text
  useDefaultTemplate : Bool
  subject : Text
  message : Text
  deriving DecidableEq, Repr

def emailDeliveryFromCreate (req : CreateLinkRequest) : EmailDeliveryPlan :=
  match req.delivery with
  | some (some e) =>
    ⟨e.send.getD false, e.toAddress, e.recipientName, e.useDefaultTemplate, e.subject, e.message⟩
  | some none | none => ⟨req.sendEmail = some true, req.recipientEmail, [], true, [], []⟩

def emailOverride (req : EmailDeliveryPlan) : Option TemplateOverride :=
  if req.useDefaultTemplate then none else some ⟨req.subject, req.message, []⟩

/-- `untilText` writes how long it is until a time. -/
def emailTemplateContext (untilText : ℤ → ℤ → Text) (now : ℤ) (settings : Settings)
    (req : EmailDeliveryPlan) (title secureLink : Text) (expiresAt : ℤ) : TemplateContext where
  secureLink := secureLink
  secretTitle := title
  recipientName := req.recipientName
  recipientEmail := req.toAddress
  senderName := settings.fromName
  expiresAt := expiresAt
  expiresIn := untilText now expiresAt
  productName := "SecureShare".toList
  supportEmail := settings.replyToEmail

end SecureShare.Http
