import SecureShare.Auth.Clients
import SecureShare.Auth.SessionLifecycle
import SecureShare.Email.Settings
import SecureShare.Http.ClientAddress

/-!
# Requests and their credentials

What the handlers read of a request, the three credentials that it may carry, and the
actor that each of them stands for.
-/
namespace SecureShare.Http
open Go
open Auth (Actor Role Session SessionManager UserCreate UserPatch CaseFunctions Hmac)
open Delivery (UUID Bytes CreateRequest Dependencies)

inductive Method where
  | get | post | put | patch | delete
  | other (name : Text)
  deriving DecidableEq, Repr

def isStateChanging : Method → Bool
  | .post | .put | .patch | .delete => true
  | .get | .other _ => false

structure LoginBody where
  login : Text
  username : Text
  email : Text
  password : Text
  deriving DecidableEq, Repr

/-- `delivery.email` of a create request. -/
structure EmailRequest where
  send : Option Bool
  toAddress : Text
  recipientName : Text
  useDefaultTemplate : Bool
  subject : Text
  message : Text
  deriving DecidableEq, Repr

structure CreateLinkBody where
  request : CreateRequest
  email : Option EmailRequest
  sendEmail : Option Bool
  recipientEmail : Text
  deriving DecidableEq, Repr

structure SendEmailBody where
  token : Text
  toAddress : Text
  recipientName : Text
  useDefaultTemplate : Bool
  subject : Text
  message : Text
  deriving DecidableEq, Repr

structure CreateClientBody where
  name : Text
  scopes : List Text
  expiresAt : Text
  deriving DecidableEq, Repr

/-- The bodies that handlers decode. -/
inductive BodyKind where
  | login | theme | changePassword | createUser | patchUser | resetPassword | createClient
  | createLink | sendEmail | password | emailSettings | sendTest | preview | locale | prepare
  | consume
  deriving DecidableEq, Repr

def BodyKind.Body : BodyKind → Type
  | .login => LoginBody
  | .theme | .password | .sendTest | .locale | .prepare => Text
  | .changePassword | .consume => Text × Text
  | .createUser => UserCreate
  | .patchUser => UserPatch
  | .resetPassword => Text × Bool
  | .createClient => CreateClientBody
  | .createLink => CreateLinkBody
  | .sendEmail => SendEmailBody
  | .emailSettings => Email.UpdateRequest
  | .preview => Email.TemplateOverride

/-- Why `decodeJSON` fails. -/
inductive DecodeError where
  | mediaType | tooLarge | invalid
  deriving DecidableEq, Repr

/-- A header that is not sent is empty, and `path` is one that `ServeMux` does not clean.
`decode` is what `decodeJSON` makes of the body. -/
structure Request where
  method : Method
  path : Text
  connection : Connection
  tls : Bool
  forwardedProto : Text
  authorization : Text
  basicAuth : Option (Text × Text)
  cookie : Option Text
  csrfHeader : Text
  contentType : Text
  requestID : ByteString
  formParses : Bool
  form : Text → Text
  query : Text → Text
  decode : (kind : BodyKind) → Except DecodeError kind.Body

/-- Settings of the server that `Validate` does not look at. -/
structure Settings where
  legacyAdminAPIKeyEnabled : Bool
  developerEmailDeliveryEnabled : Bool
  swaggerUIEnabled : Bool
  openAPIPublic : Bool
  metricsEnabled : Bool

/-- The settings and the functions from outside that handlers rest on. -/
structure Server where
  cfg : Config
  settings : Settings
  manager : SessionManager
  deps : Dependencies
  hmac : Hmac
  sha256 : Text → Bytes
  hasher : IPHasher
  fns : CaseFunctions
  email : Email.Functions
  parseUUID : Text → Option UUID
  parseRFC3339 : Text → Option ℤ

namespace Request
variable (r : Request)

/-- `strings.EqualFold` with an ASCII text that has no `k` and no `s`. -/
def equalFold (s ascii : Text) : Bool := s.map Char.toLower = ascii

def bearerToken : Text :=
  if ' ' ∈ r.authorization ∧ equalFold (r.authorization.takeWhile (· ≠ ' ')) "bearer".toList then
    trimSpace (r.authorization.dropWhile (· ≠ ' ')).tail
  else []

/-- `https` folds with the long `s` as well. -/
def requestHTTPS : Bool :=
  r.tls || equalFold (r.forwardedProto.map fun c => if c = 'ſ' then 's' else c) "https".toList

def csrfTokenFromRequest : Text :=
  if r.csrfHeader ≠ [] then r.csrfHeader
  else if Config.contains r.contentType "application/x-www-form-urlencoded".toList ∨
      Config.contains r.contentType "multipart/form-data".toList then r.form "csrf_token".toList
  else []

end Request

namespace Server
variable (srv : Server) (r : Request)

def validAdminKey (value : Text) : Bool := srv.sha256 value = srv.sha256 srv.cfg.adminAPIKey

/-- The legacy key is accepted. -/
def acceptsBearer : Bool :=
  r.bearerToken ≠ [] && srv.settings.legacyAdminAPIKeyEnabled && srv.validAdminKey r.bearerToken

def validCSRF (session : Session) : Bool :=
  srv.manager.validCSRF session r.csrfTokenFromRequest

end Server

/-- The actor of the legacy key. -/
def legacyActor : Actor where
  actorID := "admin".toList
  permissions := Auth.permissionsForRole .admin
  bearer := true

/-- The actor of a session. -/
def sessionActor (session : Session) : Actor where
  actorID := session.actorID
  permissions := session.permissions
  userID := session.userID
  username := session.username
  email := session.email
  role := some session.role
  token := session.id

/-- `createdBy` is that of the metadata. -/
def canManageProtection (actor : Actor) (createdBy : Text) : Bool :=
  actor.apiClient || actor.bearer || actor.role = some .admin ||
    (actor.username ≠ [] && createdBy = actor.username)

def sampleUUID : Text := "00000000-0000-0000-0000-000000000007".toList

def sampleServer : Server where
  cfg := Delivery.sampleConfig
  settings := ⟨false, true, true, true, false⟩
  manager := Auth.sampleManager
  deps := Delivery.sampleDependencies
  hmac := Auth.sampleManager.hmac
  sha256 key := key.map fun c => UInt8.ofNat c.toNat
  hasher := ⟨fun _ ip => (ip ++ List.replicate 32 0).take 32, ascii "pepper"⟩
  fns := Auth.sampleCase
  email :=
    { toLower := fun s => s
      validateStored := fun _ _ => none
      render := fun _ _ _ => none
      parseAddress := fun _ => true
      untilText := fun _ _ => [] }
  parseUUID s := if s = sampleUUID then some 7 else none
  parseRFC3339 _ := none

/-- A request with the cookie and the CSRF token of the session with this ID. -/
def signedIn (id : Text) (method : Method) : Request where
  method := method
  path := []
  connection := ⟨ascii "192.0.2.7:40000", []⟩
  tls := false
  forwardedProto := []
  authorization := []
  basicAuth := none
  cookie := some (sampleServer.manager.sign id)
  csrfHeader := rawURLEncode (sampleServer.manager.hmac sampleServer.manager.csrfSecret id)
  contentType := []
  requestID := []
  formParses := true
  form _ := []
  query _ := []
  decode _ := .error .mediaType

end SecureShare.Http
