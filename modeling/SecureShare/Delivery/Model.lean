import SecureShare.Go.Duration
import SecureShare.Go.Text

/-!
# Delivery data model

The values that pass between the HTTP layer, the service and the repository.
A time of the database is an integer number of microseconds, a time of Go one of
nanoseconds; byte strings that hold JSON are texts.
-/
namespace SecureShare.Delivery
open Go

abbrev UUID := BitVec 128

instance : LawfulBEq UUID := inferInstance

abbrev Bytes := List UInt8

inductive Status where
  | active | consuming | consumed | expired | revoked
  deriving DecidableEq, Repr

/-- No statement leaves these. -/
def Status.terminal : Status → Bool
  | .consumed | .expired | .revoked => true
  | .active | .consuming => false

structure StructuredSecretField where
  name : Text
  label : Text
  value : Text
  sensitive : Bool
  multiline : Bool
  deriving DecidableEq, Repr

/-- The zero value, which decoding starts from. -/
def StructuredSecretField.zero : StructuredSecretField := ⟨[], [], [], false, false⟩

/-- An empty field is one that `omitempty` leaves out. `value` is raw JSON. -/
structure SecretPayload where
  type : Text
  fields : List StructuredSecretField
  text : Text
  value : Text
  deriving DecidableEq, Repr

structure PayloadSummary where
  type : Text
  fieldCount : ℕ
  containsSensitive : Bool
  deriving DecidableEq, Repr

structure CreateRequest where
  title : Text
  description : Text
  recipientReference : Text
  secret : Text
  payload : Option SecretPayload
  expiresInSeconds : Int64
  password : Option Text
  maxFailedAttempts : ℤ
  deriving DecidableEq, Repr

/-- `expiresAt` is a time of Go. The status is always active. -/
structure InsertParams where
  id : UUID
  tokenHash : Bytes
  encryptedPayload : Text
  title : Text
  description : Text
  recipientReference : Text
  expiresAt : ℤ
  passwordHash : Option Text
  maxFailedAttempts : ℤ
  createdBy : Text
  payloadType : Text
  payloadFieldCount : ℕ
  containsSensitive : Bool
  deriving DecidableEq, Repr

structure CreateResponse where
  id : UUID
  url : Text
  expiresAt : ℤ
  deriving DecidableEq, Repr

structure ConsumeCandidate where
  id : UUID
  encryptedPayload : Text
  passwordHash : Option Text
  failedAttempts : ℤ
  maxFailedAttempts : ℤ
  deriving DecidableEq, Repr

structure ConsumeResponse where
  secret : Text
  payload : Text
  deriving DecidableEq, Repr

/-- `status` is `none` for the text `unavailable`. -/
structure RevokeResult where
  id : UUID
  status : Option Status
  revoked : Bool
  found : Bool
  deriving DecidableEq, Repr

structure PasswordFailureResult where
  id : UUID
  updated : Bool
  locked : Bool
  deriving DecidableEq, Repr

structure ProtectionUpdateResult where
  id : UUID
  passwordProtected : Bool
  wasProtected : Bool
  updated : Bool
  deriving DecidableEq, Repr

structure PrepareResponse where
  mayAttempt : Bool
  passwordRequired : Bool
  expiresAt : Option ℤ
  deriving DecidableEq, Repr

structure CleanupResult where
  expired : ℕ
  payloadsCleared : ℕ
  leasesRestored : ℕ
  deriving DecidableEq, Repr

/-- The sentinel errors of the package. -/
inductive ErrorKind where
  | invalidRequest | unauthorized | forbidden | secretUnavailable | linkPasswordInvalid
  | payloadTooLarge | dependencyUnavailable | internal
  deriving DecidableEq, Repr

/-- A sentinel, wrapped with a detail unless that is empty. -/
structure ServiceError where
  kind : ErrorKind
  detail : String := ""
  deriving DecidableEq, Repr

end SecureShare.Delivery
