import SecureShare.Delivery.Repository
import SecureShare.Go.Bytes

/-!
# Audit events

The table `audit_events`, the ID that a request gets, and what decides whether a record
becomes a row.
-/
namespace SecureShare.Http
open Go
open Delivery (UUID emptyToNil storable)

/-- The ID of the request is any bytes that a header may hold. -/
structure AuditEventRecord where
  deliveryID : Option UUID := none
  actorID : Text := []
  type : Text
  result : Text
  ipHash : Text := []
  requestID : ByteString := []
  deriving DecidableEq, Repr

/-- A row, but for its own ID. -/
structure AuditEvent where
  deliveryID : Option UUID
  actorID : Option Text
  eventType : Text
  result : Text
  ipHash : Option Text
  requestID : Option Text
  occurredAt : ℤ
  deriving DecidableEq, Repr

/-- The list of the constraint on `event_type`. -/
def auditEventTypes : List Text :=
  ["secret.created".toList, "secret.consumed".toList, "secret.revoked".toList,
    "secret.expired".toList, "secret.password_failed".toList, "secret.password_set".toList,
    "secret.password_replaced".toList, "secret.password_removed".toList,
    "auth.login_succeeded".toList, "auth.login_failed".toList, "auth.logout".toList,
    "auth.password_changed".toList, "user.created".toList, "user.updated".toList,
    "user.disabled".toList, "user.enabled".toList, "user.password_reset".toList,
    "session.revoked".toList, "api_client.created".toList, "api_client.disabled".toList,
    "api_client.enabled".toList, "api_client.revoked".toList, "api_client.secret_rotated".toList,
    "email.settings_updated".toList, "email.password_updated".toList,
    "email.password_cleared".toList, "email.enabled".toList, "email.disabled".toList,
    "email.connection_test_succeeded".toList, "email.connection_test_failed".toList,
    "email.test_delivery_succeeded".toList, "email.test_delivery_failed".toList,
    "email.delivery_requested".toList, "email.delivery_succeeded".toList,
    "email.delivery_failed".toList, "email.delivery_retry_requested".toList,
    "email.delivery_retry_succeeded".toList, "email.delivery_retry_failed".toList,
    "email.template_override_used".toList, "application.public_locale_updated".toList]

/-- The text that the bytes are in UTF-8. -/
def decodeUTF8 (s : ByteString) : Option Text :=
  (ByteArray.utf8Decode? ⟨s.toArray⟩).map Array.toList

/-- The value of a column `varchar(n)`. Spaces beyond the limit are cut. -/
def varchar (n : ℕ) (s : Text) : Option Text :=
  if '\u0000' ∉ s ∧ (s.drop n).all (· = ' ') then some (s.take n) else none

/-- The value of such a column for an empty string or another. -/
def nullable (n : ℕ) (s : Text) : Option (Option Text) :=
  match emptyToNil s with
  | none => some none
  | some s => (varchar n s).map some

/-- The column `request_id`. -/
def requestIDColumn (requestID : ByteString) : Option (Option Text) :=
  (decodeUTF8 requestID).bind (nullable 128)

/-- The row of a record, unless a column cannot hold its value. -/
def AuditEventRecord.row (e : AuditEventRecord) (now : ℤ) : Option AuditEvent :=
  if e.type ∈ auditEventTypes then do
    let actorID ← nullable 255 e.actorID
    let eventType ← varchar 64 e.type
    let result ← varchar 64 (if e.result = [] then "success".toList else e.result)
    let ipHash ← nullable 128 e.ipHash
    let requestID ← requestIDColumn e.requestID
    some ⟨e.deliveryID, actorID, eventType, result, ipHash, requestID, now⟩
  else none

/-- `RecordAuditEvent` -/
def recordAuditEvent (now : ℤ) (links : Delivery.Table) (audit : List AuditEvent)
    (e : AuditEventRecord) : Option (List AuditEvent × Unit) :=
  if ∀ id ∈ e.deliveryID, links.find id ≠ none then (e.row now).map fun r => (r :: audit, ())
  else none

/-- What `newRequestID` writes: 16 random bytes, or the time as text without them. -/
structure RequestSeed where
  bytes : ByteString
  short : bytes.length ≤ 35

def hexDigits : Text := "0123456789abcdef".toList

/-- `hex.EncodeToString` -/
def hexEncode (bytes : ByteString) : Text :=
  bytes.flatMap fun b => [hexDigits.getD (b.toNat / 16) '0', hexDigits.getD (b.toNat % 16) '0']

def newRequestID (seed : RequestSeed) : ByteString :=
  (hexEncode seed.bytes).map fun c => UInt8.ofNat c.toNat

/-- The ID that `Logging` gives to a request with this header. -/
def requestID (header : ByteString) (seed : RequestSeed) : ByteString :=
  if header = [] then newRequestID seed else header

section
variable {n limit : ℕ} {s : Text} {e : AuditEventRecord} {now : ℤ}

theorem varchar_of_storable (h : storable limit s) (hlimit : limit ≤ n) : varchar n s = some s := by
  obtain ⟨hlength, hnul⟩ := h
  rw [varchar, List.drop_of_length_le (hlength.trans hlimit),
    List.take_of_length_le (hlength.trans hlimit)]
  exact if_pos ⟨hnul, rfl⟩

theorem nullable_of_storable (h : storable limit s) (hlimit : limit ≤ n) :
    (nullable n s).isSome := by
  unfold nullable emptyToNil
  split_ifs
  · rfl
  · dsimp only
    rw [varchar_of_storable h hlimit]
    rfl

/-- All columns but the ID of the request and that of the link can hold the record. -/
structure AuditEventRecord.WellFormed (e : AuditEventRecord) : Prop where
  actorID : storable 255 e.actorID
  type : e.type ∈ auditEventTypes
  result : storable 64 e.result
  ipHash : storable 128 e.ipHash

theorem varchar_type (h : s ∈ auditEventTypes) : varchar 64 s = some s := by
  have hall : ∀ s ∈ auditEventTypes, storable 64 s := by decide
  exact varchar_of_storable (hall s h) le_rfl

theorem AuditEventRecord.WellFormed.row_isSome (h : e.WellFormed) (now : ℤ) :
    (e.row now).isSome ↔ (requestIDColumn e.requestID).isSome := by
  obtain ⟨actorID, hactor⟩ := Option.isSome_iff_exists.mp (nullable_of_storable h.actorID le_rfl)
  obtain ⟨ipHash, hip⟩ := Option.isSome_iff_exists.mp (nullable_of_storable h.ipHash le_rfl)
  have hresult : ∃ result,
      varchar 64 (if e.result = [] then "success".toList else e.result) = some result := by
    split_ifs
    · exact ⟨_, varchar_of_storable (by decide : storable 64 "success".toList) le_rfl⟩
    · exact ⟨_, varchar_of_storable h.result le_rfl⟩
  obtain ⟨result, hresult⟩ := hresult
  rw [row, if_pos h.type, hactor, varchar_type h.type, hresult, hip]
  cases requestIDColumn e.requestID <;> simp

/-- A record that all columns can hold becomes one row, if its link exists. -/
theorem AuditEventRecord.WellFormed.recordAuditEvent_isSome {links : Delivery.Table}
    {audit : List AuditEvent} (h : e.WellFormed) :
    (recordAuditEvent now links audit e).isSome ↔
      (requestIDColumn e.requestID).isSome ∧ ∀ id ∈ e.deliveryID, links.find id ≠ none := by
  rw [← h.row_isSome now, recordAuditEvent]
  split_ifs with hlinks
  · rw [Option.isSome_map, and_iff_left hlinks]
  · simp only [Option.isSome_none, Bool.false_eq_true, false_iff]
    exact fun h => hlinks h.2

end

/-- ASCII text is its own encoding. -/
theorem decodeUTF8_of_ascii {s : Text}
    (h : ∀ c ∈ s, String.utf8EncodeChar c = [UInt8.ofNat c.toNat]) :
    decodeUTF8 (s.map fun c => UInt8.ofNat c.toNat) = some s := by
  have hflat : s.flatMap String.utf8EncodeChar = s.map fun c => UInt8.ofNat c.toNat := by
    rw [List.flatMap_congr h, ← List.map_eq_flatMap]
  have hbytes : (⟨(s.map fun c => UInt8.ofNat c.toNat).toArray⟩ : ByteArray) = s.utf8Encode := by
    rw [List.utf8Encode, hflat, ← List.data_toByteArray]
  rw [decodeUTF8, hbytes, List.utf8Decode?_utf8Encode]
  simp

theorem mem_hexEncode {bytes : ByteString} {c : Char} (hc : c ∈ hexEncode bytes) : c ∈ hexDigits := by
  have hdigit : ∀ i, hexDigits.getD i '0' ∈ hexDigits := by
    intro i
    rw [List.getD_eq_getElem?_getD]
    cases hi : hexDigits[i]? with
    | none => decide
    | some c => exact List.mem_of_getElem? hi
  obtain ⟨b, _, hc⟩ := List.mem_flatMap.mp hc
  rcases List.mem_pair.mp hc with rfl | rfl
  · exact hdigit _
  · exact hdigit _

/-- The ID that the server draws fits. -/
theorem requestIDColumn_newRequestID (seed : RequestSeed) :
    (requestIDColumn (newRequestID seed)).isSome := by
  have hlength : (hexEncode seed.bytes).length = seed.bytes.length * 2 := by
    rw [hexEncode, List.length_flatMap]
    simp
  have hall : hexDigits.all fun c => String.utf8EncodeChar c = [UInt8.ofNat c.toNat] := by
    decide +kernel
  have hascii : ∀ c ∈ hexDigits, String.utf8EncodeChar c = [UInt8.ofNat c.toNat] := by
    simpa using List.all_eq_true.mp hall
  have hnul : '\u0000' ∉ hexDigits := by decide
  rw [requestIDColumn, newRequestID, decodeUTF8_of_ascii fun c hc => hascii c (mem_hexEncode hc)]
  have hshort := seed.short
  exact nullable_of_storable ⟨by omega, fun h => hnul (mem_hexEncode h)⟩ (le_refl 128)

end SecureShare.Http
