import SecureShare.Delivery.Model
import SecureShare.Go.Json

/-!
# Secret payloads

The canonical JSON form in which a secret is encrypted, and the way back after
decryption. A create request carries either a payload or, in the older form, a
bare JSON value; both are normalised and marshalled once. The plaintext of a
delivery is parsed and normalised again before it is answered.
-/
namespace SecureShare.Delivery
open Go Go.Json
open Library.Json (Lexeme Token textOf arrayTokens rawText)

/-- The pattern `^[A-Za-z0-9_.-]+$`. -/
def structuredFieldName (name : Text) : Bool :=
  name != [] && name.all fun c => c.isAlphanum || c == '_' || c == '.' || c == '-'

def hasControlCharacters (value : Text) : Bool :=
  value.any fun r => r.toNat < 0x20 || r.toNat == 0x7f

/-- The loop of `normalizePayload`; `seen` holds the lower-case names so far. -/
@[grind =] def normalizeFields : List Text → List StructuredSecretField →
    Option (List StructuredSecretField)
  | _, [] => some []
  | seen, field :: fields =>
    let name := trimSpace field.name
    let label := if trimSpace field.label = [] then name else trimSpace field.label
    let key := toLower name
    if name = [] ∨ 100 < byteLength name ∨ 100 < byteLength label ∨ key ∈ seen ∨
        structuredFieldName name = false ∨ hasControlCharacters name = true then none
    else (normalizeFields (key :: seen) fields).map
      ({ field with name := name, label := label } :: ·)

def normalizePayload (payload : SecretPayload) :
    Except ServiceError (SecretPayload × PayloadSummary) :=
  let type := trimSpace (toLower payload.type)
  if type = "structured".toList then
    if payload.fields = [] ∨ 50 < payload.fields.length then .error { kind := .invalidRequest }
    else match normalizeFields [] payload.fields with
      | none => .error { kind := .invalidRequest }
      | some fields => .ok (⟨"structured".toList, fields, [], []⟩,
          ⟨"structured".toList, fields.length, fields.any (·.sensitive)⟩)
  else if type = "text".toList then
    .ok (⟨"text".toList, [], payload.text, []⟩, ⟨"text".toList, 0, false⟩)
  else if type = "json".toList then
    if payload.value = [] ∨ valid payload.value = false then .error { kind := .invalidRequest }
    else .ok (⟨"json".toList, [], [], payload.value⟩, ⟨"json".toList, 0, false⟩)
  else .error { kind := .invalidRequest }

def StructuredSecretField.tokens (f : StructuredSecretField) : List Token :=
  structTokens [("name".toList, [stringToken f.name]), ("label".toList, [stringToken f.label]),
    ("value".toList, [stringToken f.value]), ("sensitive".toList, [.bool f.sensitive]),
    ("multiline".toList, [.bool f.multiline])]

/-- The members that `omitempty` keeps, once the raw value is compacted. -/
def SecretPayload.memberTokens (p : SecretPayload) (value : List Token) :
    List (Text × List Token) :=
  [("type".toList, [stringToken p.type])] ++
    (if p.fields = [] then [] else
      [("fields".toList, arrayTokens (p.fields.map StructuredSecretField.tokens))]) ++
    (if p.text = [] then [] else [("text".toList, [stringToken p.text])]) ++
    if p.value = [] then [] else [("value".toList, value)]

/-- `json.Marshal` of a payload fails only when its raw value is no JSON. -/
def SecretPayload.tokens (p : SecretPayload) : Option (List Token) :=
  if p.value = [] then some (structTokens (p.memberTokens []))
  else (compact p.value).map fun value => structTokens (p.memberTokens value)

def SecretPayload.marshal (p : SecretPayload) : Option Text := p.tokens.map textOf

def marshalPayload (payload : SecretPayload) : Except ServiceError (Text × PayloadSummary) :=
  match normalizePayload payload with
  | .error e => .error e
  | .ok (normalized, summary) =>
    match normalized.marshal with
    | none => .error { kind := .invalidRequest }
    | some raw => .ok (raw, summary)

/-- `json.Unmarshal` into a string variable that starts empty. -/
def unmarshalString (s : Text) : Option Text := (scan s).bind fun ls => setString [] ls

def legacyPayload (secret : Text) : Except ServiceError SecretPayload :=
  if valid secret = false then .error { kind := .invalidRequest }
  else match unmarshalString secret with
    | some text => .ok ⟨"text".toList, [], text, []⟩
    | none => .ok ⟨"json".toList, [], [], secret⟩

/-- The payload a create request stands for. -/
def requestedPayload (req : CreateRequest) : Except ServiceError SecretPayload :=
  match req.payload with
  | some payload => .ok payload
  | none =>
    if req.secret = [] ∨ req.secret = "null".toList then .error { kind := .invalidRequest }
    else legacyPayload req.secret

def canonicalPayload (req : CreateRequest) : Except ServiceError (Text × PayloadSummary) :=
  match requestedPayload req with
  | .error e => .error e
  | .ok payload => marshalPayload payload

/-- A slice that is decoded into: the elements behind its length keep what an
earlier array of the same text left there. -/
structure FieldSlice where
  visible : List StructuredSecretField
  hidden : List StructuredSecretField

def fieldNames : List Text :=
  ["name".toList, "label".toList, "value".toList, "sensitive".toList, "multiline".toList]

def setMember (f : StructuredSecretField) (m : Text × List Lexeme) :
    Option StructuredSecretField :=
  let name := fieldNamed fieldNames m.1
  if name = some "name".toList then (setString f.name m.2).map fun v => { f with name := v }
  else if name = some "label".toList then
    (setString f.label m.2).map fun v => { f with label := v }
  else if name = some "value".toList then
    (setString f.value m.2).map fun v => { f with value := v }
  else if name = some "sensitive".toList then
    (setBool f.sensitive m.2).map fun v => { f with sensitive := v }
  else if name = some "multiline".toList then
    (setBool f.multiline m.2).map fun v => { f with multiline := v }
  else some f

def setField (f : StructuredSecretField) (ls : List Lexeme) : Option StructuredSecretField :=
  match view ls with
  | .object ms => ms.foldlM setMember f
  | .null => some f
  | _ => none

/-- Decodes the elements of an array over the slots that are there already. -/
@[grind =] def setElements : List StructuredSecretField → List (List Lexeme) →
    Option (List StructuredSecretField)
  | _, [] => some []
  | slots, e :: es =>
    (setField (slots.headD .zero) e).bind fun f =>
      (setElements slots.tail es).map fun fs => f :: fs

def setFields (s : FieldSlice) (ls : List Lexeme) : Option FieldSlice :=
  match view ls with
  | .array [] => some ⟨[], []⟩
  | .array es =>
    (setElements (s.visible ++ s.hidden) es).map fun fs =>
      ⟨fs, (s.visible ++ s.hidden).drop es.length⟩
  | .null => some ⟨[], []⟩
  | _ => none

/-- A payload while it is decoded. -/
structure Decoding where
  type : Text
  fields : FieldSlice
  text : Text
  value : Text

def payloadNames : List Text := ["type".toList, "fields".toList, "text".toList, "value".toList]

def setPayloadMember (d : Decoding) (m : Text × List Lexeme) : Option Decoding :=
  let name := fieldNamed payloadNames m.1
  if name = some "type".toList then (setString d.type m.2).map fun v => { d with type := v }
  else if name = some "fields".toList then
    (setFields d.fields m.2).map fun v => { d with fields := v }
  else if name = some "text".toList then (setString d.text m.2).map fun v => { d with text := v }
  else if name = some "value".toList then some { d with value := rawText m.2 }
  else some d

def Decoding.payload (d : Decoding) : SecretPayload := ⟨d.type, d.fields.visible, d.text, d.value⟩

/-- `json.Unmarshal` into a zero payload. -/
def unmarshalPayload (s : Text) : Option SecretPayload :=
  (scan s).bind fun ls =>
    match view ls with
    | .object ms => (ms.foldlM setPayloadMember ⟨[], ⟨[], []⟩, [], []⟩).map Decoding.payload
    | .null => some ⟨[], [], [], []⟩
    | _ => none

/-- Assignment in a map that is kept in the order in which it is marshalled. -/
def assign (key value : Text) : List (Text × Text) → List (Text × Text)
  | [] => [(key, value)]
  | (k, v) :: rest =>
    if key = k then (key, value) :: rest
    else if key < k then (key, value) :: (k, v) :: rest
    else (k, v) :: assign key value rest

def legacyProjection (payload : SecretPayload) : Option Text :=
  if payload.type = "structured".toList then
    let values := payload.fields.foldl (fun m f => assign f.name f.value m) []
    some (textOf (structTokens (values.map fun m => (m.1, [stringToken m.2]))))
  else if payload.type = "text".toList then some (textOf [stringToken payload.text])
  else if payload.type = "json".toList then some payload.value
  else none

/-- The canonical payload and the legacy secret. Its only caller replaces every
error by its own, so the errors are not told apart. -/
def normalizeConsumedPayload (plaintext : Text) : Option (Text × Text) :=
  if valid plaintext = false then none
  else match (unmarshalPayload plaintext).bind fun p => (normalizePayload p).toOption with
    | some (normalized, _) =>
      normalized.marshal.bind fun canonical =>
        (legacyProjection normalized).map fun legacy => (canonical, legacy)
    | none =>
      match legacyPayload plaintext with
      | .error _ => none
      | .ok payload => (marshalPayload payload).toOption.map fun r => (r.1, plaintext)

end SecureShare.Delivery
