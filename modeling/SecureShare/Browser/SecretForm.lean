import SecureShare.Browser.Json
import SecureShare.Delivery.Create
import SecureShare.Delivery.RoundTrip

/-!
# A JSON secret from the form to the reveal page

The document that is typed is parsed and written again in the browser of the sender, made
canonical by the server, and parsed and written again in the browser of the recipient. The server
changes the spelling of strings at most. The browsers keep everything but the numbers, and a
number is kept exactly if it is one that the language prints.
-/
namespace SecureShare.Browser
open Go Go.Json Delivery Library.Binary64
open Library.Json (Document Lexeme Number Token Units Value charUnits compacted denote lookupLast
  parse parse_spacedText quote readTokens spacedText textOf unitsOf)

variable {fmt : NumberFormat} {cfg : Config} {req : CreateRequest} {raw t : Text}

/-- A name or string of the program. -/
def units (s : Text) : Units := s.flatMap charUnits

/-- What `trim` removes. -/
def isTrimmed (c : Char) : Bool := (Go.isSpace c && c != '\u0085') || c == '\uFEFF'

/-- `plainPayload` in the JSON mode of the form. -/
def plainPayload (raw : Text) : Option JSValue :=
  if raw.all isTrimmed then none
  else (parseJSON raw).map fun value =>
    .object [(units "type".toList, .string (units "json".toList)), (units "value".toList, value)]

/-- `MAX_SECRET_BYTES` -/
def maxSecretBytes : ℕ := 32768

/-- `validateSize` -/
def validateSize (fmt : NumberFormat) (payload : JSValue) : Option Unit :=
  if maxSecretBytes < byteLength (fmt.stringify payload) then none else some ()

/-- The plaintext that the server encrypts for a create request with this payload. -/
def storedPayload (cfg : Config) (req : CreateRequest) (payload : Text) : Option Text :=
  (unmarshalPayload payload).bind fun p =>
    let req := { req with payload := some p }
    (canonicalPayload req).toOption.bind fun canonical =>
      (validateCreate cfg req canonical.1).toOption.map fun _ => canonical.1

/-- The body of the answer to a consume request. The encoder compacts the two raw messages and
ends the line. -/
def consumeResponse (plaintext : Text) : Option Text :=
  (normalizeConsumedPayload plaintext).bind fun (payload, secret) =>
    (compact secret).bind fun secret =>
      (compact payload).map fun payload =>
        textOf (structTokens [("secret".toList, secret), ("payload".toList, payload)]) ++ ['\n']

/-- A property of a value, if it has one with this name. -/
def property (name : Text) : JSValue → Option JSValue
  | .object ms => ms.lookup (units name)
  | _ => none

/-- The text that `renderSecret` shows and copies for a payload of type json. -/
def renderSecret (fmt : NumberFormat) (payload : JSValue) : Option Text :=
  match property "type".toList payload with
  | some (.string type) =>
    if type = units "json".toList then
      (property "value".toList payload).map fmt.stringifyIndented
    else none
  | _ => none

/-- What the recipient sees of the document that the sender typed. -/
def shown (fmt : NumberFormat) (cfg : Config) (req : CreateRequest) (raw : Text) : Option Text := do
  let payload ← plainPayload raw
  let _ ← validateSize fmt payload
  let plaintext ← storedPayload cfg req (fmt.stringify payload)
  let response ← consumeResponse plaintext
  let body ← parseJSON response
  let payload ← property "payload".toList body
  renderSecret fmt payload

/-- The document with the two members of the payload around it. -/
def payloadDocument (v : Document Number) : Document Number :=
  .object [(units "type".toList, .string (units "json".toList)), (units "value".toList, v)]

/-- The payload as the server has it. -/
def jsonPayload (v : Document Number) : SecretPayload :=
  ⟨"json".toList, [], [], textOf v.write⟩

def responseDocument (v : Document Number) : Document Number :=
  .object [(units "secret".toList, v), (units "payload".toList, payloadDocument v)]

theorem textOf_write_ne_nil (v : Document Number) : textOf v.write ≠ [] := by
  obtain ⟨t, ts, hv, _⟩ := Library.Json.write_eq_cons v
  rw [hv, Library.Json.textOf_cons]
  exact List.append_ne_nil_of_left_ne_nil t.text_ne_nil _

/-- The names and strings of the program need no escape. -/
theorem quote_units : quote (units "type".toList) = Library.Json.encode "type".toList ∧
    quote (units "value".toList) = Library.Json.encode "value".toList ∧
    quote (units "json".toList) = Library.Json.encode "json".toList ∧
    quote (units "secret".toList) = Library.Json.encode "secret".toList ∧
    quote (units "payload".toList) = Library.Json.encode "payload".toList := by
  decide

theorem structTokens_pair (a b : Text) (u w : List Token) : structTokens [(a, u), (b, w)] =
    .beginObject :: .string (Library.Json.encode a) :: .colon :: (u ++ .comma ::
      .string (Library.Json.encode b) :: .colon :: (w ++ [.endObject])) := by
  simp [structTokens, Library.Json.objectTokens, Library.Json.joinCommas,
    Library.Json.memberTokens]

theorem escapeHTML_encode (s : Text) :
    (Token.string (Library.Json.encode s)).escapeHTML = .string (Library.Json.encode s) := by
  rw [Token.escapeHTML, Library.Json.encode, List.map_map]
  refine congrArg Token.string (List.map_congr_left fun c _ => ?_)
  exact Library.Json.escapeHTML_encodeChar c

theorem map_structTokens_pair (a b : Text) (u w : List Token) :
    (structTokens [(a, u), (b, w)]).map Token.escapeHTML =
      structTokens [(a, u.map Token.escapeHTML), (b, w.map Token.escapeHTML)] := by
  simp only [structTokens_pair, List.map_cons, List.map_append, List.map_nil, escapeHTML_encode]
  rfl

/-- The tokens of a struct with two fields are those of a document with two members. -/
theorem write_pair {a b : Text} (ha : quote (units a) = Library.Json.encode a)
    (hb : quote (units b) = Library.Json.encode b) (v w : Document Number) :
    (Document.object [(units a, v), (units b, w)]).write =
      structTokens [(a, v.write), (b, w.write)] := by
  rw [Library.Json.write_object, structTokens_pair]
  simp [Library.Json.joinCommas, Library.Json.memberTokens, ha, hb]

theorem memberTokens_jsonPayload (v : Document Number) (w : List Token) :
    (jsonPayload v).memberTokens w =
      [("type".toList, [stringToken "json".toList]), ("value".toList, w)] := by
  simp [SecretPayload.memberTokens, jsonPayload, textOf_write_ne_nil]

theorem write_payloadDocument (v : Document Number) : (payloadDocument v).write =
    structTokens ((jsonPayload v).memberTokens v.write) := by
  obtain ⟨htype, hvalue, hjson, _⟩ := quote_units
  have hstring : (Document.string (units "json".toList)).write = [stringToken "json".toList] :=
    congrArg (fun ps => [Token.string ps]) hjson
  rw [payloadDocument, write_pair htype hvalue, hstring, memberTokens_jsonPayload]

theorem write_responseDocument (v : Document Number) : (responseDocument v).write =
    structTokens [("secret".toList, v.write), ("payload".toList, (payloadDocument v).write)] := by
  obtain ⟨_, _, _, hsecret, hpayload⟩ := quote_units
  exact write_pair hsecret hpayload v _

/-- A written document is nested too deep for the server or it is valid there. -/
theorem isValue_of_valid {v : Document Number} (h : valid (textOf v.write) = true) :
    Library.Json.IsValue maxNestingDepth v.write := by
  obtain ⟨limit, hlimit⟩ := Library.Json.exists_isValue_write v
  rw [valid_textOf hlimit] at h
  exact of_decide_eq_true h

theorem map_escapeHTML_idem (ts : List Token) :
    (ts.map Token.escapeHTML).map Token.escapeHTML = ts.map Token.escapeHTML := by
  rw [List.map_map]
  exact List.map_congr_left fun t _ => t.escapeHTML_idem

theorem compact_textOf {ts : List Token} (h : Library.Json.IsValue maxNestingDepth ts) :
    compact (textOf ts) = some (ts.map Token.escapeHTML) := by
  rw [compact, scan_textOf h, Option.map_some, Library.Json.map_token_compacted]

/-- Compacting what is compact already changes nothing. -/
theorem compact_escaped {v : Document Number}
    (h : valid (textOf (v.write.map Token.escapeHTML)) = true) :
    compact (textOf (v.write.map Token.escapeHTML)) = some (v.write.map Token.escapeHTML) := by
  obtain ⟨limit, hlimit⟩ := Library.Json.exists_isValue_write v
  rw [valid_textOf (Library.Json.isValue_escapeHTML.mpr hlimit), decide_eq_true_eq] at h
  rw [compact_textOf h, map_escapeHTML_idem]

/-- The escapes of the server and the end of the line do not change what is read. -/
theorem parse_escaped (v : Document Number) :
    parse (textOf (v.write.map Token.escapeHTML) ++ ['\n']) = some v := by
  obtain ⟨limit, hlimit⟩ := Library.Json.exists_isValue_write v
  have hseparated := (Library.Json.isValue_escapeHTML.mpr hlimit).separated
  have hspace : ∀ l ∈ compacted (v.write.map Token.escapeHTML), ∀ c ∈ l.space,
      Library.Json.isSpace c = true := by simp [compacted]
  rw [Library.Json.textOf_eq_spacedText,
    parse_spacedText hspace (List.forall_mem_singleton.mpr rfl)
      ((Library.Json.map_token_compacted _).symm ▸ hseparated), Library.Json.map_token_compacted,
    Library.Json.readTokens_map Library.Json.unseen_escapeHTML, Library.Json.readTokens_write]

theorem toOption_eq_some {ε α : Type} {x : Except ε α} {a : α} :
    x.toOption = some a ↔ x = .ok a := by
  cases x <;> simp [Except.toOption]

theorem normalizePayload_jsonPayload {v : Document Number} {n : SecretPayload}
    {s : PayloadSummary} (h : normalizePayload (jsonPayload v) = .ok (n, s)) :
    n = jsonPayload v ∧ Normalized (jsonPayload v) s := by
  have htype : trimSpace (toLower (jsonPayload v).type) = "json".toList := by
    change trimSpace (toLower "json".toList) = _
    decide
  have hvalid : valid (jsonPayload v).value = true := by
    by_contra hinvalid
    rw [Bool.not_eq_true] at hinvalid
    rw [normalizePayload, htype] at h
    simp [hinvalid] at h
  have hnormalized := Normalized.json (textOf v.write) (textOf_write_ne_nil v) hvalid
  have heq := hnormalized.normalizePayload_eq.symm.trans h
  obtain ⟨rfl, rfl⟩ := Prod.mk.inj (Except.ok.inj heq)
  exact ⟨rfl, hnormalized⟩

theorem valid_of_validateCreate {payload : Text} {u : Unit}
    (h : validateCreate cfg req payload = .ok u) : valid payload = true := by
  unfold validateCreate at h
  split_ifs at h with _ hvalid
  exact Bool.eq_true_of_not_eq_false hvalid

/-- The server decodes what the form sends. -/
theorem unmarshalPayload_payloadDocument {v : Document Number} {p : SecretPayload}
    (h : unmarshalPayload (textOf (payloadDocument v).write) = some p) :
    p = jsonPayload v ∧ valid (textOf (payloadDocument v).write) = true := by
  have hvalid : valid (textOf (payloadDocument v).write) = true := by
    rw [unmarshalPayload] at h
    obtain ⟨ls, hls, _⟩ := Option.bind_eq_some_iff.mp h
    exact valid_iff.mpr ⟨ls, hls⟩
  refine ⟨?_, hvalid⟩
  obtain ⟨limit, hlimit⟩ := Library.Json.exists_isValue_write v
  have hmembers := isValue_memberTokens (p := jsonPayload v) (le_max_left 2 limit)
    fun _ => hlimit.mono (le_max_right 2 limit)
  have hvalue := isValue_of_valid hvalid
  rw [write_payloadDocument] at h hvalue
  rw [unmarshalPayload, scan_textOf hvalue, Option.bind_some, view_struct hmembers] at h
  change Option.map _ _ = _ at h
  have hne : (jsonPayload v).value ≠ [] := textOf_write_ne_nil v
  rw [decode_memberTokens, Option.map_some, if_neg hne] at h
  exact (Option.some.inj h).symm

/-- What the server keeps of a document differs in the spelling of strings at most. -/
theorem storedPayload_payloadDocument {v : Document Number} {s : Text}
    (h : storedPayload cfg req (textOf (payloadDocument v).write) = some s) :
    valid s = true ∧ (jsonPayload v).marshal = some s ∧
      ∃ summary, Normalized (jsonPayload v) summary := by
  obtain ⟨p, hp, h⟩ := Option.bind_eq_some_iff.mp h
  obtain ⟨rfl, _⟩ := unmarshalPayload_payloadDocument hp
  obtain ⟨⟨canonical, summary⟩, hcanonical, h⟩ := Option.bind_eq_some_iff.mp h
  obtain ⟨_, hchecked, rfl⟩ := Option.map_eq_some_iff.mp h
  obtain ⟨q, n, hq, hn, hmarshal⟩ := canonicalPayload_spec (toOption_eq_some.mp hcanonical)
  obtain rfl : jsonPayload v = q := Except.ok.inj hq
  obtain ⟨rfl, hnormalized⟩ := normalizePayload_jsonPayload hn
  exact ⟨valid_of_validateCreate (toOption_eq_some.mp hchecked), hmarshal, summary, hnormalized⟩

/-- The recipient's browser gets the document back. -/
theorem parse_consumeResponse {v : Document Number} {s response : Text}
    (h : storedPayload cfg req (textOf (payloadDocument v).write) = some s)
    (hresponse : consumeResponse s = some response) :
    parse response = some (responseDocument v) := by
  obtain ⟨hvalid, hmarshal, summary, hnormalized⟩ := storedPayload_payloadDocument h
  obtain ⟨w, rfl, hw⟩ := marshal_spec hmarshal
  obtain ⟨legacy, hlegacy, hconsumed⟩ := normalizeConsumedPayload_marshal hnormalized hmarshal hvalid
  have hvalue : Library.Json.IsValue maxNestingDepth v.write := by
    cases hnormalized with
    | json _ _ hvalue => exact isValue_of_valid hvalue
  have hcompact := compact_textOf hvalue
  obtain rfl : v.write.map Token.escapeHTML = w :=
    Option.some.inj (hcompact.symm.trans (hw (textOf_write_ne_nil v)))
  have hsecret : legacy = textOf (v.write.map Token.escapeHTML) := by
    have hvalue : (jsonPayload v).compactValue.value = textOf (v.write.map Token.escapeHTML) := by
      change ((compact (textOf v.write)).map textOf).getD _ = _
      rw [hcompact]
      rfl
    rw [← hvalue]
    exact (Option.some.inj hlegacy).symm
  have htokens : structTokens ((jsonPayload v).memberTokens (v.write.map Token.escapeHTML)) =
      (payloadDocument v).write.map Token.escapeHTML := by
    rw [write_payloadDocument, memberTokens_jsonPayload, memberTokens_jsonPayload,
      map_structTokens_pair, List.map_singleton, stringToken, escapeHTML_encode]
  rw [htokens] at hconsumed hvalid
  have hvalidSecret : valid (textOf (v.write.map Token.escapeHTML)) = true := by
    rw [valid_textOf (Library.Json.isValue_escapeHTML.mpr hvalue), decide_eq_true_eq]
    exact Library.Json.isValue_escapeHTML.mpr hvalue
  rw [htokens, consumeResponse, hconsumed, Option.bind_some] at hresponse
  simp only [hsecret, compact_escaped hvalidSecret, compact_escaped hvalid, Option.bind_some,
    Option.map_some] at hresponse
  obtain rfl := Option.some.inj hresponse
  rw [← map_structTokens_pair, ← write_responseDocument, parse_escaped]

theorem property_ofDocument (name : Text) (ms : List (Units × Document Number)) :
    property name (ofDocument (.object ms)) = (lookupLast ms (units name)).map ofDocument := by
  have hobject : ofDocument (.object ms) =
      .object (orderProperties (createProperties (ms.map fun m => (m.1, ofDocument m.2)))) :=
    Document.fold_object ms
  rw [hobject, property, lookup_properties, Library.Json.lookupLast_map]

theorem lookupLast_pair {β : Type} (a b : Units × β) (k : Units) :
    lookupLast [a, b] k = if k = b.1 then some b.2 else if k = a.1 then some a.2 else none := by
  have h := Library.Json.lookupLast_append [a] b k
  rw [List.singleton_append] at h
  rw [h, lookupLast, List.reverse_singleton, Library.Json.lookup_cons]
  rfl

theorem property_responseDocument (v : Document Number) :
    property "payload".toList (ofDocument (responseDocument v)) =
      some (ofDocument (payloadDocument v)) := by
  rw [responseDocument, property_ofDocument, lookupLast_pair, if_pos rfl, Option.map_some]

/-- The reveal page shows the value of the payload. -/
theorem renderSecret_payloadDocument (fmt : NumberFormat) (v : Document Number) :
    renderSecret fmt (ofDocument (payloadDocument v)) =
      some (fmt.stringifyIndented (ofDocument v)) := by
  have htype : property "type".toList (ofDocument (payloadDocument v)) =
      some (.string (units "json".toList)) := by
    have hne : units "type".toList ≠ units "value".toList := by decide
    rw [payloadDocument, property_ofDocument, lookupLast_pair, if_neg hne, if_pos rfl]
    rfl
  have hvalue : property "value".toList (ofDocument (payloadDocument v)) =
      some (ofDocument v) := by
    rw [payloadDocument, property_ofDocument, lookupLast_pair, if_pos rfl, Option.map_some]
  rw [renderSecret, htype]
  simp only [if_true, hvalue, Option.map_some]

/-- The payload of a document that is typed. -/
theorem plainPayload_eq_some_iff {payload : JSValue} : plainPayload raw = some payload ↔
    raw.all isTrimmed = false ∧ ∃ v, parse raw = some v ∧
      .object [(units "type".toList, .string (units "json".toList)),
        (units "value".toList, ofDocument v)] = payload := by
  rw [plainPayload]
  split_ifs with hblank
  · rw [hblank]
    exact ⟨fun h => (by cases h), fun h => (by cases h.1)⟩
  · rw [Option.map_eq_some_iff, parseJSON]
    simp only [Option.map_eq_some_iff]
    constructor
    · rintro ⟨_, ⟨v, hv, rfl⟩, h⟩
      exact ⟨Bool.eq_false_of_not_eq_true hblank, v, hv, h⟩
    · rintro ⟨_, v, hv, h⟩
      exact ⟨_, ⟨v, hv, rfl⟩, h⟩

/-- What is shown, and for which documents. -/
theorem shown_eq_some_iff : shown fmt cfg req raw = some t ↔
    raw.all isTrimmed = false ∧ ∃ v w, parse raw = some v ∧ w = fmt.toDocument (ofDocument v) ∧
      byteLength (textOf (payloadDocument w).write) ≤ maxSecretBytes ∧
      (∃ s, storedPayload cfg req (textOf (payloadDocument w).write) = some s ∧
        (consumeResponse s).isSome = true) ∧
      t = fmt.stringifyIndented (ofDocument w) := by
  have hsent : ∀ v : Document Number, fmt.stringify (.object [(units "type".toList,
      .string (units "json".toList)), (units "value".toList, ofDocument v)]) =
        textOf (payloadDocument (fmt.toDocument (ofDocument v))).write := fun v => rfl
  have hbody : ∀ {w : Document Number} {s response : Text},
      storedPayload cfg req (textOf (payloadDocument w).write) = some s →
      consumeResponse s = some response →
      (parseJSON response).bind (fun body => (property "payload".toList body).bind
        (renderSecret fmt)) = some (fmt.stringifyIndented (ofDocument w)) := by
    intro w s response hs hresponse
    rw [parseJSON, parse_consumeResponse hs hresponse, Option.map_some, Option.bind_some,
      property_responseDocument, Option.bind_some, renderSecret_payloadDocument]
  simp only [shown, Option.bind_eq_bind, Option.bind_eq_some_iff, plainPayload_eq_some_iff]
  constructor
  · rintro ⟨_, ⟨hblank, v, hv, rfl⟩, _, hsize, s, hs, response, hresponse, h⟩
    rw [hsent] at hs
    rw [validateSize, hsent] at hsize
    have hshown : (parseJSON response).bind (fun body => (property "payload".toList body).bind
        (renderSecret fmt)) = some t := by simpa only [Option.bind_eq_some_iff] using h
    refine ⟨hblank, v, _, hv, rfl, ?_, ⟨s, hs, by rw [hresponse]; rfl⟩, ?_⟩
    · by_contra hlarge
      rw [if_pos (not_le.mp hlarge)] at hsize
      cases hsize
    · exact Option.some.inj (hshown.symm.trans (hbody hs hresponse))
  · rintro ⟨hblank, v, w, hv, rfl, hsize, ⟨s, hs, hresponse⟩, rfl⟩
    obtain ⟨response, hresponse⟩ := Option.isSome_iff_exists.mp hresponse
    have hshown := hbody hs hresponse
    simp only [Option.bind_eq_some_iff] at hshown
    refine ⟨_, ⟨hblank, v, hv, rfl⟩, (), ?_, s, hs, response, hresponse, hshown⟩
    rw [validateSize, hsent, if_neg (not_lt.mpr hsize)]

/-- What is shown denotes the document that was typed, with its numbers as they are printed. -/
theorem denote_shown (h : shown fmt cfg req raw = some t) : ∃ v, parse raw = some v ∧
    denote raw = some v.value ∧
    denote t = some (v.valueWith (fmt.through fun n => .number n.value)) := by
  obtain ⟨_, v, w, hv, rfl, _, _, rfl⟩ := shown_eq_some_iff.mp h
  refine ⟨v, hv, ?_, ?_⟩
  · rw [denote, hv, Option.map_some]
  · rw [denote, NumberFormat.stringifyIndented, parse_indented, Option.map_some, fmt.value_twice]

/-- A document without fractions survives if its integers are safe ones. -/
theorem safe_integers_survive (h : shown fmt cfg req raw = some t)
    (hsafe : ∀ v n, parse raw = some v → v.Counts n → ∃ N : ℤ, n.value = N ∧ |N| < 2 ^ 53) :
    denote t = denote raw := by
  obtain ⟨v, hv, htyped, hshown⟩ := denote_shown h
  rw [hshown, htyped, Document.value, Option.some.injEq, Document.valueWith_eq_iff]
  intro n hn
  obtain ⟨N, hN, hlt⟩ := hsafe v n hv hn
  rw [fmt.through_eq_iff n, hN]
  exact fmt.prints_intCast hN hlt

/-- What is shown denotes the value that was typed exactly if every number that counts in it is
one that the language prints. -/
theorem json_survives_iff (h : shown fmt cfg req raw = some t) : denote t = denote raw ↔
    ∀ v n, parse raw = some v → v.Counts n → fmt.Prints n.value := by
  obtain ⟨v, hv, htyped, hshown⟩ := denote_shown h
  rw [hshown, htyped, Option.some.injEq, Document.value, Document.valueWith_eq_iff]
  constructor
  · intro hkept v' n hv' hn
    obtain rfl := Option.some.inj (hv.symm.trans hv')
    exact (fmt.through_eq_iff n).mp (hkept n hn)
  · exact fun hprints n hn => (fmt.through_eq_iff n).mpr (hprints v n hv hn)

/-- A run of the form, from the document that it sends. -/
theorem shown_of_sent {v w : Document Number} {sent stored : Text}
    (hblank : raw.all isTrimmed = false) (hparse : parse raw = some v)
    (hprinted : fmt.toDocument (ofDocument v) = w)
    (hsent : textOf (payloadDocument w).write = sent) (hsize : byteLength sent ≤ maxSecretBytes)
    (hstored : storedPayload cfg req sent = some stored)
    (hresponse : (consumeResponse stored).isSome = true)
    (htwice : fmt.toDocument (ofDocument w) = w) :
    shown fmt cfg req raw = some (spacedText (indented w 0 [])) := by
  rw [shown_eq_some_iff]
  refine ⟨hblank, v, w, hparse, hprinted.symm, hsent ▸ hsize,
    ⟨stored, hsent ▸ hstored, hresponse⟩, ?_⟩
  rw [NumberFormat.stringifyIndented, htwice]

/-- The literal `42`. -/
def fortyTwo : Number := ⟨"42".toList, by decide⟩

/-- The literal `9007199254740992`, which is `2 ^ 53`. -/
def twoPow53 : Number := ⟨"9007199254740992".toList, by decide⟩

/-- The literal `9007199254740993`. -/
def typedNumber : Number := ⟨"9007199254740993".toList, by decide⟩

/-- The last one lies halfway between two doubles and goes to the even one. -/
theorem value_sample : fortyTwo.value = (42 : ℤ) ∧ twoPow53.value = (2 ^ 53 : ℤ) ∧
    typedNumber.value = (2 ^ 53 + 1 : ℤ) ∧ double fortyTwo.value = .finite (42 : ℤ) ∧
    double twoPow53.value = .finite (2 ^ 53 : ℤ) ∧
    double typedNumber.value = .finite (2 ^ 53 : ℤ) := by
  decide +kernel

/-- Prints two integers as the language does. -/
noncomputable def sampleFormat : NumberFormat :=
  (NumberFormat.shortestFormat.printing 42 (by norm_num) fortyTwo value_sample.1).printing (2 ^ 53)
    (by norm_num) twoPow53 value_sample.2.1

theorem literal_sampleFormat : sampleFormat.literal (42 : ℤ) = fortyTwo ∧
    sampleFormat.literal (2 ^ 53 : ℤ) = twoPow53 := by
  constructor
  · have hne : ((42 : ℤ) : ℚ) ≠ ((2 ^ 53 : ℤ) : ℚ) := by norm_num
    rw [sampleFormat, NumberFormat.literal_printing_of_ne _ _ _ hne,
      NumberFormat.literal_printing_self]
  · rw [sampleFormat, NumberFormat.literal_printing_self]

theorem toDocument_number {n m : Number} (h : fmt.write (double n.value) = .number m) :
    fmt.toDocument (ofDocument (.number n)) = .number m := h

/-- What the format prints for these literals. -/
theorem toDocument_sample :
    sampleFormat.toDocument (ofDocument (.number fortyTwo)) = .number fortyTwo ∧
    sampleFormat.toDocument (ofDocument (.number twoPow53)) = .number twoPow53 ∧
    sampleFormat.toDocument (ofDocument (.number typedNumber)) = .number twoPow53 := by
  obtain ⟨h42, h53⟩ := literal_sampleFormat
  obtain ⟨_, _, _, hforty, htwo, htyped⟩ := value_sample
  refine ⟨toDocument_number ?_, toDocument_number ?_, toDocument_number ?_⟩
  · rw [hforty, NumberFormat.write, h42]
  · rw [htwo, NumberFormat.write, h53]
  · rw [htyped, NumberFormat.write, h53]

def typedInteger : Text := "9007199254740993".toList

def shownInteger : Text := "9007199254740992".toList

def storedInteger : Text := "\x7b\"type\":\"json\",\"value\":9007199254740992\x7d".toList

theorem parse_typedInteger : parse typedInteger = some (.number typedNumber) := rfl

theorem parse_shownInteger : parse shownInteger = some (.number twoPow53) := rfl

theorem sent_integer : textOf (payloadDocument (.number twoPow53)).write = storedInteger ∧
    byteLength storedInteger ≤ maxSecretBytes ∧
    storedPayload sampleConfig sampleRequest storedInteger = some storedInteger ∧
    (consumeResponse storedInteger).isSome = true ∧
    spacedText (indented (.number twoPow53) 0 []) = shownInteger := by
  decide +kernel

theorem shown_typedInteger :
    shown sampleFormat sampleConfig sampleRequest typedInteger = some shownInteger := by
  obtain ⟨_, htwo, htyped⟩ := toDocument_sample
  obtain ⟨hsent, hsize, hstored, hresponse, hshown⟩ := sent_integer
  have hblank : typedInteger.all isTrimmed = false := by decide
  rw [← hshown]
  exact shown_of_sent hblank parse_typedInteger htyped hsent hsize hstored hresponse htwo

theorem value_number (n : Number) : (Document.number n).value = .number n.value := rfl

/-- A long integer that is typed is another one when it is shown. -/
theorem long_integer_changed : shown sampleFormat sampleConfig sampleRequest typedInteger =
    some shownInteger ∧ denote shownInteger ≠ denote typedInteger := by
  refine ⟨shown_typedInteger, fun h => ?_⟩
  obtain ⟨_, htwo, htyped, _⟩ := value_sample
  rw [denote, denote, parse_shownInteger, parse_typedInteger, Option.map_some, Option.map_some,
    value_number, value_number, Option.some.injEq, Value.number.injEq, htwo, htyped,
    Int.cast_inj] at h
  omega

def typedObject : Text := "\x7b\"id\":42\x7d".toList

def shownObject : Text := "\x7b\n  \"id\": 42\n\x7d".toList

def storedObject : Text := "\x7b\"type\":\"json\",\"value\":\x7b\"id\":42\x7d\x7d".toList

def objectDocument : Document Number := .object [(units "id".toList, .number fortyTwo)]

theorem parse_typedObject : parse typedObject = some objectDocument := rfl

theorem sent_object : textOf (payloadDocument objectDocument).write = storedObject ∧
    byteLength storedObject ≤ maxSecretBytes ∧
    storedPayload sampleConfig sampleRequest storedObject = some storedObject ∧
    (consumeResponse storedObject).isSome = true ∧
    spacedText (indented objectDocument 0 []) = shownObject := by
  decide +kernel

theorem toDocument_object : sampleFormat.toDocument (ofDocument objectDocument) =
    objectDocument :=
  congrArg (fun v => Document.object [(units "id".toList, v)]) toDocument_sample.1

theorem shown_typedObject :
    shown sampleFormat sampleConfig sampleRequest typedObject = some shownObject := by
  obtain ⟨hsent, hsize, hstored, hresponse, hshown⟩ := sent_object
  have hblank : typedObject.all isTrimmed = false := by decide
  rw [← hshown]
  exact shown_of_sent hblank parse_typedObject toDocument_object hsent hsize hstored hresponse
    toDocument_object

theorem json_survives_iff_sample : denote shownObject = denote typedObject := by
  refine (json_survives_iff shown_typedObject).mpr fun v n hv hn => ?_
  rw [parse_typedObject, Option.some.injEq] at hv
  subst hv
  cases hn with
  | @member _ k v hk hn =>
    obtain ⟨_, hv⟩ := Prod.mk.inj (List.mem_singleton.mp (Library.Json.mem_of_lookupLast hk))
    rw [hv] at hn
    cases hn
    rw [value_sample.1]
    exact sampleFormat.prints_intCast value_sample.1 (by norm_num)

end SecureShare.Browser
