import SecureShare.Delivery.Payload

/-!
# The payload round trip

A normalised payload is a fixed point of normalisation, its canonical text
decodes to it with only the raw value compacted, and compacting twice changes
nothing. Together they give the canonical text back from itself.
-/
namespace SecureShare.Delivery
open Go Go.Json
open Library.Json (Lexeme Token textOf compacted arrayTokens rawText IsValue)

/-- The shapes that normalisation produces. -/
inductive Normalized : SecretPayload → PayloadSummary → Prop
  | structured (fields : List StructuredSecretField) :
      fields ≠ [] → fields.length ≤ 50 → normalizeFields [] fields = some fields →
      Normalized ⟨"structured".toList, fields, [], []⟩
        ⟨"structured".toList, fields.length, fields.any (·.sensitive)⟩
  | text (t : Text) :
      Normalized ⟨"text".toList, [], t, []⟩ ⟨"text".toList, 0, false⟩
  | json (value : Text) : value ≠ [] → valid value = true →
      Normalized ⟨"json".toList, [], [], value⟩ ⟨"json".toList, 0, false⟩

theorem normalizeFields_length {seen : List Text} {fields out : List StructuredSecretField}
    (h : normalizeFields seen fields = some out) : out.length = fields.length := by
  induction fields generalizing seen out with
  | nil =>
      cases h
      rfl
  | cons f fields ih =>
      simp only [normalizeFields] at h
      split_ifs at h
      all_goals
        rw [Option.map_eq_some_iff] at h
        obtain ⟨rest, hrest, rfl⟩ := h
        rw [List.length_cons, List.length_cons, ih hrest]

/-- Trimmed names and labels are kept, so the loop accepts its own result. -/
theorem normalizeFields_idem {seen : List Text} {fields out : List StructuredSecretField}
    (h : normalizeFields seen fields = some out) : normalizeFields seen out = some out := by
  induction fields generalizing seen out with
  | nil =>
      cases h
      rfl
  | cons f fields ih =>
      simp only [normalizeFields] at h
      split_ifs at h with hlabel hbad hbad
      all_goals
        rw [Option.map_eq_some_iff] at h
        obtain ⟨rest, hrest, rfl⟩ := h
        simp only [normalizeFields, trimSpace_trimSpace, ih hrest, Option.map_some, hlabel,
          if_false, ite_self]
        rw [if_neg hbad]

theorem normalized_of_normalizePayload {q n : SecretPayload} {s : PayloadSummary}
    (h : normalizePayload q = .ok (n, s)) : Normalized n s := by
  unfold normalizePayload at h
  dsimp only at h
  split_ifs at h with hstructured hcount htext hjson hvalue
  · split at h
    · cases h
    · next fields hfields =>
      cases h
      have hlen := normalizeFields_length hfields
      rw [not_or] at hcount
      refine .structured fields ?_ (by omega) (normalizeFields_idem hfields)
      intro hnil
      rw [hnil] at hlen
      exact hcount.1 (List.length_eq_zero_iff.mp hlen.symm)
  · cases h
    exact .text q.text
  · cases h
    rw [not_or, Bool.not_eq_false] at hvalue
    exact .json q.value hvalue.1 hvalue.2

theorem Normalized.normalizePayload_eq {n : SecretPayload} {s : PayloadSummary}
    (h : Normalized n s) : normalizePayload n = .ok (n, s) := by
  cases h with
  | structured fields hne hlen hfields =>
      have htype : trimSpace (toLower "structured".toList) = "structured".toList := by decide
      have hcount : ¬(fields = [] ∨ 50 < fields.length) := by
        rw [not_or]
        exact ⟨hne, by omega⟩
      simp only [normalizePayload, htype, if_true, hcount, if_false, hfields]
  | text t => rfl
  | json value hne hvalid =>
      have htype : trimSpace (toLower "json".toList) = "json".toList := by decide
      have hvalue : ¬(value = [] ∨ valid value = false) := by simp [hne, hvalid]
      simp only [normalizePayload, htype, hvalue, if_false, if_true]
      rfl

private theorem setString_token (current s : Text) :
    setString current (compacted [stringToken s]) = some s := by
  rw [setString, view_string]

private theorem setBool_token (current b : Bool) :
    setBool current (compacted [.bool b]) = some b := rfl

theorem isValue_field (f : StructuredSecretField) : IsValue 1 f.tokens := by
  refine isValue_struct fun m hm => ?_
  simp only [List.mem_cons, List.not_mem_nil, or_false] at hm
  rcases hm with rfl | rfl | rfl | rfl | rfl <;> rfl

private theorem setMember_name (f : StructuredSecretField) (v : Text) :
    setMember f ("name".toList, compacted [stringToken v]) = some { f with name := v } := by
  have hname : fieldNamed fieldNames "name".toList = some "name".toList := by decide
  simp only [setMember, hname, if_true, setString_token, Option.map_some]

private theorem setMember_label (f : StructuredSecretField) (v : Text) :
    setMember f ("label".toList, compacted [stringToken v]) = some { f with label := v } := by
  have hlabel : fieldNamed fieldNames "label".toList = some "label".toList := by decide
  simp only [setMember, hlabel, if_true, setString_token, Option.map_some]
  rfl

private theorem setMember_value (f : StructuredSecretField) (v : Text) :
    setMember f ("value".toList, compacted [stringToken v]) = some { f with value := v } := by
  have hvalue : fieldNamed fieldNames "value".toList = some "value".toList := by decide
  simp only [setMember, hvalue, if_true, setString_token, Option.map_some]
  rfl

/-- A written field overwrites whatever the slot held. -/
theorem setField_tokens (slot f : StructuredSecretField) :
    setField slot (compacted f.tokens) = some f := by
  have hvalue : ∀ m ∈ [("name".toList, [stringToken f.name]),
      ("label".toList, [stringToken f.label]), ("value".toList, [stringToken f.value]),
      ("sensitive".toList, [.bool f.sensitive]), ("multiline".toList, [.bool f.multiline])],
      IsValue 0 m.2 := by
    intro m hm
    simp only [List.mem_cons, List.not_mem_nil, or_false] at hm
    rcases hm with rfl | rfl | rfl | rfl | rfl <;> rfl
  rw [setField, StructuredSecretField.tokens, view_struct hvalue]
  simp only [List.map_cons, List.map_nil, List.foldlM_cons, List.foldlM_nil, setMember_name,
    setMember_label, setMember_value]
  rfl

theorem setElements_tokens (slots fields : List StructuredSecretField) :
    setElements slots (fields.map fun f => compacted f.tokens) = some fields := by
  induction fields generalizing slots with
  | nil => rfl
  | cons f fields ih =>
      rw [List.map_cons, setElements, setField_tokens, Option.bind_some, ih, Option.map_some]

private theorem setPayloadMember_type (d : Decoding) (v : Text) :
    setPayloadMember d ("type".toList, compacted [stringToken v]) = some { d with type := v } := by
  have htype : fieldNamed payloadNames "type".toList = some "type".toList := by decide
  simp only [setPayloadMember, htype, if_true, setString_token, Option.map_some]

private theorem setPayloadMember_fields (d : Decoding) (hd : d.fields = ⟨[], []⟩)
    {fields : List StructuredSecretField} (hfields : fields ≠ []) :
    setPayloadMember d ("fields".toList,
      compacted (arrayTokens (fields.map StructuredSecretField.tokens))) =
        some { d with fields := ⟨fields, []⟩ } := by
  have hname : fieldNamed payloadNames "fields".toList = some "fields".toList := by decide
  have hvalue : ∀ v ∈ fields.map StructuredSecretField.tokens, IsValue 1 v := by
    intro v hv
    obtain ⟨f, _, rfl⟩ := List.mem_map.mp hv
    exact isValue_field f
  have hset : setFields ⟨[], []⟩
      (compacted (arrayTokens (fields.map StructuredSecretField.tokens))) =
        some ⟨fields, []⟩ := by
    rw [setFields, view_array hvalue, List.map_map]
    cases fields with
    | nil => exact absurd rfl hfields
    | cons f fields =>
        have helements := setElements_tokens [] (f :: fields)
        rw [List.map_cons] at helements ⊢
        simp only [List.nil_append, List.drop_nil]
        exact congrArg (Option.map fun fs => (⟨fs, []⟩ : FieldSlice)) helements
  simp only [setPayloadMember, hname, if_true, hd, hset, Option.map_some]
  rfl

private theorem setPayloadMember_text (d : Decoding) (v : Text) :
    setPayloadMember d ("text".toList, compacted [stringToken v]) = some { d with text := v } := by
  have htext : fieldNamed payloadNames "text".toList = some "text".toList := by decide
  simp only [setPayloadMember, htext, if_true, setString_token, Option.map_some]
  rfl

private theorem setPayloadMember_value (d : Decoding) (v : List Token) :
    setPayloadMember d ("value".toList, compacted v) = some { d with value := textOf v } := by
  have hvalue : fieldNamed payloadNames "value".toList = some "value".toList := by decide
  simp only [setPayloadMember, hvalue, Library.Json.rawText_compacted]
  rfl

/-- The payload with its raw value compacted, which is what decoding returns. -/
def SecretPayload.compactValue (p : SecretPayload) : SecretPayload :=
  { p with value := ((compact p.value).map textOf).getD p.value }

theorem isValue_memberTokens {p : SecretPayload} {v : List Token} {limit : ℕ} (hlimit : 2 ≤ limit)
    (hv : p.value ≠ [] → IsValue limit v) : ∀ m ∈ p.memberTokens v, IsValue limit m.2 := by
  intro m hm
  have harray : IsValue 2 (arrayTokens (p.fields.map StructuredSecretField.tokens)) := by
    refine IsValue.array fun v hv => ?_
    obtain ⟨f, _, rfl⟩ := List.mem_map.mp hv
    exact isValue_field f
  simp only [SecretPayload.memberTokens, List.mem_append, List.mem_singleton] at hm
  rcases hm with ((rfl | hm) | hm) | hm
  · rfl
  · split_ifs at hm
    · cases hm
    · rw [List.mem_singleton.mp hm]
      exact harray.mono hlimit
  · split_ifs at hm
    · cases hm
    · rw [List.mem_singleton.mp hm]
      rfl
  · split_ifs at hm with hvalue
    · cases hm
    · rw [List.mem_singleton.mp hm]
      exact hv hvalue

/-- Decoding the written members restores every field of the payload. -/
theorem decode_memberTokens {p : SecretPayload} {v : List Token} :
    ((p.memberTokens v).map fun m => (m.1, compacted m.2)).foldlM setPayloadMember
        ⟨[], ⟨[], []⟩, [], []⟩ =
      some ⟨p.type, ⟨p.fields, []⟩, p.text, if p.value = [] then [] else textOf v⟩ := by
  have hfields : ∀ d : Decoding, d.fields = ⟨[], []⟩ → ((if p.fields = [] then [] else
      [("fields".toList, arrayTokens (p.fields.map StructuredSecretField.tokens))]).map
        fun m => (m.1, compacted m.2)).foldlM setPayloadMember d =
          some { d with fields := ⟨p.fields, []⟩ } := by
    intro d hd
    split_ifs with h
    · simp [h, ← hd]
    · simp only [List.map_cons, List.map_nil, List.foldlM_cons, List.foldlM_nil,
        setPayloadMember_fields d hd h, Option.pure_def, Option.bind_eq_bind, Option.bind_some]
  have htext : ∀ d : Decoding, d.text = [] → ((if p.text = [] then [] else
      [("text".toList, [stringToken p.text])]).map
        fun m => (m.1, compacted m.2)).foldlM setPayloadMember d =
          some { d with text := p.text } := by
    intro d hd
    split_ifs with h
    · simp [h, ← hd]
    · simp only [List.map_cons, List.map_nil, List.foldlM_cons, List.foldlM_nil,
        setPayloadMember_text, Option.pure_def, Option.bind_eq_bind, Option.bind_some]
  have hvalue : ∀ d : Decoding, d.value = [] → ((if p.value = [] then [] else
      [("value".toList, v)]).map fun m => (m.1, compacted m.2)).foldlM setPayloadMember d =
          some { d with value := if p.value = [] then [] else textOf v } := by
    intro d hd
    split_ifs with h
    · simp [← hd]
    · simp only [List.map_cons, List.map_nil, List.foldlM_cons, List.foldlM_nil,
        setPayloadMember_value, Option.pure_def, Option.bind_eq_bind, Option.bind_some]
  simp only [SecretPayload.memberTokens, List.map_append, List.foldlM_append]
  simp only [List.map_cons, List.map_nil, List.foldlM_cons, List.foldlM_nil,
    setPayloadMember_type, Option.pure_def, Option.bind_eq_bind, Option.bind_some]
  rw [hfields _ rfl, Option.bind_some, htext _ rfl, Option.bind_some, hvalue _ rfl]

theorem compact_spec {s : Text} {v : List Token} (h : compact s = some v) :
    IsValue maxNestingDepth v ∧ compact (textOf v) = some v ∧ textOf v ≠ [] := by
  rw [compact, Option.map_eq_some_iff] at h
  obtain ⟨ls, hls, rfl⟩ := h
  have hvalue : IsValue maxNestingDepth ((ls.map Lexeme.token).map Token.escapeHTML) :=
    Library.Json.isValue_escapeHTML.mpr (isValue_of_scan hls)
  refine ⟨hvalue, ?_, ?_⟩
  · rw [compact, scan_textOf hvalue, Option.map_some, Library.Json.map_token_compacted,
      List.map_map]
    simp [Function.comp_def]
  · intro hnil
    have hlen := Library.Json.length_le_length_textOf ((ls.map Lexeme.token).map Token.escapeHTML)
    rw [hnil] at hlen
    exact hvalue.ne_nil (List.length_eq_zero_iff.mp (Nat.le_zero.mp hlen))

/-- What marshalling a payload writes. -/
theorem marshal_spec {p : SecretPayload} {t : Text} (h : p.marshal = some t) :
    ∃ v, t = textOf (structTokens (p.memberTokens v)) ∧
      (p.value ≠ [] → compact p.value = some v) := by
  rw [SecretPayload.marshal, Option.map_eq_some_iff] at h
  obtain ⟨ts, hts, rfl⟩ := h
  rw [SecretPayload.tokens] at hts
  split_ifs at hts with hvalue
  · cases hts
    exact ⟨[], rfl, fun hne => absurd hvalue hne⟩
  · rw [Option.map_eq_some_iff] at hts
    obtain ⟨v, hv, rfl⟩ := hts
    exact ⟨v, rfl, fun _ => hv⟩

theorem compactValue_of_nil {p : SecretPayload} (h : p.value = []) : p.compactValue = p := by
  obtain ⟨type, fields, text, value⟩ := p
  cases h
  rfl

theorem compactValue_value {p : SecretPayload} {v : List Token}
    (hv : p.value ≠ [] → compact p.value = some v) :
    p.compactValue.value = if p.value = [] then [] else textOf v := by
  rw [SecretPayload.compactValue]
  split_ifs with h
  · rw [h]
    rfl
  · rw [hv h]
    rfl

/-- A valid canonical text decodes to the payload it was written from. -/
theorem unmarshalPayload_marshal {p : SecretPayload} {t : Text} (h : p.marshal = some t)
    (hvalid : valid t = true) : unmarshalPayload t = some p.compactValue := by
  obtain ⟨v, rfl, hv⟩ := marshal_spec h
  have hmembers := isValue_memberTokens (by decide) fun hne => (compact_spec (hv hne)).1
  rw [valid_textOf (isValue_struct hmembers), decide_eq_true_eq] at hvalid
  rw [unmarshalPayload, scan_textOf hvalid, Option.bind_some, view_struct hmembers]
  change Option.map _ _ = _
  rw [decode_memberTokens, Option.map_some, Decoding.payload, ← compactValue_value hv]
  rfl

/-- Compacting the raw value first does not change the canonical text. -/
theorem marshal_compactValue {p : SecretPayload} {t : Text} (h : p.marshal = some t) :
    p.compactValue.marshal = some t := by
  obtain ⟨v, rfl, hv⟩ := marshal_spec h
  have hvalue := compactValue_value hv
  by_cases hnil : p.value = []
  · rw [compactValue_of_nil hnil, h]
  · obtain ⟨_, hcompact, hne⟩ := compact_spec (hv hnil)
    rw [if_neg hnil] at hvalue
    rw [SecretPayload.marshal, SecretPayload.tokens, hvalue, if_neg hne, hcompact,
      Option.map_some, Option.map_some]
    simp only [SecretPayload.memberTokens, hvalue, hne, hnil, if_false]
    rfl

theorem valid_textOf_compact {s : Text} {v : List Token} (h : compact s = some v) :
    valid (textOf v) = true := by
  rw [valid, scan_textOf (compact_spec h).1]
  rfl

theorem Normalized.compactValue {n : SecretPayload} {s : PayloadSummary} (h : Normalized n s) :
    Normalized n.compactValue s := by
  cases h with
  | structured fields hne hlen hfields =>
      rw [compactValue_of_nil rfl]
      exact .structured fields hne hlen hfields
  | text t =>
      rw [compactValue_of_nil rfl]
      exact .text t
  | json value hne hvalid =>
      obtain ⟨ls, hls⟩ := valid_iff.mp hvalid
      have hcompact : compact value = some ((ls.map Lexeme.token).map Token.escapeHTML) := by
        rw [compact, hls, Option.map_some]
      simp only [SecretPayload.compactValue, hcompact, Option.map_some, Option.getD_some]
      exact .json _ (compact_spec hcompact).2.2 (valid_textOf_compact hcompact)

theorem legacyProjection_isSome {n : SecretPayload} {s : PayloadSummary} (h : Normalized n s) :
    ∃ legacy, legacyProjection n = some legacy := by
  cases h <;> exact ⟨_, rfl⟩

/-- What a canonical payload was made from. -/
theorem canonicalPayload_spec {req : CreateRequest} {p : Text} {s : PayloadSummary}
    (h : canonicalPayload req = .ok (p, s)) :
    ∃ q n, requestedPayload req = .ok q ∧ normalizePayload q = .ok (n, s) ∧
      n.marshal = some p := by
  unfold canonicalPayload at h
  split at h
  · cases h
  · next q hq =>
    unfold marshalPayload at h
    split at h
    · cases h
    · next n summary hn =>
      split at h
      · cases h
      · next raw hraw =>
        cases h
        exact ⟨q, n, hq, hn, hraw⟩

/-- The canonical text of a normalised payload is read back as itself. -/
theorem normalizeConsumedPayload_marshal {n : SecretPayload} {s : PayloadSummary} {p : Text}
    (hn : Normalized n s) (hp : n.marshal = some p) (hvalid : valid p = true) :
    ∃ legacy, legacyProjection n.compactValue = some legacy ∧
      normalizeConsumedPayload p = some (p, legacy) := by
  obtain ⟨legacy, hlegacy⟩ := legacyProjection_isSome hn.compactValue
  refine ⟨legacy, hlegacy, ?_⟩
  have hread : (unmarshalPayload p).bind (fun q => (normalizePayload q).toOption) =
      some (n.compactValue, s) := by
    rw [unmarshalPayload_marshal hp hvalid, Option.bind_some, hn.compactValue.normalizePayload_eq]
    rfl
  unfold normalizeConsumedPayload
  rw [if_neg (by simp [hvalid]), hread]
  simp only [marshal_compactValue hp, Option.bind_some, hlegacy, Option.map_some]

end SecureShare.Delivery
