import SecureShare.Go.Text
import SecureShare.Library.JsonString

/-!
# encoding/json

The part of the package that the payload code calls: validity, compaction with
HTML escaping, the encoding of strings and structs, and the rules by which a
value is decoded into a string, a bool or a struct field. All of them refuse a
text nested more than ten thousand deep.
-/
namespace SecureShare.Go.Json
open Library.Json

/-- `maxNestingDepth` -/
def maxNestingDepth : ℕ := 10000

/-- The lexemes of a text that is one JSON value. -/
def scan (s : Text) : Option (List Lexeme) :=
  (lex s).filter fun ls => IsValue maxNestingDepth (ls.map Lexeme.token)

/-- `json.Valid` -/
def valid (s : Text) : Bool := (scan s).isSome

/-- `json.Compact` as `Marshal` applies it to a `RawMessage`: white space goes
and the unsafe characters of strings are escaped. -/
def compact (s : Text) : Option (List Token) :=
  (scan s).map fun ls => (ls.map Lexeme.token).map Token.escapeHTML

/-- A string value. -/
def stringToken (s : Text) : Token := .string (encode s)

/-- A struct value from its fields in declaration order. -/
def structTokens (fields : List (Text × List Token)) : List Token :=
  objectTokens (fields.map fun f => (encode f.1, f.2))

/-- What the decoder sees of a value before it looks inside. -/
inductive View where
  | null
  | bool (b : Bool)
  | number
  | string (s : Text)
  | array (elements : List (List Lexeme))
  | object (members : List (Text × List Lexeme))

def view : List Lexeme → View
  | ⟨_, .bool b⟩ :: _ => .bool b
  | ⟨_, .number _⟩ :: _ => .number
  | ⟨_, .string ps⟩ :: _ => .string (decode ps)
  | ⟨s, .beginArray⟩ :: ls => .array (elements (⟨s, .beginArray⟩ :: ls))
  | ⟨s, .beginObject⟩ :: ls =>
    .object ((members (⟨s, .beginObject⟩ :: ls)).map fun m => (decode m.1, m.2))
  | _ => .null

/-- Decoding into a string variable; `null` leaves it alone. -/
def setString (current : Text) (ls : List Lexeme) : Option Text :=
  match view ls with
  | .string s => some s
  | .null => some current
  | _ => none

/-- Decoding into a bool variable. -/
def setBool (current : Bool) (ls : List Lexeme) : Option Bool :=
  match view ls with
  | .bool b => some b
  | .null => some current
  | _ => none

/-- `foldName`: the smallest rune of the fold set. Only the long s and the
Kelvin sign share a set with an ASCII letter. -/
def foldRune (c : Char) : Char :=
  if c = '\u017F' then 'S' else if c = '\u212A' then 'K' else c.toUpper

/-- The struct field for a key: the exact name first, then up to case. -/
def fieldNamed (names : List Text) (key : Text) : Option Text :=
  (names.find? (· = key)).or (names.find? fun n => n.map foldRune = key.map foldRune)

/-- A `RawMessage` as a decoder fills it: without white space around the value. -/
def IsRawMessage (s : Text) : Prop :=
  (∀ c ∈ s.head?, Library.Json.isSpace c = false) ∧
    ∀ c ∈ s.getLast?, Library.Json.isSpace c = false

instance (s : Text) : Decidable (IsRawMessage s) :=
  decidable_of_iff ((s.head?.all fun c => Library.Json.isSpace c = false) = true ∧
    (s.getLast?.all fun c => Library.Json.isSpace c = false) = true)
    (by simp [IsRawMessage, Option.all_eq_true])

/-- The same value: the same tokens up to white space and to the spelling of strings. -/
def SameValue (s t : Text) : Prop :=
  ∃ ls ls', scan s = some ls ∧ scan t = some ls' ∧
    List.Forall₂ Token.Same (ls.map Lexeme.token) (ls'.map Lexeme.token)

theorem scan_textOf {ts : List Token} (h : IsValue maxNestingDepth ts) :
    scan (textOf ts) = some (compacted ts) := by
  rw [scan, lex_textOf h.separated, Option.filter_some, map_token_compacted, if_pos (by simpa)]

/-- The text of a value is valid unless it is nested too deep. -/
theorem valid_textOf {limit : ℕ} {ts : List Token} (h : IsValue limit ts) :
    valid (textOf ts) = decide (IsValue maxNestingDepth ts) := by
  rw [valid, scan, lex_textOf h.separated, Option.filter_some, map_token_compacted]
  split_ifs with hd <;> simp_all

theorem isValue_of_scan {s : Text} {ls : List Lexeme} (h : scan s = some ls) :
    IsValue maxNestingDepth (ls.map Lexeme.token) := by
  rw [scan, Option.filter_eq_some_iff] at h
  simpa using h.2

theorem valid_iff {s : Text} : valid s = true ↔ ∃ ls, scan s = some ls := by
  rw [valid, Option.isSome_iff_exists]

theorem lex_of_scan {s : Text} {ls : List Lexeme} (h : scan s = some ls) : lex s = some ls :=
  (Option.filter_eq_some_iff.mp h).1

theorem SameValue.refl {s : Text} (h : valid s = true) : SameValue s s := by
  obtain ⟨ls, hls⟩ := valid_iff.mp h
  refine ⟨ls, ls, hls, hls, ?_⟩
  rw [List.forall₂_same]
  exact fun t _ => .inl rfl

theorem isValue_string (limit : ℕ) (ps : List Part) : IsValue limit [.string ps] := rfl

theorem isValue_bool (limit : ℕ) (b : Bool) : IsValue limit [.bool b] := rfl

theorem isValue_struct {limit : ℕ} {fields : List (Text × List Token)}
    (h : ∀ f ∈ fields, IsValue limit f.2) : IsValue (limit + 1) (structTokens fields) := by
  refine IsValue.object fun m hm => ?_
  obtain ⟨f, hf, rfl⟩ := List.mem_map.mp hm
  exact h f hf

theorem view_string (s : Text) : view (compacted [stringToken s]) = .string s := by
  simp [stringToken, compacted, view, decode_encode]

/-- A written struct is seen with the same names and values, in order. -/
theorem view_struct {limit : ℕ} {fields : List (Text × List Token)}
    (h : ∀ f ∈ fields, IsValue limit f.2) :
    view (compacted (structTokens fields)) =
      .object (fields.map fun f => (f.1, compacted f.2)) := by
  have hvalue : ∀ m ∈ fields.map fun f => (encode f.1, f.2), IsValue limit m.2 := by
    intro m hm
    obtain ⟨f, hf, rfl⟩ := List.mem_map.mp hm
    exact h f hf
  have hv : view (compacted (structTokens fields)) =
      .object ((members (compacted (structTokens fields))).map fun m => (decode m.1, m.2)) := rfl
  rw [hv, structTokens, members_objectTokens hvalue, List.map_map, List.map_map]
  simp [Function.comp_def, decode_encode]

theorem view_array {limit : ℕ} {vs : List (List Token)} (h : ∀ v ∈ vs, IsValue limit v) :
    view (compacted (arrayTokens vs)) = .array (vs.map compacted) := by
  rw [← elements_arrayTokens h]
  rfl

theorem view_eq_string {ls : List Lexeme} {s : Text} (h : view ls = .string s) :
    ∃ sp ps rest, ls = ⟨sp, .string ps⟩ :: rest ∧ decode ps = s := by
  unfold view at h
  split at h <;> cases h
  exact ⟨_, _, _, rfl, rfl⟩

theorem view_eq_object {ls : List Lexeme} {ms : List (Text × List Lexeme)}
    (h : view ls = .object ms) :
    (∃ sp rest, ls = ⟨sp, .beginObject⟩ :: rest) ∧
      ms = (members ls).map fun m => (decode m.1, m.2) := by
  unfold view at h
  split at h <;> cases h
  exact ⟨⟨_, _, rfl⟩, rfl⟩

theorem view_eq_array {ls : List Lexeme} {es : List (List Lexeme)} (h : view ls = .array es) :
    ∃ sp rest, ls = ⟨sp, .beginArray⟩ :: rest := by
  unfold view at h
  split at h <;> cases h
  exact ⟨_, _, rfl⟩

theorem view_eq_null {ls : List Lexeme} (h : view ls = .null)
    (hvalue : IsValue maxNestingDepth (ls.map Lexeme.token)) : ∃ sp, ls = [⟨sp, .null⟩] := by
  cases ls with
  | nil => exact absurd rfl hvalue.ne_nil
  | cons l ls =>
      obtain ⟨sp, t⟩ := l
      cases t with
      | null =>
          have hnil := hvalue.eq_singleton rfl
          exact ⟨sp, by rw [List.map_eq_nil_iff.mp hnil]⟩
      | bool | number | string | beginArray | beginObject => cases h
      | endObject | endArray | colon | comma => cases hvalue

/-- A key and the field it names differ at most in their case. -/
theorem length_of_fieldNamed {names : List Text} {key name : Text}
    (h : fieldNamed names key = some name) : key.length = name.length := by
  rcases Option.or_eq_some_iff.mp h with h | ⟨_, h⟩
  · have heq : name = key := by simpa using List.find?_some h
    rw [heq]
  · have heq : name.map foldRune = key.map foldRune := by simpa using List.find?_some h
    simpa using (congrArg List.length heq).symm

/-- The only raw message of the value null. -/
theorem eq_null_of_scan {s sp : Text} (hraw : IsRawMessage s) (h : scan s = some [⟨sp, .null⟩]) :
    s = "null".toList := by
  have hlex := lex_of_scan h
  obtain ⟨rest, hs, hrest⟩ := lex_null hlex
  have hsp : sp = [] := by
    cases sp with
    | nil => rfl
    | cons c sp =>
        have hspace := lex_space hlex _ List.mem_cons_self c List.mem_cons_self
        have hhead := hraw.1 c (by rw [hs]; rfl)
        rw [hspace] at hhead
        cases hhead
  have hnil : rest = [] := by
    rcases List.eq_nil_or_concat rest with hnil | ⟨cs, c, hcs⟩
    · exact hnil
    · have hspace := hrest c (by simp [hcs])
      have hend : s = sp ++ "null".toList ++ cs ++ [c] := by
        rw [hs, hcs, List.concat_eq_append, List.append_assoc _ cs]
      have hlast := hraw.2 c (by rw [hend, List.getLast?_concat]; rfl)
      rw [hspace] at hlast
      cases hlast
  rw [hs, hsp, hnil]
  rfl

end SecureShare.Go.Json
