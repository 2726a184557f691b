import Mathlib.Data.List.Basic
import Mathlib.Data.List.TakeDrop
import Mathlib.Data.List.TakeWhile
import Mathlib.Tactic.Tauto

/-!
# JSON tokens

The lexical level of JSON over Unicode scalars. Tokens keep what was written:
the literal of a number and the escapes of a string, so a text can be compacted
without reading its values. Lexing returns each token with the white space in
front of it and forgets nothing.
-/
namespace SecureShare.Library.Json

abbrev Text := List Char

/-- The four white-space characters of JSON. -/
def isSpace (c : Char) : Bool := c == ' ' || c == '\t' || c == '\n' || c == '\r'

def isDigit (c : Char) : Bool := '0' ≤ c && c ≤ '9'

def isHex (c : Char) : Bool := isDigit c || ('a' ≤ c && c ≤ 'f') || ('A' ≤ c && c ≤ 'F')

/-- May stand for itself between the quotes. -/
def isPlain (c : Char) : Bool := c != '"' && c != '\\' && ' ' ≤ c

/-- May follow a backslash on its own. -/
def isEscape (c : Char) : Bool :=
  c == '"' || c == '\\' || c == '/' || c == 'b' || c == 'f' || c == 'n' || c == 'r' || c == 't'

/-- One written element of a string literal. -/
inductive Part where
  | plain (c : Char) (ok : isPlain c = true)
  | short (c : Char) (ok : isEscape c = true)
  | hex (a b c d : Char) (ok : (isHex a && isHex b && isHex c && isHex d) = true)
  deriving DecidableEq, Repr

def Part.text : Part → Text
  | .plain c _ => [c]
  | .short c _ => ['\\', c]
  | .hex a b c d _ => ['\\', 'u', a, b, c, d]

/-- Where a scanner stands inside a number. -/
inductive NumberState where
  | neg | zero | int | dot | dot0 | e | eSign | e0
  deriving DecidableEq, Repr

namespace NumberState

def start (c : Char) : Option NumberState :=
  if c = '-' then some .neg
  else if c = '0' then some .zero
  else if isDigit c then some .int
  else none

private def tail (c : Char) : Option NumberState :=
  if c = '.' then some .dot else if c = 'e' ∨ c = 'E' then some .e else none

def next (s : NumberState) (c : Char) : Option NumberState :=
  match s with
  | .neg => if c = '0' then some .zero else if isDigit c then some .int else none
  | .zero => tail c
  | .int => if isDigit c then some .int else tail c
  | .dot => if isDigit c then some .dot0 else none
  | .dot0 => if isDigit c then some .dot0 else if c = 'e' ∨ c = 'E' then some .e else none
  | .e => if c = '+' ∨ c = '-' then some .eSign else if isDigit c then some .e0 else none
  | .eSign => if isDigit c then some .e0 else none
  | .e0 => if isDigit c then some .e0 else none

def accepting : NumberState → Bool
  | .zero | .int | .dot0 | .e0 => true
  | _ => false

/-- The whole rest of the literal is read and ends in an accepting state. -/
@[grind =] def accepts : NumberState → Text → Bool
  | s, [] => s.accepting
  | s, c :: cs => (s.next c).any fun t => t.accepts cs

/-- The longest continuation of a number, and what follows it. -/
@[grind =] def span : NumberState → Text → Text × Text
  | _, [] => ([], [])
  | s, c :: cs =>
    match s.next c with
    | some t => (c :: (t.span cs).1, (t.span cs).2)
    | none => ([], c :: cs)

end NumberState

def isNumber : Text → Bool
  | [] => false
  | c :: cs => (NumberState.start c).any fun s => s.accepts cs

/-- The literal of a number. -/
structure Number where
  text : Text
  ok : isNumber text = true
  deriving DecidableEq, Repr

inductive Token where
  | beginObject | endObject | beginArray | endArray | colon | comma
  | null
  | bool (b : Bool)
  | number (n : Number)
  | string (parts : List Part)
  deriving DecidableEq, Repr

namespace Token

def text : Token → Text
  | .beginObject => ['{']
  | .endObject => ['}']
  | .beginArray => ['[']
  | .endArray => [']']
  | .colon => [':']
  | .comma => [',']
  | .null => ['n', 'u', 'l', 'l']
  | .bool true => ['t', 'r', 'u', 'e']
  | .bool false => ['f', 'a', 'l', 's', 'e']
  | .number n => n.text
  | .string ps => '"' :: (ps.flatMap Part.text ++ ['"'])

def isPunctuation : Token → Bool
  | .beginObject | .endObject | .beginArray | .endArray | .colon | .comma => true
  | _ => false

def isNumeric : Token → Bool
  | .number _ => true
  | _ => false

theorem text_ne_nil (t : Token) : t.text ≠ [] := by
  cases t with
  | bool b => cases b <;> simp [text]
  | number n =>
      obtain ⟨cs, h⟩ := n
      cases cs with
      | nil => simp [isNumber] at h
      | cons c cs => simp [text]
  | _ => simp [text]

end Token

/-- A token after the white space in front of it. -/
structure Lexeme where
  space : Text
  token : Token
  deriving DecidableEq, Repr

/-- Reads a string literal after its opening quote. -/
@[grind =] def lexString : Text → Option (List Part × Text)
  | [] => none
  | '"' :: cs => some ([], cs)
  | '\\' :: 'u' :: a :: b :: c :: d :: cs =>
    if h : (isHex a && isHex b && isHex c && isHex d) = true then
      (lexString cs).map fun r => (.hex a b c d h :: r.1, r.2)
    else none
  | '\\' :: c :: cs =>
    if h : isEscape c = true then (lexString cs).map fun r => (.short c h :: r.1, r.2) else none
  | c :: cs =>
    if h : isPlain c = true then (lexString cs).map fun r => (.plain c h :: r.1, r.2) else none

/-- A number is read as far as it goes and then has to be complete. -/
def lexNumber (c : Char) (cs : Text) : Option (Token × Text) :=
  (NumberState.start c).bind fun s =>
    if h : isNumber (c :: (s.span cs).1) = true then some (.number ⟨_, h⟩, (s.span cs).2) else none

@[grind =] def lexToken : Text → Option (Token × Text)
  | [] => none
  | '{' :: rest => some (.beginObject, rest)
  | '}' :: rest => some (.endObject, rest)
  | '[' :: rest => some (.beginArray, rest)
  | ']' :: rest => some (.endArray, rest)
  | ':' :: rest => some (.colon, rest)
  | ',' :: rest => some (.comma, rest)
  | 'n' :: 'u' :: 'l' :: 'l' :: rest => some (.null, rest)
  | 't' :: 'r' :: 'u' :: 'e' :: rest => some (.bool true, rest)
  | 'f' :: 'a' :: 'l' :: 's' :: 'e' :: rest => some (.bool false, rest)
  | '"' :: rest => (lexString rest).map fun r => (.string r.1, r.2)
  | c :: rest => lexNumber c rest

/-- Each token takes one unit of fuel; the white space at the end is returned. -/
@[grind =] def lexAux : ℕ → Text → Option (List Lexeme × Text)
  | 0, _ => none
  | fuel + 1, s =>
    if s.dropWhile isSpace = [] then some ([], s.takeWhile isSpace)
    else (lexToken (s.dropWhile isSpace)).bind fun t =>
      (lexAux fuel t.2).map fun r => (⟨s.takeWhile isSpace, t.1⟩ :: r.1, r.2)

/-- Every token has at least one character, so the length is enough fuel. -/
def lex (s : Text) : Option (List Lexeme) := (lexAux (s.length + 1) s).map Prod.fst

/-- The text of a token sequence without any white space. -/
def textOf (ts : List Token) : Text := ts.flatMap Token.text

/-- Lexemes without white space. -/
def compacted (ts : List Token) : List Lexeme := ts.map (Lexeme.mk [])

@[simp] theorem textOf_nil : textOf [] = [] := rfl

@[simp] theorem textOf_cons (t : Token) (ts : List Token) :
    textOf (t :: ts) = t.text ++ textOf ts := rfl

@[simp] theorem textOf_append (ts us : List Token) : textOf (ts ++ us) = textOf ts ++ textOf us :=
  List.flatMap_append

@[simp] theorem compacted_cons (t : Token) (ts : List Token) :
    compacted (t :: ts) = ⟨[], t⟩ :: compacted ts := rfl

@[simp] theorem compacted_append (ts us : List Token) :
    compacted (ts ++ us) = compacted ts ++ compacted us := List.map_append

theorem length_le_length_textOf (ts : List Token) : ts.length ≤ (textOf ts).length := by
  induction ts with
  | nil => simp
  | cons t ts ih =>
      have := List.length_pos_iff.mpr t.text_ne_nil
      simp only [List.length_cons, textOf_cons, List.length_append]
      omega

/-- Lexing a written string literal gives its elements back. -/
theorem lexString_text (ps : List Part) (rest : Text) :
    lexString (ps.flatMap Part.text ++ '"' :: rest) = some (ps, rest) := by
  induction ps with
  | nil => simp [lexString]
  | cons p ps ih =>
      rw [List.flatMap_cons, List.append_assoc]
      cases p with
      | plain c ok =>
          have hc := ok
          simp only [isPlain, Bool.and_eq_true, bne_iff_ne, ne_eq] at hc
          simp [Part.text, lexString, hc.1.1, hc.1.2, ok, ih]
      | short c ok =>
          have hu : c ≠ 'u' := by
            rintro rfl
            exact absurd ok (by decide)
          simp [Part.text, lexString, hu, ok, ih]
      | hex a b c d ok =>
          have hh := ok
          simp only [Bool.and_eq_true] at hh
          simp [Part.text, lexString, hh, ih]

/-- The characters that can continue a number. -/
def continuesNumber (c : Char) : Bool :=
  isDigit c || c == '.' || c == 'e' || c == 'E' || c == '+' || c == '-'

namespace NumberState

theorem next_eq_none {c : Char} (h : continuesNumber c = false) (s : NumberState) :
    s.next c = none := by
  simp only [continuesNumber, Bool.or_eq_false_iff, beq_eq_false_iff_ne, ne_eq] at h
  obtain ⟨⟨⟨⟨⟨hd, hp⟩, he⟩, hE⟩, hplus⟩, hminus⟩ := h
  have hzero : c ≠ '0' := by
    rintro rfl
    exact absurd hd (by decide)
  cases s <;> simp [next, tail, hd, hp, he, hE, hplus, hminus, hzero]

theorem span_append {s : NumberState} {cs rest : Text} (h : s.accepts cs = true)
    (hrest : ∀ c ∈ rest.head?, continuesNumber c = false) :
    s.span (cs ++ rest) = (cs, rest) := by
  induction cs generalizing s with
  | nil =>
      cases rest with
      | nil => rfl
      | cons c rest => simp [span, next_eq_none (hrest c rfl)]
  | cons c cs ih =>
      simp only [accepts, Option.any_eq_true] at h
      obtain ⟨t, ht, h⟩ := h
      simp [span, ht, ih h]

end NumberState

theorem lexNumber_text (n : Number) (rest : Text)
    (hrest : ∀ c ∈ rest.head?, continuesNumber c = false) :
    ∃ c cs, n.text = c :: cs ∧ lexNumber c (cs ++ rest) = some (.number n, rest) := by
  obtain ⟨text, ok⟩ := n
  cases text with
  | nil => simp [isNumber] at ok
  | cons c cs =>
      have h := ok
      simp only [isNumber, Option.any_eq_true] at h
      obtain ⟨s, hs, h⟩ := h
      refine ⟨c, cs, rfl, ?_⟩
      simp [lexNumber, hs, NumberState.span_append h hrest, ok]

theorem NumberState.start_eq_some {c : Char} {s : NumberState} (h : start c = some s) :
    c = '-' ∨ isDigit c = true := by
  unfold start at h
  split_ifs at h with h1 h2 h3
  · exact .inl h1
  · exact .inr (by rw [h2]; decide)
  · exact .inr h3

/-- The first character of a number belongs to no other token. -/
theorem lexToken_eq_lexNumber {c : Char} (h : c = '-' ∨ isDigit c = true) (rest : Text) :
    lexToken (c :: rest) = lexNumber c rest := by
  have hne : ∀ d : Char, d ≠ '-' → isDigit d = false → c ≠ d := by
    rintro d hd hdig rfl
    rcases h with h | h
    · exact hd h
    · rw [h] at hdig
      cases hdig
  rw [lexToken.eq_def]
  split <;> cases ‹c :: rest = _›
  case h_12 => rfl
  all_goals exact absurd rfl (hne _ (by decide) (by decide))

/-- Reading a written token back; only a number needs to know what follows. -/
theorem lexToken_text (t : Token) (rest : Text)
    (hrest : t.isNumeric = true → ∀ c ∈ rest.head?, continuesNumber c = false) :
    lexToken (t.text ++ rest) = some (t, rest) := by
  cases t with
  | number n =>
      obtain ⟨c, cs, hc, hlex⟩ := lexNumber_text n rest (hrest rfl)
      have hstart : c = '-' ∨ isDigit c = true := by
        have ok := n.ok
        rw [hc] at ok
        simp only [isNumber, Option.any_eq_true] at ok
        obtain ⟨s, hs, _⟩ := ok
        exact NumberState.start_eq_some hs
      rw [Token.text, hc, List.cons_append, lexToken_eq_lexNumber hstart, hlex]
  | string ps => simp [Token.text, lexToken, lexString_text]
  | bool b => cases b <;> rfl
  | _ => rfl

/-- No number is followed by a token that could be read as its continuation. -/
def Separated (ts : List Token) : Prop :=
  List.IsChain (fun t u => t.isNumeric = true → u.isPunctuation = true) ts

theorem head_text_of_punctuation {t : Token} (h : t.isPunctuation = true) (rest : Text) :
    ∀ c ∈ (t.text ++ rest).head?, continuesNumber c = false := by
  cases t with
  | null | bool | number | string => cases h
  | _ => simp [Token.text, continuesNumber, isDigit]

theorem isSpace_head_text (t : Token) : ∀ c ∈ t.text.head?, isSpace c = false := by
  cases t with
  | number n =>
      obtain ⟨text, ok⟩ := n
      cases text with
      | nil => simp [Token.text]
      | cons c cs =>
          simp only [isNumber, Option.any_eq_true] at ok
          obtain ⟨s, hs, _⟩ := ok
          simp only [Token.text, List.head?_cons, Option.mem_def, Option.some.injEq, forall_eq']
          rcases NumberState.start_eq_some hs with rfl | hd
          · decide
          · simp only [isDigit, Bool.and_eq_true, decide_eq_true_eq] at hd
            unfold isSpace
            simp only [Bool.or_eq_false_iff, beq_eq_false_iff_ne, ne_eq]
            refine ⟨⟨⟨?_, ?_⟩, ?_⟩, ?_⟩ <;> rintro rfl <;> exact absurd hd.1 (by decide)
  | bool b => cases b <;> simp [Token.text, isSpace]
  | _ => simp [Token.text, isSpace]

/-- The text of lexemes, with the white space in front of each. -/
def spacedText (ls : List Lexeme) : Text := ls.flatMap fun l => l.space ++ l.token.text

theorem textOf_eq_spacedText (ts : List Token) : textOf ts = spacedText (compacted ts) := by
  simp [textOf, spacedText, compacted, List.flatMap_map]

theorem not_continuesNumber_of_isSpace {c : Char} (h : isSpace c = true) :
    continuesNumber c = false := by
  simp only [isSpace, Bool.or_eq_true, beq_iff_eq] at h
  rcases h with ((rfl | rfl) | rfl) | rfl <;> rfl

/-- What follows a number is white space or punctuation. -/
private theorem head_spacedText {t : Token} {ls : List Lexeme} {w : Text}
    (hspace : ∀ l ∈ ls, ∀ c ∈ l.space, isSpace c = true) (hw : ∀ c ∈ w, isSpace c = true)
    (h : Separated (t :: ls.map Lexeme.token)) (ht : t.isNumeric = true) :
    ∀ c ∈ (spacedText ls ++ w).head?, continuesNumber c = false := by
  cases ls with
  | nil => exact fun c hc => not_continuesNumber_of_isSpace (hw c (List.mem_of_mem_head? hc))
  | cons l ls =>
      intro c hc
      rw [spacedText, List.flatMap_cons, List.append_assoc, List.append_assoc] at hc
      cases hsp : l.space with
      | nil =>
          rw [hsp] at hc
          exact head_text_of_punctuation ((List.isChain_cons_cons.mp h).1 ht) _ c hc
      | cons d ds =>
          rw [hsp] at hc
          cases hc
          exact not_continuesNumber_of_isSpace (hspace l List.mem_cons_self _ (by simp [hsp]))

/-- White space behind the last token is returned. -/
theorem lexAux_spacedText_append {ls : List Lexeme} {w : Text}
    (hspace : ∀ l ∈ ls, ∀ c ∈ l.space, isSpace c = true) (hw : ∀ c ∈ w, isSpace c = true)
    (h : Separated (ls.map Lexeme.token)) {fuel : ℕ} (hfuel : ls.length < fuel) :
    lexAux fuel (spacedText ls ++ w) = some (ls, w) := by
  induction ls generalizing fuel with
  | nil =>
      obtain ⟨fuel, rfl⟩ := Nat.exists_eq_succ_of_ne_zero (by omega : fuel ≠ 0)
      have hdrop : w.dropWhile isSpace = [] := List.dropWhile_eq_nil_iff.mpr hw
      have htake : w.takeWhile isSpace = w := List.takeWhile_eq_self_iff.mpr hw
      change lexAux (fuel + 1) w = _
      rw [lexAux, if_pos hdrop, htake]
  | cons l ls ih =>
      obtain ⟨fuel, rfl⟩ := Nat.exists_eq_succ_of_ne_zero (by omega : fuel ≠ 0)
      have hrest : ∀ l' ∈ ls, ∀ c ∈ l'.space, isSpace c = true := fun l' hl' =>
        hspace l' (List.mem_cons_of_mem l hl')
      have hrec : lexAux fuel (spacedText ls ++ w) = some (ls, w) :=
        ih hrest (List.IsChain.of_cons h) (by simpa using hfuel)
      have htoken : lexToken (l.token.text ++ (spacedText ls ++ w)) =
          some (l.token, spacedText ls ++ w) :=
        lexToken_text l.token _ (head_spacedText hrest hw h)
      obtain ⟨c, cs, hcs⟩ := List.exists_cons_of_ne_nil l.token.text_ne_nil
      have hc : isSpace c = false := isSpace_head_text l.token c (by simp [hcs])
      have htext : spacedText (l :: ls) ++ w = l.space ++ (l.token.text ++ (spacedText ls ++ w)) := by
        rw [spacedText, List.flatMap_cons, List.append_assoc, List.append_assoc]
        rfl
      have hl := hspace l List.mem_cons_self
      rw [hcs, List.cons_append] at htoken htext
      rw [lexAux, htext, List.dropWhile_append_of_pos hl, List.takeWhile_append_of_pos hl]
      simp [hc, htoken, hrec]

theorem lexAux_spacedText {ls : List Lexeme}
    (hspace : ∀ l ∈ ls, ∀ c ∈ l.space, isSpace c = true) (h : Separated (ls.map Lexeme.token))
    {fuel : ℕ} (hfuel : ls.length < fuel) : lexAux fuel (spacedText ls) = some (ls, []) := by
  have happend := lexAux_spacedText_append (w := []) hspace (by simp) h hfuel
  rwa [List.append_nil] at happend

theorem length_le_length_spacedText (ls : List Lexeme) : ls.length ≤ (spacedText ls).length := by
  induction ls with
  | nil => simp
  | cons l ls ih =>
      have := List.length_pos_iff.mpr l.token.text_ne_nil
      rw [spacedText, List.flatMap_cons, List.length_append, List.length_append, List.length_cons]
      rw [spacedText] at ih
      omega

/-- Lexing the text of separated lexemes gives exactly these lexemes. -/
theorem lex_spacedText {ls : List Lexeme} (hspace : ∀ l ∈ ls, ∀ c ∈ l.space, isSpace c = true)
    (h : Separated (ls.map Lexeme.token)) : lex (spacedText ls) = some ls := by
  have := length_le_length_spacedText ls
  rw [lex, lexAux_spacedText hspace h (by omega), Option.map_some]

/-- White space at the end changes nothing. -/
theorem lex_spacedText_append {ls : List Lexeme} {w : Text}
    (hspace : ∀ l ∈ ls, ∀ c ∈ l.space, isSpace c = true) (hw : ∀ c ∈ w, isSpace c = true)
    (h : Separated (ls.map Lexeme.token)) : lex (spacedText ls ++ w) = some ls := by
  have := length_le_length_spacedText ls
  have hfuel : ls.length < (spacedText ls ++ w).length + 1 := by
    rw [List.length_append]
    omega
  rw [lex, lexAux_spacedText_append hspace hw h hfuel, Option.map_some]

/-- Lexing the compact text of separated tokens gives exactly these tokens. -/
theorem lex_textOf {ts : List Token} (h : Separated ts) : lex (textOf ts) = some (compacted ts) := by
  rw [textOf_eq_spacedText]
  apply lex_spacedText
  · simp [compacted]
  · rw [compacted, List.map_map]
    exact (List.map_id ts).symm ▸ h

private theorem lexAux_space {fuel : ℕ} {s : Text} {r : List Lexeme × Text}
    (h : lexAux fuel s = some r) : ∀ l ∈ r.1, ∀ c ∈ l.space, isSpace c = true := by
  induction fuel generalizing s r with
  | zero => cases h
  | succ fuel ih =>
      rw [lexAux] at h
      split_ifs at h with hnil
      · cases h
        simp
      · obtain ⟨t, _, h⟩ := Option.bind_eq_some_iff.mp h
        obtain ⟨r', hr', rfl⟩ := Option.map_eq_some_iff.mp h
        intro l hl
        rcases List.mem_cons.mp hl with rfl | hl
        · exact fun c hc => List.mem_takeWhile_imp hc
        · exact ih hr' l hl

/-- In front of a token there is only white space. -/
theorem lex_space {s : Text} {ls : List Lexeme} (h : lex s = some ls) :
    ∀ l ∈ ls, ∀ c ∈ l.space, isSpace c = true := by
  obtain ⟨r, hr, rfl⟩ := Option.map_eq_some_iff.mp h
  exact lexAux_space hr

private theorem lexToken_null {s rest : Text} (h : lexToken s = some (.null, rest)) :
    s = 'n' :: 'u' :: 'l' :: 'l' :: rest := by
  rw [lexToken.eq_def] at h
  split at h
  case h_8 =>
    cases h
    rfl
  case h_11 =>
    obtain ⟨_, _, heq⟩ := Option.map_eq_some_iff.mp h
    cases heq
  case h_12 =>
    obtain ⟨_, _, h⟩ := Option.bind_eq_some_iff.mp h
    split_ifs at h
    cases h
  all_goals cases h

/-- The texts of the value null. -/
theorem lex_null {s sp : Text} (h : lex s = some [⟨sp, .null⟩]) :
    ∃ rest, s = sp ++ "null".toList ++ rest ∧ ∀ c ∈ rest, isSpace c = true := by
  obtain ⟨⟨_, _⟩, hr, rfl⟩ := Option.map_eq_some_iff.mp h
  rw [lexAux] at hr
  split_ifs at hr
  · cases hr
  obtain ⟨⟨t, rest⟩, ht, hr⟩ := Option.bind_eq_some_iff.mp hr
  obtain ⟨⟨ls, _⟩, hrest, heq⟩ := Option.map_eq_some_iff.mp hr
  cases heq
  refine ⟨rest, ?_, ?_⟩
  · calc s = s.takeWhile isSpace ++ s.dropWhile isSpace := List.takeWhile_append_dropWhile.symm
      _ = _ := by rw [lexToken_null ht, List.append_assoc]; rfl
  · cases hlen : s.length with
    | zero =>
        rw [hlen] at hrest
        cases hrest
    | succ n =>
        rw [hlen, lexAux] at hrest
        split_ifs at hrest with hnil
        · exact List.dropWhile_eq_nil_iff.mp hnil
        · obtain ⟨_, _, hrest⟩ := Option.bind_eq_some_iff.mp hrest
          obtain ⟨_, _, heq⟩ := Option.map_eq_some_iff.mp hrest
          cases heq

end SecureShare.Library.Json
