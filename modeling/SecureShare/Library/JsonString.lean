import SecureShare.Library.JsonGrammar
import Mathlib.Data.List.Forall2

/-!
# JSON strings

The text that a string literal denotes, and the literal that an encoder writes
for a text. The encoder also escapes the characters that are special in HTML
and in scripts; escaping them afterwards, in a literal that somebody else wrote,
does not change the text either.
-/
namespace SecureShare.Library.Json

def hexValue (c : Char) : ℕ :=
  if isDigit c then c.toNat - 48 else if 'a' ≤ c then c.toNat - 87 else c.toNat - 55

/-- The UTF-16 code unit written by four hexadecimal digits. -/
def codeUnit (a b c d : Char) : ℕ :=
  4096 * hexValue a + 256 * hexValue b + 16 * hexValue c + hexValue d

def isHighSurrogate (u : ℕ) : Bool := 0xD800 ≤ u && u < 0xDC00

def isLowSurrogate (u : ℕ) : Bool := 0xDC00 ≤ u && u < 0xE000

def replacement : Char := '\uFFFD'

/-- A code unit on its own; half of a pair becomes the replacement character. -/
def loneUnit (u : ℕ) : Char :=
  if isHighSurrogate u || isLowSurrogate u then replacement else Char.ofNat u

def surrogatePair (u l : ℕ) : Char := Char.ofNat (0x10000 + 0x400 * (u - 0xD800) + (l - 0xDC00))

def unescape (c : Char) : Char :=
  match c with
  | 'b' => '\u0008'
  | 'f' => '\u000c'
  | 'n' => '\n'
  | 'r' => '\r'
  | 't' => '\t'
  | c => c

/-- The text between the quotes of a literal. -/
@[grind =] def decode : List Part → Text
  | [] => []
  | .plain c _ :: ps => c :: decode ps
  | .short c _ :: ps => unescape c :: decode ps
  | .hex a b c d _ :: .hex a' b' c' d' h' :: ps =>
    if isHighSurrogate (codeUnit a b c d) && isLowSurrogate (codeUnit a' b' c' d') then
      surrogatePair (codeUnit a b c d) (codeUnit a' b' c' d') :: decode ps
    else loneUnit (codeUnit a b c d) :: decode (.hex a' b' c' d' h' :: ps)
  | .hex a b c d _ :: ps => loneUnit (codeUnit a b c d) :: decode ps

def hexDigit (n : ℕ) : Char := if n < 10 then Char.ofNat (48 + n) else Char.ofNat (87 + n)

theorem isHex_hexDigit : ∀ n < 16, isHex (hexDigit n) = true := by decide

theorem hexValue_hexDigit : ∀ n < 16, hexValue (hexDigit n) = n := by decide

/-- The four-digit escape of a code unit, in lower case. -/
def hexPart (n : ℕ) : Part :=
  .hex (hexDigit (n / 4096 % 16)) (hexDigit (n / 256 % 16)) (hexDigit (n / 16 % 16))
    (hexDigit (n % 16)) (by simp [isHex_hexDigit _ (Nat.mod_lt _ (by decide : 0 < 16))])

/-- Special in HTML or a line terminator of JavaScript. -/
def isUnsafe (c : Char) : Bool :=
  c == '<' || c == '>' || c == '&' || c == '\u2028' || c == '\u2029'

def Part.escapeHTML : Part → Part
  | .plain c h => if isUnsafe c then hexPart c.toNat else .plain c h
  | p => p

def Token.escapeHTML : Token → Token
  | .string ps => .string (ps.map Part.escapeHTML)
  | t => t

/-- What the encoder writes for one character. -/
def encodeChar (c : Char) : Part :=
  if h : isPlain c = true then Part.escapeHTML (.plain c h)
  else if c = '"' then .short '"' rfl
  else if c = '\\' then .short '\\' rfl
  else if c = '\u0008' then .short 'b' rfl
  else if c = '\u000c' then .short 'f' rfl
  else if c = '\n' then .short 'n' rfl
  else if c = '\r' then .short 'r' rfl
  else if c = '\t' then .short 't' rfl
  else hexPart c.toNat

def encode (s : Text) : List Part := s.map encodeChar

theorem codeUnit_hexDigit {n : ℕ} (h : n < 65536) :
    codeUnit (hexDigit (n / 4096 % 16)) (hexDigit (n / 256 % 16)) (hexDigit (n / 16 % 16))
      (hexDigit (n % 16)) = n := by
  have hmod := fun m => hexValue_hexDigit (m % 16) (Nat.mod_lt m (by decide))
  rw [codeUnit, hmod, hmod, hmod, hmod]
  omega

theorem loneUnit_of_lt {n : ℕ} (h : n < 0xD800) : loneUnit n = Char.ofNat n := by
  rw [loneUnit, if_neg]
  simp only [isHighSurrogate, isLowSurrogate, Bool.or_eq_true, Bool.and_eq_true,
    decide_eq_true_eq]
  omega

private theorem not_surrogate {n : ℕ} (h : n < 0xD800) :
    isHighSurrogate n = false ∧ isLowSurrogate n = false := by
  constructor
  · simp only [isHighSurrogate, Bool.and_eq_false_iff, decide_eq_false_iff_not]
    omega
  · simp only [isLowSurrogate, Bool.and_eq_false_iff, decide_eq_false_iff_not]
    omega

theorem decode_hexPart {n : ℕ} (h : n < 0xD800) (ps : List Part) :
    decode (hexPart n :: ps) = Char.ofNat n :: decode ps := by
  have hunit := codeUnit_hexDigit (n := n) (by omega)
  rw [hexPart]
  cases ps with
  | nil => simp only [decode, hunit, loneUnit_of_lt h]
  | cons p ps =>
      cases p <;> simp [decode, hunit, loneUnit_of_lt h, (not_surrogate h).1]

private theorem decode_hex_cons {a b c d : Char} (ok) {p : Part}
    (hp : ∀ e f g i ok, p ≠ .hex e f g i ok) (ps : List Part) :
    decode (.hex a b c d ok :: p :: ps) = loneUnit (codeUnit a b c d) :: decode (p :: ps) := by
  cases p with
  | hex e f g i ok => exact absurd rfl (hp e f g i ok)
  | _ => rfl

/-- An escape of a character that is no surrogate pairs with nothing before it. -/
theorem decode_hex_hexPart {a b c d : Char} (ok) {n : ℕ} (h : n < 0xD800) (ps : List Part) :
    decode (.hex a b c d ok :: hexPart n :: ps) =
      loneUnit (codeUnit a b c d) :: decode (hexPart n :: ps) := by
  have hunit := codeUnit_hexDigit (n := n) (by omega)
  rw [hexPart, decode, hunit, (not_surrogate h).2, Bool.and_false]
  rfl

private theorem isUnsafe_lt {c : Char} (h : isUnsafe c = true) : c.toNat < 0xD800 := by
  simp only [isUnsafe, Bool.or_eq_true, beq_iff_eq] at h
  rcases h with (((rfl | rfl) | rfl) | rfl) | rfl <;> decide

theorem decode_plain_escapeHTML {c : Char} (h : isPlain c = true) (ps : List Part) :
    decode (Part.escapeHTML (.plain c h) :: ps) = c :: decode ps := by
  rw [Part.escapeHTML]
  split_ifs with hc
  · rw [decode_hexPart (isUnsafe_lt hc), Char.ofNat_toNat]
  · rw [decode]

theorem decode_escapeHTML (ps : List Part) : decode (ps.map Part.escapeHTML) = decode ps := by
  induction ps using decode.induct with
  | case1 => rfl
  | case2 c h ps ih => rw [List.map_cons, decode_plain_escapeHTML, ih, decode]
  | case3 c h ps ih =>
      change decode (.short c h :: ps.map Part.escapeHTML) = _
      rw [decode, decode, ih]
  | case4 a b c d h a' b' c' d' h' ps hpair ih =>
      change decode (.hex a b c d h :: .hex a' b' c' d' h' :: ps.map Part.escapeHTML) = _
      rw [decode, decode, if_pos hpair, if_pos hpair, ih]
  | case5 a b c d h a' b' c' d' h' ps hpair ih =>
      change decode (.hex a b c d h :: .hex a' b' c' d' h' :: ps.map Part.escapeHTML) = _
      change decode (.hex a' b' c' d' h' :: ps.map Part.escapeHTML) = _ at ih
      rw [decode, decode, if_neg hpair, if_neg hpair, ih]
  | case6 a b c d h ps hps ih =>
      cases ps with
      | nil => rfl
      | cons p ps =>
          cases p with
          | plain e he =>
              change decode (.hex a b c d h :: Part.escapeHTML (.plain e he) ::
                ps.map Part.escapeHTML) = _
              change decode (Part.escapeHTML (.plain e he) :: ps.map Part.escapeHTML) = _ at ih
              rw [decode_hex_cons (p := .plain e he) h (by simp), ← ih, Part.escapeHTML]
              split_ifs with hc
              · rw [decode_hex_hexPart _ (isUnsafe_lt hc)]
              · rw [decode_hex_cons h (by simp)]
          | short e he =>
              change decode (.hex a b c d h :: .short e he :: ps.map Part.escapeHTML) = _
              change decode (.short e he :: ps.map Part.escapeHTML) = _ at ih
              rw [decode_hex_cons h (by simp), decode_hex_cons h (by simp), ih]
          | hex e f g i hi => exact absurd rfl (hps e f g i hi ps)

private theorem control_lt {c : Char} (hplain : ¬isPlain c = true) (hquote : c ≠ '"')
    (hslash : c ≠ '\\') : c.toNat < 0xD800 := by
  simp only [isPlain, hquote, hslash, bne_iff_ne, ne_eq, not_false_iff, Bool.and_eq_true,
    true_and, decide_eq_true_eq] at hplain
  have : ¬32 ≤ c.toNat := hplain
  omega

theorem decode_encodeChar (c : Char) (ps : List Part) :
    decode (encodeChar c :: ps) = c :: decode ps := by
  unfold encodeChar
  split_ifs with hplain hquote hslash hb hf hn hr ht
  · exact decode_plain_escapeHTML hplain ps
  all_goals first
    | subst c; rfl
    | rw [decode_hexPart (control_lt hplain hquote hslash), Char.ofNat_toNat]

/-- A decoder reads the encoder's literal back. -/
theorem decode_encode (s : Text) : decode (encode s) = s := by
  induction s with
  | nil => rfl
  | cons c s ih =>
      rw [encode, List.map_cons, decode_encodeChar]
      exact congrArg (c :: ·) ih

/-- The encoder's output has nothing left to escape. -/
theorem escapeHTML_encodeChar (c : Char) : (encodeChar c).escapeHTML = encodeChar c := by
  unfold encodeChar
  split_ifs with hplain hquote hslash hb hf hn hr ht
  · simp only [Part.escapeHTML]
    split_ifs with hc
    · rfl
    · simp only [if_neg hc]
  all_goals rfl

theorem escapeHTML_escapeHTML (p : Part) : p.escapeHTML.escapeHTML = p.escapeHTML := by
  cases p with
  | plain c h =>
      simp only [Part.escapeHTML]
      split_ifs with hc
      · rfl
      · simp only [if_neg hc]
  | _ => rfl

namespace Token

/-- Two tokens that say the same, up to the spelling of a string. -/
def Same (t u : Token) : Prop :=
  t = u ∨ ∃ ps qs, t = .string ps ∧ u = .string qs ∧ decode ps = decode qs

theorem same_escapeHTML (t : Token) : t.Same t.escapeHTML := by
  cases t with
  | string ps => exact .inr ⟨ps, ps.map Part.escapeHTML, rfl, rfl, (decode_escapeHTML ps).symm⟩
  | _ => exact .inl rfl

/-- Only strings are spelled in more than one way. -/
theorem eq_of_same {t u : Token} (h : t.Same u) (ht : t.isPunctuation = true) : u = t := by
  rcases h with rfl | ⟨ps, _, rfl, _, _⟩
  · rfl
  · cases ht

theorem mem_of_same {ts us : List Token} (h : List.Forall₂ Same ts us) {t : Token}
    (ht : t ∈ ts) (hp : t.isPunctuation = true) : t ∈ us := by
  induction h with
  | nil => cases ht
  | cons hhead _ ih =>
      rcases List.mem_cons.mp ht with rfl | ht
      · rw [eq_of_same hhead hp]
        exact List.mem_cons_self
      · exact List.mem_cons_of_mem _ (ih ht)

@[simp] theorem escapeHTML_idem (t : Token) : t.escapeHTML.escapeHTML = t.escapeHTML := by
  cases t with
  | string ps =>
      simp only [escapeHTML, List.map_map]
      congr 1
      exact List.map_congr_left fun p _ => escapeHTML_escapeHTML p
  | _ => rfl

end Token

/-- The scanner does not look into strings. -/
theorem Scan.step_escapeHTML (limit : ℕ) (s : Scan) (t : Token) :
    s.step limit t.escapeHTML = s.step limit t := by
  cases t with
  | string ps =>
      obtain ⟨stack, mode⟩ := s
      cases mode with
      | endValue =>
          cases stack with
          | nil => rfl
          | cons f stack => cases f <;> rfl
      | _ => rfl
  | _ => rfl

theorem isValue_escapeHTML {limit : ℕ} {ts : List Token} :
    IsValue limit (ts.map Token.escapeHTML) ↔ IsValue limit ts := by
  have hrun : ∀ (ts : List Token) (s : Scan), Transition.run (Scan.step limit) s
      (ts.map Token.escapeHTML) = Transition.run (Scan.step limit) s ts := by
    intro ts
    induction ts with
    | nil => exact fun s => rfl
    | cons t ts ih =>
        intro s
        rw [List.map_cons, Transition.run_cons, Transition.run_cons, Scan.step_escapeHTML]
        exact Option.bind_congr fun u _ => ih u
  rw [IsValue, IsValue, hrun]

end SecureShare.Library.Json
