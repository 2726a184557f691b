import SecureShare.Library.JsonString
import Mathlib.Algebra.GroupWithZero.Nat

/-!
# The size of JSON texts

A lexer accounts for every byte, so a text is no shorter than the tokens in it, and an
object no shorter than its members. A string literal is no shorter than the shortest
spelling of what it denotes, in which only what must be escaped is.
-/
namespace SecureShare.Library.Json

/-- The number of bytes in UTF-8. -/
def size (s : Text) : ℕ := (s.map Char.utf8Size).sum

@[simp] theorem size_nil : size [] = 0 := rfl

@[simp] theorem size_cons (c : Char) (s : Text) : size (c :: s) = c.utf8Size + size s := by
  simp [size]

@[simp] theorem size_append (s t : Text) : size (s ++ t) = size s + size t := by simp [size]

theorem length_le_size (s : Text) : s.length ≤ size s := by
  induction s with
  | nil => exact le_rfl
  | cons c s ih =>
      have := c.utf8Size_pos
      rw [size_cons, List.length_cons]
      omega

/-! ### Lexing -/

theorem lexString_sound {cs rest : Text} {ps : List Part} (h : lexString cs = some (ps, rest)) :
    cs = ps.flatMap Part.text ++ '"' :: rest := by
  induction cs using lexString.induct generalizing ps with
  | case1 => cases h
  | case2 cs =>
      cases h
      rfl
  | case3 a b c d cs ok ih =>
      rw [lexString, dif_pos ok] at h
      obtain ⟨⟨qs, _⟩, hqs, heq⟩ := Option.map_eq_some_iff.mp h
      cases heq
      rw [ih hqs]
      rfl
  | case4 a b c d cs bad =>
      rw [lexString, dif_neg bad] at h
      cases h
  | case5 c cs hu ok ih =>
      rw [lexString.eq_4 _ _ hu, dif_pos ok] at h
      obtain ⟨⟨qs, _⟩, hqs, heq⟩ := Option.map_eq_some_iff.mp h
      cases heq
      rw [ih hqs]
      rfl
  | case6 c cs hu bad =>
      rw [lexString.eq_4 _ _ hu, dif_neg bad] at h
      cases h
  | case7 c cs hquote hu hslash ok ih =>
      rw [lexString.eq_5 _ _ hquote hu hslash, dif_pos ok] at h
      obtain ⟨⟨qs, _⟩, hqs, heq⟩ := Option.map_eq_some_iff.mp h
      cases heq
      rw [ih hqs]
      rfl
  | case8 c cs hquote hu hslash bad =>
      rw [lexString.eq_5 _ _ hquote hu hslash, dif_neg bad] at h
      cases h

theorem NumberState.span_sound (s : NumberState) (cs : Text) :
    (s.span cs).1 ++ (s.span cs).2 = cs := by
  induction cs generalizing s with
  | nil => rfl
  | cons c cs ih =>
      rw [span]
      cases s.next c with
      | none => rfl
      | some t => exact congrArg (c :: ·) (ih t)

theorem lexToken_sound {s rest : Text} {t : Token} (h : lexToken s = some (t, rest)) :
    s = t.text ++ rest := by
  rw [lexToken.eq_def] at h
  split at h
  case h_11 =>
    obtain ⟨⟨ps, _⟩, hps, heq⟩ := Option.map_eq_some_iff.mp h
    cases heq
    rw [lexString_sound hps]
    simp [Token.text]
  case h_12 =>
    obtain ⟨state, _, h⟩ := Option.bind_eq_some_iff.mp h
    split_ifs at h
    cases h
    exact congrArg (_ :: ·) (state.span_sound _).symm
  all_goals
    cases h
  all_goals rfl

/-- The bytes of the tokens, without the white space between them. -/
def weight (ls : List Lexeme) : ℕ := (ls.map fun l => size l.token.text).sum

@[simp] theorem weight_nil : weight [] = 0 := rfl

@[simp] theorem weight_cons (l : Lexeme) (ls : List Lexeme) :
    weight (l :: ls) = size l.token.text + weight ls := by
  simp [weight]

@[simp] theorem weight_append (ls ms : List Lexeme) : weight (ls ++ ms) = weight ls + weight ms := by
  simp [weight]

private theorem weight_le_of_lexAux {fuel : ℕ} {s : Text} {r : List Lexeme × Text}
    (h : lexAux fuel s = some r) : weight r.1 ≤ size s := by
  induction fuel generalizing s r with
  | zero => cases h
  | succ fuel ih =>
      rw [lexAux] at h
      split_ifs at h with hnil
      · cases h
        exact Nat.zero_le _
      · obtain ⟨⟨t, rest⟩, ht, h⟩ := Option.bind_eq_some_iff.mp h
        obtain ⟨r', hr', rfl⟩ := Option.map_eq_some_iff.mp h
        have hrest : weight r'.1 ≤ size rest := ih hr'
        have hsize : size s = size (s.takeWhile isSpace) + (size t.text + size rest) := by
          rw [← size_append, ← lexToken_sound ht, ← size_append, List.takeWhile_append_dropWhile]
        change size t.text + weight r'.1 ≤ size s
        omega

/-- A text is no shorter than its tokens. -/
theorem weight_le_size {s : Text} {ls : List Lexeme} (h : lex s = some ls) : weight ls ≤ size s := by
  obtain ⟨r, hr, rfl⟩ := Option.map_eq_some_iff.mp h
  exact weight_le_of_lexAux hr

/-- Without white space a text is exactly as long as its tokens. -/
theorem weight_compacted (ts : List Token) : weight (compacted ts) = size (textOf ts) := by
  induction ts with
  | nil => rfl
  | cons t ts ih => rw [compacted_cons, weight_cons, ih, textOf_cons, size_append]

/-! ### The members of an object -/

theorem Token.size_text_pos (t : Token) : 0 < size t.text :=
  (List.length_pos_iff.mpr t.text_ne_nil).trans_le (length_le_size t.text)

theorem Token.size_string (ps : List Part) :
    size (Token.string ps).text = size (ps.flatMap Part.text) + 2 := by
  have hquote : Char.utf8Size '"' = 1 := by decide
  rw [Token.text, size_cons, size_append, size_cons, size_nil, hquote]
  omega

/-- Cutting at commas loses the commas and nothing else. -/
theorem weight_splitCommas (d : ℕ) (ls : List Lexeme) :
    ((splitCommas d ls).map fun p => weight p + 1).sum = weight ls + 1 := by
  induction ls generalizing d with
  | nil => rfl
  | cons l ls ih =>
      rw [splitCommas]
      split_ifs with hcut
      · have hcomma : size l.token.text = 1 := by
          rw [hcut.1]
          decide
        rw [List.map_cons, List.sum_cons, ih, weight_cons, weight_nil, hcomma]
        omega
      · have hpieces := ih (depthAfter d l.token)
        cases hsplit : splitCommas (depthAfter d l.token) ls with
        | nil =>
            rw [hsplit] at hpieces
            cases hpieces
        | cons p ps =>
            rw [hsplit, List.map_cons, List.sum_cons] at hpieces
            rw [List.modifyHead_cons, List.map_cons, List.sum_cons, weight_cons, weight_cons]
            omega

/-- The bytes of a member with its colon and the bracket or comma in front of it. -/
def memberSize (m : List Part × List Lexeme) : ℕ :=
  size (Token.string m.1).text + weight m.2 + 2

theorem memberSize_of_memberOf {p : List Lexeme} {m : List Part × List Lexeme}
    (h : memberOf p = some m) : memberSize m = weight p + 1 := by
  have hcolon : size Token.colon.text = 1 := by decide
  unfold memberOf at h
  split at h
  · cases h
    simp only [memberSize, weight_cons, hcolon]
    omega
  · cases h

theorem sum_filterMap_le {α β : Type*} {f : α → Option β} {g : β → ℕ} {w : α → ℕ}
    (hle : ∀ a b, f a = some b → g b ≤ w a) (l : List α) :
    ((l.filterMap f).map g).sum ≤ (l.map w).sum := by
  induction l with
  | nil => exact le_rfl
  | cons a l ih =>
      rw [List.map_cons, List.sum_cons]
      cases hf : f a with
      | none =>
          rw [List.filterMap_cons_none hf]
          omega
      | some b =>
          rw [List.filterMap_cons_some hf, List.map_cons, List.sum_cons]
          have := hle a b hf
          omega

theorem weight_elements_le {ls : List Lexeme} (h : elements ls ≠ []) :
    ((elements ls).map fun p => weight p + 1).sum + 1 ≤ weight ls := by
  have hcontent : ls.tail.dropLast ≠ [] := by
    intro hnil
    rw [elements, if_pos hnil] at h
    exact h rfl
  rw [elements, if_neg hcontent, weight_splitCommas]
  cases ls with
  | nil => exact absurd rfl hcontent
  | cons l ls =>
      have htail : ls ≠ [] := by
        rintro rfl
        exact hcontent rfl
      obtain ⟨inner, b, rfl⟩ : ∃ inner b, ls = inner ++ [b] :=
        ⟨_, _, (List.dropLast_append_getLast htail).symm⟩
      have hopen := l.token.size_text_pos
      have hclose := b.token.size_text_pos
      rw [List.tail_cons, List.dropLast_concat, weight_cons, weight_append, weight_cons, weight_nil]
      omega

/-- An object is no shorter than its members and its brackets. -/
theorem memberSize_le_weight {ls : List Lexeme} (h : members ls ≠ []) :
    ((members ls).map memberSize).sum + 1 ≤ weight ls := by
  have helements : elements ls ≠ [] := by
    intro hnil
    rw [members, hnil] at h
    exact h rfl
  have hsum : ((members ls).map memberSize).sum ≤
      ((elements ls).map fun p => weight p + 1).sum :=
    sum_filterMap_le (fun p m hm => (memberSize_of_memberOf hm).le) (elements ls)
  have := weight_elements_le helements
  omega

/-! ### Spellings of a string -/

/-- What stands for a character in the shortest literal: itself, if it may. -/
def shortestPart (c : Char) : Part :=
  if h : isPlain c = true then .plain c h else encodeChar c

def shortest (s : Text) : List Part := s.map shortestPart

def minSize (c : Char) : ℕ := size (shortestPart c).text

/-- The bytes between the quotes of the shortest literal. -/
def shortestSize (s : Text) : ℕ := (s.map minSize).sum

@[simp] theorem shortestSize_nil : shortestSize [] = 0 := rfl

@[simp] theorem shortestSize_cons (c : Char) (s : Text) :
    shortestSize (c :: s) = minSize c + shortestSize s := by
  simp [shortestSize]

theorem decode_shortest (s : Text) : decode (shortest s) = s := by
  induction s with
  | nil => rfl
  | cons c s ih =>
      rw [shortest, List.map_cons, ← shortest, shortestPart]
      split_ifs with hplain
      · rw [decode, ih]
      · rw [decode_encodeChar, ih]

theorem size_shortest (s : Text) : size ((shortest s).flatMap Part.text) = shortestSize s := by
  induction s with
  | nil => rfl
  | cons c s ih =>
      rw [shortest, List.map_cons, ← shortest, List.flatMap_cons, size_append, ih,
        shortestSize_cons, minSize]

theorem minSize_plain {c : Char} (h : isPlain c = true) : minSize c = c.utf8Size := by
  rw [minSize, shortestPart, dif_pos h, Part.text, size_cons, size_nil, Nat.add_zero]

private theorem utf8Size_hexDigit : ∀ n < 16, (hexDigit n).utf8Size = 1 := by decide

private theorem size_hexPart (n : ℕ) : size (hexPart n).text = 6 := by
  have hdigit := fun m => utf8Size_hexDigit (m % 16) (Nat.mod_lt m (by decide))
  have hslash : Char.utf8Size '\\' = 1 := by decide
  have hu : Char.utf8Size 'u' = 1 := by decide
  rw [hexPart, Part.text]
  simp only [size_cons, size_nil, hdigit, hslash, hu]

theorem minSize_le (c : Char) : minSize c ≤ 6 := by
  by_cases hplain : isPlain c = true
  · rw [minSize_plain hplain]
    have := c.utf8Size_le_four
    omega
  · rw [minSize, shortestPart, dif_neg hplain, encodeChar, dif_neg hplain]
    split_ifs with hquote hslash hb hf hn hr ht
    · decide
    · decide
    · decide
    · decide
    · decide
    · decide
    · decide
    · exact (size_hexPart _).le

theorem minSize_pos (c : Char) : 0 < minSize c := by
  have hne : (shortestPart c).text ≠ [] := by
    cases shortestPart c <;> exact List.cons_ne_nil _ _
  exact (List.length_pos_iff.mpr hne).trans_le (length_le_size _)

private theorem minSize_unescape {c : Char} (h : isEscape c = true) : minSize (unescape c) ≤ 2 := by
  simp only [isEscape, Bool.or_eq_true, beq_iff_eq] at h
  rcases h with ((((((rfl | rfl) | rfl) | rfl) | rfl) | rfl) | rfl) | rfl <;> decide

theorem length_le_shortestSize (s : Text) : s.length ≤ shortestSize s := by
  induction s with
  | nil => exact le_rfl
  | cons c s ih =>
      have := minSize_pos c
      rw [shortestSize_cons, List.length_cons]
      omega

/-- A text of which nothing is escaped and every character has one byte. -/
theorem shortestSize_eq_length {s : Text} (h : ∀ c ∈ s, minSize c = 1) :
    shortestSize s = s.length := by
  induction s with
  | nil => rfl
  | cons c s ih =>
      rw [shortestSize_cons, h c List.mem_cons_self, ih fun d hd => h d (List.mem_cons_of_mem c hd),
        List.length_cons, Nat.add_comm]

private theorem size_hex {a b c d : Char} (ok) : 6 ≤ size (Part.hex a b c d ok).text :=
  length_le_size (Part.hex a b c d ok).text

/-- No literal of a text is shorter than the shortest one. -/
theorem shortestSize_decode_le (ps : List Part) :
    shortestSize (decode ps) ≤ size (ps.flatMap Part.text) := by
  induction ps using decode.induct with
  | case1 => exact le_rfl
  | case2 c h ps ih =>
      rw [decode, shortestSize_cons, minSize_plain h, List.flatMap_cons, size_append, Part.text,
        size_cons, size_nil]
      omega
  | case3 c h ps ih =>
      have := minSize_unescape h
      have hlen : 2 ≤ size (Part.short c h).text := length_le_size (Part.short c h).text
      rw [decode, shortestSize_cons, List.flatMap_cons, size_append]
      omega
  | case4 a b c d h a' b' c' d' h' ps hpair ih =>
      have := minSize_le (surrogatePair (codeUnit a b c d) (codeUnit a' b' c' d'))
      have := size_hex h
      rw [decode, if_pos hpair, shortestSize_cons, List.flatMap_cons, List.flatMap_cons,
        size_append, size_append]
      omega
  | case5 a b c d h a' b' c' d' h' ps hpair ih =>
      have := minSize_le (loneUnit (codeUnit a b c d))
      have := size_hex h
      rw [decode, if_neg hpair, shortestSize_cons, List.flatMap_cons, size_append]
      omega
  | case6 a b c d h ps hps ih =>
      have := minSize_le (loneUnit (codeUnit a b c d))
      have := size_hex h
      rw [decode, shortestSize_cons, List.flatMap_cons, size_append]
      · omega
      · exact hps

end SecureShare.Library.Json
