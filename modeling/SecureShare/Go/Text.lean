import Mathlib.Data.List.DropRight
import Mathlib.Data.List.TakeWhile

/-!
# Strings

A Go string that holds valid UTF-8 is the list of its runes. Lengths are still
counted in bytes, as `len` does.
-/
namespace SecureShare.Go

abbrev Text := List Char

instance : LawfulBEq Text := inferInstance

/-- `len(s)` -/
def byteLength (s : Text) : ℕ := s.foldr (fun c n => c.utf8Size + n) 0

/-- `unicode.IsSpace` -/
def isSpace (c : Char) : Bool :=
  c == ' ' || ('\t' ≤ c && c ≤ '\r') || c == '\u0085' || c == '\u00A0' || c == '\u1680' ||
    ('\u2000' ≤ c && c ≤ '\u200A') || c == '\u2028' || c == '\u2029' || c == '\u202F' ||
    c == '\u205F' || c == '\u3000'

/-- `strings.TrimSpace` -/
def trimSpace (s : Text) : Text := (s.dropWhile isSpace).rdropWhile isSpace

/-- `unicode.ToLower`, as far as the result is ASCII: besides `A` to `Z` only
the dotted capital I and the Kelvin sign have an ASCII lower case. -/
def lowerRune (c : Char) : Char :=
  if c = '\u0130' then 'i' else if c = '\u212A' then 'k' else c.toLower

/-- `strings.ToLower`. Letters whose lower case is not ASCII keep their case
here; the result is only ever compared with ASCII text. -/
def toLower (s : Text) : Text := s.map lowerRune

theorem trimSpace_head (s : Text) : ∀ c ∈ (trimSpace s).head?, isSpace c = false := by
  intro c hc
  have hprefix : trimSpace s <+: s.dropWhile isSpace := List.rdropWhile_prefix _ _
  obtain ⟨rest, hrest⟩ := hprefix
  have hhead : (s.dropWhile isSpace).head? = some c := by
    rw [← hrest, List.head?_append, Option.mem_def.mp hc]
    rfl
  simpa [List.head?_dropWhile_not, hhead] using List.head?_dropWhile_not isSpace s

/-- Nothing is left to trim. -/
theorem trimSpace_trimSpace (s : Text) : trimSpace (trimSpace s) = trimSpace s := by
  have hdrop : (trimSpace s).dropWhile isSpace = trimSpace s := by
    cases h : trimSpace s with
    | nil => rfl
    | cons c cs =>
        have hc := trimSpace_head s c (by rw [h]; rfl)
        rw [List.dropWhile_cons_of_neg (by simp [hc])]
  rw [trimSpace, hdrop]
  exact List.rdropWhile_idempotent _ _

/-- Characters that are not dropped stay. -/
theorem mem_dropWhile_of_neg {α : Type*} {p : α → Bool} {a : α} {l : List α} (ha : p a = false) :
    a ∈ l.dropWhile p ↔ a ∈ l := by
  constructor
  · intro h
    exact (List.dropWhile_suffix p).subset h
  · intro h
    rw [← List.takeWhile_append_dropWhile (p := p) (l := l), List.mem_append] at h
    rcases h with h | h
    · rw [List.mem_takeWhile_imp h] at ha
      cases ha
    · exact h

theorem mem_trimSpace {c : Char} {s : Text} (hc : isSpace c = false) : c ∈ trimSpace s ↔ c ∈ s := by
  rw [trimSpace, List.rdropWhile, List.mem_reverse, mem_dropWhile_of_neg hc, List.mem_reverse,
    mem_dropWhile_of_neg hc]

theorem length_trimSpace_le (s : Text) : (trimSpace s).length ≤ s.length :=
  ((List.rdropWhile_prefix _ _).length_le).trans (List.dropWhile_suffix _).length_le

/-- A character has at least one byte. -/
theorem length_le_byteLength (s : Text) : s.length ≤ byteLength s := by
  induction s with
  | nil => exact le_rfl
  | cons c s ih =>
      have hpos := c.utf8Size_pos
      simp only [byteLength, List.length_cons, List.foldr_cons] at ih ⊢
      omega

end SecureShare.Go
