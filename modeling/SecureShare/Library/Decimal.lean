import Mathlib.Data.Nat.Log
import Mathlib.Tactic.Ring

/-!
# Decimal numerals of a fixed width

Numbers are printed with leading zeros, and read back digit by digit.
-/
namespace SecureShare.Library.Decimal

def digit (n : ℕ) : Char := Char.ofNat (48 + n)

def digitValue (c : Char) : ℕ := c.toNat - 48

/-- The value of a string of digits. -/
def number (s : List Char) : ℕ := s.foldl (fun n c => n * 10 + digitValue c) 0

/-- The last `k` digits of `n`. -/
@[grind =] def padded : ℕ → ℕ → List Char
  | 0, _ => []
  | k + 1, n => padded k (n / 10) ++ [digit (n % 10)]

/-- Reads `k` digits from the front. -/
def readFixed (k : ℕ) (s : List Char) : Option (ℕ × List Char) :=
  if (s.take k).length = k ∧ (s.take k).all Char.isDigit then some (number (s.take k), s.drop k)
  else none

/-- Skips this character, which has to come next. -/
def skip (c : Char) : List Char → Option (List Char)
  | [] => none
  | d :: s => if d = c then some s else none

variable {k n : ℕ}

theorem isDigit_digit : ∀ n < 10, (digit n).isDigit = true := by decide

theorem digitValue_digit : ∀ n < 10, digitValue (digit n) = n := by decide

@[simp] theorem length_padded (k n : ℕ) : (padded k n).length = k := by
  induction k generalizing n with
  | zero => rfl
  | succ k ih => rw [padded, List.length_append, ih, List.length_singleton]

theorem all_isDigit_padded (k n : ℕ) : (padded k n).all Char.isDigit = true := by
  induction k generalizing n with
  | zero => rfl
  | succ k ih =>
    rw [padded, List.all_append, ih, List.all_cons, List.all_nil,
      isDigit_digit _ (Nat.mod_lt n (by decide))]
    rfl

theorem number_append_singleton (s : List Char) (c : Char) :
    number (s ++ [c]) = number s * 10 + digitValue c := by
  rw [number, List.foldl_append]
  rfl

theorem number_padded (h : n < 10 ^ k) : number (padded k n) = n := by
  induction k generalizing n with
  | zero =>
    rw [pow_zero] at h
    exact (Nat.lt_one_iff.mp h).symm
  | succ k ih =>
    have hdiv : n / 10 < 10 ^ k := by
      rw [pow_succ] at h
      omega
    rw [padded, number_append_singleton, ih hdiv, digitValue_digit _ (Nat.mod_lt n (by decide))]
    omega

/-- What is printed is read back, whatever follows. -/
theorem readFixed_padded (h : n < 10 ^ k) (rest : List Char) :
    readFixed k (padded k n ++ rest) = some (n, rest) := by
  have htake : (padded k n ++ rest).take k = padded k n := by
    rw [List.take_append_of_le_length (length_padded k n).ge,
      List.take_of_length_le (length_padded k n).le]
  have hdrop : (padded k n ++ rest).drop k = rest := by
    rw [List.drop_append_of_le_length (length_padded k n).ge,
      List.drop_of_length_le (length_padded k n).le, List.nil_append]
  rw [readFixed, htake, hdrop, if_pos ⟨length_padded k n, all_isDigit_padded k n⟩, number_padded h]

theorem skip_cons (c : Char) (s : List Char) : skip c (c :: s) = some s := if_pos rfl

/-- A numeral that is too long is not read to its end. -/
theorem skip_of_readFixed {s rest s' : List Char} {c : Char} (hs : s.all Char.isDigit = true)
    (hk : k < s.length) (hc : c.isDigit = false) (h : readFixed k (s ++ rest) = some (n, s')) :
    skip c s' = none := by
  unfold readFixed at h
  split_ifs at h
  obtain ⟨_, rfl⟩ := h
  rw [List.drop_append_of_le_length hk.le, List.drop_eq_getElem_cons hk, List.cons_append, skip,
    if_neg]
  rintro rfl
  rw [List.all_eq_true.mp hs _ (List.getElem_mem hk)] at hc
  cases hc

end SecureShare.Library.Decimal
