import Mathlib.Data.Int.Log
import Mathlib.Data.Rat.Floor
import Mathlib.Tactic.Linarith
import Mathlib.Tactic.FieldSimp
import Mathlib.Tactic.Positivity
import Mathlib.Tactic.Ring

/-!
# Rounding to nearest, ties to even

A binary floating-point format is described by its precision alone: the result
of one operation is the exact rational rounded to `p` significant bits. Range
limits and the sign of zero play no part, so the lemmas hold for every format
whose exponents reach far enough.
-/
namespace SecureShare.Library.NearestEven

/-- The integer nearest to `x`, the even one where two are equally near. -/
def toInt (x : ℚ) : ℤ :=
  if x - ⌊x⌋ < 1 / 2 then ⌊x⌋
  else if 1 / 2 < x - ⌊x⌋ then ⌊x⌋ + 1
  else if ⌊x⌋ % 2 = 0 then ⌊x⌋ else ⌊x⌋ + 1

/-- The spacing of `p`-bit numbers in the binade of `x`. -/
def ulp (p : ℕ) (x : ℚ) : ℚ := 2 ^ (Int.log 2 |x| - (p - 1))

/-- The `p`-bit number nearest to `x`. -/
def round (p : ℕ) (x : ℚ) : ℚ := toInt (x / ulp p x) * ulp p x

theorem ulp_pos (p : ℕ) (x : ℚ) : 0 < ulp p x := zpow_pos (by norm_num) _

@[simp] theorem toInt_intCast (n : ℤ) : toInt n = n := by
  simp [toInt]

theorem floor_le_toInt (x : ℚ) : ⌊x⌋ ≤ toInt x := by
  unfold toInt
  split_ifs <;> omega

theorem toInt_le_floor_add_one (x : ℚ) : toInt x ≤ ⌊x⌋ + 1 := by
  unfold toInt
  split_ifs <;> omega

theorem le_toInt {n : ℤ} {x : ℚ} (h : (n : ℚ) ≤ x) : n ≤ toInt x :=
  (Int.le_floor.mpr h).trans (floor_le_toInt x)

theorem toInt_le {n : ℤ} {x : ℚ} (h : x ≤ n) : toInt x ≤ n := by
  rcases h.lt_or_eq with hlt | rfl
  · have hfloor : ⌊x⌋ < n := Int.floor_lt.mpr hlt
    have := toInt_le_floor_add_one x
    omega
  · exact (toInt_intCast n).le

/-- Rounding does not cross an integer towards zero. -/
theorem le_abs_toInt {n : ℤ} {x : ℚ} (h : (n : ℚ) ≤ |x|) : n ≤ |toInt x| := by
  rcases le_total 0 x with hx | hx
  · rw [abs_of_nonneg hx] at h
    exact (le_toInt h).trans (le_abs_self _)
  · rw [abs_of_nonpos hx] at h
    have hneg : toInt x ≤ -n := toInt_le (by push_cast; linarith)
    exact (le_neg_of_le_neg hneg).trans (neg_le_abs _)

theorem abs_toInt_sub_le (x : ℚ) : |(toInt x : ℚ) - x| ≤ 1 / 2 := by
  have hf := Int.floor_le x
  have hl := Int.lt_floor_add_one x
  unfold toInt
  rw [abs_le]
  split_ifs <;> push_cast <;> constructor <;> linarith

/-- Rounding commutes with adding an even integer; an odd one would move the
ties the other way. -/
theorem toInt_even_add {n : ℤ} (hn : n % 2 = 0) (x : ℚ) : toInt (n + x) = n + toInt x := by
  have hfloor : ⌊(n : ℚ) + x⌋ = n + ⌊x⌋ := Int.floor_intCast_add n x
  have hfrac : (n : ℚ) + x - ((n + ⌊x⌋ : ℤ) : ℚ) = x - ⌊x⌋ := by
    push_cast
    ring
  have hparity : (n + ⌊x⌋) % 2 = ⌊x⌋ % 2 := by omega
  unfold toInt
  rw [hfloor, hfrac, hparity]
  split_ifs <;> omega

/-- Just below an even integer the rounding reaches it from the midpoint on. -/
theorem toInt_eq_even_iff {n : ℤ} (hn : n % 2 = 0) {x : ℚ} (hx : x < n) :
    toInt x = n ↔ (n : ℚ) - 1 / 2 ≤ x := by
  have hdist := abs_le.mp (abs_toInt_sub_le x)
  constructor
  · intro h
    rw [h] at hdist
    linarith
  · intro h
    have hfloor : ⌊x⌋ = n - 1 := by
      rw [Int.floor_eq_iff]
      push_cast
      constructor <;> linarith
    have hodd : (n - 1) % 2 ≠ 0 := by omega
    have hhalf : ¬x - ((n - 1 : ℤ) : ℚ) < 1 / 2 := by
      push_cast
      linarith
    unfold toInt
    rw [hfloor, if_neg hhalf, if_neg hodd]
    split_ifs <;> omega

theorem abs_round_sub_le (p : ℕ) (x : ℚ) : |round p x - x| ≤ ulp p x / 2 := by
  have hu := ulp_pos p x
  have hx : x / ulp p x * ulp p x = x := div_mul_cancel₀ x hu.ne'
  have h : round p x - x = (toInt (x / ulp p x) - x / ulp p x) * ulp p x := by
    rw [sub_mul, hx, round]
  rw [h, abs_mul, abs_of_pos hu]
  have := mul_le_mul_of_nonneg_right (abs_toInt_sub_le (x / ulp p x)) hu.le
  linarith

/-- A multiple of the spacing in its own binade is represented exactly. -/
theorem round_eq_self {p : ℕ} {x : ℚ} {k : ℤ} (h : x = k * ulp p x) : round p x = x := by
  have hk : x / ulp p x = k := (div_eq_iff (ulp_pos p x).ne').mpr h
  rw [round, hk, toInt_intCast, ← h]

theorem round_nonneg (p : ℕ) {x : ℚ} (h : 0 ≤ x) : 0 ≤ round p x := by
  have hu := ulp_pos p x
  have hn : (0 : ℤ) ≤ toInt (x / ulp p x) := le_toInt (by
    push_cast
    exact div_nonneg h hu.le)
  exact mul_nonneg (by exact_mod_cast hn) hu.le

@[simp] theorem round_zero (p : ℕ) : round p 0 = 0 := by
  simp [round, toInt]

/-- The binade of a number at least one is that of its integer part. -/
theorem ulp_of_floor {p : ℕ} {x : ℚ} {n : ℕ} (hn : n ≠ 0) (hlo : (n : ℚ) ≤ x) (hhi : x < n + 1) :
    ulp p x = 2 ^ ((Nat.log 2 n : ℤ) - (p - 1)) := by
  have h1 : (1 : ℚ) ≤ n := by exact_mod_cast Nat.one_le_iff_ne_zero.mpr hn
  have hfloor : ⌊|x|⌋₊ = n := by
    rw [abs_of_nonneg (by linarith), Nat.floor_eq_iff (by linarith)]
    exact ⟨hlo, hhi⟩
  unfold ulp
  rw [Int.log_of_one_le_right 2 (by rw [abs_of_nonneg (by linarith)]; linarith), hfloor]

theorem ulp_natCast {p n : ℕ} (hn : n ≠ 0) :
    ulp p (n : ℚ) = 2 ^ ((Nat.log 2 n : ℤ) - (p - 1)) :=
  ulp_of_floor hn le_rfl (by linarith)

/-- Below one, the spacing is at most that of the binade just under one. -/
theorem ulp_le_of_lt_one {p : ℕ} {x : ℚ} (h0 : 0 < x) (h1 : x < 1) : ulp p x ≤ 2 ^ (-(p : ℤ)) := by
  have hlog : Int.log 2 |x| < 0 := by
    rw [abs_of_pos h0]
    exact (Int.lt_zpow_iff_log_lt (by norm_num) h0).mp (by simpa using h1)
  unfold ulp
  exact zpow_le_zpow_right₀ (by norm_num) (by omega)

/-- Integers of at most `p` bits are represented exactly. -/
theorem round_natCast {p n : ℕ} (h : n < 2 ^ p) : round p (n : ℚ) = n := by
  rcases Nat.eq_zero_or_pos n with rfl | hn
  · simp
  · have hlog : Nat.log 2 n < p := Nat.log_lt_of_lt_pow hn.ne' h
    apply round_eq_self (k := n * 2 ^ (p - 1 - Nat.log 2 n))
    rw [ulp_natCast hn.ne']
    push_cast
    rw [mul_assoc, ← zpow_natCast, ← zpow_add₀ (by norm_num)]
    have : ((p - 1 - Nat.log 2 n : ℕ) : ℤ) + ((Nat.log 2 n : ℤ) - (p - 1)) = 0 := by omega
    rw [this, zpow_zero, mul_one]

/-- Rounding never crosses a multiple of the spacing from above. -/
theorem le_round_of_grid {p : ℕ} {x g : ℚ} {k : ℤ} (hg : g = k * ulp p x) (h : g ≤ x) :
    g ≤ round p x := by
  have hu := ulp_pos p x
  have hk : (k : ℚ) ≤ x / ulp p x := (le_div_iff₀ hu).mpr (hg ▸ h)
  rw [hg, round]
  exact mul_le_mul_of_nonneg_right (by exact_mod_cast le_toInt hk) hu.le

/-- Adding a fraction to an integer with at least one spare bit: the integer
part of the rounded sum moves up exactly from half a spacing below the next
integer on. -/
theorem floor_round_add {p n : ℕ} (hn : n ≠ 0) (hp : Nat.log 2 n + 2 ≤ p) {f : ℚ}
    (h0 : 0 ≤ f) (h1 : f < 1) :
    ⌊round p ((n : ℚ) + f)⌋ =
      n + if 1 - 1 / (2 : ℚ) ^ (p - Nat.log 2 n) ≤ f then 1 else 0 := by
  obtain ⟨m, hm⟩ : ∃ m, p - Nat.log 2 n = m + 2 := ⟨p - Nat.log 2 n - 2, by omega⟩
  set N : ℤ := 2 ^ (m + 1) with hN
  have hNpos : (0 : ℚ) < N := by rw [hN]; positivity
  have hNeven : N % 2 = 0 := by rw [hN, pow_succ]; omega
  have hulp : ulp p ((n : ℚ) + f) = 1 / N := by
    rw [ulp_of_floor hn (by linarith) (by linarith), hN]
    push_cast
    rw [one_div, ← zpow_natCast, ← zpow_neg]
    congr 1
    push_cast
    omega
  have hsplit : ((n : ℚ) + f) / ulp p ((n : ℚ) + f) = ((n * N : ℤ) : ℚ) + f * N := by
    rw [hulp]
    push_cast
    field_simp
  have hround : round p ((n : ℚ) + f) = n + (toInt (f * N) : ℚ) / N := by
    have heven : (n * N : ℤ) % 2 = 0 := by rw [Int.mul_emod, hNeven]; simp
    rw [round, hsplit, toInt_even_add heven, hulp]
    push_cast
    field_simp
  have hlt : f * N < N := by nlinarith
  have htop : toInt (f * N) = N ↔ 1 - 1 / (2 : ℚ) ^ (p - Nat.log 2 n) ≤ f := by
    have hpow : (2 : ℚ) ^ (m + 2) = 2 * N := by
      rw [hN]
      push_cast
      ring
    rw [toInt_eq_even_iff hNeven hlt, hm, hpow]
    have hscale : (N : ℚ) - 1 / 2 = (1 - 1 / (2 * N)) * N := by field_simp
    rw [hscale]
    exact mul_le_mul_iff_of_pos_right hNpos
  rw [hround]
  split_ifs with hf
  · rw [htop.mpr hf, div_self hNpos.ne']
    exact_mod_cast Int.floor_intCast ((n : ℤ) + 1)
  · have hne : toInt (f * N) ≠ N := fun h => hf (htop.mp h)
    have hle : toInt (f * N) ≤ N := by
      have hfloor : ⌊f * N⌋ < N := Int.floor_lt.mpr hlt
      have := toInt_le_floor_add_one (f * N)
      omega
    have hnonneg : 0 ≤ toInt (f * N) := le_toInt (by push_cast; positivity)
    rw [Int.floor_eq_iff]
    constructor
    · push_cast
      have : (0 : ℚ) ≤ (toInt (f * N) : ℚ) / N := by positivity
      linarith
    · have : (toInt (f * N) : ℚ) / N < 1 := by
        rw [div_lt_one hNpos]
        exact_mod_cast lt_of_le_of_ne hle hne
      push_cast
      linarith

/-- Rounding the quotient of two integers does not reach the next integer, as the quotient
keeps a distance of `1 / s` from it. -/
theorem ceil_round_div {p n s : ℕ} (hn : n < 2 ^ p) (hs : 0 < s) :
    ⌈round p ((n : ℚ) / s)⌉ = ⌈(n : ℚ) / s⌉ := by
  have hspos : (0 : ℚ) < s := by exact_mod_cast hs
  by_cases hdvd : s ∣ n
  · obtain ⟨k, rfl⟩ := hdvd
    have hk : k < 2 ^ p := lt_of_le_of_lt (Nat.le_mul_of_pos_left k hs) hn
    have hquotient : ((s * k : ℕ) : ℚ) / s = (k : ℕ) := by
      push_cast
      field_simp
    rw [hquotient, round_natCast hk]
  · have hpos : 0 < n := Nat.pos_of_ne_zero fun h => hdvd (h ▸ dvd_zero s)
    have hx : (0 : ℚ) < n / s := div_pos (by exact_mod_cast hpos) hspos
    have hulp : ulp p ((n : ℚ) / s) / 2 < 1 / s := by
      have hlog : (2 : ℚ) ^ Int.log 2 ((n : ℚ) / s) ≤ n / s := Int.zpow_log_le_self (by norm_num) hx
      have hbound : (n : ℚ) < 2 ^ p := by exact_mod_cast hn
      have hhalf : ulp p ((n : ℚ) / s) / 2 = 2 ^ Int.log 2 ((n : ℚ) / s) / 2 ^ p := by
        rw [ulp, abs_of_pos hx, ← sub_add, zpow_add₀ (by norm_num), zpow_sub₀ (by norm_num),
          zpow_natCast, zpow_one, mul_div_cancel_right₀ _ (by norm_num)]
      rw [hhalf]
      calc (2 : ℚ) ^ Int.log 2 ((n : ℚ) / s) / 2 ^ p ≤ n / s / 2 ^ p := by gcongr
        _ < 2 ^ p / s / 2 ^ p := by gcongr
        _ = 1 / s := by field_simp
    have hdist := abs_lt.mp (lt_of_le_of_lt (abs_round_sub_le p ((n : ℚ) / s)) hulp)
    obtain ⟨q, m, hm, hms, hqm⟩ : ∃ q m : ℕ, 0 < m ∧ m + 1 ≤ s ∧ s * q + m = n :=
      ⟨n / s, n % s, Nat.pos_of_ne_zero fun h => hdvd (Nat.dvd_of_mod_eq_zero h),
        Nat.mod_lt n hs, Nat.div_add_mod n s⟩
    have hqm' : (s : ℚ) * q + m = n := by exact_mod_cast hqm
    have hm' : (1 : ℚ) ≤ m := by exact_mod_cast hm
    have hms' : (m : ℚ) + 1 ≤ s := by exact_mod_cast hms
    have hlow : (q : ℚ) + 1 / s ≤ n / s := by
      rw [le_div_iff₀ hspos, add_mul, one_div_mul_cancel hspos.ne']
      linarith
    have hhigh : (n : ℚ) / s ≤ q + 1 - 1 / s := by
      rw [div_le_iff₀ hspos, sub_mul, one_div_mul_cancel hspos.ne']
      linarith
    have hceil : ∀ y : ℚ, (q : ℚ) < y → y ≤ q + 1 → ⌈y⌉ = (q : ℤ) + 1 := by
      intro y hlt hle
      rw [Int.ceil_eq_iff]
      push_cast
      constructor <;> linarith
    have hinv : (0 : ℚ) < 1 / s := by positivity
    rw [hceil _ (by linarith) (by linarith), hceil _ (by linarith) (by linarith)]

theorem ceil_div {n s : ℕ} (hs : 0 < s) : ⌈(n : ℚ) / s⌉ = ((n + s - 1) / s : ℕ) := by
  have hspos : (0 : ℚ) < s := by exact_mod_cast hs
  have hmod := Nat.mod_lt (n + s - 1) hs
  have hdiv := Nat.div_add_mod (n + s - 1) s
  generalize (n + s - 1) / s = q at hdiv ⊢
  have hlow : (n : ℚ) ≤ s * q := by exact_mod_cast (by omega : n ≤ s * q)
  have hhigh : (s : ℚ) * q < n + s := by exact_mod_cast (by omega : s * q < n + s)
  rw [Int.ceil_eq_iff, lt_div_iff₀ hspos, div_le_iff₀ hspos]
  push_cast
  constructor <;> linarith

end SecureShare.Library.NearestEven
