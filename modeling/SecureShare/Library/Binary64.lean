import SecureShare.Library.NearestEven

/-!
# Double precision

A rational as a number of binary64: the nearest multiple of the spacing in its binade, which
below the normal numbers stays at `2 ^ (-1074)`. What is rounded to `2 ^ 1024` is infinite.
The sign of zero plays no part. A decimal that is as short as possible for its number is an
integer itself where that number is an integer below `2 ^ 53`.
-/
namespace SecureShare.Library.Binary64
open NearestEven

inductive Double where
  | finite (x : ℚ)
  | infinite (negative : Bool)
  deriving DecidableEq, Repr

def spacing (x : ℚ) : ℚ := 2 ^ max (Int.log 2 |x| - 52) (-1074)

def nearest (x : ℚ) : ℚ := toInt (x / spacing x) * spacing x

/-- The number of double precision for a rational. -/
def double (x : ℚ) : Double :=
  if |nearest x| < 2 ^ 1024 then .finite (nearest x) else .infinite (decide (x < 0))

/-- A decimal of at most `k` significant digits. -/
def IsDecimal (k : ℕ) (x : ℚ) : Prop := ∃ s e : ℤ, |s| < 10 ^ k ∧ x = s * 10 ^ e

variable {x y : ℚ} {k : ℕ} {N : ℤ}

theorem spacing_pos (x : ℚ) : 0 < spacing x := zpow_pos (by norm_num) _

theorem nearest_of_double (h : double x = .finite y) : nearest x = y := by
  rw [double] at h
  split_ifs at h
  exact Double.finite.inj h

theorem double_of_nearest (h : nearest x = y) (hy : |y| < 2 ^ 1024) : double x = .finite y := by
  rw [double, h, if_pos hy]

theorem abs_nearest_sub_le (x : ℚ) : |nearest x - x| ≤ spacing x / 2 := by
  have hu := spacing_pos x
  have hx : x / spacing x * spacing x = x := div_mul_cancel₀ x hu.ne'
  have h : nearest x - x = (toInt (x / spacing x) - x / spacing x) * spacing x := by
    rw [sub_mul, hx, nearest]
  rw [h, abs_mul, abs_of_pos hu]
  have := mul_le_mul_of_nonneg_right (abs_toInt_sub_le (x / spacing x)) hu.le
  linarith

theorem nearest_eq_self {t : ℤ} (h : x = t * spacing x) : nearest x = x := by
  have ht : x / spacing x = t := (div_eq_iff (spacing_pos x).ne').mpr h
  rw [nearest, ht, toInt_intCast, ← h]

theorem spacing_le {p : ℤ} (hx : x ≠ 0) (h : |x| < 2 ^ p) (hp : -1021 ≤ p) :
    spacing x ≤ 2 ^ (p - 53) := by
  have hlog : Int.log 2 |x| < p :=
    (Int.lt_zpow_iff_log_lt (by norm_num) (abs_pos.mpr hx)).mp (by exact_mod_cast h)
  exact zpow_le_zpow_right₀ (by norm_num) (max_le (by omega) (by omega))

/-- Rounding does not leave a binade towards zero. -/
theorem le_abs_nearest {L : ℤ} (hL : -1022 ≤ L) (h : 2 ^ L ≤ |x|) : 2 ^ L ≤ |nearest x| := by
  have hpos : 0 < |x| := lt_of_lt_of_le (zpow_pos (by norm_num) L) h
  have hlog : L ≤ Int.log 2 |x| := (Int.zpow_le_iff_le_log (by norm_num) hpos).mp (by exact_mod_cast h)
  have hspacing : spacing x = 2 ^ (Int.log 2 |x| - 52) := by
    rw [spacing, max_eq_left (by omega)]
  have hbinade : (2 : ℚ) ^ Int.log 2 |x| = ((2 ^ 52 : ℤ) : ℚ) * spacing x := by
    rw [hspacing, zpow_sub₀ (by norm_num)]
    norm_num
    ring
  have hle : (2 : ℚ) ^ Int.log 2 |x| ≤ |x| := Int.zpow_log_le_self (by norm_num) hpos
  have hu := spacing_pos x
  have hquotient : ((2 ^ 52 : ℤ) : ℚ) ≤ |x / spacing x| := by
    rw [abs_div, abs_of_pos hu, le_div_iff₀ hu, ← hbinade]
    exact hle
  have hint : (2 ^ 52 : ℤ) ≤ |toInt (x / spacing x)| := le_abs_toInt hquotient
  calc (2 : ℚ) ^ L ≤ 2 ^ Int.log 2 |x| := zpow_le_zpow_right₀ (by norm_num) hlog
    _ = ((2 ^ 52 : ℤ) : ℚ) * spacing x := hbinade
    _ ≤ |(toInt (x / spacing x) : ℚ)| * spacing x := by
      gcongr
      exact_mod_cast hint
    _ = |nearest x| := by rw [nearest, abs_mul, abs_of_pos hu]

/-- A multiple of a power of two that is not below the spacing is represented exactly. -/
theorem nearest_eq_of_multiple {t E : ℤ} (hx : x = t * 2 ^ E)
    (hE : max (Int.log 2 |x| - 52) (-1074) ≤ E) : nearest x = x := by
  obtain ⟨j, hj⟩ := Int.le.dest hE
  refine nearest_eq_self (t := t * 2 ^ j) ?_
  rw [spacing, hx] at *
  push_cast
  rw [mul_assoc, ← zpow_natCast, ← zpow_add₀ (by norm_num), add_comm, hj]

theorem nearest_intCast (hN : |N| ≤ 2 ^ 53) : nearest (N : ℚ) = N := by
  rcases eq_or_ne N 0 with rfl | hne
  · exact nearest_eq_self (t := 0) (by simp)
  have hpos : (0 : ℚ) < |(N : ℚ)| := abs_pos.mpr (by exact_mod_cast hne)
  rcases hN.lt_or_eq with hlt | heq
  · have hlog : Int.log 2 |(N : ℚ)| < 53 :=
      (Int.lt_zpow_iff_log_lt (by norm_num) hpos).mp (by exact_mod_cast hlt)
    exact nearest_eq_of_multiple (t := N) (E := 0) (by simp) (by omega)
  · have hlog : Int.log 2 |(N : ℚ)| < 54 := by
      refine (Int.lt_zpow_iff_log_lt (by norm_num) hpos).mp ?_
      have : |(N : ℚ)| = 2 ^ 53 := by exact_mod_cast heq
      rw [this]
      norm_num
    rcases abs_eq (by norm_num) |>.mp heq with rfl | rfl
    · exact nearest_eq_of_multiple (t := 2 ^ 52) (E := 1) (by norm_num) (by omega)
    · exact nearest_eq_of_multiple (t := -2 ^ 52) (E := 1) (by norm_num) (by omega)

/-- Integers of at most 53 bits are numbers of double precision. -/
theorem double_intCast (hN : |N| ≤ 2 ^ 53) : double N = .finite N := by
  refine double_of_nearest (nearest_intCast hN) ?_
  have hle : (|N| : ℚ) ≤ 2 ^ 53 := by exact_mod_cast hN
  calc |(N : ℚ)| ≤ 2 ^ 53 := by exact_mod_cast hle
    _ < 2 ^ 1024 := pow_lt_pow_right₀ (by norm_num) (by norm_num)

/-- Half the distance to the next number bounds what is lost. -/
theorem abs_sub_le_of_double (h : double y = .finite N) : |(N : ℚ) - y| ≤ spacing y / 2 := by
  have := abs_nearest_sub_le y
  rwa [nearest_of_double h] at this

theorem abs_lt_of_double (hN : |N| < 2 ^ 53) (h : double y = .finite N) : |y| < 2 ^ (53 : ℤ) := by
  by_contra hlt
  have hle := le_abs_nearest (by norm_num) (not_lt.mp hlt)
  rw [nearest_of_double h] at hle
  have hN' : (|N| : ℚ) < 2 ^ 53 := by exact_mod_cast hN
  have : (2 : ℚ) ^ (53 : ℤ) ≤ (|N| : ℚ) := by exact_mod_cast hle
  norm_num at this hN'
  linarith

theorem IsDecimal.mono {k' : ℕ} (h : IsDecimal k x) (hk : k ≤ k') : IsDecimal k' x := by
  obtain ⟨s, e, hs, hx⟩ := h
  exact ⟨s, e, hs.trans_le (pow_le_pow_right₀ (by norm_num) hk), hx⟩

theorem isDecimal_intCast (h : |N| < 10 ^ k) : IsDecimal k N := ⟨N, 0, h, by simp⟩

theorem natCast_of_decimal {s : ℤ} (n : ℕ) : (s : ℚ) * 10 ^ (n : ℤ) = ((s * 10 ^ n : ℤ) : ℚ) := by
  push_cast
  rw [zpow_natCast]

/-- With a negative exponent at least one digit stands behind the point. -/
theorem abs_mul_ten_le {s e : ℤ} (he : e < 0) : |(s : ℚ) * 10 ^ e| * 10 ≤ |(s : ℚ)| := by
  have hpow : (10 : ℚ) ^ e * 10 ≤ 1 := by
    have h : (10 : ℚ) ^ e * 10 = 10 ^ (e + 1) := by rw [zpow_add₀ (by norm_num), zpow_one]
    rw [h]
    exact zpow_le_one_of_nonpos₀ (by norm_num) (by omega)
  have hpos : (0 : ℚ) < 10 ^ e := zpow_pos (by norm_num) e
  calc |(s : ℚ) * 10 ^ e| * 10 = |(s : ℚ)| * (10 ^ e * 10) := by
        rw [abs_mul, abs_of_pos hpos, mul_assoc]
    _ ≤ |(s : ℚ)| * 1 := by gcongr
    _ = |(s : ℚ)| := mul_one _

theorem ne_zero_of_double (hN : N ≠ 0) (h : double y = .finite N) : y ≠ 0 := by
  rintro rfl
  have hzero : nearest 0 = 0 := nearest_eq_self (t := 0) (by simp)
  have := (nearest_of_double h).symm.trans hzero
  exact hN (by exact_mod_cast this)

/-- Two integers in a binade with spacing one are told apart. -/
theorem eq_of_double_of_lt {Y : ℤ} (hN : N ≠ 0) (hY : |(Y : ℚ)| < 2 ^ (53 : ℤ))
    (h : double (Y : ℚ) = .finite N) : Y = N := by
  have hspacing : spacing (Y : ℚ) ≤ 2 ^ (0 : ℤ) :=
    spacing_le (ne_zero_of_double hN h) hY (by norm_num)
  have hdist := abs_le.mp (abs_sub_le_of_double h)
  rw [zpow_zero] at hspacing
  have hlow : ((-1 : ℤ) : ℚ) < ((N - Y : ℤ) : ℚ) := by
    push_cast
    linarith [hdist.1]
  have hhigh : ((N - Y : ℤ) : ℚ) < ((1 : ℤ) : ℚ) := by
    push_cast
    linarith [hdist.2]
  have h1 : -1 < N - Y := by exact_mod_cast hlow
  have h2 : N - Y < 1 := by exact_mod_cast hhigh
  omega

/-- A decimal that is as short as possible for the double of an integer below `2 ^ 53` is that
integer. -/
theorem eq_of_double_of_shortest (hN : |N| < 2 ^ 53) (h : double y = .finite N)
    (hshort : ∀ k, IsDecimal k (N : ℚ) → IsDecimal k y) : y = N := by
  classical
  rcases eq_or_ne N 0 with rfl | hne
  · obtain ⟨s, e, hs, rfl⟩ := hshort 0 ⟨0, 0, by norm_num, by simp⟩
    obtain rfl : s = 0 := by simpa using hs
    simp
  have hexists : ∃ k, IsDecimal k (N : ℚ) := by
    refine ⟨N.natAbs, isDecimal_intCast ?_⟩
    have := Nat.lt_pow_self (n := N.natAbs) (by norm_num : 1 < 10)
    rw [Int.abs_eq_natAbs]
    exact_mod_cast this
  have hmin := fun m => Nat.find_min (m := m) hexists
  have hspec := Nat.find_spec hexists
  generalize Nat.find hexists = k at hmin hspec
  have hylt := abs_lt_of_double hN h
  have hy := ne_zero_of_double hne h
  obtain ⟨s, e, hs, rfl⟩ := hshort k hspec
  rcases le_or_gt 0 e with he | he
  · obtain ⟨n, rfl⟩ := Int.eq_ofNat_of_zero_le he
    rw [natCast_of_decimal] at h hylt ⊢
    exact_mod_cast eq_of_double_of_lt hne hylt h
  exfalso
  have htenth := abs_mul_ten_le (s := s) he
  generalize (s : ℚ) * 10 ^ e = y at *
  cases k with
  | zero =>
      obtain rfl : s = 0 := by simpa using hs
      rw [Int.cast_zero, abs_zero] at htenth
      exact hy (abs_eq_zero.mp (by linarith [abs_nonneg y]))
  | succ j =>
      have hs' : (|s| : ℚ) ≤ 10 * 10 ^ j - 1 := by
        have : |s| ≤ 10 * 10 ^ j - 1 := by
          rw [pow_succ] at hs
          omega
        exact_mod_cast this
      have hlow : (10 : ℤ) ^ j ≤ |N| := by
        by_contra hlt
        exact hmin j (Nat.lt_succ_self j) (isDecimal_intCast (not_le.mp hlt))
      have htriangle := abs_sub_abs_le_abs_sub (N : ℚ) y
      have hdist := abs_sub_le_of_double h
      have hspacing := spacing_le hy hylt (by norm_num)
      rw [sub_self, zpow_zero] at hspacing
      have hhigh : |N| ≤ 10 ^ j := by
        have : (|N| : ℚ) < 10 ^ j + 1 := by linarith
        have : |N| < 10 ^ j + 1 := by exact_mod_cast this
        omega
      have heq : |N| = 10 ^ j := le_antisymm hhigh hlow
      -- A power of ten has one digit, so only one itself is left.
      obtain rfl : j = 0 := by
        by_contra hj
        refine hmin 1 (by omega) ⟨N.sign, j, ?_, ?_⟩
        · rw [Int.abs_sign_of_ne_zero hne]
          norm_num
        · have := Int.sign_mul_abs N
          rw [heq] at this
          rw [zpow_natCast]
          exact_mod_cast this.symm
      rw [pow_zero] at heq hs'
      have hone : (|N| : ℚ) = 1 := by exact_mod_cast heq
      have hylt1 : |y| < 2 ^ (0 : ℤ) := by
        rw [zpow_zero]
        linarith
      have hfine : spacing y ≤ 1 / 100 :=
        (spacing_le hy hylt1 (by norm_num)).trans (by norm_num)
      rw [hone] at htriangle
      linarith

/-- No decimal with fewer digits than an integer of at most 53 bits has its double. -/
theorem isDecimal_of_double (hN : |N| ≤ 2 ^ 53) (h : double y = .finite N) (hy : IsDecimal k y) :
    IsDecimal k (N : ℚ) := by
  by_contra hnot
  have hlow : (10 : ℤ) ^ k ≤ |N| := by
    by_contra hlt
    exact hnot (isDecimal_intCast (not_le.mp hlt))
  have hpow : (0 : ℤ) < 10 ^ k := by positivity
  have hne : N ≠ 0 := by
    rintro rfl
    rw [abs_zero] at hlow
    omega
  have hy0 := ne_zero_of_double hne h
  obtain ⟨s, e, hs, rfl⟩ := id hy
  have hslt : (|s| : ℚ) < 2 ^ (53 : ℤ) := by
    have : |s| < 2 ^ 53 := by omega
    exact_mod_cast this
  have hdist := abs_sub_le_of_double h
  have htriangle := abs_sub_abs_le_abs_sub (N : ℚ) (s * 10 ^ e)
  rcases lt_trichotomy e 0 with he | rfl | he
  · have htenth := abs_mul_ten_le (s := s) he
    have hs1 : |(s : ℚ)| + 1 ≤ |(N : ℚ)| := by exact_mod_cast (by omega : |s| + 1 ≤ |N|)
    generalize (s : ℚ) * 10 ^ e = y at *
    have hspacing := spacing_le (p := 53) hy0 (by linarith [abs_nonneg y]) (by norm_num)
    rw [sub_self, zpow_zero] at hspacing
    linarith [abs_nonneg (s : ℚ)]
  · rw [zpow_zero, mul_one] at h
    obtain rfl := eq_of_double_of_lt hne hslt h
    omega
  · obtain ⟨n, rfl⟩ := Int.eq_succ_of_zero_lt he
    have hmultiple : s * 10 ^ (n + 1) = 10 * (s * 10 ^ n) := by ring
    rw [← Nat.cast_succ, natCast_of_decimal] at h hy hdist hy0
    generalize s * 10 ^ (n + 1) = Y at *
    have hdiffer : Y ≠ N := by
      rintro rfl
      exact hnot hy
    have hlarge : (2 : ℤ) ^ 53 ≤ |Y| := by
      by_contra hlt
      refine hdiffer (eq_of_double_of_lt hne ?_ h)
      exact_mod_cast not_le.mp hlt
    have hbound : |(Y : ℚ)| < 2 ^ (54 : ℤ) := by
      by_contra hlt
      have hle := le_abs_nearest (by norm_num) (not_lt.mp hlt)
      rw [nearest_of_double h] at hle
      have : (2 : ℤ) ^ 54 ≤ |N| := by exact_mod_cast hle
      norm_num at this hN
      omega
    have hspacing := spacing_le hy0 hbound (by norm_num)
    have hnear : |N - Y| ≤ 1 := by
      have : |(N : ℚ) - Y| ≤ 1 := by
        norm_num at hspacing
        linarith
      exact_mod_cast this
    -- Around `2 ^ 53` itself lies no multiple of ten.
    norm_num at hN hlarge
    rw [abs_le] at hnear hN
    rcases le_abs.mp hlarge with hlarge | hlarge <;> omega

end SecureShare.Library.Binary64
