import SecureShare.Library.NearestEven
import Mathlib.Tactic.IntervalCases
import Mathlib.Tactic.NormNum

/-!
# Durations

`time.Duration` counts nanoseconds in an int64. The repository turns every
duration into the seconds parameter of an SQL interval by
`int64(d.Seconds())`, so the float64 arithmetic of `Seconds` decides which
interval the database sees. It is modelled exactly; the integer part moves up
to the next second for a few long durations that end just below it.
-/
namespace SecureShare.Go
open Library

/-- `time.Duration` -/
abbrev Duration := Int64

/-- The result of one float64 operation whose exact value is `x`. -/
def float64 (x : ℚ) : ℚ := NearestEven.round 53 x

/-- The conversion of a float64 to an int64 drops the fraction. -/
def truncate (x : ℚ) : ℤ := if 0 ≤ x then ⌊x⌋ else ⌈x⌉

namespace Duration

/-- `time.Second` -/
def second : Duration := 1000000000

/-- `Duration.Seconds` of the standard library: both parts are converted before
the division and the addition round. -/
def seconds (d : Duration) : ℚ :=
  let sec := d / second
  let nsec := d % second
  float64 (float64 sec.toInt + float64 (float64 nsec.toInt / float64 1000000000))

/-- `int64(d.Seconds())` -/
def int64Seconds (d : Duration) : ℤ := truncate (seconds d)

/-- The fraction lies within half a float64 spacing of the next second. -/
def RoundsUp (d : Duration) : Prop :=
  (1000000000 - d.toInt % 1000000000) * 2 ^ (53 - Nat.log 2 (d.toInt / 1000000000).toNat)
    ≤ 1000000000

instance (d : Duration) : Decidable (RoundsUp d) := by
  unfold RoundsUp
  infer_instance

theorem toInt_div_second {d : Duration} (h : 0 ≤ d.toInt) :
    (d / second).toInt = d.toInt / 1000000000 := by
  have hd := d.toInt_lt
  have hs : second.toInt = 1000000000 := by decide
  rw [Int64.toInt_div, hs, Int.tdiv_eq_ediv_of_nonneg h]
  exact Int.bmod_eq_of_le (by omega) (by omega)

theorem toInt_mod_second {d : Duration} (h : 0 ≤ d.toInt) :
    (d % second).toInt = d.toInt % 1000000000 := by
  have hs : second.toInt = 1000000000 := by decide
  rw [Int64.toInt_mod, hs, Int.tmod_eq_emod_of_nonneg h]

private theorem float64_natCast {n : ℕ} (h : n < 2 ^ 53) : float64 (n : ℚ) = n :=
  NearestEven.round_natCast h

/-- The fraction of a second as float64: within a quarter of the spacing at one. -/
private theorem fraction_error {q : ℚ} (h0 : 0 < q) (h1 : q < 1) :
    |float64 q - q| ≤ 1 / 2 ^ 54 := by
  have hu := NearestEven.ulp_le_of_lt_one (p := 53) h0 h1
  have he : |float64 q - q| ≤ _ := NearestEven.abs_round_sub_le 53 q
  have hspacing : (2 : ℚ) ^ (-((53 : ℕ) : ℤ)) = 2 * (1 / 2 ^ 54) := by norm_num
  rw [hspacing] at hu
  linarith

private theorem fraction_split {a : ℕ} (ha : a ≤ 1000000000) :
    (((1000000000 - a : ℕ) : ℚ) / 1000000000) = 1 - a / 1000000000 := by
  push_cast [ha]
  ring

private theorem fraction_lt {a : ℕ} (ha : 0 < a) (ha' : a ≤ 1000000000) :
    float64 ((1000000000 - a : ℕ) / 1000000000 : ℚ) < 1 - 1 / 2 ^ 31 := by
  rcases Nat.lt_or_ge a 1000000000 with hsmall | hbig
  · have hone : (1 : ℚ) / 1000000000 ≤ a / 1000000000 :=
      div_le_div_of_nonneg_right (by exact_mod_cast ha) (by norm_num)
    have hlt : (a : ℚ) / 1000000000 < 1 := by
      rw [div_lt_one (by norm_num)]
      exact_mod_cast hsmall
    have herr := (abs_le.mp (fraction_error (q := 1 - a / 1000000000)
      (by linarith) (by linarith))).2
    rw [fraction_split ha']
    have : (1 : ℚ) / 2 ^ 31 + 1 / 2 ^ 54 < 1 / 1000000000 := by norm_num
    linarith
  · have : a = 1000000000 := by omega
    rw [this, float64]
    norm_num

/-- A fraction on its own never rounds up to a whole second. -/
private theorem floor_fraction {f : ℚ} (h0 : 0 ≤ f) (h1 : f < 1 - 1 / 2 ^ 31) :
    ⌊float64 f⌋ = 0 := by
  have hlt : float64 f < 1 := by
    rcases eq_or_lt_of_le h0 with hz | hpos
    · rw [← hz, float64, NearestEven.round_zero]
      norm_num
    · have herr := (abs_le.mp (fraction_error hpos (by linarith))).2
      have : (1 : ℚ) / 2 ^ 54 < 1 / 2 ^ 31 := by norm_num
      linarith
  have hge : 0 ≤ float64 f := NearestEven.round_nonneg 53 h0
  rw [Int.floor_eq_iff]
  constructor <;> push_cast <;> linarith

/-- The nanosecond grid is so much coarser than float64 that rounding the
fraction never decides the comparison with the last midpoint. -/
private theorem fraction_reaches_iff {a e : ℕ} (ha : 0 < a) (ha' : a ≤ 1000000000) (he : e ≤ 33) :
    1 - 1 / (2 : ℚ) ^ (53 - e) ≤ float64 ((1000000000 - a : ℕ) / 1000000000 : ℚ) ↔
      a * 2 ^ (53 - e) ≤ 1000000000 := by
  have hpow : (0 : ℚ) < 2 ^ (53 - e) := by positivity
  rw [fraction_split ha']
  constructor
  · intro h
    by_contra hlt
    have hgap : 1000000000 * (2 ^ (e + 1) + 1) < a * 2 ^ 54 := by
      interval_cases e <;> omega
    rcases Nat.lt_or_ge a 1000000000 with hsmall | hbig
    · have hpos : (0 : ℚ) < 1 - a / 1000000000 := by
        rw [sub_pos, div_lt_one (by norm_num)]
        exact_mod_cast hsmall
      have hone : (1 : ℚ) - a / 1000000000 < 1 := by
        have : (0 : ℚ) < a / 1000000000 := by positivity
        linarith
      have herr := (abs_le.mp (fraction_error hpos hone)).2
      have hsplit : (1 : ℚ) / 2 ^ (53 - e) = 2 ^ (e + 1) / 2 ^ 54 := by
        rw [div_eq_div_iff hpow.ne' (by norm_num), one_mul, ← pow_add]
        congr 1
        omega
      have hgap' : ((2 : ℚ) ^ (e + 1) + 1) / 2 ^ 54 < a / 1000000000 := by
        rw [div_lt_div_iff₀ (by norm_num) (by norm_num), mul_comm]
        exact_mod_cast hgap
      rw [add_div] at hgap'
      linarith
    · have hzero : (1 : ℚ) - a / 1000000000 = 0 := by
        rw [show a = 1000000000 by omega]
        norm_num
      rw [hzero, float64, NearestEven.round_zero] at h
      have : (1 : ℚ) / 2 ^ (53 - e) < 1 := by
        rw [div_lt_one hpow]
        exact one_lt_pow₀ (by norm_num) (by omega)
      linarith
  · intro h
    have hfew : a ≤ 953 := by
      interval_cases e <;> omega
    have hsmall : (a : ℚ) / 1000000000 ≤ 1 / 2 ^ (53 - e) := by
      rw [div_le_div_iff₀ (by norm_num) hpow]
      exact_mod_cast h
    have hhalf : (a : ℚ) / 1000000000 < 1 / 2 := by
      rw [div_lt_div_iff₀ (by norm_num) (by norm_num)]
      have : (a : ℚ) ≤ 953 := by exact_mod_cast hfew
      linarith
    have hapos : (0 : ℚ) < a / 1000000000 := by positivity
    have hlog : Int.log 2 |1 - (a : ℚ) / 1000000000| = -1 := by
      have hx : (0 : ℚ) < 1 - a / 1000000000 := by linarith
      rw [abs_of_pos hx]
      have hlt : Int.log 2 (1 - (a : ℚ) / 1000000000) < 0 :=
        (Int.lt_zpow_iff_log_lt (by norm_num) hx).mp (by rw [zpow_zero]; linarith)
      have hge : -1 ≤ Int.log 2 (1 - (a : ℚ) / 1000000000) :=
        (Int.zpow_le_iff_le_log (by norm_num) hx).mp (by norm_num; linarith)
      omega
    refine NearestEven.le_round_of_grid (k := 2 ^ 53 - 2 ^ e) ?_ (by linarith)
    unfold NearestEven.ulp
    rw [hlog]
    have hsplit : (2 : ℚ) ^ 53 = 2 ^ e * 2 ^ (53 - e) := by
      rw [← pow_add]
      congr 1
      omega
    have hgrid : (2 : ℚ) ^ ((-1 : ℤ) - (((53 : ℕ) : ℤ) - 1)) = 1 / 2 ^ 53 := by norm_num
    rw [hgrid]
    rw [Int.cast_sub, Int.cast_pow, Int.cast_pow, Int.cast_ofNat, hsplit]
    field_simp

/-- The exact value of the conversion for the durations a configuration can
hold. -/
theorem int64Seconds_eq {d : Duration} (h : 0 ≤ d.toInt) :
    int64Seconds d = d.toInt / 1000000000 + if RoundsUp d then 1 else 0 := by
  have hd := d.toInt_lt
  obtain ⟨sec, hsec⟩ := Int.eq_ofNat_of_zero_le (show 0 ≤ d.toInt / 1000000000 by omega)
  obtain ⟨a, ha⟩ := Int.eq_ofNat_of_zero_le (show 0 ≤ 1000000000 - d.toInt % 1000000000 by omega)
  have hmod : d.toInt % 1000000000 = ((1000000000 - a : ℕ) : ℤ) := by omega
  have hapos : 0 < a := by omega
  have hale : a ≤ 1000000000 := by omega
  have hsecle : sec < 2 ^ 34 := by omega
  have hsecs : seconds d = float64 (sec + float64 ((1000000000 - a : ℕ) / 1000000000 : ℚ)) := by
    have hgiga : float64 (1000000000 : ℚ) = 1000000000 :=
      float64_natCast (n := 1000000000) (by norm_num)
    unfold seconds
    simp only [toInt_div_second h, toInt_mod_second h, hsec, hmod, Int.cast_natCast, hgiga]
    rw [float64_natCast (n := sec) (by omega), float64_natCast (n := 1000000000 - a) (by omega)]
  have hup : RoundsUp d ↔ a * 2 ^ (53 - Nat.log 2 sec) ≤ 1000000000 := by
    unfold RoundsUp
    rw [ha, hsec, Int.toNat_natCast]
    exact_mod_cast Iff.rfl
  have hf0 : 0 ≤ float64 ((1000000000 - a : ℕ) / 1000000000 : ℚ) :=
    NearestEven.round_nonneg 53 (by positivity)
  have hf1 := fraction_lt hapos hale
  have hnonneg : (0 : ℚ) ≤ seconds d := by
    rw [hsecs]
    exact NearestEven.round_nonneg 53 (by positivity)
  rw [int64Seconds, truncate, if_pos hnonneg, hsecs, hsec]
  rcases Nat.eq_zero_or_pos sec with rfl | hpos
  · have hno : ¬RoundsUp d := by
      rw [hup, Nat.log_zero_right]
      omega
    rw [if_neg hno, Nat.cast_zero, zero_add, floor_fraction hf0 hf1]
    rfl
  · have hlog : Nat.log 2 sec ≤ 33 := by
      have := Nat.log_lt_of_lt_pow hpos.ne' hsecle
      omega
    have hlt1 : float64 ((1000000000 - a : ℕ) / 1000000000 : ℚ) < 1 :=
      hf1.trans (by norm_num)
    rw [float64, NearestEven.floor_round_add (p := 53) hpos.ne' (by omega) hf0 hlt1]
    congr 1
    exact if_congr ((fraction_reaches_iff hapos hale hlog).trans hup.symm) rfl rfl

/-- A whole number of seconds survives the conversion. -/
theorem int64Seconds_of_whole {d : Duration} {k : ℤ} (hk : 0 ≤ k)
    (h : d.toInt = k * 1000000000) : int64Seconds d = k := by
  have hd := d.toInt_lt
  have hno : ¬RoundsUp d := by
    have hlog : Nat.log 2 k.toNat < 34 := Nat.log_lt_of_lt_pow' (by norm_num) (by omega)
    have hpow : (2 : ℤ) ^ 1 ≤ 2 ^ (53 - Nat.log 2 k.toNat) :=
      pow_le_pow_right₀ (by norm_num) (by omega)
    have hmod : d.toInt % 1000000000 = 0 := by omega
    have hdiv : d.toInt / 1000000000 = k := by omega
    unfold RoundsUp
    rw [hmod, hdiv]
    omega
  rw [int64Seconds_eq (by omega), if_neg hno]
  omega

theorem floor_le_int64Seconds {d : Duration} (h : 0 ≤ d.toInt) :
    d.toInt / 1000000000 ≤ int64Seconds d := by
  rw [int64Seconds_eq h]
  split_ifs <;> omega

theorem int64Seconds_nonneg {d : Duration} (h : 0 ≤ d.toInt) : 0 ≤ int64Seconds d :=
  (Int.ediv_nonneg h (by norm_num)).trans (floor_le_int64Seconds h)

/-- Where the conversion rounds up it does so by less than a microsecond. -/
theorem int64Seconds_lt {d : Duration} (h : 0 ≤ d.toInt) :
    int64Seconds d * 1000000000 < d.toInt + 1000 := by
  have hd := d.toInt_lt
  rw [int64Seconds_eq h]
  split_ifs with hup
  · unfold RoundsUp at hup
    have hlog : Nat.log 2 (d.toInt / 1000000000).toNat < 34 :=
      Nat.log_lt_of_lt_pow' (by norm_num) (by omega)
    have hpow : (2 : ℤ) ^ 20 ≤ 2 ^ (53 - Nat.log 2 (d.toInt / 1000000000).toNat) :=
      pow_le_pow_right₀ (by norm_num) (by omega)
    have : (1000000000 - d.toInt % 1000000000) * 2 ^ 20 ≤ 1000000000 :=
      (mul_le_mul_of_nonneg_left hpow (by omega)).trans hup
    omega
  · omega

end Duration
end SecureShare.Go
