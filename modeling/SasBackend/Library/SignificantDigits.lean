import Mathlib.Data.Int.Log
import Mathlib.Algebra.Order.Field.Power
import SasBackend.Library.Decimal

/-! Arithmetic with a fixed number of significant decimal digits: every result is rounded to so many digits, ties to the even one.
Exponents are unbounded.
-/
namespace SignificantDigits
open Decimal

/-- The exponent of the last of `n` digits. -/
def lastPlace (n : Nat) (q : ℚ) : ℤ := Int.log 10 |q| - n + 1

/-- The nearest value with `n` significant digits. -/
def rounded (n : Nat) (q : ℚ) : ℚ := roundHalfEven (q / 10 ^ lastPlace n q) * 10 ^ lastPlace n q

/-- The value is written with `n` digits and an exponent. -/
def Held (n : Nat) (q : ℚ) : Prop := ∃ digits place : ℤ, q = digits * 10 ^ place ∧ |digits| < 10 ^ n

variable {n : Nat} {q r s : ℚ}

theorem power_pos (place : ℤ) : (0 : ℚ) < 10 ^ place := zpow_pos (by norm_num) place

theorem power_le (some_ : q ≠ 0) : 10 ^ (lastPlace n q + n - 1) ≤ |q| := by
  have above := Int.zpow_log_le_self (b := 10) (by norm_num) (abs_pos.mpr some_)
  have place : lastPlace n q + n - 1 = Int.log 10 |q| := by
    rw [lastPlace]
    ring
  rw [place]
  exact_mod_cast above

theorem rounded_of_held (held : Held n q) : rounded n q = q := by
  obtain ⟨digits,place,same,few⟩ := held
  by_cases zero : q = 0
  · subst zero
    rw [rounded,zero_div,show (0 : ℚ) = ((0 : ℤ) : ℚ) from rfl,roundHalfEven_intCast]
    simp
  have ten : (10 : ℚ) ≠ 0 := by norm_num
  have fits : |q| < 10 ^ (place + n) := by
    have few : (|digits| : ℚ) < 10 ^ n := by exact_mod_cast few
    rw [same,abs_mul,abs_of_pos (power_pos place),zpow_add₀ ten,zpow_natCast,mul_comm]
    exact mul_lt_mul_of_pos_left (by exact_mod_cast few) (power_pos place)
  have least : lastPlace n q ≤ place := by
    have order := (power_le (n := n) zero).trans_lt fits
    have exponents := (zpow_lt_zpow_iff_right₀ (by norm_num : (1 : ℚ) < 10)).mp order
    omega
  have whole : q / 10 ^ lastPlace n q = ((digits * 10 ^ (place - lastPlace n q).toNat : ℤ) : ℚ) := by
    have gap : ((place - lastPlace n q).toNat : ℤ) = place - lastPlace n q := Int.toNat_of_nonneg (by omega)
    push_cast
    rw [← zpow_natCast,gap,zpow_sub₀ ten,← mul_div_assoc,← same]
  rw [rounded,whole,roundHalfEven_intCast,← whole,div_mul_cancel₀ _ (power_pos _).ne']

/-- The value is written up to a last place. -/
def Multiple (place : ℤ) (q : ℚ) : Prop := ∃ digits : ℤ, q = digits * 10 ^ place

theorem multiple_zero (place : ℤ) : Multiple place 0 := ⟨0,by simp⟩

theorem Multiple.add {place : ℤ} (left : Multiple place q) (right : Multiple place r) : Multiple place (q + r) := by
  obtain ⟨first,rfl⟩ := left
  obtain ⟨second,rfl⟩ := right
  exact ⟨first + second,by push_cast; ring⟩

theorem Multiple.sub {place : ℤ} (left : Multiple place q) (right : Multiple place r) : Multiple place (q - r) := by
  obtain ⟨first,rfl⟩ := left
  obtain ⟨second,rfl⟩ := right
  exact ⟨first - second,by push_cast; ring⟩

theorem Multiple.min {place : ℤ} (left : Multiple place q) (right : Multiple place r) : Multiple place (Min.min q r) := by
  rcases min_choice q r with same | same
  · rw [same]
    exact left
  · rw [same]
    exact right

theorem Multiple.max {place : ℤ} (left : Multiple place q) (right : Multiple place r) : Multiple place (Max.max q r) := by
  rcases max_choice q r with same | same
  · rw [same]
    exact left
  · rw [same]
    exact right

theorem Multiple.held {place : ℤ} (multiple : Multiple place q) (few : |q| < 10 ^ (place + n)) : Held n q := by
  obtain ⟨digits,rfl⟩ := multiple
  refine ⟨digits,place,rfl,?_⟩
  rw [abs_mul,abs_of_pos (power_pos place),zpow_add₀ (by norm_num),zpow_natCast,mul_comm] at few
  have few := lt_of_mul_lt_mul_left few (power_pos place).le
  exact_mod_cast few

/-- The relative distance of a value from the one it stands for. -/
def Within (error q r : ℚ) : Prop := |q - r| ≤ error * |r|

theorem within_rounded (n : Nat) (q : ℚ) : Within (5 / 10 ^ n) (rounded n q) q := by
  by_cases zero : q = 0
  · subst zero
    have held : Held n 0 := ⟨0,0,by simp,by simp⟩
    rw [rounded_of_held held]
    simp [Within]
  have near : |roundHalfEven (q / 10 ^ lastPlace n q) - q / 10 ^ lastPlace n q| ≤ (1/2 : ℚ) := by
    rw [abs_sub_comm]
    exact (roundHalfEven_eq_iff.mp rfl).elim le_of_lt fun tie => tie.1.le
  have power := power_pos (lastPlace n q)
  have least : 10 ^ lastPlace n q * (10 ^ n / 10) ≤ |q| := by
    have exponent : (10 : ℚ) ^ lastPlace n q * (10 ^ n / 10) = 10 ^ (lastPlace n q + n - 1) := by
      rw [zpow_sub₀ (by norm_num),zpow_add₀ (by norm_num),zpow_natCast,zpow_one]
      ring
    rw [exponent]
    exact power_le zero
  have digits : (0 : ℚ) < 10 ^ n := by positivity
  rw [Within,rounded]
  calc |roundHalfEven (q / 10 ^ lastPlace n q) * 10 ^ lastPlace n q - q|
      = |(roundHalfEven (q / 10 ^ lastPlace n q) - q / 10 ^ lastPlace n q) * 10 ^ lastPlace n q| := by
        rw [sub_mul,div_mul_cancel₀ _ power.ne']
    _ = |roundHalfEven (q / 10 ^ lastPlace n q) - q / 10 ^ lastPlace n q| * 10 ^ lastPlace n q := by
        rw [abs_mul,abs_of_pos power]
    _ ≤ 1/2 * 10 ^ lastPlace n q := mul_le_mul_of_nonneg_right near power.le
    _ = 5 / 10 ^ n * (10 ^ lastPlace n q * (10 ^ n / 10)) := by
        field_simp
        norm_num
    _ ≤ 5 / 10 ^ n * |q| := mul_le_mul_of_nonneg_left least (by positivity)

theorem Within.mono {error more : ℚ} (within : Within error q r) (le : error ≤ more) : Within more q r :=
  within.trans (mul_le_mul_of_nonneg_right le (abs_nonneg r))

theorem Within.abs_le {error : ℚ} (within : Within error q r) : |q| ≤ (1 + error) * |r| := by
  have split_ := abs_add_le (q - r) r
  rw [sub_add_cancel] at split_
  unfold Within at within
  linarith

theorem Within.trans {first second : ℚ} (before : Within first q r) (after : Within second r s) (positive : 0 ≤ first) :
    Within (first + second + first * second) q s := by
  have split_ := abs_sub_le q r s
  have reach := mul_le_mul_of_nonneg_left after.abs_le positive
  unfold Within at *
  linarith

theorem Within.mul {first second t : ℚ} (left : Within first q r) (right : Within second s t) (positive : 0 ≤ first) :
    Within (first + second + first * second) (q * s) (r * t) := by
  have split_ : |q * s - r * t| ≤ |q - r| * |s| + |r| * |s - t| := by
    have parts : q * s - r * t = (q - r) * s + r * (s - t) := by ring
    rw [parts,← abs_mul,← abs_mul]
    exact abs_add_le _ _
  have factor : |q - r| * |s| ≤ first * |r| * ((1 + second) * |t|) :=
    mul_le_mul left right.abs_le (abs_nonneg s) (mul_nonneg positive (abs_nonneg r))
  have other : |r| * |s - t| ≤ |r| * (second * |t|) := mul_le_mul_of_nonneg_left right (abs_nonneg r)
  rw [Within,abs_mul]
  linarith

theorem Within.add_left {error : ℚ} (within : Within error q r) (positive : 0 ≤ error) (sign : 0 ≤ r) (nonneg : 0 ≤ s) :
    Within error (s + q) (s + r) := by
  rw [Within,abs_of_nonneg sign] at within
  rw [Within,add_sub_add_left_eq_sub,abs_of_nonneg (add_nonneg nonneg sign),mul_add]
  linarith [mul_nonneg positive nonneg]

end SignificantDigits
