import Mathlib.Data.Rat.Floor
import Mathlib.Algebra.Group.Subgroup.ZPowers.Basic
import Mathlib.Tactic.FieldSimp
import Mathlib.Tactic.Linarith
import Mathlib.Tactic.Positivity
import Mathlib.Tactic.NormNum

/-! Decimals with a fixed number of places, rounded half away from zero.
The values of a fixed scale are the multiples of one unit, and rounding leaves exactly these alone.
-/
namespace Decimal

/-- The smallest positive value with `p` decimal places. -/
def unit (p : Nat) : ℚ := 1 / 10 ^ p

def roundHalfAway (x : ℚ) : ℤ := if 0 ≤ x then ⌊x + 1/2⌋ else -⌊-x + 1/2⌋

/-- The nearest value with `p` places, ties away from zero. -/
def quantize (p : Nat) (q : ℚ) : ℚ := roundHalfAway (q * 10 ^ p) / 10 ^ p

def grid (p : Nat) : AddSubgroup ℚ := AddSubgroup.zmultiples (unit p)

variable {p : Nat} {q r : ℚ}

theorem mem_grid : q ∈ grid p ↔ ∃ n : ℤ, (n : ℚ) / 10 ^ p = q := by
  rw [grid,AddSubgroup.mem_zmultiples_iff]
  refine exists_congr fun n => ?_
  rw [unit,zsmul_eq_mul,mul_one_div]

private theorem floor_half (n : ℤ) : ⌊(n : ℚ) + 1/2⌋ = n := by
  rw [Int.floor_eq_iff]
  constructor <;> linarith

theorem roundHalfAway_intCast (n : ℤ) : roundHalfAway n = n := by
  rw [roundHalfAway]
  split
  · exact floor_half n
  · have negated := floor_half (-n)
    push_cast at negated
    rw [negated,neg_neg]

theorem quantize_mem_grid (p : Nat) (q : ℚ) : quantize p q ∈ grid p := mem_grid.mpr ⟨_,rfl⟩

/-- The quantity as a column with so many decimals holds it. -/
def column (p : Nat) (q : ℚ) : {q : ℚ // q ∈ grid p} := ⟨quantize p q,quantize_mem_grid p q⟩

theorem abs_mem_grid (inside : q ∈ grid p) : |q| ∈ grid p := by
  rcases abs_choice q with same | negated
  · rwa [same]
  · rw [negated]
    exact neg_mem inside

theorem quantize_of_mem_grid (inside : q ∈ grid p) : quantize p q = q := by
  obtain ⟨n,rfl⟩ := mem_grid.mp inside
  have power : (10 : ℚ) ^ p ≠ 0 := by positivity
  rw [quantize,div_mul_cancel₀ _ power,roundHalfAway_intCast]

theorem quantize_eq_self_iff : quantize p q = q ↔ q ∈ grid p :=
  ⟨fun same => same ▸ quantize_mem_grid p q,quantize_of_mem_grid⟩

instance (p : Nat) (q : ℚ) : Decidable (q ∈ grid p) := decidable_of_iff _ quantize_eq_self_iff

/-- The nearest value with `p` places, ties upward. -/
def halfUp (p : Nat) (q : ℚ) : ℚ := ⌊q * 10 ^ p + 1/2⌋ / 10 ^ p

/-- The nearest value with `p` places, ties to the even one. -/
def halfEven (p : Nat) (q : ℚ) : ℚ :=
  let up := ⌊q * 10 ^ p + 1/2⌋
  (if q * 10 ^ p + 1/2 = up ∧ up % 2 = 1 then up - 1 else up : ℤ) / 10 ^ p

/-- The greatest value with `p` places that is not above. -/
def truncate (p : Nat) (q : ℚ) : ℚ := ⌊q * 10 ^ p⌋ / 10 ^ p

theorem halfEven_of_mem_grid (inside : q ∈ grid p) : halfEven p q = q := by
  obtain ⟨n,rfl⟩ := mem_grid.mp inside
  have power : (10 : ℚ) ^ p ≠ 0 := by positivity
  have between : (n : ℚ) + 1/2 ≠ n := by norm_num
  rw [halfEven,div_mul_cancel₀ _ power,floor_half,if_neg fun tie => between tie.1]

private theorem ceil_half_le (x : ℚ) : -⌊-x + 1/2⌋ ≤ ⌊x + 1/2⌋ := by
  have below := Int.lt_floor_add_one (x + 1/2)
  have above := Int.lt_floor_add_one (-x + 1/2)
  have sum : -((⌊-x + 1/2⌋ : ℤ) : ℚ) < ⌊x + 1/2⌋ + 1 := by linarith
  exact Int.lt_add_one_iff.mp (by exact_mod_cast sum)

theorem roundHalfAway_mono {x y : ℚ} (le : x ≤ y) : roundHalfAway x ≤ roundHalfAway y := by
  unfold roundHalfAway
  split
  case isTrue positive =>
    rw [if_pos (positive.trans le)]
    exact Int.floor_mono (by linarith)
  case isFalse negative =>
    split
    · have low : 0 ≤ ⌊-x + 1/2⌋ := Int.floor_nonneg.mpr (by linarith)
      have high : 0 ≤ ⌊y + 1/2⌋ := Int.floor_nonneg.mpr (by linarith)
      linarith
    · exact neg_le_neg (Int.floor_mono (by linarith))

theorem quantize_mono (le : q ≤ r) : quantize p q ≤ quantize p r := by
  have power : (0 : ℚ) < 10 ^ p := by positivity
  have scaled := roundHalfAway_mono (mul_le_mul_of_nonneg_right le power.le)
  exact div_le_div_of_nonneg_right (by exact_mod_cast scaled) power.le

theorem quantize_neg : quantize p (-q) = -quantize p q := by
  have zero : roundHalfAway 0 = 0 := by exact_mod_cast roundHalfAway_intCast 0
  have negated (x : ℚ) : roundHalfAway (-x) = -roundHalfAway x := by
    rcases lt_trichotomy x 0 with negative | rfl | positive
    · rw [roundHalfAway,roundHalfAway,if_pos (neg_nonneg.mpr negative.le),if_neg negative.not_ge,neg_neg]
    · rw [neg_zero,zero,neg_zero]
    · rw [roundHalfAway,roundHalfAway,if_neg (neg_lt_zero.mpr positive).not_ge,if_pos positive.le,neg_neg]
  rw [quantize,quantize,neg_mul,negated]
  push_cast
  rw [neg_div]

theorem quantize_nonneg (positive : 0 ≤ q) : 0 ≤ quantize p q := by
  have zero : quantize p 0 = 0 := quantize_of_mem_grid (zero_mem _)
  exact zero ▸ quantize_mono positive

theorem quantize_le_halfUp : quantize p q ≤ halfUp p q := by
  have power : (0 : ℚ) < 10 ^ p := by positivity
  refine div_le_div_of_nonneg_right ?_ power.le
  rw [roundHalfAway]
  split
  · exact le_rfl
  · exact_mod_cast ceil_half_le _

theorem quantize_of_nonneg (positive : 0 ≤ q) : quantize p q = halfUp p q := by
  have scaled : 0 ≤ q * 10 ^ p := by positivity
  rw [quantize,roundHalfAway,if_pos scaled,halfUp]

theorem halfUp_mono (le : q ≤ r) : halfUp p q ≤ halfUp p r := by
  have power : (0 : ℚ) < 10 ^ p := by positivity
  have scaled := mul_le_mul_of_nonneg_right le power.le
  have floors : ⌊q * 10 ^ p + 1/2⌋ ≤ ⌊r * 10 ^ p + 1/2⌋ := Int.floor_mono (by linarith)
  exact div_le_div_of_nonneg_right (by exact_mod_cast floors) power.le

theorem halfUp_add (inside : r ∈ grid p) : halfUp p (q + r) = halfUp p q + r := by
  obtain ⟨n,rfl⟩ := mem_grid.mp inside
  have power : (10 : ℚ) ^ p ≠ 0 := by positivity
  have moved : (q + n / 10 ^ p) * 10 ^ p + 1/2 = q * 10 ^ p + 1/2 + n := by
    field_simp
    ring
  rw [halfUp,halfUp,moved,Int.floor_add_intCast]
  push_cast
  field_simp

theorem quantize_sub_add (inside : r ∈ grid p) (positive : 0 ≤ r) (le : r ≤ q) : quantize p (q - r) + r = quantize p q := by
  rw [quantize_of_nonneg (sub_nonneg.mpr le),quantize_of_nonneg (positive.trans le),← halfUp_add inside,sub_add_cancel]

/-- The nearest value with `p` places, ties downward. -/
def halfDown (p : Nat) (q : ℚ) : ℚ := -halfUp p (-q)

theorem quantize_sub (inside : r ∈ grid p) :
    quantize p (q - r) = (if q < r then halfDown p q else halfUp p q) - r := by
  split
  case isTrue below =>
    rw [← neg_sub,quantize_neg,quantize_of_nonneg (sub_nonneg.mpr below.le),sub_eq_neg_add,halfUp_add inside,halfDown,
      neg_add']
  case isFalse above =>
    rw [quantize_of_nonneg (sub_nonneg.mpr (not_lt.mp above)),sub_eq_add_neg,halfUp_add (neg_mem inside),sub_eq_add_neg]

theorem truncate_le_halfUp (le : q ≤ r) : truncate p q ≤ halfUp p r := by
  have power : (0 : ℚ) < 10 ^ p := by positivity
  have scaled := mul_le_mul_of_nonneg_right le power.le
  have floors : ⌊q * 10 ^ p⌋ ≤ ⌊r * 10 ^ p + 1/2⌋ := Int.floor_mono (by linarith)
  exact div_le_div_of_nonneg_right (by exact_mod_cast floors) power.le

theorem le_truncate (inside : r ∈ grid p) (le : r ≤ q) : r ≤ truncate p q := by
  obtain ⟨n,rfl⟩ := mem_grid.mp inside
  have power : (0 : ℚ) < 10 ^ p := by positivity
  have floor : n ≤ ⌊q * 10 ^ p⌋ := Int.le_floor.mpr ((div_le_iff₀ power).mp le)
  exact div_le_div_of_nonneg_right (by exact_mod_cast floor) power.le

/-- The nearest integer, ties to the even one. -/
def roundHalfEven (x : ℚ) : ℤ :=
  if x - ⌊x⌋ < 1/2 then ⌊x⌋ else if 1/2 < x - ⌊x⌋ then ⌊x⌋ + 1 else if Even ⌊x⌋ then ⌊x⌋ else ⌊x⌋ + 1

/-- The nearest value with `p` places, ties to the even one. -/
def quantizeHalfEven (p : Nat) (q : ℚ) : ℚ := roundHalfEven (q * 10 ^ p) / 10 ^ p

theorem quantizeHalfEven_mem_grid (p : Nat) (q : ℚ) : quantizeHalfEven p q ∈ grid p := mem_grid.mpr ⟨_,rfl⟩

theorem roundHalfEven_intCast (n : ℤ) : roundHalfEven n = n := by
  rw [roundHalfEven,Int.floor_intCast,sub_self,if_pos (by norm_num)]

theorem floor_le_roundHalfEven (x : ℚ) : ⌊x⌋ ≤ roundHalfEven x := by
  unfold roundHalfEven
  split_ifs <;> omega

theorem roundHalfEven_le_floor_add_one (x : ℚ) : roundHalfEven x ≤ ⌊x⌋ + 1 := by
  unfold roundHalfEven
  split_ifs <;> omega

theorem roundHalfEven_mono {x y : ℚ} (le : x ≤ y) : roundHalfEven x ≤ roundHalfEven y := by
  rcases (Int.floor_mono le).lt_or_eq with apart | same
  · exact (roundHalfEven_le_floor_add_one x).trans (apart.trans_le (floor_le_roundHalfEven y))
  · unfold roundHalfEven
    rw [← same]
    -- within one unit only the fractional parts decide
    have fraction : x - ⌊x⌋ ≤ y - ⌊x⌋ := sub_le_sub_right le _
    split_ifs <;> first | omega | linarith

theorem quantizeHalfEven_of_mem_grid (inside : q ∈ grid p) : quantizeHalfEven p q = q := by
  obtain ⟨n,rfl⟩ := mem_grid.mp inside
  have power : (10 : ℚ) ^ p ≠ 0 := by positivity
  rw [quantizeHalfEven,div_mul_cancel₀ _ power,roundHalfEven_intCast]

theorem quantizeHalfEven_mono (le : q ≤ r) : quantizeHalfEven p q ≤ quantizeHalfEven p r := by
  have power : (0 : ℚ) < 10 ^ p := by positivity
  have scaled := roundHalfEven_mono (mul_le_mul_of_nonneg_right le power.le)
  exact div_le_div_of_nonneg_right (by exact_mod_cast scaled) power.le

theorem quantizeHalfEven_nonneg (positive : 0 ≤ q) : 0 ≤ quantizeHalfEven p q := by
  have zero : quantizeHalfEven p 0 = 0 := quantizeHalfEven_of_mem_grid (zero_mem _)
  exact zero ▸ quantizeHalfEven_mono positive

theorem quantizeHalfEven_le (inside : r ∈ grid p) (le : q ≤ r) : quantizeHalfEven p q ≤ r :=
  (quantizeHalfEven_mono le).trans_eq (quantizeHalfEven_of_mem_grid inside)

theorem roundHalfEven_le_floor_half (x : ℚ) : roundHalfEven x ≤ ⌊x + 1/2⌋ := by
  have below := Int.floor_le x
  unfold roundHalfEven
  split_ifs with low high even
  · exact Int.floor_mono (by linarith)
  · refine Int.le_floor.mpr ?_
    push_cast
    linarith
  · exact Int.floor_mono (by linarith)
  · refine Int.le_floor.mpr ?_
    push_cast
    linarith

theorem quantizeHalfEven_le_quantize (positive : 0 ≤ q) : quantizeHalfEven p q ≤ quantize p q := by
  have power : (0 : ℚ) < 10 ^ p := by positivity
  rw [quantize_of_nonneg positive]
  exact div_le_div_of_nonneg_right (by exact_mod_cast roundHalfEven_le_floor_half _) power.le

/-- The nearest integer, where of two as near the even one is taken. -/
theorem roundHalfEven_eq_iff {x : ℚ} {n : ℤ} : roundHalfEven x = n ↔ |x - n| < 1/2 ∨ |x - n| = 1/2 ∧ Even n := by
  have below := Int.floor_le x
  have above := Int.lt_floor_add_one x
  have near (apart : |x - n| ≤ 1/2) : n = ⌊x⌋ ∨ n = ⌊x⌋ + 1 := by
    obtain ⟨low,high⟩ := abs_le.mp apart
    have least : (⌊x⌋ : ℚ) < n + 1 := by linarith
    have most : (n : ℚ) < ⌊x⌋ + 2 := by linarith
    have least : ⌊x⌋ < n + 1 := by exact_mod_cast least
    have most : n < ⌊x⌋ + 2 := by exact_mod_cast most
    omega
  have atFloor : |x - ⌊x⌋| = x - ⌊x⌋ := abs_of_nonneg (by linarith)
  have atNext : |x - (⌊x⌋ + 1 : ℤ)| = 1 - (x - ⌊x⌋) := by
    rw [abs_of_nonpos (by push_cast; linarith)]
    push_cast
    ring
  have parity : Even (⌊x⌋ + 1) ↔ ¬ Even ⌊x⌋ := Int.even_add_one
  constructor
  · rintro rfl
    unfold roundHalfEven
    split_ifs with low high even
    · exact .inl (atFloor.trans_lt low)
    · exact .inl (by rw [atNext]; linarith)
    · exact .inr ⟨by rw [atFloor]; linarith,even⟩
    · exact .inr ⟨by rw [atNext]; linarith,parity.mpr even⟩
  · intro nearest
    have close : |x - n| ≤ 1/2 := nearest.elim le_of_lt fun tie => tie.1.le
    unfold roundHalfEven
    rcases near close with rfl | rfl
    · rw [atFloor] at nearest
      rcases nearest with low | ⟨tie,even⟩
      · rw [if_pos low]
      · rw [if_neg tie.ge.not_gt,if_neg tie.le.not_gt,if_pos even]
    · rw [atNext] at nearest
      rcases nearest with high | ⟨tie,even⟩
      · rw [if_neg (by linarith),if_pos (by linarith)]
      · rw [if_neg (by linarith),if_neg (by linarith),if_neg (parity.mp even)]

/-- Rounding to an even last place, by the distance to the result. -/
theorem quantizeHalfEven_eq_iff (inside : r ∈ grid p) :
    quantizeHalfEven p q = r ↔ |q - r| < unit p / 2 ∨ |q - r| = unit p / 2 ∧ r / 2 ∈ grid p := by
  obtain ⟨n,rfl⟩ := mem_grid.mp inside
  have power : (0 : ℚ) < 10 ^ p := by positivity
  have scaled : |q * 10 ^ p - n| = |q - n / 10 ^ p| * 10 ^ p := by
    rw [← abs_of_pos power,← abs_mul,abs_of_pos power,sub_mul,div_mul_cancel₀ _ power.ne']
  have half : unit p / 2 = 1/2 / 10 ^ p := by
    rw [unit]
    ring
  have even : (n : ℚ) / 10 ^ p / 2 ∈ grid p ↔ Even n := by
    rw [mem_grid]
    constructor
    · rintro ⟨m,same⟩
      refine ⟨m,?_⟩
      have doubled : (n : ℚ) = m + m := by
        field_simp at same
        linarith
      exact_mod_cast doubled
    · rintro ⟨m,rfl⟩
      refine ⟨m,?_⟩
      push_cast
      ring
  rw [quantizeHalfEven,div_left_inj' power.ne',Int.cast_inj,roundHalfEven_eq_iff,scaled,half,lt_div_iff₀ power,
    eq_div_iff power.ne',even]

theorem quantize_max : quantize p (max q r) = max (quantize p q) (quantize p r) :=
  Monotone.map_max fun _ _ le => quantize_mono le

theorem grid_mono {p r : Nat} (le : p ≤ r) : grid p ≤ grid r := by
  intro q inside
  obtain ⟨n,rfl⟩ := mem_grid.mp inside
  obtain ⟨extra,rfl⟩ := Nat.exists_eq_add_of_le le
  refine mem_grid.mpr ⟨n * 10 ^ extra,?_⟩
  push_cast
  rw [pow_add,mul_div_mul_right]
  positivity

/-- Halfway between two values with `p` places. -/
def Tie (p : Nat) (q : ℚ) : Prop := ∃ n : ℤ, q * 10 ^ p + 1/2 = n

instance (p : Nat) (q : ℚ) : Decidable (Tie p q) :=
  decidable_of_iff (q * 10 ^ p + 1/2 = ⌊q * 10 ^ p + 1/2⌋) ⟨fun same => ⟨_,same⟩,fun ⟨n,same⟩ => by rw [same,Int.floor_intCast]⟩

theorem tie_mem_grid {s : Nat} (finer : p < s) (n : ℤ) : ((n : ℚ) - 1/2) / 10 ^ p ∈ grid s := by
  refine grid_mono finer (mem_grid.mpr ⟨10 * n - 5,?_⟩)
  push_cast
  rw [pow_succ]
  field_simp
  ring

theorem halfUp_eq_iff : halfUp p q = halfUp p r ↔ ⌊q * 10 ^ p + 1/2⌋ = ⌊r * 10 ^ p + 1/2⌋ := by
  have power : (10 : ℚ) ^ p ≠ 0 := by positivity
  rw [halfUp,halfUp,div_left_inj' power,Int.cast_inj]

theorem tie_between {n : ℤ} (below : ⌊q * 10 ^ p + 1/2⌋ < n) (reached : n ≤ ⌊r * 10 ^ p + 1/2⌋) :
    q < ((n : ℚ) - 1/2) / 10 ^ p ∧ ((n : ℚ) - 1/2) / 10 ^ p ≤ r := by
  have power : (0 : ℚ) < 10 ^ p := by positivity
  have low := Int.floor_lt.mp below
  have high := Int.le_floor.mp reached
  rw [lt_div_iff₀ power,div_le_iff₀ power]
  constructor <;> linarith

/-- Rounding to `s` places before rounding to `p` only matters where it reaches a tie from below. -/
theorem quantize_quantize_iff {s : Nat} (positive : 0 ≤ q) (finer : p ≤ s) :
    quantize p (quantize s q) = quantize p q ↔ ¬(q < quantize s q ∧ Tie p (quantize s q)) := by
  have power : (0 : ℚ) < 10 ^ p := by positivity
  rcases finer.eq_or_lt with rfl | finer
  · rw [quantize_of_mem_grid (quantize_mem_grid p q)]
    obtain ⟨m,same⟩ := mem_grid.mp (quantize_mem_grid p q)
    refine iff_of_true rfl fun ⟨_,n,tie⟩ => ?_
    rw [← same,div_mul_cancel₀ _ power.ne'] at tie
    have even : 2 * m + 1 = 2 * n := by
      have scaled : 2 * (m : ℚ) + 1 = 2 * n := by linarith
      exact_mod_cast scaled
    omega
  · have least (n : ℤ) : q ≤ ((n : ℚ) - 1/2) / 10 ^ p → quantize s q ≤ ((n : ℚ) - 1/2) / 10 ^ p :=
      fun le => (quantize_mono le).trans_eq (quantize_of_mem_grid (tie_mem_grid finer n))
    have most (n : ℤ) : ((n : ℚ) - 1/2) / 10 ^ p ≤ q → ((n : ℚ) - 1/2) / 10 ^ p ≤ quantize s q :=
      fun le => (quantize_of_mem_grid (tie_mem_grid finer n)).symm.trans_le (quantize_mono le)
    have nonneg : 0 ≤ quantize s q := quantize_nonneg positive
    generalize quantize s q = twice at least most nonneg ⊢
    rw [quantize_of_nonneg nonneg,quantize_of_nonneg positive,halfUp_eq_iff]
    constructor
    · rintro same ⟨below,n,tie⟩
      have less : q * 10 ^ p + 1/2 < n := by
        rw [← tie]
        linarith [mul_lt_mul_of_pos_right below power]
      rw [tie,Int.floor_intCast] at same
      exact absurd (same.symm ▸ Int.floor_lt.mpr less) (lt_irrefl _)
    · intro untied
      rcases lt_trichotomy ⌊twice * 10 ^ p + 1/2⌋ ⌊q * 10 ^ p + 1/2⌋ with lost | same | gained
      · -- a tie that the value has reached is not lost
        obtain ⟨below,reached⟩ := tie_between lost le_rfl
        exact absurd (most _ reached) below.not_ge
      · exact same
      · obtain ⟨below,reached⟩ := tie_between gained le_rfl
        have tie : twice = _ := (least _ below.le).antisymm reached
        have scaled := (eq_div_iff power.ne').mp tie
        exact absurd ⟨below.trans_eq tie.symm,⌊twice * 10 ^ p + 1/2⌋,by linarith⟩ untied

theorem tie_sub (inside : r ∈ grid p) : Tie p (q - r) ↔ Tie p q := by
  obtain ⟨m,rfl⟩ := mem_grid.mp inside
  have power : (10 : ℚ) ^ p ≠ 0 := by positivity
  have moved : (q - m / 10 ^ p) * 10 ^ p + 1/2 = q * 10 ^ p + 1/2 - m := by
    field_simp
    ring
  rw [Tie,Tie,moved]
  constructor
  · rintro ⟨n,same⟩
    exact ⟨n + m,by push_cast; linarith⟩
  · rintro ⟨n,same⟩
    exact ⟨n - m,by push_cast; linarith⟩

theorem not_tie_of_mem_grid (inside : q ∈ grid p) : ¬ Tie p q := by
  obtain ⟨m,rfl⟩ := mem_grid.mp inside
  rintro ⟨n,same⟩
  have power : (10 : ℚ) ^ p ≠ 0 := by positivity
  rw [div_mul_cancel₀ _ power] at same
  have even : 2 * m + 1 = 2 * n := by
    have scaled : 2 * (m : ℚ) + 1 = 2 * n := by linarith
    exact_mod_cast scaled
  omega

theorem halfDown_eq_halfUp (untied : ¬ Tie p q) : halfDown p q = halfUp p q := by
  have power : (10 : ℚ) ^ p ≠ 0 := by positivity
  have whole : -⌊-q * 10 ^ p + 1/2⌋ = ⌊q * 10 ^ p + 1/2⌋ := by
    have below := Int.floor_le (q * 10 ^ p + 1/2)
    have apart : (⌊q * 10 ^ p + 1/2⌋ : ℚ) ≠ q * 10 ^ p + 1/2 := fun same => untied ⟨_,same.symm⟩
    have above := Int.lt_floor_add_one (q * 10 ^ p + 1/2)
    have strict := lt_of_le_of_ne below apart
    have floor : ⌊-q * 10 ^ p + 1/2⌋ = -⌊q * 10 ^ p + 1/2⌋ := by
      rw [Int.floor_eq_iff]
      push_cast
      constructor <;> linarith
    rw [floor,neg_neg]
  rw [halfDown,halfUp,halfUp,← neg_div]
  congr 1
  exact_mod_cast whole

theorem quantize_sub_of_untied (inside : r ∈ grid p) (nonneg : 0 ≤ q) (untied : ¬ Tie p q) :
    quantize p (r - q) = r - quantize p q := by
  have same : halfDown p q = quantize p q := (halfDown_eq_halfUp untied).trans (quantize_of_nonneg nonneg).symm
  rw [← neg_sub,quantize_neg,quantize_sub inside,same,← quantize_of_nonneg nonneg,ite_self,neg_sub]

theorem quantize_add (inside : r ∈ grid p) (positive : 0 ≤ r) (nonneg : 0 ≤ q) : quantize p (r + q) = r + quantize p q := by
  rw [quantize_of_nonneg (add_nonneg positive nonneg),quantize_of_nonneg nonneg,add_comm r q,halfUp_add inside,add_comm]

theorem quantize_add_le (first : 0 ≤ q) (second : 0 ≤ r) : quantize p q + quantize p r ≤ quantize p (q + r) + unit p := by
  have power : (0 : ℚ) < 10 ^ p := by positivity
  rw [quantize_of_nonneg first,quantize_of_nonneg second,quantize_of_nonneg (add_nonneg first second),halfUp,halfUp,halfUp,unit,
    ← add_div,← add_div]
  refine div_le_div_of_nonneg_right ?_ power.le
  have sum : ⌊q * 10 ^ p + 1/2⌋ + ⌊r * 10 ^ p + 1/2⌋ ≤ ⌊(q + r) * 10 ^ p + 1/2⌋ + 1 := by
    have joined := Int.le_floor_add (q * 10 ^ p + 1/2) (r * 10 ^ p + 1/2)
    have more : ⌊q * 10 ^ p + 1/2 + (r * 10 ^ p + 1/2)⌋ ≤ ⌊(q + r) * 10 ^ p + 1/2 + 1⌋ := Int.floor_mono (by linarith)
    rw [Int.floor_add_one] at more
    exact joined.trans more
  exact_mod_cast sum

theorem unit_mem_grid (p : Nat) : unit p ∈ grid p := AddSubgroup.mem_zmultiples _

theorem unit_pos (p : Nat) : 0 < unit p := by
  rw [unit]
  positivity

theorem unit_le (inside : q ∈ grid p) (positive : 0 < q) : unit p ≤ q := by
  obtain ⟨n,rfl⟩ := mem_grid.mp inside
  have power : (0 : ℚ) < 10 ^ p := by positivity
  have above : 0 < n := by
    have scaled := (div_pos_iff_of_pos_right power).mp positive
    exact_mod_cast scaled
  refine div_le_div_of_nonneg_right ?_ power.le
  exact_mod_cast above

theorem abs_quantizeHalfEven_sub_le (p : Nat) (q : ℚ) : |q - quantizeHalfEven p q| ≤ unit p / 2 :=
  ((quantizeHalfEven_eq_iff (quantizeHalfEven_mem_grid p q)).mp rfl).elim le_of_lt fun tie => tie.1.le

theorem quantize_eq_or (positive : 0 ≤ q) : quantize p q = quantizeHalfEven p q ∨ quantize p q = quantizeHalfEven p q + unit p := by
  have least := roundHalfEven_le_floor_half (q * 10 ^ p)
  have most : ⌊q * 10 ^ p + 1/2⌋ ≤ roundHalfEven (q * 10 ^ p) + 1 := by
    have next : ⌊q * 10 ^ p + 1/2⌋ ≤ ⌊q * 10 ^ p⌋ + 1 := by
      rw [← Int.floor_add_one]
      exact Int.floor_mono (by linarith)
    exact next.trans (add_le_add_left (floor_le_roundHalfEven _) 1)
  rw [quantize_of_nonneg positive,halfUp,quantizeHalfEven,unit]
  rcases (by omega : ⌊q * 10 ^ p + 1/2⌋ = roundHalfEven (q * 10 ^ p) ∨
    ⌊q * 10 ^ p + 1/2⌋ = roundHalfEven (q * 10 ^ p) + 1) with same | above
  · exact .inl (by rw [same])
  · exact .inr (by rw [above]; push_cast; ring)

/-- A tie lies between the two, or is the first of them and rounded away from the second. -/
def Separated (p : Nat) (q r : ℚ) : Prop :=
  (∃ tie, Tie p tie ∧ (q < tie ∧ tie < r ∨ r < tie ∧ tie < q)) ∨
    Tie p q ∧ (quantizeHalfEven p q < q ∧ q < r ∨ q < quantizeHalfEven p q ∧ r < q)

theorem tie_apart {c : ℚ} (inside : c ∈ grid p) (tie : Tie p q) : q ≤ c - unit p / 2 ∨ c + unit p / 2 ≤ q := by
  obtain ⟨m,same⟩ := tie
  obtain ⟨n,rfl⟩ := mem_grid.mp inside
  have power : (0 : ℚ) < 10 ^ p := by positivity
  have scale : q = (m - 1/2) / 10 ^ p := by
    rw [eq_div_iff power.ne']
    linarith
  have half : unit p / 2 = 1/2 / 10 ^ p := by
    rw [unit]
    ring
  rw [half,← sub_div,← add_div,scale]
  rcases le_or_gt m n with low | high
  · left
    apply div_le_div_of_nonneg_right _ power.le
    have less : (m : ℚ) ≤ n := by exact_mod_cast low
    linarith
  · right
    apply div_le_div_of_nonneg_right _ power.le
    have more : (n : ℚ) + 1 ≤ m := by exact_mod_cast high
    linarith

theorem tie_half {c : ℚ} (inside : c ∈ grid p) : Tie p (c - unit p / 2) ∧ Tie p (c + unit p / 2) := by
  obtain ⟨n,rfl⟩ := mem_grid.mp inside
  have power : (10 : ℚ) ^ p ≠ 0 := by positivity
  constructor
  · refine ⟨n,?_⟩
    rw [unit]
    field_simp
    ring
  · refine ⟨n + 1,?_⟩
    rw [unit]
    push_cast
    field_simp
    ring

/-- What one value rounds to is within half a unit of another exactly where no tie separates the two. -/
theorem quantizeHalfEven_near_iff : |quantizeHalfEven p q - r| ≤ unit p / 2 ↔ ¬ Separated p q r := by
  have own := abs_le.mp (abs_quantizeHalfEven_sub_le p q)
  have inside := quantizeHalfEven_mem_grid p q
  have apart {tie : ℚ} := tie_apart (q := tie) inside
  obtain ⟨low,high⟩ := tie_half inside
  have positive : 0 < unit p := by
    rw [unit]
    positivity
  unfold Separated
  generalize quantizeHalfEven p q = c at *
  rw [abs_le]
  constructor
  · rintro ⟨least,most⟩ (⟨tie,tied,⟨above,below⟩ | ⟨above,below⟩⟩ | ⟨tied,⟨down,beyond⟩ | ⟨up,beyond⟩⟩)
    · rcases apart tied with below | above <;> linarith
    · rcases apart tied with below | above <;> linarith
    · rcases apart tied with below | above <;> linarith
    · rcases apart tied with below | above <;> linarith
  · intro together
    constructor
    · by_contra far
      apply together
      rcases (show q ≤ c + unit p / 2 by linarith).lt_or_eq with less | same
      · exact .inl ⟨_,high,.inl ⟨less,by linarith⟩⟩
      · exact .inr ⟨same ▸ high,.inl ⟨by linarith,by linarith⟩⟩
    · by_contra far
      apply together
      rcases (show c - unit p / 2 ≤ q by linarith).lt_or_eq with less | same
      · exact .inl ⟨_,low,.inr ⟨by linarith,less⟩⟩
      · exact .inr ⟨same ▸ low,.inr ⟨by linarith,by linarith⟩⟩

end Decimal
