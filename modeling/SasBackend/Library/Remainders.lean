import Mathlib.Algebra.BigOperators.Group.List.Basic
import Mathlib.Tactic.Ring
import SasBackend.Library.Decimal

/-! Sums of rounded values: they gain one unit for each value that counts up and lose the fractions.
-/
namespace Remainders
open Decimal

/-- Counts up from the middle on. -/
def upward (x : ℚ) : Bool := 1/2 ≤ Int.fract x

/-- Counts up beyond the middle only. -/
def downward (x : ℚ) : Bool := 1/2 < Int.fract x

/-- Counts up beyond the middle, and in the middle after an odd number. -/
def toEven (x : ℚ) : Bool := 1/2 < Int.fract x || Int.fract x = 1/2 && ¬Even ⌊x⌋

def fractions (values : List ℚ) : ℚ := (values.map Int.fract).sum

variable {x : ℚ}

theorem floor_half : ⌊x + 1/2⌋ = ⌊x⌋ + if upward x then 1 else 0 := by
  have parts := Int.floor_add_fract x
  have least := Int.fract_nonneg x
  have most := Int.fract_lt_one x
  simp only [upward,decide_eq_true_eq]
  split
  · refine Int.floor_eq_iff.mpr ⟨?_,?_⟩
    · push_cast
      linarith
    · push_cast
      linarith
  · refine Int.floor_eq_iff.mpr ⟨?_,?_⟩
    · push_cast
      linarith
    · push_cast
      linarith

theorem neg_floor_half : -⌊-x + 1/2⌋ = ⌊x⌋ + if downward x then 1 else 0 := by
  have parts := Int.floor_add_fract x
  have least := Int.fract_nonneg x
  have most := Int.fract_lt_one x
  simp only [downward,decide_eq_true_eq]
  split
  · have floor : ⌊-x + 1/2⌋ = -(⌊x⌋ + 1) := by
      refine Int.floor_eq_iff.mpr ⟨?_,?_⟩
      · push_cast
        linarith
      · push_cast
        linarith
    rw [floor,neg_neg]
  · have floor : ⌊-x + 1/2⌋ = -(⌊x⌋ + 0) := by
      refine Int.floor_eq_iff.mpr ⟨?_,?_⟩
      · push_cast
        linarith
      · push_cast
        linarith
    rw [floor,neg_neg]

theorem roundHalfEven_eq : roundHalfEven x = ⌊x⌋ + if toEven x then 1 else 0 := by
  have fract : x - ⌊x⌋ = Int.fract x := rfl
  rw [roundHalfEven,fract]
  simp only [toEven,Bool.or_eq_true,Bool.and_eq_true,decide_eq_true_eq]
  rcases lt_trichotomy (Int.fract x) (1/2) with less | tie | more
  · rw [if_pos less,if_neg (not_or.mpr ⟨less.le.not_gt,fun tie => less.ne tie.1⟩),add_zero]
  · rw [if_neg tie.symm.le.not_gt,if_neg tie.le.not_gt]
    by_cases even : Even ⌊x⌋
    · simp [even,tie]
    · simp [even,tie]
  · rw [if_neg more.le.not_gt,if_pos more,if_pos (.inl more)]

theorem sum_rounded {α : Type*} {value : α → ℚ} {rounded : α → ℤ} {up : α → Bool} (items : List α)
    (rule : ∀ item ∈ items, rounded item = ⌊value item⌋ + if up item then 1 else 0) :
    (items.map fun item => (rounded item : ℚ)).sum + fractions (items.map value) = (items.map value).sum + items.countP up := by
  unfold fractions
  induction items with
  | nil => simp
  | cons item rest induction =>
    have later := induction fun other member => rule other (List.mem_cons_of_mem _ member)
    have parts := Int.floor_add_fract (value item)
    simp only [List.map_cons,List.sum_cons,List.countP_cons,rule item List.mem_cons_self]
    push_cast
    split
    · linarith
    · linarith

end Remainders
