import Mathlib.Algebra.BigOperators.Group.Finset.Piecewise
import Mathlib.Tactic.Abel

/-! A table of rows under the changes a transaction has not committed yet.
A change replaces the row of its key. Transactions that changed no common row commit in any order.
-/
namespace Overlay
open Finset (add_sum_erase sdiff_singleton_eq_erase)
open scoped BigOperators

variable {κ ρ M : Type*}

def untouched : κ → Option ρ := fun _ => none

/-- The table as the transaction sees it, which is also the table its commit leaves. -/
def overlaid (table : κ → ρ) (changes : κ → Option ρ) : κ → ρ := fun key => (changes key).getD (table key)

/-- No row is changed by both. -/
def Apart (changes other : κ → Option ρ) : Prop := ∀ key, changes key = none ∨ other key = none

@[simp] theorem overlaid_untouched (table : κ → ρ) : overlaid table untouched = table := rfl

theorem Apart.symm {changes other : κ → Option ρ} (apart : Apart changes other) : Apart other changes :=
  fun key => (apart key).symm

theorem apart_untouched (changes : κ → Option ρ) : Apart changes untouched := fun _ => .inr rfl

section Set
variable [DecidableEq κ]

def set (changes : κ → Option ρ) (key : κ) (row : ρ) : κ → Option ρ := Function.update changes key (some row)

@[simp] theorem overlaid_set (table : κ → ρ) (changes : κ → Option ρ) (key : κ) (row : ρ) :
    overlaid table (set changes key row) = Function.update (overlaid table changes) key row := by
  funext other
  by_cases same : other = key
  · subst same
    simp [overlaid,set]
  · simp [overlaid,set,Function.update_of_ne same]

theorem Apart.set {changes other : κ → Option ρ} (apart : Apart changes other) {key : κ}
    (free : other key = none) (row : ρ) : Apart (set changes key row) other := by
  intro place
  by_cases same : place = key
  · subst same
    exact .inr free
  · simpa [Overlay.set,Function.update_of_ne same] using apart place

theorem sum_update [AddCommGroup M] {keys : Finset κ} {key : κ} (inside : key ∈ keys) (f : ρ → M) (table : κ → ρ)
    (row : ρ) : ∑ place ∈ keys, f (Function.update table key row place) =
      ∑ place ∈ keys, f (table place) + (f row - f (table key)) := by
  have pointwise : ∀ place, f (Function.update table key row place) =
      Function.update (fun place => f (table place)) key (f row) place := by
    intro place
    exact Function.apply_update (fun _ => f) table key row place
  simp only [pointwise]
  rw [Finset.sum_update_of_mem inside,← add_sum_erase keys (fun place => f (table place)) inside,
    sdiff_singleton_eq_erase]
  abel

end Set

theorem overlaid_overlaid [AddCommGroup M] {changes other : κ → Option ρ} (apart : Apart changes other) (f : ρ → M)
    (table : κ → ρ) (key : κ) : f (overlaid (overlaid table other) changes key) =
      f (overlaid table changes key) + f (overlaid table other key) - f (table key) := by
  rcases apart key with same | same <;> simp [overlaid,same]

end Overlay
