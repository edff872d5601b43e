import Mathlib.Data.List.Basic

/-! Processes kept in a list, each in the place it started in. -/
namespace Slots

universe u
variable {α : Type u} {slots : List α} {p q : Nat} {a b found : α}

theorem set_cases (there : (slots.set p a)[q]? = some found) :
    (q = p ∧ found = a) ∨ (q ≠ p ∧ slots[q]? = some found) := by
  rw [List.getElem?_set] at there
  grind

theorem set_same (there : slots[p]? = some a) : slots.set p a = slots := by
  obtain ⟨inside,rfl⟩ := List.getElem?_eq_some_iff.mp there
  exact List.set_getElem_self inside

theorem append_cases (there : (slots ++ [a])[q]? = some found) :
    (q = slots.length ∧ found = a) ∨ (q ≠ slots.length ∧ slots[q]? = some found) := by
  rw [List.getElem?_append] at there
  grind

theorem append_apart (apart : p ≠ slots.length) : (slots ++ [a])[p]? = slots[p]? := by
  rcases Nat.lt_or_gt_of_ne apart with before | beyond
  · exact List.getElem?_append_left before
  · rw [List.getElem?_eq_none (Nat.le_of_lt beyond),List.getElem?_eq_none]
    rwa [List.length_append,List.length_singleton]

end Slots
