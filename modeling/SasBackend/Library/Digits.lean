import Mathlib.Data.Nat.Basic
import Mathlib.Data.String.Basic

/-! Decimal numerals filled up with zeros.
-/
namespace Digits

/-- At least so many digits. -/
def padded (width n : Nat) : List Char := List.replicate (width - (Nat.toDigits 10 n).length) '0' ++ Nat.toDigits 10 n

theorem ofDigitChars_padded (width n : Nat) : Nat.ofDigitChars 10 (padded width n) 0 = n := by
  rw [padded,Nat.ofDigitChars_append,Nat.ofDigitChars_replicate_zero,Nat.mul_zero,Nat.ofDigitChars_ten_toDigits]

theorem padded_injective (width : Nat) : Function.Injective (padded width) := by
  intro first second same
  rw [← ofDigitChars_padded width first,same,ofDigitChars_padded]

theorem length_padded {width n : Nat} (some_digit : 0 < width) (fits : n < 10 ^ width) : (padded width n).length = width := by
  have short := (Nat.length_toDigits_le_iff (by omega) some_digit).mpr fits
  simp only [padded,List.length_append,List.length_replicate]
  omega

theorem toDigits_lead (n : Nat) (pos : 0 < n) : ∃ c ds, Nat.toDigits 10 n = c :: ds ∧ c ≠ '0' := by
  induction n using Nat.strongRecOn with
  | ind n induction =>
    by_cases small : n < 10
    · have all : ∀ n : Fin 10, 0 < n.val → n.val.digitChar ≠ '0' := by decide
      exact ⟨n.digitChar,[],Nat.toDigits_of_lt_base small,all ⟨n,small⟩ pos⟩
    · obtain ⟨c,ds,digits,lead⟩ := induction (n / 10) (by omega) (by omega)
      exact ⟨c,ds ++ [(n % 10).digitChar],by rw [Nat.toDigits_of_base_le (by omega) (by omega),digits,List.cons_append],lead⟩

end Digits
