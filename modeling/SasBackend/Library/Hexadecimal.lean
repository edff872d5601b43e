import Mathlib.Algebra.Group.Nat.Defs
import Mathlib.Data.List.Basic

/-! Hexadecimal numerals of a given width, written in lower case and read in either case.
-/
namespace Hexadecimal

def digit (n : Nat) : Char := if n < 10 then Char.ofNat (48 + n) else Char.ofNat (87 + n)

def value (c : Char) : Option Nat :=
  if c.isDigit then some (c.toNat - 48)
  else if 'a' ≤ c ∧ c ≤ 'f' then some (c.toNat - 87)
  else if 'A' ≤ c ∧ c ≤ 'F' then some (c.toNat - 55)
  else none

def numeral : Nat → Nat → List Char
  | 0, _ => []
  | width + 1, n => numeral width (n / 16) ++ [digit (n % 16)]

def next (n : Nat) (c : Char) : Option Nat := (value c).map (16 * n + ·)

def read (text : List Char) : Option Nat := text.foldlM next 0

theorem digit_spec {n : Nat} (small : n < 16) :
    value (digit n) = some n ∧ 48 ≤ (digit n).toNat ∧ (digit n).toNat < 103 := by
  have all : ∀ n : Fin 16, value (digit n) = some n.val ∧ 48 ≤ (digit n).toNat ∧ (digit n).toNat < 103 := by decide
  exact all ⟨n,small⟩

theorem length_numeral (width n : Nat) : (numeral width n).length = width := by
  induction width generalizing n with
  | zero => rfl
  | succ width induction => simp [numeral,induction]

theorem mem_numeral {width n : Nat} {c : Char} (inside : c ∈ numeral width n) : ∃ d < 16, c = digit d := by
  induction width generalizing n with
  | zero => simp [numeral] at inside
  | succ width induction =>
    rw [numeral,List.mem_append,List.mem_singleton] at inside
    rcases inside with before | last
    · exact induction before
    · exact ⟨n % 16,Nat.mod_lt n (by omega),last⟩

theorem read_numeral (width n : Nat) : read (numeral width n) = some (n % 16 ^ width) := by
  induction width generalizing n with
  | zero => simp [numeral,read,Nat.mod_one]
  | succ width induction =>
    have last := (digit_spec (Nat.mod_lt n (by omega : 16 > 0))).1
    have split : n % 16 ^ (width + 1) = 16 * (n / 16 % 16 ^ width) + n % 16 := by
      rw [Nat.pow_succ,Nat.mul_comm (16 ^ width),Nat.mod_mul]
      omega
    have first := induction (n / 16)
    rw [read] at first
    rw [numeral,read,List.foldlM_append,first,split]
    simp [next,last]

end Hexadecimal
