import Mathlib.Data.List.TakeWhile
import SasBackend.Semantics.Exports

/-! An export is read back cell by cell, and no cell starts a formula.
Amounts are left as they are written, except that a negative one with an exponent is no plain number.
-/
namespace Exports
open Csv (Text)
open DecimalText (Decimal)

variable {platform : Platform} {value rest : Text}

theorem sanitizeCell_cases (platform : Platform) (value : Text) :
    sanitizeCell platform value = '\'' :: value ∨
      sanitizeCell platform value = value ∧ (triggered value = true → plainNumber platform value = true) := by
  unfold sanitizeCell
  by_cases start : triggered value = true <;> by_cases plain : plainNumber platform value = true <;> simp [start,plain]

theorem plain_of_triggered (start : triggered (sanitizeCell platform value) = true) :
    plainNumber platform (sanitizeCell platform value) = true := by
  rcases sanitizeCell_cases platform value with quoted | ⟨same,plain⟩
  · rw [quoted] at start
    exact absurd start (by simp [triggered,formulaTriggers])
  · rw [same] at start ⊢
    exact plain start

theorem plain_of_row {α : Type} {headers row : List Text} {rows : List α} {values : α → List Text} {cell : Text}
    (bare : headers.all (fun header => !triggered header) = true)
    (inside : row ∈ headers :: rows.map (fun fetched => (values fetched).map (sanitizeCell platform))) (there : cell ∈ row)
    (start : triggered cell = true) : plainNumber platform cell = true := by
  rcases List.mem_cons.mp inside with rfl | sanitized
  · have quiet := List.all_eq_true.mp bare cell there
    simp [start] at quiet
  · obtain ⟨fetched,_,rfl⟩ := List.mem_map.mp sanitized
    obtain ⟨value,_,rfl⟩ := List.mem_map.mp there
    exact plain_of_triggered start

theorem isDigit_of_ascii (platform : Platform) {ds : Text} (all : ∀ c ∈ ds, c.isDigit = true) :
    ∀ c ∈ ds, platform.isDigit c = true := by
  intro c inside
  have digit := all c inside
  have small : c.toNat < 128 := by
    simp only [Char.isDigit,Bool.and_eq_true,decide_eq_true_eq,ge_iff_le,UInt32.le_iff_toNat_le] at digit
    have bound : '9'.val.toNat = 57 := by decide
    simp only [Char.toNat]
    omega
  rw [platform.ascii c small,digit]

theorem digits_taken (platform : Platform) {ds : Text} (all : ∀ c ∈ ds, c.isDigit = true) {c : Char} (small : c.toNat < 128)
    (stops : c.isDigit = false) (rest : Text) : (ds ++ c :: rest).takeWhile platform.isDigit = ds ∧
      (ds ++ c :: rest).dropWhile platform.isDigit = c :: rest := by
  have digits := isDigit_of_ascii platform all
  have stop : platform.isDigit c = false := by rw [platform.ascii c small,stops]
  simp [List.takeWhile_append_of_pos digits,List.dropWhile_append_of_pos digits,stop]

theorem digits_all (platform : Platform) {ds : Text} (all : ∀ c ∈ ds, c.isDigit = true) :
    ds.takeWhile platform.isDigit = ds ∧ ds.dropWhile platform.isDigit = [] :=
  ⟨List.takeWhile_eq_self_iff.mpr (isDigit_of_ascii platform all),
    List.dropWhile_eq_nil_iff.mpr (isDigit_of_ascii platform all)⟩

theorem unsigned_signed (negative : Bool) {c : Char} (digit : c.isDigit = true) :
    unsigned (DecimalText.signText negative ++ c :: rest) = c :: rest := by
  obtain ⟨plus,minus⟩ := DecimalText.digit_bare digit
  cases negative with
  | true => rfl
  | false =>
    change unsigned (c :: rest) = c :: rest
    unfold unsigned
    split <;> simp_all

/-- Digits and a fraction are a plain number; digits, a fraction and an exponent are not. -/
theorem plainNumber_written (negative : Bool) {whole fraction : Text} (first : ∀ c ∈ whole, c.isDigit = true)
    (last : ∀ c ∈ fraction, c.isDigit = true) (nonempty : whole ≠ []) (n : Int) :
    plainNumber platform (DecimalText.signText negative ++
      (whole ++ (DecimalText.pointed fraction ++ DecimalText.power n))) = decide (n = 0) := by
  have bare : unsigned (DecimalText.signText negative ++
      (whole ++ (DecimalText.pointed fraction ++ DecimalText.power n))) =
        whole ++ (DecimalText.pointed fraction ++ DecimalText.power n) := by
    cases whole with
    | nil => exact absurd rfl nonempty
    | cons c more => exact unsigned_signed negative (first c List.mem_cons_self)
  obtain ⟨taken,left⟩ := digits_all platform first
  obtain ⟨after,nothing⟩ := digits_all platform last
  rw [plainNumber,bare]
  by_cases zero : n = 0 <;> by_cases none_left : fraction = []
  · simp [zero,none_left,DecimalText.pointed,DecimalText.power,taken,left,nonempty,atEnd]
  · obtain ⟨before,pointed⟩ := digits_taken platform first (c := '.') (by decide) (by decide) fraction
    simp [zero,none_left,DecimalText.pointed,DecimalText.power,before,pointed,nonempty,fractional,after,nothing,atEnd]
  · obtain ⟨before,exponent⟩ := digits_taken platform first (c := 'E') (by decide) (by decide)
      ((if n < 0 then '-' else '+') :: Nat.toDigits 10 n.natAbs)
    simp [zero,none_left,DecimalText.pointed,DecimalText.power,exponent,fractional,atEnd]
  · obtain ⟨before,pointed⟩ := digits_taken platform first (c := '.') (by decide) (by decide)
      (fraction ++ 'E' :: (if n < 0 then '-' else '+') :: Nat.toDigits 10 n.natAbs)
    obtain ⟨between,exponent⟩ := digits_taken platform last (c := 'E') (by decide) (by decide)
      ((if n < 0 then '-' else '+') :: Nat.toDigits 10 n.natAbs)
    simp [zero,none_left,DecimalText.pointed,DecimalText.power,pointed,fractional,exponent,atEnd]

theorem exponent_written (negative : Bool) {whole fraction : Text} (first : ∀ c ∈ whole, c.isDigit = true)
    (last : ∀ c ∈ fraction, c.isDigit = true) (n : Int) :
    'E' ∈ DecimalText.signText negative ++ (whole ++ (DecimalText.pointed fraction ++ DecimalText.power n)) ↔ n ≠ 0 := by
  have sign : 'E' ∉ DecimalText.signText negative := by cases negative <;> decide
  have before : 'E' ∉ whole := fun inside => absurd (first 'E' inside) (by decide)
  have after : 'E' ∉ DecimalText.pointed fraction := by
    unfold DecimalText.pointed
    split
    · simp
    · intro inside
      rcases List.mem_cons.mp inside with point | digit
      · exact absurd point (by decide)
      · exact absurd (last 'E' digit) (by decide)
  simp only [List.mem_append,sign,before,after,false_or]
  unfold DecimalText.power
  split <;> simp_all

/-- A negative number with an exponent gets a quote, any other number stays as it is written. -/
theorem sanitizeCell_str (platform : Platform) (negative : Bool) (coefficient : Nat) (exponent : Int) :
    sanitizeCell platform (DecimalText.str (.finite negative coefficient exponent)) =
      if negative ∧ 'E' ∈ DecimalText.str (.finite negative coefficient exponent) then
        '\'' :: DecimalText.str (.finite negative coefficient exponent)
      else DecimalText.str (.finite negative coefficient exponent) := by
  obtain ⟨whole,fraction,n,same,nonempty,first,last,_⟩ := DecimalText.str_finite negative coefficient exponent
  rw [same,sanitizeCell,plainNumber_written negative first last nonempty n]
  have start : triggered (DecimalText.signText negative ++
      (whole ++ (DecimalText.pointed fraction ++ DecimalText.power n))) = negative := by
    cases negative with
    | true => rfl
    | false =>
      cases whole with
      | nil => exact absurd rfl nonempty
      | cons c more =>
        have digit := first c List.mem_cons_self
        have apart : c ∉ formulaTriggers := by
          intro inside
          simp only [formulaTriggers,List.mem_cons,List.not_mem_nil,or_false] at inside
          rcases inside with rfl | rfl | rfl | rfl | rfl | rfl <;> simp at digit
        simpa [triggered,DecimalText.signText] using apart
  rw [start]
  have written := exponent_written negative first last n
  by_cases zero : n = 0 <;> cases negative <;> simp_all

theorem read_quote (text : Text) : DecimalText.read ('\'' :: text) = none := by
  simp [DecimalText.read,Json.signed,DecimalText.readNumber,Json.digits,DecimalText.readFraction,DecimalText.readSpecial]

/-- What is exported is read back as the sheet of sanitized cells; a cell that starts as a formula does is a plain number,
and an amount is read back as it was unless it is negative and written with an exponent. -/
theorem exported_cells (platform : Platform) (sales : List SalesRow) (stock : List InventoryRow) :
    Csv.read (exportSalesCsv platform sales) = salesSheet platform sales ∧
      Csv.read (exportInventoryCsv platform stock) = inventorySheet platform stock ∧
      (∀ row ∈ salesSheet platform sales ++ inventorySheet platform stock, ∀ cell ∈ row,
        triggered cell = true → plainNumber platform cell = true) ∧
      ∀ negative coefficient exponent, let amount := Decimal.finite negative coefficient exponent
        DecimalText.read (sanitizeCell platform (DecimalText.str amount)) = some amount ↔
          ¬(negative = true ∧ 'E' ∈ DecimalText.str amount) := by
  have sales_bare : salesHeaders.all (fun header => !triggered header) = true := by decide
  have stock_bare : inventoryHeaders.all (fun header => !triggered header) = true := by decide
  refine ⟨Csv.read_write _,Csv.read_write _,?_,?_⟩
  · intro row inside cell there start
    rcases List.mem_append.mp inside with inside | inside
    · exact plain_of_row sales_bare inside there start
    · exact plain_of_row stock_bare inside there start
  · intro negative coefficient exponent
    dsimp only
    rw [sanitizeCell_str platform negative coefficient exponent]
    split
    next quoted =>
      rw [read_quote]
      exact ⟨fun read => (Option.some_ne_none _ read.symm).elim,fun plain => absurd quoted plain⟩
    next plain => exact ⟨fun _ => plain,fun _ => DecimalText.read_str _⟩

end Exports
