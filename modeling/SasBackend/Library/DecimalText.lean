import SasBackend.Library.JsonRoundTrip

/-! Decimal numbers as Python's `decimal` writes and reads them.
A number keeps its sign, its digits and its exponent. Digits outside of ASCII and the payload of a NaN are left out.
-/
namespace DecimalText
open Json (signed digits)

inductive Decimal
  | finite (negative : Bool) (coefficient : Nat) (exponent : Int)
  | infinity (negative : Bool)
  | nan (negative signaling : Bool)
  deriving DecidableEq

def signText (negative : Bool) : List Char := if negative then ['-'] else []

/-- Digits before and after the point. -/
def placed (ds : List Char) (dotplace : Int) : List Char × List Char :=
  if dotplace ≤ 0 then (['0'],List.replicate (-dotplace).toNat '0' ++ ds)
  else if ds.length ≤ dotplace then (ds ++ List.replicate (dotplace - ds.length).toNat '0',[])
  else (ds.take dotplace.toNat,ds.drop dotplace.toNat)

def pointed (ds : List Char) : List Char := if ds = [] then [] else '.' :: ds

def power (n : Int) : List Char :=
  if n = 0 then [] else 'E' :: (if n < 0 then '-' else '+') :: Nat.toDigits 10 n.natAbs

/-- Up to six zeros after the point are written out, any others as an exponent. -/
def dotplace (exponent leftdigits : Int) : Int := if exponent ≤ 0 ∧ -6 < leftdigits then leftdigits else 1

def str : Decimal → List Char
  | .finite negative coefficient exponent =>
    let ds := Nat.toDigits 10 coefficient
    let leftdigits := exponent + ds.length
    let point := dotplace exponent leftdigits
    let (whole,fraction) := placed ds point
    signText negative ++ (whole ++ (pointed fraction ++ power (leftdigits - point)))
  | .infinity negative => signText negative ++ ['I','n','f','i','n','i','t','y']
  | .nan negative signaling => signText negative ++ ((if signaling then ['s'] else []) ++ ['N','a','N'])

def readPower (text : List Char) : Option Int :=
  match text with
  | [] => some 0
  | c :: rest =>
    let (sign,ds) := signed ['+','-'] rest
    if (c = 'E' ∨ c = 'e') ∧ ds ≠ [] ∧ ds.all Char.isDigit then
      let n : Int := Nat.ofDigitChars 10 ds 0
      some (if sign = ['-'] then -n else n)
    else none

def readFraction (text : List Char) : List Char × List Char :=
  match text with
  | [] => ([],text)
  | c :: rest => if c = '.' then digits rest else ([],text)

def readNumber (negative : Bool) (text : List Char) : Option Decimal :=
  let (whole,text) := digits text
  let (fraction,text) := readFraction text
  if whole ++ fraction = [] then none
  else (readPower text).map fun exponent =>
    .finite negative (Nat.ofDigitChars 10 (whole ++ fraction) 0) (exponent - fraction.length)

def readSpecial (negative : Bool) (text : List Char) : Option Decimal :=
  let word := text.map Char.toLower
  if word = ['i','n','f'] ∨ word = ['i','n','f','i','n','i','t','y'] then some (.infinity negative)
  else if word = ['n','a','n'] then some (.nan negative false)
  else if word = ['s','n','a','n'] then some (.nan negative true)
  else none

/-- The text has no whitespace around it any more; underscores are passed over. -/
def read (text : List Char) : Option Decimal :=
  let (sign,body) := signed ['+','-'] (text.filter (· ≠ '_'))
  (readNumber (sign = ['-']) body).or (readSpecial (sign = ['-']) body)

variable {ds whole fraction rest : List Char}

theorem toDigits_digit {n : Nat} : ∀ c ∈ Nat.toDigits 10 n, c.isDigit = true :=
  fun _ => Nat.isDigit_of_mem_toDigits (by omega) le_rfl

theorem readPower_power (n : Int) : readPower (power n) = some n := by
  unfold power
  split
  next zero => simp [readPower,zero]
  · have all : (Nat.toDigits 10 n.natAbs).all Char.isDigit = true := List.all_eq_true.mpr toDigits_digit
    have digits : Nat.toDigits 10 n.natAbs ≠ [] := Nat.toDigits_ne_nil
    split
    next negative =>
      simp only [readPower,signed,List.mem_cons,or_true,if_true,digits,all,ne_eq,not_false_eq_true,and_self,true_or,
        Nat.ofDigitChars_ten_toDigits,Option.some.injEq]
      omega
    next positive =>
      simp only [readPower,signed,List.mem_cons,true_or,if_true,digits,all,ne_eq,not_false_eq_true,and_self,
        Nat.ofDigitChars_ten_toDigits,Option.some.injEq]
      rw [if_neg (by decide)]
      omega

theorem digits_stop {c : Char} (all : ∀ c ∈ ds, c.isDigit = true) (stops : c.isDigit = false) (rest : List Char) :
    digits (ds ++ c :: rest) = (ds,c :: rest) := by
  simp [digits,List.takeWhile_append_of_pos all,List.dropWhile_append_of_pos all,stops]

theorem digits_power (all : ∀ c ∈ ds, c.isDigit = true) (n : Int) : digits (ds ++ power n) = (ds,power n) := by
  unfold power
  split
  · rw [List.append_nil]
    have ended := Json.digits_ended all (show Json.Ended [] by simp [Json.Ended])
    simpa using ended
  · exact digits_stop all (by decide) _

theorem readFraction_power (n : Int) : readFraction (power n) = ([],power n) := by
  unfold power
  split
  · rfl
  · simp [readFraction]

theorem readNumber_written (negative : Bool) (first : ∀ c ∈ whole, c.isDigit = true)
    (last : ∀ c ∈ fraction, c.isDigit = true) (some_digit : whole ≠ []) (n : Int) :
    readNumber negative (whole ++ (pointed fraction ++ power n)) =
      some (.finite negative (Nat.ofDigitChars 10 (whole ++ fraction) 0) (n - fraction.length)) := by
  by_cases none_left : fraction = []
  · rw [readNumber,none_left,pointed,if_pos rfl,List.nil_append]
    simp [digits_power first,readFraction_power,readPower_power,some_digit]
  · rw [readNumber,pointed,if_neg none_left]
    rw [List.cons_append,digits_stop first (by decide)]
    simp [readFraction,digits_power last,readPower_power,some_digit]

theorem placed_spec {dotplace : Int} (some_digit : ds ≠ []) (all : ∀ c ∈ ds, c.isDigit = true) (le : dotplace ≤ ds.length)
    (same : placed ds dotplace = (whole,fraction)) :
    whole ≠ [] ∧ (∀ c ∈ whole, c.isDigit = true) ∧ (∀ c ∈ fraction, c.isDigit = true) ∧
      Nat.ofDigitChars 10 (whole ++ fraction) 0 = Nat.ofDigitChars 10 ds 0 ∧ (fraction.length : Int) = ds.length - dotplace := by
  unfold placed at same
  have positive := List.length_pos_iff.mpr some_digit
  split at same
  · obtain ⟨rfl,rfl⟩ := Prod.mk.inj same
    refine ⟨by simp,by simp,?_,?_,?_⟩
    · intro c inside
      rcases List.mem_append.mp inside with zero | digit
      · rw [List.eq_of_mem_replicate zero]
        rfl
      · exact all c digit
    · rw [← List.append_assoc,← List.replicate_one,List.replicate_append_replicate,Nat.ofDigitChars_append,
        Nat.ofDigitChars_replicate_zero,Nat.mul_zero]
    · rw [List.length_append,List.length_replicate]
      omega
  split at same
  · obtain rfl : dotplace = ds.length := by omega
    obtain ⟨rfl,rfl⟩ := Prod.mk.inj same
    simpa using ⟨some_digit,all⟩
  · obtain ⟨rfl,rfl⟩ := Prod.mk.inj same
    refine ⟨?_,fun c inside => all c (List.mem_of_mem_take inside),fun c inside => all c (List.mem_of_mem_drop inside),?_,?_⟩
    · rw [ne_eq,List.take_eq_nil_iff]
      intro empty
      rcases empty with zero | nothing
      · omega
      · exact some_digit nothing
    · rw [List.take_append_drop]
    · rw [List.length_drop]
      omega

/-! The letters of a number decide what `read` passes over. -/

def symbols : List Char := ['-','.','E','+','I','n','f','i','t','y','s','N','a']

def Letter (c : Char) : Prop := c.isDigit = true ∨ c ∈ symbols

theorem Letter.apart {c : Char} (letter : Letter c) : c ≠ '_' := by
  rintro rfl
  revert letter
  simp [Letter,symbols]

theorem digit_bare {c : Char} (digit : c.isDigit = true) : c ≠ '+' ∧ c ≠ '-' := by
  constructor <;> (rintro rfl; simp at digit)

theorem power_letters (n : Int) : ∀ c ∈ power n, Letter c := by
  unfold power
  intro c inside
  split at inside
  · simp at inside
  · simp only [List.mem_cons] at inside
    rcases inside with rfl | rfl | digit
    · exact .inr (by decide)
    · split <;> exact .inr (by decide)
    · exact .inl (toDigits_digit c digit)

theorem pointed_letters (all : ∀ c ∈ fraction, c.isDigit = true) : ∀ c ∈ pointed fraction, Letter c := by
  unfold pointed
  intro c inside
  split at inside
  · simp at inside
  · rcases List.mem_cons.mp inside with rfl | digit
    · exact .inr (by decide)
    · exact .inl (all c digit)

theorem str_finite (negative : Bool) (coefficient : Nat) (exponent : Int) : ∃ whole fraction n,
    str (.finite negative coefficient exponent) = signText negative ++ (whole ++ (pointed fraction ++ power n)) ∧
      whole ≠ [] ∧ (∀ c ∈ whole, c.isDigit = true) ∧ (∀ c ∈ fraction, c.isDigit = true) ∧
      Nat.ofDigitChars 10 (whole ++ fraction) 0 = coefficient ∧ n - fraction.length = exponent := by
  rw [str]
  have some_digit : Nat.toDigits 10 coefficient ≠ [] := Nat.toDigits_ne_nil
  have number := Nat.ofDigitChars_ten_toDigits (n := coefficient)
  have all : ∀ c ∈ Nat.toDigits 10 coefficient, c.isDigit = true := toDigits_digit
  generalize Nat.toDigits 10 coefficient = ds at some_digit number all
  have le : dotplace exponent (exponent + ds.length) ≤ ds.length := by
    have positive := List.length_pos_iff.mpr some_digit
    unfold dotplace
    split <;> omega
  generalize dotplace exponent (exponent + ds.length) = point at le
  cases parts : placed ds point with
  | mk whole fraction =>
    obtain ⟨nonempty,first,last,same,length⟩ := placed_spec some_digit all le parts
    exact ⟨whole,fraction,_,rfl,nonempty,first,last,same.trans number,by omega⟩

theorem written_letters (first : ∀ c ∈ whole, c.isDigit = true) (last : ∀ c ∈ fraction, c.isDigit = true) (n : Int) :
    ∀ c ∈ whole ++ (pointed fraction ++ power n), Letter c := by
  intro c inside
  rw [List.mem_append,List.mem_append] at inside
  rcases inside with digit | after | exponent
  · exact .inl (first c digit)
  · exact pointed_letters last c after
  · exact power_letters n c exponent

theorem signText_letters (negative : Bool) : ∀ c ∈ signText negative, Letter c := by
  cases negative <;> simp [signText,Letter,symbols]

theorem str_letters (d : Decimal) : ∀ c ∈ str d, Letter c := by
  cases d with
  | finite negative coefficient exponent =>
    obtain ⟨whole,fraction,n,same,_,first,last,_⟩ := str_finite negative coefficient exponent
    intro c inside
    rw [same,List.mem_append] at inside
    exact inside.elim (signText_letters negative c) (written_letters first last n c)
  | infinity negative =>
    have all : (str (.infinity negative)).all (· ∈ symbols) = true := by
      cases negative <;> decide
    exact fun c inside => .inr (of_decide_eq_true (List.all_eq_true.mp all c inside))
  | nan negative signaling =>
    have all : (str (.nan negative signaling)).all (· ∈ symbols) = true := by
      cases negative <;> cases signaling <;> decide
    exact fun c inside => .inr (of_decide_eq_true (List.all_eq_true.mp all c inside))

theorem read_signed (negative : Bool) {c : Char} (bare : c ≠ '+' ∧ c ≠ '-') (plain : ∀ d ∈ c :: rest, d ≠ '_') :
    read (signText negative ++ c :: rest) = (readNumber negative (c :: rest)).or (readSpecial negative (c :: rest)) := by
  have kept : (c :: rest).filter (· ≠ '_') = c :: rest := List.filter_eq_self.mpr (by simpa using plain)
  cases negative with
  | true =>
    rw [read,signText,if_pos rfl,List.singleton_append,List.filter_cons_of_pos (by decide),kept]
    simp [signed]
  | false =>
    rw [read,signText,if_neg (by simp),List.nil_append,kept]
    simp [signed,bare]

theorem read_str (d : Decimal) : read (str d) = some d := by
  cases d with
  | finite negative coefficient exponent =>
    obtain ⟨whole,fraction,n,same,nonempty,first,last,number,power_eq⟩ := str_finite negative coefficient exponent
    have read_number := readNumber_written negative first last nonempty n
    have letters := written_letters first last n
    rw [same]
    cases whole with
    | nil => exact absurd rfl nonempty
    | cons c more =>
      have plain : ∀ d ∈ c :: (more ++ (pointed fraction ++ power n)), d ≠ '_' := fun d inside => (letters d inside).apart
      rw [List.cons_append] at read_number ⊢
      rw [read_signed negative (digit_bare (first c List.mem_cons_self)) plain,read_number,number,power_eq,Option.some_or]
  | infinity negative => cases negative <;> decide
  | nan negative signaling => cases negative <;> cases signaling <;> decide

end DecimalText
