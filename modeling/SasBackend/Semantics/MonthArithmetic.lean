import SasBackend.Library.Loop
import SasBackend.Semantics.Subscriptions

/-! The loop behind the months of a payment. Its body catches one kind of exception; the day it tries next has no bound.
-/
namespace MonthArithmetic
open Calendar Subscriptions

inductive Exception
  | valueError
  | overflowError
  deriving DecidableEq

/-- The integers a date takes as arguments, whatever their meaning: those of 32 bits. -/
def TakesInt (n : Int) : Prop := -2147483648 ≤ n ∧ n < 2147483648

instance (n : Int) : Decidable (TakesInt n) := inferInstanceAs (Decidable (_ ∧ _))

/-- The same time on another date. -/
def replace (moment : Moment) (year month day : Int) : Except Exception Moment :=
  if TakesInt year ∧ TakesInt month ∧ TakesInt day then
    match moment? year.toNat month.toNat day.toNat moment.time moment.time_lt with
    | some replaced => .ok replaced
    | none => .error .valueError
  else .error .overflowError

/-- One round: the date with this day, or on with the day before. -/
def tryDay (moment : Moment) (year month day : Int) : Int ⊕ Except Exception Moment :=
  match replace moment year month day with
  | .ok replaced => .inr (.ok replaced)
  | .error .valueError => .inl (day - 1)
  | .error raised => .inr (.error raised)

/-- What the call gives within so many rounds of its loop. -/
def addMonths (moment : Moment) (months : Int) (rounds : Nat) : Option (Except Exception Moment) :=
  let monthIndex := moment.month - 1 + months
  let year := moment.year + monthIndex / 12
  let month := monthIndex % 12 + 1
  Loop.run (tryDay moment year month) rounds moment.day

/-- The same clock time so many calendar months later, on the same day of the month if the month has it, else on its
last. -/
structure MonthsLater (moment later : Moment) (months : Nat) : Prop where
  clock : later.time = moment.time
  month : later.monthNumber = moment.monthNumber + months
  day : later.day = if moment.day ≤ daysIn later.year later.month then moment.day else daysIn later.year later.month

/-- The call ends, without an exception, with the moment so many months later. -/
def AddsMonths (moment : Moment) (months : Nat) : Prop :=
  ∃ rounds later, addMonths moment months rounds = some (.ok later) ∧ MonthsLater moment later months

end MonthArithmetic
