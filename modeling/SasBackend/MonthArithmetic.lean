import SasBackend.Semantics.MonthArithmetic
import SasBackend.Subscriptions

/-! Where the loop behind the months of a payment ends, and with what.
-/
namespace MonthArithmetic
open Calendar Subscriptions

variable {moment later : Moment} {months rounds : Nat}

theorem replace_ok {year month day : Int} : replace moment year month day = .ok later ↔
    later.year = year ∧ later.month = month ∧ later.day = day ∧ later.time = moment.time := by
  constructor
  · intro replaced
    unfold replace at replaced
    split at replaced
    · cases made : moment? year.toNat month.toNat day.toNat moment.time moment.time_lt with
      | none =>
        rw [made] at replaced
        cases replaced
      | some found =>
        rw [made] at replaced
        cases replaced
        obtain ⟨yearSame,monthSame,daySame,timeSame⟩ := moment?_eq_some.mp made
        have first := And.intro later.year_pos (And.intro later.month_pos later.day_pos)
        exact ⟨by omega,by omega,by omega,timeSame⟩
    · cases replaced
  · rintro ⟨rfl,rfl,rfl,timeSame⟩
    have bounds := And.intro later.year_le (And.intro later.month_le (later.day_le.trans (daysIn_le _ _)))
    have takes : TakesInt later.year ∧ TakesInt later.month ∧ TakesInt later.day := by
      unfold TakesInt
      omega
    have made : moment? later.year later.month later.day moment.time moment.time_lt = some later :=
      moment?_eq_some.mpr ⟨rfl,rfl,rfl,timeSame⟩
    rw [replace,if_pos takes]
    simp only [Int.toNat_natCast,made]

theorem tryDay_leaves {year month day : Int} :
    tryDay moment year month day = .inr (.ok later) ↔ replace moment year month day = .ok later := by
  unfold tryDay
  cases replace moment year month day with
  | ok replaced => simp
  | error raised => cases raised <;> simp

theorem tryDay_next {year month day : Int} (takes : TakesInt year ∧ TakesInt month ∧ TakesInt day)
    (absent : ∀ later : Moment, replace moment year month day ≠ .ok later) :
    tryDay moment year month day = .inl (day - 1) := by
  have raised : replace moment year month day = .error .valueError := by
    rw [replace,if_pos takes] at absent ⊢
    split
    next found => simp [found] at absent
    · rfl
  rw [tryDay,raised]

/-- It is left with the last day up to the first one tried that the month has. -/
theorem run_tryDay {year month : Nat} {day : Nat} (small : day ≤ 31)
    (there : lastDayUpTo year month moment.time moment.time_lt day = some later) :
    Loop.run (tryDay moment year month) (day + 1 - later.day) day = some (.ok later) := by
  induction day with
  | zero => cases there
  | succ day induction =>
    obtain ⟨yearSame,monthSame,daySame,timeSame⟩ := (lastDayUpTo_eq_some (by omega)).mp there
    by_cases reached : later.day = day + 1
    · have replaced : replace moment year month (day + 1 : Nat) = .ok later :=
        replace_ok.mpr ⟨by omega,by omega,by omega,timeSame⟩
      rw [reached,Nat.add_sub_cancel_left]
      exact Loop.run_leave (tryDay_leaves.mpr replaced)
    · have absent : ∀ other : Moment, replace moment year month (day + 1 : Nat) ≠ .ok other := by
        intro other replaced
        obtain ⟨otherYear,otherMonth,otherDay,_⟩ := replace_ok.mp replaced
        have fits := other.day_le
        rw [Int.natCast_inj.mp otherYear,Int.natCast_inj.mp otherMonth] at fits
        omega
      have bounds := And.intro later.year_le later.month_le
      have takes : TakesInt year ∧ TakesInt month ∧ TakesInt (day + 1 : Nat) := by
        unfold TakesInt
        omega
      have earlier : lastDayUpTo year month moment.time moment.time_lt day = some later := by
        have some_day := later.day_pos
        exact (lastDayUpTo_eq_some (by omega)).mpr ⟨yearSame,monthSame,by omega,timeSame⟩
      have goes : tryDay moment year month (day + 1 : Nat) = .inl (day : Int) := by
        rw [tryDay_next takes absent,Int.natCast_add,Int.natCast_one,Int.add_sub_cancel]
      have left := induction (by omega) earlier
      rw [show day + 1 + 1 - later.day = (day + 1 - later.day) + 1 by omega]
      rw [Loop.run_next goes]
      exact left

theorem addMonths_eq : addMonths moment months rounds =
    Loop.run (tryDay moment (moment.year + (moment.month - 1 + months) / 12 : Nat)
      ((moment.month - 1 + months) % 12 + 1 : Nat)) rounds moment.day := by
  have first := moment.month_pos
  have index : (moment.month : Int) - 1 + months = (moment.month - 1 + months : Nat) := by omega
  rw [addMonths,index]
  rfl

theorem addMonths_returns (there : Calendar.addMonths moment months = some later) :
    addMonths moment months (moment.day + 1 - later.day) = some (.ok later) := by
  rw [addMonths_eq]
  exact run_tryDay (moment.day_le.trans (daysIn_le _ _)) there

/-- A result is the moment that the calendar has for it. -/
theorem addMonths_sound (returned : addMonths moment months rounds = some (.ok later)) :
    Calendar.addMonths moment months = some later := by
  rw [addMonths_eq] at returned
  have fits : Fits moment months := by
    let post (outcome : Except Exception Moment) : Prop := ∀ later, outcome = .ok later → Fits moment months
    let kept (_ : Int) : Prop := True
    have start : kept moment.day := trivial
    have ended : post (.ok later) := by
      apply Loop.Returns.invariant ⟨rounds,returned⟩ start
      · exact fun _ _ _ _ => trivial
      · rintro day outcome _ leaves later rfl
        obtain ⟨yearSame,monthSame,_,_⟩ := replace_ok.mp (tryDay_leaves.mp leaves)
        have bounds := And.intro later.year_le moment.month_pos
        simp only [Fits,Moment.monthNumber]
        omega
    exact ended later rfl
  obtain ⟨expected,there⟩ := addMonths_isSome_iff.mpr fits
  have computed := addMonths_returns there
  rw [addMonths_eq] at computed
  have same : Except.ok later = Except.ok expected := Loop.Returns.unique ⟨_,returned⟩ ⟨_,computed⟩
  rw [there,Except.ok.inj same]

theorem addMonths_iff : (∃ rounds, addMonths moment months rounds = some (.ok later)) ↔
    Calendar.addMonths moment months = some later := by
  constructor
  · rintro ⟨rounds,returned⟩
    exact addMonths_sound returned
  · intro there
    exact ⟨_,addMonths_returns there⟩

theorem monthsLater_of_addMonths (there : Calendar.addMonths moment months = some later) :
    MonthsLater moment later months := by
  obtain ⟨month,day,clock⟩ := addMonths_eq_some.mp there
  have bounds := And.intro (And.intro moment.month_pos moment.month_le) (And.intro later.month_pos later.month_le)
  have target : daysAfter moment months = daysIn later.year later.month := by
    simp only [Moment.monthNumber] at month
    unfold daysAfter
    congr 1 <;> omega
  refine ⟨clock,month,?_⟩
  rw [day,target]
  split <;> omega

/-- In a year after 9999 no day is found. -/
theorem run_beyond {year month day : Int} (takes : TakesInt year ∧ TakesInt month) (late : 9999 < year)
    (tried : -2147483649 ≤ day ∧ day ≤ 31) : Loop.run (tryDay moment year month) rounds day =
      if rounds ≤ day + 2147483649 then none else some (.error .overflowError) := by
  have absent (day : Int) : ∀ later : Moment, replace moment year month day ≠ .ok later := by
    intro later replaced
    have bound := later.year_le
    have same := (replace_ok.mp replaced).1
    omega
  induction rounds generalizing day with
  | zero =>
    rw [Loop.run,if_pos (by omega)]
  | succ rounds induction =>
    by_cases last : day = -2147483649
    · have leaves : tryDay moment year month day = .inr (.error .overflowError) := by
        rw [tryDay,replace,if_neg (by unfold TakesInt; omega)]
      rw [Loop.run_leave leaves,if_neg (by omega)]
    · have next : tryDay moment year month day = .inl (day - 1) := by
        apply tryDay_next _ (absent day)
        exact ⟨takes.1,takes.2,by unfold TakesInt; omega⟩
      rw [Loop.run_next next,induction (by omega)]
      congr 1
      exact propext (by omega)

theorem addMonths_beyond (data : PaymentCreate) (beyond : ¬Fits moment data.periodMonths) :
    addMonths moment data.periodMonths rounds =
      if rounds ≤ moment.day + 2147483649 then none else some (.error .overflowError) := by
  have bounds := And.intro moment.year_le (And.intro moment.month_pos moment.month_le)
  have few := data.in_range.2
  have days := And.intro moment.day_pos (moment.day_le.trans (daysIn_le _ _))
  simp only [Fits,Moment.monthNumber] at beyond
  rw [addMonths_eq,run_beyond ⟨by unfold TakesInt; omega,by unfold TakesInt; omega⟩ (by omega) (by omega)]
  congr 1
  exact propext (by omega)

theorem recordPayment_iff {business : Business} {now : Moment} {data : PaymentCreate} :
    (∃ paid ∈ business.recordPayment now data, paid.1.periodEnd = later) ↔
      ∃ rounds, addMonths (business.periodStart now) data.periodMonths rounds = some (.ok later) := by
  rw [addMonths_iff]
  constructor
  · rintro ⟨⟨payment,after⟩,recorded,rfl⟩
    exact (Business.recordPayment_eq_some.mp recorded).1
  · intro there
    exact ⟨(⟨data.periodMonths,business.periodStart now,later⟩,_),
      Business.recordPayment_eq_some.mpr ⟨there,rfl,rfl,rfl⟩,rfl⟩

/-- The months of a payment are added to a moment exactly when the month they lead to is one of year 9999 or before. -/
theorem months_added_iff (moment : Moment) (data : PaymentCreate) :
    AddsMonths moment data.periodMonths ↔ Fits moment data.periodMonths := by
  rw [← addMonths_isSome_iff]
  constructor
  · rintro ⟨rounds,later,returned,_⟩
    exact ⟨later,addMonths_sound returned⟩
  · rintro ⟨later,there⟩
    exact ⟨_,later,addMonths_returns there,monthsLater_of_addMonths there⟩

/-- The last day there is, as an end date that means never. -/
def lastDay : Moment := midnight 9999 12 31 (by decide)

def untilLastDay : SubscriptionPatch := ⟨none,none,some lastDay,by decide,by decide,by decide⟩

def oneMonth : PaymentCreate := ⟨1,by decide⟩

/-- A business whose end date was set to the last day pays for a month. -/
theorem no_month_after_last : ¬∀ history : History, history.Reached → ∀ (now : Moment) (data : PaymentCreate),
    AddsMonths (history.business.periodStart now) data.periodMonths := by
  intro always
  have patched : registered.next (newYear,.patchSubscription untilLastDay) =
      some ⟨⟨.active,some february,some lastDay⟩,[],false⟩ := rfl
  obtain ⟨rounds,later,returned,_⟩ := always _ (registered_reached.next patched) newYear oneMonth
  have start : Business.periodStart ⟨.active,some february,some lastDay⟩ newYear = lastDay := by decide
  have stuck : addMonths lastDay oneMonth.periodMonths rounds = _ := addMonths_beyond oneMonth (by decide)
  rw [start,stuck] at returned
  split at returned <;> cases returned

end MonthArithmetic
