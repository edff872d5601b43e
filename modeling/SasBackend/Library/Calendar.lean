import Mathlib.Order.Basic
import Mathlib.Order.MinMax
import Mathlib.Tactic.SplitIfs

/-! Moments of the proleptic Gregorian calendar, in microseconds, from year 1 to year 9999.
Adding days or months has no result where it would leave these years.
-/
namespace Calendar

def isLeap (year : Nat) : Bool := year % 4 = 0 && (year % 100 ≠ 0 || year % 400 = 0)

def daysIn (year month : Nat) : Nat :=
  if month = 2 then if isLeap year then 29 else 28
  else if month = 4 ∨ month = 6 ∨ month = 9 ∨ month = 11 then 30
  else 31

/-- The microseconds of a day. -/
def dayLength : Nat := 86400000000

@[ext] structure Moment where
  year : Nat
  month : Nat
  day : Nat
  time : Nat
  year_pos : 1 ≤ year
  year_le : year ≤ 9999
  month_pos : 1 ≤ month
  month_le : month ≤ 12
  day_pos : 1 ≤ day
  day_le : day ≤ daysIn year month
  time_lt : time < dayLength
  deriving DecidableEq

theorem daysIn_le (year month : Nat) : daysIn year month ≤ 31 := by
  unfold daysIn
  split_ifs <;> omega

theorem daysIn_ge (year month : Nat) : 28 ≤ daysIn year month := by
  unfold daysIn
  split_ifs <;> omega

namespace Moment

/-- The months since the month before January of year 0. -/
def monthNumber (m : Moment) : Nat := 12 * m.year + m.month

def key (m : Moment) : Nat := dayLength * (32 * m.monthNumber + m.day) + m.time

theorem key_injective : Function.Injective key := by
  intro m n same
  have dayM := m.day_le.trans (daysIn_le _ _)
  have dayN := n.day_le.trans (daysIn_le _ _)
  have bounds := And.intro (And.intro m.month_pos m.month_le) (And.intro n.month_pos n.month_le)
  have times := And.intro m.time_lt n.time_lt
  simp only [key,monthNumber,dayLength] at same times
  apply Moment.ext <;> omega

instance : LinearOrder Moment := LinearOrder.lift' key key_injective

theorem le_iff_key {m n : Moment} : m ≤ n ↔ m.key ≤ n.key := Iff.rfl

theorem lt_iff_key {m n : Moment} : m < n ↔ m.key < n.key := Iff.rfl

theorem le_iff {m n : Moment} : m ≤ n ↔ m.monthNumber < n.monthNumber ∨
    m.monthNumber = n.monthNumber ∧ (m.day < n.day ∨ m.day = n.day ∧ m.time ≤ n.time) := by
  have dayM := m.day_le.trans (daysIn_le _ _)
  have dayN := n.day_le.trans (daysIn_le _ _)
  have times := And.intro m.time_lt n.time_lt
  rw [le_iff_key]
  simp only [key,dayLength] at times ⊢
  omega

theorem monthNumber_mono {m n : Moment} (before : m ≤ n) : m.monthNumber ≤ n.monthNumber := by
  rcases le_iff.mp before with less | ⟨same,_⟩ <;> omega

theorem eq_of_monthNumber {m n : Moment} (same : m.monthNumber = n.monthNumber) :
    m.year = n.year ∧ m.month = n.month := by
  have bounds := And.intro (And.intro m.month_pos m.month_le) (And.intro n.month_pos n.month_le)
  simp only [monthNumber] at same
  omega

end Moment

/-- The date and the time, where there is such a date. -/
def moment? (year month day time : Nat) (time_lt : time < dayLength) : Option Moment :=
  if valid : (1 ≤ year ∧ year ≤ 9999) ∧ (1 ≤ month ∧ month ≤ 12) ∧ 1 ≤ day ∧ day ≤ daysIn year month then
    some ⟨year,month,day,time,valid.1.1,valid.1.2,valid.2.1.1,valid.2.1.2,valid.2.2.1,valid.2.2.2,time_lt⟩
  else none

theorem moment?_eq_some {year month day time : Nat} {time_lt : time < dayLength} {m : Moment} :
    moment? year month day time time_lt = some m ↔
      m.year = year ∧ m.month = month ∧ m.day = day ∧ m.time = time := by
  constructor
  · intro made
    unfold moment? at made
    split at made
    · cases made
      exact ⟨rfl,rfl,rfl,rfl⟩
    · cases made
  · rintro ⟨rfl,rfl,rfl,rfl⟩
    have valid : (1 ≤ m.year ∧ m.year ≤ 9999) ∧ (1 ≤ m.month ∧ m.month ≤ 12) ∧ 1 ≤ m.day ∧
        m.day ≤ daysIn m.year m.month :=
      ⟨⟨m.year_pos,m.year_le⟩,⟨m.month_pos,m.month_le⟩,m.day_pos,m.day_le⟩
    simp [moment?,valid]

/-- There is such a date. -/
def IsDate (year month day : Nat) : Prop :=
  (1 ≤ year ∧ year ≤ 9999) ∧ (1 ≤ month ∧ month ≤ 12) ∧ 1 ≤ day ∧ day ≤ daysIn year month

instance (year month day : Nat) : Decidable (IsDate year month day) := inferInstanceAs (Decidable ((_ ∧ _) ∧ _))

/-- The first moment of the date. -/
def midnight (year month day : Nat) (isDate : IsDate year month day) : Moment :=
  ⟨year,month,day,0,isDate.1.1,isDate.1.2,isDate.2.1.1,isDate.2.1.2,isDate.2.2.1,isDate.2.2.2,by decide⟩

/-- The same time on the day after. -/
def nextDay (m : Moment) : Option Moment :=
  if m.day < daysIn m.year m.month then moment? m.year m.month (m.day + 1) m.time m.time_lt
  else if m.month < 12 then moment? m.year (m.month + 1) 1 m.time m.time_lt
  else moment? (m.year + 1) 1 1 m.time m.time_lt

/-- So many days of 24 hours later. -/
def addDays (m : Moment) : Nat → Option Moment
  | 0 => some m
  | days + 1 => (nextDay m).bind fun next => addDays next days

theorem nextDay_gt {m next : Moment} (there : nextDay m = some next) : m < next := by
  have bound := m.day_le.trans (daysIn_le _ _)
  have months := And.intro m.month_pos m.month_le
  have time := m.time_lt
  rw [Moment.lt_iff_key]
  simp only [Moment.key,Moment.monthNumber,dayLength] at time ⊢
  unfold nextDay at there
  split_ifs at there with inside last <;> obtain ⟨year,month,day,same⟩ := moment?_eq_some.mp there <;> omega

theorem addDays_ge {m later : Moment} {days : Nat} (there : addDays m days = some later) : m ≤ later := by
  induction days generalizing m with
  | zero =>
    cases there
    exact le_rfl
  | succ days induction =>
    obtain ⟨next,first,rest⟩ := Option.bind_eq_some_iff.mp there
    exact (nextDay_gt first).le.trans (induction rest)

/-- The last of the days up to this one that the month has, with the time. -/
def lastDayUpTo (year month time : Nat) (time_lt : time < dayLength) : Nat → Option Moment
  | 0 => none
  | day + 1 => (moment? year month (day + 1) time time_lt).or (lastDayUpTo year month time time_lt day)

theorem lastDayUpTo_eq_some {year month time day : Nat} {time_lt : time < dayLength} {m : Moment} (pos : 1 ≤ day) :
    lastDayUpTo year month time time_lt day = some m ↔
      m.year = year ∧ m.month = month ∧ m.day = min day (daysIn year month) ∧ m.time = time := by
  have some_day := daysIn_ge year month
  induction day with
  | zero => omega
  | succ day induction =>
    rw [lastDayUpTo]
    cases made : moment? year month (day + 1) time time_lt with
    | some last =>
      obtain ⟨yearSame,monthSame,daySame,timeSame⟩ := moment?_eq_some.mp made
      have reached := last.day_le
      rw [yearSame,monthSame,daySame] at reached
      rw [Option.some_or,← made,moment?_eq_some,min_eq_left reached]
    | none =>
      rw [Option.none_or]
      have no_moment : ∀ n : Moment, ¬(n.year = year ∧ n.month = month ∧ n.day = day + 1 ∧ n.time = time) := by
        intro n same
        simp [moment?_eq_some.mpr same] at made
      by_cases short : day + 1 ≤ daysIn year month
      · -- the month itself does not exist
        have no_month : ∀ n : Moment, ¬(n.year = year ∧ n.month = month ∧ n.time = time) := by
          rintro n ⟨rfl,rfl,rfl⟩
          exact no_moment ⟨n.year,n.month,day + 1,n.time,n.year_pos,n.year_le,n.month_pos,n.month_le,by omega,short,
            n.time_lt⟩ ⟨rfl,rfl,rfl,rfl⟩
        constructor
        · intro there
          cases day with
          | zero => cases there
          | succ day =>
            obtain ⟨yearSame,monthSame,_,timeSame⟩ := (induction (by omega)).mp there
            exact absurd ⟨yearSame,monthSame,timeSame⟩ (no_month m)
        · rintro ⟨yearSame,monthSame,_,timeSame⟩
          exact absurd ⟨yearSame,monthSame,timeSame⟩ (no_month m)
      · have before := induction (by omega)
        rw [min_eq_right (by omega)] at before ⊢
        exact before

/-- Calendar months later: the day is clipped to the month, the time of day kept. -/
def addMonths (m : Moment) (months : Nat) : Option Moment :=
  let monthIndex := m.month - 1 + months
  lastDayUpTo (m.year + monthIndex / 12) (monthIndex % 12 + 1) m.time m.time_lt m.day

/-- The number of days of the month so many months later. -/
def daysAfter (m : Moment) (months : Nat) : Nat :=
  daysIn (m.year + (m.month - 1 + months) / 12) ((m.month - 1 + months) % 12 + 1)

/-- The month so many months later is one of year 9999 or before. -/
def Fits (m : Moment) (months : Nat) : Prop := m.monthNumber + months ≤ 9999 * 12 + 12

instance (m : Moment) (months : Nat) : Decidable (Fits m months) := inferInstanceAs (Decidable (_ ≤ _))

theorem Fits.mono {m n : Moment} {months : Nat} (before : m ≤ n) (fits : Fits n months) : Fits m months :=
  (Nat.add_le_add_right (Moment.monthNumber_mono before) months).trans fits

theorem fits_max {m n : Moment} {months : Nat} : Fits (max m n) months ↔ Fits m months ∧ Fits n months := by
  rcases le_total m n with order | order
  · rw [max_eq_right order]
    exact (and_iff_right_of_imp (Fits.mono order)).symm
  · rw [max_eq_left order]
    exact (and_iff_left_of_imp (Fits.mono order)).symm

theorem addMonths_eq_some {m later : Moment} {months : Nat} : addMonths m months = some later ↔
    later.monthNumber = m.monthNumber + months ∧ later.day = min m.day (daysAfter m months) ∧ later.time = m.time := by
  have bounds := And.intro m.month_pos m.month_le
  have laterBounds := And.intro later.month_pos later.month_le
  rw [addMonths,lastDayUpTo_eq_some m.day_pos,daysAfter]
  simp only [Moment.monthNumber]
  constructor
  · rintro ⟨year,month,day,time⟩
    exact ⟨by omega,day,time⟩
  · rintro ⟨same,day,time⟩
    exact ⟨by omega,by omega,day,time⟩

theorem addMonths_isSome_iff {m : Moment} {months : Nat} : (∃ later, addMonths m months = some later) ↔ Fits m months := by
  have bounds := And.intro m.month_pos m.month_le
  constructor
  · rintro ⟨later,there⟩
    obtain ⟨same,_,_⟩ := addMonths_eq_some.mp there
    have last := And.intro later.year_le later.month_le
    rw [Fits,← same,Moment.monthNumber]
    omega
  · intro fits
    simp only [Fits,Moment.monthNumber] at fits
    have some_day := daysIn_ge (m.year + (m.month - 1 + months) / 12) ((m.month - 1 + months) % 12 + 1)
    have first := m.day_pos
    have year := m.year_pos
    exact ⟨⟨m.year + (m.month - 1 + months) / 12,(m.month - 1 + months) % 12 + 1,min m.day (daysAfter m months),m.time,
      by omega,by omega,by omega,by omega,le_min first (by unfold daysAfter; omega),min_le_right _ _,m.time_lt⟩,
      addMonths_eq_some.mpr ⟨by simp only [Moment.monthNumber]; omega,rfl,rfl⟩⟩

theorem addMonths_ge {m later : Moment} {months : Nat} (some_months : 1 ≤ months) (there : addMonths m months = some later) :
    m ≤ later := by
  obtain ⟨month,_,_⟩ := addMonths_eq_some.mp there
  exact Moment.le_iff.mpr (.inl (by omega))

/-- Both moments lie in one month, on days a month so much later does not go beyond. -/
def SameDayAfter (m n : Moment) (months : Nat) : Prop :=
  m.monthNumber = n.monthNumber ∧ daysAfter m months ≤ min m.day n.day

instance (m n : Moment) (months : Nat) : Decidable (SameDayAfter m n months) := inferInstanceAs (Decidable (_ ∧ _))

theorem daysAfter_congr {m n : Moment} {months : Nat} (same : m.monthNumber = n.monthNumber) :
    daysAfter m months = daysAfter n months := by
  obtain ⟨year,month⟩ := Moment.eq_of_monthNumber same
  rw [daysAfter,daysAfter,year,month]

theorem addMonths_le_iff {m n mLater nLater : Moment} {months : Nat} (mThere : addMonths m months = some mLater)
    (nThere : addMonths n months = some nLater) :
    mLater ≤ nLater ↔ if SameDayAfter m n months then m.time ≤ n.time else m ≤ n := by
  obtain ⟨mMonth,mDay,mTime⟩ := addMonths_eq_some.mp mThere
  obtain ⟨nMonth,nDay,nTime⟩ := addMonths_eq_some.mp nThere
  have clipped : m.monthNumber = n.monthNumber → daysAfter m months = daysAfter n months := daysAfter_congr
  rw [Moment.le_iff,mMonth,nMonth,mDay,nDay,mTime,nTime]
  by_cases together : SameDayAfter m n months
  · rw [if_pos together]
    unfold SameDayAfter at together
    omega
  · rw [if_neg together,Moment.le_iff]
    unfold SameDayAfter at together
    omega

theorem addMonths_le_iff_of_lt {m n mLater nLater : Moment} {months : Nat} (mThere : addMonths m months = some mLater)
    (nThere : addMonths n months = some nLater) (before : m < n) :
    mLater ≤ nLater ↔ ¬(SameDayAfter m n months ∧ n.time < m.time) := by
  rw [addMonths_le_iff mThere nThere]
  split
  · simp [*]
  · simp [*,before.le]

theorem addMonths_le_iff_of_gt {m n mLater nLater : Moment} {months : Nat} (mThere : addMonths m months = some mLater)
    (nThere : addMonths n months = some nLater) (after : n < m) :
    mLater ≤ nLater ↔ SameDayAfter n m months ∧ m.time ≤ n.time := by
  have turned : SameDayAfter n m months ↔ SameDayAfter m n months := by
    have same : n.monthNumber = m.monthNumber → daysAfter n months = daysAfter m months := daysAfter_congr
    unfold SameDayAfter
    omega
  rw [addMonths_le_iff mThere nThere,turned]
  split
  · simp [*]
  · simp [*]

theorem addMonths_covers_of_lt {m n : Moment} {months : Nat} (before : m < n) :
    (∃ mLater ∈ addMonths m months, ∃ nLater ∈ addMonths n months, nLater ≤ mLater) ↔
      (Fits m months ∧ Fits n months) ∧ SameDayAfter m n months ∧ n.time ≤ m.time := by
  constructor
  · rintro ⟨mLater,mThere,nLater,nThere,order⟩
    exact ⟨⟨addMonths_isSome_iff.mp ⟨_,mThere⟩,addMonths_isSome_iff.mp ⟨_,nThere⟩⟩,
      (addMonths_le_iff_of_gt nThere mThere before).mp order⟩
  · rintro ⟨⟨mFits,nFits⟩,lucky⟩
    obtain ⟨mLater,mThere⟩ := addMonths_isSome_iff.mpr mFits
    obtain ⟨nLater,nThere⟩ := addMonths_isSome_iff.mpr nFits
    exact ⟨mLater,mThere,nLater,nThere,(addMonths_le_iff_of_gt nThere mThere before).mpr lucky⟩

theorem addMonths_covers_of_gt {m n : Moment} {months : Nat} (before : m < n) :
    (∃ nLater ∈ addMonths n months, ∃ mLater ∈ addMonths m months, mLater ≤ nLater) ↔
      (Fits n months ∧ Fits m months) ∧ ¬(SameDayAfter m n months ∧ n.time < m.time) := by
  constructor
  · rintro ⟨nLater,nThere,mLater,mThere,order⟩
    exact ⟨⟨addMonths_isSome_iff.mp ⟨_,nThere⟩,addMonths_isSome_iff.mp ⟨_,mThere⟩⟩,
      (addMonths_le_iff_of_lt mThere nThere before).mp order⟩
  · rintro ⟨⟨nFits,mFits⟩,apart⟩
    obtain ⟨mLater,mThere⟩ := addMonths_isSome_iff.mpr mFits
    obtain ⟨nLater,nThere⟩ := addMonths_isSome_iff.mpr nFits
    exact ⟨nLater,nThere,mLater,mThere,(addMonths_le_iff_of_lt mThere nThere before).mpr apart⟩

end Calendar
