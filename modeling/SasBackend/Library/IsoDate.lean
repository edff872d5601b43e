import SasBackend.Library.Calendar
import SasBackend.Library.Digits

/-! Dates written as `YYYY-MM-DD` and read back.
-/
namespace IsoDate

def Valid (year month day : Nat) : Prop :=
  (1 ≤ year ∧ year ≤ 9999) ∧ (1 ≤ month ∧ month ≤ 12) ∧ 1 ≤ day ∧ day ≤ Calendar.daysIn year month

instance (year month day : Nat) : Decidable (Valid year month day) := inferInstanceAs (Decidable (_ ∧ _))

structure Date where
  year : Nat
  month : Nat
  day : Nat
  valid : Valid year month day
  deriving DecidableEq

def isoformat (d : Date) : List Char :=
  Digits.padded 4 d.year ++ ('-' :: (Digits.padded 2 d.month ++ ('-' :: Digits.padded 2 d.day)))

def Shaped (text : List Char) : Prop := text.length = 10 ∧ text[4]? = some '-' ∧ text[7]? = some '-'

instance (text : List Char) : Decidable (Shaped text) := inferInstanceAs (Decidable (_ ∧ _))

def number (ds : List Char) : Option Nat := if ds.all Char.isDigit then some (Nat.ofDigitChars 10 ds 0) else none

/-- A text of this shape. -/
def read (text : List Char) : Option Date := do
  let year ← number (text.take 4)
  let month ← number ((text.drop 5).take 2)
  let day ← number (text.drop 8)
  if valid : Valid year month day then some ⟨year,month,day,valid⟩ else none

theorem number_padded (width n : Nat) : number (Digits.padded width n) = some n := by
  have all : (Digits.padded width n).all Char.isDigit = true := by
    rw [List.all_eq_true]
    intro c inside
    rcases List.mem_append.mp inside with zero | digit
    · rw [List.eq_of_mem_replicate zero]
      rfl
    · exact Nat.isDigit_of_mem_toDigits (by omega) le_rfl digit
  rw [number,if_pos all,Digits.ofDigitChars_padded]

theorem isoformat_parts (d : Date) : ∃ year month day, isoformat d = year ++ ('-' :: (month ++ ('-' :: day))) ∧
    (year.length = 4 ∧ month.length = 2 ∧ day.length = 2) ∧
    number year = some d.year ∧ number month = some d.month ∧ number day = some d.day := by
  obtain ⟨year,month,_,day⟩ := d.valid
  have last := day.trans (Calendar.daysIn_le _ _)
  exact ⟨_,_,_,rfl,⟨Digits.length_padded (by omega) (by omega),Digits.length_padded (by omega) (by omega),
    Digits.length_padded (by omega) (by omega)⟩,number_padded 4 _,number_padded 2 _,number_padded 2 _⟩

theorem shaped_isoformat (d : Date) : Shaped (isoformat d) := by
  obtain ⟨year,month,day,same,⟨four,two,last⟩,_⟩ := isoformat_parts d
  rw [Shaped,same]
  simp [four,two,last]

theorem read_isoformat (d : Date) : read (isoformat d) = some d := by
  obtain ⟨year,month,day,same,⟨four,two,_⟩,years,months,days⟩ := isoformat_parts d
  have first : (isoformat d).take 4 = year := by
    rw [same,← four,List.take_left]
  have second : ((isoformat d).drop 5).take 2 = month := by
    simp [same,four,two,List.drop_append,List.take_append]
  have third : (isoformat d).drop 8 = day := by
    simp [same,four,two,List.drop_append,List.drop_of_length_le]
  rw [read,first,second,third,years,months,days]
  simp [d.valid]

end IsoDate
