import Mathlib.Data.List.DropRight
import SasBackend.Library.Hexadecimal

/-! UUIDs as Python's `uuid` writes and reads them.
-/
namespace UuidText

abbrev Uuid := Fin (2 ^ 128)

def hyphenated : List Nat → List Char → List Char
  | [], text => text
  | width :: widths, text => text.take width ++ '-' :: hyphenated widths (text.drop width)

def str (id : Uuid) : List Char := hyphenated [8,4,4,4] (Hexadecimal.numeral 32 id)

/-- Every occurrence of the pattern taken out, from left to right; `skipped` characters of one are still to go. -/
def without (pattern : List Char) : Nat → List Char → List Char
  | _, [] => []
  | skipped + 1, _ :: rest => without pattern skipped rest
  | 0, c :: rest =>
    if pattern.isPrefixOf (c :: rest) then without pattern (pattern.length - 1) rest else c :: without pattern 0 rest

def isBrace (c : Char) : Bool := c = '{' || c = '}'

def read (text : List Char) : Option Uuid :=
  let hex := without ['u','u','i','d',':'] 0 (without ['u','r','n',':'] 0 text)
  let hex := ((hex.dropWhile isBrace).rdropWhile isBrace).filter (· ≠ '-')
  if hex.length = 32 then
    (Hexadecimal.read hex).bind fun n => if small : n < 2 ^ 128 then some ⟨n,small⟩ else none
  else none

theorem mem_hyphenated {widths : List Nat} {text : List Char} {c : Char} (inside : c ∈ hyphenated widths text) :
    c = '-' ∨ c ∈ text := by
  induction widths generalizing text with
  | nil => exact .inr inside
  | cons width widths induction =>
    rcases List.mem_append.mp inside with before | after
    · exact .inr (List.mem_of_mem_take before)
    · rcases List.mem_cons.mp after with hyphen | after
      · exact .inl hyphen
      · exact (induction after).imp_right List.mem_of_mem_drop

theorem filter_hyphenated {text : List Char} (plain : ∀ c ∈ text, c ≠ '-') (widths : List Nat) :
    (hyphenated widths text).filter (· ≠ '-') = text := by
  induction widths generalizing text with
  | nil => exact List.filter_eq_self.mpr fun c inside => decide_eq_true (plain c inside)
  | cons width widths induction =>
    have first : (text.take width).filter (· ≠ '-') = text.take width :=
      List.filter_eq_self.mpr fun c inside => decide_eq_true (plain c (List.mem_of_mem_take inside))
    have last := induction fun c inside => plain c (List.mem_of_mem_drop (i := width) inside)
    rw [hyphenated,List.filter_append,first,List.filter_cons_of_neg (by decide),last,List.take_append_drop]

theorem without_of_absent {pattern text : List Char} {c : Char} (leads : pattern.head? = some c) (absent : c ∉ text) :
    without pattern 0 text = text := by
  induction text with
  | nil => rfl
  | cons d text induction =>
    obtain ⟨more,rfl⟩ : ∃ more, pattern = c :: more := by
      cases pattern with
      | nil => simp at leads
      | cons e more => exact ⟨more,by simpa using leads⟩
    have apart : c ≠ d := fun same => absent (same ▸ List.mem_cons_self)
    rw [without,if_neg (by simp [apart]),induction fun inside => absent (List.mem_cons_of_mem d inside)]

theorem read_str (id : Uuid) : read (str id) = some id := by
  have letters : ∀ c ∈ Hexadecimal.numeral 32 id, c ≠ '-' ∧ c ≠ 'u' ∧ isBrace c = false := by
    intro c inside
    obtain ⟨d,small,rfl⟩ := Hexadecimal.mem_numeral inside
    have all : ∀ d : Fin 16, Hexadecimal.digit d ≠ '-' ∧ Hexadecimal.digit d ≠ 'u' ∧
      isBrace (Hexadecimal.digit d) = false := by decide
    exact all ⟨d,small⟩
  have plain : ∀ c ∈ str id, c ≠ 'u' ∧ isBrace c = false := by
    intro c inside
    rcases mem_hyphenated inside with rfl | inside
    · decide
    · exact (letters c inside).2
  have absent : 'u' ∉ str id := fun inside => (plain 'u' inside).1 rfl
  have urn : without ['u','r','n',':'] 0 (str id) = str id := without_of_absent rfl absent
  have uuid : without ['u','u','i','d',':'] 0 (str id) = str id := without_of_absent rfl absent
  have open_ : (str id).dropWhile isBrace = str id :=
    List.dropWhile_eq_self_iff.mpr fun positive => by simp [(plain _ (List.getElem_mem positive)).2]
  have close : (str id).rdropWhile isBrace = str id :=
    List.rdropWhile_eq_self_iff.mpr fun nonempty => by simp [(plain _ (List.getLast_mem nonempty)).2]
  have digits : (str id).filter (· ≠ '-') = Hexadecimal.numeral 32 id :=
    filter_hyphenated (fun c inside => (letters c inside).1) _
  have small : id.val < 16 ^ 32 := id.isLt
  simp only [read,urn,uuid,open_,close,digits,Hexadecimal.length_numeral,if_true,Hexadecimal.read_numeral,
    Nat.mod_eq_of_lt small,Option.bind_some,dif_pos id.isLt]

end UuidText
