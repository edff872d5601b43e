import Mathlib.Data.List.Basic

/-! Base64url without padding: written for any bytes, and read the way a lenient reader does.
The reader takes both alphabets, skips what belongs to neither and stops at a complete padding.
-/
namespace Base64Url

abbrev Bytes := List UInt8

def digit (n : Nat) : Char :=
  if n < 26 then Char.ofNat (65 + n) else if n < 52 then Char.ofNat (97 + (n - 26))
  else if n < 62 then Char.ofNat (48 + (n - 52)) else if n = 62 then '-' else '_'

def value (c : Char) : Option Nat :=
  if c.isUpper then some (c.toNat - 65) else if c.isLower then some (c.toNat - 97 + 26)
  else if c.isDigit then some (c.toNat - 48 + 52) else if c = '-' || c = '+' then some 62
  else if c = '_' || c = '/' then some 63 else none

def encode : Bytes → List Char
  | a :: b :: c :: rest =>
    digit (a.toNat / 4) :: digit (a.toNat % 4 * 16 + b.toNat / 16) :: digit (b.toNat % 16 * 4 + c.toNat / 64) ::
      digit (c.toNat % 64) :: encode rest
  | [a,b] => [digit (a.toNat / 4),digit (a.toNat % 4 * 16 + b.toNat / 16),digit (b.toNat % 16 * 4)]
  | [a] => [digit (a.toNat / 4),digit (a.toNat % 4 * 16)]
  | [] => []

/-- `place`: how many characters of the current four are read; `left`: what their bits left over; `pads`: padding seen
since the last character. -/
def scan : Nat → Nat → Nat → List Char → Option Bytes
  | place, _, _, [] => if place = 0 then some [] else none
  | place, left, pads, c :: rest =>
    if c = '=' then
      if 2 ≤ place then if 4 ≤ place + (pads + 1) then some [] else scan place left (pads + 1) rest
      else scan place left pads rest
    else match value c with
      | none => scan place left pads rest
      | some v => match place with
        | 0 => scan 1 v 0 rest
        | 1 => (scan 2 (v % 16) 0 rest).map (UInt8.ofNat (left * 4 + v / 16) :: ·)
        | 2 => (scan 3 (v % 4) 0 rest).map (UInt8.ofNat (left * 16 + v / 4) :: ·)
        | _ => (scan 0 0 0 rest).map (UInt8.ofNat (left * 64 + v) :: ·)

def padding (length : Nat) : List Char := List.replicate ((4 - length % 4) % 4) '='

/-- Text outside of ASCII is refused. -/
def decode (text : List Char) : Option Bytes :=
  if text.all (·.toNat < 128) then scan 0 0 0 (text ++ padding text.length) else none

theorem digit_spec (n : Nat) (small : n < 64) :
    value (digit n) = some n ∧ digit n ≠ '=' ∧ (digit n).toNat < 128 ∧
      ((digit n).isAlphanum = true ∨ digit n = '-' ∨ digit n = '_') := by
  have all : ∀ n : Fin 64, value (digit n) = some n.val ∧ digit n ≠ '=' ∧ (digit n).toNat < 128 ∧
      ((digit n).isAlphanum = true ∨ digit n = '-' ∨ digit n = '_') := by decide +kernel
  exact all ⟨n,small⟩

section Scan
variable {n left pads : Nat} {rest : List Char}

theorem scan_first (small : n < 64) : scan 0 left pads (digit n :: rest) = scan 1 n 0 rest := by
  obtain ⟨read,plain,_⟩ := digit_spec n small
  simp [scan,read,plain]

theorem scan_second (small : n < 64) : scan 1 left pads (digit n :: rest) =
    (scan 2 (n % 16) 0 rest).map (UInt8.ofNat (left * 4 + n / 16) :: ·) := by
  obtain ⟨read,plain,_⟩ := digit_spec n small
  simp [scan,read,plain]

theorem scan_third (small : n < 64) : scan 2 left pads (digit n :: rest) =
    (scan 3 (n % 4) 0 rest).map (UInt8.ofNat (left * 16 + n / 4) :: ·) := by
  obtain ⟨read,plain,_⟩ := digit_spec n small
  simp [scan,read,plain]

theorem scan_fourth (small : n < 64) : scan 3 left pads (digit n :: rest) =
    (scan 0 0 0 rest).map (UInt8.ofNat (left * 64 + n) :: ·) := by
  obtain ⟨read,plain,_⟩ := digit_spec n small
  simp [scan,read,plain]

end Scan

theorem ofNat_eq {a : UInt8} {n : Nat} (same : n = a.toNat) : UInt8.ofNat n = a := by
  rw [same,UInt8.ofNat_toNat]

theorem scan_encode (bytes : Bytes) : scan 0 0 0 (encode bytes ++ padding (encode bytes).length) = some bytes := by
  induction bytes using encode.induct with
  | case1 a b c rest induction =>
    have bounds := And.intro a.toNat_lt (And.intro b.toNat_lt c.toNat_lt)
    have pads : padding (encode (a :: b :: c :: rest)).length = padding (encode rest).length := by
      simp only [encode,List.length_cons,padding]
      congr 1
      omega
    rw [pads]
    simp only [encode,List.cons_append]
    rw [scan_first (by omega),scan_second (by omega),scan_third (by omega),scan_fourth (by omega),induction]
    simp only [Option.map_some,Option.some.injEq,List.cons.injEq,and_true]
    exact ⟨ofNat_eq (by omega),ofNat_eq (by omega),ofNat_eq (by omega)⟩
  | case2 a b =>
    have bounds := And.intro a.toNat_lt b.toNat_lt
    have pads : padding (encode [a,b]).length = ['='] := rfl
    have ended : scan 3 (b.toNat % 16 * 4 % 4) 0 ['='] = some [] := rfl
    rw [pads]
    simp only [encode,List.cons_append,List.nil_append]
    rw [scan_first (by omega),scan_second (by omega),scan_third (by omega),ended]
    simp only [Option.map_some,Option.some.injEq,List.cons.injEq,and_true]
    exact ⟨ofNat_eq (by omega),ofNat_eq (by omega)⟩
  | case3 a =>
    have bounds := a.toNat_lt
    have pads : padding (encode [a]).length = ['=','='] := rfl
    have ended : scan 2 (a.toNat % 4 * 16 % 16) 0 ['=','='] = some [] := rfl
    rw [pads]
    simp only [encode,List.cons_append,List.nil_append]
    rw [scan_first (by omega),scan_second (by omega),ended]
    simp only [Option.map_some,Option.some.injEq,List.cons.injEq,and_true]
    exact ofNat_eq (by omega)
  | case4 => simp [encode,padding,scan]

theorem encode_digits (bytes : Bytes) : ∀ c ∈ encode bytes, ∃ n, n < 64 ∧ c = digit n := by
  induction bytes using encode.induct with
  | case1 a b c rest induction =>
    have bounds := And.intro a.toNat_lt (And.intro b.toNat_lt c.toNat_lt)
    intro char member
    simp only [encode,List.mem_cons] at member
    rcases member with rfl | rfl | rfl | rfl | later
    · exact ⟨_,by omega,rfl⟩
    · exact ⟨_,by omega,rfl⟩
    · exact ⟨_,by omega,rfl⟩
    · exact ⟨_,by omega,rfl⟩
    · exact induction char later
  | case2 a b =>
    have bounds := And.intro a.toNat_lt b.toNat_lt
    intro char member
    simp only [encode,List.mem_cons,List.not_mem_nil,or_false] at member
    rcases member with rfl | rfl | rfl
    · exact ⟨_,by omega,rfl⟩
    · exact ⟨_,by omega,rfl⟩
    · exact ⟨_,by omega,rfl⟩
  | case3 a =>
    have bounds := a.toNat_lt
    intro char member
    simp only [encode,List.mem_cons,List.not_mem_nil,or_false] at member
    rcases member with rfl | rfl
    · exact ⟨_,by omega,rfl⟩
    · exact ⟨_,by omega,rfl⟩
  | case4 => simp [encode]

theorem alphabet (bytes : Bytes) : ∀ c ∈ encode bytes, c.isAlphanum = true ∨ c = '-' ∨ c = '_' := by
  intro c member
  obtain ⟨n,small,rfl⟩ := encode_digits bytes c member
  exact (digit_spec n small).2.2.2

theorem decode_encode (bytes : Bytes) : decode (encode bytes) = some bytes := by
  have ascii : (encode bytes).all (·.toNat < 128) = true := by
    rw [List.all_eq_true]
    intro c member
    obtain ⟨n,small,rfl⟩ := encode_digits bytes c member
    exact decide_eq_true (digit_spec n small).2.2.1
  rw [decode,if_pos ascii,scan_encode]

end Base64Url
