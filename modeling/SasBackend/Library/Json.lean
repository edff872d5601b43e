import Mathlib.Data.List.Basic
import Mathlib.Data.String.Basic
import SasBackend.Library.Hexadecimal

/-! JSON as Python's `json` writes it (ASCII only) and reads it.
A string is a list of code points and may hold halves of a surrogate pair; floating-point numbers are a parameter. The
recursion limit is left out.
-/
namespace Json

abbrev Text := List Nat

def ofChars (chars : List Char) : Text := chars.map Char.toNat

/-- The characters of a text without halves of surrogate pairs. -/
def chars (t : Text) : Option (List Char) := t.mapM fun n => if n.isValidChar then some (Char.ofNat n) else none

inductive Value (F : Type)
  | null
  | bool (b : Bool)
  | int (n : Int)
  | float (x : F)
  | text (t : Text)
  | array (items : List (Value F))
  | object (members : List (Text × Value F))

structure Floats (F : Type) where
  read : List Char → F
  repr : F → List Char

variable {F : Type} (floats : Floats F)

def Value.get (members : List (Text × Value F)) (key : List Char) : Option (Value F) := members.lookup (ofChars key)

def record (fields : List (List Char × Value F)) : Value F := .object (fields.map fun field => (ofChars field.1,field.2))

def intRepr (n : Int) : List Char :=
  if n < 0 then '-' :: Nat.toDigits 10 n.natAbs else Nat.toDigits 10 n.natAbs

def shortEscape (n : Nat) : Option Char :=
  if n = 34 then some '"' else if n = 92 then some '\\' else if n = 8 then some 'b' else if n = 12 then some 'f'
  else if n = 10 then some 'n' else if n = 13 then some 'r' else if n = 9 then some 't' else none

def unicodeEscape (unit : Nat) : List Char := '\\' :: 'u' :: Hexadecimal.numeral 4 unit

def escape (n : Nat) : List Char :=
  match shortEscape n with
  | some letter => ['\\',letter]
  | none =>
    if 32 ≤ n ∧ n ≤ 126 then [Char.ofNat n]
    else if n < 65536 then unicodeEscape n
    else unicodeEscape (55296 + (n - 65536) / 1024) ++ unicodeEscape (56320 + (n - 65536) % 1024)

def quoted (t : Text) : List Char := '"' :: t.flatMap escape ++ ['"']

section Dumps
variable (gap : List Char)

/-- `gap` follows each comma and each colon. -/
def enclosed (first last : Char) (parts : List (List Char)) : List Char :=
  first :: (',' :: gap).intercalate parts ++ [last]

mutual

def dumps : Value F → List Char
  | .null => ['n','u','l','l']
  | .bool true => ['t','r','u','e']
  | .bool false => ['f','a','l','s','e']
  | .int n => intRepr n
  | .float x => floats.repr x
  | .text t => quoted t
  | .array items => enclosed gap '[' ']' (dumpItems items)
  | .object members => enclosed gap '{' '}' (dumpMembers members)

def dumpItems : List (Value F) → List (List Char)
  | [] => []
  | v :: items => dumps v :: dumpItems items

def dumpMembers : List (Text × Value F) → List (List Char)
  | [] => []
  | (key,v) :: members => (quoted key ++ ':' :: gap ++ dumps v) :: dumpMembers members

end

end Dumps

abbrev Parser (α : Type) := List Char → Option (α × List Char)

def isSpace (c : Char) : Bool := c = ' ' || c = '\t' || c = '\n' || c = '\r'

def skip (text : List Char) : List Char := text.dropWhile isSpace

def expect (c : Char) (text : List Char) : Option (List Char) :=
  match text with
  | [] => none
  | d :: rest => if d = c then some rest else none

/-- A character of a string, or the code unit of a `\u` escape. -/
inductive Piece
  | plain (n : Nat)
  | unit (n : Nat)

def longEscape (c : Char) : Option Nat :=
  if c = '"' then some 34 else if c = '\\' then some 92 else if c = '/' then some 47 else if c = 'b' then some 8
  else if c = 'f' then some 12 else if c = 'n' then some 10 else if c = 'r' then some 13 else if c = 't' then some 9
  else none

/-- Up to the closing quote. -/
def scan : Parser (List Piece)
  | [] => none
  | c :: rest =>
    if c = '"' then some ([],rest)
    else if c = '\\' then
      match rest with
      | [] => none
      | letter :: rest =>
        if letter = 'u' then
          match rest with
          | h :: i :: j :: k :: rest =>
            match Hexadecimal.read [h,i,j,k] with
            | some unit => (scan rest).map fun (pieces,rest) => (.unit unit :: pieces,rest)
            | none => none
          | _ => none
        else
          match longEscape letter with
          | some n => (scan rest).map fun (pieces,rest) => (.plain n :: pieces,rest)
          | none => none
    else if c.toNat < 32 then none
    else (scan rest).map fun (pieces,rest) => (.plain c.toNat :: pieces,rest)

def IsHigh (n : Nat) : Prop := 55296 ≤ n ∧ n < 56320

def IsLow (n : Nat) : Prop := 56320 ≤ n ∧ n < 57344

instance (n : Nat) : Decidable (IsHigh n) := inferInstanceAs (Decidable (_ ∧ _))

instance (n : Nat) : Decidable (IsLow n) := inferInstanceAs (Decidable (_ ∧ _))

/-- Two escaped halves of a surrogate pair become one code point. -/
def join : List Piece → Text
  | [] => []
  | .plain n :: pieces => n :: join pieces
  | [.unit n] => [n]
  | .unit n :: .plain m :: pieces => n :: m :: join pieces
  | .unit high :: .unit low :: pieces =>
    if IsHigh high ∧ IsLow low then (65536 + 1024 * (high - 55296) + (low - 56320)) :: join pieces
    else high :: join (.unit low :: pieces)

def string : Parser Text := fun text => (scan text).map fun (pieces,rest) => (join pieces,rest)

def digits (text : List Char) : List Char × List Char := (text.takeWhile Char.isDigit,text.dropWhile Char.isDigit)

/-- A point and digits, or nothing. -/
def fraction (text : List Char) : List Char × List Char :=
  match text with
  | [] => ([],text)
  | c :: rest =>
    let (ds,after) := digits rest
    if c = '.' ∧ ds ≠ [] then (c :: ds,after) else ([],text)

def signed (signs : List Char) (text : List Char) : List Char × List Char :=
  match text with
  | [] => ([],text)
  | c :: rest => if c ∈ signs then ([c],rest) else ([],text)

def exponent (text : List Char) : List Char × List Char :=
  match text with
  | [] => ([],text)
  | c :: rest =>
    let (sign,rest) := signed ['+','-'] rest
    let (ds,after) := digits rest
    if (c = 'e' ∨ c = 'E') ∧ ds ≠ [] then (c :: sign ++ ds,after) else ([],text)

def whole (text : List Char) : List Char × List Char :=
  match text with
  | [] => ([],text)
  | c :: rest => if c = '0' then ([c],rest) else digits text

/-- The digits that Python converts between `int` and `str`. -/
def maxDigits : Nat := 4300

def number : Parser (Value F) := fun text =>
  let (sign,text) := signed ['-'] text
  let (ds,text) := whole text
  let (point,text) := fraction text
  let (power,text) := exponent text
  if ds = [] then none
  else if point = [] ∧ power = [] then
    let n : Int := Nat.ofDigitChars 10 ds 0
    if ds.length ≤ maxDigits then some (.int (if sign = [] then n else -n),text) else none
  else some (.float (floats.read (sign ++ ds ++ point ++ power)),text)

def keywords : List (List Char × Value F) :=
  [(['n','u','l','l'],.null),(['t','r','u','e'],.bool true),(['f','a','l','s','e'],.bool false)] ++
    [['N','a','N'],['I','n','f','i','n','i','t','y'],['-','I','n','f','i','n','i','t','y']].map
      fun word => (word,.float (floats.read word))

def keywordOrNumber : Parser (Value F) := fun text =>
  match (keywords floats).find? fun entry => entry.1.isPrefixOf text with
  | some (word,v) => some (v,text.drop word.length)
  | none => number floats text

section Many
variable {α : Type} (item : Parser α) (close : Char)

/-- Items with commas between them, up to the closing character. -/
def many : Nat → Parser (List α)
  | 0, _ => none
  | fuel + 1, text =>
    match item text with
    | none => none
    | some (v,rest) =>
      match skip rest with
      | [] => none
      | c :: rest =>
        if c = close then some ([v],rest)
        else if c = ',' then (many fuel (skip rest)).map fun (vs,rest) => (v :: vs,rest)
        else none

def listed (fuel : Nat) : Parser (List α) := fun text =>
  match skip text with
  | [] => none
  | c :: rest => if c = close then some ([],rest) else many item close fuel (c :: rest)

end Many

/-- A `dict` keeps the first place of a key and its last value. -/
def setMember (members : List (Text × Value F)) (entry : Text × Value F) : List (Text × Value F) :=
  if members.any (·.1 = entry.1) then members.map fun member => if member.1 = entry.1 then entry else member
  else members ++ [entry]

def dict (entries : List (Text × Value F)) : List (Text × Value F) := entries.foldl setMember []

def member (inner : Parser (Value F)) : Parser (Text × Value F) := fun text => do
  let rest ← expect '"' text
  let (key,rest) ← string rest
  let rest ← expect ':' (skip rest)
  let (v,rest) ← inner (skip rest)
  some ((key,v),rest)

/-- `inner` reads what is nested. -/
def valueStep (inner : Parser (Value F)) (fuel : Nat) : Parser (Value F)
  | [] => none
  | c :: rest =>
    if c = '"' then (string rest).map fun (t,rest) => (.text t,rest)
    else if c = '[' then (listed inner ']' fuel rest).map fun (items,rest) => (.array items,rest)
    else if c = '{' then (listed (member inner) '}' fuel rest).map fun (entries,rest) => (.object (dict entries),rest)
    else keywordOrNumber floats (c :: rest)

def value : Nat → Parser (Value F)
  | 0 => fun _ => none
  | fuel + 1 => valueStep floats (value fuel) fuel

def loads (text : List Char) : Option (Value F) :=
  match value floats (text.length + 1) (skip text) with
  | some (v,rest) => if skip rest = [] then some v else none
  | none => none

end Json
