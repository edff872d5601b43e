import SasBackend.Library.DecimalText
import SasBackend.Library.JsonRoundTrip
import SasBackend.Library.UuidText
import SasBackend.Semantics.LicenseLineage

/-! The note and the modifiers of a sale line, in one text column, and the kitchen ticket line made of them.
Requests hold Unicode text, and a text column refuses U+0000. The other columns of a line are left out.
-/
namespace LineNotes
open Json
open DecimalText (Decimal)
open UuidText (Uuid)

variable {F : Type} (floats : Floats F)

/-- A row of the modifiers, as it is copied to a line. -/
structure Modifier where
  modifierId : Uuid
  name : List Char
  priceDelta : Decimal
  stored : '\x00' ∉ name

def lineNotesPrefix : List Char := ['r','e','s','t','a','u','r','a','n','t',':']

def kitchenNotesKey : List Char := ['k','i','t','c','h','e','n','_','n','o','t','e','s']

def modifiersKey : List Char := ['m','o','d','i','f','i','e','r','s']

def modifierIdKey : List Char := ['m','o','d','i','f','i','e','r','_','i','d']

def nameKey : List Char := ['n','a','m','e']

def priceDeltaKey : List Char := ['p','r','i','c','e','_','d','e','l','t','a']

def textOrNone (text : Option (List Char)) : Value F :=
  match text with
  | none => .null
  | some text => .text (ofChars text)

def encodeModifier (item : Modifier) : Value F :=
  record [(modifierIdKey,.text (ofChars (UuidText.str item.modifierId))),(nameKey,.text (ofChars item.name)),
    (priceDeltaKey,.text (ofChars (DecimalText.str item.priceDelta)))]

def payloadOf (kitchenNotes : Option (List Char)) (modifiers : List Modifier) : Value F :=
  record [(kitchenNotesKey,textOrNone kitchenNotes),(modifiersKey,.array (modifiers.map encodeModifier))]

def encodeSaleLineNotes (kitchenNotes : Option (List Char)) (modifiers : List Modifier) : Option (List Char) :=
  if modifiers.isEmpty then kitchenNotes else some (lineNotesPrefix ++ dumps floats [' '] (payloadOf kitchenNotes modifiers))

/-- A modifier read from a line: its name may be any JSON value. -/
structure DecodedModifier (F : Type) where
  modifierId : Uuid
  name : Value F
  priceDelta : Decimal

/-- `str`, where its result can be read as a UUID or as a number: not of `None`, `True`, a list or a `dict`. -/
def strOf (v : Value F) : Option (List Char) :=
  match v with
  | .text t => chars t
  | .int n => some (intRepr n)
  | .float x => some (floats.repr x)
  | _ => none

def decodeModifier (item : Value F) : Option (DecodedModifier F) :=
  match item with
  | .object members => do
    let modifierId ← Value.get members modifierIdKey
    let name ← Value.get members nameKey
    let priceDelta ← Value.get members priceDeltaKey
    let id ← (strOf floats modifierId).bind UuidText.read
    let delta ← (strOf floats priceDelta).bind fun text => DecimalText.read (LicenseLineage.strip text)
    some ⟨id,name,delta⟩
  | _ => none

/-- What a `for` loop goes through. -/
def iterated (v : Value F) : Option (List (Value F)) :=
  match v with
  | .array items => some items
  | .object members => some (members.map fun member => .text member.1)
  | .text t => some (t.map fun n => .text [n])
  | _ => none

/-- `none` where an exception is raised. -/
def decodeSaleLineNotes (notes : Option (List Char)) : Option (Value F × List (DecodedModifier F)) :=
  match notes with
  | none => some (.null,[])
  | some notes =>
    if lineNotesPrefix.isPrefixOf notes then
      match loads floats (notes.drop lineNotesPrefix.length) with
      | some (.object members) => do
        let items ← iterated ((Value.get members modifiersKey).getD (.array []))
        let modifiers ← items.mapM (decodeModifier floats)
        some ((Value.get members kitchenNotesKey).getD .null,modifiers)
      | _ => none
    else some (.text (ofChars notes),[])

/-- An element of the column `modifiers_json`. -/
structure KotModifier (F : Type) where
  modifierId : List Char
  name : Value F
  priceDelta : List Char

structure KotOrderLine (F : Type) where
  modifiersJson : List (KotModifier F)
  kitchenNotes : Option (List Char)

/-- A text column takes `None` and Unicode text without U+0000. -/
def textColumn (v : Value F) : Option (Option (List Char)) :=
  match v with
  | .null => some none
  | .text t => (chars t).bind fun text => if '\x00' ∈ text then none else some (some text)
  | _ => none

def jsonbText (t : Text) : Bool := t.all fun n => n ≠ 0 && n.isValidChar

def finite (repr : List Char) : Bool := repr.all fun c => c.isDigit || c = '.' || c = '-' || c = '+' || c = 'e'

mutual

/-- A JSONB column takes Unicode text without U+0000 and finite numbers. -/
def jsonb : Value F → Bool
  | .float x => finite (floats.repr x)
  | .text t => jsonbText t
  | .array items => jsonbItems items
  | .object members => jsonbMembers members
  | _ => true

def jsonbItems : List (Value F) → Bool
  | [] => true
  | v :: items => jsonb v && jsonbItems items

def jsonbMembers : List (Text × Value F) → Bool
  | [] => true
  | (key,v) :: members => jsonbText key && jsonb v && jsonbMembers members

end

def kotModifier (item : DecodedModifier F) : KotModifier F :=
  ⟨UuidText.str item.modifierId,item.name,DecimalText.str item.priceDelta⟩

def kotOrderLine (notes : Option (List Char)) : Option (KotOrderLine F) := do
  let (kitchenNotes,modifiers) ← decodeSaleLineNotes floats notes
  let column ← textColumn kitchenNotes
  if modifiers.all fun item => jsonb floats item.name then some ⟨modifiers.map kotModifier,column⟩ else none

/-- The columns `notes` of the lines to fire; a line that fails rolls the whole ticket back. -/
def fireTabToKitchen (lines : List (Option (List Char))) : Option (List (KotOrderLine F)) :=
  lines.mapM (kotOrderLine floats)

/-- A line as it was entered on a tab, or in a sale, whose modifiers `create_sale` does not read. -/
inductive Entry
  | tab (note : Option (List Char)) (modifiers : List Modifier)
  | sale (note : Option (List Char)) (modifierIds : List Uuid)

def Entry.notes : Entry → Option (List Char)
  | .tab note modifiers => encodeSaleLineNotes floats note modifiers
  | .sale note _ => note

def Stored (notes : Option (List Char)) : Prop := ∀ text ∈ notes, '\x00' ∉ text

/-- The ticket line shows what was entered. -/
def Prints (entry : Entry) (line : KotOrderLine F) : Prop :=
  match entry with
  | .tab note modifiers => line.kitchenNotes = note ∧
      line.modifiersJson = modifiers.map fun item =>
        ⟨UuidText.str item.modifierId,.text (ofChars item.name),DecimalText.str item.priceDelta⟩
  | .sale note modifierIds => line.kitchenNotes = note ∧ line.modifiersJson.map (·.modifierId) = modifierIds.map UuidText.str

/-- The note does not look like the packed form. -/
def Unprefixed (note : Option (List Char)) : Prop := ∀ text ∈ note, ¬ lineNotesPrefix <+: text

def Entry.Plain : Entry → Prop
  | .tab note modifiers => (modifiers = [] → Unprefixed note) ∧ (modifiers ≠ [] → Stored note)
  | .sale note modifierIds => modifierIds = [] ∧ Unprefixed note

def decoded (item : Modifier) : DecodedModifier F := ⟨item.modifierId,.text (ofChars item.name),item.priceDelta⟩

end LineNotes
