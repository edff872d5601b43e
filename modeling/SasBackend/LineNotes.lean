import SasBackend.LicenseLineage
import SasBackend.Library.Outcome
import SasBackend.Semantics.LineNotes

/-! Notes and modifiers come back from a sale line exactly where a plain note does not look like the packed form, and the
kitchen ticket prints them where U+0000 does not hide in a packed note.
A plain note that is read as the packed form can only show a text shorter than itself.
-/
namespace LineNotes
open Json
open Outcome (mapM_some_iff exists_mapM_iff)

variable {F : Type} {floats : Floats F} {note : Option (List Char)} {modifiers : List Modifier} {text : List Char}

theorem strip_str (d : DecimalText.Decimal) : LicenseLineage.strip (DecimalText.str d) = DecimalText.str d := by
  apply LicenseLineage.strip_of_bare
  intro c inside
  rcases DecimalText.str_letters d c inside with digit | symbol
  · exact (LicenseLineage.alphabet_plain (.inl (by simp [Char.isAlphanum,digit]))).1
  · have all : DecimalText.symbols.all (fun c => !LicenseLineage.isSpace c) = true := by decide
    simpa using List.all_eq_true.mp all c symbol

theorem decodeModifier_encodeModifier (item : Modifier) :
    decodeModifier floats (encodeModifier item) = some (decoded item) := by
  let fields : List (List Char × Value F) := [(modifierIdKey,.text (ofChars (UuidText.str item.modifierId))),
    (nameKey,.text (ofChars item.name)),(priceDeltaKey,.text (ofChars (DecimalText.str item.priceDelta)))]
  have id : fields.lookup modifierIdKey = some (.text (ofChars (UuidText.str item.modifierId))) := rfl
  have name : fields.lookup nameKey = some (.text (ofChars item.name)) := rfl
  have delta : fields.lookup priceDeltaKey = some (.text (ofChars (DecimalText.str item.priceDelta))) := rfl
  change decodeModifier floats (record fields) = _
  simp only [decodeModifier,record,Value.get_map,id,name,delta,Option.bind_eq_bind,Option.bind_some,strOf,chars_ofChars,
    UuidText.read_str,strip_str,DecimalText.read_str,decoded]

theorem encodeModifier_plain (item : Modifier) : (encodeModifier item : Value F).Plain := by
  have distinct : [modifierIdKey,nameKey,priceDeltaKey].Nodup := by decide
  refine record_plain rfl distinct ?_
  simp only [List.mem_cons,List.not_mem_nil,or_false]
  rintro field (rfl | rfl | rfl) <;> exact .text (scalar_ofChars _)

theorem textOrNone_plain (note : Option (List Char)) : (textOrNone note : Value F).Plain := by
  cases note with
  | none => exact .null
  | some text => exact .text (scalar_ofChars text)

theorem payloadOf_plain (note : Option (List Char)) (modifiers : List Modifier) :
    (payloadOf note modifiers : Value F).Plain := by
  have distinct : [kitchenNotesKey,modifiersKey].Nodup := by decide
  refine record_plain rfl distinct ?_
  simp only [List.mem_cons,List.not_mem_nil,or_false]
  rintro field (rfl | rfl)
  · exact textOrNone_plain note
  · apply Value.Plain.array
    intro v inside
    obtain ⟨item,_,rfl⟩ := List.mem_map.mp inside
    exact encodeModifier_plain item

theorem decode_packed (some_modifier : modifiers ≠ []) :
    decodeSaleLineNotes floats (encodeSaleLineNotes floats note modifiers) =
      some (textOrNone note,modifiers.map decoded) := by
  have blank : ∀ c ∈ [' '], isSpace c = true := by simp [isSpace]
  have items : (modifiers.map encodeModifier).mapM (decodeModifier floats) = some (modifiers.map decoded) := by
    rw [mapM_some_iff,List.forall₂_map_left_iff,List.forall₂_map_right_iff,List.forall₂_same]
    exact fun item _ => decodeModifier_encodeModifier item
  let fields : List (List Char × Value F) := [(kitchenNotesKey,textOrNone note),(modifiersKey,.array (modifiers.map encodeModifier))]
  have shown : fields.lookup kitchenNotesKey = some (textOrNone note) := rfl
  have listed : fields.lookup modifiersKey = some (.array (modifiers.map encodeModifier)) := rfl
  have packed : loads floats (dumps floats [' '] (payloadOf note modifiers)) = some (record fields) :=
    loads_dumps blank (payloadOf_plain note modifiers)
  rw [encodeSaleLineNotes,if_neg (by simpa using some_modifier),decodeSaleLineNotes,
    if_pos (List.isPrefixOf_iff_prefix.mpr (List.prefix_append _ _)),List.drop_left,packed]
  simp only [record,Value.get_map,shown,listed,Option.getD_some,iterated,Option.bind_eq_bind,Option.bind_some,items]

theorem decode_unprefixed (plain : Unprefixed note) : decodeSaleLineNotes floats note = some (textOrNone note,[]) := by
  cases note with
  | none => rfl
  | some text =>
    rw [decodeSaleLineNotes,if_neg (by simpa using plain text rfl)]
    rfl

theorem decode_prefixed {t : Text} {items : List (DecodedModifier F)} (looks : lineNotesPrefix <+: text)
    (read : decodeSaleLineNotes floats (some text) = some (.text t,items)) : t.length < text.length := by
  rw [decodeSaleLineNotes,if_pos (List.isPrefixOf_iff_prefix.mpr looks)] at read
  split at read
  next members loaded =>
    simp only [Option.bind_eq_bind,Option.bind_eq_some_iff,Option.some.injEq,Prod.mk.injEq] at read
    obtain ⟨_,_,_,_,shown,_⟩ := read
    cases there : Value.get members kitchenNotesKey with
    | none => simp [there] at shown
    | some v =>
      obtain rfl : v = .text t := by simpa [there] using shown
      have short := loads_shorter loaded (.member (Value.mem_of_get there) .text)
      rw [List.length_drop] at short
      omega
  · simp at read

theorem decode_encode_iff : decodeSaleLineNotes floats (encodeSaleLineNotes floats note modifiers) =
    some (textOrNone note,modifiers.map decoded) ↔ (modifiers = [] → Unprefixed note) := by
  by_cases none_chosen : modifiers = []
  · subst none_chosen
    constructor
    · rintro read - text found looks
      obtain rfl : note = some text := found
      have short := decode_prefixed looks read
      simp [ofChars] at short
    · exact fun plain => decode_unprefixed (plain rfl)
  · exact ⟨fun _ chosen => absurd chosen none_chosen,fun _ => decode_packed none_chosen⟩

theorem textColumn_stored (stored : Stored note) : textColumn (textOrNone note : Value F) = some note := by
  cases note with
  | none => rfl
  | some text => simp [textOrNone,textColumn,chars_ofChars,stored text rfl]

theorem textColumn_some {v : Value F} (shown : textColumn v = some (some text)) : ∃ t, v = .text t ∧ t.length = text.length := by
  unfold textColumn at shown
  split at shown
  · simp at shown
  next t =>
    obtain ⟨read,there,column⟩ := Option.bind_eq_some_iff.mp shown
    split at column
    · simp at column
    · cases column
      exact ⟨t,rfl,length_of_chars there⟩
  · simp at shown

theorem jsonb_name (item : Modifier) : jsonb floats (.text (ofChars item.name)) = true := by
  rw [jsonb,jsonbText,List.all_eq_true]
  intro n inside
  obtain ⟨c,there,rfl⟩ := List.mem_map.mp inside
  have scalar : c.toNat.isValidChar := c.valid
  have apart : c.toNat ≠ 0 := by
    intro zero
    have same : c = '\x00' := Char.toNat_inj.mp zero
    exact item.stored (same ▸ there)
  simp [scalar,apart]

/-- The ticket line of what was entered. -/
def printed (note : Option (List Char)) (modifiers : List Modifier) : KotOrderLine F :=
  ⟨modifiers.map fun item => kotModifier (decoded item),note⟩

theorem kotOrderLine_of_decode {notes : Option (List Char)} (stored : Stored note)
    (read : decodeSaleLineNotes floats notes = some (textOrNone note,modifiers.map decoded)) :
    kotOrderLine floats notes = some (printed note modifiers) := by
  have names : (modifiers.map decoded).all (fun item => jsonb floats item.name) = true := by
    simp [decoded,jsonb_name]
  simp only [kotOrderLine,read,Option.bind_eq_bind,Option.bind_some,textColumn_stored stored,names,if_true,printed,
    List.map_map,Function.comp_def]

theorem kotOrderLine_kitchenNotes {notes : Option (List Char)} {line : KotOrderLine F}
    (fired : kotOrderLine floats notes = some line) :
    ∃ v items, decodeSaleLineNotes floats notes = some (v,items) ∧ textColumn v = some line.kitchenNotes := by
  simp only [kotOrderLine,Option.bind_eq_bind,Option.bind_eq_some_iff,Prod.exists] at fired
  obtain ⟨v,items,read,column,shown,fired⟩ := fired
  split at fired
  · cases fired
    exact ⟨v,items,read,shown⟩
  · simp at fired

theorem unprefixed_of_printed {line : KotOrderLine F} (fired : kotOrderLine floats note = some line)
    (shown : line.kitchenNotes = note) : Unprefixed note := by
  intro text found looks
  obtain rfl : note = some text := found
  obtain ⟨v,items,read,column⟩ := kotOrderLine_kitchenNotes fired
  rw [shown] at column
  obtain ⟨t,rfl,length⟩ := textColumn_some column
  have short := decode_prefixed looks read
  omega

theorem stored_of_packed {line : KotOrderLine F} (some_modifier : modifiers ≠ [])
    (fired : kotOrderLine floats (encodeSaleLineNotes floats note modifiers) = some line) : Stored note := by
  intro text found inside
  obtain rfl : note = some text := found
  obtain ⟨v,items,read,column⟩ := kotOrderLine_kitchenNotes fired
  rw [decode_packed some_modifier] at read
  cases read
  simp [textOrNone,textColumn,chars_ofChars,inside] at column

theorem entry_printed_iff {entry : Entry} (stored : Stored (entry.notes floats)) :
    (∃ line, kotOrderLine floats (entry.notes floats) = some line ∧ Prints entry line) ↔ entry.Plain := by
  cases entry with
  | tab note modifiers =>
    by_cases none_chosen : modifiers = []
    · subst none_chosen
      constructor
      · rintro ⟨line,fired,shown,_⟩
        exact ⟨fun _ => unprefixed_of_printed fired shown,fun chosen => absurd rfl chosen⟩
      · rintro ⟨plain,_⟩
        exact ⟨printed note [],kotOrderLine_of_decode stored (decode_unprefixed (plain rfl)),rfl,rfl⟩
    · constructor
      · rintro ⟨line,fired,_⟩
        exact ⟨fun chosen => absurd chosen none_chosen,fun _ => stored_of_packed none_chosen fired⟩
      · rintro ⟨_,plain⟩
        exact ⟨printed note modifiers,kotOrderLine_of_decode (plain none_chosen) (decode_packed none_chosen),rfl,rfl⟩
  | sale note modifierIds =>
    constructor
    · rintro ⟨line,fired,shown,ids⟩
      have plain := unprefixed_of_printed fired shown
      have line_eq : kotOrderLine floats note = some (printed note []) :=
        kotOrderLine_of_decode stored (decode_unprefixed plain)
      obtain rfl : line = printed note [] := Option.some.inj (fired.symm.trans line_eq)
      exact ⟨List.map_eq_nil_iff.mp ids.symm,plain⟩
    · rintro ⟨rfl,plain⟩
      exact ⟨printed note [],kotOrderLine_of_decode stored (decode_unprefixed plain),rfl,rfl⟩

/-- A line gives back its note and its modifiers exactly where a note without modifiers does not look like the packed
form; a ticket prints what was entered exactly where this holds of every line, no U+0000 is packed and no modifiers are left
out by `create_sale`. -/
theorem line_notes (floats : Floats F) :
    (∀ note modifiers, decodeSaleLineNotes floats (encodeSaleLineNotes floats note modifiers) =
      some (textOrNone note,modifiers.map decoded) ↔ (modifiers = [] → Unprefixed note)) ∧
    ∀ entries : List Entry, (∀ entry ∈ entries, Stored (entry.notes floats)) →
      ((∃ lines, fireTabToKitchen floats (entries.map (Entry.notes floats)) = some lines ∧ List.Forall₂ Prints entries lines) ↔
        ∀ entry ∈ entries, entry.Plain) := by
  refine ⟨fun note modifiers => decode_encode_iff,?_⟩
  intro entries stored
  rw [fireTabToKitchen,List.mapM_map,exists_mapM_iff]
  constructor
  · intro each entry inside
    exact (entry_printed_iff (stored entry inside)).mp (each entry inside)
  · intro plain entry inside
    exact (entry_printed_iff (stored entry inside)).mpr (plain entry inside)

def sampleFloats : Floats (List Char) := ⟨id,id⟩

def extraCheese : Modifier := ⟨7,['c','h','e','e','s','e'],.finite false 50 (-2),by decide⟩

/-- A note with a modifier, and one of a sale. -/
def sampleEntries : List Entry := [.tab (some ['h','o','t','\n','"']) [extraCheese],.sale (some ['m','i','l','d']) []]

theorem line_notes_fired : ∃ lines, fireTabToKitchen sampleFloats (sampleEntries.map (Entry.notes sampleFloats)) = some lines ∧
    List.Forall₂ Prints sampleEntries lines := by
  have stored : ∀ entry ∈ sampleEntries, Stored (entry.notes sampleFloats) := by
    simp only [sampleEntries,List.mem_cons,List.not_mem_nil,or_false]
    rintro entry (rfl | rfl) text found <;> cases found <;> decide +kernel
  apply ((line_notes sampleFloats).2 sampleEntries stored).mpr
  simp only [sampleEntries,List.mem_cons,List.not_mem_nil,or_false]
  rintro entry (rfl | rfl)
  · refine ⟨nofun,?_⟩
    rintro _ text found
    cases found
    decide
  · refine ⟨rfl,?_⟩
    rintro text found
    cases found
    decide

/-- The note `restaurant:hello` without modifiers is stored as it is, is read as JSON, and stops the ticket. -/
theorem note_stops_ticket :
    decodeSaleLineNotes sampleFloats (encodeSaleLineNotes sampleFloats
      (some ['r','e','s','t','a','u','r','a','n','t',':','h','e','l','l','o']) []) = none ∧
    fireTabToKitchen sampleFloats [encodeSaleLineNotes sampleFloats
      (some ['r','e','s','t','a','u','r','a','n','t',':','h','e','l','l','o']) []] = none := ⟨rfl,rfl⟩

end LineNotes
