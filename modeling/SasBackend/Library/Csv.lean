import Mathlib.Data.List.Basic

/-! Comma-separated values: rows of any text are written, and read back as they were.
A field is quoted where it has a comma, a quote or a line end; the reader is the usual lenient one.
-/
namespace Csv

abbrev Text := List Char

def special (c : Char) : Bool := c = ',' || c = '"' || c = '\r' || c = '\n'

def doubled (c : Char) : Text := if c = '"' then ['"','"'] else [c]

def quoted (text : Text) : Text := '"' :: (text.flatMap doubled ++ ['"'])

def field (text : Text) : Text := if text.any special then quoted text else text

/-- A row of one empty field is no empty line. -/
def row : List Text → Text
  | [] => ['\r','\n']
  | first :: others =>
    (if first = [] ∧ others = [] then quoted first else field first) ++
      (others.flatMap (fun text => ',' :: field text) ++ ['\r','\n'])

def write (rows : List (List Text)) : Text := rows.flatMap row

/-- `row` before the first character of a row, after a carriage return or not. -/
inductive State
  | row (returned : Bool) | field | plain | quoted | quote
  deriving DecidableEq

/-- The text of the field, the fields of the row and the rows before. -/
structure Reader where
  state : State
  text : Text
  fields : List Text
  rows : List (List Text)

def Reader.add (r : Reader) (state : State) (c : Char) : Reader := { r with state := state, text := r.text ++ [c] }

def Reader.save (r : Reader) : Reader := { r with state := .field, text := [], fields := r.fields ++ [r.text] }

def Reader.endRow (r : Reader) (c : Char) : Reader :=
  { state := .row (c = '\r'), text := [], fields := [], rows := r.rows ++ [r.fields ++ [r.text]] }

/-- Outside of quotes a comma ends the field and a line end the row. -/
def Reader.delimit (r : Reader) (c : Char) : Reader :=
  if c = ',' then r.save else if c = '\r' ∨ c = '\n' then r.endRow c else r.add .plain c

def Reader.start (r : Reader) (c : Char) : Reader := if c = '"' then { r with state := .quoted } else r.delimit c

def Reader.step (r : Reader) (c : Char) : Reader :=
  match r.state with
  | .row returned =>
    if returned ∧ c = '\n' then { r with state := .row false }
    else if c = '\r' ∨ c = '\n' then { r with state := .row (c = '\r'), rows := r.rows ++ [[]] }
    else r.start c
  | .field => r.start c
  | .plain => r.delimit c
  | .quoted => if c = '"' then { r with state := .quote } else r.add .quoted c
  | .quote => if c = '"' then r.add .quoted c else r.delimit c

def Reader.finish (r : Reader) : List (List Text) :=
  match r.state with
  | .row _ => r.rows
  | _ => r.rows ++ [r.fields ++ [r.text]]

def read (text : Text) : List (List Text) := (text.foldl Reader.step ⟨.row false,[],[],[]⟩).finish

variable {r : Reader} {text : Text} {fields : List Text} {rows : List (List Text)}

/-- The field is read up to its end: a comma or a line end saves it. -/
structure Pending (r : Reader) (text : Text) (fields : List Text) (rows : List (List Text)) : Prop where
  state : r.state = .field ∨ r.state = .plain ∨ r.state = .quote
  text : r.text = text
  fields : r.fields = fields
  rows : r.rows = rows

theorem Pending.comma (pending : Pending r text fields rows) : r.step ',' = ⟨.field,[],fields ++ [text],rows⟩ := by
  obtain ⟨state,rfl,rfl,rfl⟩ := pending
  rcases state with state | state | state <;>
    simp [Reader.step,state,Reader.start,Reader.delimit,Reader.save]

theorem Pending.newline (pending : Pending r text fields rows) :
    ['\r','\n'].foldl Reader.step r = ⟨.row false,[],[],rows ++ [fields ++ [text]]⟩ := by
  obtain ⟨state,rfl,rfl,rfl⟩ := pending
  rcases state with state | state | state <;>
    simp [Reader.step,state,Reader.start,Reader.delimit,Reader.endRow]

/-- Where a field may begin. -/
def Reader.Begins (r : Reader) : Prop := r.text = [] ∧ (r.state = .row false ∨ r.state = .field)

theorem foldl_doubled (text before : Text) : (text.flatMap doubled).foldl Reader.step ⟨.quoted,before,fields,rows⟩ =
    ⟨.quoted,before ++ text,fields,rows⟩ := by
  induction text generalizing before with
  | nil => simp
  | cons c text induction =>
    have one : (doubled c).foldl Reader.step ⟨.quoted,before,fields,rows⟩ = ⟨.quoted,before ++ [c],fields,rows⟩ := by
      by_cases quote : c = '"' <;> simp [doubled,quote,Reader.step,Reader.add]
    rw [List.flatMap_cons,List.foldl_append,one,induction,List.append_assoc,List.singleton_append]

theorem Reader.Begins.quoted (begins : r.Begins) (text : Text) :
    Pending ((Csv.quoted text).foldl Reader.step r) text r.fields r.rows := by
  obtain ⟨state,before,fields,rows⟩ := r
  obtain ⟨rfl,first⟩ := begins
  have opened : Reader.step ⟨state,[],fields,rows⟩ '"' = ⟨.quoted,[],fields,rows⟩ := by
    rcases first with rfl | rfl <;> simp [Reader.step,Reader.start]
  rw [Csv.quoted,List.foldl_cons,opened,List.foldl_append,foldl_doubled]
  exact ⟨.inr (.inr rfl),rfl,rfl,rfl⟩

theorem foldl_plain (bare : ∀ c ∈ text, special c = false) (before : Text) :
    text.foldl Reader.step ⟨.plain,before,fields,rows⟩ = ⟨.plain,before ++ text,fields,rows⟩ := by
  induction text generalizing before with
  | nil => simp
  | cons c text induction =>
    have visible := bare c List.mem_cons_self
    have one : Reader.step ⟨.plain,before,fields,rows⟩ c = ⟨.plain,before ++ [c],fields,rows⟩ := by
      simp [special] at visible
      simp [Reader.step,Reader.delimit,Reader.add,visible]
    rw [List.foldl_cons,one,induction fun d inside => bare d (List.mem_cons_of_mem c inside),List.append_assoc,
      List.singleton_append]

theorem Reader.Begins.bare (begins : r.Begins) {c : Char} (bare : ∀ d ∈ c :: text, special d = false) :
    Pending ((c :: text).foldl Reader.step r) (c :: text) r.fields r.rows := by
  obtain ⟨state,before,fields,rows⟩ := r
  obtain ⟨rfl,first⟩ := begins
  have visible := bare c List.mem_cons_self
  have one : Reader.step ⟨state,[],fields,rows⟩ c = ⟨.plain,[c],fields,rows⟩ := by
    simp [special] at visible
    rcases first with rfl | rfl <;> simp [Reader.step,Reader.start,Reader.delimit,Reader.add,visible]
  rw [List.foldl_cons,one,foldl_plain fun d inside => bare d (List.mem_cons_of_mem c inside)]
  exact ⟨.inr (.inl rfl),rfl,rfl,rfl⟩

theorem Reader.Begins.field (begins : r.Begins) (some_text : text = [] → r.state = .field) :
    Pending ((Csv.field text).foldl Reader.step r) text r.fields r.rows := by
  rw [Csv.field]
  split
  · exact begins.quoted text
  next plain =>
    cases text with
    | nil => exact ⟨.inl (some_text rfl),begins.1,rfl,rfl⟩
    | cons c text =>
      apply begins.bare
      intro d inside
      exact Bool.eq_false_iff.mpr fun found => plain (List.any_eq_true.mpr ⟨d,inside,found⟩)

theorem foldl_others {others : List Text} (comma : r.step ',' = ⟨.field,[],fields ++ [text],rows⟩)
    (newline : others = [] → ['\r','\n'].foldl Reader.step r = ⟨.row false,[],[],rows ++ [fields ++ [text]]⟩) :
    (others.flatMap (fun text => ',' :: field text) ++ ['\r','\n']).foldl Reader.step r =
      ⟨.row false,[],[],rows ++ [fields ++ text :: others]⟩ := by
  induction others generalizing r text fields with
  | nil => exact newline rfl
  | cons other others induction =>
    have begins : Reader.Begins ⟨.field,[],fields ++ [text],rows⟩ := ⟨rfl,.inr rfl⟩
    have pending : Pending _ other (fields ++ [text]) rows := begins.field fun _ => rfl
    rw [List.flatMap_cons,List.cons_append,List.cons_append,List.foldl_cons,comma,List.append_assoc,List.foldl_append,
      induction pending.comma fun _ => pending.newline,List.append_assoc,List.singleton_append]

theorem foldl_row (fields : List Text) (rows : List (List Text)) :
    (row fields).foldl Reader.step ⟨.row false,[],[],rows⟩ = ⟨.row false,[],[],rows ++ [fields]⟩ := by
  have begins : Reader.Begins ⟨.row false,[],[],rows⟩ := ⟨rfl,.inl rfl⟩
  cases fields with
  | nil => simp [row,Reader.step]
  | cons first others =>
    rw [row,List.foldl_append]
    split
    · have pending : Pending _ first [] rows := begins.quoted first
      exact foldl_others pending.comma fun _ => pending.newline
    next full =>
      by_cases empty : first = []
      · subst empty
        have alone : others ≠ [] := fun none_left => full ⟨rfl,none_left⟩
        have comma : Reader.step ⟨.row false,[],[],rows⟩ ',' = ⟨.field,[],[] ++ [[]],rows⟩ := by
          simp [Reader.step,Reader.start,Reader.delimit,Reader.save]
        exact foldl_others comma fun none_left => absurd none_left alone
      · have pending : Pending _ first [] rows := begins.field fun nothing => absurd nothing empty
        exact foldl_others pending.comma fun _ => pending.newline

theorem read_write (rows : List (List Text)) : read (write rows) = rows := by
  have each : ∀ before, (write rows).foldl Reader.step ⟨.row false,[],[],before⟩ = ⟨.row false,[],[],before ++ rows⟩ := by
    intro before
    induction rows generalizing before with
    | nil => simp [write]
    | cons fields rows induction =>
      rw [write] at induction
      rw [write,List.flatMap_cons,List.foldl_append,foldl_row,induction,List.append_assoc,List.singleton_append]
  rw [read,each]
  rfl

end Csv
