import Mathlib.Data.List.Forall2
import Mathlib.Data.List.Nodup
import Mathlib.Data.Char
import SasBackend.Library.Digits
import SasBackend.Library.JsonReading
import SasBackend.Library.Outcome

/-! JSON that was written is read back as it was.
Every printed value is told apart from what follows it by its first and the next character; the fuel a value needs does not
depend on what follows.
-/
namespace Json

variable {F α : Type} {floats : Floats F} {gap rest : List Char}

def pieces (n : Nat) : List Piece :=
  if (shortEscape n).isSome ∨ 32 ≤ n ∧ n ≤ 126 then [.plain n]
  else if n < 65536 then [.unit n]
  else [.unit (55296 + (n - 65536) / 1024),.unit (56320 + (n - 65536) % 1024)]

theorem scan_unicodeEscape {unit : Nat} (small : unit < 65536) (rest : List Char) :
    scan (unicodeEscape unit ++ rest) = (scan rest).map fun (more,rest) => (.unit unit :: more,rest) := by
  have four : Hexadecimal.read (Hexadecimal.numeral 4 unit) = some unit := by
    rw [Hexadecimal.read_numeral,Nat.mod_eq_of_lt (show unit < 16 ^ 4 by omega)]
  obtain ⟨h,i,j,k,digits⟩ := List.length_eq_four.mp (Hexadecimal.length_numeral 4 unit)
  rw [digits] at four
  simp [unicodeEscape,scan,digits,four]

theorem shortEscape_cases {n : Nat} {letter : Char} (short : shortEscape n = some letter) :
    longEscape letter = some n ∧ letter ≠ 'u' := by
  unfold shortEscape at short
  split_ifs at short <;> cases short <;> subst_vars <;> decide

theorem scan_plain {n : Nat} (low : 32 ≤ n) (high : n ≤ 126) (visible : shortEscape n = none) (rest : List Char) :
    scan (Char.ofNat n :: rest) = (scan rest).map fun (more,rest) => (.plain n :: more,rest) := by
  have code : (Char.ofNat n).toNat = n := by
    have all : ∀ n : Fin 127, (Char.ofNat n.val).toNat = n.val := by decide
    exact all ⟨n,by omega⟩
  have quote : Char.ofNat n ≠ '"' := by
    intro same
    rw [same] at code
    subst code
    simp [shortEscape] at visible
  have backslash : Char.ofNat n ≠ '\\' := by
    intro same
    rw [same] at code
    subst code
    simp [shortEscape] at visible
  rw [scan.eq_def]
  simp only [quote,backslash,code,if_false,if_neg (show ¬ n < 32 by omega)]

theorem scan_escape {n : Nat} (scalar : n.isValidChar) (rest : List Char) :
    scan (escape n ++ rest) = (scan rest).map fun (more,rest) => (pieces n ++ more,rest) := by
  have bound : n < 1114112 := by
    rcases scalar with below | above <;> omega
  unfold escape pieces
  split
  next letter short =>
    obtain ⟨long,plain⟩ := shortEscape_cases short
    rw [List.cons_append,List.cons_append,scan.eq_def]
    simp [long,plain,short]
  next visible =>
    simp only [visible,Option.isSome_none,Bool.false_eq_true,false_or]
    split
    next printable => exact scan_plain printable.1 printable.2 visible rest
    split
    next small => exact scan_unicodeEscape small rest
    · rw [List.append_assoc,scan_unicodeEscape (by omega),scan_unicodeEscape (by omega),Option.map_map]
      rfl

theorem join_unit {n : Nat} (scalar : n.isValidChar) (more : List Piece) : join (.unit n :: more) = n :: join more := by
  have plain : ¬ IsHigh n := by
    unfold IsHigh
    rcases scalar with below | above <;> omega
  cases more with
  | nil => rfl
  | cons piece more =>
    cases piece with
    | plain m => rfl
    | unit low => simp [join,plain]

theorem join_pieces {n : Nat} (scalar : n.isValidChar) (more : List Piece) : join (pieces n ++ more) = n :: join more := by
  have bound : n < 1114112 := by
    rcases scalar with below | above <;> omega
  unfold pieces
  split
  · rfl
  split
  · exact join_unit scalar more
  · have pair : IsHigh (55296 + (n - 65536) / 1024) ∧ IsLow (56320 + (n - 65536) % 1024) := by
      unfold IsHigh IsLow
      omega
    simp only [List.cons_append,List.nil_append,join,if_pos pair,List.cons.injEq,and_true]
    omega

abbrev Scalar (t : Text) : Prop := ∀ n ∈ t, n.isValidChar

theorem scalar_ofChars (chars : List Char) : Scalar (ofChars chars) := by
  intro n inside
  obtain ⟨c,_,rfl⟩ := List.mem_map.mp inside
  exact c.valid

theorem scan_text {t : Text} (scalar : Scalar t) (rest : List Char) :
    scan (t.flatMap escape ++ '"' :: rest) = some (t.flatMap pieces,rest) := by
  induction t with
  | nil =>
    rw [scan.eq_def]
    simp
  | cons n t induction =>
    have later := induction fun m inside => scalar m (List.mem_cons_of_mem n inside)
    rw [List.flatMap_cons,List.flatMap_cons,List.append_assoc,scan_escape (scalar n List.mem_cons_self),later]
    rfl

theorem join_text {t : Text} (scalar : Scalar t) : join (t.flatMap pieces) = t := by
  induction t with
  | nil => rfl
  | cons n t induction =>
    rw [List.flatMap_cons,join_pieces (scalar n List.mem_cons_self),
      induction fun m inside => scalar m (List.mem_cons_of_mem n inside)]

theorem string_quoted {t : Text} (scalar : Scalar t) (rest : List Char) :
    string (t.flatMap escape ++ '"' :: rest) = some (t,rest) := by
  simp [string,scan_text scalar,join_text scalar]

theorem chars_ofChars (text : List Char) : chars (ofChars text) = some text := by
  rw [chars,Outcome.mapM_some_iff,ofChars,List.forall₂_map_left_iff,List.forall₂_same]
  intro c _
  have scalar : c.toNat.isValidChar := c.valid
  rw [if_pos scalar,Char.ofNat_toNat]

theorem length_of_chars {t : Text} {text : List Char} (read : chars t = some text) : t.length = text.length :=
  (Outcome.mapM_some_iff.mp read).length_eq

/-- What may follow a number. -/
def Ended (rest : List Char) : Prop := ∀ c ∈ rest.head?, c.isDigit = false ∧ c ≠ '.' ∧ c ≠ 'e' ∧ c ≠ 'E'

theorem digits_ended {ds : List Char} (all : ∀ c ∈ ds, c.isDigit = true) (ended : Ended rest) :
    digits (ds ++ rest) = (ds,rest) := by
  have stops : rest.takeWhile Char.isDigit = [] ∧ rest.dropWhile Char.isDigit = rest := by
    cases rest with
    | nil => simp
    | cons c rest => simp [(ended c rfl).1]
  simp [digits,List.takeWhile_append_of_pos all,List.dropWhile_append_of_pos all,stops]

theorem digit_plain {c : Char} (digit : c.isDigit = true) :
    '-' ≠ c ∧ 'n' ≠ c ∧ 't' ≠ c ∧ 'f' ≠ c ∧ 'N' ≠ c ∧ 'I' ≠ c := by
  refine ⟨?_,?_,?_,?_,?_,?_⟩ <;> (rintro rfl; simp at digit)

theorem whole_toDigits (n : Nat) (ended : Ended rest) : whole (Nat.toDigits 10 n ++ rest) = (Nat.toDigits 10 n,rest) := by
  by_cases zero : n = 0
  · simp [zero,Nat.toDigits_zero,whole]
  · obtain ⟨c,ds,same,lead⟩ := Digits.toDigits_lead n (by omega)
    have all : ∀ c ∈ Nat.toDigits 10 n, c.isDigit = true := fun c => Nat.isDigit_of_mem_toDigits (by omega) le_rfl
    have read := digits_ended all ended
    rw [same] at read ⊢
    rw [List.cons_append,whole,if_neg lead]
    exact read

theorem fraction_ended (ended : Ended rest) : fraction rest = ([],rest) := by
  cases rest with
  | nil => rfl
  | cons c rest => simp [fraction,(ended c rfl).2.1]

theorem exponent_ended (ended : Ended rest) : exponent rest = ([],rest) := by
  cases rest with
  | nil => rfl
  | cons c rest => simp [exponent,(ended c rfl).2.2.1,(ended c rfl).2.2.2]

theorem signed_intRepr (n : Int) (rest : List Char) :
    signed ['-'] (intRepr n ++ rest) = (if n < 0 then ['-'] else [],Nat.toDigits 10 n.natAbs ++ rest) := by
  unfold intRepr
  split
  · simp [signed]
  · obtain ⟨c,ds,same⟩ := List.exists_cons_of_ne_nil (Nat.toDigits_ne_nil (n := n.natAbs) (b := 10))
    have digit : c.isDigit = true :=
      Nat.isDigit_of_mem_toDigits (by omega) le_rfl (show c ∈ Nat.toDigits 10 n.natAbs by rw [same]; exact List.mem_cons_self)
    simp [same,signed,(digit_plain digit).1.symm]

theorem number_intRepr {n : Int} (short : (Nat.toDigits 10 n.natAbs).length ≤ maxDigits) (ended : Ended rest) :
    number floats (intRepr n ++ rest) = some (.int n,rest) := by
  unfold number
  rw [signed_intRepr]
  simp only [whole_toDigits n.natAbs ended,fraction_ended ended,exponent_ended ended,Nat.toDigits_ne_nil,short,
    Nat.ofDigitChars_ten_toDigits,if_true,if_false,and_self,Option.some.injEq,Prod.mk.injEq,and_true,Value.int.injEq]
  by_cases negative : n < 0
  · rw [if_pos negative,if_neg (by simp)]
    omega
  · rw [if_neg negative,if_pos rfl]
    omega

theorem intRepr_lead (n : Int) : ∃ c ds, intRepr n = c :: ds ∧ (c.isDigit = true ∨ c = '-' ∧ ∃ d ∈ ds.head?, d.isDigit = true) := by
  obtain ⟨d,ds,same⟩ := List.exists_cons_of_ne_nil (Nat.toDigits_ne_nil (n := n.natAbs) (b := 10))
  have digit : d.isDigit = true :=
    Nat.isDigit_of_mem_toDigits (by omega) le_rfl (show d ∈ Nat.toDigits 10 n.natAbs by rw [same]; exact List.mem_cons_self)
  unfold intRepr
  split
  · exact ⟨'-',_,rfl,.inr ⟨rfl,d,by rw [same]; rfl,digit⟩⟩
  · exact ⟨d,ds,same,.inl digit⟩

theorem keywordOrNumber_intRepr {n : Int} (short : (Nat.toDigits 10 n.natAbs).length ≤ maxDigits) (ended : Ended rest) :
    keywordOrNumber floats (intRepr n ++ rest) = some (.int n,rest) := by
  have none_found : (keywords floats).find? (fun entry => entry.1.isPrefixOf (intRepr n ++ rest)) = none := by
    obtain ⟨c,ds,same,digit | ⟨rfl,d,first,digit⟩⟩ := intRepr_lead n
    · have plain := digit_plain digit
      simp [same,keywords,plain]
    · obtain ⟨ds,rfl⟩ : ∃ more, ds = d :: more := by
        cases ds with
        | nil => simp at first
        | cons e more => simp_all
      have plain := digit_plain digit
      simp [same,keywords,plain]
  rw [keywordOrNumber,none_found]
  exact number_intRepr short ended

/-- A part is read from its first character, whatever ends it. -/
structure Printed (item : Parser α) (close : Char) (part : List Char) (a : α) : Prop where
  lead : ∃ c more, part = c :: more ∧ isSpace c = false ∧ c ≠ close
  read : ∀ rest, Ended rest → item (part ++ rest) = some (a,rest)

theorem skip_blank (blank : ∀ c ∈ gap, isSpace c = true) (rest : List Char) : skip (gap ++ rest) = skip rest := by
  rw [skip,List.dropWhile_append_of_pos blank,skip]

theorem skip_of_lead {c : Char} (visible : isSpace c = false) (rest : List Char) : skip (c :: rest) = c :: rest := by
  simp [skip,visible]

theorem comma_ended {rest : List Char} : Ended (',' :: rest) := by
  simp [Ended]

section Many
variable {item : Parser α} {close : Char} {parts : List (List Char)} {as : List α}

theorem many_printed (closes : isSpace close = false ∧ close ≠ ',' ∧ Ended [close]) (blank : ∀ c ∈ gap, isSpace c = true)
    (printed : List.Forall₂ (Printed item close) parts as) {fuel : Nat} (enough : parts.length ≤ fuel) (some_part : parts ≠ []) :
    many item close fuel ((',' :: gap).intercalate parts ++ close :: rest) = some (as,rest) := by
  obtain ⟨visible,comma,ended⟩ := closes
  induction printed generalizing fuel with
  | nil => exact absurd rfl some_part
  | @cons part a parts as first later induction =>
    cases fuel with
    | zero => simp at enough
    | succ fuel =>
      cases later with
      | nil =>
        have read := first.read (close :: rest) (by simpa [Ended] using ended)
        simp [many,read,skip_of_lead visible]
      | @cons second b parts as second_printed later =>
        have following := induction (by simpa using enough) (by simp)
        obtain ⟨c,more,rfl,shown,_⟩ := second_printed.lead
        have read := first.read (',' :: (gap ++ ((',' :: gap).intercalate ((c :: more) :: parts) ++ close :: rest)))
          comma_ended
        have skipped : skip (gap ++ ((',' :: gap).intercalate ((c :: more) :: parts) ++ close :: rest)) =
            (',' :: gap).intercalate ((c :: more) :: parts) ++ close :: rest := by
          rw [skip_blank blank]
          cases parts <;> simp [List.intercalate,skip_of_lead shown]
        have unfolded : (',' :: gap).intercalate (part :: (c :: more) :: parts) ++ close :: rest =
            part ++ ',' :: (gap ++ ((',' :: gap).intercalate ((c :: more) :: parts) ++ close :: rest)) := by
          simp [List.intercalate]
        rw [unfolded,many,read]
        simp only [skip_of_lead (show isSpace ',' = false by decide),if_neg comma.symm,skipped,following,if_true]
        rfl

theorem listed_printed (closes : isSpace close = false ∧ close ≠ ',' ∧ Ended [close]) (blank : ∀ c ∈ gap, isSpace c = true)
    (printed : List.Forall₂ (Printed item close) parts as) (fuel : Nat) (enough : parts.length ≤ fuel) (rest : List Char) :
    listed item close fuel ((',' :: gap).intercalate parts ++ close :: rest) = some (as,rest) := by
  cases parts with
  | nil =>
    cases printed
    simp [listed,List.intercalate,skip_of_lead closes.1]
  | cons part parts =>
    have read : many item close fuel ((',' :: gap).intercalate (part :: parts) ++ close :: rest) = some (as,rest) :=
      many_printed closes blank printed enough (by simp)
    obtain ⟨a,as,first,_,rfl⟩ := List.forall₂_cons_left_iff.mp printed
    obtain ⟨c,more,rfl,shown,open_⟩ := first.lead
    obtain ⟨after,text⟩ : ∃ after, (',' :: gap).intercalate ((c :: more) :: parts) ++ close :: rest = c :: after := by
      cases parts <;> simp [List.intercalate]
    rw [text] at read ⊢
    rw [listed,skip_of_lead shown]
    simp only [if_neg open_,read]

end Many

theorem member_printed {inner : Parser (Value F)} {key : Text} {part : List Char} {v : Value F}
    (blank : ∀ c ∈ gap, isSpace c = true) (scalar : Scalar key) (printed : Printed inner ']' part v) :
    Printed (member inner) '}' (quoted key ++ ':' :: gap ++ part) (key,v) := by
  constructor
  · exact ⟨'"',_,rfl,by decide,by decide⟩
  · intro rest ended
    obtain ⟨c,more,same,visible,_⟩ := printed.lead
    have read := printed.read rest ended
    have named : string (key.flatMap escape ++ '"' :: (':' :: (gap ++ (part ++ rest)))) = some (key,':' :: (gap ++ (part ++ rest))) :=
      string_quoted scalar _
    have reached : skip (gap ++ (part ++ rest)) = part ++ rest := by
      rw [skip_blank blank,same,List.cons_append,skip_of_lead visible]
    simp only [member,quoted,List.cons_append,List.append_assoc,List.nil_append,expect,if_true,named,reached,read,
      skip_of_lead (show isSpace ':' = false by decide),Option.bind_eq_bind,Option.bind_some]

theorem foldl_setMember (members entries : List (Text × Value F)) (distinct : ((members ++ entries).map Prod.fst).Nodup) :
    entries.foldl setMember members = members ++ entries := by
  induction entries generalizing members with
  | nil => simp
  | cons entry entries induction =>
    have fresh : members.any (·.1 = entry.1) = false := by
      rw [List.any_eq_false]
      intro found inside same
      rw [List.map_append,List.map_cons,List.nodup_append] at distinct
      exact distinct.2.2 _ (List.mem_map_of_mem inside) entry.1 List.mem_cons_self (of_decide_eq_true same)
    rw [List.foldl_cons,setMember,fresh]
    simpa using induction (members ++ [entry]) (by simpa using distinct)

theorem dict_of_distinct {members : List (Text × Value F)} (distinct : (members.map Prod.fst).Nodup) :
    dict members = members := foldl_setMember [] members distinct

/-- Without floating-point numbers, halves of surrogate pairs, repeated keys and integers that are too long to convert. -/
inductive Value.Plain : Value F → Prop
  | null : Plain .null
  | bool (b : Bool) : Plain (.bool b)
  | int {n : Int} : (Nat.toDigits 10 n.natAbs).length ≤ maxDigits → Plain (.int n)
  | text {t : Text} : Scalar t → Plain (.text t)
  | array {items : List (Value F)} : (∀ v ∈ items, Plain v) → Plain (.array items)
  | object {members : List (Text × Value F)} : (members.map Prod.fst).Nodup → (∀ entry ∈ members, Scalar entry.1) →
      (∀ entry ∈ members, Plain entry.2) → Plain (.object members)

theorem dumpItems_eq_map (items : List (Value F)) : dumpItems floats gap items = items.map (dumps floats gap) := by
  induction items with
  | nil => rfl
  | cons v items induction => rw [dumpItems,induction,List.map_cons]

theorem dumpMembers_eq_map (members : List (Text × Value F)) : dumpMembers floats gap members =
    members.map fun entry => quoted entry.1 ++ ':' :: gap ++ dumps floats gap entry.2 := by
  induction members with
  | nil => rfl
  | cons entry members induction => rw [dumpMembers,induction,List.map_cons]

theorem enough_for_all {P : Nat → α → Prop} {as : List α} (each : ∀ a ∈ as, ∃ enough, ∀ fuel, enough ≤ fuel → P fuel a) :
    ∃ enough, ∀ fuel, enough ≤ fuel → ∀ a ∈ as, P fuel a := by
  induction as with
  | nil => exact ⟨0,by simp⟩
  | cons a as induction =>
    obtain ⟨first,here⟩ := each a List.mem_cons_self
    obtain ⟨second,there⟩ := induction fun b inside => each b (List.mem_cons_of_mem a inside)
    refine ⟨max first second,?_⟩
    intro fuel le b inside
    rcases List.mem_cons.mp inside with rfl | inside
    · exact here fuel (by omega)
    · exact there fuel (by omega) b inside

theorem printed_of_step {part : List Char} {v : Value F} (enough : Nat)
    (printed : ∀ fuel, enough ≤ fuel → Printed (valueStep floats (value floats fuel) fuel) ']' part v) :
    ∃ enough, ∀ fuel, enough ≤ fuel → Printed (value floats fuel) ']' part v := by
  refine ⟨enough + 1,?_⟩
  intro fuel le
  cases fuel with
  | zero => omega
  | succ fuel => exact printed fuel (by omega)

theorem valueStep_intRepr {n : Int} (short : (Nat.toDigits 10 n.natAbs).length ≤ maxDigits) (inner : Parser (Value F))
    (fuel : Nat) : Printed (valueStep floats inner fuel) ']' (intRepr n) (.int n) := by
  obtain ⟨c,ds,same,lead⟩ := intRepr_lead n
  have visible : isSpace c = false := by
    rcases lead with digit | ⟨rfl,_⟩
    · simp only [isSpace,Bool.or_eq_false_iff,decide_eq_false_iff_not]
      refine ⟨⟨⟨?_,?_⟩,?_⟩,?_⟩ <;> (rintro rfl; simp at digit)
    · decide
  have open_ : c ≠ ']' ∧ c ≠ '"' ∧ c ≠ '[' ∧ c ≠ '{' := by
    rcases lead with digit | ⟨rfl,_⟩
    · refine ⟨?_,?_,?_,?_⟩ <;> (rintro rfl; simp at digit)
    · decide
  refine ⟨⟨c,ds,same,visible,open_.1⟩,?_⟩
  intro rest ended
  have read : keywordOrNumber floats (intRepr n ++ rest) = some (.int n,rest) := keywordOrNumber_intRepr short ended
  rw [same,List.cons_append] at read ⊢
  rw [valueStep,if_neg open_.2.1,if_neg open_.2.2.1,if_neg open_.2.2.2]
  exact read

theorem bracket_closes : isSpace ']' = false ∧ ']' ≠ ',' ∧ Ended [']'] := ⟨by decide,by decide,by simp [Ended]⟩

theorem brace_closes : isSpace '}' = false ∧ '}' ≠ ',' ∧ Ended ['}'] := ⟨by decide,by decide,by simp [Ended]⟩

/-- By induction on the value: what nested values need, a list needs at most once more. -/
theorem value_printed (blank : ∀ c ∈ gap, isSpace c = true) {v : Value F} (plain : v.Plain) :
    ∃ enough, ∀ fuel, enough ≤ fuel → Printed (value floats fuel) ']' (dumps floats gap v) v := by
  induction plain with
  | null =>
    apply printed_of_step 0
    exact fun fuel _ => ⟨⟨'n',_,rfl,by decide,by decide⟩,by simp [dumps,valueStep,keywordOrNumber,keywords]⟩
  | bool b =>
    apply printed_of_step 0
    intro fuel _
    cases b with
    | false => exact ⟨⟨'f',_,rfl,by decide,by decide⟩,by simp [dumps,valueStep,keywordOrNumber,keywords]⟩
    | true => exact ⟨⟨'t',_,rfl,by decide,by decide⟩,by simp [dumps,valueStep,keywordOrNumber,keywords]⟩
  | int short =>
    apply printed_of_step 0
    exact fun fuel _ => valueStep_intRepr short _ fuel
  | text scalar =>
    apply printed_of_step 0
    intro fuel _
    refine ⟨⟨'"',_,rfl,by decide,by decide⟩,?_⟩
    intro rest ended
    simp [dumps,quoted,valueStep,string_quoted scalar]
  | @array items each induction =>
    obtain ⟨enough,printed⟩ := enough_for_all induction
    apply printed_of_step (max enough items.length)
    intro fuel le
    refine ⟨⟨'[',_,rfl,by decide,by decide⟩,?_⟩
    intro rest ended
    have parts : List.Forall₂ (Printed (value floats fuel) ']') (items.map (dumps floats gap)) items := by
      rw [List.forall₂_map_left_iff,List.forall₂_same]
      exact printed fuel (by omega)
    have read := listed_printed bracket_closes blank parts fuel (by rw [List.length_map]; omega) rest
    rw [dumps,enclosed,dumpItems_eq_map]
    simp [valueStep,read]
  | @object members distinct keys each induction =>
    obtain ⟨enough,printed⟩ := enough_for_all induction
    apply printed_of_step (max enough members.length)
    intro fuel le
    refine ⟨⟨'{',_,rfl,by decide,by decide⟩,?_⟩
    intro rest ended
    have parts : List.Forall₂ (Printed (member (value floats fuel)) '}')
        (members.map fun entry => quoted entry.1 ++ ':' :: gap ++ dumps floats gap entry.2) members := by
      rw [List.forall₂_map_left_iff,List.forall₂_same]
      intro entry inside
      exact member_printed blank (keys entry inside) (printed fuel (by omega) entry inside)
    have read := listed_printed brace_closes blank parts fuel (by rw [List.length_map]; omega) rest
    rw [dumps,enclosed,dumpMembers_eq_map]
    simp only [List.cons_append,List.append_assoc,List.nil_append] at read ⊢
    simp [valueStep,read,dict_of_distinct distinct]

theorem loads_dumps (blank : ∀ c ∈ gap, isSpace c = true) {v : Value F} (plain : v.Plain) :
    loads floats (dumps floats gap v) = some v := by
  obtain ⟨enough,printed⟩ : ∃ enough, ∀ fuel, enough ≤ fuel →
      Printed (value floats fuel) ']' (dumps floats gap v) v := value_printed blank plain
  generalize dumps floats gap v = text at printed ⊢
  have long := printed (max enough (text.length + 1)) (by omega)
  obtain ⟨c,more,same,visible,_⟩ := long.lead
  have read := long.read [] (by simp [Ended])
  rw [List.append_nil,value_enough (by omega)] at read
  have start : skip text = text := by
    rw [same,skip_of_lead visible]
  rw [loads,start,read]
  rfl

def Printable (text : List Char) : Prop := ∀ c ∈ text, 32 ≤ c.toNat ∧ c.toNat < 127

instance (text : List Char) : Decidable (Printable text) := List.decidableBAll _ text

theorem Printable.append {first second : List Char} (before : Printable first) (after : Printable second) :
    Printable (first ++ second) := by
  intro c inside
  exact (List.mem_append.mp inside).elim (before c) (after c)

theorem unicodeEscape_printable (unit : Nat) : Printable (unicodeEscape unit) := by
  intro c inside
  simp only [unicodeEscape,List.mem_cons] at inside
  rcases inside with rfl | rfl | digit
  · decide
  · decide
  · obtain ⟨d,small,rfl⟩ := Hexadecimal.mem_numeral digit
    have range := (Hexadecimal.digit_spec small).2
    omega

theorem escape_printable (n : Nat) : Printable (escape n) := by
  unfold escape
  split
  next letter short =>
    unfold shortEscape at short
    split_ifs at short <;> cases short <;> decide
  split
  next visible =>
    have all : ∀ n : Fin 127, (Char.ofNat n.val).toNat = n.val := by decide
    intro c inside
    rw [List.mem_singleton.mp inside,all ⟨n,by omega⟩]
    exact ⟨visible.1,by dsimp only; omega⟩
  split
  · exact unicodeEscape_printable n
  · exact (unicodeEscape_printable _).append (unicodeEscape_printable _)

theorem quoted_printable (t : Text) : Printable (quoted t) := by
  intro c inside
  rw [quoted,List.cons_append,List.mem_cons,List.mem_append,List.mem_flatMap,List.mem_singleton] at inside
  rcases inside with rfl | ⟨n,_,inside⟩ | rfl
  · decide
  · exact escape_printable n c inside
  · decide

theorem intRepr_printable (n : Int) : Printable (intRepr n) := by
  have digits : Printable (Nat.toDigits 10 n.natAbs) := by
    intro c inside
    have digit := Nat.isDigit_of_mem_toDigits (by omega) le_rfl inside
    simp only [Char.isDigit,Bool.and_eq_true,decide_eq_true_eq,ge_iff_le,UInt32.le_iff_toNat_le] at digit
    have bounds : '0'.val.toNat = 48 ∧ '9'.val.toNat = 57 := by decide
    simp only [Char.toNat]
    omega
  have sign : Printable ['-'] := by decide
  unfold intRepr
  split
  · exact sign.append digits
  · exact digits

theorem enclosed_printable {first last : Char} {parts : List (List Char)} (ends : Printable [first,last])
    (between : Printable gap) (each : ∀ part ∈ parts, Printable part) : Printable (enclosed gap first last parts) := by
  have comma : Printable [','] := by decide
  have joined : Printable ((',' :: gap).intercalate parts) := by
    induction parts with
    | nil => simp [Printable,List.intercalate]
    | cons part parts induction =>
      have first := each part List.mem_cons_self
      have later := induction fun more inside => each more (List.mem_cons_of_mem part inside)
      cases parts with
      | nil => simpa [List.intercalate] using first
      | cons second parts =>
        have unfolded : (',' :: gap).intercalate (part :: second :: parts) =
            part ++ ([','] ++ gap ++ (',' :: gap).intercalate (second :: parts)) := by
          simp [List.intercalate]
        rw [unfolded]
        exact first.append ((comma.append between).append later)
  intro c inside
  rw [enclosed,List.cons_append,List.mem_cons,List.mem_append,List.mem_singleton] at inside
  rcases inside with rfl | inside | rfl
  · exact ends c List.mem_cons_self
  · exact joined c inside
  · exact ends c (List.mem_cons_of_mem _ List.mem_cons_self)

theorem dumps_printable (between : Printable gap) {v : Value F} (plain : v.Plain) : Printable (dumps floats gap v) := by
  induction plain with
  | null => rw [dumps]; decide
  | bool b => cases b <;> rw [dumps] <;> decide
  | @int n _ => exact intRepr_printable n
  | @text t _ => exact quoted_printable t
  | array _ induction =>
    rw [dumps,dumpItems_eq_map]
    apply enclosed_printable (by decide) between
    intro part inside
    obtain ⟨v,there,rfl⟩ := List.mem_map.mp inside
    exact induction v there
  | object _ _ _ induction =>
    rw [dumps,dumpMembers_eq_map]
    apply enclosed_printable (by decide) between
    intro part inside
    obtain ⟨entry,there,rfl⟩ := List.mem_map.mp inside
    have colon : Printable [':'] := by decide
    exact ((quoted_printable entry.1).append (colon.append between)).append (induction entry there)

theorem ofChars_injective : Function.Injective ofChars :=
  List.map_injective_iff.mpr fun _ _ same => Char.toNat_inj.mp same

theorem Value.get_map (fields : List (List Char × Value F)) (key : List Char) :
    Value.get (fields.map fun field => (ofChars field.1,field.2)) key = fields.lookup key := by
  induction fields with
  | nil => rfl
  | cons field fields induction =>
    have same : (ofChars key == ofChars field.1) = (key == field.1) := by
      rw [Bool.eq_iff_iff,beq_iff_eq,beq_iff_eq,ofChars_injective.eq_iff]
    rw [Value.get] at induction
    rw [Value.get,List.map_cons,List.lookup_cons,same,induction,List.lookup_cons]

theorem record_plain {fields : List (List Char × Value F)} {keys : List (List Char)} (names : fields.map Prod.fst = keys)
    (distinct : keys.Nodup) (each : ∀ field ∈ fields, field.2.Plain) : (record fields).Plain := by
  apply Value.Plain.object
  · rw [List.map_map]
    have texts : (Prod.fst ∘ fun field : List Char × Value F => (ofChars field.1,field.2)) = ofChars ∘ Prod.fst := rfl
    rw [texts,← List.map_map,names]
    exact List.Nodup.map ofChars_injective distinct
  · intro entry inside
    obtain ⟨field,_,rfl⟩ := List.mem_map.mp inside
    exact scalar_ofChars field.1
  · intro entry inside
    obtain ⟨field,there,rfl⟩ := List.mem_map.mp inside
    exact each field there

theorem Value.mem_of_get {members : List (Text × Value F)} {v : Value F} {key : List Char}
    (found : Value.get members key = some v) : (ofChars key,v) ∈ members := by
  obtain ⟨before,after,rfl,_⟩ := List.lookup_eq_some_iff.mp found
  exact List.mem_append_right before List.mem_cons_self

end Json
