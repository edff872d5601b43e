import SasBackend.Library.Json

/-! What reading JSON leaves of a text: every value takes some of it, a string inside a value is shorter than what the
value was read from, and fuel beyond the length of the text changes nothing.
-/
namespace Json

variable {F α : Type} {floats : Floats F} {text rest : List Char}

theorem length_skip_le (text : List Char) : (skip text).length ≤ text.length := (List.dropWhile_sublist _).length_le

theorem expect_eq_some {c : Char} : expect c text = some rest ↔ text = c :: rest := by
  cases text with
  | nil => simp [expect]
  | cons d text => by_cases same : d = c <;> simp [expect,same]

/-- The strings of a result and the rest are shorter than the text. -/
def Takes (texts : α → Text → Prop) (p : Parser α) : Prop :=
  ∀ text a rest, p text = some (a,rest) →
    rest.length < text.length ∧ ∀ t, texts a t → t.length + rest.length < text.length

theorem map_cons_eq_some {a : α} {as : List α} {read : Option (List α × List Char)} :
    (read.map fun (as,rest) => (a :: as,rest)) = some (as,rest) ↔ ∃ more, as = a :: more ∧ read = some (more,rest) := by
  constructor
  · intro mapped
    obtain ⟨⟨more,after⟩,found,same⟩ := Option.map_eq_some_iff.mp mapped
    obtain ⟨rfl,rfl⟩ := Prod.mk.inj same
    exact ⟨more,rfl,found⟩
  · rintro ⟨more,rfl,rfl⟩
    rfl

theorem length_scan {pieces : List Piece} (read : scan text = some (pieces,rest)) :
    pieces.length + rest.length < text.length := by
  fun_induction scan text generalizing pieces rest with
  | case1 => simp at read
  | case2 => simp_all
  | case3 => simp at read
  | case4 _ _ _ _ _ _ unit _ induction =>
    obtain ⟨more,rfl,found⟩ := map_cons_eq_some.mp read
    have shorter := induction found
    simp only [List.length_cons]
    omega
  | case5 => simp at read
  | case6 => simp at read
  | case7 _ _ _ _ _ _ induction =>
    obtain ⟨more,rfl,found⟩ := map_cons_eq_some.mp read
    have shorter := induction found
    simp only [List.length_cons]
    omega
  | case8 => simp at read
  | case9 => simp at read
  | case10 _ _ _ _ _ induction =>
    obtain ⟨more,rfl,found⟩ := map_cons_eq_some.mp read
    have shorter := induction found
    simp only [List.length_cons]
    omega

theorem length_join_le (pieces : List Piece) : (join pieces).length ≤ pieces.length := by
  fun_induction join pieces with
  | case1 => simp
  | case2 n pieces induction => simpa using induction
  | case3 => simp
  | case4 n m pieces induction => simpa using induction
  | case5 high low pieces pair induction =>
    simp only [List.length_cons]
    omega
  | case6 high low pieces alone induction => simpa using induction

theorem string_takes : Takes (fun read t => t = read) string := by
  intro text t rest read
  obtain ⟨⟨pieces,after⟩,found,same⟩ := Option.map_eq_some_iff.mp read
  have shorter := length_scan found
  simp only [Prod.mk.injEq] at same
  obtain ⟨rfl,rfl⟩ := same
  have joined := length_join_le pieces
  refine ⟨by omega,?_⟩
  rintro _ rfl
  omega

theorem digits_append (text : List Char) : (digits text).1 ++ (digits text).2 = text := List.takeWhile_append_dropWhile

theorem signed_append (signs text : List Char) : (signed signs text).1 ++ (signed signs text).2 = text := by
  unfold signed
  split
  · rfl
  · split <;> rfl

theorem whole_append (text : List Char) : (whole text).1 ++ (whole text).2 = text := by
  unfold whole
  split
  · rfl
  · split
    · rfl
    · exact digits_append _

theorem fraction_append (text : List Char) : (fraction text).1 ++ (fraction text).2 = text := by
  unfold fraction
  split
  · rfl
  · dsimp only
    split
    · rw [List.cons_append,digits_append]
    · rfl

theorem exponent_append (text : List Char) : (exponent text).1 ++ (exponent text).2 = text := by
  unfold exponent
  split
  · rfl
  · dsimp only
    split
    · rw [List.cons_append,List.cons_append,List.append_assoc,digits_append,signed_append]
    · rfl

inductive Value.Holds (t : Text) : Value F → Prop
  | text : Holds t (.text t)
  | item {items : List (Value F)} {v : Value F} : v ∈ items → Holds t v → Holds t (.array items)
  | member {members : List (Text × Value F)} {entry : Text × Value F} :
    entry ∈ members → Holds t entry.2 → Holds t (.object members)

abbrev Within (v : Value F) (t : Text) : Prop := v.Holds t

theorem number_takes : Takes Within (number floats) := by
  intro text v rest read
  have sign := congrArg List.length (signed_append ['-'] text)
  have integer := congrArg List.length (whole_append (signed ['-'] text).2)
  have point := congrArg List.length (fraction_append (whole (signed ['-'] text).2).2)
  have power := congrArg List.length (exponent_append (fraction (whole (signed ['-'] text).2).2).2)
  simp only [List.length_append] at sign integer point power
  simp only [number] at read
  split at read
  · simp at read
  next some_digit =>
  have positive := List.length_pos_iff.mpr some_digit
  split at read
  · split at read
    · obtain ⟨rfl,rfl⟩ := Prod.mk.inj (Option.some.inj read)
      exact ⟨by omega,nofun⟩
    · simp at read
  · obtain ⟨rfl,rfl⟩ := Prod.mk.inj (Option.some.inj read)
    exact ⟨by omega,nofun⟩

theorem keywords_spec {word : List Char} {v : Value F} (listed : (word,v) ∈ keywords floats) :
    word ≠ [] ∧ ∀ t, ¬ v.Holds t := by
  simp only [keywords,List.map_cons,List.map_nil,List.cons_append,List.nil_append,List.mem_cons,Prod.mk.injEq,
    List.not_mem_nil,or_false] at listed
  rcases listed with ⟨rfl,rfl⟩ | ⟨rfl,rfl⟩ | ⟨rfl,rfl⟩ | ⟨rfl,rfl⟩ | ⟨rfl,rfl⟩ | ⟨rfl,rfl⟩ <;> exact ⟨by simp,nofun⟩

theorem keywordOrNumber_takes : Takes Within (keywordOrNumber floats) := by
  intro text v rest read
  unfold keywordOrNumber at read
  split at read
  next word found there =>
    obtain ⟨nonempty,holds⟩ := keywords_spec (List.mem_of_find?_eq_some there)
    have leads : word.isPrefixOf text = true :=
      List.find?_some (p := fun entry : List Char × Value F => entry.1.isPrefixOf text) there
    have fits := (List.isPrefixOf_iff_prefix.mp leads).length_le
    have positive := List.length_pos_iff.mpr nonempty
    obtain ⟨rfl,rfl⟩ := Prod.mk.inj (Option.some.inj read)
    rw [List.length_drop]
    refine ⟨by omega,?_⟩
    intro t held
    exact absurd held (holds t)
  · exact number_takes text v rest read

section Many
variable {item : Parser α} {close : Char} {texts : α → Text → Prop}

theorem many_takes (takes : Takes texts item) (fuel : Nat) :
    Takes (fun as t => ∃ a ∈ as, texts a t) (many item close fuel) := by
  induction fuel with
  | zero => exact fun _ _ _ read => by simp [many] at read
  | succ fuel induction =>
    intro text as rest read
    rw [many] at read
    split at read
    · simp at read
    next a after first =>
    obtain ⟨shorter,strings⟩ := takes text a after first
    have skipped := length_skip_le after
    split at read
    · simp at read
    next c more rest_eq =>
    rw [rest_eq,List.length_cons] at skipped
    split at read
    · obtain ⟨rfl,rfl⟩ := Prod.mk.inj (Option.some.inj read)
      refine ⟨by omega,?_⟩
      rintro t ⟨b,last,held⟩
      rw [List.mem_singleton.mp last] at held
      have short := strings t held
      omega
    · split at read
      · obtain ⟨as,rfl,found⟩ := map_cons_eq_some.mp read
        obtain ⟨later,held_later⟩ := induction _ _ _ found
        have again := length_skip_le more
        refine ⟨by omega,?_⟩
        rintro t ⟨b,inside,held⟩
        rcases List.mem_cons.mp inside with rfl | inside
        · have short := strings t held
          omega
        · have short := held_later t ⟨b,inside,held⟩
          omega
      · simp at read

theorem listed_takes (takes : Takes texts item) (fuel : Nat) :
    Takes (fun as t => ∃ a ∈ as, texts a t) (listed item close fuel) := by
  intro text as rest read
  have skipped := length_skip_le text
  unfold listed at read
  split at read
  · simp at read
  next c more text_eq =>
  rw [text_eq,List.length_cons] at skipped
  split at read
  · obtain ⟨rfl,rfl⟩ := Prod.mk.inj (Option.some.inj read)
    exact ⟨by omega,by simp⟩
  · obtain ⟨shorter,strings⟩ := many_takes takes fuel _ _ _ read
    simp only [List.length_cons] at shorter strings
    refine ⟨by omega,?_⟩
    intro t held
    have short := strings t held
    omega

end Many

theorem mem_setMember {members : List (Text × Value F)} {entry found : Text × Value F}
    (inside : found ∈ setMember members entry) : found = entry ∨ found ∈ members := by
  unfold setMember at inside
  split at inside
  · obtain ⟨old,there,rfl⟩ := List.mem_map.mp inside
    split
    · exact .inl rfl
    · exact .inr there
  · rcases List.mem_append.mp inside with there | last
    · exact .inr there
    · exact .inl (List.mem_singleton.mp last)

theorem mem_dict {entries : List (Text × Value F)} {found : Text × Value F} (inside : found ∈ dict entries) :
    found ∈ entries := by
  have all : ∀ (entries members : List (Text × Value F)), found ∈ entries.foldl setMember members →
      found ∈ members ∨ found ∈ entries := by
    intro entries
    induction entries with
    | nil => exact fun members inside => .inl inside
    | cons entry entries induction =>
      intro members inside
      rcases induction _ inside with before | later
      · rcases mem_setMember before with rfl | before
        · exact .inr List.mem_cons_self
        · exact .inl before
      · exact .inr (List.mem_cons_of_mem _ later)
  simpa using all entries [] inside

theorem member_takes {inner : Parser (Value F)} (takes : Takes Within inner) :
    Takes (fun entry t => entry.2.Holds t) (member inner) := by
  intro text entry rest read
  simp only [member,Option.bind_eq_bind,Option.bind_eq_some_iff,Prod.exists,expect_eq_some,Option.some.injEq,
    Prod.mk.injEq] at read
  obtain ⟨opened,rfl,key,closed,key_read,colon,colon_read,v,after,v_read,rfl,rfl⟩ := read
  have before := (string_takes _ _ _ key_read).1
  have between := length_skip_le closed
  have skipped := length_skip_le colon
  rw [colon_read,List.length_cons] at between
  obtain ⟨shorter,strings⟩ := takes _ _ _ v_read
  rw [List.length_cons]
  refine ⟨by omega,?_⟩
  intro t held
  have short := strings t held
  omega

theorem valueStep_takes {inner : Parser (Value F)} (takes : Takes Within inner) (fuel : Nat) :
    Takes Within (valueStep floats inner fuel) := by
  intro text v rest read
  unfold valueStep at read
  split at read
  · simp at read
  next c more =>
  split at read
  · obtain ⟨⟨t,after⟩,found,same⟩ := Option.map_eq_some_iff.mp read
    obtain ⟨rfl,rfl⟩ := Prod.mk.inj same
    obtain ⟨shorter,short⟩ := string_takes _ _ _ found
    refine ⟨Nat.lt_succ_of_lt shorter,?_⟩
    rintro _ ⟨⟩
    exact Nat.lt_succ_of_lt (short t rfl)
  split at read
  · obtain ⟨⟨items,after⟩,found,same⟩ := Option.map_eq_some_iff.mp read
    obtain ⟨rfl,rfl⟩ := Prod.mk.inj same
    obtain ⟨shorter,short⟩ := listed_takes takes fuel _ _ _ found
    refine ⟨Nat.lt_succ_of_lt shorter,?_⟩
    rintro t (_ | ⟨inside,held⟩)
    exact Nat.lt_succ_of_lt (short t ⟨_,inside,held⟩)
  split at read
  · obtain ⟨⟨entries,after⟩,found,same⟩ := Option.map_eq_some_iff.mp read
    obtain ⟨rfl,rfl⟩ := Prod.mk.inj same
    obtain ⟨shorter,short⟩ := listed_takes (member_takes takes) fuel _ _ _ found
    refine ⟨Nat.lt_succ_of_lt shorter,?_⟩
    rintro t (_ | _ | ⟨inside,held⟩)
    exact Nat.lt_succ_of_lt (short t ⟨_,mem_dict inside,held⟩)
  · exact keywordOrNumber_takes _ _ _ read

theorem value_takes (fuel : Nat) : Takes Within (value floats fuel) := by
  induction fuel with
  | zero => exact fun _ _ _ read => by simp [value] at read
  | succ fuel induction => exact valueStep_takes induction fuel

theorem loads_shorter {v : Value F} (read : loads floats text = some v) {t : Text} (held : v.Holds t) :
    t.length < text.length := by
  have skipped := length_skip_le text
  unfold loads at read
  split at read
  next found rest there =>
    split at read
    · cases read
      have short := (value_takes _ _ _ _ there).2 t held
      omega
    · simp at read
  · simp at read

/-- The two parsers agree on texts up to a length. -/
def AgreeUpTo (bound : Nat) (p q : Parser α) : Prop := ∀ text : List Char, text.length ≤ bound → p text = q text

section Fuel
variable {item other : Parser α} {close : Char} {texts : α → Text → Prop} {bound : Nat}

theorem many_agree (takes : Takes texts item) (agree : AgreeUpTo bound item other) {first second : Nat}
    (enough : bound < first) (plenty : bound < second) :
    AgreeUpTo bound (many item close first) (many other close second) := by
  induction first generalizing second bound with
  | zero => omega
  | succ first induction =>
    intro text short
    cases second with
    | zero => omega
    | succ second =>
      rw [many,many,← agree text short]
      cases read : item text with
      | none => rfl
      | some result =>
        obtain ⟨a,rest⟩ := result
        have shorter := (takes text a rest read).1
        have skipped := length_skip_le rest
        dsimp only
        cases rest_eq : skip rest with
        | nil => rfl
        | cons c more =>
          have again := length_skip_le more
          rw [rest_eq,List.length_cons] at skipped
          have below : AgreeUpTo (bound - 1) item other := fun text short => agree text (by omega)
          have later : many item close first (skip more) = many other close second (skip more) :=
            induction below (by omega) (by omega) (skip more) (by omega)
          simp only [later]

theorem listed_agree (takes : Takes texts item) (agree : AgreeUpTo bound item other) {first second : Nat}
    (enough : bound < first) (plenty : bound < second) :
    AgreeUpTo bound (listed item close first) (listed other close second) := by
  intro text short
  have skipped := length_skip_le text
  unfold listed
  cases text_eq : skip text with
  | nil => rfl
  | cons c more =>
    rw [text_eq] at skipped
    dsimp only
    rw [many_agree takes agree enough plenty (c :: more) (by omega)]

end Fuel

theorem member_agree {inner other : Parser (Value F)} {bound : Nat} (agree : AgreeUpTo bound inner other) :
    AgreeUpTo bound (member inner) (member other) := by
  intro text short
  cases opened : expect '"' text with
  | none => simp [member,opened]
  | some more =>
    have first := expect_eq_some.mp opened
    cases key : string more with
    | none => simp [member,opened,key]
    | some result =>
      obtain ⟨t,after⟩ := result
      have shorter := (string_takes _ _ _ key).1
      have between := length_skip_le after
      cases colon : expect ':' (skip after) with
      | none => simp [member,opened,key,colon]
      | some last =>
        have second := expect_eq_some.mp colon
        have skipped := length_skip_le last
        rw [second,List.length_cons] at between
        rw [first,List.length_cons] at short
        simp [member,opened,key,colon,agree (skip last) (by omega)]

theorem valueStep_agree {inner other : Parser (Value F)} {bound first second : Nat} (takes : Takes Within inner)
    (agree : AgreeUpTo bound inner other) (enough : bound < first) (plenty : bound < second) :
    AgreeUpTo (bound + 1) (valueStep floats inner first) (valueStep floats other second) := by
  intro text short
  cases text with
  | nil => rfl
  | cons c rest =>
    have inside : rest.length ≤ bound := Nat.le_of_succ_le_succ short
    rw [valueStep,valueStep,listed_agree takes agree enough plenty rest inside,
      listed_agree (member_takes takes) (member_agree agree) enough plenty rest inside]

theorem value_agree {bound first second : Nat} (enough : bound < first) (plenty : bound < second) :
    AgreeUpTo bound (value floats first) (value floats second) := by
  induction bound generalizing first second with
  | zero =>
    intro text short
    obtain rfl := List.eq_nil_of_length_eq_zero (Nat.le_zero.mp short)
    cases first <;> cases second <;> first | omega | rfl
  | succ bound induction =>
    cases first with
    | zero => omega
    | succ first =>
      cases second with
      | zero => omega
      | succ second =>
        exact valueStep_agree (value_takes first) (induction (by omega) (by omega)) (by omega) (by omega)

theorem value_enough {fuel : Nat} (enough : text.length < fuel) :
    value floats fuel text = value floats (text.length + 1) text :=
  value_agree enough (Nat.lt_succ_self _) text le_rfl

end Json
