import SasBackend.Library.Outcome
import SasBackend.LicenseKeys
import SasBackend.Semantics.SyncTokens

/-! A text that nobody but the server can sign is read as the one token the server issued, or is refused.
The payload of a token is read back whole, so pull and snapshot see its plain fields; an access token is signed with the
same key, and its signing input never starts as a cursor does.
-/
namespace SyncTokens
open Json
open Licensing (Bytes)
open LicenseKeys (Platform canonicalJson encodeText isVersion loadsBytes)
open UuidText (Uuid)
open Outcome (ok_bind error_bind)

variable {F : Type} {platform : Platform F} {numbers : Numbers F} {digest : Bytes → Bytes} {history : List Event}
  {text : List Char} {members : List (Text × Value F)}

def sortedFields : Token → List (List Char × Value F)
  | .pull business user seq issued permissions =>
    [(['b'],uuidValue business),(['k'],literal pullKind),(['p'],literal (fingerprintText permissions)),
      (['s'],.int seq.val),(['t'],.int issued.val),(['u'],uuidValue user),(['v'],.int 1)]
  | .snap business user start entity after permissions =>
    [(['a'],(after.map uuidValue).getD .null),(['b'],uuidValue business),(['c'],.int start.val),(['e'],.int entity.val),
      (['k'],literal snapKind),(['p'],literal (fingerprintText permissions)),(['u'],uuidValue user),(['v'],.int 1)]

theorem sortedFields_eq (token : Token) :
    (token.fields : List (List Char × Value F)).insertionSort (fun field other => field.1 ≤ other.1) = sortedFields token := by
  cases token <;> rfl

def membersOf (token : Token) : List (Text × Value F) :=
  (sortedFields token).map fun field => (ofChars field.1,field.2)

theorem int_plain {n : Nat} (small : n < 10 ^ 19) : (Value.int n : Value F).Plain := by
  have short : (Nat.toDigits 10 n).length ≤ 19 := (Nat.length_toDigits_le_iff (by omega) (by omega)).mpr small
  refine Value.Plain.int ?_
  rw [Int.natAbs_natCast]
  exact short.trans (by decide)

theorem literal_plain (text : List Char) : (literal text : Value F).Plain := .text (scalar_ofChars text)

theorem fields_plain (token : Token) : ∀ field ∈ (sortedFields token : List (List Char × Value F)), field.2.Plain := by
  have one : (Value.int 1 : Value F).Plain := int_plain (n := 1) (by omega)
  cases token with
  | pull business user seq issued permissions =>
    have sequence : (Value.int seq.val : Value F).Plain := int_plain (by omega)
    have time : (Value.int issued.val : Value F).Plain := int_plain (by omega)
    simp only [sortedFields,uuidValue,List.forall_mem_cons]
    exact ⟨literal_plain _,literal_plain _,literal_plain _,sequence,time,literal_plain _,one,by simp⟩
  | snap business user start entity after permissions =>
    have sequence : (Value.int start.val : Value F).Plain := int_plain (by omega)
    have index : (Value.int entity.val : Value F).Plain := int_plain (by omega)
    have last : ((after.map uuidValue).getD .null : Value F).Plain := by
      cases after with
      | none => exact .null
      | some id => exact literal_plain _
    simp only [sortedFields,uuidValue,List.forall_mem_cons]
    exact ⟨last,literal_plain _,sequence,index,literal_plain _,literal_plain _,literal_plain _,one,by simp⟩

theorem record_plain_of (token : Token) : (record (sortedFields token) : Value F).Plain := by
  cases token with
  | pull business user seq issued permissions =>
    have distinct : [['b'],['k'],['p'],['s'],['t'],['u'],['v']].Nodup := by decide
    exact record_plain rfl distinct (fields_plain _)
  | snap business user start entity after permissions =>
    have distinct : [['a'],['b'],['c'],['e'],['k'],['p'],['u'],['v']].Nodup := by decide
    exact record_plain rfl distinct (fields_plain _)

theorem loadsBytes_token (token : Token) :
    loadsBytes platform (canonicalJson platform token.fields) = some (.object (membersOf token)) := by
  have plain : (record (sortedFields token) : Value F).Plain := record_plain_of token
  have printable : Printable (dumps platform.floats [] (record (sortedFields token))) := dumps_printable (by decide) plain
  obtain ⟨ascii,same⟩ := LicenseKeys.decodeText_encodeText printable
  rw [canonicalJson,sortedFields_eq,loadsBytes,if_pos ascii,same]
  exact loads_dumps (by simp) plain

theorem get_members (token : Token) (key : List Char) :
    Value.get (membersOf token : List (Text × Value F)) key = (sortedFields token).lookup key :=
  Value.get_map _ key

theorem decodeToken_token {token : Token} {signature : List Char}
    (split : parts text = some (canonicalJson platform token.fields,signature))
    (signed : sign digest (canonicalJson platform token.fields) = signature) :
    decodeToken platform digest text = .ok (membersOf token) := by
  have ascii : signature.any (128 ≤ ·.toNat) = false := by
    rw [List.any_eq_false]
    intro c inside
    obtain ⟨n,small,rfl⟩ := Base64Url.encode_digits _ c (by rw [← signed] at inside; exact inside)
    have low := (Base64Url.digit_spec n small).2.2.1
    simp
    omega
  have version : (Value.get (membersOf token : List (Text × Value F)) ['v']).any (isVersion platform) = true := by
    rw [get_members]
    cases token <;> rfl
  simp [decodeToken,split,orMalformed,checkSignature,ascii,signed,loadsBytes_token,checkVersion,version,bind,Except.bind]

theorem str_injective : Function.Injective UuidText.str :=
  fun first second same => Option.some_injective _ (by rw [← UuidText.read_str first,same,UuidText.read_str])

theorem fingerprintText_injective : Function.Injective fingerprintText := by
  intro first second same
  have read := congrArg Hexadecimal.read same
  rw [fingerprintText,fingerprintText,Hexadecimal.read_numeral,Hexadecimal.read_numeral,
    Nat.mod_eq_of_lt first.isLt,Nat.mod_eq_of_lt second.isLt] at read
  exact Fin.ext (Option.some_injective _ read)

theorem literal_inj {first second : List Char} : (literal first : Value F) = literal second ↔ first = second := by
  simp [literal,ofChars_injective.eq_iff]

theorem isText_literal (first second : List Char) : isText (literal first : Value F) second = decide (first = second) := by
  simp [isText,literal,ofChars_injective.eq_iff]

theorem uuidValue_inj {first second : Uuid} : (uuidValue first : Value F) = uuidValue second ↔ first = second := by
  rw [uuidValue,uuidValue,literal_inj,str_injective.eq_iff]

theorem after_inj {first second : Option Uuid}
    (same : ((first.map uuidValue).getD .null : Value F) = (second.map uuidValue).getD .null) : first = second := by
  cases first <;> cases second
  · rfl
  · simp [uuidValue,literal] at same
  · simp [uuidValue,literal] at same
  · exact congrArg some (uuidValue_inj.mp same)

theorem field_members (token : Token) (key : List Char) :
    field (membersOf token : List (Text × Value F)) key = ((sortedFields token).lookup key).getD .null := by
  rw [field,get_members]

theorem pull_members (business user : Uuid) (seq : Seq) (issued : Timestamp) (permissions : Fingerprint)
    {members : List (Text × Value F)} (written : members = membersOf (.pull business user seq issued permissions)) :
    field members ['k'] = literal pullKind ∧ field members ['b'] = uuidValue business ∧
      field members ['u'] = uuidValue user ∧ field members ['p'] = literal (fingerprintText permissions) ∧
      Value.get members ['s'] = some (.int seq.val) ∧ Value.get members ['t'] = some (.int issued.val) := by
  subst written
  simp only [field_members,get_members]
  exact ⟨rfl,rfl,rfl,rfl,rfl,rfl⟩

theorem snap_members (business user : Uuid) (start : Seq) (entity : Fin 17) (after : Option Uuid)
    (permissions : Fingerprint) {members : List (Text × Value F)}
    (written : members = membersOf (.snap business user start entity after permissions)) :
    field members ['k'] = literal snapKind ∧ field members ['b'] = uuidValue business ∧
      field members ['u'] = uuidValue user ∧ field members ['p'] = literal (fingerprintText permissions) ∧
      Value.get members ['c'] = some (.int start.val) ∧ Value.get members ['e'] = some (.int entity.val) ∧
      field members ['a'] = (after.map uuidValue).getD .null := by
  subst written
  simp only [field_members,get_members]
  exact ⟨rfl,rfl,rfl,rfl,rfl,rfl,rfl⟩

theorem int_inj {first second : Nat} : (Value.int (first : Int) : Value F) = .int second ↔ first = second := by
  rw [Value.int.injEq,Int.ofNat_inj]

theorem some_int_inj {first second : Nat} {found : Option (Value F)} (one : found = some (.int (first : Int)))
    (other : found = some (.int (second : Int))) : first = second :=
  int_inj.mp (Option.some_injective _ (one.symm.trans other))

theorem fingerprint_inj {first second : Fingerprint} {found : Value F} (one : found = literal (fingerprintText first))
    (other : found = literal (fingerprintText second)) : first = second :=
  fingerprintText_injective (literal_inj.mp (one.symm.trans other))

theorem membersOf_injective {first second : Token}
    (same : (membersOf first : List (Text × Value F)) = membersOf second) : first = second := by
  have apart : (literal pullKind : Value F) ≠ literal snapKind := by
    rw [ne_eq,literal_inj]
    decide
  generalize one : (membersOf first : List (Text × Value F)) = members at same
  generalize other : (membersOf second : List (Text × Value F)) = members at same
  subst same
  cases first with
  | pull business user seq issued permissions =>
    obtain ⟨kind,owner,reader,fingerprint,sequence,time⟩ := pull_members _ _ _ _ _ one.symm
    cases second with
    | pull business' user' seq' issued' permissions' =>
      obtain ⟨_,owner',reader',fingerprint',sequence',time'⟩ := pull_members _ _ _ _ _ other.symm
      rw [uuidValue_inj.mp (owner.symm.trans owner'),uuidValue_inj.mp (reader.symm.trans reader'),
        fingerprint_inj fingerprint fingerprint',Fin.ext (some_int_inj sequence sequence'),
        Fin.ext (some_int_inj time time')]
    | snap business' user' start' entity' after' permissions' =>
      obtain ⟨kind',_⟩ := snap_members _ _ _ _ _ _ other.symm
      exact absurd (kind.symm.trans kind') apart
  | snap business user start entity after permissions =>
    obtain ⟨kind,owner,reader,fingerprint,sequence,index,last⟩ := snap_members _ _ _ _ _ _ one.symm
    cases second with
    | pull business' user' seq' issued' permissions' =>
      obtain ⟨kind',_⟩ := pull_members _ _ _ _ _ other.symm
      exact absurd (kind'.symm.trans kind) apart
    | snap business' user' start' entity' after' permissions' =>
      obtain ⟨_,owner',reader',fingerprint',sequence',index',last'⟩ := snap_members _ _ _ _ _ _ other.symm
      rw [uuidValue_inj.mp (owner.symm.trans owner'),uuidValue_inj.mp (reader.symm.trans reader'),
        fingerprint_inj fingerprint fingerprint',Fin.ext (some_int_inj sequence sequence'),
        Fin.ext (some_int_inj index index'),after_inj (last.symm.trans last')]

theorem colon_label : (58 : UInt8) ∈ label := by decide

theorem colon_signingInput (header claims : Bytes) : (58 : UInt8) ∉ signingInput header claims := by
  have digits : ∀ bytes : Bytes, ∀ c ∈ Base64Url.encode bytes, UInt8.ofNat c.toNat ≠ 58 := by
    intro bytes c inside
    obtain ⟨n,small,rfl⟩ := Base64Url.encode_digits bytes c inside
    have all : ∀ n : Fin 64, UInt8.ofNat (Base64Url.digit n.val).toNat ≠ 58 := by decide +kernel
    exact all ⟨n,small⟩
  intro inside
  obtain ⟨c,there,same⟩ := List.mem_map.mp inside
  rcases List.mem_append.mp there with header | rest
  · exact digits _ c header same
  · rcases List.mem_cons.mp rest with rfl | claims
    · exact absurd same (by decide)
    · exact digits _ c claims same

theorem issued_of_signed {body : Bytes} {signature : List Char} (presentable : Presentable platform digest history text)
    (split : parts text = some (body,signature)) (signed : sign digest body = signature) :
    ∃ token, Event.token token ∈ history ∧ body = canonicalJson platform token.fields := by
  obtain ⟨event,inside,same⟩ := List.mem_map.mp (presentable body signature split signed)
  cases event with
  | accessToken header claims =>
    have colon : (58 : UInt8) ∈ label ++ body := List.mem_append_left body colon_label
    rw [← same] at colon
    exact absurd colon (colon_signingInput header claims)
  | token issued => exact ⟨issued,inside,(List.append_cancel_left same).symm⟩

theorem parts_encodeToken (token : Token) : parts (encodeToken platform digest token) =
    some (canonicalJson platform token.fields,sign digest (canonicalJson platform token.fields)) := by
  have point : '.' ∈ encodeToken platform digest token := by simp [encodeToken]
  rw [parts,if_pos point,encodeToken,LicenseLineage.body_of_parts,LicenseLineage.signature_of_parts,
    Base64Url.decode_encode]
  rfl

theorem decodeToken_presentable (presentable : Presentable platform digest history text) :
    (∃ error, decodeToken platform digest text = .error error) ∨
      ∃ token, Event.token token ∈ history ∧ decodeToken platform digest text = .ok (membersOf token) := by
  cases split : parts text with
  | none => exact .inl ⟨.malformed,by simp [decodeToken,split,orMalformed,bind,Except.bind]⟩
  | some found =>
    obtain ⟨body,signature⟩ := found
    by_cases signed : sign digest body = signature
    · obtain ⟨token,inside,rfl⟩ := issued_of_signed presentable split signed
      exact .inr ⟨token,inside,decodeToken_token split signed⟩
    · left
      by_cases ascii : signature.any (128 ≤ ·.toNat) = true
      · exact ⟨.malformed,by simp [decodeToken,split,orMalformed,checkSignature,ascii,bind,Except.bind]⟩
      · exact ⟨.badSignature,by simp [decodeToken,split,orMalformed,checkSignature,ascii,signed,bind,Except.bind]⟩

theorem readAs_none {error : CursorError} (bad : decodeToken platform digest text = .error error) :
    ReadAs platform numbers digest text none := by
  constructor
  · intro retention caller now head
    simp [resume,bad,orInvalid,resumed,SyncFeed.resume,bind,Except.bind]
  · intro caller
    simp [pageStart,bad,orInvalid,started,bind,Except.bind,Except.map]

@[simp]
theorem isText_uuidValue (id other : Uuid) : isText (uuidValue id : Value F) (UuidText.str other) = decide (id = other) := by
  rw [uuidValue,isText_literal,decide_eq_decide,str_injective.eq_iff]

@[simp]
theorem isText_fingerprint (permissions other : Fingerprint) :
    isText (literal (fingerprintText permissions) : Value F) (fingerprintText other) = decide (permissions = other) := by
  rw [isText_literal,decide_eq_decide,fingerprintText_injective.eq_iff]

@[simp]
theorem toUuid_uuidValue (id : Uuid) : toUuid (uuidValue id : Value F) = .ok id := by
  simp [uuidValue,literal,toUuid,chars_ofChars,UuidText.read_str]

@[simp]
theorem truthy_uuidValue (id : Uuid) : truthy numbers (uuidValue id : Value F) = true := by
  have read := UuidText.read_str id
  cases written : UuidText.str id with
  | nil => simp [written,UuidText.read,UuidText.without] at read
  | cons c more => simp [uuidValue,literal,truthy,ofChars,written]

theorem fromTimestamp_issued (issued : Timestamp) : fromTimestamp issued.val = .ok (issued.val : Int) := by
  have small := issued.isLt
  rw [fromTimestamp,if_pos (by omega)]

theorem late_iff (retention now issued : Nat) : (retention : Int) < now - (issued : Int) ↔ retention < now - issued := by
  omega

theorem refuseIf_false (failure : SyncFeed.Failure) : refuseIf false failure = .ok () := rfl

theorem refuseIf_true (failure : SyncFeed.Failure) : refuseIf true failure = .error (.refused failure) := rfl

theorem kinds_apart : isText (literal pullKind : Value F) pullKind = true ∧ isText (literal snapKind : Value F) snapKind = true ∧
    isText (literal pullKind : Value F) snapKind = false ∧ isText (literal snapKind : Value F) pullKind = false := by
  simp only [isText_literal]
  decide

theorem resume_token {token : Token} (read : decodeToken platform digest text = .ok (membersOf token))
    (retention : Nat) (caller : Caller) (now head : Nat) :
    resume platform numbers digest retention caller text now head =
      resumed (SyncFeed.resume retention caller.user (some (some token.plain)) now head) := by
  obtain ⟨pullIsPull,_,_,snapIsNot⟩ := kinds_apart (F := F)
  generalize written : membersOf token = members at read
  cases token with
  | snap business user start entity after permissions =>
    obtain ⟨kind,_⟩ := snap_members _ _ _ _ _ _ written.symm
    simp only [resume,read,orInvalid,ok_bind,kind,snapIsNot,Bool.not_false,Bool.true_or,refuseIf_true,error_bind]
    rfl
  | pull business user seq issued permissions =>
    obtain ⟨kind,owner,reader,fingerprint,sequence,time⟩ := pull_members _ _ _ _ _ written.symm
    have moment := fromTimestamp_issued issued
    -- Step by step: the bounds of a time are too large to be unfolded.
    rw [resume,read,orInvalid,ok_bind,kind,owner,reader,fingerprint,sequence,time,pullIsPull,isText_uuidValue,
      isText_uuidValue,isText_fingerprint,Option.getD_some,Option.getD_some]
    by_cases same : business = caller.business
    · rw [decide_eq_true same,Bool.not_true,Bool.or_self,refuseIf_false,ok_bind,toInt,ok_bind,toInt,ok_bind,moment,ok_bind]
      simp [resumed,SyncFeed.resume,Token.plain,Caller.user,same,late_iff,Fin.val_inj,pure,Except.pure]
    · rw [decide_eq_false same,Bool.not_true,Bool.not_false,Bool.false_or,refuseIf_true,error_bind]
      simp [resumed,SyncFeed.resume,Token.plain,Caller.user,same,Fin.val_inj]

theorem pageStart_token {token : Token} (read : decodeToken platform digest text = .ok (membersOf token)) (caller : Caller) :
    (pageStart platform numbers digest caller text).map (fun found => (found.1,found.2.1,found.2.2.map Fin.val)) =
      started (SyncFeed.pageStart caller.user token.plain) := by
  obtain ⟨_,snapIsSnap,pullIsNot,_⟩ := kinds_apart (F := F)
  generalize written : membersOf token = members at read
  cases token with
  | pull business user seq issued permissions =>
    obtain ⟨kind,_⟩ := pull_members _ _ _ _ _ written.symm
    simp only [pageStart,read,orInvalid,ok_bind,kind,pullIsNot,Bool.not_false,Bool.true_or,refuseIf_true,error_bind]
    rfl
  | snap business user start entity after permissions =>
    obtain ⟨kind,owner,reader,fingerprint,sequence,index,last⟩ := snap_members _ _ _ _ _ _ written.symm
    have plain : SyncFeed.pageStart caller.user (Token.snap business user start entity after permissions).plain =
        if business = caller.business ∧ user = caller.id ∧ permissions = caller.permissionsVersion then
          .ok (start,entity,after.map Fin.val) else .error .invalidCursor := by
      simp [SyncFeed.pageStart,Token.plain,Caller.user,Fin.val_inj]
    rw [plain]
    simp only [pageStart,read,orInvalid,ok_bind,kind,owner,reader,fingerprint,required,sequence,index,last,snapIsSnap,
      isText_uuidValue,isText_fingerprint,Option.elim_some,toInt]
    by_cases own : business = caller.business ∧ user = caller.id ∧ permissions = caller.permissionsVersion
    · obtain ⟨rfl,rfl,rfl⟩ := own
      simp only [decide_true,Bool.not_true,Bool.or_self,refuseIf_false,ok_bind,and_self,if_true]
      cases after with
      | none => rfl
      | some id =>
        simp [Except.map,ok_bind,started,pure,Except.pure]
    · have foreign : (!true || !decide (business = caller.business) || !decide (user = caller.id) ||
          !decide (permissions = caller.permissionsVersion)) = true := by
        simpa [imp_iff_not_or,or_assoc] using own
      rw [foreign,if_neg own]
      rfl

theorem readAs_token {token : Token} (read : decodeToken platform digest text = .ok (membersOf token)) :
    ReadAs platform numbers digest text (some token) :=
  ⟨resume_token read,pageStart_token read⟩

theorem pull_of_resume {cursor : Option Token} {business user : Uuid} {seq : Seq} {issued : Timestamp} {permissions : Fingerprint}
    (resumes : resumed (SyncFeed.resume 0 (Caller.user ⟨user,business,permissions,[],none⟩) (some (cursor.map Token.plain)) issued seq) =
      .ok (seq,none)) :
    ∃ issuedBy : Timestamp, cursor = some (.pull business user seq issuedBy permissions) ∧ (issued : Nat) ≤ issuedBy := by
  rcases cursor with _ | ⟨other,owner,start,time,fingerprint⟩ | _
  · cases resumes
  · simp only [Option.map_some,Token.plain,SyncFeed.resume,Caller.user,ne_eq,Fin.val_inj] at resumes
    by_cases same : other = business
    · rw [if_neg (not_not.mpr same)] at resumes
      simp only [resumed,Except.ok.injEq,Prod.mk.injEq,Int.natCast_inj,Fin.val_inj] at resumes
      obtain ⟨sequence,reason⟩ := resumes
      have fresh : ¬(issued : Nat) - time > 0 := fun late => by simp [late] at reason
      rw [if_neg fresh] at reason
      have mine : owner = user := by_contra fun foreign => by simp [foreign] at reason
      have unchanged : fingerprint = permissions := by_contra fun changed => by simp [mine,changed] at reason
      rw [same,mine,unchanged,sequence]
      exact ⟨time,rfl,by omega⟩
    · rw [if_pos same] at resumes
      cases resumes
  · cases resumes

theorem snap_of_pageStart {cursor : Option Token} {business user : Uuid} {start : Seq} {entity : Fin 17} {after : Option Uuid}
    {permissions : Fingerprint}
    (starts : started ((cursor.map Token.plain).elim (.error .invalidCursor)
      (SyncFeed.pageStart (Caller.user ⟨user,business,permissions,[],none⟩))) = .ok (start,entity,after.map Fin.val)) :
    cursor = some (.snap business user start entity after permissions) := by
  rcases cursor with _ | _ | ⟨other,owner,from_,place,last,fingerprint⟩
  · cases starts
  · cases starts
  · simp only [Option.map_some,Option.elim_some,Token.plain,SyncFeed.pageStart,Caller.user,Fin.val_inj] at starts
    split at starts
    next own =>
      obtain ⟨rfl,rfl,rfl⟩ := own
      simp only [started,Except.ok.injEq,Prod.mk.injEq,Int.natCast_inj,Fin.val_inj] at starts
      obtain ⟨rfl,rfl,same⟩ := starts
      rw [Option.map_injective Fin.val_injective same]
    next => cases starts

/-- No text is read as two cursors. -/
theorem readAs_unique {first second : Option Token} (one : ReadAs platform numbers digest text first)
    (two : ReadAs platform numbers digest text second) : first = second := by
  have resumes retention caller now head := (one.resume retention caller now head).symm.trans (two.resume retention caller now head)
  have starts caller := (one.pageStart caller).symm.trans (two.pageStart caller)
  have issued_le {a b : Option Token} (agree : ∀ retention caller now head,
      resumed (SyncFeed.resume retention (Caller.user caller) (some (a.map Token.plain)) now head) =
        resumed (SyncFeed.resume retention (Caller.user caller) (some (b.map Token.plain)) now head))
      {business user seq issued permissions} (is : a = some (.pull business user seq issued permissions)) :
      ∃ issuedBy : Timestamp, b = some (.pull business user seq issuedBy permissions) ∧ (issued : Nat) ≤ issuedBy := by
    refine pull_of_resume ((agree 0 ⟨user,business,permissions,[],none⟩ issued seq).symm.trans ?_)
    simp [is,SyncFeed.resume,Token.plain,Caller.user,resumed]
  rcases first with _ | token
  · rcases second with _ | token
    · rfl
    · cases token with
      | pull business user seq issued permissions =>
        obtain ⟨_,wrong,_⟩ := issued_le (fun r c n h => (resumes r c n h).symm) rfl
        cases wrong
      | snap business user start entity after permissions =>
        refine snap_of_pageStart ((starts ⟨user,business,permissions,[],none⟩).trans ?_)
        simp [SyncFeed.pageStart,Token.plain,Caller.user,started]
  · cases token with
    | pull business user seq issued permissions =>
      obtain ⟨later,rfl,atMost⟩ := issued_le resumes rfl
      obtain ⟨_,same,atLeast⟩ := issued_le (fun r c n h => (resumes r c n h).symm) rfl
      cases same
      rw [Fin.ext (atMost.antisymm atLeast)]
    | snap business user start entity after permissions =>
      refine (snap_of_pageStart ((starts ⟨user,business,permissions,[],none⟩).symm.trans ?_)).symm
      simp [SyncFeed.pageStart,Token.plain,Caller.user,started]

/-- What can be presented is taken for one token that was issued, the one it was written for, or for none. -/
theorem presented_token (platform : Platform F) (numbers : Numbers F) (digest : Bytes → Bytes) (history : List Event)
    (text : List Char) (presentable : Presentable platform digest history text) :
    ∃! cursor : Option Token, (∀ token ∈ cursor, Event.token token ∈ history) ∧
      (∀ token, text = encodeToken platform digest token → cursor = some token) ∧
      ReadAs platform numbers digest text cursor := by
  have written : ∀ token, text = encodeToken platform digest token → decodeToken platform digest text = .ok (membersOf token) := by
    rintro token rfl
    exact decodeToken_token (parts_encodeToken token) rfl
  rcases decodeToken_presentable presentable with ⟨error,bad⟩ | ⟨token,issued,read⟩
  · refine ⟨none,⟨by simp,?_,readAs_none bad⟩,fun other taken => readAs_unique taken.2.2 (readAs_none bad)⟩
    intro token same
    exact absurd ((written token same).symm.trans bad) (by simp)
  · refine ⟨some token,⟨by simpa using issued,?_,readAs_token read⟩,fun other taken => readAs_unique taken.2.2 (readAs_token read)⟩
    intro other same
    have members := Except.ok.inj (read.symm.trans (written other same))
    rw [membersOf_injective members]

/-- A cursor of the sample server, whose digest is no secret. -/
def sampleToken : Token :=
  .pull ⟨7,by decide⟩ ⟨3,by decide⟩ ⟨12,by decide⟩ ⟨1760000000,by decide⟩ ⟨51966,by decide⟩

def sampleNumbers : Numbers Unit where
  ofFloat _ := none
  ofText _ := none
  truthy _ := true

theorem presented_token_sample : ∃! cursor : Option Token,
    (∀ token ∈ cursor, Event.token token ∈ [Event.accessToken [1,2] [3],Event.token sampleToken]) ∧
      (∀ token, encodeToken LicenseKeys.samplePlatform id sampleToken = encodeToken LicenseKeys.samplePlatform id token →
        cursor = some token) ∧
      ReadAs LicenseKeys.samplePlatform sampleNumbers id (encodeToken LicenseKeys.samplePlatform id sampleToken) cursor := by
  refine presented_token _ _ _ _ _ ?_
  intro body signature split _
  rw [parts_encodeToken] at split
  cases split
  simp [message]

end SyncTokens
