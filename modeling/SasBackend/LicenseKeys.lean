import SasBackend.LicenseLineage
import SasBackend.Library.Outcome
import SasBackend.Semantics.LicenseKeys

/-! A licence key is read back as the payload it was made of, on its machine only, and what is accepted was signed.
The signature covers the bytes that are parsed, so the many texts that a lenient reader takes for the same bytes do no harm.
-/
namespace LicenseKeys
open Json hiding isSpace
open Licensing (Bytes)
open LicenseLineage (strip isSpace keyPrefix)
open Outcome (bind_ok_iff refuseIf refuseIf_ok)

variable {F : Type} {platform : Platform F} {key : KeyPair} {payload : LicensePayload F}

def sortedFields (payload : LicensePayload F) : List (List Char × Value F) :=
  [(customerKey,payload.customer),(editionKey,payload.edition),(issuedAtKey,payload.issuedAt),
    (licenseIdKey,payload.licenseId),(machineIdKey,payload.machineId),(updatesUntilKey,payload.updatesUntil),(vKey,payload.v)]

theorem sortedFields_eq (payload : LicensePayload F) :
    (asDict payload).insertionSort (fun field other => field.1 ≤ other.1) = sortedFields payload := by
  rfl

/-- Every field is a JSON value that is written and read back as it was. -/
structure Writable (payload : LicensePayload F) : Prop where
  each : ∀ field ∈ sortedFields payload, field.2.Plain

theorem record_sortedFields_plain (writable : Writable payload) : (record (sortedFields payload)).Plain := by
  have distinct : [customerKey,editionKey,issuedAtKey,licenseIdKey,machineIdKey,updatesUntilKey,vKey].Nodup := by decide
  exact record_plain rfl distinct writable.each

theorem decodeText_encodeText {text : List Char} (printable : Printable text) :
    (encodeText text).all (fun b => 0 < b.toNat && b.toNat < 128) = true ∧
      (encodeText text).map (fun b => Char.ofNat b.toNat) = text := by
  have code : ∀ c ∈ text, (UInt8.ofNat c.toNat).toNat = c.toNat := by
    intro c inside
    have range := printable c inside
    simp only [UInt8.toNat_ofNat']
    omega
  constructor
  · rw [List.all_eq_true]
    intro b inside
    obtain ⟨c,there,rfl⟩ := List.mem_map.mp inside
    have range := printable c there
    rw [code c there]
    simp
    omega
  · rw [encodeText,List.map_map]
    conv_rhs => rw [← List.map_id text]
    apply List.map_congr_left
    intro c inside
    simp [code c inside]

theorem loadsBytes_canonicalJson (writable : Writable payload) :
    loadsBytes platform (canonicalJson platform (asDict payload)) = some (record (sortedFields payload)) := by
  have plain := record_sortedFields_plain writable
  have printable : Printable (dumps platform.floats [] (record (sortedFields payload))) :=
    dumps_printable (by decide) plain
  obtain ⟨ascii,same⟩ := decodeText_encodeText printable
  rw [canonicalJson,sortedFields_eq,loadsBytes,if_pos ascii,same]
  exact loads_dumps (by simp) plain

theorem fromDict_record (payload : LicensePayload F) : fromDict (record (sortedFields payload)) = some payload := by
  have known : ∀ name ∈ [customerKey,editionKey,issuedAtKey,licenseIdKey,machineIdKey,updatesUntilKey,vKey],
      name ∈ fieldKeys := by decide
  have names : ((sortedFields payload).map fun field => (ofChars field.1,field.2)).all
      (fun member => fieldKeys.any fun name => member.1 = ofChars name) = true := by
    rw [List.all_eq_true]
    intro member inside
    obtain ⟨field,there,rfl⟩ := List.mem_map.mp inside
    rw [List.any_eq_true]
    have named : field.1 ∈ (sortedFields payload).map Prod.fst := List.mem_map_of_mem there
    exact ⟨field.1,known field.1 named,decide_eq_true rfl⟩
  have fields : (sortedFields payload).lookup vKey = some payload.v ∧
      (sortedFields payload).lookup licenseIdKey = some payload.licenseId ∧
      (sortedFields payload).lookup editionKey = some payload.edition ∧
      (sortedFields payload).lookup customerKey = some payload.customer ∧
      (sortedFields payload).lookup machineIdKey = some payload.machineId ∧
      (sortedFields payload).lookup issuedAtKey = some payload.issuedAt ∧
      (sortedFields payload).lookup updatesUntilKey = some payload.updatesUntil := ⟨rfl,rfl,rfl,rfl,rfl,rfl,rfl⟩
  simp only [record,fromDict,names,if_true,Value.get_map,fields,Option.bind_eq_bind,Option.bind_some]

theorem strip_surrounded {before text after : List Char} (first : ∀ c ∈ before, isSpace c = true)
    (last : ∀ c ∈ after, isSpace c = true) (bare : ∀ c ∈ text, isSpace c = false) (some_text : text ≠ []) :
    strip (before ++ text ++ after) = text := by
  have stops : ∀ {text : List Char} (rest : List Char), (∀ c ∈ text, isSpace c = false) → text ≠ [] →
      (text ++ rest).dropWhile isSpace = text ++ rest := by
    intro text rest bare some_text
    cases text with
    | nil => exact absurd rfl some_text
    | cons c text => simp [bare c List.mem_cons_self]
  have reversed : ∀ c ∈ after.reverse, isSpace c = true := by
    simpa using last
  rw [strip,List.append_assoc,List.dropWhile_append_of_pos first,stops after bare some_text,List.reverse_append,
    List.dropWhile_append_of_pos reversed,← List.append_nil text.reverse,
    stops [] (by simpa using bare) (by simpa using some_text),List.append_nil,List.reverse_reverse]

theorem bodyAndSignature_signed {before after : List Char} (first : ∀ c ∈ before, isSpace c = true)
    (last : ∀ c ∈ after, isSpace c = true) : (bodyAndSignature (before ++ signLicense platform key payload ++ after) :
      Except (LicenseError F) (Bytes × Bytes)) =
        .ok (canonicalJson platform (asDict payload),key.sign (canonicalJson platform (asDict payload))) := by
  unfold signLicense
  generalize canonicalJson platform (asDict payload) = body
  have stripped := strip_surrounded first last (LicenseLineage.key_bare body (key.sign body)) (by simp [keyPrefix])
  have leads : keyPrefix.isPrefixOf
      (keyPrefix ++ Base64Url.encode body ++ '.' :: Base64Url.encode (key.sign body)) = true := by
    simp
  have dropped : (keyPrefix ++ Base64Url.encode body ++ '.' :: Base64Url.encode (key.sign body)).drop keyPrefix.length =
      Base64Url.encode body ++ '.' :: Base64Url.encode (key.sign body) := by
    simp
  unfold bodyAndSignature
  simp only [stripped,leads,LicenseLineage.point_once,dropped,LicenseLineage.body_of_parts,
    LicenseLineage.signature_of_parts,Base64Url.decode_encode]
  rfl

theorem orMalformed_ok {α : Type} {value : Option α} {detail : String} {a : α} :
    (orMalformed value detail : Except (LicenseError F) α) = .ok a ↔ value = some a := by
  cases value <;> simp [orMalformed]

theorem verifyLicense_ok {keyString : List Char} {machineId : Option (List Char)} {revokedIds : Option (List (List Char))} :
    verifyLicense platform key keyString machineId revokedIds = .ok payload ↔
      ∃ body signature, bodyAndSignature keyString = (.ok (body,signature) : Except (LicenseError F) _) ∧
        key.verify body signature = true ∧ (loadsBytes platform body).bind fromDict = some payload ∧
        isVersion platform payload.v = true ∧ checkDate platform payload.updatesUntil = .ok () ∧
        checkMachine platform machineId payload.machineId = .ok () ∧ checkRevoked revokedIds payload.licenseId = .ok () := by
  simp only [verifyLicense,bind_ok_iff,refuseIf_ok,orMalformed_ok,Bool.not_eq_false',pure,Except.pure,Prod.exists]
  constructor
  · rintro ⟨body,signature,parts,_,verified,found,loaded,_,version,_,date,_,machine,_,revoked,same⟩
    cases same
    exact ⟨body,signature,parts,verified,loaded,version,date,machine,revoked⟩
  · rintro ⟨body,signature,parts,verified,loaded,version,date,machine,revoked⟩
    exact ⟨body,signature,parts,(),verified,payload,loaded,(),version,(),date,(),machine,(),revoked,rfl⟩

theorem checkDate_isoformat (date : IsoDate.Date) :
    checkDate platform (.text (ofChars (IsoDate.isoformat date))) = .ok () := by
  have read : dated platform (ofChars (IsoDate.isoformat date)) = true := by
    simp [dated,chars_ofChars,IsoDate.shaped_isoformat,IsoDate.read_isoformat]
  simp [checkDate,read,refuseIf]

theorem buildPayload_writable (licenseId customer machineId : List Char) (issuedAt : Calendar.Moment)
    (updatesUntil : IsoDate.Date) (edition : List Char) :
    Writable (buildPayload platform licenseId customer machineId issuedAt updatesUntil edition) := by
  have short : (Nat.toDigits 10 (1 : Int).natAbs).length ≤ maxDigits := by decide
  constructor
  simp only [sortedFields,buildPayload,List.mem_cons,List.not_mem_nil,or_false]
  rintro field (rfl | rfl | rfl | rfl | rfl | rfl | rfl)
  all_goals first | exact .text (scalar_ofChars _) | exact .int short

theorem checkMachine_some {given : List Char} {licensed : Value F}
    (passed : checkMachine platform (some given) licensed = .ok ()) :
    ∃ t, licensed = .text t ∧ normalizeMachineId platform t = normalizeMachineId platform (ofChars given) := by
  unfold checkMachine at passed
  split at passed
  · simp_all
  next t =>
    have same := refuseIf_ok.mp passed
    simp_all
  · simp at passed

theorem checkMachine_build {given : Option (List Char)} {machineId : List Char}
    (same : ∀ id ∈ given, normalizeMachineId platform (ofChars id) = normalizeMachineId platform (ofChars machineId)) :
    checkMachine platform given (.text (ofChars machineId)) = .ok () := by
  cases given with
  | none => rfl
  | some id => simp [checkMachine,same id rfl,refuseIf]

theorem checkRevoked_build {revokedIds : Option (List (List Char))} {licenseId : List Char}
    (standing : ∀ ids ∈ revokedIds, licenseId ∉ ids) :
    checkRevoked revokedIds (.text (ofChars licenseId) : Value F) = .ok () := by
  cases revokedIds with
  | none => rfl
  | some ids =>
    have absent : ids.any (fun id => ofChars id = ofChars licenseId) = false := by
      rw [List.any_eq_false]
      intro id inside same
      have equal : id = licenseId := ofChars_injective (of_decide_eq_true same)
      exact standing ids rfl (equal ▸ inside)
    simp [checkRevoked,absent,refuseIf]

/-- A signed key is read as its payload on its machine; what is accepted carries a body that was signed, and the machine
id it was asked for is the licensed one. -/
theorem license_codec (platform : Platform F) (key : KeyPair) :
    (∀ licenseId customer machineId edition issuedAt updatesUntil payload,
      payload = buildPayload platform licenseId customer machineId issuedAt updatesUntil edition →
      key.signed (canonicalJson platform (asDict payload)) →
      ∀ before after given revokedIds, (∀ c ∈ before, isSpace c = true) → (∀ c ∈ after, isSpace c = true) →
        (∀ id ∈ given, normalizeMachineId platform (ofChars id) = normalizeMachineId platform (ofChars machineId)) →
        (∀ ids ∈ revokedIds, licenseId ∉ ids) →
        verifyLicense platform key (before ++ signLicense platform key payload ++ after) given revokedIds = .ok payload) ∧
    (∀ keyString given revokedIds payload, verifyLicense platform key keyString given revokedIds = .ok payload →
      ∃ body signature, bodyAndSignature keyString = (.ok (body,signature) : Except (LicenseError F) _) ∧
        key.signed body ∧ (loadsBytes platform body).bind fromDict = some payload) ∧
    ∀ keyString given revokedIds payload, verifyLicense platform key keyString (some given) revokedIds = .ok payload →
      ∃ t, payload.machineId = .text t ∧ normalizeMachineId platform t = normalizeMachineId platform (ofChars given) := by
  refine ⟨?_,?_,?_⟩
  · rintro licenseId customer machineId edition issuedAt updatesUntil payload rfl signed before after given revokedIds
      first last same standing
    have writable : Writable (buildPayload platform licenseId customer machineId issuedAt updatesUntil edition) :=
      buildPayload_writable licenseId customer machineId issuedAt updatesUntil edition
    have loaded : (loadsBytes platform (canonicalJson platform (asDict
        (buildPayload platform licenseId customer machineId issuedAt updatesUntil edition)))).bind fromDict = some
          (buildPayload platform licenseId customer machineId issuedAt updatesUntil edition) := by
      rw [loadsBytes_canonicalJson writable,Option.bind_some,fromDict_record]
    exact verifyLicense_ok.mpr ⟨_,_,bodyAndSignature_signed first last,key.genuine _ signed,loaded,rfl,
      checkDate_isoformat updatesUntil,checkMachine_build same,checkRevoked_build standing⟩
  · intro keyString given revokedIds payload accepted
    obtain ⟨body,signature,parts,verified,loaded,_⟩ := verifyLicense_ok.mp accepted
    exact ⟨body,signature,parts,key.unforgeable body signature verified,loaded⟩
  · intro keyString given revokedIds payload accepted
    obtain ⟨_,_,_,_,_,_,_,machine,_⟩ := verifyLicense_ok.mp accepted
    exact checkMachine_some machine

def samplePlatform : Platform Unit where
  floats := ⟨fun _ => (),fun _ => ['0','.','0']⟩
  equalsOne _ := false
  loadsOther _ := none
  otherDate _ := false
  upper n := [if 97 ≤ n ∧ n ≤ 122 then n - 32 else n]
  yearText := Digits.padded 4

def samplePayload : LicensePayload Unit :=
  buildPayload samplePlatform ['L','I','C','-','1'] ['A','l','i',' ','"','T','r','a','d','e','r','s','"'] ['P','C','-','1']
    ⟨2026,10,29,29700000000,by decide,by decide,by decide,by decide,by decide,by decide,by decide⟩
    ⟨2027,10,29,by decide⟩ ['l','o','c','a','l']

/-- The key pair that has signed one licence. -/
def sampleKeyPair : KeyPair where
  sign message := 7 :: message
  verify message signature :=
    message = canonicalJson samplePlatform (asDict samplePayload) ∧ signature = 7 :: message
  signed message := message = canonicalJson samplePlatform (asDict samplePayload)
  genuine := by
    intro message signed
    simp [signed]
  unforgeable := by
    intro message signature verified
    exact (of_decide_eq_true verified).1

/-- The key of the sample, copied with a blank and a line end, on its machine. -/
theorem license_codec_copied : verifyLicense samplePlatform sampleKeyPair
    ([' '] ++ signLicense samplePlatform sampleKeyPair samplePayload ++ ['\n']) (some ['p','c',' ','-','1']) none =
      .ok samplePayload := by
  apply (license_codec samplePlatform sampleKeyPair).1 _ _ _ _ _ _ samplePayload rfl rfl
  · simp [isSpace]
  · simp [isSpace]
  · rintro id found
    cases found
    decide
  · intro day found
    cases found

end LicenseKeys
