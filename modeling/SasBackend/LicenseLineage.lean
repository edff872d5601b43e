import Mathlib.Data.List.Basic
import Mathlib.Logic.Equiv.List
import SasBackend.Library.Outcome
import SasBackend.Semantics.LicenseLineage

/-! A device accepts an issued key exactly on its machine and while its licence stands, and a chain has one that stands.
A chain has a common root. A transfer revokes the licence it continues before it adds one to the chain; the row lock
keeps the row it has read.
-/
namespace LicenseLineage
open Licensing Transition
open Outcome (refuseIf refuseIf_ok)

variable {env : Environment} {s t : State} {licenses : List License} {row other : License} {id : Nat}
  {key : env.scheme.PrivateKey} {payload : LicensePayload}

theorem filter_dropWhile {α : Type} (space : α → Bool) (text : List α) :
    (text.dropWhile space).filter (fun c => !space c) = text.filter fun c => !space c := by
  induction text with
  | nil => rfl
  | cons c rest induction =>
    by_cases blank : space c <;> simp [blank,induction]

theorem normalize_strip (formats : Formats) (text : List Char) :
    normalizeMachineId formats (strip text) = normalizeMachineId formats text := by
  simp only [normalizeMachineId,strip]
  rw [List.filter_reverse,filter_dropWhile,List.filter_reverse,List.reverse_reverse,filter_dropWhile]

theorem strip_of_bare {text : List Char} (bare : ∀ c ∈ text, isSpace c = false) : strip text = text := by
  have keeps : ∀ text : List Char, (∀ c ∈ text, isSpace c = false) → text.dropWhile isSpace = text := by
    intro text bare
    cases text with
    | nil => rfl
    | cons c rest => simp [bare c List.mem_cons_self]
  rw [strip,keeps text bare,keeps text.reverse (by simpa using bare),List.reverse_reverse]

theorem alphabet_plain {c : Char} (letter : c.isAlphanum = true ∨ c = '-' ∨ c = '_') : isSpace c = false ∧ c ≠ '.' := by
  rcases letter with letter | rfl | rfl
  · have range : (48 ≤ c.toNat ∧ c.toNat ≤ 57) ∨ (65 ≤ c.toNat ∧ c.toNat ≤ 90) ∨ (97 ≤ c.toNat ∧ c.toNat ≤ 122) := by
      change ((decide (c.val ≥ 'A'.val ∧ c.val ≤ 'Z'.val) || (decide (c.val ≥ 'a'.val) && decide (c.val ≤ 'z'.val))) ||
        (decide (c.val ≥ '0'.val) && decide (c.val ≤ '9'.val))) = true at letter
      simp only [Bool.or_eq_true,Bool.and_eq_true,decide_eq_true_eq,ge_iff_le,UInt32.le_iff_toNat_le] at letter
      have bounds : 'A'.val.toNat = 65 ∧ 'Z'.val.toNat = 90 ∧ 'a'.val.toNat = 97 ∧ 'z'.val.toNat = 122 ∧
          '0'.val.toNat = 48 ∧ '9'.val.toNat = 57 := by decide
      simp only [Char.toNat]
      omega
    constructor
    · simp [isSpace]
      omega
    · rintro rfl
      simp at range
  · decide
  · decide

theorem keyPrefix_plain : ∀ c ∈ keyPrefix, isSpace c = false ∧ c ≠ '.' := by
  simp [keyPrefix,isSpace]

theorem key_bare (body signature : Bytes) :
    ∀ c ∈ keyPrefix ++ Base64Url.encode body ++ '.' :: Base64Url.encode signature, isSpace c = false := by
  intro c member
  simp only [List.mem_append,List.mem_cons] at member
  rcases member with (first | body) | rfl | signature
  · exact (keyPrefix_plain c first).1
  · exact (alphabet_plain (Base64Url.alphabet _ c body)).1
  · decide
  · exact (alphabet_plain (Base64Url.alphabet _ c signature)).1

theorem point_absent (bytes : Bytes) : '.' ∉ Base64Url.encode bytes := by
  intro member
  exact (alphabet_plain (Base64Url.alphabet bytes '.' member)).2 rfl

theorem point_once (body signature : Bytes) :
    (keyPrefix ++ Base64Url.encode body ++ '.' :: Base64Url.encode signature).count '.' = 1 := by
  have first : keyPrefix.count '.' = 0 := by decide
  simp [List.count_append,first,List.count_eq_zero_of_not_mem (point_absent _)]

theorem parts_of_key (payload : LicensePayload) (key : env.scheme.PrivateKey) :
    (signLicense env payload key).drop keyPrefix.length = Base64Url.encode (env.formats.payloadJson payload) ++
      '.' :: Base64Url.encode (env.scheme.sign key (env.formats.payloadJson payload)) := by
  simp [signLicense]

theorem body_of_parts (bytes : Bytes) (rest : List Char) :
    (Base64Url.encode bytes ++ '.' :: rest).takeWhile (· ≠ '.') = Base64Url.encode bytes := by
  have visible : ∀ c ∈ Base64Url.encode bytes, decide (c ≠ '.') = true := by
    intro c member
    exact decide_eq_true (alphabet_plain (Base64Url.alphabet bytes c member)).2
  rw [List.takeWhile_append_of_pos visible]
  simp

theorem signature_of_parts (bytes : Bytes) (rest : List Char) :
    ((Base64Url.encode bytes ++ '.' :: rest).dropWhile (· ≠ '.')).drop 1 = rest := by
  have visible : ∀ c ∈ Base64Url.encode bytes, decide (c ≠ '.') = true := by
    intro c member
    exact decide_eq_true (alphabet_plain (Base64Url.alphabet bytes c member)).2
  rw [List.dropWhile_append_of_pos visible]
  simp

theorem verifyLicense_signed {date : Int} (version : payload.v = payloadVersion)
    (dated : payload.updatesUntil = env.formats.isoDate date) (machineId : List Char) (revokedIds : List String) :
    (∃ verified, verifyLicense env (env.scheme.publicKeyFor key) (signLicense env payload key) machineId revokedIds =
        .ok verified) ↔
      normalizeMachineId env.formats machineId = normalizeMachineId env.formats payload.machineId ∧
        payload.licenseId ∉ revokedIds := by
  have leads : keyPrefix.isPrefixOf (signLicense env payload key) = true := by
    simp [signLicense]
  have bare : strip (signLicense env payload key) = signLicense env payload key := strip_of_bare (key_bare _ _)
  have once : (signLicense env payload key).count '.' = 1 := point_once _ _
  unfold verifyLicense
  simp only [bare,leads,once,parts_of_key,body_of_parts,signature_of_parts,
    Base64Url.decode_encode]
  by_cases machine : normalizeMachineId env.formats machineId = normalizeMachineId env.formats payload.machineId <;>
    by_cases revoked : payload.licenseId ∈ revokedIds <;>
    simp [refuseIf,orMalformed,env.scheme.genuine,env.formats.load_payloadJson,version,dated,env.formats.from_isoDate,
      machine,revoked,bind,Except.bind,pure,Except.pure]

theorem verifyRevocationList_signed (licenses : List License) (key : env.scheme.PrivateKey) (now : Int) :
    ∃ ids, verifyRevocationList env (env.scheme.publicKeyFor key) (signedRevocationList env licenses key now) = .ok ids ∧
      ∀ licenseId, licenseId ∈ ids ↔ ∃ row ∈ licenses, row.status = .revoked ∧ row.licenseId = licenseId := by
  refine ⟨_,by rw [verifyRevocationList,signedRevocationList,env.scheme.genuine]; rfl,?_⟩
  intro licenseId
  simp [buildRevocationDocument,List.mem_mergeSort,and_assoc]

/-- Linked licences have one root, and each root has at most one licence that stands. -/
structure Lineage (licenses : List License) (root : Nat → Nat) : Prop where
  linked : ∀ id successor, Linked licenses id successor → root id = root successor ∧ id < licenses.length
  single : ∀ i j, Standing licenses i → Standing licenses j → root i = root j → i = j
  bounded : ∀ id, id < licenses.length → root id < licenses.length

theorem Lineage.chained {root : Nat → Nat} (lineage : Lineage licenses root) {i j : Nat} (chained : Chained licenses i j) :
    root i = root j := by
  induction chained with
  | rel i j link => exact (lineage.linked i j link).1
  | refl i => rfl
  | symm i j _ induction => exact induction.symm
  | trans i j k _ _ first second => exact first.trans second

theorem set_row {found : License} {place : Nat} (there : (licenses.set id row)[place]? = some found) :
    (place = id ∧ found = row) ∨ (place ≠ id ∧ licenses[place]? = some found) := by
  rw [List.getElem?_set] at there
  grind

theorem append_row {found : License} {place : Nat} (there : (licenses ++ [row])[place]? = some found) :
    (place = licenses.length ∧ found = row) ∨ (place < licenses.length ∧ licenses[place]? = some found) := by
  rw [List.getElem?_append] at there
  split at there
  · next inside => exact .inr ⟨inside,there⟩
  · next outside =>
    rw [List.getElem?_singleton] at there
    split at there
    · exact .inl ⟨by omega,(Option.some.inj there).symm⟩
    · simp at there

/-- The row keeps its identity and its place in the chain, and does not stand up again. -/
structure Revision (old new : License) : Prop where
  licenseId : new.licenseId = old.licenseId
  previous : new.previousLicenseId = old.previousLicenseId
  fallen : new.status ≠ .revoked → old.status ≠ .revoked

theorem standing_set {old : License} (found : licenses[id]? = some old) (revision : Revision old row) {place : Nat}
    (standing : Standing (licenses.set id row) place) : Standing licenses place := by
  obtain ⟨now,there,live⟩ := standing
  rcases set_row there with ⟨rfl,rfl⟩ | ⟨_,there⟩
  · exact ⟨old,found,revision.fallen live⟩
  · exact ⟨now,there,live⟩

theorem Lineage.set {root : Nat → Nat} (lineage : Lineage licenses root) {old : License} (found : licenses[id]? = some old)
    (revision : Revision old row) : Lineage (licenses.set id row) root := by
  refine ⟨?_,?_,by simpa using lineage.bounded⟩
  · intro place successor link
    rw [List.length_set]
    obtain ⟨now,there,previous⟩ := link
    rcases set_row there with ⟨rfl,rfl⟩ | ⟨_,there⟩
    · exact lineage.linked place successor ⟨old,found,revision.previous ▸ previous⟩
    · exact lineage.linked place successor ⟨now,there,previous⟩
  · intro i j first second
    exact lineage.single i j (standing_set found revision first) (standing_set found revision second)

theorem standing_append {place : Nat} (standing : Standing (licenses ++ [row]) place) :
    place = licenses.length ∨ (place < licenses.length ∧ Standing licenses place) := by
  obtain ⟨now,there,live⟩ := standing
  rcases append_row there with ⟨same,_⟩ | ⟨inside,there⟩
  · exact .inl same
  · exact .inr ⟨inside,now,there,live⟩

/-- A new licence starts a chain, or continues one in which none stands. -/
theorem Lineage.append {root : Nat → Nat} (lineage : Lineage licenses root)
    (continues : ∀ id ∈ row.previousLicenseId, id < licenses.length ∧
      ∀ place, Standing licenses place → root place ≠ root id) :
    ∃ root, Lineage (licenses ++ [row]) root := by
  let founded := (row.previousLicenseId.map root).getD licenses.length
  have apart : ∀ place, place < licenses.length → Standing licenses place → root place ≠ founded := by
    intro place inside standing same
    cases previous : row.previousLicenseId with
    | none =>
      have bound := lineage.bounded place inside
      simp only [founded,previous,Option.map_none,Option.getD_none] at same
      omega
    | some id => exact (continues id (by simp [previous])).2 place standing (by simpa [founded,previous] using same)
  have old : ∀ place, place < licenses.length →
      Function.update root licenses.length founded place = root place := by
    intro place inside
    exact Function.update_of_ne (by omega) _ _
  refine ⟨Function.update root licenses.length founded,?_,?_,?_⟩
  · intro id successor link
    obtain ⟨now,there,previous⟩ := link
    rcases append_row there with ⟨rfl,rfl⟩ | ⟨inside,there⟩
    · have before := (continues id (by simp [previous])).1
      rw [old id before,List.length_append,List.length_singleton]
      exact ⟨by simp [founded,previous],by omega⟩
    · have joined := lineage.linked id successor ⟨now,there,previous⟩
      rw [old successor inside,old id joined.2,List.length_append,List.length_singleton]
      exact ⟨joined.1,by omega⟩
  · intro i j first second same
    rcases standing_append first with rfl | ⟨inside,standing⟩ <;>
      rcases standing_append second with rfl | ⟨within,upright⟩
    · rfl
    · rw [Function.update_self,old j within] at same
      exact absurd same.symm (apart j within upright)
    · rw [Function.update_self,old i inside] at same
      exact absurd same (apart i inside standing)
    · rw [old i inside,old j within] at same
      exact lineage.single i j standing upright same
  · intro id inside
    simp only [List.length_append,List.length_singleton] at inside ⊢
    by_cases last : id = licenses.length
    · subst last
      cases previous : row.previousLicenseId with
      | none => simp [founded,previous]
      | some id =>
        have bound := lineage.bounded id (continues id (by simp [previous])).1
        simp only [Function.update_self,founded,previous,Option.map_some,Option.getD_some]
        omega
    · have bound := lineage.bounded id (by omega)
      rw [old id (by omega)]
      omega

/-- The key was signed for the licence, on the machine it was asked for. -/
def IssuedKey.Genuine (env : Environment) (licenses : List License) (issued : IssuedKey) : Prop :=
  ∃ key payload row date, env.licenseSigningPrivateKey = some key ∧ licenses[issued.id]? = some row ∧
    issued.keyString = signLicense env payload key ∧ payload.licenseId = row.licenseId ∧ payload.v = payloadVersion ∧
    payload.updatesUntil = env.formats.isoDate date ∧
    normalizeMachineId env.formats payload.machineId = normalizeMachineId env.formats issued.machineId

structure Invariant (env : Environment) (s : State) : Prop where
  lineage : ∃ root, Lineage s.licenses root
  ids : ∀ (i j : Nat) (first second : License), s.licenses[i]? = some first → s.licenses[j]? = some second →
    first.licenseId = second.licenseId → i = j
  keys : ∀ issued ∈ s.keys, issued.Genuine env s.licenses
  read : ∀ p ∈ s.pending, s.licenses[p.id]? = some p.row
  alone : s.pending.Pairwise fun p other => p.id ≠ other.id

theorem IssuedKey.Genuine.set {issued : IssuedKey} {old : License} (genuine : issued.Genuine env licenses)
    (found : licenses[id]? = some old) (revision : Revision old row) : issued.Genuine env (licenses.set id row) := by
  obtain ⟨key,payload,stored,date,configured,there,signed,same,rest⟩ := genuine
  by_cases here : issued.id = id
  · have equal : stored = old := by
      rw [here,found] at there
      exact (Option.some.inj there).symm
    subst equal
    have inside : id < licenses.length := (List.getElem?_eq_some_iff.mp found).1
    exact ⟨key,payload,row,date,configured,by simp [here,inside],signed,same.trans revision.licenseId.symm,rest⟩
  · exact ⟨key,payload,stored,date,configured,by rw [List.getElem?_set_ne (Ne.symm here),there],signed,same,rest⟩

theorem IssuedKey.Genuine.append {issued : IssuedKey} (genuine : issued.Genuine env licenses) :
    issued.Genuine env (licenses ++ [row]) := by
  obtain ⟨key,payload,stored,date,configured,there,rest⟩ := genuine
  have inside := (List.getElem?_eq_some_iff.mp there).1
  exact ⟨key,payload,stored,date,configured,by rw [List.getElem?_append_left inside,there],rest⟩

theorem genuine_signed {date : Int} {machineId : List Char} (configured : env.licenseSigningPrivateKey = some key)
    (found : licenses[id]? = some (row.signed env key))
    (machine : normalizeMachineId env.formats row.machineId = normalizeMachineId env.formats machineId)
    (dated : row.updatesUntil = date) :
    IssuedKey.Genuine env licenses ⟨(row.signed env key).keyString,id,machineId⟩ :=
  ⟨key,payloadOf env row,row.signed env key,date,configured,found,rfl,rfl,rfl,by rw [← dated]; rfl,machine⟩

theorem ids_set {old : License} (found : licenses[id]? = some old) (revision : Revision old row)
    (ids : ∀ (i j : Nat) (first second : License), licenses[i]? = some first → licenses[j]? = some second →
      first.licenseId = second.licenseId → i = j) (i j : Nat) (first second : License)
    (one : (licenses.set id row)[i]? = some first) (two : (licenses.set id row)[j]? = some second)
    (same : first.licenseId = second.licenseId) : i = j := by
  have origin : ∀ (place : Nat) (now : License), (licenses.set id row)[place]? = some now →
      ∃ before, licenses[place]? = some before ∧ before.licenseId = now.licenseId := by
    intro place now there
    rcases set_row there with ⟨rfl,rfl⟩ | ⟨_,there⟩
    · exact ⟨old,found,revision.licenseId.symm⟩
    · exact ⟨now,there,rfl⟩
  obtain ⟨before,there,equal⟩ := origin i first one
  obtain ⟨last,beside,equal'⟩ := origin j second two
  exact ids i j before last there beside (equal.trans (same.trans equal'.symm))

theorem ids_append (ids : ∀ (i j : Nat) (first second : License), licenses[i]? = some first →
      licenses[j]? = some second → first.licenseId = second.licenseId → i = j)
    (fresh : ∀ other ∈ licenses, other.licenseId ≠ row.licenseId) (i j : Nat) (first second : License)
    (one : (licenses ++ [row])[i]? = some first) (two : (licenses ++ [row])[j]? = some second)
    (same : first.licenseId = second.licenseId) : i = j := by
  rcases append_row one with ⟨rfl,rfl⟩ | ⟨_,there⟩ <;> rcases append_row two with ⟨rfl,rfl⟩ | ⟨_,beside⟩
  · rfl
  · exact absurd same.symm (fresh second (List.mem_of_getElem? beside))
  · exact absurd same (fresh first (List.mem_of_getElem? there))
  · exact ids i j first second there beside same

theorem erase_pairwise {index : Nat} {p : Pending} (alone : s.pending.Pairwise fun p other => p.id ≠ other.id)
    (found : s.pending[index]? = some p) : ∀ other ∈ s.pending.eraseIdx index, other.id ≠ p.id := by
  intro other member
  obtain ⟨place,different,there⟩ := List.mem_eraseIdx_iff_getElem?.mp member
  rw [List.pairwise_iff_getElem] at alone
  obtain ⟨inside,rfl⟩ := List.getElem?_eq_some_iff.mp found
  obtain ⟨within,rfl⟩ := List.getElem?_eq_some_iff.mp there
  rcases Nat.lt_or_gt_of_ne different with before | later
  · exact alone place index within inside before
  · exact Ne.symm (alone index place inside within later)

theorem Invariant.revise (holds : Invariant env s) {index : Nat} {p : Pending} (found : s.pending[index]? = some p)
    (revision : Revision p.row row) (keys : List IssuedKey)
    (genuine : ∀ issued ∈ keys, issued.Genuine env (s.licenses.set p.id row)) :
    Invariant env (finish s index (s.licenses.set p.id row) keys) := by
  have read := holds.read p (List.mem_of_getElem? found)
  obtain ⟨root,lineage⟩ := holds.lineage
  refine ⟨⟨root,lineage.set read revision⟩,ids_set read revision holds.ids,?_,?_,?_⟩
  · intro issued member
    rcases List.mem_append.mp member with old | new
    · exact (holds.keys issued old).set read revision
    · exact genuine issued new
  · intro other member
    have away := erase_pairwise holds.alone found other member
    have stored := holds.read other (List.mem_of_mem_eraseIdx member)
    simpa [finish,List.getElem?_set_ne (Ne.symm away)] using stored
  · exact holds.alone.sublist (List.eraseIdx_sublist _ _)

theorem Invariant.insert (holds : Invariant env s) (fresh : ∀ other ∈ s.licenses, other.licenseId ≠ row.licenseId)
    {root : Nat → Nat} (lineage : Lineage s.licenses root)
    (continues : ∀ id ∈ row.previousLicenseId, id < s.licenses.length ∧
      ∀ place, Standing s.licenses place → root place ≠ root id) (issued : IssuedKey)
    (genuine : issued.Genuine env (s.licenses ++ [row])) :
    Invariant env ⟨s.licenses ++ [row],s.keys ++ [issued],s.pending⟩ := by
  refine ⟨lineage.append continues,ids_append holds.ids fresh,?_,?_,holds.alone⟩
  · intro each member
    rcases List.mem_append.mp member with old | new
    · exact (holds.keys each old).append
    · exact List.mem_singleton.mp new ▸ genuine
  · intro p member
    have stored := holds.read p member
    rw [List.getElem?_append_left (List.getElem?_eq_some_iff.mp stored).1,stored]

theorem privateKey_ok (found : privateKey env = .ok key) : env.licenseSigningPrivateKey = some key := by
  unfold privateKey at found
  split at found
  · next configured =>
    cases found
    exact configured
  · cases found

theorem revokeLicense_ok {now : Int} {revoked : License} (done : revokeLicense row now = .ok revoked) :
    Revision row revoked := by
  unfold revokeLicense at done
  split at done
  · cases done
  · next standing =>
    cases done
    exact ⟨rfl,rfl,fun _ => standing⟩

theorem issueLicense_ok {data : LicenseIssue} {licenseId : String} {now today : Int} {issued : License}
    (done : issueLicense env licenses data licenseId now today = .ok issued) :
    (∀ other ∈ licenses, other.licenseId ≠ issued.licenseId) ∧ issued.previousLicenseId = none ∧
      ∃ (key : env.scheme.PrivateKey) (bare : License), env.licenseSigningPrivateKey = some key ∧
        issued = bare.signed env key ∧ bare.machineId = strip data.machineId := by
  obtain ⟨key,configured,done⟩ := Outcome.bind_ok_iff.mp done
  obtain ⟨_,_,done⟩ := Outcome.bind_ok_iff.mp done
  obtain ⟨_,fresh,done⟩ := Outcome.bind_ok_iff.mp done
  cases done
  exact ⟨by simpa [License.signed] using refuseIf_ok.mp fresh,rfl,key,_,privateKey_ok configured,rfl,rfl⟩

theorem transferLicense_ok {machineId : List Char} {notes : Option String} {licenseId : String} {now : Int}
    {old new : License} (done : transferLicense env licenses id row machineId notes licenseId now = .ok (old,new)) :
    Revision row old ∧ row.status ≠ .revoked ∧ old.status = .revoked ∧
      (∀ other ∈ licenses, other.licenseId ≠ new.licenseId) ∧ new.previousLicenseId = some id ∧
      ∃ (key : env.scheme.PrivateKey) (bare : License), env.licenseSigningPrivateKey = some key ∧
        new = bare.signed env key ∧ bare.machineId = strip machineId := by
  obtain ⟨key,configured,done⟩ := Outcome.bind_ok_iff.mp done
  obtain ⟨_,standing,done⟩ := Outcome.bind_ok_iff.mp done
  obtain ⟨_,_,done⟩ := Outcome.bind_ok_iff.mp done
  obtain ⟨_,fresh,done⟩ := Outcome.bind_ok_iff.mp done
  cases done
  exact ⟨⟨rfl,rfl,by simp⟩,of_decide_eq_false (refuseIf_ok.mp standing),rfl,
    by simpa [License.signed] using refuseIf_ok.mp fresh,rfl,key,_,privateKey_ok configured,rfl,rfl⟩

theorem extendUpdates_ok {updatesUntil : Int} {extended : License}
    (done : extendUpdates env row updatesUntil = .ok extended) : Revision row extended ∧
      ∃ (key : env.scheme.PrivateKey) (bare : License), env.licenseSigningPrivateKey = some key ∧
        extended = bare.signed env key ∧ bare.machineId = row.machineId := by
  obtain ⟨_,standing,done⟩ := Outcome.bind_ok_iff.mp done
  obtain ⟨_,_,done⟩ := Outcome.bind_ok_iff.mp done
  obtain ⟨key,configured,done⟩ := Outcome.bind_ok_iff.mp done
  cases done
  exact ⟨⟨rfl,rfl,fun _ => of_decide_eq_false (refuseIf_ok.mp standing)⟩,key,_,privateKey_ok configured,rfl,rfl⟩

theorem Invariant.commit {index : Nat} {p : Pending} {licenseId : String} {now : Int} (holds : Invariant env s)
    (found : s.pending[index]? = some p) (done : LicenseLineage.commit env s index p licenseId now = .ok t) :
    Invariant env t := by
  have read := holds.read p (List.mem_of_getElem? found)
  have inside : p.id < s.licenses.length := (List.getElem?_eq_some_iff.mp read).1
  unfold LicenseLineage.commit at done
  split at done
  next =>
    obtain ⟨license,revoked,done⟩ := Outcome.bind_ok_iff.mp done
    cases done
    exact holds.revise found (revokeLicense_ok revoked) [] (by simp)
  next machineId notes _ =>
    obtain ⟨⟨old,new⟩,transferred,done⟩ := Outcome.bind_ok_iff.mp done
    cases done
    obtain ⟨revision,standing,revoked,fresh,previous,key,bare,configured,rfl,machine⟩ := transferLicense_ok transferred
    obtain ⟨root,lineage⟩ := holds.lineage
    have emptied := holds.revise found revision [] (by simp)
    have inserted : Invariant env ⟨s.licenses.set p.id old ++ [bare.signed env key],
        s.keys ++ [] ++ [⟨(bare.signed env key).keyString,s.licenses.length,machineId⟩],s.pending.eraseIdx index⟩ :=
      emptied.insert ?_ (lineage.set read revision) ?_ _ ?_
    · simpa [finish] using inserted
    · intro other member
      rcases List.mem_or_eq_of_mem_set member with stored | rfl
      · exact fresh other stored
      · rw [revision.licenseId]
        exact fresh p.row (List.mem_of_getElem? read)
    · intro id same
      cases (Option.some.inj (previous.symm.trans same))
      refine ⟨by simpa [finish] using inside,?_⟩
      intro place upright joined
      have before := standing_set read revision upright
      have here := lineage.single place p.id before ⟨p.row,read,standing⟩ joined
      obtain ⟨now,there,live⟩ := upright
      rw [here] at there
      simp only [finish,List.getElem?_set_self inside,Option.some.injEq] at there
      exact live (there ▸ revoked)
    · exact genuine_signed configured (by simp [finish]) (by rw [machine,normalize_strip]) rfl
  next updatesUntil _ =>
    obtain ⟨extended,granted,done⟩ := Outcome.bind_ok_iff.mp done
    cases done
    obtain ⟨revision,key,bare,configured,rfl,machine⟩ := extendUpdates_ok granted
    apply holds.revise found revision
    intro issued member
    rw [List.mem_singleton.mp member]
    exact genuine_signed configured (by simp [inside]) (by rw [machine]) rfl

theorem Invariant.step {a : Action} (holds : Invariant env s) (taken : next env s a = some t) : Invariant env t := by
  cases a with
  | issue data licenseId now today =>
    simp only [next,Option.map_eq_some_iff,Outcome.toOption_eq_some] at taken
    obtain ⟨license,issued,rfl⟩ := taken
    obtain ⟨fresh,first,key,bare,configured,rfl,machine⟩ := issueLicense_ok issued
    obtain ⟨root,lineage⟩ := holds.lineage
    apply holds.insert fresh lineage (by simp [first])
    exact genuine_signed configured (by simp) (by rw [machine,normalize_strip]) rfl
  | lock request id =>
    simp only [next,Option.bind_eq_bind,Option.bind_eq_some_iff,Option.ite_none_right_eq_some,Option.some.injEq] at taken
    obtain ⟨row,found,free,rfl⟩ := taken
    refine ⟨holds.lineage,holds.ids,holds.keys,?_,?_⟩
    · intro p member
      rcases List.mem_append.mp member with old | new
      · exact holds.read p old
      · rw [List.mem_singleton.mp new]
        exact found
    · rw [List.pairwise_append]
      exact ⟨holds.alone,List.pairwise_singleton _ _,by simpa using free⟩
  | commit index licenseId now =>
    simp only [next,Option.bind_eq_bind,Option.bind_eq_some_iff,Outcome.toOption_eq_some] at taken
    obtain ⟨p,found,done⟩ := taken
    exact holds.commit found done
  | abort index =>
    cases taken
    exact ⟨holds.lineage,holds.ids,holds.keys,fun p member => holds.read p (List.mem_of_mem_eraseIdx member),
      holds.alone.sublist (List.eraseIdx_sublist _ _)⟩

theorem Initial.invariant (initial : Initial s) : Invariant env s := by
  obtain ⟨none_stored,none_issued,none_pending⟩ := initial
  refine ⟨⟨id,?_⟩,by simp [none_stored],by simp [none_issued],by simp [none_pending],by simp [none_pending]⟩
  constructor <;> simp [none_stored,Linked,Standing]

/-- No step lets a licence stand again. -/
theorem standing_step {a : Action} (holds : Invariant env s) (taken : next env s a = some t) :
    s.licenses.length ≤ t.licenses.length ∧ ∀ place < s.licenses.length, Standing t.licenses place → Standing s.licenses place := by
  cases a with
  | issue data licenseId now today =>
    simp only [next,Option.map_eq_some_iff] at taken
    obtain ⟨license,_,rfl⟩ := taken
    refine ⟨by simp,fun place inside standing => ?_⟩
    rcases standing_append standing with rfl | ⟨_,before⟩
    · exact absurd inside (lt_irrefl _)
    · exact before
  | lock request id =>
    simp only [next,Option.bind_eq_bind,Option.bind_eq_some_iff,Option.ite_none_right_eq_some,Option.some.injEq] at taken
    obtain ⟨_,_,_,rfl⟩ := taken
    exact ⟨le_rfl,fun _ _ standing => standing⟩
  | commit index licenseId now =>
    simp only [next,Option.bind_eq_bind,Option.bind_eq_some_iff,Outcome.toOption_eq_some] at taken
    obtain ⟨p,found,done⟩ := taken
    have read := holds.read p (List.mem_of_getElem? found)
    unfold LicenseLineage.commit at done
    split at done
    next =>
      obtain ⟨license,revoked,done⟩ := Outcome.bind_ok_iff.mp done
      cases done
      exact ⟨by simp [finish],fun place _ => standing_set read (revokeLicense_ok revoked)⟩
    next =>
      obtain ⟨⟨old,new⟩,transferred,done⟩ := Outcome.bind_ok_iff.mp done
      cases done
      refine ⟨by simp [finish],fun place inside standing => standing_set read (transferLicense_ok transferred).1 ?_⟩
      rcases standing_append standing with rfl | ⟨_,before⟩
      · simp at inside
      · exact before
    next =>
      obtain ⟨extended,granted,done⟩ := Outcome.bind_ok_iff.mp done
      cases done
      exact ⟨by simp [finish],fun place _ => standing_set read (extendUpdates_ok granted).1⟩
  | abort index =>
    cases taken
    exact ⟨le_rfl,fun _ _ standing => standing⟩

theorem fallen_commit {index : Nat} {p : Pending} {licenseId : String} {now : Int} (holds : Invariant env s)
    (found : s.pending[index]? = some p) (ends : ∀ updatesUntil, p.request ≠ .extendUpdates updatesUntil)
    (done : LicenseLineage.commit env s index p licenseId now = .ok t) : p.id < t.licenses.length ∧ ¬Standing t.licenses p.id := by
  have read := holds.read p (List.mem_of_getElem? found)
  have inside : p.id < s.licenses.length := (List.getElem?_eq_some_iff.mp read).1
  unfold LicenseLineage.commit at done
  split at done
  next =>
    obtain ⟨license,revoked,done⟩ := Outcome.bind_ok_iff.mp done
    cases done
    unfold revokeLicense at revoked
    split at revoked <;> cases revoked
    simp [Standing,finish,inside]
  next =>
    obtain ⟨⟨old,new⟩,transferred,done⟩ := Outcome.bind_ok_iff.mp done
    cases done
    have fallen := (transferLicense_ok transferred).2.2.1
    have place : (s.licenses.set p.id old ++ [new])[p.id]? = some old := by
      rw [List.getElem?_append_left (by simpa using inside),List.getElem?_set_self inside]
    refine ⟨by simp [finish]; omega,?_⟩
    rintro ⟨row,there,live⟩
    exact live (Option.some.inj (place.symm.trans there) ▸ fallen)
  next updatesUntil same => exact absurd same (ends updatesUntil)

theorem revoked_for_good {index : Nat} {p : Pending} {licenseId : String} {now : Int} {labels : List Action} {u : State}
    (reached : Reachable Initial (OfNext (next env)) s) (found : s.pending[index]? = some p)
    (ends : ∀ updatesUntil, p.request ≠ .extendUpdates updatesUntil)
    (done : LicenseLineage.commit env s index p licenseId now = .ok t) (run : Run (OfNext (next env)) t labels u) :
    ¬Standing u.licenses p.id := by
  have holds : Invariant env s := reached.invariant (fun s initial => initial.invariant) fun s a t kept taken => kept.step taken
  have preserved : ∀ before a after, (Invariant env before ∧ p.id < before.licenses.length ∧ ¬Standing before.licenses p.id) →
      OfNext (next env) before a after → Invariant env after ∧ p.id < after.licenses.length ∧ ¬Standing after.licenses p.id := by
    rintro before a after ⟨invariant,inside,fallen⟩ taken
    obtain ⟨longer,standing⟩ := standing_step invariant taken
    exact ⟨invariant.step taken,inside.trans_le longer,fun stands => fallen (standing _ inside stands)⟩
  exact (run.invariant preserved ⟨holds.commit found done,fallen_commit holds found ends done⟩).2.2

/-- Of the licences of a chain at most one stands; and a device that is given any key ever issued and the list signed in
the state accepts it exactly on the machine it was issued for while its licence stands. -/
theorem license_lineage (env : Environment) (s : State) (reached : Reachable Initial (OfNext (next env)) s) :
    (∀ i j, Chained s.licenses i j → Standing s.licenses i → Standing s.licenses j → i = j) ∧
      ∀ key, env.licenseSigningPrivateKey = some key → ∀ issued ∈ s.keys, ∀ (machineId : List Char) (now : Int),
        ∃ ids, verifyRevocationList env (env.scheme.publicKeyFor key) (signedRevocationList env s.licenses key now) =
            .ok ids ∧
          ((∃ payload, verifyLicense env (env.scheme.publicKeyFor key) issued.keyString machineId ids = .ok payload) ↔
            normalizeMachineId env.formats machineId = normalizeMachineId env.formats issued.machineId ∧
              Standing s.licenses issued.id) := by
  have holds : Invariant env s := reached.invariant (fun s initial => initial.invariant) fun s a t kept taken => kept.step taken
  obtain ⟨root,lineage⟩ := holds.lineage
  refine ⟨fun i j chained first second => lineage.single i j first second (lineage.chained chained),?_⟩
  intro key configured issued member machineId now
  obtain ⟨ids,verified,revoked⟩ := verifyRevocationList_signed s.licenses key now
  refine ⟨ids,verified,?_⟩
  obtain ⟨used,payload,row,date,held,found,signed,same,version,dated,machine⟩ := holds.keys issued member
  cases Option.some.inj (configured.symm.trans held)
  rw [signed,verifyLicense_signed version dated,machine,revoked payload.licenseId]
  apply and_congr_right
  intro _
  constructor
  · intro unlisted
    exact ⟨row,found,fun fallen => unlisted ⟨row,List.mem_of_getElem? found,fallen,same.symm⟩⟩
  · intro standing listed
    obtain ⟨now,there,live⟩ := standing
    obtain ⟨other,stored,fallen,equal⟩ := listed
    obtain ⟨place,beside⟩ := List.mem_iff_getElem?.mp stored
    -- one licence has the id of the key
    have here := holds.ids place issued.id other row beside found (equal.trans same)
    rw [here,there] at beside
    exact live (Option.some.inj beside ▸ fallen)

instance encodableChar : Encodable Char := Encodable.ofLeftInverse Char.toNat Char.ofNat Char.ofNat_toNat

instance encodableString : Encodable String := Encodable.ofLeftInverse String.toList String.ofList fun _ => String.ofList_toList

instance encodablePayload : Encodable LicensePayload :=
  Encodable.ofLeftInverse
    (fun payload => (payload.v,payload.licenseId,payload.edition,payload.customer,payload.machineId,payload.issuedAt,
      payload.updatesUntil))
    (fun fields => ⟨fields.1,fields.2.1,fields.2.2.1,fields.2.2.2.1,fields.2.2.2.2.1,fields.2.2.2.2.2.1,
      fields.2.2.2.2.2.2⟩) fun _ => rfl

def firstPayload : LicensePayload :=
  ⟨1,"LIC-A",editionLocal,['A','l','i'],['P','C','1'],"2026-10-29T08:15:00Z","2027-10-29"⟩

def secondPayload : LicensePayload := { firstPayload with licenseId := "LIC-B", machineId := ['P','C','2'] }

def ascii (text : String) : Bytes := text.toList.map fun c => UInt8.ofNat c.toNat

/-- The canonical JSON of the payloads, by the last characters of licence id and machine id. -/
def sampleJson (letter digit : UInt8) : Bytes :=
  123 :: (ascii "\"customer\":\"Ali\",\"edition\":\"local\",\"issued_at\":\"2026-10-29T08:15:00Z\",\"license_id\":\"LIC-" ++
    letter :: ascii "\",\"machine_id\":\"PC" ++
    digit :: ascii "\",\"updates_until\":\"2027-10-29\",\"v\":1" ++ [125])

theorem replicate_ne_json (letter digit : UInt8) : ∀ n, List.replicate n (0 : UInt8) ≠ sampleJson letter digit := by
  intro n same
  cases n with
  | zero => simp [sampleJson] at same
  | succ n => simp [sampleJson,List.replicate_succ] at same

theorem json_differ : sampleJson 66 50 ≠ sampleJson 65 49 := by
  simp [sampleJson]

/-- JSON of the two payloads; any text will do for the others. -/
def sampleFormats : Formats where
  payloadJson payload :=
    if payload = firstPayload then sampleJson 65 49 else if payload = secondPayload then sampleJson 66 50
    else List.replicate (Encodable.encode payload) 0
  loadPayload body :=
    if body = sampleJson 65 49 then some firstPayload else if body = sampleJson 66 50 then some secondPayload
    else Encodable.decode body.length
  load_payloadJson := by
    intro payload
    by_cases one : payload = firstPayload
    · simp [one]
    · by_cases two : payload = secondPayload
      · subst two
        simp [one,json_differ]
      · simp [one,two,replicate_ne_json]
  revocationJson _ := []
  isoDate date :=
    if date = 0 then "2027-10-29" else String.ofList (List.replicate (Encodable.encode date) 'd')
  fromIsoDate text :=
    if text = "2027-10-29" then some 0 else Encodable.decode text.toList.length
  from_isoDate := by
    have other : ∀ n, String.ofList (List.replicate n 'd') ≠ "2027-10-29" := by
      intro n same
      have lead := congrArg (fun text : String => text.toList.head?) same
      cases n <;> simp [List.replicate_succ] at lead
    intro date
    by_cases zero : date = 0
    · simp [zero]
    · rw [if_neg zero,if_neg (other _),String.toList_ofList,List.length_replicate,Encodable.encodek]
  isoMoment _ := "2026-10-29T08:15:00Z"
  upper c := [c.toUpper]

def sampleEnvironment : Environment where
  scheme :=
    { PrivateKey := Bytes
      PublicKey := Bytes
      publicKeyFor := fun secret => secret
      sign := fun secret message => secret ++ message
      verify := fun shown message signature => signature = shown ++ message
      genuine := fun _ _ => decide_eq_true rfl }
  formats := sampleFormats
  licenseSigningPrivateKey := some [7]

def sampleKey : sampleEnvironment.scheme.PrivateKey := ([7] : Bytes)

def samplePublicKey : sampleEnvironment.scheme.PublicKey := sampleEnvironment.scheme.publicKeyFor sampleKey

def firstIssue : LicenseIssue := ⟨['A','l','i'],none,none,['P','C','1'],0,none⟩

/-- A licence for one machine, moved to another one. -/
def transferRun : List Action :=
  [.issue firstIssue "LIC-A" 0 0,.lock (.transfer [' ','P','C','2'] none) 0,.commit 0 "LIC-B" 0]

def keysAndStanding (s : State) : List (Nat × List Char) × List Bool :=
  (s.keys.map fun issued => (issued.id,issued.machineId),s.licenses.map fun license => license.status ≠ .revoked)

/-- After the transfer the old machine refuses the old key and the new one accepts the new key. -/
theorem license_lineage_transfer :
    ∃ (s : State) (old new : IssuedKey) (ids : List String), s.keys = [old,new] ∧
      verifyRevocationList sampleEnvironment samplePublicKey (signedRevocationList sampleEnvironment s.licenses sampleKey 0) =
        .ok ids ∧
      (¬∃ payload, verifyLicense sampleEnvironment samplePublicKey old.keyString (some ['P','C','1']) ids = .ok payload) ∧
      ∃ payload, verifyLicense sampleEnvironment samplePublicKey new.keyString (some ['P','C','2']) ids = .ok payload := by
  have base : Initial ⟨[],[],[]⟩ := ⟨rfl,rfl,rfl⟩
  obtain ⟨s,reached,view⟩ : ∃ s, Reachable Initial (OfNext (next sampleEnvironment)) s ∧
      keysAndStanding s = ([(0,['P','C','1']),(1,[' ','P','C','2'])],[false,true]) :=
    reachable_of_execute (next sampleEnvironment) keysAndStanding transferRun base (by decide +kernel)
  obtain ⟨keys,standing⟩ := Prod.ext_iff.mp view
  obtain ⟨-,accepted⟩ := license_lineage sampleEnvironment s reached
  obtain ⟨old,rest,found,ofOld,keys⟩ := List.map_eq_cons_iff.mp keys
  obtain ⟨new,rest,rfl,ofNew,keys⟩ := List.map_eq_cons_iff.mp keys
  obtain rfl := List.map_eq_nil_iff.mp keys
  obtain ⟨ids,verified,old_accepted⟩ := accepted sampleKey rfl old (by simp [found]) ['P','C','1'] 0
  obtain ⟨others,again,new_accepted⟩ := accepted sampleKey rfl new (by simp [found]) ['P','C','2'] 0
  obtain rfl := Except.ok.inj (verified.symm.trans again)
  simp only [Prod.mk.injEq] at ofOld ofNew
  rw [ofOld.1] at old_accepted
  rw [ofNew.1,ofNew.2] at new_accepted
  refine ⟨s,old,new,ids,found,verified,?_,new_accepted.mpr ⟨by decide +kernel,?_⟩⟩
  · intro held
    obtain ⟨license,there,live⟩ := (old_accepted.mp held).2
    have fallen := congrArg (·[0]?) standing
    simp [keysAndStanding,there,live] at fallen
  · have live := congrArg (·[1]?) standing
    simpa [keysAndStanding,Standing] using live

end LicenseLineage
