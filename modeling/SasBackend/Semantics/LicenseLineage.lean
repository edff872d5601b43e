import Mathlib.Logic.Relation
import SasBackend.Library.Base64Url
import SasBackend.Library.Service
import SasBackend.Library.Transition
import SasBackend.Semantics.Licensing

/-! Licences of the local edition: issued, revoked, transferred and extended by the platform, and their keys checked by
a device against a signed revocation list.
A licence's id is its place in the table; keys, names and machine ids are lists of characters. A request on a licence holds
its row lock from reading it to its commit or abort; audit entries are left out.
-/
namespace LicenseLineage
open Licensing
open Outcome (refuseIf)
open Service (HTTPException)

structure LicensePayload where
  v : Nat
  licenseId : String
  edition : String
  customer : List Char
  machineId : List Char
  issuedAt : String
  updatesUntil : String
  deriving DecidableEq

structure RevocationDocument where
  v : Nat
  issuedAt : String
  revoked : List (String × String)
  deriving DecidableEq

/-- JSON, ISO dates and upper case of the standard library, as far as they are used. -/
structure Formats where
  payloadJson : LicensePayload → Bytes
  loadPayload : Bytes → Option LicensePayload
  load_payloadJson : ∀ payload, loadPayload (payloadJson payload) = some payload
  revocationJson : RevocationDocument → Bytes
  isoDate : Int → String
  fromIsoDate : String → Option Int
  from_isoDate : ∀ date, fromIsoDate (isoDate date) = some date
  isoMoment : Int → String
  upper : Char → List Char

/-- `licenseSigningPrivateKey`: the setting, which may be empty. -/
structure Environment where
  scheme : Scheme
  formats : Formats
  licenseSigningPrivateKey : Option scheme.PrivateKey

inductive LicenseError
  | malformedKey (detail : String)
  | badSignature
  | unsupportedVersion (v : Nat)
  | wrongMachine
  | revoked
  deriving DecidableEq

/-- What `str.split` and `str.strip` take as whitespace. -/
def isSpace (c : Char) : Bool :=
  let n := c.toNat
  (9 ≤ n && n ≤ 13) || (28 ≤ n && n ≤ 32) || n = 133 || n = 160 || n = 5760 || (8192 ≤ n && n ≤ 8202) ||
    n = 8232 || n = 8233 || n = 8239 || n = 8287 || n = 12288

def strip (text : List Char) : List Char := ((text.dropWhile isSpace).reverse.dropWhile isSpace).reverse

def normalizeMachineId (formats : Formats) (value : List Char) : List Char :=
  (value.filter fun c => !isSpace c).flatMap formats.upper

def keyPrefix : List Char := ['P','P','O','S','-']

def payloadVersion : Nat := 1

def editionLocal : String := "local"

variable (env : Environment)

def signLicense (payload : LicensePayload) (privateKey : env.scheme.PrivateKey) : List Char :=
  let body := env.formats.payloadJson payload
  keyPrefix ++ Base64Url.encode body ++ '.' :: Base64Url.encode (env.scheme.sign privateKey body)

def orMalformed {α : Type} (value : Option α) (detail : String) : Except LicenseError α :=
  match value with
  | some value => .ok value
  | none => .error (.malformedKey detail)

def verifyLicense (publicKey : env.scheme.PublicKey) (keyString : List Char) (machineId : Option (List Char))
    (revokedIds : Option (List String)) : Except LicenseError LicensePayload := do
  let key := strip keyString
  refuseIf (!keyPrefix.isPrefixOf key || key.count '.' ≠ 1) (.malformedKey "Not a PakPOS license key")
  let parts := key.drop keyPrefix.length
  let body ← orMalformed (Base64Url.decode (parts.takeWhile (· ≠ '.'))) "Not valid base64url"
  let signature ← orMalformed (Base64Url.decode ((parts.dropWhile (· ≠ '.')).drop 1)) "Not valid base64url"
  refuseIf (!env.scheme.verify publicKey body signature) .badSignature
  let payload ← orMalformed (env.formats.loadPayload body) "Payload is not a license"
  refuseIf (payload.v ≠ payloadVersion) (.unsupportedVersion payload.v)
  refuseIf (env.formats.fromIsoDate payload.updatesUntil).isNone (.malformedKey "Bad updates_until")
  refuseIf (machineId.any fun machineId =>
    normalizeMachineId env.formats machineId ≠ normalizeMachineId env.formats payload.machineId) .wrongMachine
  refuseIf (revokedIds.any (·.contains payload.licenseId)) .revoked
  return payload

structure SignedRevocation where
  document : RevocationDocument
  signature : Bytes

def buildRevocationDocument (revoked : List (String × Int)) (issuedAt : Int) : RevocationDocument :=
  ⟨payloadVersion,env.formats.isoMoment issuedAt,
    (revoked.mergeSort fun first second => first.1 ≤ second.1).map fun entry => (entry.1,env.formats.isoMoment entry.2)⟩

def verifyRevocationList (publicKey : env.scheme.PublicKey) (signed : SignedRevocation) :
    Except LicenseError (List String) :=
  if !env.scheme.verify publicKey (env.formats.revocationJson signed.document) signed.signature then .error .badSignature
  else .ok (signed.document.revoked.map Prod.fst)

inductive LicenseStatus
  | issued | active | revoked
  deriving DecidableEq

structure License where
  licenseId : String
  customerName : List Char
  phone : Option String
  email : Option String
  edition : String
  machineId : List Char
  issuedAt : Int
  updatesUntil : Int
  status : LicenseStatus
  transferCount : Nat
  previousLicenseId : Option Nat
  revokedAt : Option Int
  notes : Option String
  keyString : List Char
  deriving DecidableEq

structure LicenseIssue where
  customerName : List Char
  phone : Option String
  email : Option String
  machineId : List Char
  updatesUntil : Int
  notes : Option String

inductive Request
  | revoke
  | transfer (machineId : List Char) (notes : Option String)
  | extendUpdates (updatesUntil : Int)

def payloadOf (license : License) : LicensePayload :=
  ⟨payloadVersion,license.licenseId,license.edition,license.customerName,license.machineId,
    env.formats.isoMoment license.issuedAt,env.formats.isoDate license.updatesUntil⟩

def License.signed (license : License) (privateKey : env.scheme.PrivateKey) : License :=
  { license with keyString := signLicense env (payloadOf env license) privateKey }

def privateKey : Except HTTPException env.scheme.PrivateKey :=
  match env.licenseSigningPrivateKey with
  | some key => .ok key
  | none => .error ⟨503,"License signing is not configured (LICENSE_SIGNING_PRIVATE_KEY)"⟩

def wholeSecond (moment : Int) : Int := parseTime (utcIso moment)

/-- The row to insert; a license id that exists already is refused by its unique index. -/
def issueLicense (licenses : List License) (data : LicenseIssue) (licenseId : String) (now today : Int) :
    Except HTTPException License := do
  let key ← privateKey env
  refuseIf (data.updatesUntil < today) ⟨400,"updates_until is in the past"⟩
  refuseIf (licenses.any (·.licenseId = licenseId)) ⟨409,"Could not allocate a license id; retry"⟩
  let license : License :=
    ⟨licenseId,strip data.customerName,data.phone,data.email,editionLocal,strip data.machineId,wholeSecond now,
      data.updatesUntil,.issued,0,none,none,data.notes,[]⟩
  return license.signed env key

def revokeLicense (license : License) (now : Int) : Except HTTPException License :=
  if license.status = .revoked then .error ⟨409,"License is already revoked"⟩
  else .ok { license with status := .revoked, revokedAt := some now }

/-- The old row and the one to insert. -/
def transferLicense (licenses : List License) (id : Nat) (old : License) (machineId : List Char) (notes : Option String)
    (licenseId : String) (now : Int) : Except HTTPException (License × License) := do
  let key ← privateKey env
  refuseIf (old.status = .revoked) ⟨409,"A revoked license cannot be transferred"⟩
  let newMachine := strip machineId
  refuseIf (normalizeMachineId env.formats newMachine = normalizeMachineId env.formats old.machineId)
    ⟨400,"That is already the licensed machine"⟩
  refuseIf (licenses.any (·.licenseId = licenseId)) ⟨500,"Internal Server Error"⟩
  let new : License :=
    { old with
      licenseId := licenseId
      machineId := newMachine
      issuedAt := wholeSecond now
      status := .issued
      transferCount := old.transferCount + 1
      previousLicenseId := some id
      revokedAt := none
      notes := (notes.filter (· ≠ "")).or old.notes
      keyString := [] }
  return ({ old with status := .revoked, revokedAt := some now },new.signed env key)

def extendUpdates (license : License) (updatesUntil : Int) : Except HTTPException License := do
  refuseIf (license.status = .revoked) ⟨409,"A revoked license cannot be extended"⟩
  refuseIf (updatesUntil ≤ license.updatesUntil) ⟨400,"New date must be later than the current one"⟩
  let key ← privateKey env
  return { license with updatesUntil := updatesUntil }.signed env key

/-- A key that a committed request returned, the licence it belongs to and the machine it was asked for. -/
structure IssuedKey where
  keyString : List Char
  id : Nat
  machineId : List Char

/-- A request past its locking read. -/
structure Pending where
  request : Request
  id : Nat
  row : License

structure State where
  licenses : List License
  keys : List IssuedKey
  pending : List Pending

inductive Action
  | issue (data : LicenseIssue) (licenseId : String) (now today : Int)
  | lock (request : Request) (id : Nat)
  | commit (index : Nat) (licenseId : String) (now : Int)
  | abort (index : Nat)

/-- The committed request leaves the pending ones. -/
def finish (s : State) (index : Nat) (licenses : List License) (keys : List IssuedKey) : State :=
  ⟨licenses,s.keys ++ keys,s.pending.eraseIdx index⟩

def commit (s : State) (index : Nat) (p : Pending) (licenseId : String) (now : Int) : Except HTTPException State :=
  match p.request with
  | .revoke => do
    let license ← revokeLicense p.row now
    return finish s index (s.licenses.set p.id license) []
  | .transfer machineId notes => do
    let (old,new) ← transferLicense env s.licenses p.id p.row machineId notes licenseId now
    return finish s index (s.licenses.set p.id old ++ [new]) [⟨new.keyString,s.licenses.length,machineId⟩]
  | .extendUpdates updatesUntil => do
    let license ← extendUpdates env p.row updatesUntil
    return finish s index (s.licenses.set p.id license) [⟨license.keyString,p.id,p.row.machineId⟩]

def next (s : State) : Action → Option State
  | .issue data licenseId now today =>
    (issueLicense env s.licenses data licenseId now today).toOption.map fun license =>
      { s with
        licenses := s.licenses ++ [license]
        keys := s.keys ++ [⟨license.keyString,s.licenses.length,data.machineId⟩] }
  | .lock request id => do
    let row ← s.licenses[id]?
    if s.pending.all (·.id ≠ id) then some { s with pending := s.pending ++ [⟨request,id,row⟩] } else none
  | .commit index licenseId now => do
    let p ← s.pending[index]?
    (commit env s index p licenseId now).toOption
  | .abort index => some { s with pending := s.pending.eraseIdx index }

/-- What `GET` of the revocation list answers for the committed licences. -/
def signedRevocationList (licenses : List License) (key : env.scheme.PrivateKey) (now : Int) : SignedRevocation :=
  let rows := licenses.filter (·.status = .revoked)
  let document := buildRevocationDocument env (rows.map fun row => (row.licenseId,row.revokedAt.getD now)) now
  ⟨document,env.scheme.sign key (env.formats.revocationJson document)⟩

def Initial (s : State) : Prop := s.licenses = [] ∧ s.keys = [] ∧ s.pending = []

def Linked (licenses : List License) (id successor : Nat) : Prop :=
  ∃ license, licenses[successor]? = some license ∧ license.previousLicenseId = some id

/-- In one chain of licences linked by their previous one. -/
def Chained (licenses : List License) : Nat → Nat → Prop := Relation.EqvGen (Linked licenses)

def Standing (licenses : List License) (id : Nat) : Prop :=
  ∃ license, licenses[id]? = some license ∧ license.status ≠ .revoked

end LicenseLineage
