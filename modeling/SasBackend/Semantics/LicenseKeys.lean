import Mathlib.Data.List.Sort
import SasBackend.Library.Base64Url
import SasBackend.Library.IsoDate
import SasBackend.Library.JsonRoundTrip
import SasBackend.Semantics.LicenseLineage

/-! The text of a licence key: canonical JSON, base64url without padding, and a signature over the bytes of the JSON.
A payload that was read may hold any JSON value in a field. The keys of the vendor are well formed.
-/
namespace LicenseKeys
open Json
open Licensing (Bytes)
open LicenseLineage (strip keyPrefix)
open Outcome (refuseIf)

/-- An Ed25519 key pair and the messages that were signed with it. -/
structure KeyPair where
  sign : Bytes → Bytes
  verify : Bytes → Bytes → Bool
  signed : Bytes → Prop
  genuine : ∀ message, signed message → verify message (sign message) = true
  unforgeable : ∀ message signature, verify message signature = true → signed message

/-- What Python does with floating-point numbers, with bodies outside of ASCII, with dates in other forms than
`YYYY-MM-DD`, with upper case and with `%Y`. -/
structure Platform (F : Type) where
  floats : Floats F
  equalsOne : F → Bool
  loadsOther : Bytes → Option (Value F)
  otherDate : Text → Bool
  upper : Nat → Text
  yearText : Nat → List Char

variable {F : Type} (platform : Platform F) (key : KeyPair)

structure LicensePayload (F : Type) where
  v : Value F
  licenseId : Value F
  edition : Value F
  customer : Value F
  machineId : Value F
  issuedAt : Value F
  updatesUntil : Value F

def vKey : List Char := ['v']

def licenseIdKey : List Char := ['l','i','c','e','n','s','e','_','i','d']

def editionKey : List Char := ['e','d','i','t','i','o','n']

def customerKey : List Char := ['c','u','s','t','o','m','e','r']

def machineIdKey : List Char := ['m','a','c','h','i','n','e','_','i','d']

def issuedAtKey : List Char := ['i','s','s','u','e','d','_','a','t']

def updatesUntilKey : List Char := ['u','p','d','a','t','e','s','_','u','n','t','i','l']

def fieldKeys : List (List Char) :=
  [vKey,licenseIdKey,editionKey,customerKey,machineIdKey,issuedAtKey,updatesUntilKey]

def asDict (payload : LicensePayload F) : List (List Char × Value F) :=
  [(vKey,payload.v),(licenseIdKey,payload.licenseId),(editionKey,payload.edition),(customerKey,payload.customer),
    (machineIdKey,payload.machineId),(issuedAtKey,payload.issuedAt),(updatesUntilKey,payload.updatesUntil)]

/-- `LicensePayload(**data)`: each field once and no other. -/
def fromDict (data : Value F) : Option (LicensePayload F) :=
  match data with
  | .object members =>
    if members.all fun member => fieldKeys.any fun name => member.1 = ofChars name then do
      let v ← Value.get members vKey
      let licenseId ← Value.get members licenseIdKey
      let edition ← Value.get members editionKey
      let customer ← Value.get members customerKey
      let machineId ← Value.get members machineIdKey
      let issuedAt ← Value.get members issuedAtKey
      let updatesUntil ← Value.get members updatesUntilKey
      some ⟨v,licenseId,edition,customer,machineId,issuedAt,updatesUntil⟩
    else none
  | _ => none

/-- `str.encode` of ASCII text. -/
def encodeText (text : List Char) : Bytes := text.map fun c => UInt8.ofNat c.toNat

def canonicalJson (fields : List (List Char × Value F)) : Bytes :=
  encodeText (dumps platform.floats [] (record (fields.insertionSort fun field other => field.1 ≤ other.1)))

def loadsBytes (body : Bytes) : Option (Value F) :=
  if body.all fun b => 0 < b.toNat && b.toNat < 128 then loads platform.floats (body.map fun b => Char.ofNat b.toNat)
  else platform.loadsOther body

def utcIso (moment : Calendar.Moment) : List Char :=
  let seconds := moment.time / 1000000
  platform.yearText moment.year ++ '-' :: Digits.padded 2 moment.month ++ '-' :: Digits.padded 2 moment.day ++
    'T' :: Digits.padded 2 (seconds / 3600) ++ ':' :: Digits.padded 2 (seconds / 60 % 60) ++
    ':' :: Digits.padded 2 (seconds % 60) ++ ['Z']

def normalizeMachineId (value : Text) : Text := (value.filter fun n => !LicenseLineage.isSpace (Char.ofNat n)).flatMap platform.upper

def payloadVersion : Int := 1

def buildPayload (licenseId customer machineId : List Char) (issuedAt : Calendar.Moment) (updatesUntil : IsoDate.Date)
    (edition : List Char) : LicensePayload F :=
  { v := .int payloadVersion
    licenseId := .text (ofChars licenseId)
    edition := .text (ofChars edition)
    customer := .text (ofChars customer)
    machineId := .text (ofChars machineId)
    issuedAt := .text (ofChars (utcIso platform issuedAt))
    updatesUntil := .text (ofChars (IsoDate.isoformat updatesUntil)) }

def signLicense (payload : LicensePayload F) : List Char :=
  let body := canonicalJson platform (asDict payload)
  keyPrefix ++ Base64Url.encode body ++ '.' :: Base64Url.encode (key.sign body)

/-- `typeError` is no `LicenseError`: an exception that is not caught. -/
inductive LicenseError (F : Type)
  | malformedKey (detail : String)
  | badSignature
  | unsupportedVersion (v : Value F)
  | wrongMachine
  | revoked
  | typeError

def orMalformed {α : Type} (value : Option α) (detail : String) : Except (LicenseError F) α :=
  match value with
  | some value => .ok value
  | none => .error (.malformedKey detail)

/-- The bytes of the body and of the signature. -/
def bodyAndSignature (keyString : List Char) : Except (LicenseError F) (Bytes × Bytes) := do
  let key := strip keyString
  refuseIf (!keyPrefix.isPrefixOf key || key.count '.' ≠ 1) (.malformedKey "Not a PakPOS license key")
  let parts := key.drop keyPrefix.length
  let body ← orMalformed (Base64Url.decode (parts.takeWhile (· ≠ '.'))) "Not valid base64url"
  let signature ← orMalformed (Base64Url.decode ((parts.dropWhile (· ≠ '.')).drop 1)) "Not valid base64url"
  return (body,signature)

/-- `v == 1`, which `True` and `1.0` are as well. -/
def isVersion (v : Value F) : Bool :=
  match v with
  | .int n => n = payloadVersion
  | .bool b => b
  | .float x => platform.equalsOne x
  | _ => false

def dated (t : Text) : Bool :=
  match chars t with
  | some text => if IsoDate.Shaped text then (IsoDate.read text).isSome else platform.otherDate t
  | none => platform.otherDate t

def checkDate (updatesUntil : Value F) : Except (LicenseError F) Unit :=
  match updatesUntil with
  | .text t => refuseIf (!dated platform t) (.malformedKey "Bad updates_until")
  | _ => .error .typeError

def checkMachine (machineId : Option (List Char)) (licensed : Value F) : Except (LicenseError F) Unit :=
  match machineId,licensed with
  | none,_ => .ok ()
  | some machineId,.text t =>
    refuseIf (normalizeMachineId platform (ofChars machineId) ≠ normalizeMachineId platform t) .wrongMachine
  | some _,_ => .error .typeError

/-- A list or a `dict` cannot be looked up in a set. -/
def checkRevoked (revokedIds : Option (List (List Char))) (licenseId : Value F) : Except (LicenseError F) Unit :=
  match revokedIds,licenseId with
  | none,_ => .ok ()
  | some ids,.text t => refuseIf (ids.any fun id => ofChars id = t) .revoked
  | some _,.array _ => .error .typeError
  | some _,.object _ => .error .typeError
  | some _,_ => .ok ()

def verifyLicense (keyString : List Char) (machineId : Option (List Char)) (revokedIds : Option (List (List Char))) :
    Except (LicenseError F) (LicensePayload F) := do
  let (body,signature) ← bodyAndSignature keyString
  refuseIf (!key.verify body signature) .badSignature
  let payload ← orMalformed ((loadsBytes platform body).bind fromDict) "Payload is not a license"
  refuseIf (!isVersion platform payload.v) (.unsupportedVersion payload.v)
  checkDate platform payload.updatesUntil
  checkMachine platform machineId payload.machineId
  checkRevoked revokedIds payload.licenseId
  return payload

end LicenseKeys
