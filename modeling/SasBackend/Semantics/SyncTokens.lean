import SasBackend.Library.UuidText
import SasBackend.Semantics.LicenseKeys
import SasBackend.Semantics.SyncFeed

/-! The text of a sync cursor: canonical JSON and a keyed digest, both in base64url, with a point between them.
The key also signs access tokens. A payload that was read may hold any JSON value in a field.
-/
namespace SyncTokens
open Json
open Licensing (Bytes)
open LicenseKeys (Platform canonicalJson encodeText isVersion loadsBytes)
open SyncFeed (Failure Reason)
open UuidText (Uuid)

/-- What `int` and truth make of floating-point numbers and of text. -/
structure Numbers (F : Type) where
  ofFloat : F → Option Int
  ofText : Text → Option Int
  truthy : F → Bool

/-- The columns a token carries are BIGINT, the times are those of a `datetime`, and a fingerprint has sixteen digits. -/
abbrev Seq := Fin (2 ^ 63)

abbrev Timestamp := Fin 253402300800

abbrev Fingerprint := Fin (16 ^ 16)

inductive Token
  | pull (business user : Uuid) (seq : Seq) (issued : Timestamp) (permissions : Fingerprint)
  | snap (business user : Uuid) (start : Seq) (entity : Fin 17) (after : Option Uuid) (permissions : Fingerprint)

/-- The token of the feed with the same fields. -/
def Token.plain : Token → SyncFeed.Token
  | .pull business user seq issued permissions => .pull business user seq issued permissions
  | .snap business user start entity after permissions => .snap business user start entity (after.map Fin.val) permissions

variable {F : Type}

def literal (text : List Char) : Value F := .text (ofChars text)

def uuidValue (id : Uuid) : Value F := literal (UuidText.str id)

def fingerprintText (permissions : Fingerprint) : List Char := Hexadecimal.numeral 16 permissions

def pullKind : List Char := ['p','u','l','l']

def snapKind : List Char := ['s','n','a','p']

/-- The payload, in the order the source writes it. -/
def Token.fields : Token → List (List Char × Value F)
  | .pull business user seq issued permissions =>
    [(['v'],.int 1),(['k'],literal pullKind),(['b'],uuidValue business),(['u'],uuidValue user),
      (['s'],.int seq.val),(['t'],.int issued.val),(['p'],literal (fingerprintText permissions))]
  | .snap business user start entity after permissions =>
    [(['v'],.int 1),(['k'],literal snapKind),(['b'],uuidValue business),(['u'],uuidValue user),
      (['c'],.int start.val),(['e'],.int entity.val),(['a'],(after.map uuidValue).getD .null),
      (['p'],literal (fingerprintText permissions))]

variable (platform : Platform F) (numbers : Numbers F) (digest : Bytes → Bytes)

/-- What the digest of a cursor starts with; that of an access token has none of it. -/
def label : Bytes := encodeText ['s','y','n','c','-','c','u','r','s','o','r',':']

def sign (body : Bytes) : List Char := Base64Url.encode ((digest (label ++ body)).take 18)

def encodeToken (token : Token) : List Char :=
  let body := canonicalJson platform token.fields
  Base64Url.encode body ++ '.' :: sign digest body

inductive CursorError
  | badSignature | malformed | unsupportedVersion
  deriving DecidableEq

/-- The text before the first point, decoded, and the text after it. -/
def parts (text : List Char) : Option (Bytes × List Char) :=
  if '.' ∈ text then
    (Base64Url.decode (text.takeWhile (· ≠ '.'))).map fun body => (body,(text.dropWhile (· ≠ '.')).drop 1)
  else none

def orMalformed {α : Type} : Option α → Except CursorError α
  | some value => .ok value
  | none => .error .malformed

/-- Only ASCII text can be compared with a signature. -/
def checkSignature (body : Bytes) (signature : List Char) : Except CursorError Unit :=
  if signature.any (128 ≤ ·.toNat) then .error .malformed
  else if sign digest body = signature then .ok () else .error .badSignature

def checkVersion : Value F → Except CursorError (List (Text × Value F))
  | .object members => if (Value.get members ['v']).any (isVersion platform) then .ok members else .error .unsupportedVersion
  | _ => .error .unsupportedVersion

def decodeToken (text : List Char) : Except CursorError (List (Text × Value F)) := do
  let (body,signature) ← orMalformed (parts text)
  checkSignature digest body signature
  let payload ← orMalformed (loadsBytes platform body)
  checkVersion platform payload

structure Caller where
  id : Uuid
  business : Uuid
  permissionsVersion : Fingerprint
  permissions : List SyncFeed.Permission
  allowedBranches : Option (List Nat)

def Caller.user (caller : Caller) : SyncFeed.User :=
  ⟨caller.id,caller.business,caller.permissions,caller.permissionsVersion,caller.allowedBranches⟩

/-- A refusal, or an exception that nothing catches. -/
inductive Refusal
  | refused (failure : Failure)
  | uncaught
  deriving DecidableEq

def field (members : List (Text × Value F)) (key : List Char) : Value F := (Value.get members key).getD .null

def isText : Value F → List Char → Bool
  | .text t,text => t = ofChars text
  | _,_ => false

def toInt : Value F → Except Refusal Int
  | .int n => .ok n
  | .bool b => .ok (if b then 1 else 0)
  | .float x => (numbers.ofFloat x).elim (.error .uncaught) .ok
  | .text t => (numbers.ofText t).elim (.error .uncaught) .ok
  | _ => .error .uncaught

def truthy : Value F → Bool
  | .null => false
  | .bool b => b
  | .int n => n ≠ 0
  | .float x => numbers.truthy x
  | .text t => !t.isEmpty
  | .array items => !items.isEmpty
  | .object members => !members.isEmpty

def toUuid : Value F → Except Refusal Uuid
  | .text t => ((chars t).bind UuidText.read).elim (.error .uncaught) .ok
  | _ => .error .uncaught

/-- `datetime.fromtimestamp`, of the years from 1 on. -/
def fromTimestamp (seconds : Int) : Except Refusal Int :=
  if -62135596800 ≤ seconds ∧ seconds < 253402300800 then .ok seconds else .error .uncaught

def refuseIf (condition : Bool) (failure : Failure) : Except Refusal Unit :=
  if condition then .error (.refused failure) else .ok ()

def orInvalid {α : Type} : Except CursorError α → Except Refusal α
  | .ok value => .ok value
  | .error _ => .error (.refused .invalidCursor)

/-- Where a pull with the cursor `since` goes on, and why it has to be refused in favour of a snapshot. -/
def resume (retention : Nat) (caller : Caller) (since : List Char) (now head : Nat) : Except Refusal (Int × Option Reason) := do
  let token ← orInvalid (decodeToken platform digest since)
  refuseIf (!isText (field token ['k']) pullKind || !isText (field token ['b']) (UuidText.str caller.business)) .invalidCursor
  let seq ← toInt numbers ((Value.get token ['s']).getD (.int 0))
  let seconds ← toInt numbers ((Value.get token ['t']).getD (.int 0))
  let issued ← fromTimestamp seconds
  return (seq,
    if now - issued > retention then some .cursorExpired
    else if !isText (field token ['u']) (UuidText.str caller.id) then some .userChanged
    else if !isText (field token ['p']) (fingerprintText caller.permissionsVersion) then some .permissionsChanged
    else if seq > head then some .cursorAheadOfServer
    else none)

/-- `token[key]`. -/
def required (members : List (Text × Value F)) (key : List Char) : Except Refusal (Value F) :=
  (Value.get members key).elim (.error .uncaught) .ok

/-- Start sequence, entity index and last id a page token stands for. -/
def pageStart (caller : Caller) (pageToken : List Char) : Except Refusal (Int × Int × Option Uuid) := do
  let token ← orInvalid (decodeToken platform digest pageToken)
  refuseIf (!isText (field token ['k']) snapKind || !isText (field token ['b']) (UuidText.str caller.business) ||
    !isText (field token ['u']) (UuidText.str caller.id) ||
    !isText (field token ['p']) (fingerprintText caller.permissionsVersion)) .invalidCursor
  let start ← required token ['c']
  let start ← toInt numbers start
  let index ← required token ['e']
  let index ← toInt numbers index
  let after ← if truthy numbers (field token ['a']) then (toUuid (field token ['a'])).map some else .ok none
  return (start,index,after)

/-- What the server does with the key. -/
inductive Event
  | accessToken (header claims : Bytes)
  | token (issued : Token)

/-- The signing input of an access token. -/
def signingInput (header claims : Bytes) : Bytes :=
  encodeText (Base64Url.encode header ++ '.' :: Base64Url.encode claims)

def message (event : Event) : Bytes :=
  match event with
  | .accessToken header claims => signingInput header claims
  | .token issued => label ++ canonicalJson platform issued.fields

/-- Nobody signs without the key: who sends a valid signature has it from the server. -/
def Presentable (history : List Event) (text : List Char) : Prop :=
  ∀ body signature, parts text = some (body,signature) → sign digest body = signature →
    label ++ body ∈ history.map (message platform)

def resumed : Except Failure (Nat × Option Reason) → Except Refusal (Int × Option Reason)
  | .error failure => .error (.refused failure)
  | .ok (seq,reason) => .ok (seq,reason)

def started : Except Failure (Nat × Nat × Option Nat) → Except Refusal (Int × Int × Option Nat)
  | .error failure => .error (.refused failure)
  | .ok (start,entity,after) => .ok (start,entity,after)

/-- The server takes the text for the token, or for one that cannot be verified. -/
structure ReadAs (text : List Char) (cursor : Option Token) : Prop where
  resume : ∀ retention caller now head, resume platform numbers digest retention caller text now head =
    resumed (SyncFeed.resume retention caller.user (some (cursor.map Token.plain)) now head)
  pageStart : ∀ caller, (pageStart platform numbers digest caller text).map
      (fun found => (found.1,found.2.1,found.2.2.map Fin.val)) =
    started ((cursor.map Token.plain).elim (.error .invalidCursor) (SyncFeed.pageStart caller.user))

end SyncTokens
