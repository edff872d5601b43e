import SasBackend.Library.Digits
import SasBackend.Library.Hexadecimal

/-! The middleware around every request, from the application outwards: body limit, security headers, CORS, request id.
What one request receives and sends comes in any order; the bytes of a header are characters.
-/
namespace Middleware

abbrev Text := List Char

abbrev Header := Text × Text

inductive Request
  | body (bytes : List UInt8) (more : Bool)
  | disconnect
  deriving DecidableEq

inductive Response
  | start (status : Nat) (headers : List Header)
  | body (bytes : Text) (more : Bool)
  | other (kind : Text)
  deriving DecidableEq

/-- The status after the message. -/
def Response.status (message : Response) (before : Nat) : Nat :=
  match message with
  | .start status _ => status
  | _ => before

structure Scope where
  method : Text
  path : Text
  headers : List Header

def lower (name : Text) : Text := name.map Char.toLower

def setHeader (name value : Text) (force : Bool) : List Header → List Header
  | [] => [(name,value)]
  | (existing,old) :: rest =>
    if lower existing = name then if force then (name,value) :: rest else (existing,old) :: rest
    else (existing,old) :: setHeader name value force rest

/-- `dict(headers).get(name, b"")`: the last one counts. -/
def headerOf (headers : List Header) (name : Text) : Text :=
  (((headers.filter (·.1 = name)).getLast?).map Prod.snd).getD []

def requestIdName : Text := "x-request-id".toList

def docPaths : List Text := ["/docs","/redoc","/openapi.json"].map String.toList

def isDocs (path : Text) : Bool := docPaths.any (·.isPrefixOf path)

def everywhere : List (String × String) :=
  [("x-content-type-options","nosniff"),("x-frame-options","DENY"),("referrer-policy","no-referrer"),
    ("permissions-policy","geolocation=(), microphone=(), camera=()")]

def outsideDocs : List (String × String) :=
  [("content-security-policy","default-src 'none'; frame-ancestors 'none'"),("cache-control","no-store")]

def strictTransport : List (String × String) := [("strict-transport-security","max-age=31536000; includeSubDomains")]

def securityHeaders (hsts docs : Bool) : List Header :=
  (everywhere ++ (if docs then [] else outsideDocs) ++ if hsts then strictTransport else []).map
    fun pair => (pair.1.toList,pair.2.toList)

def corsNames : List Text :=
  ["access-control-allow-origin","access-control-allow-credentials","access-control-expose-headers","vary"].map String.toList

/-- What the CORS middleware makes of the headers of a response to this request; a preflight does not come this far. -/
structure Cors where
  apply : List Header → List Header
  others : ∀ headers name, name ∉ corsNames →
    (apply headers).filter (lower ·.1 = name) = headers.filter (lower ·.1 = name)

structure Stack where
  maxBytes : Nat
  hsts : Bool
  cors : Cors

def idCharacter (c : Char) : Bool := c.isAlphanum || c = '.' || c = '_' || c = '-'

/-- `$` also matches before a line feed at the very end. -/
def validRequestId (text : Text) : Bool :=
  let body := if text.getLast? = some '\n' then text.dropLast else text
  body.all idCharacter && decide (8 ≤ body.length) && decide (body.length ≤ 64)

/-- The id that came with the request, or a fresh `uuid4().hex`. -/
def requestId (scope : Scope) (fresh : Nat) : Text :=
  let incoming := headerOf scope.headers requestIdName
  if validRequestId incoming then incoming else Hexadecimal.numeral 32 fresh

/-- What was handed to the application and to the server so far. -/
structure Connection where
  received : Nat
  tooLarge : Bool
  responded : Bool
  statusCode : Nat
  fed : List Request
  sent : List Response

def opened : Connection := ⟨0,false,false,500,[],[]⟩

inductive Event
  | receive (message : Request)
  | send (message : Response)

section Layers
variable (stack : Stack) (scope : Scope) (fresh : Nat)

def sendWithHeaders (message : Response) : Response :=
  match message with
  | .start status headers => .start status
      ((securityHeaders stack.hsts (isDocs scope.path)).foldl (fun headers pair => setHeader pair.1 pair.2 false headers) headers)
  | message => message

def corsSend (message : Response) : Response :=
  match message with
  | .start status headers => .start status (stack.cors.apply headers)
  | message => message

def sendWithId (message : Response) : Response :=
  match message with
  | .start status headers => .start status (setHeader requestIdName (requestId scope fresh) true headers)
  | message => message

def decorated (message : Response) : Response :=
  sendWithId scope fresh (corsSend stack (sendWithHeaders stack scope message))

/-- A message of the limiting layer on its way to the server. -/
def Connection.leave (c : Connection) (message : Response) : Connection :=
  { c with statusCode := message.status c.statusCode, sent := c.sent ++ [decorated stack scope fresh message] }

def rejectBody : Text := "\x7b\"detail\": \"Request body too large\"\x7d".toList

def rejection : List Response :=
  [.start 413 [("content-type".toList,"application/json".toList),("content-length".toList,Nat.toDigits 10 rejectBody.length)],
    .body rejectBody false]

def Connection.reject (c : Connection) : Connection := rejection.foldl (Connection.leave stack scope fresh) c

def Connection.limitedReceive (c : Connection) (message : Request) : Connection :=
  match message with
  | .body bytes more =>
    if stack.maxBytes < c.received + bytes.length then
      { c with received := c.received + bytes.length, tooLarge := true, fed := c.fed ++ [.body [] false] }
    else { c with received := c.received + bytes.length, fed := c.fed ++ [.body bytes more] }
  | .disconnect => { c with fed := c.fed ++ [.disconnect] }

def Connection.guardedSend (c : Connection) (message : Response) : Connection :=
  if c.tooLarge then
    if c.responded then c else Connection.reject stack scope fresh { c with responded := true }
  else c.leave stack scope fresh message

def Connection.step (c : Connection) (event : Event) : Connection :=
  match event with
  | .receive message => c.limitedReceive stack message
  | .send message => c.guardedSend stack scope fresh message

/-- What is declared, where it is a number; too many digits raise an error. -/
def declaredLength : Except Unit (Option Nat) :=
  let declared := headerOf scope.headers "content-length".toList
  if declared ≠ [] ∧ declared.all Char.isDigit then
    if declared.length ≤ 4300 then .ok (some (Nat.ofDigitChars 10 declared 0)) else .error ()
  else .ok none

/-- The application is not called where the declared length is over the limit, or cannot be read as a number. -/
def serve (events : List Event) : Except Unit Connection := do
  let declared ← declaredLength scope
  if declared.any (stack.maxBytes < ·) then return Connection.reject stack scope fresh opened
  else return events.foldl (Connection.step stack scope fresh) opened

/-- Method, path and status, without the query. -/
def accessLog (c : Connection) : Text × Text × Nat := (scope.method,scope.path,c.statusCode)

end Layers

end Middleware
