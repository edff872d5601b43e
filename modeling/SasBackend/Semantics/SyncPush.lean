import Mathlib.Data.List.Basic

/-! Idempotent processing of pushed offline ops.
Every op of a batch is answered from one of four places: parsing, scheduling, its dependencies, its own
transaction. Business rows, payloads and what the handlers do with them are parameters.
-/
namespace SyncPush

inductive OpStatus
  | applied | duplicate | rejected | conflict
  deriving DecidableEq, Repr

inductive Flag
  | priceMismatch | taxMismatch | oversold | creditLimitExceeded | costEstimated | shiftMismatch
  | subscriptionExpired
  deriving DecidableEq, Repr

/-- `other` are codes of single handlers and of the subscription. -/
inductive ErrorCode
  | malformedOp | malformedPayload | payloadTooLarge | unsupportedOpType | occurredTooOld | occurredInFuture
  | permissionDenied | idempotencyKeyReused | idConflict | dependencyMissing | dependencyFailed
  | dependencyCycle | internalError
  | other (code : String)
  deriving DecidableEq, Repr

def OpStatus.text : OpStatus → String
  | .applied => "applied"
  | .duplicate => "duplicate"
  | .rejected => "rejected"
  | .conflict => "conflict"

def ErrorCode.text : ErrorCode → String
  | .malformedOp => "malformed_op"
  | .malformedPayload => "malformed_payload"
  | .payloadTooLarge => "payload_too_large"
  | .unsupportedOpType => "unsupported_op_type"
  | .occurredTooOld => "occurred_too_old"
  | .occurredInFuture => "occurred_in_future"
  | .permissionDenied => "permission_denied"
  | .idempotencyKeyReused => "idempotency_key_reused"
  | .idConflict => "id_conflict"
  | .dependencyMissing => "dependency_missing"
  | .dependencyFailed => "dependency_failed"
  | .dependencyCycle => "dependency_cycle"
  | .internalError => "internal_error"
  | .other code => code

structure OpError where
  code : ErrorCode
  message : String
  retryable : Bool
  deriving DecidableEq, Repr

structure Result where
  opId : Option Nat
  status : OpStatus
  serverId : Option Nat
  officialNumber : Option String
  flags : List Flag
  error : Option OpError
  originalStatus : Option OpStatus
  deriving DecidableEq, Repr

def Result.accepted (result : Result) : Bool := result.status = .applied || result.status = .duplicate

def Result.retryable (result : Result) : Bool := result.error.any OpError.retryable

/-- A result that carries nothing but an error. -/
def refusal (opId : Option Nat) (status : OpStatus) (error : OpError) : Result :=
  ⟨opId,status,none,none,[],some error,none⟩

structure OpEnvelope (π : Type) where
  opId : Nat
  type : String
  occurredAt : Int
  payload : π
  dependsOn : List Nat
  deriving DecidableEq

/-- An entry of the request as the validation of its envelope finds it. -/
inductive RawOp (π : Type)
  | notObject
  | invalid (opId : Option Nat) (message : String)
  | valid (op : OpEnvelope π)
  deriving DecidableEq

inductive SubscriptionStatus
  | trial | active | grace | expired | suspended | cancelled
  deriving DecidableEq, Repr

structure Ctx where
  businessState : SubscriptionStatus
  now : Int
  permissions : List String

/-- Fixed server settings. -/
structure Server (π η : Type) where
  maxOfflineDays : Nat
  syncMaxPayloadBytes : Nat
  payloadBytes : π → Nat
  hash : String → π → Int → η

def Server.payloadHash {π η : Type} (server : Server π η) (op : OpEnvelope π) : η :=
  server.hash op.type op.payload op.occurredAt

structure OpReject where
  code : ErrorCode
  message : String
  retryable : Bool
  conflict : Bool

def OpReject.status (rejection : OpReject) : OpStatus := if rejection.conflict then .conflict else .rejected

structure Outcome where
  serverId : Option Nat
  officialNumber : Option String
  flags : List Flag
  alreadyApplied : Bool

inductive HandlerResult (σ : Type)
  | done (outcome : Outcome) (rows : σ)
  | reject (rejection : OpReject)
  | httpException (statusCode : Nat) (detail : String)
  | integrityError (reason : String)

/-- What can break off an attempt; the transaction is rolled back. -/
inductive Interrupt
  | deadlock | databaseError | crash
  deriving DecidableEq, Repr

/-- One push: the caller and what the handlers, the database and other clients do. -/
structure World (σ π : Type) where
  ctx : Ctx
  validate : String → π → Option String
  handler : OpEnvelope π → σ → HandlerResult σ
  interrupt : OpEnvelope π → σ → Nat → Option Interrupt
  others : OpEnvelope π → σ → σ

/-- A stored op keeps an applied result or a final error. -/
def Terminal (status : OpStatus) (result : Result) : Prop :=
  result.status = status ∧ (status = .applied ∧ result.error = none ∨
    (status = .rejected ∨ status = .conflict) ∧ ∃ error, result.error = some error ∧ error.retryable = false)

structure SyncOp (η : Type) where
  status : OpStatus
  payloadHash : η
  result : Result
  terminal : Terminal status result

structure State (σ η : Type) where
  rows : σ
  ops : Nat → Option (SyncOp η)

variable {σ π η : Type}

def handlers : List String :=
  ["customer.create","sale.create","sale.void","customer.payment","expense.create","shift.open","shift.close",
    "return.create"]

def opPermissions : List (String × String) :=
  [("customer.create","customers.create"),("sale.create","sales.create"),("sale.void","sales.void"),
    ("customer.payment","customers.update"),("expense.create","expenses.create"),("shift.open","shifts.open"),
    ("shift.close","shifts.close"),("return.create","sales.returns.create")]

def lapsedAllowed : List String := ["sale.create","customer.payment","shift.close"]

def futureSkew : Int := 300

def Ctx.lapsed (ctx : Ctx) : Bool :=
  ctx.businessState = .expired || ctx.businessState = .suspended || ctx.businessState = .cancelled

def blockedCode : SubscriptionStatus → ErrorCode
  | .suspended => .other "subscription_suspended"
  | .cancelled => .other "subscription_cancelled"
  | _ => .other "subscription_expired"

def parseOp (server : Server π η) : RawOp π → Except Result (OpEnvelope π)
  | .notObject => .error (refusal none .rejected ⟨.malformedOp,"Op must be an object",false⟩)
  | .invalid opId message => .error (refusal opId .rejected ⟨.malformedOp,message,false⟩)
  | .valid op =>
    if !handlers.contains op.type then
      let message := if "held".isPrefixOf op.type || "order.hold".isPrefixOf op.type then "Held orders are not synced"
        else s!"Unsupported op type '{op.type}'"
      .error (refusal op.opId .rejected ⟨.unsupportedOpType,message,false⟩)
    else if server.syncMaxPayloadBytes < server.payloadBytes op.payload then
      .error (refusal op.opId .rejected
        ⟨.payloadTooLarge,s!"payload exceeds {server.syncMaxPayloadBytes} bytes",false⟩)
    else .ok op

/-- Subscription, time window and permission. -/
def gate (server : Server π η) (ctx : Ctx) (op : OpEnvelope π) : Option OpReject :=
  if ctx.businessState = .grace && !lapsedAllowed.contains op.type then
    some ⟨.other "subscription_grace_readonly","Subscription is in its read-only grace period: only sales, customer payments and shift closes are accepted",true,false⟩
  else if ctx.lapsed && !lapsedAllowed.contains op.type then
    some ⟨blockedCode ctx.businessState,"Subscription is not active: only sales, customer payments and shift closes are accepted",true,false⟩
  else if op.occurredAt < ctx.now - server.maxOfflineDays * 86400 then
    some ⟨.occurredTooOld,s!"occurred_at is more than {server.maxOfflineDays} days in the past",false,false⟩
  else if ctx.now + futureSkew < op.occurredAt then
    some ⟨.occurredInFuture,"occurred_at is in the future beyond the allowed clock skew",false,false⟩
  else match opPermissions.lookup op.type with
    | some required =>
      if ctx.permissions.contains required then none
      else some ⟨.permissionDenied,s!"Permission required: {required}",false,false⟩
    | none => none

def mapHttp (statusCode : Nat) (detail : String) : OpReject :=
  if statusCode = 403 then ⟨.permissionDenied,detail,false,false⟩
  else if statusCode = 404 then ⟨.other "not_found",detail,false,false⟩
  else ⟨.other "invalid_request",detail,false,false⟩

/-- The gate, the payload's validation and the handler; a refusal leaves no effect. -/
def evaluate (server : Server π η) (world : World σ π) (op : OpEnvelope π) (rows : σ) :
    Except OpReject (Outcome × σ) :=
  match gate server world.ctx op with
  | some rejection => .error rejection
  | none => match world.validate op.type op.payload with
    | some message => .error ⟨.malformedPayload,message,false,false⟩
    | none => match world.handler op rows with
      | .done outcome changed => .ok (outcome,changed)
      | .reject rejection => .error rejection
      | .httpException statusCode detail => .error (mapHttp statusCode detail)
      | .integrityError reason => .error ⟨.idConflict,s!"Conflicts with existing data ({reason})",false,true⟩

/-- What one transaction leaves; `committed` says that a handler's effects are in it. -/
structure Transacted (σ η : Type) where
  result : Result
  state : State σ η
  committed : Bool

def storeOp (s : State σ η) (opId : Nat) (stored : SyncOp η) : State σ η :=
  { s with ops := Function.update s.ops opId (some stored) }

def finishRejected (server : Server π η) (op : OpEnvelope π) (rejection : OpReject) (s : State σ η) :
    Transacted σ η :=
  let result := refusal op.opId rejection.status ⟨rejection.code,rejection.message,rejection.retryable⟩
  if final : rejection.retryable = false then
    let stored : SyncOp η := ⟨rejection.status,server.payloadHash op,result,rfl,.inr
      ⟨by unfold OpReject.status; split <;> simp,_,rfl,final⟩⟩
    ⟨result,storeOp s op.opId stored,false⟩
  else ⟨result,s,false⟩

def finishApplied (server : Server π η) (ctx : Ctx) (op : OpEnvelope π) (outcome : Outcome) (s : State σ η) :
    Transacted σ η :=
  let flags := if ctx.lapsed && !outcome.flags.contains .subscriptionExpired then
    outcome.flags ++ [.subscriptionExpired] else outcome.flags
  let stored : Result := ⟨op.opId,.applied,outcome.serverId,outcome.officialNumber,flags,none,none⟩
  let result := if outcome.alreadyApplied then
    { stored with status := .duplicate, originalStatus := some .applied } else stored
  ⟨result,storeOp s op.opId ⟨.applied,server.payloadHash op,stored,rfl,.inl ⟨rfl,rfl⟩⟩,true⟩

def runOpOnce [DecidableEq η] (server : Server π η) (world : World σ π) (op : OpEnvelope π) (s : State σ η) :
    Transacted σ η :=
  match s.ops op.opId with
  | some stored =>
    if stored.payloadHash ≠ server.payloadHash op then
      ⟨refusal op.opId .rejected
        ⟨.idempotencyKeyReused,"op_id was already used for a different operation",false⟩,s,false⟩
    else if stored.status = .applied then
      ⟨{ stored.result with status := .duplicate, originalStatus := some .applied },s,false⟩
    else ⟨stored.result,s,false⟩
  | none => match evaluate server world op s.rows with
    | .error rejection => finishRejected server op rejection s
    | .ok (outcome,rows) => finishApplied server world.ctx op outcome { s with rows := rows }

def internalError (op : OpEnvelope π) (message : String) (s : State σ η) : Transacted σ η :=
  ⟨refusal op.opId .rejected ⟨.internalError,message,true⟩,s,false⟩

/-- The attempts left; only a deadlock is tried again. -/
def attempts [DecidableEq η] (server : Server π η) (world : World σ π) (op : OpEnvelope π) (s : State σ η) :
    List Nat → Transacted σ η
  | [] => internalError op "Database error" s
  | attempt :: rest => match world.interrupt op s.rows attempt with
    | none => runOpOnce server world op s
    | some .deadlock => attempts server world op s rest
    | some .databaseError => internalError op "Database error" s
    | some .crash => internalError op "Internal error" s

def runOp [DecidableEq η] (server : Server π η) (world : World σ π) (op : OpEnvelope π) (s : State σ η) :
    Transacted σ η := attempts server world op s [0,1,2]

/-- The first dependency that stands in the way; those answered in this batch count as answered. -/
def dependencyError (ops : Nat → Option (SyncOp η)) (batch : Nat → Option Result) : List Nat → Option OpError
  | [] => none
  | dep :: rest => match batch dep with
    | none => match ops dep with
      | none => some ⟨.dependencyMissing,s!"Dependency {dep} has not been synced",true⟩
      | some row =>
        if row.status = .applied then dependencyError ops batch rest
        else some ⟨.dependencyFailed,s!"Dependency {dep} was {row.status.text}",false⟩
    | some outcome =>
      if outcome.accepted then dependencyError ops batch rest
      else
        let code := (outcome.error.map fun error => error.code.text).getD "None"
        some ⟨.dependencyFailed,s!"Dependency {dep} failed: {code}",outcome.retryable⟩

/-- One round of the batch: the state it found and the one it left. -/
structure Processed (σ π η : Type) where
  index : Nat
  op : OpEnvelope π
  cyclic : Bool
  batch : Nat → Option Result
  interrupt : Nat → Option Interrupt
  before : State σ η
  after : State σ η
  result : Result
  committed : Bool

def byOpId (table : List (Processed σ π η)) (opId : Nat) : Option Result :=
  (table.find? (·.op.opId = opId)).map Processed.result

/-- The first op whose dependencies in the batch are all answered. -/
def pick (inBatch : List Nat) (table : List (Processed σ π η)) (remaining : List (Nat × OpEnvelope π)) :
    Option (Nat × OpEnvelope π) :=
  remaining.find? fun entry => entry.2.dependsOn.all fun dep =>
    !(inBatch.contains dep && dep ≠ entry.2.opId) || (byOpId table dep).isSome

def processRound [DecidableEq η] (server : Server π η) (world : World σ π) (inBatch : List Nat)
    (first : Nat × OpEnvelope π) (remaining : List (Nat × OpEnvelope π)) (table : List (Processed σ π η))
    (s : State σ η) : Processed σ π η :=
  match pick inBatch table remaining with
  | none =>
    let result := refusal first.2.opId .rejected ⟨.dependencyCycle,"Circular depends_on",false⟩
    ⟨first.1,first.2,true,byOpId table,fun _ => none,s,s,result,false⟩
  | some (index,op) => match dependencyError s.ops (byOpId table) op.dependsOn with
    | some error => ⟨index,op,false,byOpId table,fun _ => none,s,s,refusal op.opId .rejected error,false⟩
    | none =>
      let found : State σ η := { s with rows := world.others op s.rows }
      let done := runOp server world op found
      ⟨index,op,false,byOpId table,world.interrupt op found.rows,found,done.state,done.result,done.committed⟩

def processOps [DecidableEq η] (server : Server π η) (world : World σ π) (inBatch : List Nat) :
    Nat → List (Nat × OpEnvelope π) → List (Processed σ π η) → State σ η → List (Processed σ π η) × State σ η
  | fuel + 1, first :: rest, table, s =>
    let round := processRound server world inBatch first (first :: rest) table s
    processOps server world inBatch fuel ((first :: rest).eraseP (·.1 = round.index)) (table ++ [round]) round.after
  | _, _, table, s => (table,s)

/-- The well-formed ops with their place in the request, each op id once. -/
def firstOps (server : Server π η) : Nat → List Nat → List (RawOp π) → List (Nat × OpEnvelope π)
  | _, _, [] => []
  | index, seen, raw :: rest => match parseOp server raw with
    | .error _ => firstOps server (index + 1) seen rest
    | .ok op =>
      if seen.contains op.opId then firstOps server (index + 1) seen rest
      else (index,op) :: firstOps server (index + 1) (op.opId :: seen) rest

def copyOf (original : Result) : Result :=
  if original.status = .applied then { original with status := .duplicate, originalStatus := some .applied }
  else original

/-- The answer to one entry of the request. -/
structure Answer (σ π η : Type) where
  raw : RawOp π
  result : Result
  before : State σ η
  after : State σ η
  committed : Bool

structure Pushed (σ π η : Type) where
  table : List (Processed σ π η)
  state : State σ η
  answers : List (Answer σ π η)

def answerOf (server : Server π η) (table : List (Processed σ π η)) (s : State σ η) (index : Nat) (raw : RawOp π) :
    Answer σ π η :=
  match table.find? (·.index = index) with
  | some round => ⟨raw,round.result,round.before,round.after,round.committed⟩
  | none => match parseOp server raw with
    | .error result => ⟨raw,result,s,s,false⟩
    | .ok op => match byOpId table op.opId with
      | some original => ⟨raw,copyOf original,s,s,false⟩
      | none => ⟨raw,refusal op.opId .rejected ⟨.internalError,"",true⟩,s,s,false⟩

def processPush [DecidableEq η] (server : Server π η) (world : World σ π) (ops : List (RawOp π)) (s : State σ η) :
    Pushed σ π η :=
  let first := firstOps server 0 [] ops
  let done := processOps server world (first.map (·.2.opId)) first.length first [] s
  ⟨done.1,done.2,ops.mapIdx (answerOf server done.1 done.2)⟩

end SyncPush
