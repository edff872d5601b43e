import SasBackend.Library.Savepoint
import SasBackend.Semantics.SyncPush

/-! A pushed op on its database session, statement by statement.
Handlers call services that commit and roll back on their own; they are given a session whose commit flushes and whose rollback
does nothing, inside a savepoint. Any statement may fail. What handlers read and write is a parameter.
-/
namespace SyncPush
open Savepoint

/-- What a statement may fail with. -/
inductive Fault
  | integrityError (reason : String)
  | databaseError (deadlock : Bool)
  | crash
  deriving DecidableEq

inductive Failure
  | reject (rejection : OpReject)
  | httpException (statusCode : Nat) (detail : String)
  | fault (fault : Fault)

/-- What services and handlers are made of. A service that fails rolls its session back and raises again; what is caught are
HTTP exceptions only. -/
inductive Script (σ : Type) : Type → Type 1
  | done {α : Type} (a : α) : Script σ α
  | step {α β : Type} (first : Script σ β) (rest : β → Script σ α) : Script σ α
  | statement {α : Type} (query : σ → α) (change : σ → σ) : Script σ α
  | commit : Script σ Unit
  | rollback : Script σ Unit
  | nested {α : Type} (body : Script σ α) : Script σ α
  | raise {α : Type} (failure : Failure) : Script σ α
  | catchHttp {α : Type} (body : Script σ α) (handler : Nat → String → Script σ α) : Script σ α
  | rollingBack {α : Type} (body : Script σ α) : Script σ α

structure Audit where
  opId : Nat
  opType : String
  recordId : Nat
  officialNumber : Option String
  flags : List Flag
  deriving DecidableEq

/-- What the transaction of an op reads and writes: business rows, the audit log and its own row of `sync_ops`. -/
structure OpRows (σ η : Type) where
  rows : σ
  audits : List Audit
  stored : Option (SyncOp η)

variable {σ π η α : Type}

def faultsOf (strikes : Nat → Option Fault) : Faults Failure :=
  ⟨fun call => (strikes call).map .fault,.fault (.databaseError false)⟩

/-- The script on a `ReplaySession`: its commit is a flush, its rollback nothing. -/
def Script.replay (faults : Faults Failure) {α : Type} : Script σ α → Tx Failure (OpRows σ η) α
  | .done a => pure a
  | .step first rest => first.replay faults >>= fun b => (rest b).replay faults
  | .statement query change =>
      Savepoint.statement faults (fun l => query l.rows) fun l => { l with rows := change l.rows }
  | .commit => flush faults
  | .rollback => pure ()
  | .nested body => Savepoint.nested faults (body.replay faults)
  | .raise failure => Savepoint.raise failure
  | .catchHttp body handler => attempt (body.replay faults) >>= fun outcome => match outcome with
    | .ok a => pure a
    | .error (.httpException statusCode detail) => (handler statusCode detail).replay faults
    | .error failure => Savepoint.raise failure
  | .rollingBack body => attempt (body.replay faults) >>= fun outcome => match outcome with
    | .ok a => pure a
    | .error failure => Savepoint.raise failure

/-- What the script does where no statement fails. -/
def Script.calm {α : Type} : Script σ α → σ → Except Failure α × σ
  | .done a, rows => (.ok a,rows)
  | .step first rest, rows => match first.calm rows with
    | (.ok b,changed) => (rest b).calm changed
    | (.error failure,changed) => (.error failure,changed)
  | .statement query change, rows => (.ok (query rows),change rows)
  | .commit, rows => (.ok (),rows)
  | .rollback, rows => (.ok (),rows)
  | .nested body, rows => match body.calm rows with
    | (.ok a,changed) => (.ok a,changed)
    | (.error failure,_) => (.error failure,rows)
  | .raise failure, rows => (.error failure,rows)
  | .catchHttp body handler, rows => match body.calm rows with
    | (.error (.httpException statusCode detail),changed) => (handler statusCode detail).calm changed
    | other => other
  | .rollingBack body, rows => body.calm rows

/-- One push, statement by statement: `existing` finds a sale that was synced under the same id and receipt. -/
structure Replay (σ π : Type) where
  ctx : Ctx
  validate : String → π → Option String
  existing : OpEnvelope π → σ → Option Outcome
  handler : OpEnvelope π → Script σ Outcome
  faults : OpEnvelope π → σ → Nat → Nat → Option Fault
  others : OpEnvelope π → σ × List Audit → σ × List Audit

def Replay.fresh (p : Replay σ π) (op : OpEnvelope π) : Script σ Outcome :=
  .step (p.handler op) fun outcome => .done { outcome with alreadyApplied := false }

def Replay.handlerOf (p : Replay σ π) (op : OpEnvelope π) : Script σ Outcome :=
  if op.type = "sale.create" then
    .step (.statement (p.existing op) id) fun found => match found with
      | some outcome => .done { outcome with alreadyApplied := true }
      | none => p.fresh op
  else p.fresh op

/-- The database with this row of `sync_ops` for every op. -/
def OpRows.state (l : OpRows σ η) : State (σ × List Audit) η := ⟨(l.rows,l.audits),fun _ => l.stored⟩

def OpRows.ofState (opId : Nat) (s : State (σ × List Audit) η) : OpRows σ η := ⟨s.rows.1,s.rows.2,s.ops opId⟩

section Op
variable [DecidableEq η] (server : Server π η) (p : Replay σ π) (op : OpEnvelope π) (faults : Faults Failure)

def answerStored (row : SyncOp η) : Result :=
  if row.payloadHash ≠ server.payloadHash op then
    refusal op.opId .rejected ⟨.idempotencyKeyReused,"op_id was already used for a different operation",false⟩
  else if row.status = .applied then { row.result with status := .duplicate, originalStatus := some .applied }
  else row.result

/-- Gate, validation, and the handler in a savepoint of its own. -/
def evaluateOp : Tx Failure (OpRows σ η) Outcome := match gate server p.ctx op with
  | some rejection => raise (.reject rejection)
  | none => match p.validate op.type op.payload with
    | some message => raise (.reject ⟨.malformedPayload,message,false,false⟩)
    | none => nested faults ((p.handlerOf op).replay faults)

def storeRejected (rejection : OpReject) : Tx Failure (OpRows σ η) Result := do
  if rejection.retryable = false then
    execute faults fun l => .ofState op.opId (finishRejected server op rejection l.state).state
  commit faults
  pure (refusal op.opId rejection.status ⟨rejection.code,rejection.message,rejection.retryable⟩)

def auditEntry (result : Result) : Audit :=
  ⟨op.opId,op.type,result.serverId.getD op.opId,result.officialNumber,result.flags⟩

def storeApplied (outcome : Outcome) : Tx Failure (OpRows σ η) Result := do
  let result ← statement faults (fun l => (finishApplied server p.ctx op outcome l.state).result)
    fun l => .ofState op.opId (finishApplied server p.ctx op outcome l.state).state
  if outcome.alreadyApplied = false then
    execute faults fun l => { l with audits := l.audits ++ [auditEntry op result] }
  commit faults
  pure result

/-- `_run_op_once`. -/
def replayOpOnce : Tx Failure (OpRows σ η) Result := do
  execute faults id
  match ← select faults (·.stored) with
  | some row =>
    commit faults
    pure (answerStored server op row)
  | none =>
    match ← attempt (evaluateOp server p op faults) with
    | .ok outcome => storeApplied server p op faults outcome
    | .error (.reject rejection) => storeRejected server op faults rejection
    | .error (.httpException statusCode detail) => storeRejected server op faults (mapHttp statusCode detail)
    | .error (.fault (.integrityError reason)) =>
      storeRejected server op faults ⟨.idConflict,s!"Conflicts with existing data ({reason})",false,true⟩
    | .error failure => raise failure

def interruptOf : Failure → Interrupt
  | .fault (.databaseError true) => .deadlock
  | .fault (.databaseError false) | .fault (.integrityError _) => .databaseError
  | _ => .crash

def internalResult (message : String) : Result := refusal op.opId .rejected ⟨.internalError,message,true⟩

def replayAttempts (l : OpRows σ η) : List Nat → Result × OpRows σ η
  | [] => (internalResult op "Database error",l)
  | attempt :: rest => match replayOpOnce server p op (faultsOf (p.faults op l.rows attempt)) (.idle l) with
    | (.ok result,s) => (result,s.committed)
    | (.error failure,s) => match interruptOf failure with
      | .deadlock => replayAttempts s.committed rest
      | .databaseError => (internalResult op "Database error",s.committed)
      | .crash => (internalResult op "Internal error",s.committed)

/-- `_run_op`: three attempts, each rolled back when it fails. -/
def replayOp (l : OpRows σ η) : Result × OpRows σ η := replayAttempts server p op l [0,1,2]

end Op

end SyncPush
