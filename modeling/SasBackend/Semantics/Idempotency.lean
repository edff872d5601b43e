import Mathlib.Logic.Function.Basic
import SasBackend.Library.Transition

/-! Requests that carry one Idempotency-Key of one business, as `run_idempotent` serves them.
Each bookkeeping statement is one step of its request; the clock is in milliseconds and moves between
any two steps. A row keeps the request that inserted it as its id.
-/
namespace Idempotency

def retention : Nat := 24 * 60 * 60 * 1000
def staleInFlight : Nat := 2 * 60 * 1000
def waitStep : Nat := 200

/-- Steps of 0.2 added in doubles reach 15.0 only at the 76th. -/
def waitLimit : Nat := 76

structure Request where
  fingerprint : Nat
  successStatus : Nat
  deriving DecidableEq, Repr

structure Response where
  statusCode : Nat
  execution : Nat
  deriving DecidableEq, Repr

structure Row where
  id : Nat
  requestHash : Nat
  response : Option Response
  createdAt : Nat
  expiresAt : Nat
  deriving DecidableEq, Repr

inductive Conflict
  | differentRequest
  | stillProcessed
  deriving DecidableEq, Repr

inductive Outcome
  | returned
  | raised
  | replayed (response : Response)
  | conflict (detail : Conflict)
  deriving DecidableEq, Repr

/-- Where a request stands in `run_idempotent`; `waits` counts the sleeps it has taken. -/
inductive Phase
  | claiming (waits : Nat)
  | purging (waits now : Nat)
  | inserting (waits now startedAt : Nat)
  | selecting (waits : Nat)
  | deciding (waits : Nat) (row : Option Row)
  | releasingStale (waits : Nat)
  | sleeping (waits wakeAt : Nat)
  | running
  | failed
  | committed
  | serialized
  | unserialized
  | done (outcome : Outcome)
  deriving DecidableEq, Repr

structure State where
  clock : Nat
  row : Option Row
  phase : Nat → Phase
  commits : List Nat

inductive Action
  | pass (milliseconds : Nat)
  | advance (i : Nat)
  | handlerCommits (i : Nat)
  | handlerRaises (i : Nat)
  | resultSerializes (i : Nat)
  | resultDoesNotSerialize (i : Nat)
  deriving DecidableEq, Repr

def State.goto (s : State) (i : Nat) (phase : Phase) : State :=
  { s with phase := Function.update s.phase i phase }

/-- `DELETE ... WHERE expires_at < :now`, for the row of this key. -/
def purge (row : Option Row) (now : Nat) : Option Row := row.filter fun r => now ≤ r.expiresAt

/-- `DELETE ... WHERE response_status IS NULL`. -/
def release (row : Option Row) : Option Row := row.filter fun r => r.response.isSome

/-- `DELETE ... WHERE response_status IS NULL AND created_at < :cutoff`. -/
def releaseStale (row : Option Row) (clock : Nat) : Option Row :=
  row.filter fun r => r.response.isSome || clock - staleInFlight ≤ r.createdAt

/-- `UPDATE ... SET response_status, response_body`, on whatever row has the key. -/
def store (row : Option Row) (response : Response) : Option Row :=
  row.map fun r => { r with response := some response }

/-- What the request does with the row `_claim` read for it. -/
def afterClaim (request : Request) (clock waits : Nat) : Option Row → Phase
  | none => .claiming waits
  | some row =>
    if row.requestHash ≠ request.fingerprint then .done (.conflict .differentRequest)
    else match row.response with
      | some response => .done (.replayed response)
      | none =>
        if clock - row.createdAt > staleInFlight then .releasingStale waits
        else if waits ≥ waitLimit then .done (.conflict .stillProcessed)
        else .sleeping waits (clock + waitStep)

variable (requests : Nat → Request)

def advance (s : State) (i : Nat) : Option State :=
  match s.phase i with
  | .claiming waits => some (s.goto i (.purging waits s.clock))
  | .purging waits now =>
    some ({ s with row := purge s.row now }.goto i (.inserting waits now s.clock))
  | .inserting waits now startedAt =>
    match s.row with
    | none => some ({ s with row := some ⟨i,(requests i).fingerprint,none,startedAt,now + retention⟩ }.goto i .running)
    | some _ => some (s.goto i (.selecting waits))
  | .selecting waits => some (s.goto i (.deciding waits s.row))
  | .deciding waits row => some (s.goto i (afterClaim (requests i) s.clock waits row))
  | .releasingStale waits =>
    some ({ s with row := releaseStale s.row s.clock }.goto i (.claiming waits))
  | .sleeping waits wakeAt =>
    if wakeAt ≤ s.clock then some (s.goto i (.claiming (waits + 1))) else none
  | .failed => some ({ s with row := release s.row }.goto i (.done .raised))
  | .serialized =>
    some ({ s with row := store s.row ⟨(requests i).successStatus,i⟩ }.goto i (.done .returned))
  | .unserialized => some ({ s with row := release s.row }.goto i (.done .returned))
  | .running | .committed | .done _ => none

def next (s : State) : Action → Option State
  | .pass milliseconds => some { s with clock := s.clock + milliseconds }
  | .advance i => advance requests s i
  | .handlerCommits i =>
    if s.phase i = .running then some ({ s with commits := s.commits ++ [i] }.goto i .committed) else none
  | .handlerRaises i => if s.phase i = .running then some (s.goto i .failed) else none
  | .resultSerializes i => if s.phase i = .committed then some (s.goto i .serialized) else none
  | .resultDoesNotSerialize i => if s.phase i = .committed then some (s.goto i .unserialized) else none

/-- The key is unused and every request is about to claim it. -/
def Initial (s : State) : Prop := s.row = none ∧ s.commits = [] ∧ ∀ i, s.phase i = .claiming 0

/-- The retention period of the key's row has not passed when a request purges expired rows. -/
def retained (s : State) : Action → Bool
  | .advance i => match s.phase i, s.row with
    | .purging _ now, some row => now ≤ row.expiresAt
    | _, _ => true
  | _ => true

/-- No claim without a response is older than two minutes when a request releases stale claims, and the
handler's result passes its response model. -/
def undisturbed (s : State) : Action → Bool
  | .advance i => match s.phase i, s.row with
    | .releasingStale _, some row => row.response.isSome || s.clock - staleInFlight ≤ row.createdAt
    | _, _ => true
  | .resultDoesNotSerialize _ => false
  | _ => true

/-- At most one execution has committed, and every request that did not run the handler was answered
with the stored response of that execution or with a conflict. -/
def AtMostOnce (s : State) : Prop :=
  s.commits.length ≤ 1 ∧
  ∀ i outcome, s.phase i = .done outcome → match outcome with
    | .replayed response => s.commits = [response.execution] ∧
        response.statusCode = (requests response.execution).successStatus ∧
        s.phase response.execution = .done .returned
    | .returned => s.commits = [i]
    | .raised => i ∉ s.commits
    | .conflict _ => i ∉ s.commits

end Idempotency
