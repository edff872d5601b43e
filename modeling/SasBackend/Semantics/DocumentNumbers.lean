import SasBackend.Library.Digits
import SasBackend.Library.Histories
import SasBackend.Library.Overlay
import SasBackend.Library.Transition

/-! Document numbers: the daily counters of a business, drawn from by transactions that commit or roll back.
Ids and moments are numbers, cache times milliseconds. A counter row that was inserted or updated stays locked to the
end of the transaction, and another draw of it waits.
-/
namespace DocumentNumbers
open Digits Histories Overlay

/-- A day of the calendar, its year of four digits. -/
structure Date where
  year : Nat
  month : Nat
  day : Nat
  year_four : 1000 ≤ year ∧ year < 10000
  month_two : month < 100
  day_two : day < 100
  deriving DecidableEq

/-- `YYYYMMDD`. -/
def Date.key (date : Date) : String := String.ofList (padded 4 date.year ++ (padded 2 date.month ++ padded 2 date.day))

/-- The time zone database and the businesses' time zones, which nothing in the program writes after registration. -/
structure Environment where
  Zone : Type
  zoneInfo : String → Option Zone
  defaultZone : Zone
  localDate : Zone → Nat → Date
  timezone : Nat → Option String

def defaultTimezone : String := "Asia/Karachi"

def loadZone (env : Environment) (name : Option String) : env.Zone :=
  let name := match name with
    | some name => if name = "" then defaultTimezone else name
    | none => defaultTimezone
  (env.zoneInfo name).getD env.defaultZone

def Environment.zoneOf (env : Environment) (businessId : Nat) : env.Zone := loadZone env (env.timezone businessId)

def cacheTtl : Nat := 300000

/-- The zone and the cache entry the call leaves. -/
def getBusinessTz (env : Environment) (cached : Option (Nat × env.Zone)) (monotonic businessId : Nat) : Nat × env.Zone :=
  match cached with
  | some (expires,zone) =>
    if expires > monotonic then (expires,zone) else (monotonic + cacheTtl,loadZone env (env.timezone businessId))
  | none => (monotonic + cacheTtl,loadZone env (env.timezone businessId))

def localDateKey (env : Environment) (zone : env.Zone) (now : Nat) : String := (env.localDate zone now).key

/-- The unique key of `document_number_counters`. -/
structure CounterKey where
  businessId : Nat
  documentPrefix : String
  dateKey : String
  deriving DecidableEq

/-- A number drawn, with the moment its day was taken at. -/
structure Drawn where
  counter : CounterKey
  moment : Nat
  sequence : Nat
  deriving DecidableEq

/-- `{prefix}-{date_str}-{seq:04d}`. -/
def Drawn.number (drawn : Drawn) : String :=
  drawn.counter.documentPrefix ++ "-" ++ drawn.counter.dateKey ++ "-" ++ String.ofList (padded 4 drawn.sequence)

/-- What a transaction has written after some of its statements, and the numbers it got, oldest first. -/
structure Work where
  counters : CounterKey → Option (Option Nat)
  drawn : List Drawn

def Work.empty : Work := ⟨untouched,[]⟩

/-- `issued`: the numbers drawn by committed transactions, in the order of the commits. -/
structure State (env : Environment) where
  counters : CounterKey → Option Nat
  issued : List Drawn
  transactions : List (List Work)
  caches : Nat → Nat → Option (Nat × env.Zone)

def State.put {env : Environment} (s : State env) (t : Nat) (history : List Work) : State env :=
  { s with transactions := s.transactions.set t history }

def State.cache {env : Environment} (s : State env) (worker businessId : Nat) (entry : Nat × env.Zone) : State env :=
  { s with caches := Function.update s.caches worker (Function.update (s.caches worker) businessId (some entry)) }

inductive Action
  | begin_
  | draw (t worker monotonic businessId : Nat) (documentPrefix : String) (moment : Nat)
  | today (worker monotonic businessId : Nat)
  | forget (worker businessId : Nat)
  | rollback (t statements : Nat)
  | commit (t : Nat)

/-- The upsert: 1 for the first draw, else one more; none when the integer column overflows. -/
def upsert (lastSequence : Option Nat) : Option Nat :=
  let sequence := lastSequence.elim 1 (· + 1)
  if sequence < 2 ^ 31 then some sequence else none

def next (env : Environment) (s : State env) : Action → Option (State env)
  | .begin_ => some { s with transactions := s.transactions ++ [[]] }
  | .draw t worker monotonic businessId documentPrefix moment => do
    let history ← s.transactions[t]?
    let work := now .empty history
    -- the counter row references the business
    let _ ← env.timezone businessId
    let entry := getBusinessTz env (s.caches worker businessId) monotonic businessId
    let counter : CounterKey := ⟨businessId,documentPrefix,localDateKey env entry.2 moment⟩
    let sequence ← upsert (overlaid s.counters work.counters counter)
    if free s.transactions t fun work => (work.counters counter).isSome then
      some ((s.put t (⟨Overlay.set work.counters counter (some sequence),work.drawn ++ [⟨counter,moment,sequence⟩]⟩ ::
        history)).cache worker businessId entry)
    else none
  | .today worker monotonic businessId =>
    some (s.cache worker businessId (getBusinessTz env (s.caches worker businessId) monotonic businessId))
  | .forget worker businessId =>
    some { s with caches := Function.update s.caches worker (Function.update (s.caches worker) businessId none) }
  | .rollback t statements => do
    let history ← s.transactions[t]?
    some (s.put t (history.drop statements))
  | .commit t => do
    let history ← s.transactions[t]?
    let work := now .empty history
    some { s.put t [] with counters := overlaid s.counters work.counters, issued := s.issued ++ work.drawn }

def Initial {env : Environment} (s : State env) : Prop :=
  (∀ counter, s.counters counter = none) ∧ s.issued = [] ∧ s.transactions = [] ∧
    ∀ worker businessId, s.caches worker businessId = none

/-- The numbers committed transactions drew for the business, prefix and local day, in the order of the commits. -/
def issuedOn {env : Environment} (s : State env) (businessId : Nat) (documentPrefix : String) (day : Date) : List Drawn :=
  s.issued.filter fun drawn => drawn.counter.businessId = businessId && drawn.counter.documentPrefix = documentPrefix &&
    env.localDate (env.zoneOf businessId) drawn.moment = day

end DocumentNumbers
