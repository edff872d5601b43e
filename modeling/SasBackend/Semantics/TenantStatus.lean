import SasBackend.Library.ThreeValued
import SasBackend.Semantics.Leases

/-! The status of a business as the platform console sees it, in SQL and in Python, and its suspension.
Moments are microseconds; a day of SQL is a day of 24 hours.
-/
namespace TenantStatus
open Leases ThreeValued

structure Tenant extends Business where
  isActive : Bool
  deriving DecidableEq

/-- The range of a timestamp in the database, which goes beyond year 9999. -/
def firstTimestamp : Int := -210866803200000000

def endTimestamp : Int := 9224318016000000000

inductive StatusError
  | overflow (error : OverflowError)
  | timestampOutOfRange
  deriving DecidableEq

def timestampPlus (moment interval : Int) : Except StatusError Int :=
  if firstTimestamp ≤ moment + interval ∧ moment + interval < endTimestamp then .ok (moment + interval)
  else .error .timestampOutOfRange

/-- The comparison with the end of the grace, which the database makes where it comes to it. -/
def inGrace (subscriptionEndsAt : Option Int) (grace now : Int) : Except StatusError Truth :=
  match subscriptionEndsAt with
  | none => .ok none
  | some ends => (timestampPlus ends grace).map fun graceEnd => compare (· ≥ ·) (some graceEnd) (some now)

/-- The expression that lists and counts tenants by their status. -/
def statusCase (b : Tenant) (now graceDays : Int) : Except StatusError Status := do
  let grace ← (timedelta graceDays).mapError .overflow
  let status := some b.subscriptionStatus
  caseWhen .expired
    [(.ok (compare (· = ·) (some b.isActive) (some false)),.suspended),
      (.ok (compare (· = ·) status (some .suspended)),.suspended),
      (.ok (compare (· = ·) status (some .cancelled)),.cancelled),
      (.ok (and (compare (· = ·) status (some .trial))
        (and (some b.trialEndsAt.isSome) (compare (· < ·) b.trialEndsAt (some now)))),.expired),
      (.ok (compare (· = ·) status (some .trial)),.trial),
      (.ok (or (isNull b.subscriptionEndsAt) (compare (· ≥ ·) b.subscriptionEndsAt (some now))),.active),
      (inGrace b.subscriptionEndsAt grace now,.grace)]

/-- The state is computed first, for a business that is switched off as well. -/
def effectiveStatus (business : Tenant) (now graceDays : Int) : Except OverflowError SubscriptionState := do
  let state ← computeState business.toBusiness now graceDays
  return if !business.isActive then ⟨.suspended,state.trialEndsAt,state.subscriptionEndsAt,none,none,false⟩ else state

/-- Back to what the dates say: a paid period if there ever was one, else the trial. -/
def setSuspended (business : Tenant) (suspend : Bool) : Option Tenant :=
  if suspend then some { business with subscriptionStatus := .suspended }
  else if business.subscriptionStatus ≠ .suspended ∧ business.subscriptionStatus ≠ .cancelled then none
  else some { business with subscriptionStatus := if business.subscriptionEndsAt.isSome then .active else .trial }

/-- What time does to a status. -/
inductive Advances : Status → Status → Prop
  | same (status : Status) : Advances status status
  | trialOver : Advances .trial .expired
  | paidOver : Advances .active .grace
  | graceOver : Advances .grace .expired
  | bothOver : Advances .active .expired

/-- Both tell a status, and the same. -/
def Agrees (business : Tenant) (now graceDays : Int) : Prop :=
  ∃ state, effectiveStatus business now graceDays = .ok state ∧ statusCase business now graceDays = .ok state.status

/-- The grace is no duration of Python, or the end of a paid period that is over is no moment of Python's with it. -/
def Overflows (business : Tenant) (now graceDays : Int) : Prop :=
  999999999 < graceDays.natAbs ∨
    (business.subscriptionStatus = .active ∨ business.subscriptionStatus = .pastDue) ∧
      ∃ ends ∈ business.subscriptionEndsAt, ends < now ∧ ¬(earliest ≤ ends + graceDays * day ∧ ends + graceDays * day ≤ latest)

/-- Suspended and activated at once, the business is back where it was. -/
def Undone (business : Tenant) (now graceDays : Int) : Prop :=
  ∃ suspended ∈ setSuspended business true, ∃ activated ∈ setSuspended suspended false,
    (effectiveStatus activated now graceDays).map (·.status) = (effectiveStatus business now graceDays).map (·.status) ∧
      (computeState activated.toBusiness now graceDays).map (·.expiresAt) =
        (computeState business.toBusiness now graceDays).map (·.expiresAt) ∧
      activated.trialEndsAt = business.trialEndsAt ∧ activated.subscriptionEndsAt = business.subscriptionEndsAt

/-- The stored status is what the dates say, or both dates are one that is over with its grace. -/
def Derivable (business : Tenant) (now graceDays : Int) : Prop :=
  match business.subscriptionStatus, business.subscriptionEndsAt with
  | .active, some _ | .pastDue, some _ | .trial, none => True
  | .trial, some ends => business.trialEndsAt = some ends ∧ ends < now ∧
    ∃ graceEnd, plus ends (graceDays * day) = .ok graceEnd ∧ graceEnd < now
  | _, _ => False

end TenantStatus
