import SasBackend.Library.Calendar
import SasBackend.Library.Transition
import SasBackend.Semantics.Leases

/-! The subscription dates of a business under manual edits, suspensions and payments, one locked request after another.
A request that is refused, or that would leave the calendar, has no result.
-/
namespace Subscriptions
open Calendar Leases

structure Business where
  subscriptionStatus : SubscriptionStatus
  trialEndsAt : Option Moment
  subscriptionEndsAt : Option Moment
  deriving DecidableEq

/-- The parts of the request that touch the status or a date. -/
structure SubscriptionPatch where
  status : Option SubscriptionStatus
  extendDays : Option Nat
  subscriptionEndsAt : Option Moment
  literal : status ≠ some .pastDue
  in_range : ∀ days ∈ extendDays, 1 ≤ days ∧ days ≤ 3650
  one_way : extendDays = none ∨ subscriptionEndsAt = none

structure PaymentCreate where
  periodMonths : Nat
  in_range : 1 ≤ periodMonths ∧ periodMonths ≤ 36

structure SubscriptionPayment where
  periodMonths : Nat
  periodStart : Moment
  periodEnd : Moment
  deriving DecidableEq

namespace Business

def withStatus (business : Business) (status : Option SubscriptionStatus) : Business :=
  { business with subscriptionStatus := status.getD business.subscriptionStatus }

/-- A dated paid period replaces the trial. -/
def withEnd (business : Business) (ends : Option Moment) : Business :=
  match ends with
  | none => business
  | some ends =>
    { business with
      subscriptionEndsAt := some ends
      subscriptionStatus :=
        if business.subscriptionStatus = .trial then .active else business.subscriptionStatus }

def extended (business : Business) (now : Moment) (days : Option Nat) : Option Business :=
  match days with
  | none => some business
  | some days =>
    if business.subscriptionStatus = .trial then
      (addDays (max now (business.trialEndsAt.getD now)) days).map fun ends =>
        { business with trialEndsAt := some ends }
    else
      (addDays (max now (business.subscriptionEndsAt.getD now)) days).map fun ends =>
        { business with subscriptionEndsAt := some ends }

def patchSubscription (business : Business) (now : Moment) (data : SubscriptionPatch) : Option Business :=
  ((business.withStatus data.status).withEnd data.subscriptionEndsAt).extended now data.extendDays

/-- The new period starts when the current one ends. -/
def periodStart (business : Business) (now : Moment) : Moment :=
  let paid := business.subscriptionEndsAt.elim now (max now)
  if business.subscriptionStatus = .trial then business.trialEndsAt.elim paid (max paid) else paid

def recordPayment (business : Business) (now : Moment) (data : PaymentCreate) : Option (SubscriptionPayment × Business) :=
  let start := business.periodStart now
  (addMonths start data.periodMonths).map fun ends =>
    (⟨data.periodMonths,start,ends⟩,{ business with subscriptionEndsAt := some ends, subscriptionStatus := .active })

/-- Back to what the dates say: a paid period if there ever was one, else the trial. -/
def setSuspended (business : Business) (suspend : Bool) : Option Business :=
  if suspend then some { business with subscriptionStatus := .suspended }
  else if business.subscriptionStatus ≠ .suspended ∧ business.subscriptionStatus ≠ .cancelled then none
  else some
    { business with subscriptionStatus := if business.subscriptionEndsAt.isSome then .active else .trial }

/-- Never had a paid period, and is on trial or suspended. -/
def InTrial (business : Business) : Prop :=
  business.subscriptionEndsAt = none ∧
    (business.subscriptionStatus = .trial ∨ business.subscriptionStatus = .suspended)

instance (business : Business) : Decidable business.InTrial := inferInstanceAs (Decidable (_ ∧ _))

/-- What a business is entitled to before it pays. -/
def entitlementEnd (business : Business) (now : Moment) : Moment :=
  let paid := business.subscriptionEndsAt.elim now (max now)
  if business.InTrial then business.trialEndsAt.elim paid (max paid) else paid

end Business

/-- `movedBack`: since the newest payment, an administrator set the end date to an earlier one. -/
structure History where
  business : Business
  payments : List SubscriptionPayment
  movedBack : Bool

inductive Request
  | patchSubscription (data : SubscriptionPatch)
  | recordPayment (data : PaymentCreate)
  | setSuspended (suspend : Bool)

namespace History

/-- The request replaces the end date by an earlier one. -/
def movesBack (history : History) (data : SubscriptionPatch) : Bool :=
  data.subscriptionEndsAt.any fun ends => history.business.subscriptionEndsAt.any fun old => ends < old

def next (history : History) : Moment × Request → Option History
  | (now,.patchSubscription data) =>
    (history.business.patchSubscription now data).map fun business =>
      { history with business, movedBack := history.movedBack || history.movesBack data }
  | (now,.recordPayment data) =>
    (history.business.recordPayment now data).map fun paid => ⟨paid.2,paid.1 :: history.payments,false⟩
  | (_,.setSuspended suspend) =>
    (history.business.setSuspended suspend).map fun business => { history with business }

/-- A business on trial, as the registration leaves it. -/
def Registered (history : History) : Prop :=
  history.business.subscriptionStatus = .trial ∧ history.business.subscriptionEndsAt = none ∧
    history.payments = [] ∧ history.movedBack = false

def Reached : History → Prop := Transition.Reachable Registered (Transition.OfNext next)

end History

/-- The periods have a moment of both insides in common. -/
def Overlap (first second : SubscriptionPayment) : Prop :=
  max first.periodStart second.periodStart < min first.periodEnd second.periodEnd

instance (first second : SubscriptionPayment) : Decidable (Overlap first second) := inferInstanceAs (Decidable (_ < _))

/-- The payment is recorded, no day is lost, and the period comes after the one before it. -/
def PaidInFull (history : History) (now : Moment) (data : PaymentCreate) : Prop :=
  ∃ paid ∈ history.business.recordPayment now data,
    (∃ due ∈ addMonths (history.business.entitlementEnd now) data.periodMonths,
      ∃ ends ∈ paid.2.subscriptionEndsAt, due ≤ ends) ∧
    paid.1.periodStart ≤ paid.1.periodEnd ∧
    (history.movedBack = false → ∀ before ∈ history.payments.head?, ¬Overlap before paid.1)

instance (history : History) (now : Moment) (data : PaymentCreate) : Decidable (PaidInFull history now data) :=
  inferInstanceAs (Decidable (∃ paid ∈ _, _ ∧ _ ∧ (_ → ∀ before ∈ _, _)))

/-- So many months from each of the dates that count are still in the calendar. -/
def WithinCalendar (business : Business) (now : Moment) (months : Nat) : Prop :=
  Fits now months ∧ (∀ ends ∈ business.subscriptionEndsAt, Fits ends months) ∧
    (business.subscriptionStatus = .trial ∨ business.InTrial → ∀ ends ∈ business.trialEndsAt, Fits ends months)

instance (business : Business) (now : Moment) (months : Nat) : Decidable (WithinCalendar business now months) :=
  inferInstanceAs (Decidable (_ ∧ (∀ ends ∈ _, _) ∧ (_ → ∀ ends ∈ _, _)))

/-- Suspended with time left on the trial, more than what the shorter month cuts off anyway. -/
def LosesTrial (business : Business) (now : Moment) (months : Nat) : Prop :=
  business.subscriptionStatus = .suspended ∧ business.subscriptionEndsAt = none ∧
    ∃ ends ∈ business.trialEndsAt, now < ends ∧ ¬(SameDayAfter now ends months ∧ ends.time ≤ now.time)

instance (business : Business) (now : Moment) (months : Nat) : Decidable (LosesTrial business now months) :=
  inferInstanceAs (Decidable (_ ∧ _ ∧ ∃ ends ∈ _, _))

/-- Back on trial after a paid period: the trial ends on a later day but earlier in the day, and the month to come is too
short for either day. -/
def LosesHours (business : Business) (now : Moment) (months : Nat) : Prop :=
  business.subscriptionStatus = .trial ∧ ∃ paid ∈ business.subscriptionEndsAt, ∃ ends ∈ business.trialEndsAt,
    max now paid < ends ∧ SameDayAfter (max now paid) ends months ∧ ends.time < (max now paid).time

instance (business : Business) (now : Moment) (months : Nat) : Decidable (LosesHours business now months) :=
  inferInstanceAs (Decidable (_ ∧ ∃ paid ∈ _, ∃ ends ∈ _, _))

end Subscriptions
