import SasBackend.Semantics.Pricing

/-! Turning the tenders on a sale into the payments that are applied to it, with all that a payment carries.
`round` is what the decimal context makes of every sum and difference: 28 digits of it in the code, all of it in exact arithmetic.
-/
namespace Settling
open SasBackend
open Pricing (SettlementRefusal)

structure PaymentInput where
  paymentMethod : PaymentMethod
  amount : ℚ
  referenceNo : Option String
  paidAt : Option Int
  deriving DecidableEq

structure AppliedPayment where
  method : PaymentMethod
  amount : ℚ
  tendered : ℚ
  change : ℚ
  referenceNo : Option String
  paidAt : Option Int
  deriving DecidableEq

structure Settlement where
  payments : List AppliedPayment
  totalApplied : ℚ
  changeGiven : ℚ
  creditAmount : ℚ
  deriving DecidableEq

def total (payments : List PaymentInput) : ℚ := (payments.map PaymentInput.amount).sum

def cash (payments : List PaymentInput) : List PaymentInput := payments.filter (·.paymentMethod = .cash)

def nonCash (payments : List PaymentInput) : List PaymentInput := payments.filter (·.paymentMethod ≠ .cash)

/-- The loop over the tenders under way. -/
structure Progress where
  applied : List AppliedPayment
  cashLeft : ℚ
  lastCashIndex : Option Nat

def PaymentInput.inFull (payment : PaymentInput) : AppliedPayment :=
  ⟨payment.paymentMethod,payment.amount,payment.amount,0,payment.referenceNo,payment.paidAt⟩

section Context

variable (round : ℚ → ℚ)

/-- A sum from the left, beginning with zero. -/
def added (values : List ℚ) : ℚ := values.foldl (fun sum value => round (sum + value)) 0

def PaymentInput.taking (payment : PaymentInput) (take : ℚ) : AppliedPayment :=
  ⟨payment.paymentMethod,take,payment.amount,round (payment.amount - take),payment.referenceNo,payment.paidAt⟩

def applyPayment (progress : Progress) (payment : PaymentInput) : Progress :=
  if payment.paymentMethod ≠ .cash then { progress with applied := progress.applied ++ [payment.inFull] }
  else
    let take := min payment.amount progress.cashLeft
    let cashLeft := round (progress.cashLeft - take)
    if take ≤ 0 then { progress with cashLeft }
    else ⟨progress.applied ++ [payment.taking round take],cashLeft,some progress.applied.length⟩

def applyPayments (cashApplied : ℚ) (payments : List PaymentInput) : Progress :=
  payments.foldl (applyPayment round) ⟨[],cashApplied,none⟩

def AppliedPayment.addChange (extra : ℚ) (payment : AppliedPayment) : AppliedPayment :=
  { payment with tendered := round (payment.tendered + extra), change := round (payment.change + extra) }

/-- The tender of rows that change absorbs goes to the last cash row. -/
def foldChange (changeTotal : ℚ) (progress : Progress) : List AppliedPayment :=
  let accounted := added round (progress.applied.map AppliedPayment.change)
  match progress.lastCashIndex with
  | none => progress.applied
  | some last =>
    if accounted = changeTotal then progress.applied
    else progress.applied.modify last (AppliedPayment.addChange round (round (changeTotal - accounted)))

def settlePayments (totalDue : ℚ) (payments : List PaymentInput) (requirePayment : Bool) :
    Except SettlementRefusal Settlement :=
  if payments.isEmpty then
    if requirePayment && totalDue > 0 then .error .paymentRequired else .ok ⟨[],0,0,0⟩
  else if payments.any (·.amount ≤ 0) then .error .amountNotPositive
  else
    let cashTendered := added round ((cash payments).map PaymentInput.amount)
    let nonCash := added round ((nonCash payments).map PaymentInput.amount)
    let cashDue := round (totalDue - nonCash)
    if nonCash > totalDue then .error (.nonCashExceeds nonCash totalDue)
    else if cashTendered > 0 ∧ cashDue ≤ 0 then .error .nothingLeftInCash
    else
      let cashApplied := min cashTendered cashDue
      let changeTotal := round (cashTendered - cashApplied)
      let applied := foldChange round changeTotal (applyPayments round cashApplied payments)
      .ok
        { payments := applied
          totalApplied := added round (applied.map AppliedPayment.amount)
          changeGiven := changeTotal
          creditAmount := added round ((applied.filter (·.method = .credit)).map AppliedPayment.amount) }

end Context

/-- What is applied of the cash. -/
def cashApplied (due : ℚ) (payments : List PaymentInput) : ℚ := min (total (cash payments)) (due - total (nonCash payments))

section Digits

variable (held : ℚ → Prop) (due : ℚ) (payments : List PaymentInput)

/-- The digits of all that is computed for the rows: their amounts as they are summed up, the credit among them, the cash that is
left, and the change of the cash row that covers the rest and takes the tender of those after it. -/
structure RowsFit : Prop where
  change : held (total (cash payments) - cashApplied due payments)
  left : ∀ done, done <+: payments → held (max (cashApplied due payments - total (cash done)) 0)
  applied : ∀ done, done <+: payments → held (total (nonCash done) + min (total (cash done)) (cashApplied due payments))
  credit : ∀ done, done <+: payments.filter (·.paymentMethod = .credit) → held (total done)
  covering : ∀ before payment, before ++ [payment] <+: payments → payment.paymentMethod = .cash →
    total (cash before) < cashApplied due payments → cashApplied due payments ≤ total (cash (before ++ [payment])) →
      held (total (cash (before ++ [payment])) - cashApplied due payments) ∧
        (total (cash (before ++ [payment])) < total (cash payments) →
          held (total (cash payments) - total (cash (before ++ [payment]))) ∧ held (total (cash payments) - total (cash before)))

/-- No sum or difference that is formed has more digits than are held. -/
structure Fits : Prop where
  cash : ∀ done, done <+: cash payments → held (total done)
  nonCash : ∀ done, done <+: nonCash payments → held (total done)
  cashDue : payments ≠ [] → total (Settling.nonCash payments) ≤ due → held (due - total (Settling.nonCash payments))
  rows : total (Settling.nonCash payments) ≤ due →
    ¬(0 < total (Settling.cash payments) ∧ due - total (Settling.nonCash payments) ≤ 0) → RowsFit held due payments

end Digits

end Settling
