import SasBackend.Library.Decimal
import SasBackend.Library.SignificantDigits
import SasBackend.Semantics.Enums

/-! What a sale costs and which of the tendered payments are applied to it.
Products and sums are exact before they are rounded; the code keeps 28 digits of each.
-/
namespace Pricing
open SasBackend

def round2 (value : ℚ) : ℚ := Decimal.quantize 2 value

/-- `invoice_service._round2`, which rounds ties to the even cent. -/
def invoiceRound2 (value : ℚ) : ℚ := Decimal.quantizeHalfEven 2 value

/-- The result of an operation in Python's default decimal context. -/
def context (value : ℚ) : ℚ := SignificantDigits.rounded 28 value

structure LineAmounts where
  lineSubtotal : ℚ
  effectiveDiscount : ℚ
  taxableAmount : ℚ
  taxAmount : ℚ
  lineTotal : ℚ
  deriving DecidableEq

def calculateLineTotal (qty unitPrice discountPct discountAmount taxRate : ℚ) : LineAmounts :=
  let lineSubtotal := round2 (qty * unitPrice)
  let pctDiscount := round2 (lineSubtotal * discountPct / 100)
  let effectiveDiscount := round2 (max discountAmount pctDiscount)
  let taxableAmount := round2 (lineSubtotal - effectiveDiscount)
  let taxAmount := round2 (taxableAmount * taxRate / 100)
  ⟨lineSubtotal,effectiveDiscount,taxableAmount,taxAmount,round2 (taxableAmount + taxAmount)⟩

structure SaleTotals where
  subtotal : ℚ
  totalDiscount : ℚ
  totalTax : ℚ
  totalAmount : ℚ
  deriving DecidableEq

def calculateSaleTotals (lines : List LineAmounts) : SaleTotals :=
  let subtotal := round2 (lines.map LineAmounts.lineSubtotal).sum
  let totalDiscount := round2 (lines.map LineAmounts.effectiveDiscount).sum
  let totalTax := round2 (lines.map LineAmounts.taxAmount).sum
  ⟨subtotal,totalDiscount,totalTax,round2 (subtotal - totalDiscount + totalTax)⟩

def determineSaleStatus (totalAmount totalPaid : ℚ) : SaleStatus :=
  if totalAmount = 0 then .completed
  else if totalPaid = 0 then .draft
  else if totalPaid < totalAmount then .partiallyPaid
  else .completed

structure Payment where
  paymentMethod : PaymentMethod
  amount : ℚ
  deriving DecidableEq

def total (payments : List Payment) : ℚ := (payments.map Payment.amount).sum

structure AppliedPayment where
  method : PaymentMethod
  amount : ℚ
  tendered : ℚ
  change : ℚ
  deriving DecidableEq

structure Settlement where
  payments : List AppliedPayment
  totalApplied : ℚ
  changeGiven : ℚ
  creditAmount : ℚ
  deriving DecidableEq

inductive SettlementRefusal
  | paymentRequired
  | amountNotPositive
  | nonCashExceeds (nonCash totalDue : ℚ)
  | nothingLeftInCash
  deriving DecidableEq

/-- A cash row that change absorbs entirely is left out. -/
def applyPayments (cashLeft : ℚ) : List Payment → List AppliedPayment
  | [] => []
  | payment :: rest =>
    if payment.paymentMethod ≠ .cash then
      ⟨payment.paymentMethod,payment.amount,payment.amount,0⟩ :: applyPayments cashLeft rest
    else
      let take := min payment.amount cashLeft
      let applied := applyPayments (cashLeft - take) rest
      if take ≤ 0 then applied else ⟨.cash,take,payment.amount,payment.amount - take⟩ :: applied

def lastCashIndex (applied : List AppliedPayment) : Option Nat :=
  (applied.zipIdx.filter (·.1.method = .cash)).getLast?.map Prod.snd

def AppliedPayment.addChange (extra : ℚ) (payment : AppliedPayment) : AppliedPayment :=
  { payment with tendered := payment.tendered + extra, change := payment.change + extra }

/-- The tender of the rows left out goes to the last cash row. -/
def foldChange (changeTotal : ℚ) (applied : List AppliedPayment) : List AppliedPayment :=
  let accounted := (applied.map AppliedPayment.change).sum
  match lastCashIndex applied with
  | none => applied
  | some last =>
    if accounted = changeTotal then applied
    else applied.modify last (AppliedPayment.addChange (changeTotal - accounted))

def settlePayments (totalDue : ℚ) (payments : List Payment) (requirePayment : Bool) :
    Except SettlementRefusal Settlement :=
  if payments.isEmpty then
    if requirePayment && totalDue > 0 then .error .paymentRequired else .ok ⟨[],0,0,0⟩
  else if payments.any (·.amount ≤ 0) then .error .amountNotPositive
  else
    let cashTendered := total (payments.filter (·.paymentMethod = .cash))
    let nonCash := total (payments.filter (·.paymentMethod ≠ .cash))
    let cashDue := totalDue - nonCash
    if nonCash > totalDue then .error (.nonCashExceeds nonCash totalDue)
    else if cashTendered > 0 ∧ cashDue ≤ 0 then .error .nothingLeftInCash
    else
      let cashApplied := min cashTendered cashDue
      let changeTotal := cashTendered - cashApplied
      let applied := foldChange changeTotal (applyPayments cashApplied payments)
      .ok
        { payments := applied
          totalApplied := (applied.map AppliedPayment.amount).sum
          changeGiven := changeTotal
          creditAmount := ((applied.filter (·.method = .credit)).map AppliedPayment.amount).sum }

end Pricing
