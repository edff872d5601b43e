import Mathlib.Algebra.BigOperators.Group.Finset.Basic
import SasBackend.Library.Outcome
import SasBackend.Library.Tally
import SasBackend.Library.Transition
import SasBackend.Semantics.Pricing
import SasBackend.Semantics.SaleExclusion

/-! Sales of one business, what was paid for them and what their returns give back.
A sale's id is its position, and a line's id is its sale with its position there. Checks that touch neither
quantities nor money (permissions, shift, credit limit, stock) only refuse more requests and are left out.
-/
namespace Refunds
open SasBackend Pricing Tally
open Outcome (require)

/-- A requested line with its discount merged with the scheme's and its tax rate resolved. -/
structure SaleLineRequest where
  productId : Nat
  variationId : Option Nat
  qty : ℚ
  unitPrice : ℚ
  discountPct : ℚ
  discountAmount : ℚ
  taxRate : ℚ
  deriving DecidableEq

structure CreateSaleRequest where
  branchId : Nat
  customerId : Option Nat
  lines : List SaleLineRequest
  payments : List Payment
  deriving DecidableEq

structure LineId where
  saleId : Nat
  index : Nat
  deriving DecidableEq

structure ReturnLineRequest where
  saleLineId : Option LineId
  productId : Option Nat
  variationId : Option Nat
  qty : ℚ
  unitPrice : Option ℚ
  taxAmount : Option ℚ
  deriving DecidableEq

structure CreateSaleReturnRequest where
  branchId : Nat
  saleId : Option Nat
  customerId : Option Nat
  lines : List ReturnLineRequest
  refundPayments : List Payment
  deriving DecidableEq

inductive Refusal
  | unprocessable
  | settlement (refusal : SettlementRefusal)
  | customerRequired
  | lineNotFound
  | otherSale
  | saleNotFound
  | notReturnable (status : SaleStatus)
  | otherBranch
  | otherCustomer
  | otherProduct
  | otherVariation
  | notReturnableQty (requested remaining sold returned : ℚ)
  | refundExceeds (paidOut totalRefund : ℚ)
  | refundIncomplete
  | integrityError
  deriving DecidableEq

/-- A stored line: its columns have fixed scales and pass the checks of the table. -/
structure SaleLine where
  productId : Nat
  variationId : Option Nat
  qty : ℚ
  unitPrice : ℚ
  discountAmount : ℚ
  taxAmount : ℚ
  qtyPositive : 0 < qty
  priceNonneg : 0 ≤ unitPrice
  discountNonneg : 0 ≤ discountAmount
  taxNonneg : 0 ≤ taxAmount
  priceScaled : unitPrice ∈ Decimal.grid 2
  discountScaled : discountAmount ∈ Decimal.grid 2
  taxScaled : taxAmount ∈ Decimal.grid 2

structure SalePayment where
  paymentMethod : PaymentMethod
  amount : ℚ
  status : PaymentStatus
  positive : 0 < amount

structure Sale where
  branchId : Nat
  customerId : Option Nat
  status : SaleStatus
  lines : List SaleLine
  payments : List SalePayment

structure ReturnLine where
  saleLineId : Option LineId
  qty : ℚ
  unitPrice : ℚ
  discountAmount : ℚ
  taxAmount : ℚ
  deriving DecidableEq

/-- `creditedToAccount`: the entry of the return in the customer's ledger. -/
structure SaleReturn where
  saleId : Option Nat
  customerId : Option Nat
  lines : List ReturnLine
  payments : List Payment
  creditedToAccount : ℚ
  deriving DecidableEq

structure State where
  sales : List Sale
  returns : List SaleReturn

inductive Action
  | createSale (data : CreateSaleRequest)
  | createSaleReturn (data : CreateSaleReturnRequest)
  deriving DecidableEq

def State.line (s : State) (id : LineId) : Option SaleLine := s.sales[id.saleId]?.bind (·.lines[id.index]?)

def SaleLineRequest.valid (line : SaleLineRequest) : Bool :=
  0 < line.qty && 0 ≤ line.unitPrice && 0 ≤ line.discountPct && line.discountPct ≤ 100 && 0 ≤ line.discountAmount &&
    0 ≤ line.taxRate && line.taxRate ≤ 100

def CreateSaleRequest.valid (data : CreateSaleRequest) : Bool :=
  data.lines ≠ [] && data.lines.all SaleLineRequest.valid && data.payments.all (0 < ·.amount)

def SaleLineRequest.amounts (line : SaleLineRequest) : LineAmounts :=
  calculateLineTotal line.qty line.unitPrice line.discountPct line.discountAmount line.taxRate

def SaleLineRequest.store (line : SaleLineRequest) : Except Refusal SaleLine :=
  let qty := Decimal.quantize 4 line.qty
  let unitPrice := Decimal.quantize 2 line.unitPrice
  let discountAmount := Decimal.quantize 2 line.amounts.effectiveDiscount
  let taxAmount := Decimal.quantize 2 line.amounts.taxAmount
  if checked : 0 < qty ∧ 0 ≤ unitPrice ∧ 0 ≤ discountAmount ∧ 0 ≤ taxAmount then
    .ok
      { productId := line.productId
        variationId := line.variationId
        qty := qty
        unitPrice := unitPrice
        discountAmount := discountAmount
        taxAmount := taxAmount
        qtyPositive := checked.1
        priceNonneg := checked.2.1
        discountNonneg := checked.2.2.1
        taxNonneg := checked.2.2.2
        priceScaled := Decimal.quantize_mem_grid 2 _
        discountScaled := Decimal.quantize_mem_grid 2 _
        taxScaled := Decimal.quantize_mem_grid 2 _ }
  else .error .integrityError

def storePayment (payment : AppliedPayment) : Except Refusal SalePayment :=
  let amount := Decimal.quantize 2 payment.amount
  if positive : 0 < amount then .ok ⟨payment.method,amount,.completed,positive⟩ else .error .integrityError

def createSale (data : CreateSaleRequest) : Except Refusal Sale := do
  require data.valid .unprocessable
  let totalAmount := (calculateSaleTotals (data.lines.map SaleLineRequest.amounts)).totalAmount
  let settlement ← (settlePayments totalAmount data.payments true).mapError Refusal.settlement
  require (settlement.creditAmount ≤ 0 || data.customerId.isSome) .customerRequired
  let lines ← data.lines.mapM SaleLineRequest.store
  let payments ← settlement.payments.mapM storePayment
  return ⟨data.branchId,data.customerId,determineSaleStatus totalAmount settlement.totalApplied,lines,payments⟩

def ReturnLineRequest.valid (line : ReturnLineRequest) : Bool :=
  0 < line.qty && line.unitPrice.all (0 ≤ ·) && line.taxAmount.all (0 ≤ ·) &&
    (line.saleLineId.isSome || line.productId.isSome && line.unitPrice.isSome)

def CreateSaleReturnRequest.valid (data : CreateSaleReturnRequest) : Bool :=
  data.lines ≠ [] && data.lines.all ReturnLineRequest.valid && data.refundPayments.all (0 < ·.amount)

/-- The sale a return is for: every linked line must exist and belong to it. -/
def resolveSale (s : State) (data : CreateSaleReturnRequest) : Except Refusal (Option Nat) :=
  let ids := data.lines.filterMap ReturnLineRequest.saleLineId
  let saleId := data.saleId.or (ids.head?.map LineId.saleId)
  if ids.any (fun id => (s.line id).isNone) then .error .lineNotFound
  else if ids.any (fun id => some id.saleId ≠ saleId) then .error .otherSale
  else .ok saleId

/-- The customer of a return, once its sale is found to take returns. -/
def resolveCustomer (s : State) (data : CreateSaleReturnRequest) : Option Nat → Except Refusal (Option Nat)
  | none => .ok data.customerId
  | some saleId =>
    match s.sales[saleId]? with
    | none => .error .saleNotFound
    | some sale =>
      if !SaleExclusion.returnable sale.status then .error (.notReturnable sale.status)
      else if sale.branchId ≠ data.branchId then .error .otherBranch
      else if data.customerId.isSome && sale.customerId.isSome && data.customerId ≠ sale.customerId then
        .error .otherCustomer
      else .ok (data.customerId.or sale.customerId)

def returnedLines (s : State) : List ReturnLine := s.returns.flatMap SaleReturn.lines

structure ReturnedAmounts where
  qty : ℚ
  discount : ℚ
  tax : ℚ
  deriving DecidableEq

def alreadyReturnedAmounts (s : State) (id : LineId) : ReturnedAmounts where
  qty := tally ReturnLine.saleLineId ReturnLine.qty (some id) (returnedLines s)
  discount := tally ReturnLine.saleLineId ReturnLine.discountAmount (some id) (returnedLines s)
  tax := tally ReturnLine.saleLineId ReturnLine.taxAmount (some id) (returnedLines s)

def share (amount qty lineQty : ℚ) : ℚ := if lineQty ≤ 0 then 0 else round2 (amount * qty / lineQty)

/-- Discount and tax to refund for some units of a sale line. -/
def computeReturnLineAmounts (returnQty : ℚ) (original : SaleLine) (returned : ReturnedAmounts) : ℚ × ℚ :=
  if returned.qty + returnQty ≥ original.qty then
    (max (original.discountAmount - returned.discount) 0,max (original.taxAmount - returned.tax) 0)
  else
    (share original.discountAmount returnQty original.qty,share original.taxAmount returnQty original.qty)

structure Prepared where
  request : ReturnLineRequest
  unitPrice : ℚ
  discount : ℚ
  tax : ℚ
  deriving DecidableEq

def Prepared.saleLineId (item : Prepared) : Option LineId := item.request.saleLineId

def Prepared.qty (item : Prepared) : ℚ := item.request.qty

def Prepared.refund (item : Prepared) : ℚ := round2 (item.qty * item.unitPrice - item.discount + item.tax)

def prepareLinked (s : State) (pending : List Prepared) (line : ReturnLineRequest) (id : LineId)
    (original : SaleLine) : Except Refusal Prepared :=
  let returned := alreadyReturnedAmounts s id
  let inRequest := tally Prepared.saleLineId Prepared.qty (some id) pending
  let remaining := original.qty - returned.qty - inRequest
  if line.productId.any (· ≠ original.productId) then .error .otherProduct
  else if line.variationId.isSome && line.variationId ≠ original.variationId then .error .otherVariation
  else if line.qty > remaining then .error (.notReturnableQty line.qty remaining original.qty returned.qty)
  else
    let amounts := computeReturnLineAmounts line.qty original { returned with qty := returned.qty + inRequest }
    .ok ⟨line,original.unitPrice,amounts.1,amounts.2⟩

def prepareLine (s : State) (pending : List Prepared) (line : ReturnLineRequest) : Except Refusal Prepared :=
  match line.saleLineId with
  | none => .ok ⟨line,line.unitPrice.getD 0,0,line.taxAmount.getD 0⟩
  | some id =>
    match s.line id with
    | none => .error .lineNotFound
    | some original => prepareLinked s pending line id original

/-- Lines are checked in order, each against those before it. -/
def prepareLines (s : State) (pending : List Prepared) : List ReturnLineRequest → Except Refusal (List Prepared)
  | [] => .ok pending
  | line :: rest => do
    let item ← prepareLine s pending line
    prepareLines s (pending ++ [item]) rest

def Prepared.store (item : Prepared) : ReturnLine :=
  ⟨item.saleLineId,Decimal.quantize 4 item.qty,Decimal.quantize 2 item.unitPrice,Decimal.quantize 2 item.discount,
    Decimal.quantize 2 item.tax⟩

def storeRefund (payment : Payment) : Payment := ⟨payment.paymentMethod,Decimal.quantize 2 payment.amount⟩

/-- What leaves the till: refunds of method credit go to the customer's account. -/
def cashOut (payments : List Payment) : ℚ := total (payments.filter (·.paymentMethod ≠ .credit))

def storeCredit (customerId : Option Nat) (creditPortion : ℚ) : ℚ :=
  if customerId.isSome && creditPortion > 0 then Decimal.quantize 2 creditPortion else 0

def SaleReturn.passesChecks (saleReturn : SaleReturn) (credited : Bool) : Bool :=
  saleReturn.lines.all (0 < ·.qty) && saleReturn.payments.all (0 < ·.amount) &&
    (!credited || saleReturn.creditedToAccount ≠ 0)

def createSaleReturn (s : State) (data : CreateSaleReturnRequest) : Except Refusal SaleReturn := do
  require data.valid .unprocessable
  let saleId ← resolveSale s data
  let customerId ← resolveCustomer s data saleId
  let prepared ← prepareLines s [] data.lines
  let totalRefund := (prepared.map Prepared.refund).sum
  let paidOut := total data.refundPayments
  require (paidOut ≤ totalRefund) (.refundExceeds paidOut totalRefund)
  let creditPortion := totalRefund - cashOut data.refundPayments
  require (creditPortion ≤ 0 || customerId.isSome) .refundIncomplete
  let saleReturn : SaleReturn :=
    ⟨saleId,customerId,prepared.map Prepared.store,data.refundPayments.map storeRefund,
      storeCredit customerId creditPortion⟩
  require (saleReturn.passesChecks (creditPortion > 0)) .integrityError
  return saleReturn

def next (s : State) : Action → Option State
  | .createSale data => (createSale data).toOption.map fun sale => { s with sales := s.sales ++ [sale] }
  | .createSaleReturn data =>
    (createSaleReturn s data).toOption.map fun saleReturn => { s with returns := s.returns ++ [saleReturn] }

/-- Any sales, none of them returned yet. -/
def Initial (s : State) : Prop := s.returns = []

/-- What was paid out and what was credited to the customer's account. -/
def SaleReturn.refundValue (saleReturn : SaleReturn) : ℚ :=
  cashOut saleReturn.payments + saleReturn.creditedToAccount

def State.refunded (s : State) (saleId : Nat) : ℚ :=
  tally SaleReturn.saleId SaleReturn.refundValue (some saleId) s.returns

def Sale.paid (sale : Sale) : ℚ :=
  ((sale.payments.filter (·.status = .completed)).map SalePayment.amount).sum

/-- No sale has paid back more than its completed payments. -/
def Covered (s : State) : Prop :=
  ∀ (saleId : Nat) (sale : Sale), s.sales[saleId]? = some sale → s.refunded saleId ≤ sale.paid

/-- What the line cost. -/
def SaleLine.lineTotal (line : SaleLine) : ℚ := round2 (line.qty * line.unitPrice) - line.discountAmount + line.taxAmount

/-- What some units of the line are worth: their part of its price in whole cents, and all it cost for all of it. -/
def SaleLine.worth (line : SaleLine) (qty : ℚ) : ℚ :=
  if qty < line.qty then
    Decimal.truncate 2 ((line.qty * line.unitPrice - line.discountAmount + line.taxAmount) * qty / line.qty)
  else line.lineTotal

def requestedQty (id : LineId) (lines : List ReturnLineRequest) : ℚ :=
  tally ReturnLineRequest.saleLineId ReturnLineRequest.qty (some id) lines

/-- What has been returned of the sale would with this request be worth more than was paid. -/
def outweighs (s : State) (lines : List ReturnLineRequest) (saleId : Nat) (sale : Sale) : Bool :=
  sale.paid < ∑ index : Fin sale.lines.length, sale.lines[index].worth
    ((alreadyReturnedAmounts s ⟨saleId,index⟩).qty + requestedQty ⟨saleId,index⟩ lines)

/-- Some units of the line, not the last, whose price, discount or tax rounds in the customer's favour. -/
def SaleLine.roundsAgainst (line : SaleLine) (qty : ℚ) : Bool :=
  let discount := line.discountAmount * qty / line.qty
  let tax := line.taxAmount * qty / line.qty
  let amount := qty * line.unitPrice - round2 discount + round2 tax
  round2 discount < discount || tax < round2 tax || amount < round2 amount

/-- A requested line whose amounts the sale line bears: the last units must not follow others of the same request
with more tax than discount, nor carry a negative tax. -/
def bears (s : State) (earlier : List ReturnLineRequest) (line : ReturnLineRequest) (id : LineId)
    (original : SaleLine) : Bool :=
  line.qty ∈ Decimal.grid 4 &&
    if original.qty ≤ (alreadyReturnedAmounts s id).qty + requestedQty id earlier + line.qty then
      0 ≤ original.taxAmount &&
        (earlier.all (·.saleLineId ≠ some id) || original.taxAmount ≤ original.discountAmount)
    else !original.roundsAgainst line.qty

/-- Every line is linked and borne by its sale line. -/
def bearsAll (s : State) (earlier : List ReturnLineRequest) : List ReturnLineRequest → Bool
  | [] => true
  | line :: rest =>
    line.saleLineId.any (fun id => (s.line id).all (bears s earlier line id)) && bearsAll s (earlier ++ [line]) rest

/-- A return that names a sale has only lines linked to it, which bear their amounts, is refunded in whole cents and
is worth no more than was paid. -/
def sound (s : State) : Action → Bool
  | .createSale _ => true
  | .createSaleReturn data =>
    data.saleId.isNone && data.lines.all (·.saleLineId.isNone) ||
      bearsAll s [] data.lines && data.refundPayments.all (·.amount ∈ Decimal.grid 2) &&
        s.sales.zipIdx.all fun sale => data.lines.all (·.saleLineId.all (·.saleId ≠ sale.2)) ||
          !outweighs s data.lines sale.2 sale.1

end Refunds
