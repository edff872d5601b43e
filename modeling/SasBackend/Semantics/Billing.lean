import SasBackend.Semantics.Discounts
import SasBackend.Semantics.Refunds
import SasBackend.Semantics.Settling

/-! What a sale costs: at the counter, pushed by a device and on a tab, and what its stored lines are read to cost later.
Permissions, stock, credit limits and the shift only refuse more sales and are left out; sums of payments are exact.
-/
namespace Billing
open SasBackend Pricing
open Outcome (require)
open Refunds (SaleLine SalePayment storePayment)
open Discounts (DiscountScheme LineDiscount SaleLineInput hasManualDiscount applyDiscountScheme)
open Settling (PaymentInput)

/-- A rate as its table admits it. -/
structure TaxRate where
  rate : ℚ
  nonneg : 0 ≤ rate
  atMost : rate ≤ 100

structure Product where
  categoryId : Option Nat
  taxRate : Option TaxRate

/-- The products that are found, and the schemes that are active and valid now. -/
structure Catalogue where
  product : Nat → Option Product
  discountScheme : Nat → Option DiscountScheme

def Catalogue.categoryOf (catalogue : Catalogue) (productId : Nat) : Option Nat :=
  (catalogue.product productId).bind Product.categoryId

structure CreateSaleLineRequest where
  productId : Nat
  variationId : Option Nat
  qty : ℚ
  unitPrice : ℚ
  discountPct : ℚ
  discountAmount : ℚ
  taxRate : Option ℚ
  deriving DecidableEq

structure CreateSaleRequest where
  customerId : Option Nat
  discountSchemeId : Option Nat
  lines : List CreateSaleLineRequest
  payments : List PaymentInput
  deriving DecidableEq

inductive Refusal
  | unprocessable
  | schemeNotFound
  | scheme (failure : Discounts.Failure)
  | productNotFound
  | settlement (refusal : SettlementRefusal)
  | customerRequired
  | tabNotOpen (status : SaleStatus)
  | tabEmpty
  | tabUnpaid
  | integrityError
  deriving DecidableEq

def CreateSaleLineRequest.valid (line : CreateSaleLineRequest) : Bool :=
  0 < line.qty && 0 ≤ line.unitPrice && 0 ≤ line.discountPct && line.discountPct ≤ 100 && 0 ≤ line.discountAmount &&
    line.taxRate.all fun rate => 0 ≤ rate && rate ≤ 100

def CreateSaleRequest.valid (data : CreateSaleRequest) : Bool :=
  data.lines ≠ [] && data.lines.all CreateSaleLineRequest.valid && data.payments.all (0 < ·.amount)

def CreateSaleLineRequest.input (line : CreateSaleLineRequest) : SaleLineInput :=
  ⟨line.qty,line.unitPrice,line.discountPct,line.discountAmount,line.productId⟩

def mergeLineDiscountInputs (line : CreateSaleLineRequest) (schemeInputs : Option LineDiscount) : LineDiscount :=
  if hasManualDiscount line.input then ⟨line.discountPct,line.discountAmount⟩
  else schemeInputs.getD ⟨line.discountPct,line.discountAmount⟩

/-- A requested rate counts for users who may override the product's. -/
def resolveLineTaxRate (catalogue : Catalogue) (mayOverride : Bool) (line : CreateSaleLineRequest) : ℚ :=
  match mayOverride, line.taxRate with
  | true, some rate => rate
  | _, _ => (((catalogue.product line.productId).bind Product.taxRate).map TaxRate.rate).getD 0

def schemeLineDiscounts (catalogue : Catalogue) (data : CreateSaleRequest) : Except Refusal (Option (List LineDiscount)) :=
  match data.discountSchemeId with
  | none => .ok none
  | some id =>
    match catalogue.discountScheme id with
    | none => .error .schemeNotFound
    | some scheme =>
      ((applyDiscountScheme scheme (data.lines.map CreateSaleLineRequest.input) catalogue.categoryOf).mapError
        Refusal.scheme).map some

def priceLine (catalogue : Catalogue) (mayOverride : Bool) (schemeInputs : Option LineDiscount)
    (line : CreateSaleLineRequest) : LineAmounts :=
  let discount := mergeLineDiscountInputs line schemeInputs
  calculateLineTotal line.qty line.unitPrice discount.discountPct discount.discountAmount
    (resolveLineTaxRate catalogue mayOverride line)

structure PricePreview where
  lines : List LineAmounts
  totals : SaleTotals
  deriving DecidableEq

def computeSalePricing (catalogue : Catalogue) (mayOverride : Bool) (data : CreateSaleRequest) :
    Except Refusal PricePreview := do
  let discounts ← schemeLineDiscounts catalogue data
  require (data.lines.all fun line => (catalogue.product line.productId).isSome) .productNotFound
  let lines := data.lines.zipIdx.map fun entry =>
    priceLine catalogue mayOverride (discounts.bind (·[entry.2]?)) entry.1
  return ⟨lines,calculateSaleTotals lines⟩

structure NewSaleLine where
  productId : Nat
  variationId : Option Nat
  qty : ℚ
  unitPrice : ℚ
  discountAmount : ℚ
  taxAmount : ℚ
  deriving DecidableEq

/-- Columns round to their scales, and the checks of the table follow. -/
def NewSaleLine.insert (line : NewSaleLine) : Except Refusal SaleLine :=
  let qty := Decimal.quantize 4 line.qty
  let unitPrice := Decimal.quantize 2 line.unitPrice
  let discountAmount := Decimal.quantize 2 line.discountAmount
  let taxAmount := Decimal.quantize 2 line.taxAmount
  if checked : 0 < qty ∧ 0 ≤ unitPrice ∧ 0 ≤ discountAmount ∧ 0 ≤ taxAmount then
    .ok
      { productId := line.productId
        variationId := line.variationId
        qty := qty
        unitPrice := unitPrice
        discountAmount := discountAmount
        taxAmount := taxAmount
        qtyPositive := checked.1
        priceNonneg := checked.2.1
        discountNonneg := checked.2.2.1
        taxNonneg := checked.2.2.2
        priceScaled := Decimal.quantize_mem_grid 2 _
        discountScaled := Decimal.quantize_mem_grid 2 _
        taxScaled := Decimal.quantize_mem_grid 2 _ }
  else .error .integrityError

def insertPayment (method : PaymentMethod) (amount : ℚ) : Except Refusal SalePayment :=
  if positive : 0 < Decimal.quantize 2 amount then .ok ⟨method,Decimal.quantize 2 amount,.completed,positive⟩
  else .error .integrityError

/-- A stored sale, and the total its payments were settled against. -/
structure Sale where
  totalAmount : ℚ
  status : SaleStatus
  lines : List SaleLine
  payments : List SalePayment

def CreateSaleLineRequest.sold (line : CreateSaleLineRequest) (amounts : LineAmounts) : NewSaleLine :=
  ⟨line.productId,line.variationId,line.qty,line.unitPrice,amounts.effectiveDiscount,amounts.taxAmount⟩

def createSale (catalogue : Catalogue) (mayOverride : Bool) (data : CreateSaleRequest) : Except Refusal Sale := do
  require data.valid .unprocessable
  let pricing ← computeSalePricing catalogue mayOverride data
  let totalAmount := pricing.totals.totalAmount
  let settlement ← (Settling.settlePayments id totalAmount data.payments true).mapError Refusal.settlement
  require (settlement.creditAmount ≤ 0 || data.customerId.isSome) .customerRequired
  let lines ← (data.lines.zip pricing.lines).mapM fun entry => (entry.1.sold entry.2).insert
  let payments ← settlement.payments.mapM fun applied => insertPayment applied.method applied.amount
  return ⟨totalAmount,determineSaleStatus totalAmount settlement.totalApplied,lines,payments⟩

/-- A line of a pushed sale, with the discount and tax the device told the customer. -/
structure SaleLinePayload where
  productId : Nat
  variationId : Option Nat
  qty : ℚ
  unitPrice : ℚ
  discountAmount : ℚ
  taxAmount : ℚ
  deriving DecidableEq

structure SaleCreatePayload where
  customerId : Option Nat
  lines : List SaleLinePayload
  payments : List Payment
  deriving DecidableEq

def SaleLinePayload.valid (line : SaleLinePayload) : Bool :=
  0 < line.qty && 0 ≤ line.unitPrice && 0 ≤ line.discountAmount && 0 ≤ line.taxAmount

def SaleCreatePayload.valid (p : SaleCreatePayload) : Bool :=
  p.lines ≠ [] && p.lines.all SaleLinePayload.valid && p.payments.all (0 < ·.amount)

def SaleLinePayload.lineTotal (line : SaleLinePayload) : ℚ :=
  invoiceRound2 (line.qty * line.unitPrice - line.discountAmount + line.taxAmount)

def SaleLinePayload.sold (line : SaleLinePayload) : NewSaleLine :=
  ⟨line.productId,line.variationId,line.qty,line.unitPrice,line.discountAmount,line.taxAmount⟩

/-- A pushed sale.create: what the device charged is kept. -/
def saleCreate (p : SaleCreatePayload) : Except Refusal Sale := do
  require p.valid .unprocessable
  let totalAmount := (p.lines.map SaleLinePayload.lineTotal).sum
  let totalApplied := total p.payments
  let creditAmount := total (p.payments.filter (·.paymentMethod = .credit))
  require (creditAmount ≤ 0 || p.customerId.isSome) .customerRequired
  let lines ← p.lines.mapM fun line => line.sold.insert
  let payments ← p.payments.mapM fun payment => insertPayment payment.paymentMethod payment.amount
  return ⟨totalAmount,determineSaleStatus totalAmount totalApplied,lines,payments⟩

def exactSubtotal (lines : List SaleLine) : ℚ := (lines.map fun line => line.qty * line.unitPrice).sum

def storedDiscount (lines : List SaleLine) : ℚ := (lines.map SaleLine.discountAmount).sum

def storedTax (lines : List SaleLine) : ℚ := (lines.map SaleLine.taxAmount).sum

def SaleLine.exactTotal (line : SaleLine) : ℚ := line.qty * line.unitPrice - line.discountAmount + line.taxAmount

structure InvoiceSummary where
  subtotal : ℚ
  totalDiscount : ℚ
  totalTax : ℚ
  totalAmount : ℚ
  totalPaid : ℚ
  balanceDue : ℚ
  changeGiven : ℚ
  deriving DecidableEq

def buildSummary (lines : List SaleLine) (payments : List SalePayment) : InvoiceSummary :=
  let subtotal := invoiceRound2 (exactSubtotal lines)
  let totalDiscount := invoiceRound2 (storedDiscount lines)
  let totalTax := invoiceRound2 (storedTax lines)
  let totalAmount := invoiceRound2 (subtotal - totalDiscount + totalTax)
  let totalPaid := invoiceRound2 ((payments.filter (·.status = .completed)).map SalePayment.amount).sum
  ⟨subtotal,totalDiscount,totalTax,totalAmount,totalPaid,invoiceRound2 (max (totalAmount - totalPaid) 0),
    invoiceRound2 (max (totalPaid - totalAmount) 0)⟩

def saleInvoiceTotal (lines : List SaleLine) : ℚ := invoiceRound2 (lines.map SaleLine.exactTotal).sum

/-- The sales list adds the lines up in the database and rounds afterwards. -/
def listedTotal (lines : List SaleLine) : ℚ := invoiceRound2 (lines.map SaleLine.exactTotal).sum

structure TabSaleLineRequest where
  line : CreateSaleLineRequest
  priceDeltas : List ℚ
  deriving DecidableEq

structure Tab where
  status : SaleStatus
  customerId : Option Nat
  lines : List SaleLine

def Tab.opened (customerId : Option Nat) : Tab := ⟨.held,customerId,[]⟩

def activeTab : SaleStatus → Bool
  | .held | .draft | .partiallyPaid => true
  | .completed | .cancelled | .voided => false

def assertTabMutable (tab : Tab) : Except Refusal Unit := require (activeTab tab.status) (.tabNotOpen tab.status)

def prepareTabLinePricing (catalogue : Catalogue) (mayOverride : Bool) (data : TabSaleLineRequest) :
    Except Refusal NewSaleLine := do
  let line := data.line
  let effectiveUnitPrice := invoiceRound2 (line.unitPrice + data.priceDeltas.sum)
  require (catalogue.product line.productId).isSome .productNotFound
  let discount := mergeLineDiscountInputs line none
  let amounts := calculateLineTotal line.qty effectiveUnitPrice discount.discountPct discount.discountAmount
    (resolveLineTaxRate catalogue mayOverride line)
  return ⟨line.productId,line.variationId,line.qty,effectiveUnitPrice,amounts.effectiveDiscount,amounts.taxAmount⟩

def addLinesToTab (catalogue : Catalogue) (mayOverride : Bool) (tab : Tab) (lines : List TabSaleLineRequest) :
    Except Refusal Tab := do
  require (lines ≠ [] && lines.all (·.line.valid)) .unprocessable
  assertTabMutable tab
  let priced ← lines.mapM (prepareTabLinePricing catalogue mayOverride)
  let stored ← priced.mapM NewSaleLine.insert
  return { tab with lines := tab.lines ++ stored }

def tabInvoiceTotal (tab : Tab) : ℚ := invoiceRound2 (tab.lines.map SaleLine.exactTotal).sum

def completeTab (tab : Tab) (payments : List PaymentInput) : Except Refusal Sale := do
  require (payments.all (0 < ·.amount)) .unprocessable
  assertTabMutable tab
  require (!tab.lines.isEmpty) .tabEmpty
  let totalAmount := tabInvoiceTotal tab
  let settlement ← (Settling.settlePayments id totalAmount payments true).mapError Refusal.settlement
  require (totalAmount ≤ settlement.totalApplied) .tabUnpaid
  require (settlement.creditAmount ≤ 0 || tab.customerId.isSome) .customerRequired
  let stored ← settlement.payments.mapM fun applied => insertPayment applied.method applied.amount
  return ⟨totalAmount,determineSaleStatus totalAmount settlement.totalApplied,tab.lines,stored⟩

end Billing
