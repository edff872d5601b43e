import SasBackend.Semantics.CreditSales
import SasBackend.Semantics.RegisterShift
import SasBackend.Semantics.SaleStock

/-! Stock, registers and customer accounts of one business: every request with all it writes to the three, and what a void is to leave.
Checks of shifts, customers and credit limits only refuse more requests and are left out.
-/
namespace Stock
open SasBackend Tally

def Store.remaining (s : Store) (id : Nat) : ℚ := s.layers[id]?.elim 0 fun layer => layer.val.qtyRemaining

/-- What the layers of a position hold together. -/
def Store.held (s : Store) (position : Position) : ℚ :=
  tally (fun layer : PurchaseLine => layer.val.position) (fun layer => layer.val.qtyRemaining) position s.layers

def Reference.saleOf : Reference → Option Nat
  | .saleLine id => some id.saleId
  | _ => none

/-- The movements of the lines of a sale, and what they have taken from a layer. -/
def Store.salesOf (s : Store) (saleId : Nat) : List StockMovement :=
  s.movements.filter fun m => m.val.movementType = .sale && m.val.reference.saleOf = some saleId

def Store.consumed (s : Store) (saleId layer : Nat) : ℚ :=
  tally (fun m : StockMovement => m.val.purchaseLineId) (fun m => |m.val.qty|) (some layer) (s.salesOf saleId)

/-- What the lines of a sale took beyond the layers. -/
def Store.shorts (s : Store) (saleId : Nat) (sale : Sale) : List Item :=
  (sale.lines.zipIdx.map fun entry => ⟨entry.1.position sale.branchId,s.untracedQty ⟨saleId,entry.2⟩⟩).filter (0 < ·.qty)

def LayerRow.item (row : LayerRow) : Item := ⟨row.position,row.qtyRemaining⟩

def takeHeld (held : Position → ℚ) (item : Item) (position : Position) : ℚ :=
  if position = item.position then max (held position - round4 item.qty) 0 else held position

/-- A quantity halfway between two that the columns hold is more than the layers have left for it. -/
def exactly (held : Position → ℚ) : List Item → Bool
  | [] => true
  | item :: rest =>
    (!decide (Decimal.Tie 4 item.qty) || held item.position < item.qty) && exactly (takeHeld held item) rest

/-- Stock is written as the layers lose it, only a tab that was opened as one is completed, and returns and cancels give back no more
than lines took from a layer.
-/
def reversible (s : Store) : Request → Bool
  | .createSale data => exactly s.held (data.bill.lines.map (lineItem data.bill.branchId))
  | .completeTab saleId _ _ => s.sales[saleId]?.all (·.status = .held)
  | .createSaleReturn data returnedAt => orderly s (.createSaleReturn data returnedAt)
  | .cancelSale saleId now => orderly s (.cancelSale saleId now)
  | _ => true

end Stock

namespace VoidedSales
open SasBackend Pricing Tally
open CreditSales (CustomerLedger LedgerEntryType refundPayment storeEntry)
open RegisterShift (Shift Transaction calculateExpectedCash insertTransaction)
open Stock (Store lineItem tabInvoiceTotal)

/-- What a sale holds besides its lines. -/
structure Bill where
  customerId : Option Nat
  registerShiftId : Option Nat
  payments : List Refunds.SalePayment

/-- A register transaction, with the sale that it settles. -/
structure Posting where
  saleId : Option Nat
  registerShiftId : Nat
  transaction : Transaction
  deriving DecidableEq

/-- An entry of the customers' ledger, with the sale that it settles. -/
structure Entry where
  saleId : Option Nat
  row : CustomerLedger

/-- The bills and returns are those of the sales and returns in stock. -/
structure State where
  stock : Store
  bills : List Bill
  returns : List Refunds.SaleReturn
  register : List Posting
  ledger : List Entry

def State.post (s : State) (saleId : Option Nat) (registerShiftId : Nat) (transactions : List Transaction) : State :=
  { s with register := s.register ++ transactions.map fun tx => ⟨saleId,registerShiftId,insertTransaction tx⟩ }

/-- The table refuses an amount that its column rounds to zero. -/
def createLedgerEntry (s : State) (saleId : Option Nat) (customerId : Nat) (entryType : LedgerEntryType) (amount : ℚ) : Option State :=
  let entry := storeEntry customerId entryType amount
  if entry.amount = 0 then none else some { s with ledger := s.ledger ++ [⟨saleId,entry⟩] }

/-- The part on account is owed by the customer of the sale, who must be known. -/
def charge (s : State) (saleId : Nat) (customerId : Option Nat) (creditAmount : ℚ) : Option State :=
  if creditAmount > 0 then customerId.bind fun id => createLedgerEntry s (some saleId) id .sale (-creditAmount) else some s

def creditBack (s : State) (saleId customerId : Option Nat) (entryType : LedgerEntryType) (amount : ℚ) : Option State :=
  match customerId with
  | some id => if amount > 0 then createLedgerEntry s saleId id entryType amount else some s
  | none => some s

def salePostings (payments : List AppliedPayment) : List Transaction := payments.map fun applied => ⟨.sale,applied.method,applied.amount⟩

def createSale (s : State) (data : Stock.CreateSale) (registerShiftId : Nat) : Option State := do
  let totalAmount := (calculateSaleTotals (data.bill.lines.map Refunds.SaleLineRequest.amounts)).totalAmount
  let settlement ← (settlePayments totalAmount data.bill.payments true).toOption
  let payments ← (settlement.payments.mapM Refunds.storePayment).toOption
  let saleId := s.stock.sales.length
  let s : State := { s with bills := s.bills ++ [⟨data.bill.customerId,some registerShiftId,payments⟩] }
  charge (s.post (some saleId) registerShiftId (salePostings settlement.payments)) saleId data.bill.customerId settlement.creditAmount

def openTab (s : State) (registerShiftId customerId : Option Nat) : State :=
  { s with bills := s.bills ++ [⟨customerId,registerShiftId,[]⟩] }

def completeTab (s : State) (saleId : Nat) (payments : List Payment) (registerShiftId : Nat) : Option State := do
  let sale ← s.stock.sales[saleId]?
  let bill ← s.bills[saleId]?
  let settlement ← (settlePayments (tabInvoiceTotal sale) payments true).toOption
  let stored ← (settlement.payments.mapM Refunds.storePayment).toOption
  let paid : Bill := { bill with registerShiftId := some registerShiftId, payments := bill.payments ++ stored }
  let s : State := { s with bills := s.bills.set saleId paid }
  charge (s.post (some saleId) registerShiftId (salePostings settlement.payments)) saleId bill.customerId settlement.creditAmount

/-- The sales and returns as far as a return reads them. -/
def State.shop (s : State) : Refunds.State where
  sales := (s.stock.sales.zip s.bills).map fun entry =>
    ⟨entry.1.branchId,entry.2.customerId,entry.1.status,entry.1.lines.map Stock.SaleLine.stored,entry.2.payments⟩
  returns := s.returns

def createSaleReturn (s : State) (data : Refunds.CreateSaleReturnRequest) (registerShiftId : Nat) : Option State := do
  let saleReturn ← (Refunds.createSaleReturn s.shop data).toOption
  let s : State := { s with returns := s.returns ++ [saleReturn] }
  let refunds : List Transaction := saleReturn.payments.map fun refund => ⟨.saleReturn,refund.paymentMethod,refund.amount⟩
  creditBack (s.post none registerShiftId refunds) none saleReturn.customerId .saleReturn saleReturn.creditedToAccount

def Bill.completed (bill : Bill) : List Refunds.SalePayment := bill.payments.filter (·.status = .completed)

def creditOf (payments : List Refunds.SalePayment) : ℚ :=
  ((payments.filter (·.paymentMethod = .credit)).map Refunds.SalePayment.amount).sum

def reversals (payments : List Refunds.SalePayment) : List Transaction :=
  payments.map fun payment => ⟨.saleReturn,payment.paymentMethod,payment.amount⟩

def reverseCompletedSaleSettlements (s : State) (saleId : Nat) (bill : Bill) : Option State :=
  let s : State := { s with bills := s.bills.set saleId { bill with payments := bill.payments.map refundPayment } }
  let s := match bill.registerShiftId with
    | some registerShiftId => s.post (some saleId) registerShiftId (reversals bill.completed)
    | none => s
  creditBack s (some saleId) bill.customerId .refund (creditOf bill.completed)

def voidSale (s : State) (saleId : Nat) : Option State := do
  let bill ← s.bills[saleId]?
  if bill.registerShiftId.isSome then reverseCompletedSaleSettlements s saleId bill else none

def cancelSale (s : State) (saleId : Nat) : Option State := do
  let bill ← s.bills[saleId]?
  if bill.completed.isEmpty then some s else reverseCompletedSaleSettlements s saleId bill

/-- What a request to the stock writes besides, made in this shift; a tab is opened for this customer. -/
def settle (s : State) (registerShiftId customerId : Option Nat) : Stock.Request → Option State
  | .createSale data => registerShiftId.bind (createSale s data)
  | .openTab _ => some (openTab s registerShiftId customerId)
  | .completeTab saleId payments _ => registerShiftId.bind (completeTab s saleId payments)
  | .createSaleReturn data _ => registerShiftId.bind (createSaleReturn s data)
  | .voidSale saleId _ => voidSale s saleId
  | .cancelSale saleId _ => cancelSale s saleId
  | _ => some s

inductive Request
  | stock (request : Stock.Request) (registerShiftId customerId : Option Nat)
  | recordCustomerPayment (customerId : Nat) (payment : Payment) (registerShiftId : Option Nat)
  | addCashMovement (txType : RegisterTxType) (amount : ℚ) (registerShiftId : Nat)
  | payExpense (payments : List Payment) (activeShift : Option Nat)
  | openShift (openingFloat : ℚ) (registerShiftId : Nat)
  | closeShift (actualCash : ℚ) (registerShiftId : Nat)
  deriving DecidableEq

def cashPostings (s : State) (txType : RegisterTxType) (payments : List Payment) : Option Nat → State
  | some registerShiftId =>
    s.post none registerShiftId ((payments.filter (·.paymentMethod = .cash)).map fun payment => ⟨txType,.cash,payment.amount⟩)
  | none => s

/-- A request that fails leaves nothing behind. -/
def serve (s : State) : Request → Option State
  | .stock request registerShiftId customerId => do
    let stock ← Stock.serve s.stock request
    let settled ← settle s registerShiftId customerId request
    some { settled with stock := stock }
  | .recordCustomerPayment customerId payment registerShiftId =>
    if 0 < payment.amount then
      createLedgerEntry (cashPostings s .cashIn [payment] registerShiftId) none customerId .payment payment.amount
    else none
  | .addCashMovement txType amount registerShiftId =>
    if txType = .cashIn ∨ txType = .cashOut then some (s.post none registerShiftId [⟨txType,.cash,amount⟩]) else none
  | .payExpense payments activeShift => some (cashPostings s .expense payments activeShift)
  | .openShift openingFloat registerShiftId =>
    some (if 0 < openingFloat then s.post none registerShiftId [⟨.openingFloat,.cash,openingFloat⟩] else s)
  | .closeShift actualCash registerShiftId =>
    some (if 0 < actualCash then s.post none registerShiftId [⟨.closingCount,.cash,actualCash⟩] else s)

/-- Nothing has been sold. -/
def Initial (s : State) : Prop :=
  Stock.Empty s.stock ∧ s.bills = [] ∧ (∀ posting ∈ s.register, posting.saleId = none) ∧ ∀ entry ∈ s.ledger, entry.saleId = none

def State.expectedCash (s : State) (registerShiftId : Nat) (shift : Shift) : ℚ :=
  calculateExpectedCash shift ((s.register.filter (·.registerShiftId = registerShiftId)).map Posting.transaction)

def State.customerBalance (s : State) (customerId : Nat) : ℚ :=
  tally (fun entry : Entry => entry.row.customerId) (fun entry => entry.row.amount) customerId
    (s.ledger.filter (·.row.deletedAt.isNone))

/-- The same without anything that was written for the sale. -/
def State.without (s : State) (saleId : Nat) : State :=
  { s with
    stock := { s.stock with movements := s.stock.movements.filter fun m => !s.stock.ofSale saleId m }
    register := s.register.filter (·.saleId ≠ some saleId)
    ledger := s.ledger.filter (·.saleId ≠ some saleId) }

/-- `before` and `made`: as the stock of the sale was taken; `later` and `t`: as the sale was voided. -/
structure Neutral (saleId : Nat) (before made later t : State) : Prop where
  standing : before.stock.layers.length ≤ later.stock.layers.length
  refilled : ∀ id < later.stock.layers.length, t.stock.remaining id =
    later.stock.remaining id + (before.stock.remaining id - made.stock.remaining id)
  fresh : ∃ sale, later.stock.sales[saleId]? = some sale ∧
    (t.stock.layers.drop later.stock.layers.length).map (fun layer => layer.val.item) = later.stock.shorts saleId sale
  balances : ∀ position, t.stock.balance position = (t.without saleId).stock.balance position
  drawers : ∀ registerShiftId shift, t.expectedCash registerShiftId shift = (t.without saleId).expectedCash registerShiftId shift
  accounts : ∀ customerId, t.customerBalance customerId = (t.without saleId).customerBalance customerId

/-- The sale whose stock the request takes. -/
def Request.sells (s : State) : Request → Option Nat
  | .stock (.createSale _) _ _ => some s.stock.sales.length
  | .stock (.completeTab saleId _ _) _ _ => some saleId
  | _ => none

/-- The ledger rounds what is put on account as the payments round it. -/
def wholeCredit (payments : List Payment) : Bool :=
  let credits := (payments.filter (·.paymentMethod = .credit)).map Payment.amount
  round2 credits.sum = (credits.map round2).sum

def wholeCredits : Stock.Request → Bool
  | .createSale data => wholeCredit data.bill.payments
  | .completeTab _ payments _ => wholeCredit payments
  | _ => true

def settles (s : State) : Request → Bool
  | .stock request _ _ => Stock.reversible s.stock request && wholeCredits request
  | _ => true

end VoidedSales
