import SasBackend.Library.Interleaving
import SasBackend.Library.Tally
import SasBackend.Semantics.Refunds

/-! Sales on account, and what is credited to the account: the customers of one business and their ledger.
The requests lock sales and customers; what they do to stock and register only refuses more of them and is left out.
-/
namespace CreditSales
open SasBackend Pricing Tally Program

structure Customer where
  creditLimit : ℚ
  deletedAt : Option Int
  scaled : creditLimit ∈ Decimal.grid 2

inductive LedgerEntryType
  | sale | payment | saleReturn | openingBalance | adjustment | refund
  deriving DecidableEq

structure CustomerLedger where
  customerId : Nat
  entryType : LedgerEntryType
  amount : ℚ
  deletedAt : Option Int
  scaled : amount ∈ Decimal.grid 2

structure Sale extends Refunds.Sale where
  saleType : SaleType
  registerShiftId : Option Nat

structure Accounts where
  customers : List Customer
  ledger : List CustomerLedger
  sales : List Sale
  returns : List Refunds.SaleReturn

inductive Refusal
  | bill (refusal : Refunds.Refusal)
  | unprocessable
  | customerNotFound
  | saleNotFound
  | creditLimitExceeded (available required : ℚ)
  | notDineIn
  | tabNotOpen (status : SaleStatus)
  | tabEmpty
  | tabUnpaid
  | notVoidable (status : SaleStatus)
  | noShift
  | notCancellable (status : SaleStatus)
  | hasReturnLines
  | integrityError

inductive Row
  | customer (id : Nat)
  | sale (id : Nat)
  deriving DecidableEq

abbrev Tx := Program Accounts Row Refusal

def found {α : Type} (query : Accounts → Option α) (refusal : Refusal) : Tx α := do
  match ← get query with
  | some a => pure a
  | none => .fail refusal

def Accounts.customer (s : Accounts) (id : Nat) : Option Customer := s.customers[id]?.filter (·.deletedAt.isNone)

def Accounts.balance (s : Accounts) (customerId : Nat) : ℚ :=
  tally CustomerLedger.customerId CustomerLedger.amount customerId (s.ledger.filter (·.deletedAt.isNone))

def getCustomerById (id : Nat) : Tx Customer := found (·.customer id) .customerNotFound

def lockCustomer (id : Nat) : Tx Customer := do
  acquire (.customer id)
  found (·.customer id) .customerNotFound

def getCustomerBalance (id : Nat) : Tx ℚ := do
  let _ ← getCustomerById id
  get (·.balance id)

/-- The limit, which holds for positive ones. -/
def checkLimit (creditLimit currentBalance creditAmount : ℚ) : Except Refusal Unit :=
  let projectedBalance := currentBalance - creditAmount
  if projectedBalance < 0 ∧ creditLimit < -projectedBalance then
    .error (.creditLimitExceeded (if currentBalance < 0 then creditLimit + currentBalance else creditLimit) creditAmount)
  else .ok ()

def assertCreditAvailable (customerId : Nat) (creditAmount : ℚ) : Tx Unit := do
  let customer ← lockCustomer customerId
  if creditAmount ≤ 0 ∨ customer.creditLimit ≤ 0 then pure ()
  else do
    let currentBalance ← getCustomerBalance customerId
    ofExcept (checkLimit customer.creditLimit currentBalance creditAmount)

def storeEntry (customerId : Nat) (entryType : LedgerEntryType) (amount : ℚ) : CustomerLedger :=
  ⟨customerId,entryType,Decimal.quantize 2 amount,none,Decimal.quantize_mem_grid 2 amount⟩

/-- The table refuses an amount that its column rounds to zero. -/
def createLedgerEntry (customerId : Nat) (entryType : LedgerEntryType) (amount : ℚ) : Tx Unit := do
  let entry := storeEntry customerId entryType amount
  require (entry.amount ≠ 0) .integrityError
  put fun s => { s with ledger := s.ledger ++ [entry] }

def recordCustomerPayment (customerId : Nat) (amount : ℚ) : Tx Unit := do
  require (0 < amount) .unprocessable
  let _ ← getCustomerById customerId
  createLedgerEntry customerId .payment amount

/-- The check of the part on account; it needs a customer. -/
def checkCredit (customerId : Option Nat) (creditAmount : ℚ) : Tx Unit :=
  if creditAmount > 0 then
    match customerId with
    | some id => assertCreditAvailable id creditAmount
    | none => .fail (.bill .customerRequired)
  else pure ()

/-- The part on account is owed. -/
def charge (customerId : Option Nat) (creditAmount : ℚ) : Tx Unit :=
  match customerId with
  | some id => if creditAmount > 0 then createLedgerEntry id .sale (-creditAmount) else pure ()
  | none => pure ()

def knownCustomer : Option Nat → Tx Unit
  | some id => do
    let _ ← getCustomerById id
    pure ()
  | none => pure ()

def settle (totalAmount : ℚ) (payments : List Payment) : Tx Settlement :=
  ofExcept ((settlePayments totalAmount payments true).mapError fun refusal => .bill (.settlement refusal))

def createSale (data : Refunds.CreateSaleRequest) (saleType : SaleType) (registerShiftId : Nat) : Tx Unit := do
  require data.valid .unprocessable
  knownCustomer data.customerId
  let totalAmount := (calculateSaleTotals (data.lines.map Refunds.SaleLineRequest.amounts)).totalAmount
  let settlement ← settle totalAmount data.payments
  checkCredit data.customerId settlement.creditAmount
  let lines ← ofExcept ((data.lines.mapM Refunds.SaleLineRequest.store).mapError .bill)
  let payments ← ofExcept ((settlement.payments.mapM Refunds.storePayment).mapError .bill)
  let status := determineSaleStatus totalAmount settlement.totalApplied
  put fun s => { s with
    sales := s.sales ++ [⟨⟨data.branchId,data.customerId,status,lines,payments⟩,saleType,some registerShiftId⟩] }
  charge data.customerId settlement.creditAmount

def lockSale (saleId : Nat) : Tx Sale := do
  acquire (.sale saleId)
  found (·.sales[saleId]?) .saleNotFound

def activeTab (status : SaleStatus) : Bool := status = .held || status = .draft || status = .partiallyPaid

def tabInvoiceTotal (sale : Sale) : ℚ :=
  invoiceRound2 (sale.lines.map fun line => line.qty * line.unitPrice - line.discountAmount + line.taxAmount).sum

def completeTab (saleId : Nat) (payments : List Payment) (registerShiftId : Nat) : Tx Unit := do
  let sale ← lockSale saleId
  require (sale.saleType = .dineIn) .notDineIn
  require (activeTab sale.status) (.tabNotOpen sale.status)
  require (!sale.lines.isEmpty) .tabEmpty
  let totalAmount := tabInvoiceTotal sale
  let settlement ← settle totalAmount payments
  require (totalAmount ≤ settlement.totalApplied) .tabUnpaid
  checkCredit sale.customerId settlement.creditAmount
  let stored ← ofExcept ((settlement.payments.mapM Refunds.storePayment).mapError .bill)
  let status := determineSaleStatus totalAmount settlement.totalApplied
  put fun s => { s with
    sales := s.sales.modify saleId fun sale => { sale with
      payments := sale.payments ++ stored, status := status, registerShiftId := some registerShiftId } }
  charge sale.customerId settlement.creditAmount

def Accounts.hasReturnLines (s : Accounts) (saleId : Nat) : Bool :=
  s.returns.any fun saleReturn => saleReturn.saleId = some saleId && !saleReturn.lines.isEmpty

def refundPayment (payment : Refunds.SalePayment) : Refunds.SalePayment :=
  if payment.status = .completed then { payment with status := .refunded } else payment

/-- What was put on account by completed payments. -/
def reversedCredit (sale : Sale) : ℚ :=
  ((sale.payments.filter fun payment => payment.status = .completed && payment.paymentMethod = .credit).map (·.amount)).sum

def creditBack (customerId : Option Nat) (entryType : LedgerEntryType) (amount : ℚ) : Tx Unit :=
  match customerId with
  | some id => if amount > 0 then createLedgerEntry id entryType amount else pure ()
  | none => pure ()

def reverseCompletedSaleSettlements (saleId : Nat) (sale : Sale) : Tx Unit := do
  put fun s => { s with
    sales := s.sales.modify saleId fun sale => { sale with payments := sale.payments.map refundPayment } }
  creditBack sale.customerId .refund (reversedCredit sale)

def setStatus (saleId : Nat) (status : SaleStatus) : Tx Unit :=
  put fun s => { s with sales := s.sales.modify saleId fun sale => { sale with status := status } }

def voidSale (saleId : Nat) : Tx Unit := do
  let sale ← lockSale saleId
  require (sale.status = .completed) (.notVoidable sale.status)
  require sale.registerShiftId.isSome .noShift
  let returned ← get (·.hasReturnLines saleId)
  require (!returned) .hasReturnLines
  reverseCompletedSaleSettlements saleId sale
  setStatus saleId .voided

def cancelSale (saleId : Nat) : Tx Unit := do
  let sale ← lockSale saleId
  require (sale.status ≠ .completed && sale.status ≠ .voided) (.notCancellable sale.status)
  let returned ← get (·.hasReturnLines saleId)
  require (!returned) .hasReturnLines
  if sale.payments.any (·.status = .completed) then reverseCompletedSaleSettlements saleId sale else pure ()
  setStatus saleId .cancelled

def Accounts.shop (s : Accounts) : Refunds.State := ⟨s.sales.map (·.toSale),s.returns⟩

def lockKnown : Option Nat → Tx Unit
  | some id => do
    let _ ← lockCustomer id
    pure ()
  | none => pure ()

def createSaleReturn (data : Refunds.CreateSaleReturnRequest) : Tx Unit := do
  let resolved ← get fun s => do
    let saleId ← Refunds.resolveSale s.shop data
    Refunds.resolveCustomer s.shop data saleId
  let customerId ← ofExcept (resolved.mapError .bill)
  lockKnown customerId
  let prepared ← get fun s => Refunds.createSaleReturn s.shop data
  let saleReturn ← ofExcept (prepared.mapError .bill)
  put fun s => { s with returns := s.returns ++ [saleReturn] }
  creditBack customerId .saleReturn saleReturn.creditedToAccount

inductive Request
  | createSale (data : Refunds.CreateSaleRequest) (saleType : SaleType) (registerShiftId : Nat)
  | completeTab (saleId : Nat) (payments : List Payment) (registerShiftId : Nat)
  | recordCustomerPayment (customerId : Nat) (amount : ℚ)
  | voidSale (saleId : Nat)
  | cancelSale (saleId : Nat)
  | createSaleReturn (data : Refunds.CreateSaleReturnRequest)

def Request.program : Request → Tx Unit
  | .createSale data saleType registerShiftId => CreditSales.createSale data saleType registerShiftId
  | .completeTab saleId payments registerShiftId => CreditSales.completeTab saleId payments registerShiftId
  | .recordCustomerPayment customerId amount => CreditSales.recordCustomerPayment customerId amount
  | .voidSale saleId => CreditSales.voidSale saleId
  | .cancelSale saleId => CreditSales.cancelSale saleId
  | .createSaleReturn data => CreditSales.createSaleReturn data

/-- What a statement sees: customers and ledger as committed, with its own writes. Sales may be changed by other requests. -/
def Sees (shown view : Accounts) : Prop := view.customers = shown.customers ∧ view.ledger = shown.ledger

abbrev World := Interleaving.State Accounts Row Refusal

def Step : World → Interleaving.Label Accounts Request → World → Prop := Interleaving.Step Sees Request.program

def Accounts.owed (s : Accounts) (customerId : Nat) : ℚ := -s.balance customerId

/-- The customer has this credit limit. -/
def Limited (customerId : Nat) (creditLimit : ℚ) (s : Accounts) : Prop :=
  ∃ customer, s.customers[customerId]? = some customer ∧ customer.creditLimit = creditLimit

end CreditSales
