import SasBackend.Library.Transition
import SasBackend.Semantics.Refunds

/-! The branch guards of the sales, returns, shift, customer payment and expense endpoints and what the endpoints
write, over the rows of one business.
A row's id is its position in its table. The guards of a request run before its handler, and other requests may
commit in between. Checks that depend neither on a branch nor on a shift (permissions, prices, stock, credit
limit, tables, feature flags, replayed requests) only refuse more and are left out.
-/
namespace BranchScope
open SasBackend Pricing
open Outcome (require)

structure Role where
  name : String
  deleted : Bool
  deriving DecidableEq

structure UserRole where
  businessId : Nat
  branchId : Option Nat
  role : Option Role
  deleted : Bool
  deriving DecidableEq

structure User where
  id : Nat
  businessId : Nat
  defaultBranchId : Option Nat
  userRoles : List UserRole
  deriving DecidableEq

def User.liveRole (user : User) (userRole : UserRole) : Option Role :=
  if userRole.deleted || userRole.businessId ≠ user.businessId then none
  else userRole.role.filter fun role => !role.deleted

/-- Branches this user may touch; `none` means every branch of the business. -/
def allowedBranchIds (user : User) : Option (List Nat) :=
  let live := user.userRoles.filter fun userRole => (user.liveRole userRole).isSome
  if live.any fun userRole => (user.liveRole userRole).any fun role => role.name.toLower = "owner" then none
  else
    let branchIds := live.filterMap UserRole.branchId
    match user.defaultBranchId with
    | some branchId => some (branchId :: branchIds)
    | none => if live.any (·.branchId.isNone) || branchIds.isEmpty then none else some branchIds

structure CashRegister where
  branchId : Nat
  isActive : Bool
  deriving DecidableEq

structure RegisterShift where
  branchId : Nat
  cashRegisterId : Nat
  openedBy : Nat
  status : ShiftStatus
  deriving DecidableEq

structure SalePayment where
  paymentMethod : PaymentMethod
  amount : ℚ
  status : PaymentStatus
  deriving DecidableEq

/-- `lines`: what each line comes to with the quantity, price, discount and tax it is stored with. -/
structure Sale where
  branchId : Nat
  saleType : SaleType
  status : SaleStatus
  registerShiftId : Option Nat
  lines : List ℚ
  payments : List SalePayment
  deriving DecidableEq

structure SaleReturn where
  branchId : Nat
  saleId : Option Nat
  deriving DecidableEq

structure Expense where
  branchId : Nat
  amount : ℚ
  taxAmount : ℚ
  deleted : Bool
  deriving DecidableEq

structure ExpensePayment where
  expenseId : Nat
  amount : ℚ
  deleted : Bool
  deriving DecidableEq

structure RegisterTransaction where
  registerShiftId : Nat
  txType : RegisterTxType
  paymentMethod : PaymentMethod
  amount : ℚ
  deriving DecidableEq

structure Database where
  branches : Nat
  customers : Nat
  cashRegisters : List CashRegister
  shifts : List RegisterShift
  sales : List Sale
  returns : List SaleReturn
  expenses : List Expense
  expensePayments : List ExpensePayment
  transactions : List RegisterTransaction
  deriving DecidableEq

inductive Refusal
  | foreignBranch
  | branchNotFound
  | saleNotFound
  | shiftNotFound
  | registerNotFound
  | expenseNotFound
  | customerNotFound
  | otherUsersShift
  | noOpenShift
  | otherShift
  | otherBranch
  | registerInactive
  | registerBusy
  | userBusy
  | shiftClosed
  | notAllowedToClose
  | notCashMovement
  | notDineIn
  | tabClosed (status : SaleStatus)
  | noLines
  | notCovered
  | settlement (refusal : SettlementRefusal)
  | wrongStatus (status : SaleStatus)
  | noShiftRecorded
  | hasReturns
  | exceedsBalance (amount remaining : ℚ)
  deriving DecidableEq

structure CreateSaleRequest where
  branchId : Nat
  registerShiftId : Option Nat
  saleType : SaleType
  lines : List Refunds.SaleLineRequest
  payments : List Payment
  deriving DecidableEq

structure CompleteTabRequest where
  registerShiftId : Option Nat
  payments : List Payment
  deriving DecidableEq

/-- `saleId`: the sale named by the request or by its lines. -/
structure CreateSaleReturnRequest where
  branchId : Nat
  registerShiftId : Option Nat
  saleId : Option Nat
  refundPayments : List Payment
  deriving DecidableEq

structure CreateExpenseRequest where
  branchId : Nat
  amount : ℚ
  taxAmount : ℚ
  payments : List Payment
  deriving DecidableEq

structure CustomerPaymentRequest where
  payment : Payment
  registerShiftId : Option Nat
  deriving DecidableEq

inductive Request
  | createSale (data : CreateSaleRequest)
  | openTab (branchId : Nat) (registerShiftId : Option Nat)
  | addTabLines (saleId : Nat) (lines : List Refunds.SaleLineRequest)
  | fireTab (saleId : Nat)
  | requestTabBill (saleId : Nat)
  | completeTab (saleId : Nat) (data : CompleteTabRequest)
  | cancelSale (saleId : Nat)
  | voidSale (saleId : Nat)
  | createReturn (data : CreateSaleReturnRequest)
  | openShift (cashRegisterId : Nat) (openingFloat : ℚ)
  | closeShift (shiftId : Nat) (actualCash : ℚ) (canManage : Bool)
  | cashMovement (shiftId : Nat) (txType : RegisterTxType) (amount : ℚ)
  | customerPayment (customerId : Nat) (data : CustomerPaymentRequest)
  | createExpense (data : CreateExpenseRequest)
  | addExpensePayment (expenseId : Nat) (payment : Payment)
  | updateExpense (expenseId : Nat) (amount taxAmount : Option ℚ)
  | deleteExpense (expenseId : Nat)
  deriving DecidableEq

/-- What the push of a device writes into the same tables. -/
inductive Operation
  | shiftOpen (cashRegisterId : Nat) (openingFloat : ℚ)
  | shiftClose (shiftId : Nat) (actualCash : ℚ)
  | saleCreate (data : CreateSaleRequest)
  deriving DecidableEq

inductive Write
  | insertRegister (register : CashRegister)
  | insertShift (shift : RegisterShift)
  | updateShift (id : Nat) (shift : RegisterShift)
  | insertSale (sale : Sale)
  | updateSale (id : Nat) (sale : Sale)
  | insertReturn (saleReturn : SaleReturn)
  | insertExpense (expense : Expense)
  | updateExpense (id : Nat) (expense : Expense)
  | insertExpensePayment (payment : ExpensePayment)
  | deleteExpensePayments (expenseId : Nat)
  | insertTransaction (transaction : RegisterTransaction)
  deriving DecidableEq

def Database.write (db : Database) : Write → Database
  | .insertRegister register => { db with cashRegisters := db.cashRegisters ++ [register] }
  | .insertShift shift => { db with shifts := db.shifts ++ [shift] }
  | .updateShift id shift => { db with shifts := db.shifts.set id shift }
  | .insertSale sale => { db with sales := db.sales ++ [sale] }
  | .updateSale id sale => { db with sales := db.sales.set id sale }
  | .insertReturn saleReturn => { db with returns := db.returns ++ [saleReturn] }
  | .insertExpense expense => { db with expenses := db.expenses ++ [expense] }
  | .updateExpense id expense => { db with expenses := db.expenses.set id expense }
  | .insertExpensePayment payment => { db with expensePayments := db.expensePayments ++ [payment] }
  | .deleteExpensePayments expenseId =>
    { db with
      expensePayments := db.expensePayments.map fun payment =>
        if payment.expenseId = expenseId then { payment with deleted := true } else payment }
  | .insertTransaction transaction => { db with transactions := db.transactions ++ [transaction] }

def Database.commit (db : Database) (writes : List Write) : Database := writes.foldl Database.write db

def assertBranchAccess (allowed : Option (List Nat)) (branchId : Nat) : Bool := allowed.all (·.contains branchId)

/-- A record that is not there passes: the endpoint answers 404. -/
def guardRecord {α : Type} (allowed : Option (List Nat)) (branchId : α → Nat) (row : Option α) : Bool :=
  row.all fun row => assertBranchAccess allowed (branchId row)

/-- The dependencies of the route: `guard_body_branches`, `guard_record` or `guard_body_record`. -/
def admits (allowed : Option (List Nat)) (db : Database) : Request → Bool
  | .createSale data => assertBranchAccess allowed data.branchId
  | .openTab branchId _ => assertBranchAccess allowed branchId
  | .addTabLines saleId _ | .fireTab saleId | .requestTabBill saleId | .completeTab saleId _ | .cancelSale saleId
  | .voidSale saleId => guardRecord allowed Sale.branchId db.sales[saleId]?
  | .createReturn data => assertBranchAccess allowed data.branchId
  | .openShift cashRegisterId _ => guardRecord allowed CashRegister.branchId db.cashRegisters[cashRegisterId]?
  | .closeShift shiftId _ _ | .cashMovement shiftId _ _ =>
    guardRecord allowed RegisterShift.branchId db.shifts[shiftId]?
  | .customerPayment _ _ => true
  | .createExpense data => assertBranchAccess allowed data.branchId
  | .addExpensePayment expenseId _ | .updateExpense expenseId _ _ | .deleteExpense expenseId =>
    guardRecord allowed Expense.branchId db.expenses[expenseId]?

def getOr {α : Type} (row : Option α) (refusal : Refusal) : Except Refusal α :=
  match row with
  | some row => .ok row
  | none => .error refusal

def Database.openShiftOf (db : Database) (userId : Nat) : Option Nat :=
  db.shifts.findIdx? fun shift => shift.openedBy = userId && shift.status = .opened

/-- The open shift of the caller; a shift the request names must be that one. -/
def requireCallerShift (db : Database) (userId : Nat) (branchId requested : Option Nat) : Except Refusal Nat :=
  let owner := requested.bind fun id => db.shifts[id]?.map RegisterShift.openedBy
  match db.openShiftOf userId with
  | none =>
    if requested.isSome && owner.isNone then .error .shiftNotFound
    else if owner.any (· ≠ userId) then .error .otherUsersShift
    else .error .noOpenShift
  | some id =>
    if requested.any (· ≠ id) then
      if owner.any (· ≠ userId) then .error .otherUsersShift else .error .otherShift
    else if branchId.any fun branchId => db.shifts[id]?.any (·.branchId ≠ branchId) then .error .otherBranch
    else .ok id

def verifyOpenRegisterShift (db : Database) (shiftId : Nat) : Except Refusal Unit := do
  let shift ← getOr db.shifts[shiftId]? .shiftNotFound
  require (shift.status = .opened) .shiftClosed

def completedPayment (applied : AppliedPayment) : SalePayment := ⟨applied.method,applied.amount,.completed⟩

def saleTransactions (shiftId : Nat) (payments : List AppliedPayment) : List Write :=
  payments.map fun applied => .insertTransaction ⟨shiftId,.sale,applied.method,applied.amount⟩

def lineAmounts (lines : List Refunds.SaleLineRequest) : List LineAmounts := lines.map Refunds.SaleLineRequest.amounts

def storedAmount (line : Refunds.SaleLineRequest) : ℚ :=
  Decimal.quantize 4 line.qty * Decimal.quantize 2 line.unitPrice - line.amounts.effectiveDiscount + line.amounts.taxAmount

def createSale (db : Database) (user : User) (data : CreateSaleRequest) : Except Refusal (List Write) := do
  let shiftId ← requireCallerShift db user.id (some data.branchId) data.registerShiftId
  require (data.branchId < db.branches) .branchNotFound
  let totalAmount := (calculateSaleTotals (lineAmounts data.lines)).totalAmount
  let settlement ← (settlePayments totalAmount data.payments true).mapError Refusal.settlement
  let sale : Sale :=
    ⟨data.branchId,data.saleType,determineSaleStatus totalAmount settlement.totalApplied,some shiftId,
      data.lines.map storedAmount,settlement.payments.map completedPayment⟩
  return .insertSale sale :: saleTransactions shiftId settlement.payments

/-- The shift a tab is opened with is only checked to be open. -/
def openTab (db : Database) (branchId : Nat) (registerShiftId : Option Nat) : Except Refusal (List Write) := do
  require (branchId < db.branches) .branchNotFound
  registerShiftId.forM (verifyOpenRegisterShift db)
  return [.insertSale ⟨branchId,.dineIn,.held,registerShiftId,[],[]⟩]

def isActiveTab (status : SaleStatus) : Bool := status = .held || status = .draft || status = .partiallyPaid

def getTabSale (db : Database) (saleId : Nat) : Except Refusal Sale := do
  let sale ← getOr db.sales[saleId]? .saleNotFound
  require (sale.saleType = .dineIn) .notDineIn
  require (isActiveTab sale.status) (.tabClosed sale.status)
  return sale

def addLinesToTab (db : Database) (saleId : Nat) (lines : List Refunds.SaleLineRequest) : Except Refusal (List Write) := do
  let sale ← getTabSale db saleId
  return [.updateSale saleId { sale with lines := sale.lines ++ lines.map storedAmount }]

/-- Firing a tab and asking for its bill change no modelled column of the sale. -/
def touchTab (db : Database) (saleId : Nat) : Except Refusal (List Write) := do
  let sale ← getTabSale db saleId
  return [.updateSale saleId sale]

def completeTab (db : Database) (user : User) (saleId : Nat) (data : CompleteTabRequest) :
    Except Refusal (List Write) := do
  let sale ← getTabSale db saleId
  require (sale.lines ≠ []) .noLines
  let shiftId ← requireCallerShift db user.id (some sale.branchId) data.registerShiftId
  let totalAmount := invoiceRound2 sale.lines.sum
  let settlement ← (settlePayments totalAmount data.payments true).mapError Refusal.settlement
  require (totalAmount ≤ settlement.totalApplied) .notCovered
  let completed : Sale :=
    { sale with
      registerShiftId := some shiftId
      status := determineSaleStatus totalAmount settlement.totalApplied
      payments := sale.payments ++ settlement.payments.map completedPayment }
  return .updateSale saleId completed :: saleTransactions shiftId settlement.payments

def Sale.completedPayments (sale : Sale) : List SalePayment := sale.payments.filter (·.status = .completed)

def refundedPayment (payment : SalePayment) : SalePayment :=
  if payment.status = .completed then { payment with status := .refunded } else payment

/-- The reversal goes to the shift the sale names. -/
def reverseSettlements (sale : Sale) : List Write :=
  match sale.registerShiftId with
  | none => []
  | some shiftId => sale.completedPayments.map fun payment =>
      .insertTransaction ⟨shiftId,.saleReturn,payment.paymentMethod,payment.amount⟩

def hasReturnLines (db : Database) (saleId : Nat) : Bool := db.returns.any (·.saleId = some saleId)

def cancelSale (db : Database) (saleId : Nat) : Except Refusal (List Write) := do
  let sale ← getOr db.sales[saleId]? .saleNotFound
  require (sale.status ≠ .completed && sale.status ≠ .voided) (.wrongStatus sale.status)
  require (!hasReturnLines db saleId) .hasReturns
  let cancelled : Sale := { sale with status := .cancelled, payments := sale.payments.map refundedPayment }
  return .updateSale saleId cancelled :: reverseSettlements sale

def voidSale (db : Database) (saleId : Nat) : Except Refusal (List Write) := do
  let sale ← getOr db.sales[saleId]? .saleNotFound
  require (sale.status = .completed) (.wrongStatus sale.status)
  let shiftId ← getOr sale.registerShiftId .noShiftRecorded
  require (!hasReturnLines db saleId) .hasReturns
  verifyOpenRegisterShift db shiftId
  let voided : Sale := { sale with status := .voided, payments := sale.payments.map refundedPayment }
  return .updateSale saleId voided :: reverseSettlements sale

def verifyReturnedSale (db : Database) (branchId : Nat) : Option Nat → Except Refusal Unit
  | none => .ok ()
  | some saleId => do
    let sale ← getOr db.sales[saleId]? .saleNotFound
    require (SaleExclusion.returnable sale.status) (.wrongStatus sale.status)
    require (sale.branchId = branchId) .otherBranch

def createSaleReturn (db : Database) (user : User) (data : CreateSaleReturnRequest) : Except Refusal (List Write) := do
  require (data.branchId < db.branches) .branchNotFound
  let shiftId ← requireCallerShift db user.id (some data.branchId) data.registerShiftId
  verifyReturnedSale db data.branchId data.saleId
  return .insertReturn ⟨data.branchId,data.saleId⟩ :: data.refundPayments.map fun refund =>
    .insertTransaction ⟨shiftId,.saleReturn,refund.paymentMethod,refund.amount⟩

/-- A cash transaction of a positive amount. -/
def cashTransaction (shiftId : Nat) (txType : RegisterTxType) (amount : ℚ) : List Write :=
  if 0 < amount then [.insertTransaction ⟨shiftId,txType,.cash,amount⟩] else []

def openShift (db : Database) (user : User) (cashRegisterId : Nat) (openingFloat : ℚ) : Except Refusal (List Write) := do
  let register ← getOr db.cashRegisters[cashRegisterId]? .registerNotFound
  require register.isActive .registerInactive
  require (!db.shifts.any fun shift => shift.cashRegisterId = cashRegisterId && shift.status = .opened) .registerBusy
  require (db.openShiftOf user.id).isNone .userBusy
  return .insertShift ⟨register.branchId,cashRegisterId,user.id,.opened⟩ ::
    cashTransaction db.shifts.length .openingFloat openingFloat

def closeShift (db : Database) (user : User) (shiftId : Nat) (actualCash : ℚ) (canManage : Bool) :
    Except Refusal (List Write) := do
  let shift ← getOr db.shifts[shiftId]? .shiftNotFound
  require (shift.status = .opened) .shiftClosed
  require (shift.openedBy = user.id || canManage) .notAllowedToClose
  return .updateShift shiftId { shift with status := .closed } :: cashTransaction shiftId .closingCount actualCash

def addCashMovement (db : Database) (user : User) (shiftId : Nat) (txType : RegisterTxType) (amount : ℚ) :
    Except Refusal (List Write) := do
  let own ← requireCallerShift db user.id none (some shiftId)
  require (txType = .cashIn || txType = .cashOut) .notCashMovement
  return [.insertTransaction ⟨own,txType,.cash,amount⟩]

/-- Any open shift of the business will do. -/
def recordCustomerPayment (db : Database) (customerId : Nat) (data : CustomerPaymentRequest) :
    Except Refusal (List Write) := do
  require (customerId < db.customers) .customerNotFound
  match data.registerShiftId with
  | none => return []
  | some shiftId =>
    verifyOpenRegisterShift db shiftId
    if data.payment.paymentMethod = .cash then
      return [.insertTransaction ⟨shiftId,.cashIn,.cash,data.payment.amount⟩]
    else return []

def Database.activeShiftOfBranch (db : Database) (branchId : Nat) : Option Nat :=
  db.shifts.findIdx? fun shift => shift.branchId = branchId && shift.status = .opened

def expenseTransactions (active : Option Nat) (payment : Payment) : List Write :=
  match active with
  | some shiftId =>
    if payment.paymentMethod = .cash then [.insertTransaction ⟨shiftId,.expense,.cash,payment.amount⟩] else []
  | none => []

def createExpense (db : Database) (data : CreateExpenseRequest) : Except Refusal (List Write) := do
  require (data.branchId < db.branches) .branchNotFound
  let active := db.activeShiftOfBranch data.branchId
  return .insertExpense ⟨data.branchId,data.amount,data.taxAmount,false⟩ :: data.payments.flatMap fun payment =>
    .insertExpensePayment ⟨db.expenses.length,payment.amount,false⟩ :: expenseTransactions active payment

def getExpenseById (db : Database) (expenseId : Nat) : Except Refusal Expense :=
  getOr (db.expenses[expenseId]?.filter (!·.deleted)) .expenseNotFound

def sumExpensePayments (db : Database) (expenseId : Nat) : ℚ :=
  ((db.expensePayments.filter fun payment => payment.expenseId = expenseId && !payment.deleted).map
    ExpensePayment.amount).sum

def addExpensePayment (db : Database) (expenseId : Nat) (payment : Payment) : Except Refusal (List Write) := do
  let expense ← getExpenseById db expenseId
  let remaining := max (expense.amount + expense.taxAmount - sumExpensePayments db expenseId) 0
  require (payment.amount ≤ remaining) (.exceedsBalance payment.amount remaining)
  return .insertExpensePayment ⟨expenseId,payment.amount,false⟩ ::
    expenseTransactions (db.activeShiftOfBranch expense.branchId) payment

def updateExpense (db : Database) (expenseId : Nat) (amount taxAmount : Option ℚ) : Except Refusal (List Write) := do
  let expense ← getExpenseById db expenseId
  return [.updateExpense expenseId
    { expense with amount := amount.getD expense.amount, taxAmount := taxAmount.getD expense.taxAmount }]

def deleteExpense (db : Database) (expenseId : Nat) : Except Refusal (List Write) := do
  let expense ← getExpenseById db expenseId
  return [.updateExpense expenseId { expense with deleted := true },.deleteExpensePayments expenseId]

def handle (db : Database) (user : User) : Request → Except Refusal (List Write)
  | .createSale data => createSale db user data
  | .openTab branchId registerShiftId => openTab db branchId registerShiftId
  | .addTabLines saleId lines => addLinesToTab db saleId lines
  | .fireTab saleId | .requestTabBill saleId => touchTab db saleId
  | .completeTab saleId data => completeTab db user saleId data
  | .cancelSale saleId => cancelSale db saleId
  | .voidSale saleId => voidSale db saleId
  | .createReturn data => createSaleReturn db user data
  | .openShift cashRegisterId openingFloat => openShift db user cashRegisterId openingFloat
  | .closeShift shiftId actualCash canManage => closeShift db user shiftId actualCash canManage
  | .cashMovement shiftId txType amount => addCashMovement db user shiftId txType amount
  | .customerPayment customerId data => recordCustomerPayment db customerId data
  | .createExpense data => createExpense db data
  | .addExpensePayment expenseId payment => addExpensePayment db expenseId payment
  | .updateExpense expenseId amount taxAmount => updateExpense db expenseId amount taxAmount
  | .deleteExpense expenseId => deleteExpense db expenseId

/-- A replayed sale takes the shift it names only if it is the user's own, on the sale's branch. -/
def usableShift (db : Database) (user : User) (data : CreateSaleRequest) : Option Nat :=
  data.registerShiftId.filter fun id =>
    db.shifts[id]?.any fun shift => shift.openedBy = user.id && shift.branchId = data.branchId

def replaySale (db : Database) (user : User) (data : CreateSaleRequest) : List Write :=
  let amounts := lineAmounts data.lines
  let totalAmount := (amounts.map LineAmounts.lineTotal).sum
  let shiftId := usableShift db user data
  .insertSale ⟨data.branchId,data.saleType,determineSaleStatus totalAmount (total data.payments),shiftId,
      data.lines.map storedAmount,data.payments.map fun payment => ⟨payment.paymentMethod,payment.amount,.completed⟩⟩ ::
    match shiftId with
    | none => []
    | some shiftId => data.payments.map fun payment =>
        .insertTransaction ⟨shiftId,.sale,payment.paymentMethod,payment.amount⟩

def replay (db : Database) (user : User) : Operation → Except Refusal (List Write)
  | .shiftOpen cashRegisterId openingFloat => openShift db user cashRegisterId openingFloat
  | .shiftClose shiftId actualCash => closeShift db user shiftId actualCash true
  | .saleCreate data => do
    require (assertBranchAccess (allowedBranchIds user) data.branchId) .foreignBranch
    require (data.branchId < db.branches) .branchNotFound
    return replaySale db user data

/-- A request past its guards, with the rows they saw. -/
structure Pending where
  user : User
  request : Request
  seen : Database
  deriving DecidableEq

structure State where
  db : Database
  pending : List Pending
  deriving DecidableEq

inductive Action
  | createCashRegister (register : CashRegister)
  | push (user : User) (operation : Operation)
  | guard (user : User) (request : Request)
  | handle (index : Nat)

def next (s : State) : Action → Option State
  | .createCashRegister register => some { s with db := s.db.commit [.insertRegister register] }
  | .push user operation =>
    (replay s.db user operation).toOption.map fun writes => { s with db := s.db.commit writes }
  | .guard user request =>
    if admits (allowedBranchIds user) s.db request then
      some { s with pending := s.pending ++ [⟨user,request,s.db⟩] }
    else none
  | .handle index => do
    let pending ← s.pending[index]?
    let writes ← (handle s.db pending.user pending.request).toOption
    return ⟨s.db.commit writes,s.pending.eraseIdx index⟩

/-- Any branches, customers and cash registers, and nothing recorded yet. -/
def Initial (s : State) : Prop :=
  s.pending = [] ∧ s.db.shifts = [] ∧ s.db.sales = [] ∧ s.db.returns = [] ∧ s.db.expenses = [] ∧
    s.db.expensePayments = [] ∧ s.db.transactions = []

/-- A register transaction belongs to a shift of the branches; a sale, return or expense is on one of them. -/
def Write.confined (branches : List Nat) (after : Database) : Write → Bool
  | .insertTransaction transaction =>
    after.shifts[transaction.registerShiftId]?.any fun shift => branches.contains shift.branchId
  | .insertSale sale | .updateSale _ sale => branches.contains sale.branchId
  | .insertReturn saleReturn => branches.contains saleReturn.branchId
  | .insertExpense expense | .updateExpense _ expense => branches.contains expense.branchId
  | _ => true

def Confined (branches : List Nat) (db : Database) (writes : List Write) : Prop :=
  ∀ write ∈ writes, write.confined branches (db.commit writes) = true

/-- The guard did not find the row, and it is on a foreign branch. -/
def late {α : Type} (branches : List Nat) (branchId : α → Nat) (seen now : Option α) : Bool :=
  seen.isNone && now.any fun row => !branches.contains (branchId row)

/-- A cash payment of a customer into a shift of a foreign branch, or a request that writes through a row of a
foreign branch inserted after the guard looked for it. -/
def strays (branches : List Nat) (seen db : Database) : Request → Bool
  | .customerPayment _ data => data.payment.paymentMethod = .cash && data.registerShiftId.any fun id =>
      db.shifts[id]?.any fun shift => !branches.contains shift.branchId
  | .addTabLines saleId _ | .fireTab saleId | .requestTabBill saleId | .completeTab saleId _ | .cancelSale saleId
  | .voidSale saleId => late branches Sale.branchId seen.sales[saleId]? db.sales[saleId]?
  | .openShift cashRegisterId openingFloat => 0 < openingFloat &&
      late branches CashRegister.branchId seen.cashRegisters[cashRegisterId]? db.cashRegisters[cashRegisterId]?
  | .closeShift shiftId actualCash _ => 0 < actualCash &&
      late branches RegisterShift.branchId seen.shifts[shiftId]? db.shifts[shiftId]?
  | .cashMovement shiftId _ _ => late branches RegisterShift.branchId seen.shifts[shiftId]? db.shifts[shiftId]?
  | .addExpensePayment expenseId payment => payment.paymentMethod = .cash &&
      late branches Expense.branchId seen.expenses[expenseId]? db.expenses[expenseId]? &&
        db.expenses[expenseId]?.any fun expense => (db.activeShiftOfBranch expense.branchId).isSome
  | .updateExpense expenseId _ _ | .deleteExpense expenseId =>
    late branches Expense.branchId seen.expenses[expenseId]? db.expenses[expenseId]?
  | _ => false

end BranchScope
