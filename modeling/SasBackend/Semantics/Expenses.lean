import SasBackend.Library.Transition
import SasBackend.Semantics.CreditSales

/-! Expenses of one business, what is paid on them and what they book with their supplier, statement by statement.
A statement sees what has committed, and the rows a request has written are there for others with its commit: it writes
constants, so that waiting for the lock of a row only means that a statement comes later. References that do not exist end a
request where it stands (`abort`).
-/
namespace Expenses
open SasBackend Tally
open CreditSales (LedgerEntryType)

/-- The values of a NUMERIC(15,2) column. -/
abbrev Money := {q : ℚ // q ∈ Decimal.grid 2}

def money (q : ℚ) : Money := Decimal.column 2 q

structure Expense where
  branchId : Nat
  expenseCategoryId : Nat
  supplierId : Option Nat
  description : Option String
  expenseDate : Int
  amount : Money
  taxAmount : Money
  deletedAt : Option Nat
  deriving DecidableEq

structure ExpensePayment where
  expenseId : Nat
  paymentMethod : PaymentMethod
  amount : Money
  status : PaymentStatus
  deletedAt : Option Nat
  deriving DecidableEq

/-- `referenceId`: the expense an entry was booked for. -/
structure SupplierLedger where
  supplierId : Nat
  entryType : LedgerEntryType
  amount : Money
  referenceId : Option Nat
  deletedAt : Option Nat
  deriving DecidableEq

structure RegisterTransaction where
  registerShiftId : Nat
  txType : RegisterTxType
  paymentMethod : PaymentMethod
  amount : Money
  referenceId : Nat
  deriving DecidableEq

structure Database where
  expenses : List Expense
  payments : List ExpensePayment
  ledger : List SupplierLedger
  registerTransactions : List RegisterTransaction
  deriving DecidableEq

structure CreateExpensePaymentRequest where
  paymentMethod : PaymentMethod
  amount : ℚ
  deriving DecidableEq

def CreateExpensePaymentRequest.valid (data : CreateExpensePaymentRequest) : Bool :=
  0 < data.amount && data.paymentMethod ≠ .credit

structure CreateExpenseRequest where
  branchId : Nat
  expenseCategoryId : Nat
  supplierId : Option Nat
  description : Option String
  expenseDate : Int
  amount : ℚ
  taxAmount : ℚ
  payments : List CreateExpensePaymentRequest
  deriving DecidableEq

def CreateExpenseRequest.valid (data : CreateExpenseRequest) : Bool :=
  0 < data.amount && 0 ≤ data.taxAmount && data.payments.all CreateExpensePaymentRequest.valid

structure UpdateExpenseRequest where
  description : Option String
  expenseDate : Option Int
  amount : Option ℚ
  taxAmount : Option ℚ
  deriving DecidableEq

def UpdateExpenseRequest.valid (data : UpdateExpenseRequest) : Bool :=
  data.amount.all (0 < ·) && data.taxAmount.all (0 ≤ ·)

inductive Answer
  | aborted
  | notFound
  | exceedsRemaining (amount remaining : ℚ)
  | integrityError
  | payment (totalPaid remainingBalance : ℚ)
  | done
  deriving DecidableEq

inductive Process
  | creating (data : CreateExpenseRequest)
  | committingCreate (data : CreateExpenseRequest) (activeShift : Option Nat)
  | paying (id : Nat) (data : CreateExpensePaymentRequest)
  | summing (id : Nat) (data : CreateExpensePaymentRequest) (expense : Expense)
  | recording (id : Nat) (data : CreateExpensePaymentRequest) (expense : Expense) (currentPaid : ℚ)
  | committingPayment (id : Nat) (data : CreateExpensePaymentRequest) (expense : Expense) (currentPaid : ℚ)
      (activeShift : Option Nat)
  | updating (id : Nat) (data : UpdateExpenseRequest)
  | committingUpdate (id : Nat) (data : UpdateExpenseRequest) (expense : Expense)
  | deleting (id : Nat)
  | loadingPayments (id : Nat)
  | committingDelete (id : Nat) (payments : List Nat)
  | recordingSupplierPayment (supplierId : Nat) (amount : ℚ)
  | ended (answer : Answer)
  deriving DecidableEq

structure State where
  db : Database
  processes : List Process
  deriving DecidableEq

inductive Request
  | createExpense (data : CreateExpenseRequest)
  | addExpensePayment (id : Nat) (data : CreateExpensePaymentRequest)
  | updateExpense (id : Nat) (data : UpdateExpenseRequest)
  | deleteExpense (id : Nat)
  | recordSupplierPayment (supplierId : Nat) (amount : ℚ)

/-- A statement finds the time and the shift that is open in the branch. -/
inductive Action
  | begin (request : Request)
  | advance (p now : Nat) (activeShift : Option Nat)
  | abort (p : Nat)

def Request.valid : Request → Bool
  | .createExpense data => data.valid
  | .addExpensePayment _ data => data.valid
  | .updateExpense _ data => data.valid
  | .deleteExpense _ => true
  | .recordSupplierPayment _ amount => 0 < amount

def Request.start : Request → Process
  | .createExpense data => .creating data
  | .addExpensePayment id data => .paying id data
  | .updateExpense id data => .updating id data
  | .deleteExpense id => .deleting id
  | .recordSupplierPayment supplierId amount => .recordingSupplierPayment supplierId amount

def Expense.total (expense : Expense) : ℚ := expense.amount.val + expense.taxAmount.val

def Database.getExpenseById (db : Database) (id : Nat) : Option Expense := db.expenses[id]?.filter (·.deletedAt.isNone)

def ExpensePayment.counts (payment : ExpensePayment) : Bool := payment.deletedAt.isNone && payment.status = .completed

def Database.sumExpensePayments (db : Database) (id : Nat) : ℚ :=
  tally ExpensePayment.expenseId (fun payment => payment.amount.val) id (db.payments.filter ExpensePayment.counts)

/-- A cash payment goes through the drawer of the open shift. -/
def registerTransactions (id : Nat) (activeShift : Option Nat) (data : CreateExpensePaymentRequest) : List RegisterTransaction :=
  match activeShift with
  | some shift => if data.paymentMethod = .cash then [⟨shift,.expense,.cash,money data.amount,id⟩] else []
  | none => []

def storePayment (id : Nat) (data : CreateExpensePaymentRequest) : ExpensePayment :=
  ⟨id,data.paymentMethod,money data.amount,.completed,none⟩

def bookLiability (id : Nat) (data : CreateExpenseRequest) : List SupplierLedger :=
  match data.supplierId with
  | some supplierId => [⟨supplierId,.sale,money (-(data.amount + data.taxAmount)),some id,none⟩]
  | none => []

def storeExpense (data : CreateExpenseRequest) : Expense :=
  ⟨data.branchId,data.expenseCategoryId,data.supplierId,data.description,data.expenseDate,money data.amount,
    money data.taxAmount,none⟩

/-- None where the checks of the tables refuse a row. -/
def createExpense (db : Database) (data : CreateExpenseRequest) (activeShift : Option Nat) : Option Database :=
  let id := db.expenses.length
  let expense := storeExpense data
  let payments := data.payments.map (storePayment id)
  let ledger := bookLiability id data
  if 0 < expense.amount.val ∧ payments.all (0 < ·.amount.val) ∧ ledger.all (·.amount.val ≠ 0) then
    some ⟨db.expenses ++ [expense],db.payments ++ payments,db.ledger ++ ledger,
      db.registerTransactions ++ data.payments.flatMap (registerTransactions id activeShift)⟩
  else none

def addExpensePayment (db : Database) (id : Nat) (data : CreateExpensePaymentRequest) (activeShift : Option Nat) :
    Option Database :=
  let payment := storePayment id data
  if db.expenses[id]?.isSome ∧ 0 < payment.amount.val then
    some { db with
      payments := db.payments ++ [payment]
      registerTransactions := db.registerTransactions ++ registerTransactions id activeShift data }
  else none

/-- Only a column is written whose value differs from what was loaded. -/
def overwrite {α : Type} [DecidableEq α] (new : Option α) (loaded row : α) : α :=
  match new with
  | some value => if loaded = value then row else value
  | none => row

def overwriteMoney (new : Option ℚ) (loaded row : Money) : Money :=
  match new with
  | some value => if loaded.val = value then row else money value
  | none => row

def UpdateExpenseRequest.write (data : UpdateExpenseRequest) (loaded row : Expense) : Expense :=
  { row with
    description := overwrite (data.description.map some) loaded.description row.description
    expenseDate := overwrite data.expenseDate loaded.expenseDate row.expenseDate
    amount := overwriteMoney data.amount loaded.amount row.amount
    taxAmount := overwriteMoney data.taxAmount loaded.taxAmount row.taxAmount }

def updateExpense (db : Database) (id : Nat) (data : UpdateExpenseRequest) (loaded : Expense) : Option Database :=
  if db.expenses[id]?.all fun row => 0 < (data.write loaded row).amount.val then
    some { db with expenses := db.expenses.modify id (data.write loaded) }
  else none

/-- The payments of the expense that are not deleted yet. -/
def Database.loadPayments (db : Database) (id : Nat) : List Nat :=
  (List.range db.payments.length).filter fun i => db.payments[i]?.any fun payment =>
    payment.expenseId = id && payment.deletedAt.isNone

def deleteExpense (db : Database) (id : Nat) (payments : List Nat) (now : Nat) : Database :=
  { db with
    expenses := db.expenses.modify id fun expense => { expense with deletedAt := some now }
    payments := db.payments.mapIdx fun i payment => if i ∈ payments then { payment with deletedAt := some now } else payment }

def recordSupplierPayment (db : Database) (supplierId : Nat) (amount : ℚ) : Option Database :=
  let entry : SupplierLedger := ⟨supplierId,.payment,money amount,none,none⟩
  if entry.amount.val ≠ 0 then some { db with ledger := db.ledger ++ [entry] } else none

def State.goto (s : State) (p : Nat) (process : Process) : State := { s with processes := s.processes.set p process }

def State.commit (s : State) (p : Nat) (written : Option Database) (answer : Answer) : State :=
  match written with
  | some db => { s with db := db }.goto p (.ended answer)
  | none => s.goto p (.ended .integrityError)

def advance (s : State) (p now : Nat) (activeShift : Option Nat) : Process → Option State
  | .creating data => some (s.goto p (.committingCreate data activeShift))
  | .committingCreate data shift => some (s.commit p (createExpense s.db data shift) .done)
  | .paying id data => match s.db.getExpenseById id with
    | none => some (s.goto p (.ended .notFound))
    | some expense => some (s.goto p (.summing id data expense))
  | .summing id data expense =>
    let currentPaid := s.db.sumExpensePayments id
    let remaining := max (expense.total - currentPaid) 0
    if remaining < data.amount then some (s.goto p (.ended (.exceedsRemaining data.amount remaining)))
    else some (s.goto p (.recording id data expense currentPaid))
  | .recording id data expense currentPaid => some (s.goto p (.committingPayment id data expense currentPaid activeShift))
  | .committingPayment id data expense currentPaid shift =>
    let totalPaid := currentPaid + data.amount
    some (s.commit p (addExpensePayment s.db id data shift) (.payment totalPaid (max (expense.total - totalPaid) 0)))
  | .updating id data => match s.db.getExpenseById id with
    | none => some (s.goto p (.ended .notFound))
    | some expense => some (s.goto p (.committingUpdate id data expense))
  | .committingUpdate id data expense => some (s.commit p (updateExpense s.db id data expense) .done)
  | .deleting id => match s.db.getExpenseById id with
    | none => some (s.goto p (.ended .notFound))
    | some _ => some (s.goto p (.loadingPayments id))
  | .loadingPayments id => some (s.goto p (.committingDelete id (s.db.loadPayments id)))
  | .committingDelete id payments => some (s.commit p (some (deleteExpense s.db id payments now)) .done)
  | .recordingSupplierPayment supplierId amount => some (s.commit p (recordSupplierPayment s.db supplierId amount) .done)
  | .ended _ => none

def next (s : State) : Action → Option State
  | .begin request => if request.valid then some { s with processes := s.processes ++ [request.start] } else none
  | .advance p now activeShift => s.processes[p]?.bind (advance s p now activeShift)
  | .abort p => some (s.goto p (.ended .aborted))

def Initial (s : State) : Prop := s = ⟨⟨[],[],[],[]⟩,[]⟩

/-- No expense has more paid on it than it costs. -/
def PaidWithin (db : Database) : Prop := ∀ id expense, db.expenses[id]? = some expense → db.sumExpensePayments id ≤ expense.total

/-- The first payments stay within the bill, no update goes below what is paid, and a payment still finds no more paid and
no less to pay than it has read. -/
def covered (s : State) : Action → Bool
  | .advance p _ _ => match s.processes[p]? with
    | some (.committingCreate data _) =>
      (data.payments.map fun payment => (money payment.amount).val).sum ≤ (storeExpense data).total
    | some (.committingPayment id _ expense currentPaid _) => s.db.sumExpensePayments id ≤ currentPaid &&
      s.db.expenses[id]?.all fun row => expense.total ≤ row.total
    | some (.committingUpdate id data expense) =>
      s.db.expenses[id]?.all fun row => s.db.sumExpensePayments id ≤ (data.write expense row).total
    | _ => true
  | _ => true

def SupplierLedger.counts (entry : SupplierLedger) : Bool := entry.deletedAt.isNone

def Database.getSupplierBalance (db : Database) (supplierId : Nat) : ℚ :=
  tally SupplierLedger.supplierId (fun entry => entry.amount.val) supplierId (db.ledger.filter SupplierLedger.counts)

/-- What is booked with the supplier for the expense. -/
def Database.booked (db : Database) (supplierId id : Nat) : ℚ :=
  tally (fun entry : SupplierLedger => (entry.supplierId,entry.referenceId)) (fun entry => entry.amount.val)
    (supplierId,some id) (db.ledger.filter SupplierLedger.counts)

/-- What has been paid to the supplier. -/
def Database.paidTo (db : Database) (supplierId : Nat) : ℚ :=
  tally (fun entry : SupplierLedger => (entry.supplierId,entry.entryType)) (fun entry => entry.amount.val)
    (supplierId,.payment) (db.ledger.filter SupplierLedger.counts)

/-- What is owed to the supplier for the expense. -/
def Expense.owed (supplierId : Nat) (expense : Expense) : ℚ :=
  if expense.deletedAt.isNone ∧ expense.supplierId = some supplierId then expense.total else 0

structure LedgerAgrees (db : Database) : Prop where
  entries : ∀ supplierId id, db.booked supplierId id = -(db.expenses[id]?.elim 0 (Expense.owed supplierId))
  balance : ∀ supplierId, db.getSupplierBalance supplierId =
    db.paidTo supplierId - (db.expenses.map (Expense.owed supplierId)).sum

/-- What a supplier is owed for an expense does not change after it was booked, which rounds amount and tax at once. -/
def settled (s : State) : Action → Bool
  | .advance p _ _ => match s.processes[p]? with
    | some (.committingCreate data _) =>
      data.supplierId.isNone || (money (data.amount + data.taxAmount)).val = (storeExpense data).total
    | some (.committingUpdate id data expense) => s.db.expenses[id]?.all fun row =>
      row.supplierId.isNone || row.deletedAt.isSome || (data.write expense row).total = row.total
    | some (.committingDelete id _) => s.db.expenses[id]?.all fun row => row.supplierId.isNone || row.deletedAt.isSome
    | _ => true
  | _ => true

end Expenses
