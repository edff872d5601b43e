import SasBackend.Library.Decimal
import SasBackend.Library.RowLocks
import SasBackend.Library.Transition
import SasBackend.Semantics.Enums

/-! One register shift and every operation that posts to it, statement by statement.
Register transactions are never deleted. An insert locks the shift its foreign key names (key share), a
posting service locks the caller's shift (no key update), a close locks it for update.
-/
namespace RegisterShift
open RowLocks SasBackend

structure Transaction where
  txType : RegisterTxType
  paymentMethod : PaymentMethod
  amount : ℚ
  deriving DecidableEq

structure Shift where
  status : ShiftStatus
  openedBy : Nat
  branchId : Nat
  openingFloat : ℚ
  expectedCash : Option ℚ
  actualCash : Option ℚ
  cashDifference : Option ℚ
  deriving DecidableEq

/-- Money columns have two decimal places. -/
def money (q : ℚ) : ℚ := Decimal.quantize 2 q

def sumAmounts (transactions : List Transaction) (txType : RegisterTxType)
    (paymentMethod : Option PaymentMethod) : ℚ :=
  ((transactions.filter fun tx =>
    tx.txType = txType && (paymentMethod.isNone || paymentMethod = some tx.paymentMethod)).map
      Transaction.amount).sum

def calculateExpectedCash (shift : Shift) (transactions : List Transaction) : ℚ :=
  let cashSales := sumAmounts transactions .sale (some .cash)
  let cashReturns := sumAmounts transactions .saleReturn (some .cash)
  let cashIn := sumAmounts transactions .cashIn none
  let cashOut := sumAmounts transactions .cashOut none
  let cashExpenses := sumAmounts transactions .expense (some .cash)
  shift.openingFloat + cashSales - cashReturns + cashIn - cashOut - cashExpenses

structure Payment where
  paymentMethod : PaymentMethod
  amount : ℚ
  deriving DecidableEq

structure SalePayment where
  paymentMethod : PaymentMethod
  amount : ℚ
  status : PaymentStatus
  deleted : Bool
  deriving DecidableEq

/-- What an operation does with the shift before it posts. -/
inductive Access
  | requireCallerShift (user : Nat) (branchId : Option Nat) (postings : List Transaction)
  | verifyOpenRegisterShift (postings : List Transaction)
  | activeShiftForBranch (branchId : Nat) (postings : List Transaction)
  | notChecked (postings : List Transaction)
  | lockShift (user : Nat) (branchId : Option Nat) (postings : List Transaction)
  | close (user : Nat) (canManageShifts : Bool) (actualCash : ℚ)
  deriving DecidableEq

def postingsOf (txType : RegisterTxType) (payments : List Payment) : List Transaction :=
  payments.map fun payment => ⟨txType,payment.paymentMethod,payment.amount⟩

def reverseCompletedSaleSettlements (payments : List SalePayment) : List Transaction :=
  (payments.filter fun payment => !payment.deleted && payment.status = .completed).map
    fun payment => ⟨.saleReturn,payment.paymentMethod,payment.amount⟩

def cashPostings (txType : RegisterTxType) (payments : List Payment) : List Transaction :=
  postingsOf txType (payments.filter (·.paymentMethod = .cash))

/-- Operations that concern the shift; the sale of a void or cancel names it. -/
inductive Request
  | createSale (user branchId : Nat) (payments : List Payment)
  | completeTab (user branchId : Nat) (payments : List Payment)
  | createSaleReturn (user branchId : Nat) (refundPayments : List Payment)
  | addCashMovement (user : Nat) (txType : RegisterTxType) (amount : ℚ)
  | voidSale (payments : List SalePayment)
  | cancelSale (payments : List SalePayment)
  | recordCustomerPayment (payment : Payment)
  | addExpensePayment (branchId : Nat) (payment : Payment)
  | createExpense (branchId : Nat) (payments : List Payment)
  | closeShift (closedBy : Nat) (canManageShifts : Bool) (actualCash : ℚ)
  | saleCreateOp (user branchId : Nat) (payments : List Payment)
  | customerPaymentOp (user : Nat) (payment : Payment)
  | saleVoidOp (payments : List SalePayment)
  | shiftCloseOp (user : Nat) (canManageShifts : Bool) (actualCash : ℚ)
  deriving DecidableEq

def Request.access : Request → Access
  | .createSale user branchId payments => .requireCallerShift user (some branchId) (postingsOf .sale payments)
  | .completeTab user branchId payments => .requireCallerShift user (some branchId) (postingsOf .sale payments)
  | .createSaleReturn user branchId refundPayments =>
    .requireCallerShift user (some branchId) (postingsOf .saleReturn refundPayments)
  | .addCashMovement user txType amount =>
    -- Any other type is refused after the lock, before anything is written.
    .requireCallerShift user none (if txType = .cashIn ∨ txType = .cashOut then [⟨txType,.cash,amount⟩] else [])
  | .voidSale payments | .saleVoidOp payments =>
    .verifyOpenRegisterShift (reverseCompletedSaleSettlements payments)
  | .cancelSale payments => .notChecked (reverseCompletedSaleSettlements payments)
  | .recordCustomerPayment payment => .verifyOpenRegisterShift (cashPostings .cashIn [payment])
  | .addExpensePayment branchId payment =>
    if payment.paymentMethod = .cash then .activeShiftForBranch branchId (postingsOf .expense [payment])
    else .notChecked []
  | .createExpense branchId payments => .activeShiftForBranch branchId (cashPostings .expense payments)
  | .closeShift closedBy canManageShifts actualCash => .close closedBy canManageShifts actualCash
  | .saleCreateOp user branchId payments => .lockShift user (some branchId) (postingsOf .sale payments)
  | .customerPaymentOp user payment =>
    if payment.paymentMethod = .cash then .lockShift user none (postingsOf .cashIn [payment]) else .notChecked []
  | .shiftCloseOp user canManageShifts actualCash => .close user canManageShifts actualCash

inductive Phase
  | absent
  | starting (access : Access)
  /-- Postings of a service that locked the caller's shift. -/
  | posting (todo inserted : List Transaction)
  /-- Postings of a service that holds no lock on the shift. -/
  | postingUnlocked (todo inserted : List Transaction)
  /-- Postings of a replayed op that locked the shift it names. -/
  | replaying (shift : Shift) (todo inserted : List Transaction)
  | refreshing (shift : Shift) (inserted : List Transaction) (expected : ℚ)
  | loading (shift : Shift) (actualCash : ℚ)
  | closing (actualCash expected : ℚ)
  | ended
  deriving DecidableEq

/-- `versions` are the committed versions of the shift's row, the current one included. -/
structure State where
  shift : Shift
  versions : List Shift
  transactions : List Transaction
  locks : List (Held Unit)
  phase : Nat → Phase

/-- `held` is the version of the shift the session of an op still holds from an earlier op of its batch:
a locking select returns that object as it is. -/
inductive Action
  | begin (t : Nat) (request : Request)
  | advance (t : Nat) (held : Option Shift)
  | fail (t : Nat)

def State.goto (s : State) (t : Nat) (phase : Phase) : State :=
  { s with phase := Function.update s.phase t phase }

def State.finish (s : State) (t : Nat) : State :=
  { s with locks := releaseAll s.locks t }.goto t .ended

def State.lock (s : State) (t : Nat) (mode : Mode) (phase : Phase) : Option State :=
  if grantable s.locks t () mode then some ({ s with locks := acquire s.locks t () mode }.goto t phase) else none

def State.commit (s : State) (t : Nat) (shift : Shift) (inserted : List Transaction) : State :=
  { s with shift := shift, versions := shift :: s.versions, transactions := s.transactions ++ inserted }.finish t

def insertTransaction (tx : Transaction) : Transaction := { tx with amount := money tx.amount }

def closingCount (actualCash : ℚ) : List Transaction :=
  if 0 < actualCash then [insertTransaction ⟨.closingCount,.cash,actualCash⟩] else []

def closed (shift : Shift) (actualCash expected : ℚ) : Shift :=
  { shift with
    status := .closed, expectedCash := some (money expected), actualCash := some (money actualCash),
    cashDifference := some (money (actualCash - expected)) }

/-- `seen` is what the op's session holds of the shift. -/
def refreshed (shift seen : Shift) (expected : ℚ) : Shift :=
  { shift with
    expectedCash := some (money expected),
    cashDifference := seen.actualCash.elim shift.cashDifference fun actual => some (money (actual - expected)) }

def forBranch (shift : Shift) : Option Nat → Bool
  | some branchId => shift.branchId = branchId
  | none => true

def start (s : State) (t : Nat) (held : Option Shift) : Access → Option State
  | .requireCallerShift user branchId postings =>
    if s.shift.status = .opened && s.shift.openedBy = user && forBranch s.shift branchId then
      s.lock t .noKeyUpdate (.posting postings [])
    else some (s.finish t)
  | .verifyOpenRegisterShift postings =>
    if (held.getD s.shift).status = .opened then some (s.goto t (.postingUnlocked postings []))
    else some (s.finish t)
  | .activeShiftForBranch branchId postings =>
    if s.shift.status = .opened && s.shift.branchId = branchId then some (s.goto t (.postingUnlocked postings []))
    else some (s.finish t)
  | .notChecked postings => some (s.goto t (.postingUnlocked postings []))
  | .lockShift user branchId postings =>
    let shift := held.getD s.shift
    if shift.openedBy = user && forBranch shift branchId then s.lock t .noKeyUpdate (.replaying shift postings [])
    else some (s.finish t)
  | .close user canManageShifts actualCash =>
    let shift := held.getD s.shift
    if shift.status = .opened && (shift.openedBy = user || canManageShifts) then
      s.lock t .update (.loading shift actualCash)
    else some (s.finish t)

def advance (s : State) (t : Nat) (held : Option Shift) : Option State :=
  match s.phase t with
  | .starting access => start s t held access
  | .posting (tx :: rest) inserted => s.lock t .keyShare (.posting rest (inserted ++ [insertTransaction tx]))
  | .posting [] inserted => some (s.commit t s.shift inserted)
  | .postingUnlocked (tx :: rest) inserted =>
    s.lock t .keyShare (.postingUnlocked rest (inserted ++ [insertTransaction tx]))
  | .postingUnlocked [] inserted => some (s.commit t s.shift inserted)
  | .replaying shift (tx :: rest) inserted =>
    s.lock t .keyShare (.replaying shift rest (inserted ++ [insertTransaction tx]))
  | .replaying shift [] inserted =>
    if shift.status = .closed then
      some (s.goto t (.refreshing shift inserted (calculateExpectedCash shift (s.transactions ++ inserted))))
    else some (s.commit t s.shift inserted)
  | .refreshing shift inserted expected => some (s.commit t (refreshed s.shift shift expected) inserted)
  | .loading shift actualCash =>
    some (s.goto t (.closing actualCash (calculateExpectedCash shift s.transactions)))
  | .closing actualCash expected => some (s.commit t (closed s.shift actualCash expected) (closingCount actualCash))
  | .absent | .ended => none

def next (s : State) : Action → Option State
  | .begin t request => if s.phase t = .absent then some (s.goto t (.starting request.access)) else none
  | .advance t held => if held.all (s.versions.contains ·) then advance s t held else none
  | .fail t => if s.phase t = .absent then none else some (s.finish t)

/-- The state `open_shift` commits. -/
def openShift (openedBy branchId : Nat) (openingFloat : ℚ) : State :=
  let shift : Shift := ⟨.opened,openedBy,branchId,money openingFloat,none,none,none⟩
  { shift := shift, versions := [shift], locks := [], phase := fun _ => .absent,
    transactions := if 0 < openingFloat then [insertTransaction ⟨.openingFloat,.cash,openingFloat⟩] else [] }

def Initial (s : State) : Prop := ∃ openedBy branchId openingFloat, s = openShift openedBy branchId openingFloat

/-- A closed shift's totals are those of its register transactions. -/
def Settled (s : State) : Prop :=
  s.shift.status = .closed →
    s.shift.expectedCash = some (calculateExpectedCash s.shift s.transactions) ∧
    ∃ actual, s.shift.actualCash = some actual ∧
      s.shift.cashDifference = some (actual - calculateExpectedCash s.shift s.transactions)

end RegisterShift
