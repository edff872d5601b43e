import SasBackend.Library.RowLocks
import SasBackend.Library.Transition
import SasBackend.Semantics.CreditSales

/-! Tabs on the tables of one business, statement by statement.
A statement sees what has committed with what its own request has written, and row locks are held to the commit. What else may
refuse a request (its shift, the customer's credit, the stock, returns of the sale) ends it where it stands (`abort`).
-/
namespace DiningTabs
open RowLocks SasBackend Pricing
open Outcome (require)

inductive TableStatus
  | available | occupied | reserved | billing | cleaning
  deriving DecidableEq

structure DiningTable where
  branchId : Nat
  status : TableStatus
  deriving DecidableEq

structure Sale extends account : CreditSales.Sale where
  tableId : Option Nat

/-- The feature flags of the business. -/
structure Config where
  enableRestaurant : Bool
  enableTableManagement : Bool

structure OpenTabRequest where
  branchId : Nat
  tableId : Nat
  registerShiftId : Option Nat
  customerId : Option Nat

inductive Request
  | openTab (data : OpenTabRequest)
  | addLinesToTab (saleId : Nat) (lines : List Refunds.SaleLine)
  | requestTabBill (saleId : Nat)
  | completeTab (saleId : Nat) (payments : List Payment) (registerShiftId : Nat)
  | cancelSale (saleId : Nat)

inductive Refusal
  | featureNotEnabled
  | tableNotFound
  | otherBranch
  | activeTab
  | invalidTransition (current target : TableStatus)
  | saleNotFound
  | notDineIn
  | tabNotOpen (status : SaleStatus)
  | tabEmpty
  | noTable
  | bill (refusal : Refunds.Refusal)
  | tabUnpaid
  | notCancellable (status : SaleStatus)
  | aborted

inductive Row
  | counter
  | table (id : Nat)
  | sale (id : Nat)
  deriving DecidableEq

/-- `seen`: how many sales there were when the tabs on the table were counted. `after`: the sale as the request writes it. -/
inductive Process
  | requested (request : Request)
  | countingTabs (data : OpenTabRequest) (table : DiningTable)
  | numbering (data : OpenTabRequest) (table : DiningTable) (seen : Nat)
  | inserting (data : OpenTabRequest) (table : DiningTable) (seen : Nat)
  | committingOpen (data : OpenTabRequest) (seen : Nat)
  | billing (saleId : Nat) (sale : Sale) (tableId : Nat)
  | releasing (saleId : Nat) (sale after : Sale) (tableId : Nat)
  | countingRemaining (saleId : Nat) (sale after : Sale) (tableId : Nat)
  | freeing (saleId : Nat) (sale after : Sale) (tableId : Nat)
  | transitioning (saleId : Nat) (sale after : Sale) (tableId : Nat) (status : TableStatus)
  | committingSale (saleId : Nat) (sale after : Sale) (moved : Option (Nat × TableStatus))
  | ended (refusal : Option Refusal)

structure State where
  tables : List DiningTable
  sales : List Sale
  locks : List (Held Row)
  processes : List Process

inductive Action
  | begin (request : Request)
  | advance (p : Nat)
  | abort (p : Nat)

def transitions : TableStatus → List TableStatus
  | .available => [.occupied,.reserved]
  | .reserved => [.occupied,.available]
  | .occupied => [.billing,.available]
  | .billing => [.cleaning,.occupied]
  | .cleaning => [.available]

def isValidTableStatusTransition (current target : TableStatus) (force : Bool) : Bool :=
  force || current = target || (transitions current).contains target

def Sale.activeOn (tableId : Nat) (sale : Sale) : Bool := sale.tableId = some tableId && CreditSales.activeTab sale.status

def countActiveTabsOnTable (sales : List Sale) (tableId : Nat) : Nat := sales.countP (Sale.activeOn tableId)

def State.goto (s : State) (p : Nat) (process : Process) : State := { s with processes := s.processes.set p process }

def State.finish (s : State) (p : Nat) (refusal : Option Refusal) : State :=
  { s with locks := releaseAll s.locks p }.goto p (.ended refusal)

def State.lock (s : State) (p : Nat) (row : Row) (process : Process) : Option State :=
  if grantable s.locks p row .update then some ({ s with locks := acquire s.locks p row .update }.goto p process) else none

/-- Goes on with the sale locked and read. -/
def lockSale (s : State) (p saleId : Nat) (continue_ : Sale → Except Refusal Process) : Option State :=
  match s.sales[saleId]? with
  | none => some (s.finish p (some .saleNotFound))
  | some sale => match continue_ sale with
    | .ok process => s.lock p (.sale saleId) process
    | .error refusal => if grantable s.locks p (.sale saleId) .update then some (s.finish p (some refusal)) else none

def assertTabMutable (sale : Sale) : Except Refusal Unit := do
  require (sale.saleType = .dineIn) .notDineIn
  require (CreditSales.activeTab sale.status) (.tabNotOpen sale.status)

def addLinesToTab (saleId : Nat) (lines : List Refunds.SaleLine) (sale : Sale) : Except Refusal Process := do
  assertTabMutable sale
  return .committingSale saleId sale { sale with lines := sale.lines ++ lines } none

def requestTabBill (saleId : Nat) (sale : Sale) : Except Refusal Process := do
  assertTabMutable sale
  match sale.tableId with
  | none => .error .noTable
  | some tableId => return .billing saleId sale tableId

/-- The payments cover the total. -/
def completeTab (saleId : Nat) (payments : List Payment) (registerShiftId : Nat) (sale : Sale) : Except Refusal Process := do
  assertTabMutable sale
  require (!sale.lines.isEmpty) .tabEmpty
  let totalAmount := CreditSales.tabInvoiceTotal sale.account
  let settlement ← (settlePayments totalAmount payments true).mapError fun refusal => .bill (.settlement refusal)
  require (totalAmount ≤ settlement.totalApplied) .tabUnpaid
  let stored ← (settlement.payments.mapM Refunds.storePayment).mapError .bill
  let after := { sale with
    registerShiftId := some registerShiftId
    payments := sale.payments ++ stored
    status := determineSaleStatus totalAmount settlement.totalApplied }
  match sale.tableId with
  | none => return .committingSale saleId sale after none
  | some tableId => return .releasing saleId sale after tableId

def cancelSale (config : Config) (saleId : Nat) (sale : Sale) : Except Refusal Process := do
  require (sale.status ≠ .completed && sale.status ≠ .voided) (.notCancellable sale.status)
  let after := { sale with payments := sale.payments.map CreditSales.refundPayment, status := .cancelled }
  match sale.tableId with
  | none => return .committingSale saleId sale after none
  | some tableId =>
    if sale.saleType = .dineIn && config.enableRestaurant && config.enableTableManagement then
      return .countingRemaining saleId sale after tableId
    else return .committingSale saleId sale after none

def openTab (s : State) (p : Nat) (data : OpenTabRequest) : State :=
  match s.tables[data.tableId]? with
  | none => s.finish p (some .tableNotFound)
  | some table =>
    if table.branchId = data.branchId then s.goto p (.countingTabs data table) else s.finish p (some .otherBranch)

/-- A request starts with the flags it needs. -/
def begin_ (config : Config) (s : State) (p : Nat) : Request → Option State
  | .openTab data =>
    if config.enableRestaurant && config.enableTableManagement then some (openTab s p data)
    else some (s.finish p (some .featureNotEnabled))
  | .addLinesToTab saleId lines =>
    if config.enableRestaurant then lockSale s p saleId (addLinesToTab saleId lines)
    else some (s.finish p (some .featureNotEnabled))
  | .requestTabBill saleId =>
    if config.enableRestaurant && config.enableTableManagement then lockSale s p saleId (requestTabBill saleId)
    else some (s.finish p (some .featureNotEnabled))
  | .completeTab saleId payments registerShiftId =>
    if config.enableRestaurant && config.enableTableManagement then
      lockSale s p saleId (completeTab saleId payments registerShiftId)
    else some (s.finish p (some .featureNotEnabled))
  | .cancelSale saleId => lockSale s p saleId (cancelSale config saleId)

def OpenTabRequest.sale (data : OpenTabRequest) : Sale :=
  { branchId := data.branchId
    customerId := data.customerId
    status := .held
    lines := []
    payments := []
    saleType := .dineIn
    registerShiftId := data.registerShiftId
    tableId := some data.tableId }

def setTable (tables : List DiningTable) (tableId : Nat) (status : TableStatus) : List DiningTable :=
  tables.modify tableId fun table => { table with status := status }

def advance (config : Config) (s : State) (p : Nat) : Process → Option State
  | .requested request => begin_ config s p request
  | .countingTabs data table =>
    if countActiveTabsOnTable s.sales data.tableId > 0 then some (s.finish p (some .activeTab))
    else some (s.goto p (.numbering data table s.sales.length))
  | .numbering data table seen => s.lock p .counter (.inserting data table seen)
  | .inserting data table seen =>
    if isValidTableStatusTransition table.status .occupied false then
      s.lock p (.table data.tableId) (.committingOpen data seen)
    else some (s.finish p (some (.invalidTransition table.status .occupied)))
  | .committingOpen data _ =>
    some ({ s with sales := s.sales ++ [data.sale], tables := setTable s.tables data.tableId .occupied }.finish p none)
  | .billing saleId sale tableId => match s.tables[tableId]? with
    | none => some (s.finish p (some .tableNotFound))
    | some table =>
      if isValidTableStatusTransition table.status .billing false then
        some (s.goto p (.transitioning saleId sale sale tableId .billing))
      else some (s.finish p (some (.invalidTransition table.status .billing)))
  | .releasing saleId sale after tableId => match s.tables[tableId]? with
    | none => some (s.finish p (some .tableNotFound))
    | some table =>
      if table.status = .billing ∨ table.status = .occupied then
        some (s.goto p (.transitioning saleId sale after tableId .cleaning))
      else some (s.goto p (.committingSale saleId sale after none))
  | .countingRemaining saleId sale after tableId =>
    if countActiveTabsOnTable (s.sales.set saleId after) tableId > 0 then
      some (s.goto p (.committingSale saleId sale after none))
    else some (s.goto p (.freeing saleId sale after tableId))
  | .freeing saleId sale after tableId => match s.tables[tableId]? with
    | none => some (s.finish p (some .tableNotFound))
    | some _ => some (s.goto p (.transitioning saleId sale after tableId .available))
  | .transitioning saleId sale after tableId status =>
    s.lock p (.table tableId) (.committingSale saleId sale after (some (tableId,status)))
  | .committingSale saleId _ after moved =>
    some ({ s with
      sales := s.sales.set saleId after
      tables := moved.elim s.tables fun target => setTable s.tables target.1 target.2 }.finish p none)
  | .ended _ => none

def next (config : Config) (s : State) : Action → Option State
  | .begin request => some { s with processes := s.processes ++ [.requested request] }
  | .advance p => s.processes[p]?.bind (advance config s p)
  | .abort p => if p < s.processes.length then some (s.finish p (some .aborted)) else none

/-- At most one sale on a table is an active tab. -/
def OneTab (s : State) : Prop := ∀ tableId, countActiveTabsOnTable s.sales tableId ≤ 1

/-- Nobody is at work. -/
def Initial (s : State) : Prop := OneTab s ∧ s.locks = [] ∧ s.processes = []

/-- No tab that was opened on the table after the count is active when `open_tab` commits. -/
def undisturbed (s : State) : Action → Bool
  | .advance p => match s.processes[p]? with
    | some (.committingOpen data seen) => (s.sales.drop seen).all fun sale => !sale.activeOn data.tableId
    | _ => true
  | _ => true

end DiningTabs
