import Mathlib.Data.List.Basic
import SasBackend.Library.RowLocks
import SasBackend.Library.Service
import SasBackend.Library.Transition
import SasBackend.Semantics.Enums

/-! Kitchen tickets: fired from a tab, updated by header or by line, cancelled with their tab, statement by statement.
A ticket's id is its place in the table; its lines stand with it. Reads see committed rows, row locks are held to the end of the
transaction, and a flush writes the columns that differ from what was loaded.
-/
namespace KitchenTickets
open RowLocks SasBackend
open Outcome (refuseIf)
open Service (HTTPException)

inductive KotStatus
  | pending | preparing | ready | served | cancelled
  deriving DecidableEq

def KotStatus.value : KotStatus → String
  | .pending => "pending"
  | .preparing => "preparing"
  | .ready => "ready"
  | .served => "served"
  | .cancelled => "cancelled"

/-- `KOT_STATUS_PRIORITY`, which has no entry for a cancelled line. -/
def kotStatusPriority : KotStatus → Nat
  | .pending => 0
  | .preparing => 1
  | .ready => 2
  | .served => 3
  | .cancelled => 4

def kotLineStatusTransitions : KotStatus → List KotStatus
  | .pending => [.preparing,.cancelled]
  | .preparing => [.ready,.cancelled]
  | .ready => [.served,.cancelled]
  | .served => []
  | .cancelled => []

def kotHeaderStatusTransitions : KotStatus → List KotStatus
  | .pending => [.preparing,.cancelled]
  | .preparing => [.ready,.cancelled]
  | .ready => [.served,.cancelled]
  | .served => []
  | .cancelled => []

structure KotOrderLine where
  saleLineId : Option Nat
  status : KotStatus
  deriving DecidableEq

structure KotOrder where
  businessId : Nat
  saleId : Nat
  status : KotStatus
  readyAt : Option Int
  servedAt : Option Int
  deletedAt : Option Int
  lines : List KotOrderLine
  deriving DecidableEq

def isValidKotStatusTransition (current target : KotStatus) (transitions : KotStatus → List KotStatus) : Bool :=
  current = target || (transitions current).contains target

/-- The first of the least advanced, as `min` picks it. -/
def slowest (first : KotStatus) (rest : List KotStatus) : KotStatus :=
  rest.foldl (fun best status => if kotStatusPriority status < kotStatusPriority best then status else best) first

def deriveKotHeaderStatus (lineStatuses : List KotStatus) : KotStatus :=
  match lineStatuses.filter (· ≠ .cancelled) with
  | [] => .cancelled
  | first :: rest => slowest first rest

def KotOrder.statuses (order : KotOrder) : List KotStatus := order.lines.map (·.status)

def applyHeaderTimestamps (order : KotOrder) (headerStatus : KotStatus) (now : Int) : KotOrder :=
  { order with
    readyAt := if headerStatus = .ready ∨ headerStatus = .served then order.readyAt.or (some now) else order.readyAt
    servedAt := if headerStatus = .served then order.servedAt.or (some now) else order.servedAt }

def promoteLine (target : KotStatus) (line : KotOrderLine) : KotOrderLine :=
  if line.status = .cancelled then line
  else if kotStatusPriority line.status < kotStatusPriority target then { line with status := target }
  else line

def promoteLinesToStatus (order : KotOrder) (target : KotStatus) : KotOrder :=
  { order with lines := order.lines.map (promoteLine target) }

def syncKotOrderStatusFromLines (order : KotOrder) (now : Int) : KotOrder :=
  let derived := deriveKotHeaderStatus order.statuses
  applyHeaderTimestamps { order with status := derived } derived now

/-- The lines that go with a header set by hand. -/
def pushDown (order : KotOrder) (newStatus : KotStatus) : KotOrder :=
  if newStatus = .cancelled then { order with lines := order.lines.map ({ · with status := .cancelled }) }
  else if newStatus ≠ .pending then promoteLinesToStatus order newStatus
  else order

def updateKotOrderStatus (order : KotOrder) (newStatus : KotStatus) (now : Int) : Except HTTPException KotOrder := do
  refuseIf (!isValidKotStatusTransition order.status newStatus kotHeaderStatusTransitions)
    ⟨400,"Invalid KOT status transition from '" ++ order.status.value ++ "' to '" ++ newStatus.value ++ "'"⟩
  return applyHeaderTimestamps (pushDown { order with status := newStatus } newStatus) newStatus now

def findLine (order : KotOrder) (index : Nat) : Except HTTPException KotOrderLine :=
  match order.lines[index]? with
  | some line => .ok line
  | none => .error ⟨404,"KOT line not found"⟩

def updateKotOrderLineStatus (order : KotOrder) (index : Nat) (newStatus : KotStatus) (now : Int) :
    Except HTTPException KotOrder := do
  let line ← findLine order index
  refuseIf order.deletedAt.isSome ⟨404,"KOT order not found"⟩
  refuseIf (!isValidKotStatusTransition line.status newStatus kotLineStatusTransitions)
    ⟨400,"Invalid KOT line status transition from '" ++ line.status.value ++ "' to '" ++ newStatus.value ++ "'"⟩
  return syncKotOrderStatusFromLines { order with lines := order.lines.set index { line with status := newStatus } } now

structure SaleLine where
  id : Nat
  deletedAt : Option Int

structure Sale where
  businessId : Nat
  saleType : SaleType
  status : SaleStatus
  deletedAt : Option Int
  lines : List SaleLine

/-- An update of a ticket, or of one of its lines. -/
structure KotRequest where
  orderId : Nat
  businessId : Nat
  line : Option Nat
  newStatus : KotStatus

structure FireRequest where
  saleId : Nat
  businessId : Nat
  saleLineIds : Option (List Nat)

/-- `enableRestaurant`: the feature flag of the business. -/
structure CancelRequest where
  saleId : Nat
  businessId : Nat
  enableRestaurant : Bool

inductive Request
  | kot (request : KotRequest)
  | fire (request : FireRequest)
  | cancelSale (request : CancelRequest)

inductive Row
  | sale (id : Nat)
  | order (id : Nat)
  | line (orderId index : Nat)
  deriving DecidableEq

inductive Statement
  | readOrder | readLines | updateOrder | updateLines
  deriving DecidableEq

/-- An open transaction after the locking read it begins with. `loaded` is what an update has read of its ticket, `order` the
ticket as the code then sets it; a cancellation goes through the tickets it has found. -/
inductive Transaction
  | updating (request : KotRequest) (todo : List Statement) (loaded order : KotOrder)
  | firing (request : FireRequest) (sale : Sale) (ticket : Option KotOrder)
  | cancelling (request : CancelRequest) (found : Option (List Nat)) (written : List Nat)

structure State where
  sales : List Sale
  orders : List KotOrder
  locks : List (Held Row)
  transactions : Nat → Option Transaction

def activeTabStatuses : List SaleStatus := [.held,.draft,.partiallyPaid]

def assertTabMutable (sale : Sale) (value : SaleStatus → String) : Except HTTPException Unit :=
  refuseIf (!activeTabStatuses.contains sale.status) ⟨400,"Tab is not open (status is '" ++ value sale.status ++ "')"⟩

def saleStatusValue : SaleStatus → String
  | .draft => "draft"
  | .held => "held"
  | .completed => "completed"
  | .partiallyPaid => "partially_paid"
  | .cancelled => "cancelled"
  | .voided => "voided"

def getOr {α : Type} (value : Option α) (error : HTTPException) : Except HTTPException α :=
  match value with
  | some value => .ok value
  | none => .error error

def getTabSaleForUpdate (s : State) (request : FireRequest) : Except HTTPException Sale := do
  let sale ← getOr (s.sales[request.saleId]?.filter fun sale =>
    sale.businessId = request.businessId && sale.deletedAt.isNone) ⟨404,"Sale not found"⟩
  refuseIf (sale.saleType ≠ .dineIn) ⟨400,"Sale is not a dine-in tab"⟩
  return sale

def getFiredSaleLineIds (orders : List KotOrder) (businessId saleId : Nat) : List Nat :=
  (orders.filter fun order => order.businessId = businessId && order.saleId = saleId && order.deletedAt.isNone &&
    order.status ≠ .cancelled).flatMap fun order => order.lines.filterMap (·.saleLineId)

/-- The ticket for the lines that no ticket has yet. -/
def fireTabToKitchen (orders : List KotOrder) (sale : Sale) (request : FireRequest) : Except HTTPException KotOrder := do
  let fired := getFiredSaleLineIds orders request.businessId request.saleId
  let unfired := sale.lines.filter fun line => line.deletedAt.isNone && !fired.contains line.id
  refuseIf unfired.isEmpty ⟨400,"No unfired lines to send to kitchen"⟩
  let chosen := unfired.filter fun line => request.saleLineIds.all (·.contains line.id)
  refuseIf chosen.isEmpty ⟨400,"No matching unfired lines to send to kitchen"⟩
  return ⟨request.businessId,request.saleId,.pending,none,none,none,chosen.map fun line => ⟨some line.id,.pending⟩⟩

def getSaleForCancel (s : State) (request : CancelRequest) : Except HTTPException Sale := do
  let sale ← getOr (s.sales[request.saleId]?.filter fun sale =>
    sale.businessId = request.businessId && sale.deletedAt.isNone) ⟨404,"Sale not found"⟩
  refuseIf (sale.status = .completed || sale.status = .voided)
    ⟨400,"Cannot cancel sale with status '" ++ saleStatusValue sale.status ++ "'"⟩
  return sale

/-- The locking read that a request begins with: the row it locks and the transaction after it. -/
def start (s : State) : Request → Except HTTPException (Row × Transaction)
  | .kot request => do
    let order ← getOr (s.orders[request.orderId]?.filter fun order => order.businessId = request.businessId)
      ⟨404,"KOT order not found"⟩
    match request.line with
    | none =>
      refuseIf order.deletedAt.isSome ⟨404,"KOT order not found"⟩
      return (.order request.orderId,.updating request [.readLines,.updateOrder,.updateLines] order order)
    | some index =>
      let _ ← findLine order index
      return (.line request.orderId index,.updating request [.readOrder,.readLines,.updateOrder,.updateLines] order order)
  | .fire request => do
    let sale ← getTabSaleForUpdate s request
    assertTabMutable sale saleStatusValue
    return (.sale request.saleId,.firing request sale none)
  | .cancelSale request => do
    let sale ← getSaleForCancel s request
    let tickets := if sale.saleType = .dineIn && request.enableRestaurant then none else some []
    return (.sale request.saleId,.cancelling request tickets [])

def KotRequest.apply (request : KotRequest) (order : KotOrder) (now : Int) : Except HTTPException KotOrder :=
  match request.line with
  | none => updateKotOrderStatus order request.newStatus now
  | some index => updateKotOrderLineStatus order index request.newStatus now

/-- The tickets that `cancel_kot_orders_for_sale` finds. -/
def ticketsToCancel (orders : List KotOrder) (request : CancelRequest) : List Nat :=
  (List.range orders.length).filter fun id => orders[id]?.any fun order =>
    order.businessId = request.businessId && order.saleId = request.saleId && order.deletedAt.isNone &&
      order.status ≠ .cancelled

def changedLines (id : Nat) (loaded order : KotOrder) : List Row :=
  ((List.range loaded.lines.length).filter fun index =>
    (loaded.lines[index]?.map (·.status)) ≠ order.lines[index]?.map (·.status)).map (.line id ·)

/-- One statement after the first: the rows it locks, and the transaction with what the code does up to the next. -/
def perform (orders : List KotOrder) (now : Int) : Transaction → Except HTTPException (List Row × Transaction)
  | .updating request (statement :: todo) loaded order => do
    let row ← getOr orders[request.orderId]? ⟨404,"KOT order not found"⟩
    match statement with
    | .readOrder => return ([],.updating request todo { row with lines := loaded.lines } order)
    | .readLines =>
      let loaded := { loaded with lines := row.lines }
      let order ← request.apply loaded now
      return ([],.updating request todo loaded order)
    | .updateOrder => return ([.order request.orderId],.updating request todo loaded order)
    | .updateLines => return (changedLines request.orderId loaded order,.updating request todo loaded order)
  | .firing request sale none => do
    let ticket ← fireTabToKitchen orders sale request
    return ([],.firing request sale (some ticket))
  | .cancelling request none written =>
    return ([],.cancelling request (some (ticketsToCancel orders request)) written)
  | .cancelling request (some (id :: rest)) written =>
    return ([.order id],.cancelling request (some rest) (id :: written))
  | _ => .error ⟨500,"Internal Server Error"⟩

/-- A flush leaves the columns alone that are as they were loaded. -/
def column {α : Type} [DecidableEq α] (loaded new stored : α) : α := if new = loaded then stored else new

def writeLine (loaded order : KotOrder) (index : Nat) (line : KotOrderLine) : KotOrderLine :=
  match loaded.lines[index]?,order.lines[index]? with
  | some old,some new => { line with status := column old.status new.status line.status }
  | _,_ => line

def write (loaded order row : KotOrder) : KotOrder :=
  { row with
    status := column loaded.status order.status row.status
    readyAt := column loaded.readyAt order.readyAt row.readyAt
    servedAt := column loaded.servedAt order.servedAt row.servedAt
    lines := row.lines.mapIdx (writeLine loaded order) }

/-- The tables once the transaction has committed, if it is at its end. -/
def committed (s : State) : Transaction → Option (List Sale × List KotOrder)
  | .updating request [] loaded order => some (s.sales,s.orders.modify request.orderId (write loaded order))
  | .firing _ _ (some ticket) => some (s.sales,s.orders ++ [ticket])
  | .cancelling request (some []) written =>
    some (s.sales.modify request.saleId ({ · with status := .cancelled }),
      s.orders.mapIdx fun id order => if written.contains id then { order with status := .cancelled } else order)
  | _ => none

inductive Action
  /-- Another request commits a sale. -/
  | setSale (id : Nat) (sale : Sale)
  | start (t : Nat) (request : Request)
  | execute (t : Nat) (now : Int)
  | commit (t : Nat)
  | abort (t : Nat)

def next (s : State) : Action → Option State
  | .setSale id sale =>
    if s.locks.all (·.row ≠ .sale id) then some { s with sales := s.sales.set id sale } else none
  | .start t request =>
    if (s.transactions t).isNone then do
      let (row,x) ← (start s request).toOption
      let locks ← acquireAll s.locks t [row] .update
      some { s with locks := locks, transactions := Function.update s.transactions t (some x) }
    else none
  | .execute t now => do
    let x ← s.transactions t
    let (rows,x) ← (perform s.orders now x).toOption
    let locks ← acquireAll s.locks t rows .noKeyUpdate
    some { s with locks := locks, transactions := Function.update s.transactions t (some x) }
  | .commit t => do
    let x ← s.transactions t
    let (sales,orders) ← committed s x
    some ⟨sales,orders,releaseAll s.locks t,Function.update s.transactions t none⟩
  | .abort t => do
    let _ ← s.transactions t
    some ⟨s.sales,s.orders,releaseAll s.locks t,Function.update s.transactions t none⟩

def Initial (s : State) : Prop := s.orders = [] ∧ s.locks = [] ∧ s.transactions = fun _ => none

def KotOrder.Agrees (order : KotOrder) : Prop := order.status = deriveKotHeaderStatus order.statuses

/-- An update writes a ticket that is still as it has read it; a tab cancellation writes only tickets whose lines are all
cancelled. -/
def careful (s : State) : Action → Bool
  | .execute t _ => match s.transactions t with
    | some (.updating request (.updateOrder :: _) loaded _) => s.orders[request.orderId]? = some loaded
    | some (.cancelling _ (some (id :: _)) _) => s.orders[id]?.any fun order => order.statuses.all (· = .cancelled)
    | _ => true
  | _ => true

end KitchenTickets
