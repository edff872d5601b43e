import SasBackend.Library.RowLocks
import SasBackend.Library.Transition
import SasBackend.Semantics.Stock

/-! Receipts and status changes of one purchase order, statement by statement.
A receipt locks the order, reads it, locks the lines it names and reads these again; a status change reads the order without a
lock and ends with an UPDATE, which waits for the lock, and its COMMIT. A request may fail at any point.
-/
namespace PurchaseOrders
open RowLocks SasBackend
open Stock (PurchaseOrderStatus ReceiptLineRequest allowedTransition round4)

structure PurchaseLine where
  productId : Nat
  variationId : Option Nat
  orderedQty : ℚ
  receivedQty : ℚ
  deriving DecidableEq

/-- `receipts`: the lines of each committed receipt. -/
structure PurchaseOrder where
  branchId : Nat
  supplierId : Nat
  status : PurchaseOrderStatus
  lines : List PurchaseLine
  receipts : List (List ReceiptLineRequest)
  deriving DecidableEq

structure CreatePurchaseReceiptRequest where
  branchId : Nat
  supplierId : Nat
  lines : List ReceiptLineRequest
  deriving DecidableEq

inductive Request
  | createPurchaseReceipt (data : CreatePurchaseReceiptRequest)
  | updatePurchaseOrderStatus (target : PurchaseOrderStatus)
  deriving DecidableEq

def Request.valid : Request → Bool
  | .createPurchaseReceipt data => !data.lines.isEmpty && data.lines.all fun line => 0 < line.qtyReceived && 0 ≤ line.costPerUnit
  | .updatePurchaseOrderStatus _ => true

def CreatePurchaseReceiptRequest.lineIds (data : CreatePurchaseReceiptRequest) : List Nat :=
  (data.lines.filterMap ReceiptLineRequest.purchaseLineId).dedup.insertionSort (· ≤ ·)

/-- What the request adds to a line. -/
def added (lines : List ReceiptLineRequest) (id : Nat) : ℚ :=
  Tally.tally ReceiptLineRequest.purchaseLineId ReceiptLineRequest.qtyReceived (some id) lines

/-- A receipt line fits its purchase line, together with the lines before it. -/
def lineAccepted (lines : List PurchaseLine) (pending : List ReceiptLineRequest) (line : ReceiptLineRequest) : Bool :=
  match line.purchaseLineId with
  | none => true
  | some id => lines[id]?.any fun pl =>
    pl.productId = line.productId && pl.variationId = line.variationId &&
      pl.receivedQty + added pending id + line.qtyReceived ≤ pl.orderedQty

def linesAccepted (lines : List PurchaseLine) (pending : List ReceiptLineRequest) : List ReceiptLineRequest → Bool
  | [] => true
  | line :: rest => lineAccepted lines pending line && linesAccepted lines (pending ++ [line]) rest

/-- The lines with these ids from the one list, the others from the other. -/
def refresh (ids : List Nat) (fresh loaded : List PurchaseLine) : List PurchaseLine :=
  loaded.mapIdx fun id line => if id ∈ ids then fresh[id]?.getD line else line

/-- The lines as the session holds them after it has added what the request receives. -/
def received (data : CreatePurchaseReceiptRequest) (lines : List PurchaseLine) : List PurchaseLine :=
  lines.mapIdx fun id line => { line with receivedQty := line.receivedQty + added data.lines id }

def full (lines : List PurchaseLine) : Bool := lines.all fun line => line.orderedQty ≤ line.receivedQty

def stored (line : PurchaseLine) : PurchaseLine := { line with receivedQty := round4 line.receivedQty }

/-- What a receipt commits; `session` are the lines its session holds. -/
def PurchaseOrder.receive (order : PurchaseOrder) (data : CreatePurchaseReceiptRequest) (session : List PurchaseLine) :
    PurchaseOrder :=
  { order with
    lines := refresh data.lineIds (session.map stored) order.lines
    receipts := order.receipts ++ [data.lines]
    status := if session.isEmpty then order.status else if full session then .received else .partiallyReceived }

inductive Row
  | order
  | line (id : Nat)
  deriving DecidableEq

inductive Phase
  | absent
  | lockingOrder (data : CreatePurchaseReceiptRequest)
  | readingOrder (data : CreatePurchaseReceiptRequest)
  | lockingLines (data : CreatePurchaseReceiptRequest) (session : List PurchaseLine)
  | receiving (data : CreatePurchaseReceiptRequest) (session : List PurchaseLine)
  | readingStatus (target : PurchaseOrderStatus)
  | updatingStatus (target : PurchaseOrderStatus)
  | ended
  deriving DecidableEq

structure State where
  order : PurchaseOrder
  locks : List (Held Row)
  phase : Nat → Phase

inductive Action
  | begin (t : Nat) (request : Request)
  | advance (t : Nat)
  | fail (t : Nat)

def State.goto (s : State) (t : Nat) (phase : Phase) : State :=
  { s with phase := Function.update s.phase t phase }

def State.finish (s : State) (t : Nat) : State :=
  { s with locks := releaseAll s.locks t }.goto t .ended

def advance (s : State) (t : Nat) : Option State :=
  match s.phase t with
  | .lockingOrder data =>
    if grantable s.locks t .order .update then
      some ({ s with locks := acquire s.locks t .order .update }.goto t (.readingOrder data))
    else none
  | .readingOrder data =>
    if s.order.status ≠ .cancelled ∧ s.order.supplierId = data.supplierId ∧ s.order.branchId = data.branchId then
      some (s.goto t (.lockingLines data s.order.lines))
    else some (s.finish t)
  | .lockingLines data session =>
    (acquireAll s.locks t (data.lineIds.map .line) .update).map fun locks =>
      let lines := refresh data.lineIds s.order.lines session
      if linesAccepted lines [] data.lines then { s with locks := locks }.goto t (.receiving data (received data lines))
      else s.finish t
  | .receiving data session => some ({ s with order := s.order.receive data session }.finish t)
  | .readingStatus target =>
    if allowedTransition s.order.status target then some (s.goto t (.updatingStatus target)) else some (s.finish t)
  | .updatingStatus target =>
    if grantable s.locks t .order .noKeyUpdate then some ({ s with order := { s.order with status := target } }.finish t)
    else none
  | .absent | .ended => none

def start : Request → Phase
  | .createPurchaseReceipt data => .lockingOrder data
  | .updatePurchaseOrderStatus target => .readingStatus target

def next (s : State) : Action → Option State
  | .begin t request =>
    if s.phase t = .absent ∧ request.valid = true then some (s.goto t (start request)) else none
  | .advance t => advance s t
  | .fail t => if s.phase t = .absent then none else some (s.finish t)

/-- The order as it is created. -/
def Initial (s : State) : Prop :=
  (s.order.status = .draft ∧ s.order.lines ≠ [] ∧ s.order.receipts = [] ∧
    ∀ line ∈ s.order.lines, 0 < line.orderedQty ∧ line.orderedQty ∈ Decimal.grid 4 ∧ line.receivedQty = 0) ∧
  s.locks = [] ∧ ∀ t, s.phase t = .absent

/-- No line is received beyond its quantity, and an order with a receipt has the status its lines give. -/
structure InOrder (order : PurchaseOrder) : Prop where
  within : ∀ line ∈ order.lines, line.receivedQty ≤ line.orderedQty
  status : order.receipts ≠ [] → order.status = if full order.lines then .received else .partiallyReceived
  kept : order.receipts ≠ [] → order.status ≠ .cancelled ∧ order.status ≠ .draft ∧ order.status ≠ .ordered

/-- The lines are full only once what they received is rounded to the scale of its column. -/
def FilledByRounding (order : PurchaseOrder) (data : CreatePurchaseReceiptRequest) : Prop :=
  full ((received data order.lines).map stored) = true ∧ full (received data order.lines) = false

instance (order : PurchaseOrder) (data : CreatePurchaseReceiptRequest) : Decidable (FilledByRounding order data) :=
  inferInstanceAs (Decidable (_ ∧ _))

/-- A status is set before the order has a receipt, and no receipt fills the lines by rounding alone. -/
def Timely (s : State) : Action → Prop
  | .advance t =>
    match s.phase t with
    | .updatingStatus _ => s.order.status ≠ .partiallyReceived ∧ s.order.status ≠ .received
    | .receiving data _ => ¬FilledByRounding s.order data
    | _ => True
  | .begin _ _ | .fail _ => True

instance (s : State) (a : Action) : Decidable (Timely s a) := by
  unfold Timely
  split
  · split <;> infer_instance
  · infer_instance
  · infer_instance

end PurchaseOrders
