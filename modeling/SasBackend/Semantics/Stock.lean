import Mathlib.Data.List.Sort
import SasBackend.Library.Program
import SasBackend.Semantics.Refunds

/-! Stock of one business: the movement ledger, the FIFO cost layers and the services that write them.
Rows other than movements have their position as id, columns have four decimal places, and a row that fails the
checks of its table fails the request. A service that keeps a layer at hand finds it again as it left it, with all its
decimals; any other row is read anew. What a request reads and writes besides stock (money of returns, shifts,
permissions, documents nothing reads back, row locks) is left out.
-/
namespace Stock
open SasBackend Pricing Tally Program
open Refunds (LineId SaleLineRequest ReturnLineRequest CreateSaleReturnRequest)

structure Position where
  branchId : Nat
  productId : Nat
  variationId : Option Nat
  deriving DecidableEq

inductive MovementType
  | purchase | sale | saleReturn | adjustmentIn | adjustmentOut | transferIn | transferOut | productionIn
  | productionOut | waste
  deriving DecidableEq

inductive Reference
  | purchaseReceiptLine
  | saleLine (id : LineId)
  | saleReturnLine (saleReturn index : Nat)
  | stockAdjustmentLine
  | wasteEntryLine
  | stockTransferLine (transfer index : Nat)
  | productionLine
  | productionOrder (order : Nat)
  deriving DecidableEq

inductive Refusal
  | unprocessable
  | bill (refusal : Refunds.Refusal)
  | settlement (refusal : SettlementRefusal)
  | insufficientStock (productId : Nat)
  | insufficientAtSource (productId : Nat) (available required : ℚ)
  | insufficientIngredients
  | notFound
  | notDineIn
  | tabNotOpen (status : SaleStatus)
  | tabEmpty
  | tabUnpaid
  | otherSale
  | notReturnable (status : SaleStatus)
  | otherBranch
  | otherProduct
  | notReturnableQty (requested remaining sold returned : ℚ)
  | notVoidable (status : SaleStatus)
  | notCancellable (status : SaleStatus)
  | hasReturnLines
  | invalidTransition
  | cancelledOrder
  | orderRequired
  | otherOrder
  | overReceipt (ordered received adds : ℚ)
  | notInTransit
  | beyondOrder
  | integrityError
  deriving DecidableEq

structure MovementRow where
  position : Position
  movementType : MovementType
  qty : ℚ
  costPerUnit : ℚ
  reference : Reference
  purchaseLineId : Option Nat
  movementAt : Int
  movementSequence : Option Nat
  deriving DecidableEq

/-- A `purchase_lines` row: a line of a purchase order and a cost layer. -/
structure LayerRow where
  purchaseOrderId : Option Nat
  position : Position
  orderedQty : ℚ
  receivedQty : ℚ
  qtyRemaining : ℚ
  costPerUnit : ℚ
  createdAt : Int
  deriving DecidableEq

structure MovementRow.Checked (row : MovementRow) : Prop where
  nonzero : row.qty ≠ 0
  scaled : row.qty ∈ Decimal.grid 4

structure LayerRow.Checked (row : LayerRow) : Prop where
  ordered : 0 < row.orderedQty
  remaining : 0 ≤ row.qtyRemaining
  received : row.qtyRemaining ≤ row.receivedQty
  cost : 0 ≤ row.costPerUnit
  receivedScaled : row.receivedQty ∈ Decimal.grid 4
  remainingScaled : row.qtyRemaining ∈ Decimal.grid 4

instance (row : MovementRow) : Decidable row.Checked :=
  decidable_of_iff (row.qty ≠ 0 ∧ row.qty ∈ Decimal.grid 4) ⟨fun h => ⟨h.1,h.2⟩,fun h => ⟨h.1,h.2⟩⟩

instance (row : LayerRow) : Decidable row.Checked :=
  decidable_of_iff (0 < row.orderedQty ∧ 0 ≤ row.qtyRemaining ∧ row.qtyRemaining ≤ row.receivedQty ∧
      0 ≤ row.costPerUnit ∧ row.receivedQty ∈ Decimal.grid 4 ∧ row.qtyRemaining ∈ Decimal.grid 4)
    ⟨fun h => ⟨h.1,h.2.1,h.2.2.1,h.2.2.2.1,h.2.2.2.2.1,h.2.2.2.2.2⟩,
      fun h => ⟨h.ordered,h.remaining,h.received,h.cost,h.receivedScaled,h.remainingScaled⟩⟩

abbrev StockMovement := {row : MovementRow // row.Checked}

abbrev PurchaseLine := {row : LayerRow // row.Checked}

def round4 (value : ℚ) : ℚ := Decimal.quantize 4 value

def MovementRow.store (row : MovementRow) : Except Refusal StockMovement :=
  let stored := { row with qty := round4 row.qty, costPerUnit := round4 row.costPerUnit }
  if checked : stored.Checked then .ok ⟨stored,checked⟩ else .error .integrityError

def LayerRow.store (row : LayerRow) : Except Refusal PurchaseLine :=
  let stored :=
    { row with
      orderedQty := round4 row.orderedQty
      receivedQty := round4 row.receivedQty
      qtyRemaining := round4 row.qtyRemaining
      costPerUnit := round4 row.costPerUnit }
  if checked : stored.Checked then .ok ⟨stored,checked⟩ else .error .integrityError

structure SaleLine where
  stored : Refunds.SaleLine
  costPerUnit : ℚ
  qtyScaled : stored.qty ∈ Decimal.grid 4

structure Sale where
  branchId : Nat
  saleType : SaleType
  status : SaleStatus
  lines : List SaleLine

structure ReturnLine where
  saleLineId : Option LineId
  qty : ℚ
  deriving DecidableEq

structure SaleReturn where
  saleId : Option Nat
  lines : List ReturnLine
  deriving DecidableEq

structure TransferLine where
  productId : Nat
  variationId : Option Nat
  qty : ℚ
  deriving DecidableEq

inductive TransferStatus
  | inTransit | received
  deriving DecidableEq

structure StockTransfer where
  sourceBranchId : Nat
  destBranchId : Nat
  status : TransferStatus
  lines : List TransferLine
  deriving DecidableEq

structure BomLine where
  ingredientProductId : Nat
  ingredientVariationId : Option Nat
  qtyRequired : ℚ
  wastagePct : ℚ
  deriving DecidableEq

structure Bom where
  productId : Nat
  variationId : Option Nat
  outputQty : ℚ
  lines : List BomLine
  deriving DecidableEq

inductive ProductionStatus
  | draft | inProgress | completed | cancelled
  deriving DecidableEq

structure ProductionOrder where
  branchId : Nat
  bomHeaderId : Nat
  status : ProductionStatus
  qtyToProduce : ℚ
  qtyProduced : ℚ
  deriving DecidableEq

inductive PurchaseOrderStatus
  | draft | ordered | partiallyReceived | received | cancelled
  deriving DecidableEq

structure PurchaseOrder where
  branchId : Nat
  status : PurchaseOrderStatus
  deriving DecidableEq

structure Store where
  allowNegativeStock : Bool
  layers : List PurchaseLine
  movements : List StockMovement
  sales : List Sale
  returns : List SaleReturn
  transfers : List StockTransfer
  boms : List Bom
  productionOrders : List ProductionOrder
  purchaseOrders : List PurchaseOrder

/-- A service working in a session; it locks stock positions. -/
abbrev Tx := Program Store Position Refusal

def Store.balance (s : Store) (position : Position) : ℚ :=
  tally (fun m : StockMovement => m.val.position) (fun m => m.val.qty) position s.movements

def Store.line (s : Store) (id : LineId) : Option SaleLine := s.sales[id.saleId]?.bind (·.lines[id.index]?)

def found {α : Type} (query : Store → Option α) : Tx α := do
  match ← get query with
  | some a => pure a
  | none => .fail .notFound

def createStockMovement (row : MovementRow) : Tx Unit := do
  let movement ← ofExcept row.store
  put fun s => { s with movements := s.movements ++ [movement] }

/-- A quantity some request takes from or adds to a position. -/
structure Item where
  position : Position
  qty : ℚ
  deriving DecidableEq

def Position.before (a b : Position) : Bool :=
  a.branchId < b.branchId || a.branchId = b.branchId && (a.productId < b.productId ||
    a.productId = b.productId && match a.variationId, b.variationId with
      | none, _ => true
      | some _, none => false
      | some i, some j => i ≤ j)

def lockStockPositions (positions : List Position) : Tx Unit :=
  forM (positions.dedup.insertionSort (·.before ·)) acquire

/-- What the items ask of each position, in the order they name it first. -/
def demand (items : List Item) : List Item :=
  (items.map Item.position).eraseDups.map fun position => ⟨position,tally Item.position Item.qty position items⟩

def checkSufficientStock (item : Item) : Tx Bool := do
  let balance ← get (·.balance item.position)
  pure (decide (item.qty ≤ balance))

def assertStockAvailable (items : List Item) : Tx Unit :=
  forM (demand items) fun item => do
    let sufficient ← checkSufficientStock item
    require sufficient (.insufficientStock item.position.productId)

structure FifoLayerConsumption where
  purchaseLineId : Option Nat
  qty : ℚ
  costPerUnit : ℚ
  deriving DecidableEq

/-- The quotient of exact sums; the code keeps 28 digits of every product and sum. -/
def computeWeightedCostPerUnit (totalQty : ℚ) (slices : List FifoLayerConsumption) : ℚ :=
  if totalQty ≤ 0 then 0 else round4 ((slices.map fun slice => slice.qty * slice.costPerUnit).sum / totalQty)

/-- The last of the entries with the greatest key. -/
def newest {α : Type} (key : α → Int) : List α → Option α
  | [] => none
  | x :: rest => match newest key rest with
    | none => some x
    | some y => if key x ≤ key y then some y else some x

def Store.lastLayerCost (s : Store) (position : Position) : Option ℚ :=
  (newest (·.val.createdAt) (s.layers.filter fun layer =>
    layer.val.position.productId = position.productId && layer.val.position.variationId = position.variationId &&
      0 < layer.val.costPerUnit && 0 < layer.val.receivedQty)).map (·.val.costPerUnit)

def Store.lastMovementCost (s : Store) (position : Position) : Option ℚ :=
  (newest (·.val.movementAt) (s.movements.filter fun movement =>
    movement.val.position.productId = position.productId && movement.val.position.variationId = position.variationId &&
      0 < movement.val.qty && 0 < movement.val.costPerUnit)).map (·.val.costPerUnit)

/-- The product's last known cost, at any branch. -/
def getFallbackCostPerUnit (position : Position) : Tx ℚ := do
  match ← get (·.lastLayerCost position) with
  | some cost => pure (round4 cost)
  | none => match ← get (·.lastMovementCost position) with
    | some cost => pure (round4 cost)
    | none => pure 0

/-- The layers of a position that hold something, oldest first, with their ids. -/
def Store.fifoLayers (s : Store) (position : Position) : List (PurchaseLine × Nat) :=
  (s.layers.zipIdx.filter fun entry => entry.1.val.position = position && 0 < entry.1.val.qtyRemaining).insertionSort
    fun a b => a.1.val.createdAt ≤ b.1.val.createdAt

def updateLayer (id : Nat) (row : LayerRow) : Tx Unit := do
  let layer ← ofExcept row.store
  put fun s => { s with layers := s.layers.set id layer }

/-- The layers that a service keeps at hand, by their ids. -/
abbrev Held := List (Nat × LayerRow)

def Held.row (held : Held) (id : Nat) : Option LayerRow := (held.find? (·.1 = id)).map (·.2)

def Held.at (held : Held) (position : Position) : Held := held.filter (·.2.position = position)

/-- A layer as the service has it at hand, or as it is stored. -/
def Held.read (held : Held) (entry : PurchaseLine × Nat) : LayerRow := (held.row entry.2).getD entry.1.val

/-- Takes from the layers in turn; returns the slices and what they could not cover. -/
def takeFromHeld (held : Held) : List (PurchaseLine × Nat) → ℚ → Tx (List FifoLayerConsumption × ℚ)
  | [], remaining => pure ([],remaining)
  | (layer,id) :: rest, remaining =>
    if remaining ≤ 0 then pure ([],remaining)
    else do
      let row := held.read (layer,id)
      let take := min remaining row.qtyRemaining
      updateLayer id { row with qtyRemaining := row.qtyRemaining - take }
      let (slices,short) ← takeFromHeld held rest (remaining - take)
      pure (⟨some id,take,row.costPerUnit⟩ :: slices,short)

def takeFromLayers (layers : List (PurchaseLine × Nat)) (remaining : ℚ) : Tx (List FifoLayerConsumption × ℚ) :=
  takeFromHeld [] layers remaining

def consumeHeldLayers (held : Held) (position : Position) (qty : ℚ) : Tx (List FifoLayerConsumption × ℚ) :=
  if qty ≤ 0 then pure ([],0)
  else do
    let layers ← get (·.fifoLayers position)
    takeFromHeld (held.at position) layers qty

/-- With no layer at hand. -/
def consumeFifoLayers (position : Position) (qty : ℚ) : Tx (List FifoLayerConsumption × ℚ) := consumeHeldLayers [] position qty

theorem takeFromLayers_cons (layer : PurchaseLine) (id : Nat) (rest : List (PurchaseLine × Nat)) (remaining : ℚ) :
    takeFromLayers ((layer,id) :: rest) remaining =
      if remaining ≤ 0 then pure ([],remaining)
      else (do
        let take := min remaining layer.val.qtyRemaining
        updateLayer id { layer.val with qtyRemaining := layer.val.qtyRemaining - take }
        let (slices,short) ← takeFromLayers rest (remaining - take)
        pure (⟨some id,take,layer.val.costPerUnit⟩ :: slices,short)) := rfl

theorem consumeFifoLayers_eq (position : Position) (qty : ℚ) : consumeFifoLayers position qty =
    if qty ≤ 0 then pure ([],0)
    else (do
      let layers ← get (·.fifoLayers position)
      takeFromLayers layers qty) := rfl

structure Allocation where
  costPerUnit : ℚ
  slices : List FifoLayerConsumption
  shortQty : ℚ
  deriving DecidableEq

def allocateHeldLayers (held : Held) (position : Position) (qty : ℚ) : Tx Allocation := do
  let (slices,short) ← consumeHeldLayers held position qty
  if 0 < short then
    let fallback ← getFallbackCostPerUnit position
    let slices := slices ++ [⟨none,short,fallback⟩]
    pure ⟨computeWeightedCostPerUnit qty slices,slices,short⟩
  else pure ⟨computeWeightedCostPerUnit qty slices,slices,short⟩

def allocateSaleLineFifo (position : Position) (qty : ℚ) : Tx Allocation := allocateHeldLayers [] position qty

/-- One outgoing movement for each slice. -/
def sliceMovement (position : Position) (movementType : MovementType) (reference : Reference) (movementAt : Int)
    (slice : FifoLayerConsumption × Nat) : MovementRow :=
  ⟨position,movementType,-slice.1.qty,slice.1.costPerUnit,reference,slice.1.purchaseLineId,movementAt,some slice.2⟩

def createSliceMovements (position : Position) (movementType : MovementType) (reference : Reference)
    (movementAt : Int) (slices : List FifoLayerConsumption) : Tx Unit :=
  forM slices.zipIdx fun slice => createStockMovement (sliceMovement position movementType reference movementAt slice)

def consumeHeldToMovements (held : Held) (item : Item) (movementType : MovementType) (reference : Reference)
    (movementAt : Int) : Tx Allocation := do
  let allocation ← allocateHeldLayers held item.position item.qty
  createSliceMovements item.position movementType reference movementAt allocation.slices
  pure allocation

def consumeToMovements (item : Item) (movementType : MovementType) (reference : Reference) (movementAt : Int) :
    Tx Allocation :=
  consumeHeldToMovements [] item movementType reference movementAt

def createSaleLineStockMovements (position : Position) (id : LineId) (slices : List FifoLayerConsumption)
    (movementAt : Int) : Tx Unit :=
  createSliceMovements position .sale (.saleLine id) movementAt slices

/-- A new layer before it is stored. -/
def newLayer (item : Item) (costPerUnit : ℚ) (createdAt : Int) : LayerRow :=
  ⟨none,item.position,item.qty,item.qty,item.qty,round4 costPerUnit,createdAt⟩

def createFifoLayer (item : Item) (costPerUnit : ℚ) (createdAt : Int) : Tx Nat := do
  let layer ← ofExcept (newLayer item costPerUnit createdAt).store
  let id ← get (·.layers.length)
  put fun s => { s with layers := s.layers ++ [layer] }
  pure id

/-- A new layer and the movement that fills it. -/
def receiveIntoNewLayer (item : Item) (costPerUnit : ℚ) (movementType : MovementType) (reference : Reference)
    (createdAt movementAt : Int) (movementSequence : Option Nat) : Tx Unit := do
  let id ← createFifoLayer item costPerUnit createdAt
  createStockMovement
    ⟨item.position,movementType,item.qty,costPerUnit,reference,some id,movementAt,movementSequence⟩

/-- `movement_sequence` with nulls last, then `movement_at`. -/
def StockMovement.earlier (a b : StockMovement) : Bool :=
  match a.val.movementSequence, b.val.movementSequence with
  | some i, some j => i < j || i = j && a.val.movementAt ≤ b.val.movementAt
  | some _, none => true
  | none, some _ => false
  | none, none => a.val.movementAt ≤ b.val.movementAt

def Store.saleMovements (s : Store) (id : LineId) : List StockMovement :=
  s.movements.filter fun m => m.val.movementType = .sale && m.val.reference = .saleLine id

def Store.tracedConsumptions (s : Store) (id : LineId) : List FifoLayerConsumption :=
  (((s.saleMovements id).filter (·.val.purchaseLineId.isSome)).insertionSort (·.earlier ·)).map fun m =>
    ⟨m.val.purchaseLineId,|m.val.qty|,m.val.costPerUnit⟩

def Store.untracedQty (s : Store) (id : LineId) : ℚ :=
  (((s.saleMovements id).filter (·.val.purchaseLineId.isNone)).map fun m => |m.val.qty|).sum

def totalQty (slices : List FifoLayerConsumption) : ℚ := (slices.map FifoLayerConsumption.qty).sum

/-- The slices from the last one on, as far as the quantity reaches. -/
def unwind : List FifoLayerConsumption → ℚ → List FifoLayerConsumption
  | [], _ => []
  | slice :: rest, remaining =>
    if remaining ≤ 0 then []
    else
      let qty := min remaining slice.qty
      { slice with qty := qty } :: unwind rest (remaining - qty)

def planLifoRestoration (traced : List FifoLayerConsumption) (qty : ℚ) : List FifoLayerConsumption :=
  unwind traced.reverse qty

/-- Puts each slice back into its layer, never beyond what the layer received. -/
def restoreFifoLayers (slices : List FifoLayerConsumption) : Tx Unit :=
  forM slices fun slice => do
    match slice.purchaseLineId with
    | none => pure ()
    | some id => match ← get (·.layers[id]?) with
      | none => pure ()
      | some layer =>
        let restored := min (layer.val.qtyRemaining + slice.qty) layer.val.receivedQty
        updateLayer id { layer.val with qtyRemaining := restored }

structure Restoration where
  position : Position
  saleLineId : LineId
  saleLineQty : ℚ
  saleLineCostPerUnit : ℚ
  qtyToRestore : ℚ
  reference : Reference
  movementAt : Int

def restoreUntraced (r : Restoration) (qty : ℚ) : Tx Unit :=
  receiveIntoNewLayer ⟨r.position,qty⟩ r.saleLineCostPerUnit .saleReturn r.reference r.movementAt r.movementAt none

def restoreSaleLineInventory (r : Restoration) : Tx Unit := do
  let traced ← get (·.tracedConsumptions r.saleLineId)
  if traced = [] then restoreUntraced r r.qtyToRestore
  else
    let untraced ← get (·.untracedQty r.saleLineId)
    let untraced := if totalQty traced + untraced = r.saleLineQty then untraced
      else max (r.saleLineQty - totalQty traced) 0
    let plan := planLifoRestoration traced (min r.qtyToRestore (totalQty traced))
    restoreFifoLayers plan
    forM plan fun slice => createStockMovement
      ⟨r.position,.saleReturn,slice.qty,slice.costPerUnit,r.reference,slice.purchaseLineId,r.movementAt,none⟩
    let remaining := r.qtyToRestore - totalQty plan
    if 0 < remaining ∧ 0 < untraced then restoreUntraced r (min remaining untraced) else pure ()

structure CreateSale where
  bill : Refunds.CreateSaleRequest
  saleType : SaleType
  soldAt : Int
  deriving DecidableEq

def lineItem (branchId : Nat) (line : SaleLineRequest) : Item := ⟨⟨branchId,line.productId,line.variationId⟩,line.qty⟩

theorem store_qty_scaled {line : SaleLineRequest} {stored : Refunds.SaleLine} (ok : line.store = .ok stored) :
    stored.qty ∈ Decimal.grid 4 := by
  rw [SaleLineRequest.store] at ok
  split at ok
  · cases ok
    exact Decimal.quantize_mem_grid 4 _
  · cases ok

def storeLine (line : SaleLineRequest) (costPerUnit : ℚ) : Except Refusal SaleLine :=
  match outcome : line.store with
  | .ok stored => .ok ⟨stored,round4 costPerUnit,store_qty_scaled outcome⟩
  | .error refusal => .error (.bill refusal)

def createSale (data : CreateSale) : Tx Unit := do
  let allowNegative ← get Store.allowNegativeStock
  let sale ← ofExcept ((Refunds.createSale data.bill).mapError Refusal.bill)
  let items := data.bill.lines.map (lineItem data.bill.branchId)
  lockStockPositions (items.map Item.position)
  if allowNegative then pure () else assertStockAvailable items
  let allocations ← items.mapM fun item => allocateSaleLineFifo item.position item.qty
  let lines ← ofExcept ((data.bill.lines.zip allocations).mapM fun entry => storeLine entry.1 entry.2.costPerUnit)
  let saleId ← get (·.sales.length)
  put fun s => { s with sales := s.sales ++ [⟨data.bill.branchId,data.saleType,sale.status,lines⟩] }
  forM (items.zip allocations).zipIdx fun entry =>
    createSaleLineStockMovements entry.1.1.position ⟨saleId,entry.2⟩ entry.1.2.slices data.soldAt

def SaleLine.position (line : SaleLine) (branchId : Nat) : Position :=
  ⟨branchId,line.stored.productId,line.stored.variationId⟩

def SaleLine.item (line : SaleLine) (branchId : Nat) : Item := ⟨line.position branchId,line.stored.qty⟩

def activeTab : SaleStatus → Bool
  | .held | .draft | .partiallyPaid => true
  | .completed | .cancelled | .voided => false

/-- `_get_tab_sale_for_update` and `_assert_tab_mutable`. -/
def mutableTab (saleId : Nat) : Tx Sale := do
  let sale ← found (·.sales[saleId]?)
  require (sale.saleType = .dineIn) .notDineIn
  require (activeTab sale.status) (.tabNotOpen sale.status)
  pure sale

def openTab (branchId : Nat) : Tx Unit :=
  put fun s => { s with sales := s.sales ++ [⟨branchId,.dineIn,.held,[]⟩] }

/-- The unit prices of the lines have their modifiers added. -/
def addLinesToTab (saleId : Nat) (lines : List SaleLineRequest) : Tx Unit := do
  require (lines.all SaleLineRequest.valid) .unprocessable
  let _sale ← mutableTab saleId
  let stored ← ofExcept (lines.mapM (storeLine · 0))
  put fun s => { s with sales := s.sales.modify saleId fun sale => { sale with lines := sale.lines ++ stored } }

def tabInvoiceTotal (sale : Sale) : ℚ :=
  invoiceRound2 (sale.lines.map fun line =>
    line.stored.qty * line.stored.unitPrice - line.stored.discountAmount + line.stored.taxAmount).sum

def setLineCost (id : LineId) (costPerUnit : ℚ) (s : Store) : Store :=
  { s with
    sales := s.sales.modify id.saleId fun sale =>
      { sale with lines := sale.lines.modify id.index fun line => { line with costPerUnit := round4 costPerUnit } } }

def setStatus (saleId : Nat) (status : SaleStatus) (s : Store) : Store :=
  { s with sales := s.sales.modify saleId fun sale => { sale with status := status } }

def completeTab (saleId : Nat) (payments : List Payment) (soldAt : Int) : Tx Unit := do
  let allowNegative ← get Store.allowNegativeStock
  let sale ← mutableTab saleId
  require (!sale.lines.isEmpty) .tabEmpty
  let totalAmount := tabInvoiceTotal sale
  let settlement ← ofExcept ((settlePayments totalAmount payments true).mapError Refusal.settlement)
  require (totalAmount ≤ settlement.totalApplied) .tabUnpaid
  let items := sale.lines.map (·.item sale.branchId)
  lockStockPositions (items.map Item.position)
  if allowNegative then pure () else assertStockAvailable items
  forM items.zipIdx fun entry => do
    let allocation ← allocateSaleLineFifo entry.1.position entry.1.qty
    put (setLineCost ⟨saleId,entry.2⟩ allocation.costPerUnit)
    createSaleLineStockMovements entry.1.position ⟨saleId,entry.2⟩ allocation.slices soldAt
  put (setStatus saleId (determineSaleStatus totalAmount settlement.totalApplied))

def Store.returnedQty (s : Store) (id : LineId) : ℚ :=
  tally ReturnLine.saleLineId ReturnLine.qty (some id) (s.returns.flatMap SaleReturn.lines)

structure Prepared where
  request : ReturnLineRequest
  original : Option (LineId × SaleLine)
  position : Position

def prepareLine (branchId : Nat) (pending : List ReturnLineRequest) (line : ReturnLineRequest) : Tx Prepared :=
  match line.saleLineId with
  | none => pure ⟨line,none,⟨branchId,line.productId.getD 0,line.variationId⟩⟩
  | some id => do
    let original ← found (·.line id)
    require (line.productId.all (· = original.stored.productId)) .otherProduct
    require (line.variationId.isNone || line.variationId = original.stored.variationId) .otherProduct
    let returned ← get (·.returnedQty id)
    let inRequest := tally ReturnLineRequest.saleLineId ReturnLineRequest.qty (some id) pending
    let remaining := original.stored.qty - returned - inRequest
    require (line.qty ≤ remaining) (.notReturnableQty line.qty remaining original.stored.qty returned)
    pure ⟨line,some (id,original),original.position branchId⟩

/-- Lines are checked in order, each with those before it. -/
def prepareLines (branchId : Nat) (pending : List ReturnLineRequest) : List ReturnLineRequest → Tx (List Prepared)
  | [] => pure []
  | line :: rest => do
    let item ← prepareLine branchId pending line
    let items ← prepareLines branchId (pending ++ [line]) rest
    pure (item :: items)

/-- The sale of a return, found to take returns at this branch. -/
def checkReturnedSale (branchId : Nat) : Option Nat → Tx Unit
  | none => pure ()
  | some saleId => do
    let sale ← found (·.sales[saleId]?)
    require (SaleExclusion.returnable sale.status) (.notReturnable sale.status)
    require (sale.branchId = branchId) .otherBranch

def returnRestock (saleReturn : Nat) (returnedAt : Int) (entry : Prepared × Nat) : Tx Unit :=
  let item := entry.1
  let reference := Reference.saleReturnLine saleReturn entry.2
  match item.original with
  | some (id,original) => restoreSaleLineInventory
      { position := item.position
        saleLineId := id
        saleLineQty := original.stored.qty
        saleLineCostPerUnit := original.costPerUnit
        qtyToRestore := item.request.qty
        reference := reference
        movementAt := returnedAt }
  | none => do
    let cost ← getFallbackCostPerUnit item.position
    receiveIntoNewLayer ⟨item.position,item.request.qty⟩ cost .saleReturn reference returnedAt returnedAt none

def createSaleReturn (data : CreateSaleReturnRequest) (returnedAt : Int) : Tx Unit := do
  require data.valid .unprocessable
  let ids := data.lines.filterMap ReturnLineRequest.saleLineId
  let existing ← get fun s => ids.all fun id => (s.line id).isSome
  require existing .notFound
  let saleId := data.saleId.or (ids.head?.map LineId.saleId)
  require (ids.all (some ·.saleId = saleId)) .otherSale
  checkReturnedSale data.branchId saleId
  let prepared ← prepareLines data.branchId [] data.lines
  lockStockPositions (prepared.map Prepared.position)
  let lines : List ReturnLine := data.lines.map fun line => ⟨line.saleLineId,round4 line.qty⟩
  require (lines.all (0 < ·.qty)) .integrityError
  let saleReturn ← get (·.returns.length)
  put fun s => { s with returns := s.returns ++ [⟨saleId,lines⟩] }
  forM prepared.zipIdx (returnRestock saleReturn returnedAt)

def Store.hasReturnLines (s : Store) (saleId : Nat) : Bool :=
  s.returns.any fun saleReturn => saleReturn.saleId = some saleId && !saleReturn.lines.isEmpty

def restoreAllSaleLineInventory (saleId : Nat) (sale : Sale) (movementAt : Int) : Tx Unit :=
  forM sale.lines.zipIdx fun entry => restoreSaleLineInventory
    { position := entry.1.position sale.branchId
      saleLineId := ⟨saleId,entry.2⟩
      saleLineQty := entry.1.stored.qty
      saleLineCostPerUnit := entry.1.costPerUnit
      qtyToRestore := entry.1.stored.qty
      reference := .saleLine ⟨saleId,entry.2⟩
      movementAt := movementAt }

def voidSale (saleId : Nat) (now : Int) : Tx Unit := do
  let sale ← found (·.sales[saleId]?)
  require (sale.status = .completed) (.notVoidable sale.status)
  let returned ← get (·.hasReturnLines saleId)
  require (!returned) .hasReturnLines
  restoreAllSaleLineInventory saleId sale now
  put (setStatus saleId .voided)

/-- A dine-in sale that is not completed is taken for a tab whose stock was never consumed. -/
def skipInventoryRestore (sale : Sale) : Bool := sale.saleType = .dineIn && activeTab sale.status

def cancelSale (saleId : Nat) (now : Int) : Tx Unit := do
  let sale ← found (·.sales[saleId]?)
  require (sale.status ≠ .completed && sale.status ≠ .voided) (.notCancellable sale.status)
  let returned ← get (·.hasReturnLines saleId)
  require (!returned) .hasReturnLines
  if skipInventoryRestore sale then pure () else restoreAllSaleLineInventory saleId sale now
  put (setStatus saleId .cancelled)

structure PurchaseLineRequest where
  productId : Nat
  variationId : Option Nat
  orderedQty : ℚ
  costPerUnit : ℚ
  deriving DecidableEq

def createPurchaseOrder (branchId : Nat) (lines : List PurchaseLineRequest) (now : Int) : Tx Unit := do
  require (!lines.isEmpty && lines.all fun line => 0 < line.orderedQty && 0 ≤ line.costPerUnit) .unprocessable
  let id ← get (·.purchaseOrders.length)
  put fun s => { s with purchaseOrders := s.purchaseOrders ++ [⟨branchId,.draft⟩] }
  forM lines fun line => do
    let layer ← ofExcept (LayerRow.store
      ⟨some id,⟨branchId,line.productId,line.variationId⟩,line.orderedQty,0,0,line.costPerUnit,now⟩)
    put fun s => { s with layers := s.layers ++ [layer] }

def allowedTransition : PurchaseOrderStatus → PurchaseOrderStatus → Bool
  | .draft, .ordered | .draft, .cancelled | .ordered, .cancelled => true
  | _, _ => false

def setOrderStatus (id : Nat) (status : PurchaseOrderStatus) (s : Store) : Store :=
  { s with purchaseOrders := s.purchaseOrders.modify id fun order => { order with status := status } }

def updatePurchaseOrderStatus (id : Nat) (target : PurchaseOrderStatus) : Tx Unit := do
  let order ← found (·.purchaseOrders[id]?)
  require (allowedTransition order.status target) .invalidTransition
  put (setOrderStatus id target)

structure ReceiptLineRequest where
  productId : Nat
  variationId : Option Nat
  purchaseLineId : Option Nat
  qtyReceived : ℚ
  costPerUnit : ℚ
  deriving DecidableEq

structure CreatePurchaseReceiptRequest where
  branchId : Nat
  purchaseOrderId : Option Nat
  lines : List ReceiptLineRequest
  receivedAt : Int
  deriving DecidableEq

def ReceiptLineRequest.position (line : ReceiptLineRequest) (branchId : Nat) : Position :=
  ⟨branchId,line.productId,line.variationId⟩

def CreatePurchaseReceiptRequest.valid (data : CreatePurchaseReceiptRequest) : Bool :=
  !data.lines.isEmpty && data.lines.all fun line => 0 < line.qtyReceived && 0 ≤ line.costPerUnit

def CreatePurchaseReceiptRequest.lineIds (data : CreatePurchaseReceiptRequest) : List Nat :=
  data.lines.filterMap ReceiptLineRequest.purchaseLineId

/-- The order lines that the request names, which it keeps at hand. -/
def lockOrderLines (data : CreatePurchaseReceiptRequest) : Tx Held := do
  require (data.lineIds.isEmpty || data.purchaseOrderId.isSome) .orderRequired
  let held : Held ← get fun s => data.lineIds.filterMap fun id =>
    (s.layers[id]?.filter (·.val.purchaseOrderId = data.purchaseOrderId)).map fun layer => (id,layer.val)
  require (data.lineIds.all fun id => (held.row id).isSome) .otherOrder
  pure held

def checkReceiptLine (held : Held) (pending : List ReceiptLineRequest) (line : ReceiptLineRequest) : Tx Unit :=
  match line.purchaseLineId with
  | none => pure ()
  | some id => match held.row id with
    | none => .fail .otherOrder
    | some row => do
      require (row.position.productId = line.productId && row.position.variationId = line.variationId) .otherProduct
      let inRequest := tally ReceiptLineRequest.purchaseLineId ReceiptLineRequest.qtyReceived (some id) pending
      require (row.receivedQty + inRequest + line.qtyReceived ≤ row.orderedQty)
        (.overReceipt row.orderedQty row.receivedQty line.qtyReceived)

def checkReceiptLines (held : Held) (pending : List ReceiptLineRequest) : List ReceiptLineRequest → Tx Unit
  | [] => pure ()
  | line :: rest => do
    checkReceiptLine held pending line
    checkReceiptLines held (pending ++ [line]) rest

def receiveNew (data : CreatePurchaseReceiptRequest) (line : ReceiptLineRequest) : Tx Unit :=
  receiveIntoNewLayer ⟨line.position data.branchId,line.qtyReceived⟩ (round4 line.costPerUnit) .purchase
    .purchaseReceiptLine data.receivedAt data.receivedAt none

/-- The order line doubles as the cost layer while the receipt is at its cost. Returns the order lines as they are at hand. -/
def receiveLine (data : CreatePurchaseReceiptRequest) (held : Held) (line : ReceiptLineRequest) : Tx Held :=
  match line.purchaseLineId with
  | none => do
    receiveNew data line
    pure held
  | some id => match held.row id with
    | none => .fail .otherOrder
    | some row => do
      let received := { row with receivedQty := row.receivedQty + line.qtyReceived }
      if round4 row.costPerUnit = round4 line.costPerUnit then
        let filled :=
          { received with
            qtyRemaining := row.qtyRemaining + line.qtyReceived
            position := { row.position with branchId := data.branchId }
            createdAt := if row.receivedQty = 0 then data.receivedAt else row.createdAt }
        updateLayer id filled
        createStockMovement ⟨line.position data.branchId,.purchase,line.qtyReceived,round4 line.costPerUnit,
          .purchaseReceiptLine,some id,data.receivedAt,none⟩
        pure ((id,filled) :: held)
      else do
        updateLayer id received
        receiveNew data line
        pure ((id,received) :: held)

def statusFromReceipt (lines : List LayerRow) : PurchaseOrderStatus :=
  if lines.all fun line => line.orderedQty ≤ line.receivedQty then .received else .partiallyReceived

def updateOrderFromReceipt (held : Held) (id : Nat) : Tx Unit := do
  let lines ← get fun s => (s.layers.zipIdx.filter (·.1.val.purchaseOrderId = some id)).map held.read
  if lines.isEmpty then pure () else put (setOrderStatus id (statusFromReceipt lines))

def checkReceivedOrder (branchId : Nat) : Option Nat → Tx Unit
  | none => pure ()
  | some id => do
    let order ← found (·.purchaseOrders[id]?)
    require (order.status ≠ .cancelled) .cancelledOrder
    require (order.branchId = branchId) .otherBranch

def createPurchaseReceipt (data : CreatePurchaseReceiptRequest) : Tx Unit := do
  require data.valid .unprocessable
  checkReceivedOrder data.branchId data.purchaseOrderId
  let locked ← lockOrderLines data
  checkReceiptLines locked [] data.lines
  let held ← data.lines.foldlM (receiveLine data) locked
  match data.purchaseOrderId with
  | none => pure ()
  | some id => updateOrderFromReceipt held id

structure AdjustmentLineRequest where
  productId : Nat
  variationId : Option Nat
  qtyDelta : ℚ
  costPerUnit : Option ℚ
  deriving DecidableEq

def AdjustmentLineRequest.item (line : AdjustmentLineRequest) (branchId : Nat) : Item :=
  ⟨⟨branchId,line.productId,line.variationId⟩,|line.qtyDelta|⟩

/-- Only an opening balance takes its cost from the request. -/
def adjustmentCost (openingBalance : Bool) (line : AdjustmentLineRequest) (position : Position) : Tx ℚ :=
  match openingBalance, line.costPerUnit with
  | true, some cost => pure cost
  | _, _ => getFallbackCostPerUnit position

/-- What is left at hand of the layers of a position after slices were taken. -/
def Held.without (held : Held) (position : Position) (slices : List FifoLayerConsumption) : Held :=
  held.map fun entry =>
    if entry.2.position = position then (entry.1,
      { entry.2 with
        qtyRemaining := entry.2.qtyRemaining -
          tally FifoLayerConsumption.purchaseLineId FifoLayerConsumption.qty (some entry.1) slices })
    else entry

/-- The layer that was opened last stays at hand. -/
def adjustLine (branchId : Nat) (openingBalance : Bool) (adjustedAt : Int) (held : Held) (line : AdjustmentLineRequest) :
    Tx Held := do
  let item := line.item branchId
  if 0 < line.qtyDelta then
    let cost ← adjustmentCost openingBalance line item.position
    let id ← createFifoLayer item (round4 cost) adjustedAt
    createStockMovement
      ⟨item.position,.adjustmentIn,item.qty,round4 cost,.stockAdjustmentLine,some id,adjustedAt,none⟩
    pure [(id,newLayer item (round4 cost) adjustedAt)]
  else
    let allocation ← consumeHeldToMovements held item .adjustmentOut .stockAdjustmentLine adjustedAt
    pure (held.without item.position allocation.slices)

def createStockAdjustment (branchId : Nat) (openingBalance : Bool) (lines : List AdjustmentLineRequest)
    (adjustedAt : Int) : Tx Unit := do
  require (!lines.isEmpty && lines.all fun line => line.qtyDelta ≠ 0 && line.costPerUnit.all (0 ≤ ·)) .unprocessable
  let allowNegative ← get Store.allowNegativeStock
  lockStockPositions (lines.map fun line => (line.item branchId).position)
  if allowNegative then pure ()
  else assertStockAvailable ((lines.filter (·.qtyDelta < 0)).map (·.item branchId))
  let _held ← lines.foldlM (adjustLine branchId openingBalance adjustedAt) []
  pure ()

structure ItemRequest where
  productId : Nat
  variationId : Option Nat
  qty : ℚ
  deriving DecidableEq

def ItemRequest.item (line : ItemRequest) (branchId : Nat) : Item := ⟨⟨branchId,line.productId,line.variationId⟩,line.qty⟩

def createWasteEntry (branchId : Nat) (lines : List ItemRequest) (wastedAt : Int) : Tx Unit := do
  require (!lines.isEmpty && lines.all (0 < ·.qty)) .unprocessable
  let allowNegative ← get Store.allowNegativeStock
  let items := lines.map (·.item branchId)
  lockStockPositions (items.map Item.position)
  if allowNegative then pure () else assertStockAvailable items
  forM items fun item => do
    let _allocation ← consumeToMovements item .waste .wasteEntryLine wastedAt
    pure ()

/-- Transfers check the source whatever the setting. -/
def assertAvailableAtSource (items : List Item) : Tx Unit :=
  forM (demand items) fun item => do
    let available ← get (·.balance item.position)
    require (item.qty ≤ available) (.insufficientAtSource item.position.productId available item.qty)

def storeTransferLine (line : ItemRequest) : Except Refusal TransferLine :=
  if 0 < round4 line.qty then .ok ⟨line.productId,line.variationId,round4 line.qty⟩ else .error .integrityError

def createStockTransfer (sourceBranchId destBranchId : Nat) (lines : List ItemRequest) (now : Int) : Tx Unit := do
  require (sourceBranchId ≠ destBranchId && !lines.isEmpty && lines.all (0 < ·.qty)) .unprocessable
  let items := lines.map (·.item sourceBranchId)
  lockStockPositions (items.map Item.position)
  assertAvailableAtSource items
  let stored ← ofExcept (lines.mapM storeTransferLine)
  let id ← get (·.transfers.length)
  put fun s => { s with transfers := s.transfers ++ [⟨sourceBranchId,destBranchId,.inTransit,stored⟩] }
  forM items.zipIdx fun entry => do
    let _allocation ← consumeToMovements entry.1 .transferOut (.stockTransferLine id entry.2) now
    pure ()

def Store.dispatched (s : Store) (transfer index : Nat) : List StockMovement :=
  (s.movements.filter fun m =>
    m.val.movementType = .transferOut && m.val.reference = .stockTransferLine transfer index).insertionSort (·.earlier ·)

/-- A layer for each dispatched slice, in the order of the source's layers. -/
def receiveTransferLine (id : Nat) (transfer : StockTransfer) (now : Int) (entry : TransferLine × Nat) : Tx Unit := do
  let reference := Reference.stockTransferLine id entry.2
  let slices ← get (·.dispatched id entry.2)
  forM slices.zipIdx fun slice =>
    receiveIntoNewLayer ⟨⟨transfer.destBranchId,entry.1.productId,entry.1.variationId⟩,|slice.1.val.qty|⟩
      slice.1.val.costPerUnit .transferIn reference (now + slice.2) now (some slice.2)

def receiveStockTransfer (id : Nat) (now : Int) : Tx Unit := do
  let transfer ← found (·.transfers[id]?)
  require (transfer.status = .inTransit) .notInTransit
  forM transfer.lines.zipIdx (receiveTransferLine id transfer now)
  put fun s =>
    { s with transfers := s.transfers.modify id fun transfer => { transfer with status := .received } }

def createProductionOrder (branchId bomHeaderId : Nat) (qtyToProduce : ℚ) : Tx Unit := do
  require (0 < qtyToProduce) .unprocessable
  let _bom ← found (·.boms[bomHeaderId]?)
  put fun s =>
    { s with productionOrders := s.productionOrders ++ [⟨branchId,bomHeaderId,.draft,round4 qtyToProduce,0⟩] }

def setOrder (id : Nat) (change : ProductionOrder → ProductionOrder) (s : Store) : Store :=
  { s with productionOrders := s.productionOrders.modify id change }

def startProductionOrder (id : Nat) : Tx Unit := do
  let order ← found (·.productionOrders[id]?)
  require (order.status = .draft) .invalidTransition
  put (setOrder id fun order => { order with status := .inProgress })

def cancelProductionOrder (id : Nat) : Tx Unit := do
  let order ← found (·.productionOrders[id]?)
  require (order.status ≠ .completed && order.status ≠ .cancelled) .invalidTransition
  put (setOrder id fun order => { order with status := .cancelled })

/-- `invoice_service._round2`, which rounds ties to the even cent. -/
def round2HalfEven (value : ℚ) : ℚ := Decimal.quantizeHalfEven 2 value

/-- The requirement of one unit of output, with wastage. -/
def perUnit (line : BomLine) (outputQty : ℚ) : ℚ :=
  round2HalfEven (context (context (line.qtyRequired / outputQty) * context (1 + context (line.wastagePct / 100))))

/-- Totals from 10^26 on, which `quantize` refuses, are rounded like any other. -/
def computeIngredientQtyForProduction (line : BomLine) (outputQty qtyToProduce : ℚ) : ℚ :=
  round2HalfEven (context (perUnit line outputQty * qtyToProduce))

/-- Takes an ingredient and returns what it cost. -/
def consumeIngredientFifo (item : Item) (allowNegative : Bool) (movementAt : Int) : Tx ℚ := do
  lockStockPositions [item.position]
  if allowNegative then pure ()
  else do
    let sufficient ← checkSufficientStock item
    require sufficient .insufficientIngredients
  let allocation ← consumeToMovements item .productionOut .productionLine movementAt
  pure (allocation.slices.map fun slice => slice.qty * slice.costPerUnit).sum

def completeProductionOrder (id : Nat) (qtyProduced : ℚ) (now : Int) : Tx Unit := do
  require (0 < qtyProduced) .unprocessable
  let order ← found (·.productionOrders[id]?)
  require (order.status = .inProgress && order.qtyProduced ≤ 0) .invalidTransition
  require (qtyProduced ≤ order.qtyToProduce) .beyondOrder
  let bom ← found (·.boms[order.bomHeaderId]?)
  require (!bom.lines.isEmpty) .notFound
  let allowNegative ← get Store.allowNegativeStock
  let costs ← bom.lines.mapM fun line => do
    let qty := computeIngredientQtyForProduction line bom.outputQty qtyProduced
    if qty ≤ 0 then pure 0
    else consumeIngredientFifo ⟨⟨order.branchId,line.ingredientProductId,line.ingredientVariationId⟩,qty⟩ allowNegative now
  receiveIntoNewLayer ⟨⟨order.branchId,bom.productId,bom.variationId⟩,qtyProduced⟩ (round4 (costs.sum / qtyProduced))
    .productionIn (.productionOrder id) now now none
  put (setOrder id fun order => { order with status := .completed, qtyProduced := round4 qtyProduced })

inductive Request
  | createSale (data : CreateSale)
  | openTab (branchId : Nat)
  | addLinesToTab (saleId : Nat) (lines : List SaleLineRequest)
  | completeTab (saleId : Nat) (payments : List Payment) (soldAt : Int)
  | createSaleReturn (data : CreateSaleReturnRequest) (returnedAt : Int)
  | voidSale (saleId : Nat) (now : Int)
  | cancelSale (saleId : Nat) (now : Int)
  | createPurchaseOrder (branchId : Nat) (lines : List PurchaseLineRequest) (now : Int)
  | updatePurchaseOrderStatus (id : Nat) (target : PurchaseOrderStatus)
  | createPurchaseReceipt (data : CreatePurchaseReceiptRequest)
  | createStockAdjustment (branchId : Nat) (openingBalance : Bool) (lines : List AdjustmentLineRequest)
      (adjustedAt : Int)
  | createWasteEntry (branchId : Nat) (lines : List ItemRequest) (wastedAt : Int)
  | createStockTransfer (sourceBranchId destBranchId : Nat) (lines : List ItemRequest) (now : Int)
  | receiveStockTransfer (id : Nat) (now : Int)
  | createProductionOrder (branchId bomHeaderId : Nat) (qtyToProduce : ℚ)
  | startProductionOrder (id : Nat)
  | cancelProductionOrder (id : Nat)
  | completeProductionOrder (id : Nat) (qtyProduced : ℚ) (now : Int)
  deriving DecidableEq

def Request.program : Request → Tx Unit
  | .createSale data => Stock.createSale data
  | .openTab branchId => Stock.openTab branchId
  | .addLinesToTab saleId lines => Stock.addLinesToTab saleId lines
  | .completeTab saleId payments soldAt => Stock.completeTab saleId payments soldAt
  | .createSaleReturn data returnedAt => Stock.createSaleReturn data returnedAt
  | .voidSale saleId now => Stock.voidSale saleId now
  | .cancelSale saleId now => Stock.cancelSale saleId now
  | .createPurchaseOrder branchId lines now => Stock.createPurchaseOrder branchId lines now
  | .updatePurchaseOrderStatus id target => Stock.updatePurchaseOrderStatus id target
  | .createPurchaseReceipt data => Stock.createPurchaseReceipt data
  | .createStockAdjustment branchId openingBalance lines adjustedAt =>
    Stock.createStockAdjustment branchId openingBalance lines adjustedAt
  | .createWasteEntry branchId lines wastedAt => Stock.createWasteEntry branchId lines wastedAt
  | .createStockTransfer source dest lines now => Stock.createStockTransfer source dest lines now
  | .receiveStockTransfer id now => Stock.receiveStockTransfer id now
  | .createProductionOrder branchId bomHeaderId qty => Stock.createProductionOrder branchId bomHeaderId qty
  | .startProductionOrder id => Stock.startProductionOrder id
  | .cancelProductionOrder id => Stock.cancelProductionOrder id
  | .completeProductionOrder id qtyProduced now => Stock.completeProductionOrder id qtyProduced now

end Stock
