import SasBackend.Library.Deadlock
import SasBackend.Semantics.Enums
import SasBackend.Semantics.Stock

/-! The locks of the requests that move stock, in the order their statements take them.
A request is given with what its statements find: the layers each line locks, the shift of the caller. An inserted row locks the
rows it refers to in key-share mode; where the request has locked such a row before, or inserted it, that is left out. So are the
locks of rows of other kinds (document numbers, transfers, production orders, tables and tickets).
-/
namespace LockOrder
open RowLocks Deadlock SasBackend
open Stock (Position)
open Refunds (LineId)

inductive Row
  | shift (id : Nat)
  | saleLine (id : LineId)
  | sale (id : Nat)
  | customer (id : Nat)
  | position (position : Position)
  | layer (position : Position) (id : Nat)
  deriving DecidableEq

abbrev Acquisitions : Type := List (Acquisition Row)

structure SaleLine where
  productId : Nat
  variationId : Option Nat
  deriving DecidableEq

/-- What no request changes of a sale. -/
structure Sale where
  branchId : Nat
  customerId : Option Nat
  lines : List SaleLine
  deriving DecidableEq

def SaleLine.position (line : SaleLine) (branchId : Nat) : Position := ⟨branchId,line.productId,line.variationId⟩

abbrev Sales : Type := Nat → Option Sale

def Sales.line (sales : Sales) (id : LineId) : Option SaleLine := (sales id.saleId).bind (·.lines[id.index]?)

def requireCallerShift (shift : Nat) : Acquisitions := [(.shift shift,.noKeyUpdate)]

def lockCustomer (customerId : Nat) : Acquisitions := [(.customer customerId,.update)]

def assertCreditAvailable (customerId : Option Nat) (creditAmount : ℚ) : Acquisitions :=
  if 0 < creditAmount then customerId.toList.flatMap lockCustomer else []

/-- Advisory locks, one for each position, in the order of their keys. -/
def lockStockPositions (positions : List Position) : Acquisitions :=
  (positions.dedup.insertionSort (·.before ·)).map fun position => (.position position,.update)

/-- `FOR UPDATE` of layers, in the order the statement finds them. -/
def lockLayers (position : Position) (layers : List Nat) : Acquisitions :=
  layers.map fun id => (.layer position id,.update)

def lineBefore (a b : LineId) : Bool := a.saleId < b.saleId || a.saleId = b.saleId && a.index ≤ b.index

/-- `FOR UPDATE` of sale lines, ordered by id. -/
def lockSaleLines (ids : List LineId) : Acquisitions :=
  (ids.dedup.insertionSort (lineBefore · ·)).map fun id => (.saleLine id,.update)

def lockSale (saleId : Nat) : Acquisitions := [(.sale saleId,.update)]

/-- An inserted row refers to another one. -/
def references (row : Row) : Acquisitions := [(row,.keyShare)]

/-- A line and the layers with something left when it is allocated. -/
structure StockLine where
  position : Position
  layers : List Nat
  deriving DecidableEq

structure CreateSaleRequest where
  shift : Nat
  customerId : Option Nat
  creditAmount : ℚ
  lines : List StockLine
  deriving DecidableEq

def allocateSaleLineFifo (line : StockLine) : Acquisitions := lockLayers line.position line.layers

def createSale (r : CreateSaleRequest) : Acquisitions :=
  requireCallerShift r.shift ++ assertCreditAvailable r.customerId r.creditAmount ++
    lockStockPositions (r.lines.map (·.position)) ++ r.lines.flatMap allocateSaleLineFifo ++
    r.customerId.toList.flatMap fun customerId => references (.customer customerId)

/-- `layers` are those each line finds. -/
structure CompleteTabRequest where
  saleId : Nat
  shift : Nat
  creditAmount : ℚ
  layers : List (List Nat)
  deriving DecidableEq

/-- The lines of a sale with their ids and the layers of each. -/
def Sale.linesWith (sale : Sale) (saleId : Nat) (layers : List (List Nat)) : List (LineId × StockLine) :=
  sale.lines.zipIdx.map fun (line,i) => (⟨saleId,i⟩,⟨line.position sale.branchId,layers.getD i []⟩)

/-- The cost of a line is written, with its movements, after it has been allocated. -/
def completeTabLine (line : LineId × StockLine) : Acquisitions :=
  allocateSaleLineFifo line.2 ++ [(.saleLine line.1,.noKeyUpdate)]

def completeTab (sales : Sales) (r : CompleteTabRequest) : Acquisitions :=
  match sales r.saleId with
  | none => []
  | some sale => lockSale r.saleId ++ requireCallerShift r.shift ++ assertCreditAvailable sale.customerId r.creditAmount ++
      lockStockPositions (sale.lines.map (·.position sale.branchId)) ++
      (sale.linesWith r.saleId r.layers).flatMap completeTabLine

/-- A returned line refers to a sale line, whose layers are restored, or names a product, which gets a new layer. -/
inductive ReturnLine
  | ofSaleLine (id : LineId) (layers : List Nat)
  | ofProduct (productId : Nat) (variationId : Option Nat)
  deriving DecidableEq

def ReturnLine.saleLineId : ReturnLine → Option LineId
  | .ofSaleLine id _ => some id
  | .ofProduct _ _ => none

structure CreateSaleReturnRequest where
  shift : Nat
  branchId : Nat
  saleId : Option Nat
  customerId : Option Nat
  lines : List ReturnLine
  deriving DecidableEq

def CreateSaleReturnRequest.lineIds (r : CreateSaleReturnRequest) : List LineId := r.lines.filterMap ReturnLine.saleLineId

/-- The sale that is named, or else that of the first line. -/
def CreateSaleReturnRequest.returnedSale (r : CreateSaleReturnRequest) : Option Nat :=
  r.saleId.or (r.lineIds.head?.map (·.saleId))

/-- Every line it refers to exists and is of one sale. -/
def CreateSaleReturnRequest.resolves (r : CreateSaleReturnRequest) (sales : Sales) : Bool :=
  r.lineIds.all fun id => (sales.line id).isSome && r.returnedSale = some id.saleId

def ReturnLine.position (sales : Sales) (branchId : Nat) : ReturnLine → Option Position
  | .ofSaleLine id _ => (sales.line id).map (·.position branchId)
  | .ofProduct productId variationId => some ⟨branchId,productId,variationId⟩

def restoreReturnLine (sales : Sales) (branchId : Nat) (line : ReturnLine) : Acquisitions :=
  match line with
  | .ofSaleLine _ layers => (line.position sales branchId).toList.flatMap (lockLayers · layers)
  | .ofProduct _ _ => []

/-- What follows once the lines are locked and the original sale is known. -/
def returnAgainst (sales : Sales) (r : CreateSaleReturnRequest) (original : Option (Nat × Sale)) : Acquisitions :=
  (r.customerId.or (original.bind (·.2.customerId))).toList.flatMap lockCustomer ++
    lockStockPositions (r.lines.filterMap (·.position sales r.branchId)) ++
    original.toList.flatMap (fun sale => references (.sale sale.1)) ++
    r.lines.flatMap (restoreReturnLine sales r.branchId)

def createSaleReturn (sales : Sales) (r : CreateSaleReturnRequest) : Acquisitions :=
  requireCallerShift r.shift ++ lockSaleLines (r.lineIds.filter fun id => (sales.line id).isSome) ++
    if r.resolves sales then
      match r.returnedSale with
      | none => returnAgainst sales r none
      | some saleId => match sales saleId with
        | none => []
        | some sale => if sale.branchId = r.branchId then returnAgainst sales r (some (saleId,sale)) else []
    else []

/-- `layers` are those each line has been taken from, in the order the statement that restores them finds them. -/
structure UndoSaleRequest where
  saleId : Nat
  registerShiftId : Option Nat
  reversedCredit : ℚ
  layers : List (List Nat)
  deriving DecidableEq

def restoreAllSaleLineInventory (sale : Sale) (r : UndoSaleRequest) : Acquisitions :=
  (sale.linesWith r.saleId r.layers).flatMap fun line => allocateSaleLineFifo line.2

/-- The ledger entry that takes back what was put on account. -/
def refundCredit (sale : Sale) (r : UndoSaleRequest) : Acquisitions :=
  if 0 < r.reversedCredit then sale.customerId.toList.flatMap fun customerId => references (.customer customerId) else []

def reverseCompletedSaleSettlements (sale : Sale) (r : UndoSaleRequest) : Acquisitions :=
  r.registerShiftId.toList.flatMap (fun shift => references (.shift shift)) ++ refundCredit sale r

def lockSaleLinesForUpdate (sale : Sale) (saleId : Nat) : Acquisitions :=
  lockSaleLines ((List.range sale.lines.length).map (⟨saleId,·⟩))

def voidSale (sales : Sales) (r : UndoSaleRequest) : Acquisitions :=
  match sales r.saleId with
  | none => []
  | some sale => lockSaleLinesForUpdate sale r.saleId ++ lockSale r.saleId ++ restoreAllSaleLineInventory sale r ++
      reverseCompletedSaleSettlements sale r

/-- A tab that has not been completed has taken nothing. -/
def skipInventoryRestore (saleType : SaleType) (status : SaleStatus) : Bool :=
  saleType = .dineIn && (status = .held || status = .draft || status = .partiallyPaid)

structure CancelSaleRequest extends UndoSaleRequest where
  saleType : SaleType
  status : SaleStatus
  deriving DecidableEq

def cancelSale (sales : Sales) (r : CancelSaleRequest) : Acquisitions :=
  match sales r.saleId with
  | none => []
  | some sale => lockSaleLinesForUpdate sale r.saleId ++ lockSale r.saleId ++
      (if skipInventoryRestore r.saleType r.status then [] else restoreAllSaleLineInventory sale r.toUndoSaleRequest) ++
      reverseCompletedSaleSettlements sale r.toUndoSaleRequest

/-- A transfer out of its source branch, or waste. -/
def consumeLines (lines : List StockLine) : Acquisitions :=
  lockStockPositions (lines.map (·.position)) ++ lines.flatMap allocateSaleLineFifo

structure AdjustmentLine extends StockLine where
  qtyDelta : ℚ
  deriving DecidableEq

/-- What comes in gets a new layer. -/
def adjustLine (line : AdjustmentLine) : Acquisitions :=
  if 0 < line.qtyDelta then [] else allocateSaleLineFifo line.toStockLine

def createStockAdjustment (lines : List AdjustmentLine) : Acquisitions :=
  lockStockPositions (lines.map (·.position)) ++ lines.flatMap adjustLine

def consumeIngredientFifo (line : StockLine) : Acquisitions :=
  lockStockPositions [line.position] ++ allocateSaleLineFifo line

/-- The ingredients of the bill of materials that are needed, in its order. -/
def completeProductionOrder (ingredients : List StockLine) : Acquisitions := ingredients.flatMap consumeIngredientFifo

inductive Request
  | createSale (r : CreateSaleRequest)
  | completeTab (r : CompleteTabRequest)
  | createSaleReturn (r : CreateSaleReturnRequest)
  | voidSale (r : UndoSaleRequest)
  | cancelSale (r : CancelSaleRequest)
  | createStockTransfer (lines : List StockLine)
  | createWasteEntry (lines : List StockLine)
  | createStockAdjustment (lines : List AdjustmentLine)
  | completeProductionOrder (ingredients : List StockLine)
  deriving DecidableEq

def acquisitions (sales : Sales) : Request → Acquisitions
  | .createSale r => createSale r
  | .completeTab r => completeTab sales r
  | .createSaleReturn r => createSaleReturn sales r
  | .voidSale r => voidSale sales r
  | .cancelSale r => cancelSale sales r
  | .createStockTransfer lines | .createWasteEntry lines => consumeLines lines
  | .createStockAdjustment lines => createStockAdjustment lines
  | .completeProductionOrder ingredients => completeProductionOrder ingredients

end LockOrder
