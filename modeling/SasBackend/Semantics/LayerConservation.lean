import SasBackend.Library.Transition
import SasBackend.Semantics.Stock

/-! Requests to the stock one after the other, and what is to hold of the cost layers and the movements between them. -/
namespace Stock
open SasBackend Tally
open Refunds (LineId SaleLineRequest ReturnLineRequest)

/-- A request that fails leaves nothing behind. -/
def serve (s : Store) (request : Request) : Option Store := (request.program.run s).toOption.map Prod.snd

/-- Nothing has been received, sold or ordered. -/
def Empty (s : Store) : Prop := s.layers = [] ∧ s.movements = [] ∧ s.sales = [] ∧ s.returns = [] ∧ s.transfers = []

def Store.init : Store := ⟨false,[],[],[],[],[],[],[],[]⟩

theorem empty_init : Empty .init := ⟨rfl,rfl,rfl,rfl,rfl⟩

/-- What the movements of a layer add up to. -/
def Store.layerSum (s : Store) (layer : Nat) : ℚ :=
  tally (fun m : StockMovement => m.val.purchaseLineId) (fun m => m.val.qty) (some layer) s.movements

/-- What the sale of a line has taken from a layer. -/
def Store.takenFrom (s : Store) (line : LineId) (layer : Nat) : ℚ :=
  tally (fun m : StockMovement => m.val.purchaseLineId) (fun m => |m.val.qty|) (some layer) (s.saleMovements line)

/-- The sale line that a line of a return gives back. -/
def Store.linkedLine (s : Store) (saleReturn index : Nat) : Option LineId :=
  (s.returns[saleReturn]?.bind (·.lines[index]?)).bind ReturnLine.saleLineId

/-- The sale line that a row with the reference is about. -/
def Store.about (s : Store) : Reference → Option LineId
  | .saleLine line => some line
  | .saleReturnLine saleReturn index => s.linkedLine saleReturn index
  | _ => none

def Store.givesBack (s : Store) (line : LineId) (m : StockMovement) : Bool :=
  m.val.movementType = .saleReturn && s.about m.val.reference = some line

/-- What returns, void and cancel have put back into a layer for a line. -/
def Store.givenBack (s : Store) (line : LineId) (layer : Nat) : ℚ :=
  tally (fun m : StockMovement => m.val.purchaseLineId) (fun m => m.val.qty) (some layer)
    (s.movements.filter (s.givesBack line))

def Store.restoredQty (s : Store) (line : LineId) : ℚ := ((s.movements.filter (s.givesBack line)).map (·.val.qty)).sum

def Store.untouched (s : Store) (line : LineId) : Bool := s.movements.all fun m => !s.givesBack line m

/-- What a line took from the layer that a return fills first. -/
def Store.lastTaken (s : Store) (line : LineId) : ℚ := (s.tracedConsumptions line).getLast?.elim 0 FifoLayerConsumption.qty

structure LayersKept (s : Store) : Prop where
  bounds : ∀ layer ∈ s.layers, 0 ≤ layer.val.qtyRemaining ∧ layer.val.qtyRemaining ≤ layer.val.receivedQty
  conserved : ∀ (id : Nat) layer, s.layers[id]? = some layer → layer.val.qtyRemaining = s.layerSum id
  returned : ∀ line id, 0 < s.takenFrom line id → s.givenBack line id ≤ s.takenFrom line id

/-- No quantity that is taken lies halfway between two that the columns hold. -/
def untied (quantities : List ℚ) : Bool := quantities.all fun qty => !decide (Decimal.Tie 4 qty)

/-- A line that took from layers is given back in one go, or no further than what it took from the last of them. -/
def Store.restorable (s : Store) (lines : List ReturnLineRequest) (id : LineId) : Bool :=
  s.tracedConsumptions id = [] ||
    s.untouched id && decide ((lines.filterMap ReturnLineRequest.saleLineId).count id ≤ 1) ||
    decide (s.restoredQty id + tally ReturnLineRequest.saleLineId (fun line => round4 line.qty) (some id) lines ≤ s.lastTaken id)

/-- What an order line received with more decimals than its columns is not read again. -/
def receivesLast (lines : List ReceiptLineRequest) : Bool :=
  lines.Pairwise fun earlier later => earlier.purchaseLineId.isSome → earlier.purchaseLineId = later.purchaseLineId →
    earlier.qtyReceived ∈ Decimal.grid 4

/-- Nor is what an adjustment left so in the layer that it opened. -/
def adjustsLast (branchId : Nat) (lines : List AdjustmentLineRequest) : Bool :=
  lines.Pairwise fun earlier later => later.qtyDelta < 0 → (earlier.item branchId).position = (later.item branchId).position →
    earlier.qtyDelta ∈ Decimal.grid 4

/-- A sale is not cancelled again once its layers have been filled, and a tab with returns is not completed. -/
def orderly (s : Store) : Request → Bool
  | .createSale data => untied (data.bill.lines.map SaleLineRequest.qty)
  | .completeTab saleId _ _ => !s.hasReturnLines saleId
  | .createSaleReturn data _ => (data.lines.filterMap ReturnLineRequest.saleLineId).all (s.restorable data.lines)
  | .cancelSale saleId _ => s.sales[saleId]?.all fun sale =>
    sale.status ≠ .cancelled || (List.range sale.lines.length).all fun index => s.tracedConsumptions ⟨saleId,index⟩ = []
  | .createPurchaseReceipt data => receivesLast data.lines
  | .createStockAdjustment branchId _ lines _ =>
    adjustsLast branchId lines && untied ((lines.filter (·.qtyDelta < 0)).map fun line => |line.qtyDelta|)
  | .createWasteEntry _ lines _ => untied (lines.map ItemRequest.qty)
  | .createStockTransfer _ _ lines _ => untied (lines.map ItemRequest.qty)
  | _ => true

end Stock
