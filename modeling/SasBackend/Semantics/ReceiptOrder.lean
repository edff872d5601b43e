import SasBackend.Semantics.LayerConservation

/-! The order in which the layers that purchase receipts filled are taken. -/
namespace Stock
open SasBackend Program

/-- The times of the receipts that put goods into a layer. -/
def Store.receiptsInto (s : Store) (layer : Nat) : List Int :=
  (s.movements.filter fun m => m.val.movementType = .purchase && m.val.purchaseLineId = some layer).map (·.val.movementAt)

/-- Goods were received into both, and into the one before any into the other. -/
def Store.ReceivedBefore (s : Store) (a b : Nat) : Prop :=
  s.receiptsInto a ≠ [] ∧ s.receiptsInto b ≠ [] ∧ ∀ x ∈ s.receiptsInto a, ∀ y ∈ s.receiptsInto b, x < y

/-- Whatever is taken of a layer is taken after all that another layer holds. -/
def Store.TakesBefore (s : Store) (position : Position) (a b : PurchaseLine × Nat) : Prop :=
  ∀ qty slices short t, (consumeFifoLayers position qty).run s = .ok ((slices,short),t) →
    ∀ slice ∈ slices, slice.purchaseLineId = some b.2 →
      ∃ first, [first,slice].Sublist slices ∧ first.purchaseLineId = some a.2 ∧ first.qty = a.1.val.qtyRemaining

/-- Layers are taken in the order of their receipts. -/
def ReceiptOrder (s : Store) : Prop :=
  ∀ position, ∀ a ∈ s.fifoLayers position, ∀ b ∈ s.fifoLayers position, s.ReceivedBefore a.2 b.2 →
    [a,b].Sublist (s.fifoLayers position) ∧ s.TakesBefore position a b

/-- The line is not the first to put goods into an order line that has received goods at other costs only. -/
def Store.promptLine (s : Store) (receivedAt : Int) (lines : List ReceiptLineRequest) (line : ReceiptLineRequest) : Bool :=
  line.purchaseLineId.all fun id => s.layers[id]?.all fun layer =>
    round4 layer.val.costPerUnit ≠ round4 line.costPerUnit || !(s.receiptsInto id).isEmpty || layer.val.createdAt = receivedAt ||
      layer.val.receivedQty = 0 && (lines.find? fun other => other.purchaseLineId = some id).all fun first =>
        round4 layer.val.costPerUnit = round4 first.costPerUnit

def prompt (s : Store) : Request → Bool
  | .createPurchaseReceipt data => data.lines.all (s.promptLine data.receivedAt data.lines)
  | _ => true

end Stock
