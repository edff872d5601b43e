import Mathlib.Logic.Function.Basic
import SasBackend.Semantics.LayerConservation

/-! What a transfer takes from the source and opens at the destination.
Ids of layers are drawn at random: `rank` is the order they happen to be in.
-/
namespace Stock
open SasBackend Tally

/-- The layers of a position that hold something, those created together in the order of their ids. -/
def Store.fifoLayersBy (rank : Nat → Nat) (s : Store) (position : Position) : List (PurchaseLine × Nat) :=
  (s.layers.zipIdx.filter fun entry => entry.1.val.position = position && 0 < entry.1.val.qtyRemaining).insertionSort fun a b =>
    a.1.val.createdAt < b.1.val.createdAt ∨ a.1.val.createdAt = b.1.val.createdAt ∧ rank a.2 ≤ rank b.2

def Store.rowsSince (s t : Store) : List StockMovement := t.movements.drop s.movements.length

/-- The layers a request opened, with their ids. -/
def Store.layersSince (s t : Store) : List (PurchaseLine × Nat) := t.layers.zipIdx.drop s.layers.length

def StockMovement.cost (m : StockMovement) : ℚ := |m.val.qty| * m.val.costPerUnit

def PurchaseLine.cost (layer : PurchaseLine) : ℚ := layer.val.receivedQty * layer.val.costPerUnit

/-- A layer for each slice that was taken, with its goods. -/
def Opens (dest : Nat) (m : StockMovement) (entry : PurchaseLine × Nat) : Prop :=
  entry.1.val.position = { m.val.position with branchId := dest } ∧ entry.1.val.receivedQty = |m.val.qty| ∧
    entry.1.val.qtyRemaining = |m.val.qty| ∧ entry.1.val.costPerUnit = m.val.costPerUnit

/-- A transfer that leaves the source between the first two states and gets to the destination between the last two. -/
structure TransferKept (source dest : Nat) (before sent arriving arrived : Store) : Prop where
  goods : List.Forall₂ (Opens dest) (before.rowsSince sent) (arriving.layersSince arrived)
  quantity : ∀ productId variationId, arrived.balance ⟨dest,productId,variationId⟩ - arriving.balance ⟨dest,productId,variationId⟩ =
    before.balance ⟨source,productId,variationId⟩ - sent.balance ⟨source,productId,variationId⟩
  cost : ∀ productId variationId,
    tally (fun entry => entry.1.val.position) (fun entry => PurchaseLine.cost entry.1) ⟨dest,productId,variationId⟩ (arriving.layersSince arrived) =
      tally (fun m => m.val.position) StockMovement.cost ⟨source,productId,variationId⟩ (before.rowsSince sent)
  order : ∀ rank : Nat → Nat, rank.Injective → ∀ (i j : Nat) x y a b, i < j →
    (before.rowsSince sent)[i]? = some x → (before.rowsSince sent)[j]? = some y →
    (arriving.layersSince arrived)[i]? = some a → (arriving.layersSince arrived)[j]? = some b →
    x.val.position = y.val.position → x.val.purchaseLineId ≠ y.val.purchaseLineId →
    [a,b].Sublist (arrived.fifoLayersBy rank a.1.val.position)

/-- A quantity held covers all but the last of these, and more. -/
def lasts (held : ℚ) : List ℚ → Bool
  | qty :: next :: rest => 0 < round4 (held - qty) && lasts (round4 (held - qty)) (next :: rest)
  | _ => true

/-- The oldest layer of the position lasts until the last of the items. -/
def Store.oldestLasts (s : Store) (items : List Item) (position : Position) : Bool :=
  (s.fifoLayers position).head?.all fun entry => lasts entry.1.val.qtyRemaining ((items.filter (·.position = position)).map Item.qty)

end Stock
