import Mathlib.Data.Nat.Log
import SasBackend.Semantics.Stock

/-! The cost of a quantity as the database function `get_fifo_cost` computes it from the same layers.
A NUMERIC value carries the number of places it is shown with, by which the scale of a quotient is chosen: the
database's choice is a parameter `divScale`, and `selectDivScale` is the one of its `numeric` type.
-/
namespace Stock
open SasBackend Program

/-- A value of the database's NUMERIC type. -/
structure Numeric where
  value : ℚ
  scale : Nat
  deriving DecidableEq

namespace Numeric

def add (a b : Numeric) : Numeric := ⟨a.value + b.value,max a.scale b.scale⟩

def sub (a b : Numeric) : Numeric := ⟨a.value - b.value,max a.scale b.scale⟩

def mul (a b : Numeric) : Numeric := ⟨a.value * b.value,a.scale + b.scale⟩

def least (a b : Numeric) : Numeric := if b.value < a.value then b else a

def div (divScale : Numeric → Numeric → Nat) (a b : Numeric) : Numeric :=
  ⟨Decimal.quantize (divScale a b) (a.value / b.value),divScale a b⟩

def round (a : Numeric) (places : Nat) : Numeric := ⟨Decimal.quantize places a.value,places⟩

/-- A column with four decimal places. -/
def column (value : ℚ) : Numeric := ⟨value,4⟩

end Numeric

/-- Position and value of the first digit of a value in base 10000. -/
def leading (a : Numeric) : Int × Nat :=
  let units := (a.value * 10000 ^ a.scale).floor.toNat
  if units = 0 then (0,0)
  else ((Nat.log 10000 units : Int) - a.scale,units / 10000 ^ Nat.log 10000 units)

/-- At least 16 significant digits, and no fewer places than the operands show. -/
def selectDivScale (a b : Numeric) : Nat :=
  let quotientWeight := (leading a).1 - (leading b).1 - if (leading a).2 ≤ (leading b).2 then 1 else 0
  min 1000 (max (16 - quotientWeight * 4).toNat (max a.scale b.scale))

inductive SqlError
  | notPositive (qty : ℚ)
  | insufficientStock (qty short : ℚ)
  deriving DecidableEq

/-- The rows of the function's query; no branch means all of them. -/
def Store.fifoCostRows (s : Store) (branchId : Option Nat) (productId : Nat) (variationId : Option Nat) : List LayerRow :=
  ((s.layers.zipIdx.filter fun entry => branchId.all (entry.1.val.position.branchId = ·) &&
      entry.1.val.position.productId = productId && entry.1.val.position.variationId = variationId &&
      0 < entry.1.val.qtyRemaining).insertionSort fun a b => a.1.val.createdAt ≤ b.1.val.createdAt).map (·.1.val)

/-- The loop over the rows; returns what remains and the total cost. -/
def fifoCostLoop : List LayerRow → Numeric → Numeric → Numeric × Numeric
  | [],remaining,totalCost => (remaining,totalCost)
  | row :: rest,remaining,totalCost =>
    let take := remaining.least (.column row.qtyRemaining)
    let totalCost := totalCost.add (take.mul (.column row.costPerUnit))
    let remaining := remaining.sub take
    if remaining.value ≤ 0 then (remaining,totalCost) else fifoCostLoop rest remaining totalCost

def getFifoCost (divScale : Numeric → Numeric → Nat) (s : Store) (branchId : Option Nat) (productId : Nat)
    (variationId : Option Nat) (qty : Numeric) : Except SqlError ℚ :=
  if qty.value ≤ 0 then .error (.notPositive qty.value)
  else
    let (remaining,totalCost) := fifoCostLoop (s.fifoCostRows branchId productId variationId) qty ⟨0,0⟩
    if remaining.value > 0 then .error (.insufficientStock qty.value remaining.value)
    else .ok ((totalCost.div divScale qty).round 4).value

end Stock
