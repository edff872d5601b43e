import SasBackend.Semantics.LayerConservation

/-! The lines of a return request submitted together, and each in a request of its own. -/
namespace Refunds
open Pricing Tally Transition

/-- The state with a return of these items on record; what else it holds is of no account to later lines. -/
def State.file (s : State) (items : List Prepared) : State :=
  { s with returns := s.returns ++ [⟨none,none,items.map Prepared.store,[],0⟩] }

/-- The lines checked and computed one request at a time. -/
def prepareApart (s : State) : List ReturnLineRequest → Except Refusal (List Prepared)
  | [] => .ok []
  | line :: rest => do
    let items ← prepareLines s [] [line]
    let others ← prepareApart (s.file items) rest
    .ok (items ++ others)

structure Totals where
  qty : ℚ
  discount : ℚ
  tax : ℚ
  refund : ℚ
  deriving DecidableEq

def totals (id : LineId) (items : List Prepared) : Totals where
  qty := tally Prepared.saleLineId (fun item => item.store.qty) (some id) items
  discount := tally Prepared.saleLineId (fun item => item.store.discountAmount) (some id) items
  tax := tally Prepared.saleLineId (fun item => item.store.taxAmount) (some id) items
  refund := tally Prepared.saleLineId Prepared.refund (some id) items

/-- What is asked for of a sale line with this line and those before it in its request, which count as asked for or as stored. -/
def State.askedFor (s : State) (count : ℚ → ℚ) (earlier : List ReturnLineRequest) (line : ReturnLineRequest) (id : LineId) : ℚ :=
  (alreadyReturnedAmounts s id).qty + tally ReturnLineRequest.saleLineId (fun other => count other.qty) (some id) earlier + line.qty

/-- The line names the product of its sale line, and no more units than are left of it. -/
def fits (s : State) (count : ℚ → ℚ) (earlier : List ReturnLineRequest) (line : ReturnLineRequest) (id : LineId) (original : SaleLine) : Bool :=
  line.productId.all (· = original.productId) && (line.variationId.isNone || line.variationId = original.variationId) &&
    s.askedFor count earlier line id ≤ original.qty

/-- A part of an amount of a sale line, by quantity and in whole cents. -/
def SaleLine.part (original : SaleLine) (amount qty : ℚ) : ℚ := Decimal.quantize 2 (amount * qty / original.qty)

def partsBefore (amount : SaleLine → ℚ) (earlier : List ReturnLineRequest) (id : LineId) (original : SaleLine) : ℚ :=
  tally ReturnLineRequest.saleLineId (fun other => original.part (amount original) other.qty) (some id) earlier

/-- A line that leaves units gets its part, and one that takes the last of them gets what is left once `given` went back. -/
def State.due (s : State) (count : ℚ → ℚ) (earlier : List ReturnLineRequest) (line : ReturnLineRequest) (id : LineId) (original : SaleLine)
    (amount given : ℚ) : ℚ :=
  if s.askedFor count earlier line id < original.qty then original.part amount line.qty else max (amount - given) 0

/-- Counting what went back with earlier lines of the request takes nothing off the line. -/
def clearsAlike (s : State) (earlier : List ReturnLineRequest) (line : ReturnLineRequest) (id : LineId) (original : SaleLine) : Bool :=
  let returned := alreadyReturnedAmounts s id
  let alike (amount : SaleLine → ℚ) (given : ℚ) : Bool :=
    s.due (fun qty => qty) earlier line id original (amount original) given =
      s.due (Decimal.quantize 4) earlier line id original (amount original) (given + partsBefore amount earlier id original)
  alike SaleLine.discountAmount returned.discount && alike SaleLine.taxAmount returned.tax

/-- A check of every line, with those before it and with its sale line. -/
def everyLine (s : State) (check : List ReturnLineRequest → ReturnLineRequest → LineId → SaleLine → Bool) (earlier : List ReturnLineRequest) :
    List ReturnLineRequest → Bool
  | [] => true
  | line :: rest =>
    line.saleLineId.all (fun id => (s.line id).all (check earlier line id)) && everyLine s check (earlier ++ [line]) rest

/-- Four decimals do not decide whether the lines fit; and if they do, no line that takes the last units of a sale line follows one
that took something off what is left for it. -/
def splits (s : State) (lines : List ReturnLineRequest) : Bool :=
  (everyLine s (fits s fun qty => qty) [] lines == everyLine s (fits s (Decimal.quantize 4)) [] lines) &&
    (!everyLine s (fits s fun qty => qty) [] lines || everyLine s (clearsAlike s) [] lines)

/-- Together or apart, the lines pass the same checks and leave the same: of the amounts of the sale lines, and of the layers. -/
structure SplitAlike (s : State) (store : Stock.Store) (data : CreateSaleReturnRequest) (returnedAt : Int) : Prop where
  accepted : (∃ items, prepareLines s [] data.lines = .ok items) ↔ ∃ items, prepareApart s data.lines = .ok items
  amounts : ∀ together apart, prepareLines s [] data.lines = .ok together → prepareApart s data.lines = .ok apart →
    ∀ id, totals id together = totals id apart
  layers : ∀ together apart, Stock.serve store (.createSaleReturn data returnedAt) = some together →
    Run (OfNext Stock.serve) store (data.lines.map fun line => .createSaleReturn { data with lines := [line] } returnedAt) apart →
    apart.layers = together.layers

end Refunds
