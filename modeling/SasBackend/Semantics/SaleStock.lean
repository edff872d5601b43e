import SasBackend.Semantics.LayerConservation

/-! What a sale has out of the stock of each position, and the requests that leave it within what its lines sold.
`once` looks at the request and the sale it names, `balances` at what is out.
-/
namespace Stock
open SasBackend Tally
open Refunds (LineId ReturnLineRequest)

/-- Movements that reference a line of the sale, or a return line that is linked to one. -/
def Store.ofSale (s : Store) (saleId : Nat) (m : StockMovement) : Bool :=
  (s.about m.val.reference).map LineId.saleId = some saleId

def Store.saleNet (s : Store) (saleId : Nat) (position : Position) : ℚ :=
  tally (fun m : StockMovement => m.val.position) (fun m => m.val.qty) position (s.movements.filter (s.ofSale saleId))

def Sale.qtyAt (sale : Sale) (position : Position) : ℚ :=
  tally (fun line : SaleLine => line.position sale.branchId) (fun line => line.stored.qty) position sale.lines

def Sale.closed (sale : Sale) : Bool := sale.status = .voided || sale.status = .cancelled

structure SaleKept (s : Store) (saleId : Nat) (sale : Sale) : Prop where
  nonpos : ∀ position, s.saleNet saleId position ≤ 0
  covered : ∀ position, -sale.qtyAt position ≤ s.saleNet saleId position
  closed : sale.closed = true → ∀ position, s.saleNet saleId position = 0

/-- The stock of every sale is taken at most once and given back at most once. -/
def SalesKept (s : Store) : Prop := ∀ (saleId : Nat) sale, s.sales[saleId]? = some sale → SaleKept s saleId sale

def Store.nothingOut (s : Store) (saleId : Nat) (sale : Sale) : Bool :=
  sale.lines.all fun line => s.saleNet saleId (line.position sale.branchId) = 0

def Store.soldFrom (s : Store) (id : LineId) : Option Position :=
  s.sales[id.saleId]?.bind fun sale => sale.lines[id.index]?.map (·.position sale.branchId)

/-- What linked lines of a return bring to a position, each rounded to its column. -/
def Store.brought (s : Store) (lines : List ReturnLineRequest) (position : Position) : ℚ :=
  tally (fun line : ReturnLineRequest => line.saleLineId.bind s.soldFrom) (fun line => round4 line.qty) (some position) lines

/-- A tab is completed or cancelled with nothing out, a cancelled sale is not cancelled again unless it has no lines, and a return
brings back no more than is out. -/
def Store.balances (s : Store) : Request → Bool
  | .completeTab saleId _ _ => s.sales[saleId]?.all (s.nothingOut saleId)
  | .cancelSale saleId _ => s.sales[saleId]?.all fun sale =>
    if skipInventoryRestore sale then s.nothingOut saleId sale else sale.status ≠ .cancelled || sale.lines.isEmpty
  | .createSaleReturn data _ => (data.lines.filterMap ReturnLineRequest.saleLineId).all fun id => (s.soldFrom id).all fun position =>
    s.saleNet id.saleId position + s.brought data.lines position ≤ 0
  | _ => true

/-- A quantity with more than four decimals is the only one of the request for its sale line. -/
def returnsFit (lines : List ReturnLineRequest) : Bool :=
  lines.all fun line => line.saleLineId.isNone || decide (line.qty ∈ Decimal.grid 4) ||
    decide ((lines.filter (·.saleLineId = line.saleLineId)).length = 1)

/-- Lines are added to a tab that was opened as one, and no other dine-in sale is completed as one or cancelled; no sale is cancelled
again. -/
def once (s : Store) : Request → Bool
  | .addLinesToTab saleId _ | .completeTab saleId _ _ => s.sales[saleId]?.all (·.status = .held)
  | .cancelSale saleId _ => s.sales[saleId]?.all fun sale =>
    sale.status ≠ .cancelled && (sale.saleType ≠ .dineIn || sale.status = .held)
  | .createSaleReturn data _ => returnsFit data.lines
  | _ => true

end Stock
