import Mathlib.Data.List.Dedup
import Mathlib.Data.List.Sort
import SasBackend.Library.Decimal
import SasBackend.Library.RowLocks
import SasBackend.Library.Transition
import SasBackend.Semantics.Enums

/-! Concurrent returns, voids and cancels of one sale, statement by statement.
Reads see committed rows, row locks are held to commit, and inserting a row locks the row its foreign key
names. A transaction may fail at any other point; what it wrote is then gone.
-/
namespace SaleExclusion
open RowLocks SasBackend

structure SaleLine where
  id : Nat
  qty : ℚ
  deriving DecidableEq

structure Sale where
  lines : List SaleLine
  registerShiftId : Option Nat
  distinct : (lines.map SaleLine.id).Nodup

structure RequestLine where
  saleLineId : Option Nat
  qty : ℚ
  deriving DecidableEq

/-- `saleNamed`: the request gives `sale_id`. -/
structure ReturnRequest where
  saleNamed : Bool
  lines : List RequestLine
  deriving DecidableEq

def ReturnRequest.lineIds (data : ReturnRequest) : List Nat :=
  (data.lines.filterMap RequestLine.saleLineId).dedup.insertionSort (· ≤ ·)

inductive Request
  | createSaleReturn (data : ReturnRequest)
  | voidSale
  | cancelSale
  deriving DecidableEq

structure ReturnLine where
  saleLineId : Option Nat
  qty : ℚ
  deriving DecidableEq

inductive Row
  | sale
  | line (id : Nat)
  deriving DecidableEq, Repr

inductive Phase
  | absent
  | lockingLines (request : Request) (todo : List Nat)
  | readingSale (data : ReturnRequest)
  | checkingLines (data : ReturnRequest) (todo : List RequestLine) (pending : List RequestLine)
  | insertingReturn (data : ReturnRequest)
  | insertingLines (todo : List RequestLine) (inserted : List ReturnLine)
  | lockingSale (request : Request)
  | countingReturns (request : Request)
  | verifyingShift
  | updatingStatus (status : SaleStatus)
  | ended
  deriving DecidableEq

structure State where
  status : SaleStatus
  returnLines : List ReturnLine
  shiftOpen : Bool
  locks : List (Held Row)
  phase : Nat → Phase

inductive Action
  | begin (t : Nat) (request : Request)
  | advance (t : Nat)
  | fail (t : Nat)
  | shift (isOpen : Bool)

def State.goto (s : State) (t : Nat) (phase : Phase) : State :=
  { s with phase := Function.update s.phase t phase }

/-- The end of a transaction, committed or not: its locks go. -/
def State.finish (s : State) (t : Nat) : State :=
  { s with locks := releaseAll s.locks t }.goto t .ended

def State.lock (s : State) (t : Nat) (row : Row) (mode : Mode) (phase : Phase) : Option State :=
  if grantable s.locks t row mode then some ({ s with locks := acquire s.locks t row mode }.goto t phase)
  else none

def Sale.lineIds (sale : Sale) : List Nat := (sale.lines.map SaleLine.id).insertionSort (· ≤ ·)

def Request.lineIds (sale : Sale) : Request → List Nat
  | .createSaleReturn data => data.lineIds
  | .voidSale | .cancelSale => sale.lineIds

/-- The transaction is about this sale. -/
def Request.concerns : Request → Bool
  | .createSaleReturn data => data.saleNamed || !data.lineIds.isEmpty
  | .voidSale | .cancelSale => true

/-- Quantity of the return lines linked to a sale line. -/
def returnedQty (lines : List ReturnLine) (id : Nat) : ℚ :=
  ((lines.filter (·.saleLineId = some id)).map ReturnLine.qty).sum

def requestedQty (lines : List RequestLine) (id : Nat) : ℚ :=
  ((lines.filter (·.saleLineId = some id)).map RequestLine.qty).sum

/-- The column of a return line's quantity has four decimal places. -/
def insertLine (line : RequestLine) : ReturnLine := ⟨line.saleLineId,Decimal.quantize 4 line.qty⟩

def returnable : SaleStatus → Bool
  | .cancelled | .voided | .draft | .held => false
  | .completed | .partiallyPaid => true

/-- Statuses void and cancel refuse; a void also needs the sale's shift. -/
def refuses (sale : Sale) (status : SaleStatus) : Request → Bool
  | .voidSale => status ≠ .completed || sale.registerShiftId.isNone
  | _ => status = .completed || status = .voided

def advance (sale : Sale) (s : State) (t : Nat) : Option State :=
  match s.phase t with
  | .lockingLines request (id :: rest) => s.lock t (.line id) .update (.lockingLines request rest)
  | .lockingLines (.createSaleReturn data) [] =>
    if data.lineIds.all (sale.lineIds.contains ·) then some (s.goto t (.readingSale data))
    else some (s.finish t)
  | .lockingLines request [] => some (s.goto t (.lockingSale request))
  | .readingSale data =>
    if returnable s.status then some (s.goto t (.checkingLines data data.lines [])) else some (s.finish t)
  | .checkingLines data [] _ => some (s.goto t (.insertingReturn data))
  | .checkingLines data (line :: rest) pending =>
    match line.saleLineId with
    | none => some (s.goto t (.checkingLines data rest pending))
    | some id => match sale.lines.find? (·.id = id) with
      | none => some (s.finish t)
      | some original =>
        let remaining := original.qty - returnedQty s.returnLines id - requestedQty pending id
        if line.qty > remaining then some (s.finish t)
        else some (s.goto t (.checkingLines data rest (line :: pending)))
  | .insertingReturn data => s.lock t .sale .keyShare (.insertingLines data.lines [])
  | .insertingLines (line :: rest) inserted =>
    if (insertLine line).qty ≤ 0 then some (s.finish t)
    else some (s.goto t (.insertingLines rest (inserted ++ [insertLine line])))
  | .insertingLines [] inserted => some ({ s with returnLines := s.returnLines ++ inserted }.finish t)
  | .lockingSale request =>
    if grantable s.locks t .sale .update then
      if refuses sale s.status request then some (s.finish t)
      else s.lock t .sale .update (.countingReturns request)
    else none
  | .countingReturns request =>
    if s.returnLines ≠ [] then some (s.finish t)
    else match request with
      | .voidSale => some (s.goto t .verifyingShift)
      | _ => some (s.goto t (.updatingStatus .cancelled))
  | .verifyingShift =>
    if s.shiftOpen then some (s.goto t (.updatingStatus .voided)) else some (s.finish t)
  | .updatingStatus status => some ({ s with status := status }.finish t)
  | .absent | .ended => none

def next (sale : Sale) (s : State) : Action → Option State
  | .begin t request =>
    if s.phase t = .absent ∧ request.concerns then
      some (s.goto t (.lockingLines request (request.lineIds sale)))
    else none
  | .advance t => advance sale s t
  | .fail t => if s.phase t = .absent then none else some (s.finish t)
  | .shift isOpen => some { s with shiftOpen := isOpen }

/-- Voided and cancelled sales have no live return line, and no line is returned beyond what was sold. -/
def Exclusive (sale : Sale) (s : State) : Prop :=
  (s.status = .voided ∨ s.status = .cancelled → s.returnLines = []) ∧
  ∀ line ∈ sale.lines, returnedQty s.returnLines line.id ≤ line.qty

def Initial (sale : Sale) (s : State) : Prop :=
  Exclusive sale s ∧ s.locks = [] ∧ ∀ t, s.phase t = .absent

end SaleExclusion
