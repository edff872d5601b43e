import Mathlib.Algebra.BigOperators.Group.Finset.Basic
import SasBackend.Library.Histories
import SasBackend.Library.Overlay
import SasBackend.Library.Transition

/-! The trigger that keeps the stock level of a position, and the transactions that write stock movements.
Ids and times are numbers; a quantity is its number of ten-thousandths. Changed rows are locked to the end of the
transaction; a statement whose row is locked waits. A statement over several movements is one step for each.
-/
namespace StockLevels
open Overlay Histories
open scoped BigOperators

def zeroUuid : Nat := 0

/-- The id of a product variation: generated, hence never the nil id. -/
structure VariationId where
  uuid : Nat
  generated : uuid ≠ zeroUuid
  deriving DecidableEq

structure Position where
  businessId : Nat
  branchId : Nat
  productId : Nat
  variationId : Option VariationId
  deriving DecidableEq

structure StockMovement where
  position : Position
  qty : ℤ
  movementAt : Nat
  deletedAt : Option Nat
  deriving DecidableEq

/-- The unique key of `stock_levels`. -/
structure LevelKey where
  businessId : Nat
  branchId : Nat
  productId : Nat
  variationKey : Nat
  deriving DecidableEq

structure StockLevel where
  variationId : Option VariationId
  qty : ℤ
  lastMovementAt : Option Nat
  deriving DecidableEq

def Position.key (position : Position) : LevelKey :=
  ⟨position.businessId,position.branchId,position.productId,(position.variationId.map VariationId.uuid).getD zeroUuid⟩

/-- NUMERIC(15,4). -/
def fits (qty : ℤ) : Bool := qty.natAbs < 10 ^ 15

/-- A call of `sync_apply_stock`. -/
structure Call where
  position : Position
  delta : ℤ
  at_ : Option Nat
  deriving DecidableEq

/-- GREATEST ignores nulls. -/
def greatest : Option Nat → Option Nat → Option Nat
  | some first, some second => some (max first second)
  | first, second => first.or second

/-- The row `sync_apply_stock` inserts or updates; none when the sum overflows its column. -/
def syncApplyStock (level : Option StockLevel) (call : Call) : Option StockLevel :=
  let applied : StockLevel := match level with
    | none => ⟨call.position.variationId,call.delta,call.at_⟩
    | some level => { level with qty := level.qty + call.delta, lastMovementAt := greatest level.lastMovementAt call.at_ }
  if fits applied.qty then some applied else none

def StockMovement.liveQty (movement : StockMovement) : ℤ := if movement.deletedAt.isNone then movement.qty else 0

def quantity (row : Option StockMovement) : ℤ := row.elim 0 StockMovement.liveQty

/-- The calls the trigger makes: no old row on an insert, no new row on a delete. -/
def syncStockLevels (old new : Option StockMovement) : List Call :=
  let oldQ := quantity old
  let newQ := quantity new
  match old, new with
  | some old, some new =>
    if old.position = new.position then
      if newQ ≠ oldQ then [⟨new.position,newQ - oldQ,some new.movementAt⟩] else []
    else (if oldQ ≠ 0 then [⟨old.position,-oldQ,none⟩] else []) ++
      (if newQ ≠ 0 then [⟨new.position,newQ,some new.movementAt⟩] else [])
  | some old, none => if oldQ ≠ 0 then [⟨old.position,-oldQ,none⟩] else []
  | none, some new => if newQ ≠ 0 then [⟨new.position,newQ,some new.movementAt⟩] else []
  | none, none => []

structure Database where
  movements : Nat → Option StockMovement
  levels : LevelKey → Option StockLevel

/-- What a transaction has written after some of its statements, and the calls its last one still has to make. -/
structure Work where
  movements : Nat → Option (Option StockMovement)
  levels : LevelKey → Option (Option StockLevel)
  calls : List Call

def Work.empty : Work := ⟨untouched,untouched,[]⟩

def Work.view (work : Work) (db : Database) : Database := ⟨overlaid db.movements work.movements,overlaid db.levels work.levels⟩

/-- `ids`: every id a movement was ever inserted with. -/
structure State where
  ids : Finset Nat
  db : Database
  transactions : List (List Work)

inductive Action
  | begin_
  | insert (t id : Nat) (row : StockMovement)
  | update (t id : Nat) (row : StockMovement)
  | delete (t id : Nat)
  | applyStock (t : Nat)
  | rollback (t statements : Nat)
  | commit (t : Nat)

def State.put (s : State) (t : Nat) (history : List Work) : State := { s with transactions := s.transactions.set t history }

/-- The transaction has finished its last statement and nobody else has the row. -/
def ready (s : State) (t id : Nat) (work : Work) : Bool :=
  work.calls.isEmpty && free s.transactions t fun work => (work.movements id).isSome

/-- The statement has changed the row; its trigger runs next. -/
def Work.change (work : Work) (id : Nat) (old new : Option StockMovement) : Work :=
  ⟨Overlay.set work.movements id new,work.levels,syncStockLevels old new⟩

def next (s : State) : Action → Option State
  | .begin_ => some { s with transactions := s.transactions ++ [[]] }
  | .insert t id row => do
    let history ← s.transactions[t]?
    let work := now .empty history
    if ready s t id work && ((work.view s.db).movements id).isNone && fits row.qty then
      some { s.put t (work.change id none row :: history) with ids := insert id s.ids }
    else none
  | .update t id row => do
    let history ← s.transactions[t]?
    let work := now .empty history
    let old ← (work.view s.db).movements id
    if ready s t id work && fits row.qty then some (s.put t (work.change id old row :: history)) else none
  | .delete t id => do
    let history ← s.transactions[t]?
    let work := now .empty history
    let old ← (work.view s.db).movements id
    if ready s t id work then some (s.put t (work.change id old none :: history)) else none
  | .applyStock t => do
    let history ← s.transactions[t]?
    let work := now .empty history
    let call ← work.calls.head?
    let key := call.position.key
    let level ← syncApplyStock ((work.view s.db).levels key) call
    if free s.transactions t fun work => (work.levels key).isSome then
      some (s.put t (⟨work.movements,Overlay.set work.levels key (some level),work.calls.tail⟩ :: history.tail))
    else none
  | .rollback t statements => do
    let history ← s.transactions[t]?
    some (s.put t (history.drop statements))
  | .commit t => do
    let history ← s.transactions[t]?
    let work := now .empty history
    if work.calls.isEmpty then some { s.put t [] with db := work.view s.db } else none

/-- What a movement adds to a position. -/
def contribution (position : Position) (row : Option StockMovement) : ℤ :=
  row.elim 0 fun movement => if movement.position = position then movement.liveQty else 0

/-- The sum of the quantities of the position's live movements. -/
def liveQty (ids : Finset Nat) (db : Database) (position : Position) : ℤ :=
  ∑ id ∈ ids, contribution position (db.movements id)

/-- An absent row counts as zero. -/
def levelQty (db : Database) (position : Position) : ℤ := (db.levels position.key).elim 0 StockLevel.qty

def movementsAt (ids : Finset Nat) (db : Database) (position : Position) : Finset Nat :=
  ids.filter fun id => (db.movements id).any fun movement => movement.position = position && movement.deletedAt.isNone

/-- The database right after the migration: one level for each position with a live movement. -/
def Backfilled (ids : Finset Nat) (db : Database) : Prop :=
  (∀ id, id ∉ ids → db.movements id = none) ∧
    ∀ position, (movementsAt ids db position = ∅ → db.levels position.key = none) ∧
      (movementsAt ids db position ≠ ∅ → ∃ last, db.levels position.key =
        some ⟨position.variationId,∑ id ∈ movementsAt ids db position, quantity (db.movements id),last⟩)

def Initial (s : State) : Prop := s.transactions = [] ∧ Backfilled s.ids s.db

end StockLevels
