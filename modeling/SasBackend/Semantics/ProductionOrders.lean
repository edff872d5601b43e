import SasBackend.Library.RowLocks
import SasBackend.Library.Transition
import SasBackend.Semantics.Stock

/-! Requests on one production order, statement by statement.
A request reads the order once, without a lock, and ends with an UPDATE of the columns it changed and its COMMIT; both are one
step here, as nothing comes between them. A completion locks the position of each ingredient it takes. A request may fail at
any point, what it wrote is then gone.
-/
namespace ProductionOrders
open RowLocks SasBackend
open Stock (Position BomLine Bom ProductionOrder ProductionStatus computeIngredientQtyForProduction round4)

/-- A row of `production_lines`, with the movements that take its quantity. -/
structure ProductionLine where
  bomHeaderId : Nat
  bomLine : Nat
  position : Position
  qtyConsumed : ℚ
  deriving DecidableEq

/-- The layer of finished goods and the movement that brings them in. -/
structure FinishedGoods where
  position : Position
  qty : ℚ
  deriving DecidableEq

structure Database where
  order : ProductionOrder
  lines : List ProductionLine
  finished : List FinishedGoods
  deriving DecidableEq

inductive Request
  | updateProductionOrder (bomHeaderId : Option Nat) (qtyToProduce : Option ℚ)
  | startProductionOrder
  | cancelProductionOrder
  | completeProductionOrder (qtyProduced : ℚ)
  deriving DecidableEq

def Request.valid : Request → Bool
  | .updateProductionOrder _ qtyToProduce => qtyToProduce.all (0 < ·)
  | .completeProductionOrder qtyProduced => 0 < qtyProduced
  | .startProductionOrder | .cancelProductionOrder => true

/-- The columns an UPDATE sets. -/
structure Columns where
  bomHeaderId : Option Nat
  status : Option ProductionStatus
  qtyToProduce : Option ℚ
  qtyProduced : Option ℚ
  deriving DecidableEq

/-- Only a value other than the loaded one is written. -/
def changed {α : Type} [DecidableEq α] (loaded : α) (value : Option α) : Option α := value.filter (· ≠ loaded)

def Columns.apply (columns : Columns) (order : ProductionOrder) : ProductionOrder :=
  { order with
    bomHeaderId := columns.bomHeaderId.getD order.bomHeaderId
    status := columns.status.getD order.status
    qtyToProduce := (columns.qtyToProduce.map round4).getD order.qtyToProduce
    qtyProduced := (columns.qtyProduced.map round4).getD order.qtyProduced }

/-- The constraints of the table. -/
def Checked (order : ProductionOrder) : Prop :=
  0 < order.qtyToProduce ∧ 0 ≤ order.qtyProduced ∧ order.qtyProduced ≤ order.qtyToProduce

instance (order : ProductionOrder) : Decidable (Checked order) := inferInstanceAs (Decidable (_ ∧ _))

/-- What a request writes at its end. -/
structure Writes where
  columns : Columns
  lines : List ProductionLine
  finished : Option FinishedGoods
  deriving DecidableEq

def Writes.update (columns : Columns) : Writes := ⟨columns,[],none⟩

def Database.write (database : Database) (writes : Writes) : Database :=
  ⟨writes.columns.apply database.order,database.lines ++ writes.lines,database.finished ++ writes.finished.toList⟩

/-- The stored quantity of the finished goods is positive and the order keeps its constraints. -/
def Writes.accepted (writes : Writes) (order : ProductionOrder) : Bool :=
  writes.finished.all (0 < ·.qty) && Checked (writes.columns.apply order)

inductive Phase
  | absent
  | reading (request : Request)
  /-- `order` as it was read. -/
  | consuming (order : ProductionOrder) (bom : Bom) (qtyProduced : ℚ) (todo : List (BomLine × Nat)) (lines : List ProductionLine)
  | writing (writes : Writes)
  | ended
  deriving DecidableEq

structure State where
  database : Database
  locks : List (Held Position)
  phase : Nat → Phase

inductive Action
  | begin (t : Nat) (request : Request)
  | advance (t : Nat)
  | fail (t : Nat)

def State.goto (s : State) (t : Nat) (phase : Phase) : State :=
  { s with phase := Function.update s.phase t phase }

def State.finish (s : State) (t : Nat) : State :=
  { s with locks := releaseAll s.locks t }.goto t .ended

def State.lock (s : State) (t : Nat) (position : Position) (phase : Phase) : Option State :=
  if grantable s.locks t position .update then
    some ({ s with locks := acquire s.locks t position .update }.goto t phase)
  else none

/-- The checks on the order as it is read, and what comes after them. -/
def read (boms : Nat → Option Bom) (order : ProductionOrder) : Request → Phase
  | .updateProductionOrder bomHeaderId qtyToProduce =>
    if order.status = .draft then
      .writing (.update ⟨changed order.bomHeaderId bomHeaderId,none,changed order.qtyToProduce qtyToProduce,none⟩)
    else .ended
  | .startProductionOrder =>
    if order.status = .draft then .writing (.update ⟨none,some .inProgress,none,none⟩) else .ended
  | .cancelProductionOrder =>
    if order.status ≠ .completed ∧ order.status ≠ .cancelled then .writing (.update ⟨none,some .cancelled,none,none⟩)
    else .ended
  | .completeProductionOrder qtyProduced =>
    if order.status = .inProgress ∧ order.qtyProduced ≤ 0 ∧ qtyProduced ≤ order.qtyToProduce then
      match boms order.bomHeaderId with
      | some bom => if bom.lines.isEmpty then .ended else .consuming order bom qtyProduced bom.lines.zipIdx []
      | none => .ended
    else .ended

def consumed (order : ProductionOrder) (bom : Bom) (qtyProduced : ℚ) (entry : BomLine × Nat) : ProductionLine :=
  ⟨order.bomHeaderId,entry.2,⟨order.branchId,entry.1.ingredientProductId,entry.1.ingredientVariationId⟩,
    computeIngredientQtyForProduction entry.1 bom.outputQty qtyProduced⟩

def produced (order : ProductionOrder) (bom : Bom) (qtyProduced : ℚ) : FinishedGoods :=
  ⟨⟨order.branchId,bom.productId,bom.variationId⟩,round4 qtyProduced⟩

def advance (boms : Nat → Option Bom) (s : State) (t : Nat) : Option State :=
  match s.phase t with
  | .reading request =>
    match read boms s.database.order request with
    | .ended => some (s.finish t)
    | phase => some (s.goto t phase)
  | .consuming order bom qtyProduced (entry :: todo) lines =>
    let line := consumed order bom qtyProduced entry
    if line.qtyConsumed ≤ 0 then some (s.goto t (.consuming order bom qtyProduced todo lines))
    else s.lock t line.position (.consuming order bom qtyProduced todo (lines ++ [line]))
  | .consuming order bom qtyProduced [] lines =>
    some (s.goto t (.writing ⟨⟨none,some .completed,none,some qtyProduced⟩,lines,some (produced order bom qtyProduced)⟩))
  | .writing writes =>
    if writes.accepted s.database.order then some ({ s with database := s.database.write writes }.finish t)
    else some (s.finish t)
  | .absent | .ended => none

def next (boms : Nat → Option Bom) (s : State) : Action → Option State
  | .begin t request =>
    if s.phase t = .absent ∧ request.valid = true then some (s.goto t (.reading request)) else none
  | .advance t => advance boms s t
  | .fail t => if s.phase t = .absent then none else some (s.finish t)

/-- The order as it is created. -/
def Initial (s : State) : Prop :=
  (s.database.order.status = .draft ∧ s.database.order.qtyProduced = 0 ∧ 0 < s.database.order.qtyToProduce) ∧
    s.database.lines = [] ∧ s.database.finished = [] ∧ s.locks = [] ∧ ∀ t, s.phase t = .absent

/-- Each ingredient is taken and the goods are received at most once, within the quantity to produce, and not at all for a
cancelled order. -/
structure InOrder (database : Database) : Prop where
  consumedOnce : (database.lines.map fun line => (line.bomHeaderId,line.bomLine)).Nodup
  receivedOnce : database.finished.length ≤ 1
  within : database.order.qtyProduced ≤ database.order.qtyToProduce
  cancelled : database.order.status = .cancelled →
    database.lines = [] ∧ database.finished = [] ∧ database.order.qtyProduced = 0

/-- A request completes or cancels the order. -/
def Writes.closes (writes : Writes) : Bool := writes.finished.isSome || writes.columns.status = some .cancelled

/-- What completes or cancels the order finds it with nothing produced when it writes. -/
def Unproduced (s : State) : Action → Prop
  | .advance t =>
    match s.phase t with
    | .writing writes =>
      writes.closes = true ∧ writes.accepted s.database.order = true → s.database.order.qtyProduced = 0
    | _ => True
  | .begin _ _ | .fail _ => True

instance (s : State) (a : Action) : Decidable (Unproduced s a) := by
  unfold Unproduced
  split
  · split <;> infer_instance
  · infer_instance
  · infer_instance

end ProductionOrders
