import SasBackend.Semantics.KitchenTickets

/-! The tickets that the lines of a tab are on.
-/
namespace KitchenTickets

def KotOrder.Live (order : KotOrder) : Prop := order.deletedAt = none ∧ order.status ≠ .cancelled

def KotOrder.Spent (order : KotOrder) : Prop := order.status = .cancelled ∧ ∀ status ∈ order.statuses, status = .cancelled

def KotOrder.Shares (first second : KotOrder) : Prop :=
  first.saleId = second.saleId ∧
    ∃ id, some id ∈ first.lines.map (·.saleLineId) ∧ some id ∈ second.lines.map (·.saleLineId)

/-- No sale line is on two live tickets, and no ticket is empty. -/
structure FiredOnce (s : State) : Prop where
  once : ∀ (i j : Nat) (first second : KotOrder), i ≠ j → s.orders[i]? = some first → s.orders[j]? = some second →
    first.Live → second.Live → ¬first.Shares second
  filled : ∀ order ∈ s.orders, order.lines ≠ []

/-- What `add_lines_to_tab` and `complete_tab` make of a sale. -/
inductive Sale.Served : Sale → Sale → Prop
  | addLines {sale : Sale} (lines : List SaleLine) :
      activeTabStatuses.contains sale.status = true → Served sale { sale with lines := sale.lines ++ lines }
  | complete {sale : Sale} : activeTabStatuses.contains sale.status = true → Served sale { sale with status := .completed }

/-- The sales are changed by requests of their tabs alone. -/
def OfTab (s : State) : Action → Prop
  | .setSale id sale => ∃ old, s.sales[id]? = some old ∧ old.Served sale
  | _ => True

/-- The lines of the ticket are on no other that is not spent, nor on one that is being fired. -/
def Unclaimed (s : State) (id : Nat) (order : KotOrder) : Prop :=
  (∀ (other : Nat) (row : KotOrder), other ≠ id → s.orders[other]? = some row → row.Shares order → row.Spent) ∧
    ∀ u request sale ticket, s.transactions u = some (.firing request sale (some ticket)) → ¬ticket.Shares order

/-- A ticket that is spent is brought back by no update that has read it before, unless its lines are unclaimed. -/
def Guarded (s : State) : Action → Prop
  | .commit t => ∀ request loaded order row, s.transactions t = some (.updating request [] loaded order) →
    s.orders[request.orderId]? = some row → row.Spent → order.status ≠ loaded.status → order.status ≠ .cancelled →
      Unclaimed s request.orderId row
  | _ => True

end KitchenTickets
