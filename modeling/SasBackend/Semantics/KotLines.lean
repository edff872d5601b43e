import SasBackend.Semantics.KitchenTickets

/-! A kitchen ticket under calls served one after another.
-/
namespace KitchenTickets
open Outcome (refuseIf)
open Service (HTTPException)

structure Fresh (order : KotOrder) : Prop where
  status : order.status = .pending
  lines : ∀ line ∈ order.lines, line.status = .pending

structure Call where
  request : KotRequest
  now : Int

def answer (order : KotOrder) (call : Call) : Except HTTPException KotOrder := do
  refuseIf (order.businessId ≠ call.request.businessId)
    ⟨404,if call.request.line.isNone then "KOT order not found" else "KOT line not found"⟩
  refuseIf order.deletedAt.isSome ⟨404,"KOT order not found"⟩
  call.request.apply order call.now

/-- The ticket after the call: a refusal is rolled back. -/
def served (order : KotOrder) (call : Call) : KotOrder :=
  match answer order call with
  | .ok changed => changed
  | .error _ => order

/-- A served or cancelled line stays, and any other takes at most one step of the table. -/
def StepsOnce (order : KotOrder) (call : Call) : Prop :=
  ∀ (index : Nat) (line : KotOrderLine), order.lines[index]? = some line →
    ∃ later, (served order call).lines[index]? = some later ∧
      (later.status = line.status ∨ (kotLineStatusTransitions line.status).contains later.status)

/-- The header is not cancelled over a line that is served. -/
def spares (order : KotOrder) (call : Call) : Bool :=
  !(order.businessId = call.request.businessId && order.deletedAt.isNone && call.request.line.isNone &&
    call.request.newStatus = .cancelled && [KotStatus.pending,.preparing,.ready].contains order.status &&
    order.statuses.contains .served)

end KitchenTickets
