import Mathlib.Data.Option.Basic

/-! The logic of SQL, in which a comparison with null is neither true nor false, and a condition that is reached may fail. -/
namespace ThreeValued

abbrev Truth := Option Bool

variable {α β : Type*} {a b : Truth} {x y : Option α} {relation : α → α → Bool} {ε : Type*} {result otherwise : β}
  {branches : List (Except ε Truth × β)}

def and : Truth → Truth → Truth
  | some false, _ | _, some false => some false
  | some true, some true => some true
  | _, _ => none

def or : Truth → Truth → Truth
  | some true, _ | _, some true => some true
  | some false, some false => some false
  | _, _ => none

def compare (relation : α → α → Bool) (x y : Option α) : Truth := x.bind fun x => y.map (relation x)

def isNull (x : Option α) : Truth := some x.isNone

/-- The result of the first branch whose condition is true; the conditions after it are not looked at. -/
def caseWhen (otherwise : β) : List (Except ε Truth × β) → Except ε β
  | [] => .ok otherwise
  | (.error failure,_) :: _ => .error failure
  | (.ok condition,result) :: branches => if condition = some true then .ok result else caseWhen otherwise branches

@[simp] theorem and_eq_true : and a b = some true ↔ a = some true ∧ b = some true := by
  rcases a with _ | _ | _ <;> rcases b with _ | _ | _ <;> simp [and]

@[simp] theorem or_eq_true : or a b = some true ↔ a = some true ∨ b = some true := by
  rcases a with _ | _ | _ <;> rcases b with _ | _ | _ <;> simp [or]

@[simp] theorem compare_eq_true : compare relation x y = some true ↔ ∃ a ∈ x, ∃ b ∈ y, relation a b = true := by
  cases x <;> cases y <;> simp [compare]

@[simp] theorem isNull_eq_true : isNull x = some true ↔ x = none := by
  cases x <;> simp [isNull]

theorem caseWhen_nil : caseWhen otherwise ([] : List (Except ε Truth × β)) = .ok otherwise := rfl

theorem caseWhen_cons (condition : Truth) : caseWhen otherwise ((.ok condition,result) :: branches) =
    if condition = some true then .ok result else caseWhen otherwise branches := rfl

theorem caseWhen_error (failure : ε) : caseWhen otherwise ((.error failure,result) :: branches) = .error failure := rfl

end ThreeValued
