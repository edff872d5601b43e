import SasBackend.Library.Outcome

/-! A service that answers one request after the other. A request that is refused leaves everything as it was.
-/
namespace Service

structure HTTPException where
  status : Nat
  detail : String
  deriving DecidableEq

/-- A refusal with its message, or an exception that nothing catches. -/
inductive Refusal
  | http (status : Nat) (detail : String)
  | uncaught
  deriving DecidableEq

def refuseIf (condition : Bool) (status : Nat) (detail : String) : Except Refusal Unit :=
  if condition then .error (.http status detail) else .ok ()

/-- The only row of a result, none, or an exception. -/
def scalarOneOrNone {α : Type} : List α → Except Refusal (Option α)
  | [] => .ok none
  | [row] => .ok (some row)
  | _ => .error .uncaught

theorem refuseIf_ok {condition : Bool} {status : Nat} {detail : String} {done : Unit} :
    refuseIf condition status detail = .ok done ↔ condition = false := by
  cases condition <;> simp [refuseIf]

theorem map_ok_iff {ε α β : Type} {x : Except ε α} {f : α → β} {b : β} : x.map f = .ok b ↔ ∃ a, x = .ok a ∧ f a = b := by
  cases x <;> simp [Except.map]

theorem mapError_ok_iff {ε δ α : Type} {x : Except ε α} {f : ε → δ} {a : α} : x.mapError f = .ok a ↔ x = .ok a := by
  cases x <;> simp [Except.mapError]

section Runs
variable {σ ρ ε : Type} {answer : σ → ρ → Except ε σ} {s : σ}

def served (answer : σ → ρ → Except ε σ) (s : σ) (request : ρ) : σ :=
  match answer s request with
  | .ok changed => changed
  | .error _ => s

theorem served_ok {request : ρ} {t : σ} (done : answer s request = .ok t) : served answer s request = t := by
  simp [served,done]

theorem served_error {request : ρ} {refusal : ε} (done : answer s request = .error refusal) : served answer s request = s := by
  simp [served,done]

def run (answer : σ → ρ → Except ε σ) (s : σ) (requests : List ρ) : σ := requests.foldl (served answer) s

theorem run_append (requests more : List ρ) : run answer s (requests ++ more) = run answer (run answer s requests) more :=
  List.foldl_append

theorem run_invariant {I : σ → Prop} (step : ∀ s request t, I s → answer s request = .ok t → I t) (start : I s)
    (requests : List ρ) : I (run answer s requests) := by
  induction requests generalizing s with
  | nil => exact start
  | cons request requests induction =>
    refine induction ?_
    unfold served
    split
    next t done => exact step s request t start done
    · exact start

theorem run_relation {I : σ → Prop} {R : σ → σ → Prop} (refl : ∀ s, R s s) (trans : ∀ s t u, R s t → R t u → R s u)
    (step : ∀ s request t, I s → answer s request = .ok t → I t ∧ R s t) (start : I s) (requests : List ρ) :
    R s (run answer s requests) := by
  induction requests generalizing s with
  | nil => exact refl s
  | cons request requests induction =>
    have first : I (served answer s request) ∧ R s (served answer s request) := by
      unfold served
      split
      next t done => exact step s request t start done
      · exact ⟨start,refl s⟩
    exact trans _ _ _ first.2 (induction first.1)

/-- The requests that are not refused. -/
def accepted (answer : σ → ρ → Except ε σ) : σ → List ρ → List ρ
  | _,[] => []
  | s,request :: rest =>
    match answer s request with
    | .ok t => request :: accepted answer t rest
    | .error _ => accepted answer s rest

theorem run_refines {τ : Type} {I : σ → Prop} {R : σ → τ → Prop} {told : τ → ρ → τ} {a : τ}
    (step : ∀ s a request t, I s → R s a → answer s request = .ok t → I t ∧ R t (told a request)) (start : I s) (first : R s a)
    (requests : List ρ) : R (run answer s requests) ((accepted answer s requests).foldl told a) := by
  induction requests generalizing s a with
  | nil => exact first
  | cons request requests induction =>
    rw [run,List.foldl_cons,served,accepted]
    cases done : answer s request with
    | error refusal => exact induction start first
    | ok t =>
      obtain ⟨next,tells⟩ := step s a request t start first done
      exact induction next tells

end Runs

end Service
