import Mathlib.Data.List.Forall2
import Mathlib.Logic.Basic

/-! Computations that may fail, taken apart where they succeed.
-/
namespace Outcome

universe u v
variable {ε : Type v} {α β : Type u}

def refuseIf (condition : Bool) (error : ε) : Except ε Unit := if condition then .error error else .ok ()

def require (condition : Bool) (error : ε) : Except ε Unit := if condition then .ok () else .error error

theorem refuseIf_ok {condition : Bool} {error : ε} {done : Unit} : refuseIf condition error = .ok done ↔ condition = false := by
  cases condition <;> simp [refuseIf]

theorem require_ok {condition : Bool} {error : ε} {done : Unit} : require condition error = .ok done ↔ condition = true := by
  cases condition <;> simp [require]

theorem ok_bind (a : α) (f : α → Except ε β) : ((.ok a : Except ε α) >>= f) = f a := rfl

theorem error_bind (e : ε) (f : α → Except ε β) : ((.error e : Except ε α) >>= f) = .error e := rfl

theorem bind_ok_iff {x : Except ε α} {f : α → Except ε β} {b : β} :
    (x >>= f) = .ok b ↔ ∃ a, x = .ok a ∧ f a = .ok b := by
  cases x with
  | error refusal => exact ⟨nofun,fun ⟨_,found,_⟩ => (nomatch found)⟩
  | ok a => exact ⟨fun same => ⟨a,rfl,same⟩,fun ⟨_,found,same⟩ => by cases found; exact same⟩

theorem toOption_eq_some {x : Except ε α} {a : α} : x.toOption = some a ↔ x = .ok a := by
  cases x <;> simp [Except.toOption]

theorem mapM_map {γ : Type*} {f : α → Except ε β} {g : β → γ} {h : α → γ} (each : ∀ a b, f a = .ok b → g b = h a) {xs : List α} :
    ∀ {ys : List β}, xs.mapM f = .ok ys → ys.map g = xs.map h := by
  induction xs with
  | nil =>
    intro ys mapped
    rw [List.mapM_nil] at mapped
    cases mapped
    rfl
  | cons x xs induction =>
    intro ys mapped
    rw [List.mapM_cons] at mapped
    obtain ⟨y,first,rest⟩ := bind_ok_iff.mp mapped
    obtain ⟨more,later,last⟩ := bind_ok_iff.mp rest
    cases last
    rw [List.map_cons,List.map_cons,each x y first,induction later]

theorem mapM_some_iff {α β : Type*} {f : α → Option β} {xs : List α} {ys : List β} :
    xs.mapM f = some ys ↔ List.Forall₂ (fun x y => f x = some y) xs ys := by
  induction xs generalizing ys with
  | nil => simp [eq_comm]
  | cons x xs induction => simp [List.mapM_cons,Option.bind_eq_some_iff,induction,List.forall₂_cons_left_iff,@eq_comm _ ys]

theorem exists_mapM_iff {α β : Type*} {f : α → Option β} {r : α → β → Prop} {xs : List α} :
    (∃ ys, xs.mapM f = some ys ∧ List.Forall₂ r xs ys) ↔ ∀ x ∈ xs, ∃ y, f x = some y ∧ r x y := by
  simp only [mapM_some_iff]
  induction xs with
  | nil => simp
  | cons x xs induction =>
    rw [List.forall_mem_cons,← induction]
    constructor
    · rintro ⟨_,_ | ⟨first,rest⟩,_ | ⟨here,there⟩⟩
      exact ⟨⟨_,first,here⟩,_,rest,there⟩
    · rintro ⟨⟨y,first,here⟩,ys,rest,there⟩
      exact ⟨y :: ys,.cons first rest,.cons here there⟩

end Outcome
