import Mathlib.Order.Basic

/-! Loops that are left only from inside: `while True` with a body that goes on in a new state or leaves with a result.
-/
namespace Loop

universe u v
variable {σ : Type u} {α : Type v} {body : σ → σ ⊕ α} {s next : σ} {a b : α} {rounds more : Nat}

/-- The result, unless so many rounds are not enough to leave. -/
def run (body : σ → σ ⊕ α) : Nat → σ → Option α
  | 0, _ => none
  | rounds + 1, s =>
    match body s with
    | .inl next => run body rounds next
    | .inr a => some a

/-- After some number of rounds the loop is left with this result. -/
def Returns (body : σ → σ ⊕ α) (s : σ) (a : α) : Prop := ∃ rounds, run body rounds s = some a

theorem run_next (goes : body s = .inl next) : run body (rounds + 1) s = run body rounds next := by
  rw [run,goes]

theorem run_leave (leaves : body s = .inr a) : run body (rounds + 1) s = some a := by
  rw [run,leaves]

theorem run_mono (enough : rounds ≤ more) (left : run body rounds s = some a) : run body more s = some a := by
  induction rounds generalizing s more with
  | zero => cases left
  | succ rounds induction =>
    obtain ⟨more,rfl⟩ : ∃ fewer, more = fewer + 1 := ⟨more - 1,by omega⟩
    cases taken : body s with
    | inl next =>
      rw [run_next taken] at left ⊢
      exact induction (by omega) left
    | inr b =>
      rw [run_leave taken] at left ⊢
      exact left

theorem Returns.unique (first : Returns body s a) (second : Returns body s b) : a = b := by
  obtain ⟨rounds,left⟩ := first
  obtain ⟨others,right⟩ := second
  have same := (run_mono (Nat.le_max_left rounds others) left).symm.trans (run_mono (Nat.le_max_right rounds others) right)
  exact Option.some.inj same

theorem Returns.invariant {kept : σ → Prop} {post : α → Prop} (returns : Returns body s a) (holds : kept s)
    (goes : ∀ s next, kept s → body s = .inl next → kept next) (leaves : ∀ s a, kept s → body s = .inr a → post a) :
    post a := by
  obtain ⟨rounds,left⟩ := returns
  induction rounds generalizing s with
  | zero => cases left
  | succ rounds induction =>
    cases taken : body s with
    | inl next =>
      rw [run_next taken] at left
      exact induction (goes s next holds taken) left
    | inr b =>
      rw [run_leave taken] at left
      cases left
      exact leaves s a holds taken

end Loop
