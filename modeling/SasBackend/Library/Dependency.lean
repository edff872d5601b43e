import Mathlib.Data.Fintype.Pigeonhole
import Mathlib.Logic.Relation
import Mathlib.Tactic.ByContra

/-! Cycles of a relation on finitely many points. -/
namespace Dependency
open Relation

variable {α : Type*} {r : α → α → Prop} {a b : α}

def OnCycle (r : α → α → Prop) (a : α) : Prop := TransGen r a a

/-- On a cycle, or on a path into one. -/
def Entangled (r : α → α → Prop) (a : α) : Prop := ∃ c, TransGen r a c ∧ OnCycle r c

/-- The part of a relation that points into `s`. -/
def Into (r : α → α → Prop) (s : α → Prop) (a b : α) : Prop := r a b ∧ s b

theorem OnCycle.entangled (cycle : OnCycle r a) : Entangled r a := ⟨a,cycle,cycle⟩

theorem Entangled.next (entangled : Entangled r a) : ∃ b, r a b ∧ Entangled r b := by
  obtain ⟨c,path,cycle⟩ := entangled
  rcases TransGen.head'_iff.mp path with ⟨b,edge,rest⟩
  refine ⟨b,edge,?_⟩
  rcases ReflTransGen.cases_head rest with rfl | ⟨d,first,later⟩
  · exact cycle.entangled
  · exact ⟨c,TransGen.head' first later,cycle⟩

theorem Entangled.head (edge : r a b) (entangled : Entangled r b) : Entangled r a := by
  obtain ⟨c,path,cycle⟩ := entangled
  exact ⟨c,TransGen.head edge path,cycle⟩

theorem Into.forget {s : α → Prop} (path : TransGen (Into r s) a b) : TransGen r a b :=
  TransGen.mono (fun (_ _ : α) (edge : Into r s _ _) => edge.1) a b path

theorem Entangled.avoid {s t : α → Prop} (entangled : Entangled (Into r s) a) (open_ : ¬OnCycle r a)
    (others : ∀ b, s b → b ≠ a → t b) : Entangled (Into r t) a := by
  have away {c : α} (path : TransGen (Into r s) a c) : c ≠ a := by
    rintro rfl
    exact open_ (Into.forget path)
  have from_start {c : α} (path : TransGen (Into r s) a c) : TransGen (Into r t) a c := by
    induction path with
    | single edge => exact .single ⟨edge.1,others _ edge.2 (away (.single edge))⟩
    | tail path edge induction => exact .tail induction ⟨edge.1,others _ edge.2 (away (.tail path edge))⟩
  obtain ⟨c,path,cycle⟩ := entangled
  have around {d : α} (rest : TransGen (Into r s) c d) : TransGen (Into r t) c d := by
    induction rest with
    | single edge => exact .single ⟨edge.1,others _ edge.2 (away (.tail path edge))⟩
    | tail rest edge induction =>
      exact .tail induction ⟨edge.1,others _ edge.2 (away (.tail (path.trans rest) edge))⟩
  exact ⟨c,from_start path,around cycle⟩

/-- Among finitely many points that each point on, every one runs into a cycle. -/
theorem entangled_of_forall_exists (s : Finset α) (next : ∀ a ∈ s, ∃ b ∈ s, r a b) (member : a ∈ s) :
    Entangled (Into r (· ∈ s)) a := by
  choose follow inside edge using next
  let advance : {b // b ∈ s} → {b // b ∈ s} := fun b => ⟨follow b b.2,inside b b.2⟩
  let walk : Nat → {b // b ∈ s} := fun n => advance^[n] ⟨a,member⟩
  have step (n : Nat) : Into r (· ∈ s) (walk n) (walk (n + 1)) := by
    dsimp only [walk]
    rw [Function.iterate_succ_apply']
    exact ⟨edge _ _,inside _ _⟩
  have path (n k : Nat) : TransGen (Into r (· ∈ s)) (walk n) (walk (n + (k + 1))) := by
    induction k with
    | zero => exact .single (step n)
    | succ k induction => exact .tail induction (step (n + (k + 1)))
  obtain ⟨i,j,distinct,same⟩ := Finite.exists_ne_map_eq_of_infinite walk
  have cyclic {i j : Nat} (before : i < j) (same : walk i = walk j) : Entangled (Into r (· ∈ s)) a := by
    obtain ⟨k,rfl⟩ := Nat.exists_eq_add_of_lt before
    have cycle : OnCycle (Into r (· ∈ s)) (walk i) := by
      have around := path i k
      rw [← Nat.add_assoc,← same] at around
      exact around
    cases i with
    | zero => exact cycle.entangled
    | succ i =>
      have from_start := path 0 i
      rw [Nat.zero_add] at from_start
      exact ⟨walk (i + 1),from_start,cycle⟩
  rcases Nat.lt_or_gt_of_ne distinct with before | after
  · exact cyclic before same
  · exact cyclic after same.symm

end Dependency
