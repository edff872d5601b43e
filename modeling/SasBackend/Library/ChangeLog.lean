import Mathlib.Data.List.Basic
import Mathlib.Data.List.Pairwise

/-! A log of committed row versions in commit order and the table it leaves.
Each version has the key of its row and a sequence number that grows along the log.
-/
namespace ChangeLog

variable {α κ : Type*} [DecidableEq κ] (key : α → κ) (seq : α → Nat)

/-- The rows of the table: every version no later version of the same row follows. -/
def table : List α → List α
  | [] => []
  | v :: rest => if rest.any (key · = key v) then table rest else v :: table rest

def Ordered (log : List α) : Prop := log.Pairwise (seq · < seq ·)

/-- The version is the last one of its row in the log. -/
def Current (log : List α) (v : α) : Prop := v ∈ log ∧ ∀ w ∈ log, key w = key v → seq w ≤ seq v

variable {key} {seq}

theorem table_sublist (log : List α) : (table key log).Sublist log := by
  induction log with
  | nil => exact .slnil
  | cons v rest induction =>
    rw [table]
    split
    · exact induction.cons v
    · exact induction.cons_cons v

theorem table_distinct (log : List α) : (table key log).Pairwise (key · ≠ key ·) := by
  induction log with
  | nil => exact .nil
  | cons v rest induction =>
    rw [table]
    split
    · exact induction
    · next last =>
      refine List.pairwise_cons.mpr ⟨fun w member same => last ?_,induction⟩
      rw [List.any_eq_true]
      exact ⟨w,(table_sublist rest).subset member,by simp [same]⟩

theorem mem_table {log : List α} (ordered : Ordered seq log) {v : α} :
    v ∈ table key log ↔ Current key seq log v := by
  induction log with
  | nil => simp [table,Current]
  | cons w rest induction =>
    obtain ⟨first,ordered⟩ := List.pairwise_cons.mp ordered
    rw [table]
    split
    · next followed =>
      obtain ⟨u,member,same⟩ := List.any_eq_true.mp followed
      have same := of_decide_eq_true same
      rw [induction ordered]
      constructor
      · rintro ⟨inside,last⟩
        refine ⟨List.mem_cons_of_mem _ inside,fun x listed equal => ?_⟩
        rcases List.mem_cons.mp listed with here | later
        · rw [here] at equal ⊢
          have low := first u member
          have high := last u member (same.trans equal)
          omega
        · exact last x later equal
      · rintro ⟨inside,last⟩
        rcases List.mem_cons.mp inside with here | later
        · rw [here] at last
          have low := first u member
          have high := last u (List.mem_cons_of_mem _ member) same
          omega
        · exact ⟨later,fun x listed => last x (List.mem_cons_of_mem _ listed)⟩
    · next alone =>
      have alone : ∀ x ∈ rest, key x ≠ key w := by simpa using alone
      rw [List.mem_cons,induction ordered]
      constructor
      · rintro (here | ⟨inside,last⟩)
        · refine ⟨here ▸ List.mem_cons_self,fun x listed equal => ?_⟩
          rcases List.mem_cons.mp listed with same | later
          · exact Nat.le_of_eq (by rw [same,here])
          · exact absurd (here ▸ equal) (alone x later)
        · refine ⟨List.mem_cons_of_mem _ inside,fun x listed equal => ?_⟩
          rcases List.mem_cons.mp listed with same | later
          · exact absurd (same ▸ equal).symm (alone v inside)
          · exact last x later equal
      · rintro ⟨inside,last⟩
        rcases List.mem_cons.mp inside with here | later
        · exact .inl here
        · exact .inr ⟨later,fun x listed => last x (List.mem_cons_of_mem _ listed)⟩

theorem exists_table {log : List α} (ordered : Ordered seq log) {v : α} (member : v ∈ log) :
    ∃ w ∈ table key log, key w = key v ∧ seq v ≤ seq w := by
  induction log generalizing v with
  | nil => cases member
  | cons w rest induction =>
    obtain ⟨first,ordered⟩ := List.pairwise_cons.mp ordered
    rw [table]
    rcases List.mem_cons.mp member with here | later
    · split
      · next followed =>
        obtain ⟨u,listed,same⟩ := List.any_eq_true.mp followed
        have low := first u listed
        obtain ⟨x,current,equal,le⟩ := induction ordered listed
        rw [here]
        exact ⟨x,current,equal.trans (of_decide_eq_true same),by omega⟩
      · exact ⟨w,List.mem_cons_self,by rw [here],Nat.le_of_eq (by rw [here])⟩
    · obtain ⟨x,current,equal,le⟩ := induction ordered later
      split
      · exact ⟨x,current,equal,le⟩
      · exact ⟨x,List.mem_cons_of_mem _ current,equal,le⟩

omit [DecidableEq κ] in
theorem Current.of_prefix {log longer : List α} (pre : log <+: longer) {v : α}
    (current : Current key seq longer v) (member : v ∈ log) : Current key seq log v :=
  ⟨member,fun w inside => current.2 w (pre.subset inside)⟩

theorem Ordered.injective {log : List α} (ordered : Ordered seq log) {v w : α} (left : v ∈ log)
    (right : w ∈ log) (same : seq v = seq w) : v = w := by
  induction log with
  | nil => cases left
  | cons u rest induction =>
    obtain ⟨first,ordered⟩ := List.pairwise_cons.mp ordered
    rcases List.mem_cons.mp left with here | left <;> rcases List.mem_cons.mp right with here' | right
    · rw [here,here']
    · have below := first w right
      rw [here] at same
      omega
    · have below := first v left
      rw [here'] at same
      omega
    · exact induction ordered left right

theorem table_of_distinct {log : List α} (distinct : log.Pairwise (key · ≠ key ·)) : table key log = log := by
  induction log with
  | nil => rfl
  | cons v rest induction =>
    obtain ⟨apart,distinct⟩ := List.pairwise_cons.mp distinct
    have last : rest.any (key · = key v) = false := by
      simpa using fun w member => Ne.symm (apart w member)
    rw [table,last,induction distinct]
    rfl

theorem table_append_singleton (log : List α) (v : α) :
    table key (log ++ [v]) = (table key log).filter (key · ≠ key v) ++ [v] := by
  induction log with
  | nil => rfl
  | cons w rest induction =>
    rw [List.cons_append,table,table,induction]
    by_cases followed : rest.any (key · = key w) = true
    · simp [followed]
    · by_cases same : key v = key w <;> simp [followed,same,Ne.symm]

end ChangeLog
