import Mathlib.Data.List.Basic

/-! Row locks of PostgreSQL transactions, held to the end of the transaction.
A lock is granted when no other transaction holds a conflicting mode on the same row.
-/
namespace RowLocks

inductive Mode
  | keyShare | share | noKeyUpdate | update
  deriving DecidableEq, Repr

def Mode.conflicts : Mode → Mode → Bool
  | .keyShare, .update | .update, .keyShare => true
  | .keyShare, _ | _, .keyShare => false
  | .share, .share => false
  | _, _ => true

structure Held (ρ : Type) where
  tx : Nat
  row : ρ
  mode : Mode
  deriving DecidableEq, Repr

variable {ρ : Type} [DecidableEq ρ]

def grantable (held : List (Held ρ)) (tx : Nat) (row : ρ) (mode : Mode) : Bool :=
  held.all fun h => h.tx = tx || h.row ≠ row || !h.mode.conflicts mode

def acquire (held : List (Held ρ)) (tx : Nat) (row : ρ) (mode : Mode) : List (Held ρ) :=
  if grantable held tx row mode then ⟨tx,row,mode⟩ :: held else held

def releaseAll (held : List (Held ρ)) (tx : Nat) : List (Held ρ) := held.filter (·.tx ≠ tx)

/-- Every row in turn, or the statement waits. -/
def acquireAll (held : List (Held ρ)) (tx : Nat) (rows : List ρ) (mode : Mode) : Option (List (Held ρ)) :=
  rows.foldlM (fun held row => if grantable held tx row mode then some (acquire held tx row mode) else none) held

/-- Two transactions never both hold such a lock on a row. -/
def Mode.exclusive : Mode → Bool
  | .noKeyUpdate | .update => true
  | _ => false

def Owns (held : List (Held ρ)) (tx : Nat) (row : ρ) : Prop := ∃ mode, mode.exclusive = true ∧ ⟨tx,row,mode⟩ ∈ held

/-- No two transactions hold conflicting locks on a row. -/
def Compatible (held : List (Held ρ)) : Prop :=
  ∀ h ∈ held, ∀ other ∈ held, h.tx ≠ other.tx → h.row = other.row → h.mode.conflicts other.mode = false

theorem conflicts_comm (m n : Mode) : m.conflicts n = n.conflicts m := by
  cases m <;> cases n <;> rfl

theorem grantable_iff {held : List (Held ρ)} {tx : Nat} {row : ρ} {mode : Mode} :
    grantable held tx row mode = true ↔
      ∀ h ∈ held, h.tx ≠ tx → h.row = row → h.mode.conflicts mode = false := by
  rw [grantable,List.all_eq_true]
  refine forall₂_congr fun h _ => ?_
  rw [Bool.or_eq_true,Bool.or_eq_true,decide_eq_true_eq,decide_eq_true_eq,Bool.not_eq_true']
  tauto

theorem mem_acquire {held : List (Held ρ)} {tx : Nat} {row : ρ} {mode : Mode}
    (granted : grantable held tx row mode = true) {h : Held ρ} :
    h ∈ acquire held tx row mode ↔ h = ⟨tx,row,mode⟩ ∨ h ∈ held := by
  rw [acquire,if_pos granted,List.mem_cons]

omit [DecidableEq ρ] in
theorem mem_releaseAll {held : List (Held ρ)} {tx : Nat} {h : Held ρ} :
    h ∈ releaseAll held tx ↔ h ∈ held ∧ h.tx ≠ tx := by
  rw [releaseAll,List.mem_filter,decide_eq_true_eq]

omit [DecidableEq ρ] in
theorem compatible_nil : Compatible ([] : List (Held ρ)) := by
  intro h member
  cases member

theorem Compatible.acquire {held : List (Held ρ)} (compatible : Compatible held) (tx : Nat) (row : ρ)
    (mode : Mode) : Compatible (acquire held tx row mode) := by
  rw [RowLocks.acquire]
  split
  · next granted =>
    rw [grantable_iff] at granted
    intro h first other second different same
    rcases List.mem_cons.mp first with rfl | first <;> rcases List.mem_cons.mp second with rfl | second
    · exact absurd rfl different
    · rw [conflicts_comm]
      exact granted other second (Ne.symm different) same.symm
    · exact granted h first different same
    · exact compatible h first other second different same
  · exact compatible

omit [DecidableEq ρ] in
theorem Compatible.releaseAll {held : List (Held ρ)} (compatible : Compatible held) (tx : Nat) :
    Compatible (releaseAll held tx) := by
  intro h first other second
  exact compatible h (mem_releaseAll.mp first).1 other (mem_releaseAll.mp second).1

omit [DecidableEq ρ] in
theorem Compatible.same_tx {held : List (Held ρ)} (compatible : Compatible held) {h other : Held ρ}
    (first : h ∈ held) (second : other ∈ held) (same : h.row = other.row)
    (conflict : h.mode.conflicts other.mode = true) : h.tx = other.tx := by
  by_contra different
  rw [compatible h first other second different same] at conflict
  cases conflict

section Exclusive
variable {held after : List (Held ρ)} {tx other : Nat} {row : ρ} {mode : Mode}

omit [DecidableEq ρ] in
theorem Owns.same_tx (mine : Owns held tx row) (compatible : Compatible held) (theirs : Owns held other row) : tx = other := by
  obtain ⟨first,one,left⟩ := mine
  obtain ⟨second,two,right⟩ := theirs
  have clash : first.conflicts second = true := by
    cases first <;> cases second <;> simp_all [Mode.exclusive,Mode.conflicts]
  exact compatible.same_tx left right rfl clash

theorem owns_acquire {locked : ρ} (granted : grantable held tx locked mode = true) :
    Owns (acquire held tx locked mode) other row ↔
      Owns held other row ∨ other = tx ∧ row = locked ∧ mode.exclusive = true := by
  simp only [Owns,mem_acquire granted,Held.mk.injEq]
  constructor
  · rintro ⟨taken,firm,⟨rfl,rfl,rfl⟩ | old⟩
    · exact .inr ⟨rfl,rfl,firm⟩
    · exact .inl ⟨taken,firm,old⟩
  · rintro (⟨taken,firm,old⟩ | ⟨rfl,rfl,firm⟩)
    · exact ⟨taken,firm,.inr old⟩
    · exact ⟨mode,firm,.inl ⟨rfl,rfl,rfl⟩⟩

omit [DecidableEq ρ] in
theorem owns_releaseAll (apart : other ≠ tx) : Owns (releaseAll held tx) other row ↔ Owns held other row := by
  simp [Owns,mem_releaseAll,apart]

theorem Compatible.acquireAll {rows : List ρ} (compatible : Compatible held)
    (locked : acquireAll held tx rows mode = some after) : Compatible after := by
  induction rows generalizing held with
  | nil =>
    cases locked
    exact compatible
  | cons first rest induction =>
    simp only [RowLocks.acquireAll,List.foldlM_cons,Option.bind_eq_bind,Option.bind_eq_some_iff,
      Option.ite_none_right_eq_some,Option.some.injEq] at locked
    obtain ⟨_,⟨_,rfl⟩,rest⟩ := locked
    exact induction (compatible.acquire _ _ _) rest

theorem owns_acquireAll {rows : List ρ} (locked : acquireAll held tx rows mode = some after) :
    Owns after other row ↔ Owns held other row ∨ other = tx ∧ row ∈ rows ∧ mode.exclusive = true := by
  induction rows generalizing held with
  | nil =>
    cases locked
    simp
  | cons first rest induction =>
    simp only [acquireAll,List.foldlM_cons,Option.bind_eq_bind,Option.bind_eq_some_iff,
      Option.ite_none_right_eq_some,Option.some.injEq] at locked
    obtain ⟨_,⟨granted,rfl⟩,rest⟩ := locked
    rw [induction rest,owns_acquire granted,List.mem_cons]
    tauto

end Exclusive

end RowLocks
