import Mathlib.Tactic.ByContra
import SasBackend.Semantics.ChangeSequence

/-! Stamping at commit makes the change sequence the commit order of each business.
A running transaction holds every row it has written and every counter it has raised, so the values
it writes lie above all that is visible until its own commit.
-/
namespace ChangeSequence
open Transition

def Before (earlier later : Stamp) : Prop :=
  earlier.key.business = later.key.business → earlier.seq < later.seq

/-- A row the transaction wrote still carries the sequence number it has in the tables. -/
def Inherited (s : State) (k : Key) (a : Nat) : Prop :=
  ∃ before, s.rows k = some before ∧ before.changeSeq = some a

structure Fresh (s : State) (w : Work) : Prop where
  inherited : ∀ k row a, w.rows k = some (some row) → row.changeSeq = some a → Inherited s k a
  written : ∀ k ∈ w.changed, w.rows k ≠ none
  queued : ∀ k ∈ w.changed, .syncStamp k ∈ w.pending

def Saved (s : State) : Work → List Work → Prop
  | _, [] => True
  | w, older :: rest => (∀ k, older.rows k ≠ none → w.rows k ≠ none) ∧ Fresh s older ∧ Saved s older rest

structure Active (s : State) (x : Transaction) : Prop where
  fresh : Fresh s x.work
  saved : Saved s x.work x.savepoints
  counters : ∀ b, x.counters b = none
  stamped : x.stamped = []
  todo : x.todo = []
  drawn : x.drawn = none

structure Settling (s : State) (x : Transaction) : Prop where
  inherited : ∀ k row a, x.work.rows k = some (some row) → row.changeSeq = some a →
    Inherited s k a ∨ ⟨k,a⟩ ∈ x.stamped
  written : ∀ k ∈ x.work.changed, x.work.rows k ≠ none
  settled : ∀ k ∈ x.work.changed, .syncStamp k ∈ x.work.pending ∨ k ∈ x.todo ∨
    x.work.rows k = some none ∨ ∃ a, x.work.rows k = some (some ⟨some a⟩) ∧ ⟨k,a⟩ ∈ x.stamped
  raised : ∀ b c, x.counters b = some c → s.counters b < c
  above : ∀ stamp ∈ x.stamped, s.counters stamp.key.business < stamp.seq ∧
    ∃ c, x.counters stamp.key.business = some c ∧ stamp.seq ≤ c
  ordered : x.stamped.Pairwise Before
  drawn : ∀ k rest n, x.todo = k :: rest → x.drawn = some n → x.counters k.business = some n ∧
    ∀ stamp ∈ x.stamped, stamp.key.business = k.business → stamp.seq < n

def Own (s : State) (x : Transaction) : Prop :=
  (x.committing = false ∧ Active s x) ∨ (x.committing = true ∧ Settling s x)

structure Invariant (s : State) : Prop where
  bounded : ∀ k row a, s.rows k = some row → row.changeSeq = some a → a ≤ s.counters k.business
  distinct : ∀ k l row other a, s.rows k = some row → s.rows l = some other → row.changeSeq = some a →
    other.changeSeq = some a → k.business = l.business → k = l
  historyBounded : ∀ stamp ∈ s.history.flatten, stamp.seq ≤ s.counters stamp.key.business
  historyOrdered : s.history.flatten.Pairwise Before
  own : ∀ t x, s.running t = some x → Own s x
  rowLock : ∀ t x other y k, s.running t = some x → s.running other = some y →
    x.work.rows k ≠ none → y.work.rows k ≠ none → t = other
  counterLock : ∀ t x other y b, s.running t = some x → s.running other = some y →
    x.counters b ≠ none → y.counters b ≠ none → t = other

private theorem write_rows (w : Work) (k l : Key) (row : Option Row) :
    (w.write k row).rows l = if l = k then some row else w.rows l := by
  simp [Work.write,Function.update_apply]

private theorem row_cases {s : State} {w : Work} {k : Key} {row : Row} (found : w.row s k = some row) :
    w.rows k = some (some row) ∨ (w.rows k = none ∧ s.rows k = some row) := by
  cases own : w.rows k with
  | none => exact .inr ⟨rfl,by simpa [Work.row,own] using found⟩
  | some entry => exact .inl (by simpa [Work.row,own] using found)

theorem Fresh.frame {s u : State} {w : Work} (fresh : Fresh s w)
    (same : ∀ k, w.rows k ≠ none → u.rows k = s.rows k) : Fresh u w where
  inherited k row a own carried := by
    obtain ⟨before,present,seq⟩ := fresh.inherited k row a own carried
    exact ⟨before,(same k (by simp [own])).trans present,seq⟩
  written := fresh.written
  queued := fresh.queued

theorem Saved.frame {s u : State} {w : Work} {older : List Work} (saved : Saved s w older)
    (same : ∀ k, w.rows k ≠ none → u.rows k = s.rows k) : Saved u w older := by
  induction older generalizing w with
  | nil => trivial
  | cons first rest induction =>
    obtain ⟨covered,fresh,saved⟩ := saved
    have inner : ∀ k, first.rows k ≠ none → u.rows k = s.rows k := fun k own => same k (covered k own)
    exact ⟨covered,fresh.frame inner,induction saved inner⟩

theorem Own.frame {s u : State} {x : Transaction} (own : Own s x)
    (rows : ∀ k, x.work.rows k ≠ none → u.rows k = s.rows k)
    (counters : ∀ b, x.counters b ≠ none → u.counters b = s.counters b) : Own u x := by
  rcases own with ⟨open_,active⟩ | ⟨closing,settling⟩
  · exact .inl ⟨open_,{ active with fresh := active.fresh.frame rows, saved := active.saved.frame rows }⟩
  · refine .inr ⟨closing,{ settling with inherited := ?_, raised := ?_, above := ?_ }⟩
    · intro k row a own carried
      rcases settling.inherited k row a own carried with ⟨before,present,seq⟩ | stamped
      · exact .inl ⟨before,(rows k (by simp [own])).trans present,seq⟩
      · exact .inr stamped
    · intro b c held
      rw [counters b (by simp [held])]
      exact settling.raised b c held
    · intro stamp member
      obtain ⟨low,c,held,high⟩ := settling.above stamp member
      exact ⟨by rw [counters _ (by simp [held])]; exact low,c,held,high⟩

theorem Saved.of_grown {s : State} {w grown : Work} {older : List Work} (saved : Saved s w older)
    (more : ∀ k, w.rows k ≠ none → grown.rows k ≠ none) : Saved s grown older := by
  cases older with
  | nil => trivial
  | cons first rest =>
    obtain ⟨covered,fresh,saved⟩ := saved
    exact ⟨fun k own => more k (covered k own),fresh,saved⟩

private theorem Fresh.queue {s : State} {w : Work} (fresh : Fresh s w) (events : List Event) :
    Fresh s (w.queue events) where
  inherited := fresh.inherited
  written := fresh.written
  queued k member := List.mem_append_left _ (fresh.queued k member)

private theorem Fresh.write {s : State} {w : Work} {k : Key} {row : Option Row} (fresh : Fresh s w)
    (kept : ∀ r a, row = some r → r.changeSeq = some a → Inherited s k a) : Fresh s (w.write k row) where
  inherited l r a own carried := by
    rw [write_rows] at own
    split at own
    · next same => subst same; exact kept r a (Option.some.inj own) carried
    · exact fresh.inherited l r a own carried
  written l member := by
    rw [write_rows]
    split
    · simp
    · exact fresh.written l member
  queued := fresh.queued

private theorem Fresh.insert {s : State} {w : Work} {k : Key} (fresh : Fresh s w) : Fresh s (w.insert k) := by
  have base : Fresh s ((w.write k (some ⟨none⟩)).queue [.syncStamp k]) :=
    (fresh.write (by rintro r a same carried; cases same; cases carried)).queue _
  refine ⟨base.inherited,fun l member => ?_,fun l member => ?_⟩
  · rcases List.mem_cons.mp member with same | old
    · subst same; simp [Work.insert,Work.queue,write_rows]
    · exact base.written l old
  · rcases List.mem_cons.mp member with same | old
    · subst same; simp [Work.insert,Work.queue]
    · exact base.queued l old

private theorem Fresh.update {s : State} {w : Work} {k : Key} {row : Row} (columns : List Column)
    (fresh : Fresh s w) (found : w.row s k = some row) : Fresh s (w.update k row columns) := by
  have base : Fresh s ((w.write k (some row)).queue (updateEvents k columns)) := by
    refine (fresh.write ?_).queue _
    rintro r a same carried
    cases same
    rcases row_cases found with own | ⟨_,present⟩
    · exact fresh.inherited k row a own carried
    · exact ⟨row,present,carried⟩
  refine ⟨base.inherited,fun l member => ?_,fun l member => ?_⟩
  all_goals
    simp only [Work.update] at member
    split at member
    next listed =>
      rcases List.mem_cons.mp member with same | old
      · subst same; simp [Work.update,Work.queue,write_rows,updateEvents,listed]
      · first | exact base.written l old | exact base.queued l old
    next => first | exact base.written l member | exact base.queued l member

private theorem Fresh.link {s : State} {w : Work} (fresh : Fresh s w) (id : Nat) (row : Option UserRole)
    (event : Event) : Fresh s (w.link id row event) where
  inherited := fresh.inherited
  written := fresh.written
  queued k member := List.mem_append_left _ (fresh.queued k member)

theorem Fresh.statement {s : State} {t : Nat} {w v : Work} (fresh : Fresh s w)
    (taken : Statement s t w v) : Fresh s v := by
  cases taken with
  | insert => exact fresh.insert
  | update columns found => exact fresh.update columns found
  | delete => exact fresh.write (by rintro r a same; cases same)
  | insertUserRole | updateUserRole | deleteUserRole => exact fresh.link _ _ _
  | rolePermission | customerLedger | business => exact fresh.queue _

private theorem write_more (w : Work) (k : Key) (row : Option Row) (l : Key) (own : w.rows l ≠ none) :
    (w.write k row).rows l ≠ none := by
  rw [write_rows]
  split <;> simp_all

theorem statement_rows {s : State} {t : Nat} {w v : Work} (taken : Statement s t w v) (l : Key) :
    (w.rows l ≠ none → v.rows l ≠ none) ∧ (v.rows l ≠ none → w.rows l ≠ none ∨ RowFree s t l) := by
  have wrote (k : Key) (row : Option Row) (free : RowFree s t k) :
      (w.rows l ≠ none → (w.write k row).rows l ≠ none) ∧
        ((w.write k row).rows l ≠ none → w.rows l ≠ none ∨ RowFree s t l) := by
    refine ⟨write_more w k row l,fun own => ?_⟩
    rw [write_rows] at own
    split at own
    · next same => exact .inr (same ▸ free)
    · exact .inl own
  cases taken with
  | insert _ free => exact wrote _ _ free
  | update _ _ free => exact wrote _ _ free
  | delete _ free => exact wrote _ _ free
  | insertUserRole | updateUserRole | deleteUserRole => exact ⟨id,.inl⟩
  | rolePermission | customerLedger | business => exact ⟨id,.inl⟩

private theorem Settling.fire {s : State} {x : Transaction} {event : Event} {rest : List Event}
    {targets : List Key} (settling : Settling s x) (idle : x.todo = [])
    (head : x.work.pending = event :: rest) (found : Targets s x.work event targets) :
    Settling s { x with work := { x.work with pending := rest }, todo := targets, drawn := none } := by
  refine { settling with settled := ?_, drawn := by simp }
  intro k member
  rcases settling.settled k member with waiting | started | done
  · rw [head] at waiting
    rcases List.mem_cons.mp waiting with same | later
    · subst same
      cases found
      exact .inr (.inl (List.mem_singleton_self k))
    · exact .inl later
  · simp [idle] at started
  · exact .inr (.inr done)

private theorem Settling.draw {s : State} {x : Transaction} {k : Key} {rest : List Key}
    (settling : Settling s x) (head : x.todo = k :: rest) :
    Settling s { x with
      drawn := some (nextSeq s x k.business)
      counters := Function.update x.counters k.business (some (nextSeq s x k.business)) } := by
  have higher : ∀ c, x.counters k.business = some c → c < nextSeq s x k.business := by
    intro c held
    simp [nextSeq,held]
  have fresh : s.counters k.business < nextSeq s x k.business := by
    cases held : x.counters k.business with
    | none => simp [nextSeq,held]
    | some c => exact Nat.lt_trans (settling.raised _ c held) (higher c held)
  refine { settling with raised := ?_, above := ?_, drawn := ?_ }
  · intro b c held
    by_cases same : b = k.business
    · subst same
      simp only [Function.update_self] at held
      cases held
      exact fresh
    · exact settling.raised b c (by simpa [Function.update_of_ne same] using held)
  · intro stamp member
    obtain ⟨low,c,held,high⟩ := settling.above stamp member
    refine ⟨low,?_⟩
    by_cases same : stamp.key.business = k.business
    · rw [same] at held ⊢
      exact ⟨_,Function.update_self ..,Nat.le_of_lt (Nat.lt_of_le_of_lt high (higher c held))⟩
    · exact ⟨c,by simpa [Function.update_of_ne same] using held,high⟩
  · intro l others n same value
    cases head.symm.trans same
    cases value
    refine ⟨Function.update_self ..,fun stamp member business => ?_⟩
    obtain ⟨_,c,held,high⟩ := settling.above stamp member
    exact Nat.lt_of_le_of_lt high (higher c (business ▸ held))

private theorem Settling.stamp {s : State} {x : Transaction} {k : Key} {rest : List Key} {n : Nat}
    (settling : Settling s x) (head : x.todo = k :: rest) (drawn : x.drawn = some n) :
    Settling s { x with
      work := x.work.write k (some ⟨some n⟩), todo := rest, drawn := none
      stamped := x.stamped ++ [⟨k,n⟩] } := by
  obtain ⟨held,highest⟩ := settling.drawn k rest n head drawn
  have added : (⟨k,n⟩ : Stamp) ∈ x.stamped ++ [⟨k,n⟩] := by simp
  refine { settling with inherited := ?_, written := ?_, settled := ?_, above := ?_, ordered := ?_, drawn := by simp }
  · intro l row a own carried
    rw [write_rows] at own
    split at own
    · next same => subst same; cases own; cases carried; exact .inr added
    · exact (settling.inherited l row a own carried).imp id (List.mem_append_left _)
  · intro l member
    exact write_more x.work k _ l (settling.written l member)
  · intro l member
    by_cases same : l = k
    · subst same
      exact .inr (.inr (.inr ⟨n,by simp [write_rows],added⟩))
    · rcases settling.settled l member with waiting | started | deleted | ⟨a,own,stamped⟩
      · exact .inl waiting
      · exact .inr (.inl (by simpa [head,same] using started))
      · exact .inr (.inr (.inl (by simpa [write_rows,same] using deleted)))
      · exact .inr (.inr (.inr ⟨a,by simpa [write_rows,same] using own,List.mem_append_left _ stamped⟩))
  · intro stamp member
    rcases List.mem_append.mp member with old | new
    · exact settling.above stamp old
    · rw [List.mem_singleton] at new
      subst new
      exact ⟨settling.raised _ n held,n,held,Nat.le_refl n⟩
  · refine List.pairwise_append.mpr ⟨settling.ordered,List.pairwise_singleton ..,?_⟩
    intro stamp member last new business
    rw [List.mem_singleton] at new
    subst new
    exact highest stamp member business

private theorem Settling.skip {s : State} {x : Transaction} {k : Key} {rest : List Key}
    (settling : Settling s x) (head : x.todo = k :: rest) (missing : x.work.row s k = none) :
    Settling s { x with todo := rest, drawn := none } := by
  refine { settling with settled := ?_, drawn := by simp }
  intro l member
  rcases settling.settled l member with waiting | started | done
  · exact .inl waiting
  · rw [head] at started
    rcases List.mem_cons.mp started with same | later
    · subst same
      refine .inr (.inr (.inl ?_))
      cases own : x.work.rows l with
      | none => exact absurd own (settling.written l member)
      | some entry =>
        simp only [Work.row,own,Option.getD_some] at missing
        rw [missing]
    · exact .inr (.inl later)
  · exact .inr (.inr done)

private theorem Active.settling {s : State} {x : Transaction} (active : Active s x) :
    Settling s { x with committing := true, savepoints := [] } where
  inherited k row a own carried := .inl (active.fresh.inherited k row a own carried)
  written := active.fresh.written
  settled k member := .inl (active.fresh.queued k member)
  raised b c held := by simp [active.counters b] at held
  above := by simp [active.stamped]
  ordered := by simp [active.stamped]
  drawn := by simp [active.todo]

/-- One step of a transaction keeps its writes above everything visible. -/
theorem Own.progress {s : State} {t : Nat} {x y : Transaction} (own : Own s x)
    (taken : Progress s t x y) : Own s y := by
  rcases own with ⟨open_,active⟩ | ⟨closing,settling⟩
  · cases taken with
    | statement _ ran =>
      exact .inl ⟨open_,{ active with
        fresh := active.fresh.statement ran
        saved := active.saved.of_grown fun k => (statement_rows ran k).1 }⟩
    | savepoint => exact .inl ⟨open_,{ active with saved := ⟨fun _ => id,active.fresh,active.saved⟩ }⟩
    | rollbackTo _ top =>
      obtain ⟨covered,fresh,saved⟩ := top ▸ active.saved
      exact .inl ⟨open_,{ active with fresh := fresh, saved := saved }⟩
    | release _ top =>
      obtain ⟨covered,fresh,saved⟩ := top ▸ active.saved
      exact .inl ⟨open_,{ active with saved := saved.of_grown covered }⟩
    | commit => exact .inr ⟨rfl,active.settling⟩
    | fire closing => simp [open_] at closing
    | draw head => simp [active.todo] at head
    | stamp head => simp [active.todo] at head
    | skip head => simp [active.todo] at head
  · cases taken with
    | statement open_ => simp [closing] at open_
    | savepoint open_ => simp [closing] at open_
    | rollbackTo open_ => simp [closing] at open_
    | release open_ => simp [closing] at open_
    | commit open_ => simp [closing] at open_
    | fire _ idle head found => exact .inr ⟨closing,settling.fire idle head found⟩
    | draw head => exact .inr ⟨closing,settling.draw head⟩
    | stamp head drawn => exact .inr ⟨closing,settling.stamp head drawn⟩
    | skip head missing => exact .inr ⟨closing,settling.skip head missing⟩

theorem progress_rows {s : State} {t : Nat} {x y : Transaction} (own : Own s x)
    (taken : Progress s t x y) (k : Key) (held : y.work.rows k ≠ none) :
    x.work.rows k ≠ none ∨ RowFree s t k := by
  cases taken with
  | statement _ ran => exact (statement_rows ran k).2 held
  | rollbackTo open_ top =>
    rcases own with ⟨_,active⟩ | ⟨closing,_⟩
    · obtain ⟨covered,_⟩ := top ▸ active.saved
      exact .inl (covered k held)
    · simp [closing] at open_
  | stamp _ _ _ free =>
    rw [write_rows] at held
    split at held
    · next same => exact .inr (same ▸ free)
    · exact .inl held
  | savepoint | release | commit | fire | draw | skip => exact .inl held

theorem progress_counters {s : State} {t : Nat} {x y : Transaction} (taken : Progress s t x y) (b : Nat)
    (held : y.counters b ≠ none) : x.counters b ≠ none ∨ CounterFree s t b := by
  cases taken with
  | @draw k _ _ _ free =>
    by_cases same : b = k.business
    · exact .inr (same ▸ free)
    · exact .inl (by simpa [Function.update_of_ne same] using held)
  | _ => exact .inl held

private theorem running_update {s : State} {t other : Nat} {entry : Option Transaction} {y : Transaction}
    (found : Function.update s.running t entry other = some y) :
    (other = t ∧ entry = some y) ∨ (other ≠ t ∧ s.running other = some y) := by
  by_cases same : other = t
  · subst same; exact .inl ⟨rfl,by simpa using found⟩
  · exact .inr ⟨same,by simpa [Function.update_of_ne same] using found⟩

/-- Replacing one running transaction by one that holds only what it held or what was free. -/
private theorem Invariant.replace {s : State} {t : Nat} {y : Transaction} (invariant : Invariant s)
    (own : Own s y)
    (rows : ∀ k, y.work.rows k ≠ none → (∃ x, s.running t = some x ∧ x.work.rows k ≠ none) ∨ RowFree s t k)
    (counters : ∀ b, y.counters b ≠ none →
      (∃ x, s.running t = some x ∧ x.counters b ≠ none) ∨ CounterFree s t b) :
    Invariant { s with running := Function.update s.running t (some y) } := by
  have rowAlone : ∀ other z k, other ≠ t → s.running other = some z → z.work.rows k ≠ none →
      y.work.rows k = none := by
    intro other z k different running held
    by_contra mine
    rcases rows k mine with ⟨x,before,had⟩ | free
    · exact different (invariant.rowLock _ _ _ _ k running before held had)
    · exact held (free other z different running)
  have counterAlone : ∀ other z b, other ≠ t → s.running other = some z → z.counters b ≠ none →
      y.counters b = none := by
    intro other z b different running held
    by_contra mine
    rcases counters b mine with ⟨x,before,had⟩ | free
    · exact different (invariant.counterLock _ _ _ _ b running before held had)
    · exact held (free other z different running)
  refine { invariant with own := ?_, rowLock := ?_, counterLock := ?_ }
  · intro other z found
    rcases running_update found with ⟨_,same⟩ | ⟨_,running⟩
    · cases same; exact own.frame (fun _ _ => rfl) (fun _ _ => rfl)
    · exact (invariant.own other z running).frame (fun _ _ => rfl) (fun _ _ => rfl)
  · intro first x second z k one two left right
    rcases running_update one with ⟨same,mine⟩ | ⟨different,running⟩ <;>
      rcases running_update two with ⟨same',mine'⟩ | ⟨different',running'⟩
    · exact same.trans same'.symm
    · cases mine; exact absurd (rowAlone _ _ k different' running' right) left
    · cases mine'; exact absurd (rowAlone _ _ k different running left) right
    · exact invariant.rowLock _ _ _ _ k running running' left right
  · intro first x second z b one two left right
    rcases running_update one with ⟨same,mine⟩ | ⟨different,running⟩ <;>
      rcases running_update two with ⟨same',mine'⟩ | ⟨different',running'⟩
    · exact same.trans same'.symm
    · cases mine; exact absurd (counterAlone _ _ b different' running' right) left
    · cases mine'; exact absurd (counterAlone _ _ b different running left) right
    · exact invariant.counterLock _ _ _ _ b running running' left right

private theorem Invariant.remove {s : State} (invariant : Invariant s) (t : Nat) :
    Invariant { s with running := Function.update s.running t none } := by
  have kept : ∀ {other x}, Function.update s.running t none other = some x → s.running other = some x := by
    intro other x found
    rcases running_update found with ⟨_,impossible⟩ | ⟨_,running⟩
    · cases impossible
    · exact running
  exact { invariant with
    own := fun other x found =>
      (invariant.own other x (kept found)).frame (fun _ _ => rfl) (fun _ _ => rfl)
    rowLock := fun _ _ _ _ k one two => invariant.rowLock _ _ _ _ k (kept one) (kept two)
    counterLock := fun _ _ _ _ b one two => invariant.counterLock _ _ _ _ b (kept one) (kept two) }

private theorem committed_source {s : State} {t : Nat} {x : Transaction} (settling : Settling s x)
    {k : Key} {row : Row} {a : Nat} (found : (s.committed t x).rows k = some row)
    (carried : row.changeSeq = some a) : Inherited s k a ∨ ⟨k,a⟩ ∈ x.stamped := by
  rcases row_cases found with own | ⟨_,present⟩
  · exact settling.inherited k row a own carried
  · exact .inl ⟨row,present,carried⟩

theorem committed_counter {s : State} {t : Nat} {x : Transaction} (settling : Settling s x)
    (b : Nat) : s.counters b ≤ (s.committed t x).counters b := by
  cases held : x.counters b with
  | none => simp [State.committed,held]
  | some c => simpa [State.committed,held] using Nat.le_of_lt (settling.raised b c held)

theorem stamped_counter {s : State} {t : Nat} {x : Transaction} (settling : Settling s x)
    {stamp : Stamp} (member : stamp ∈ x.stamped) :
    stamp.seq ≤ (s.committed t x).counters stamp.key.business := by
  obtain ⟨_,c,held,high⟩ := settling.above stamp member
  simpa [State.committed,held] using high

private theorem comparable {stamps : List Stamp} (ordered : stamps.Pairwise Before) {p q : Stamp}
    (left : p ∈ stamps) (right : q ∈ stamps) : p = q ∨ Before p q ∨ Before q p := by
  induction ordered with
  | nil => cases left
  | cons first _ induction =>
    rcases List.mem_cons.mp left with same | left <;> rcases List.mem_cons.mp right with same' | right
    · exact .inl (same.trans same'.symm)
    · exact .inr (.inl (same ▸ first q right))
    · exact .inr (.inr (same' ▸ first p left))
    · exact induction left right

private theorem stamped_injective {s : State} {x : Transaction} (settling : Settling s x) {k l : Key}
    {a : Nat} (left : ⟨k,a⟩ ∈ x.stamped) (right : ⟨l,a⟩ ∈ x.stamped) (same : k.business = l.business) :
    k = l := by
  rcases comparable settling.ordered left right with equal | before | before
  · exact congrArg Stamp.key equal
  · exact absurd (before same) (Nat.lt_irrefl a)
  · exact absurd (before same.symm) (Nat.lt_irrefl a)

private theorem inherited_bounded {s : State} (invariant : Invariant s) {k : Key} {a : Nat}
    (inherited : Inherited s k a) : a ≤ s.counters k.business := by
  obtain ⟨before,present,seq⟩ := inherited
  exact invariant.bounded k before a present seq

theorem Invariant.settling {s : State} {t : Nat} {x : Transaction} (invariant : Invariant s)
    (running : s.running t = some x) (ready : x.ready) : Settling s x := by
  rcases invariant.own t x running with ⟨open_,_⟩ | ⟨_,settling⟩
  · simp [ready.1] at open_
  · exact settling

private theorem Invariant.commit {s : State} {t : Nat} {x : Transaction} (invariant : Invariant s)
    (running : s.running t = some x) (ready : x.ready) : Invariant (s.committed t x) := by
  have settling := invariant.settling running ready
  have removed := invariant.remove t
  have others : ∀ {other y}, (s.committed t x).running other = some y →
      other ≠ t ∧ s.running other = some y := by
    intro other y found
    rcases running_update found with ⟨_,impossible⟩ | kept
    · cases impossible
    · exact kept
  constructor
  · intro k row a found carried
    rcases committed_source settling found carried with inherited | stamped
    · exact Nat.le_trans (inherited_bounded invariant inherited) (committed_counter settling _)
    · exact stamped_counter settling stamped
  · intro k l row other a left right carried carried' same
    rcases committed_source settling left carried with inherited | stamped <;>
      rcases committed_source settling right carried' with inherited' | stamped'
    · obtain ⟨one,present,seq⟩ := inherited
      obtain ⟨two,present',seq'⟩ := inherited'
      exact invariant.distinct k l one two a present present' seq seq' same
    · have low := inherited_bounded invariant inherited
      have high : s.counters l.business < a := (settling.above _ stamped').1
      rw [same] at low
      omega
    · have low := inherited_bounded invariant inherited'
      have high : s.counters k.business < a := (settling.above _ stamped).1
      rw [same] at high
      omega
    · exact stamped_injective settling stamped stamped' same
  · intro stamp member
    simp only [State.committed,List.flatten_append,List.flatten_singleton,List.mem_append] at member
    rcases member with old | new
    · exact Nat.le_trans (invariant.historyBounded stamp old) (committed_counter settling _)
    · exact stamped_counter settling new
  · simp only [State.committed,List.flatten_append,List.flatten_singleton]
    refine List.pairwise_append.mpr ⟨invariant.historyOrdered,settling.ordered,?_⟩
    intro old before new after business
    have low := invariant.historyBounded old before
    rw [business] at low
    exact Nat.lt_of_le_of_lt low (settling.above new after).1
  · intro other y found
    obtain ⟨different,kept⟩ := others found
    refine (invariant.own other y kept).frame (fun k held => ?_) (fun b held => ?_)
    · have free : x.work.rows k = none := by
        by_contra mine
        exact different (invariant.rowLock _ _ _ _ k kept running held mine)
      simp [State.committed,Work.row,free]
    · have free : x.counters b = none := by
        by_contra mine
        exact different (invariant.counterLock _ _ _ _ b kept running held mine)
      simp [State.committed,free]
  · exact removed.rowLock
  · exact removed.counterLock

theorem Invariant.step {s u : State} {a : Action} (invariant : Invariant s) (taken : Step s a u) :
    Invariant u := by
  cases taken with
  | begin =>
    refine invariant.replace (.inl ⟨rfl,?_⟩) (fun k held => absurd rfl held) (fun b held => absurd rfl held)
    exact ⟨⟨by simp [Transaction.empty],by simp [Transaction.empty],by simp [Transaction.empty]⟩,trivial,
      fun _ => rfl,rfl,rfl,rfl⟩
  | progress running moved =>
    have own := invariant.own _ _ running
    exact invariant.replace (own.progress moved)
      (fun k held => (progress_rows own moved k held).imp_left fun had => ⟨_,running,had⟩)
      (fun b held => (progress_counters moved b held).imp_left fun had => ⟨_,running,had⟩)
  | commit running ready => exact invariant.commit running ready
  | abort => exact invariant.remove _

private theorem backfill_seq {s : State} {keys : List Key} {k : Key} {row : Row} {a : Nat}
    (found : (s.backfill keys).rows k = some row) (carried : row.changeSeq = some a) :
    (k ∈ keys ∧ a = s.counters k.business + ((keys.filter (·.business = k.business)).idxOf k + 1)) ∨
      (k ∉ keys ∧ s.rows k = some row) := by
  simp only [State.backfill] at found
  split at found
  · next listed =>
    cases found
    exact .inl ⟨listed,(Option.some.inj carried).symm⟩
  · next absent => exact .inr ⟨absent,found⟩

private theorem backfill_rank {keys : List Key} {k : Key} (member : k ∈ keys) :
    (keys.filter (·.business = k.business)).idxOf k + 1 ≤ (keys.filter (·.business = k.business)).length :=
  List.idxOf_lt_length_of_mem (List.mem_filter.mpr ⟨member,by simp⟩)

structure Backfilled (s : State) : Prop where
  bounded : ∀ k row a, s.rows k = some row → row.changeSeq = some a → a ≤ s.counters k.business
  distinct : ∀ k l row other a, s.rows k = some row → s.rows l = some other → row.changeSeq = some a →
    other.changeSeq = some a → k.business = l.business → k = l
  idle : ∀ t, s.running t = none
  history : s.history = []

private theorem Backfilled.backfill {s : State} (backfilled : Backfilled s) (keys : List Key) :
    Backfilled (s.backfill keys) := by
  refine ⟨?_,?_,backfilled.idle,backfilled.history⟩
  · intro k row a found carried
    simp only [State.backfill]
    rcases backfill_seq found carried with ⟨member,value⟩ | ⟨_,present⟩
    · have rank := backfill_rank member
      omega
    · exact Nat.le_trans (backfilled.bounded k row a present carried) (Nat.le_add_right ..)
  · intro k l row other a left right carried carried' same
    rcases backfill_seq left carried with ⟨member,value⟩ | ⟨_,present⟩ <;>
      rcases backfill_seq right carried' with ⟨member',value'⟩ | ⟨_,present'⟩
    · rw [same] at value
      have rank : (keys.filter (·.business = l.business)).idxOf k =
          (keys.filter (·.business = l.business)).idxOf l := by omega
      exact (List.idxOf_inj (List.mem_filter.mpr ⟨member,by simp [same]⟩)).mp rank
    · have low := backfilled.bounded l other a present' carried'
      rw [same] at value
      omega
    · have low := backfilled.bounded k row a present carried
      rw [same] at low
      omega
    · exact backfilled.distinct k l row other a present present' carried carried' same

private theorem Backfilled.tables {s : State} (backfilled : Backfilled s) (tables : List (List Key)) :
    Backfilled (tables.foldl State.backfill s) := by
  induction tables generalizing s with
  | nil => exact backfilled
  | cons keys rest induction => exact induction (backfilled.backfill keys)

theorem Invariant.initial {s : State} (initial : Initial s) : Invariant s := by
  obtain ⟨tables,links,_,rfl⟩ := initial
  have empty : Backfilled State.unstamped :=
    ⟨by simp [State.unstamped],by simp [State.unstamped],fun _ => rfl,rfl⟩
  have backfilled := empty.tables tables
  refine ⟨backfilled.bounded,backfilled.distinct,?_,?_,?_,?_,?_⟩ <;>
    simp [backfilled.idle,backfilled.history]

theorem Invariant.reachable {s : State} (reached : Reachable Initial Step s) : Invariant s :=
  reached.invariant (fun _ => Invariant.initial) (fun _ _ _ => Invariant.step)

private theorem changed_stamped {s : State} {t : Nat} {x : Transaction} (settling : Settling s x)
    (ready : x.ready) {k : Key} (changed : k ∈ x.work.changed) {row : Row}
    (found : (s.committed t x).rows k = some row) :
    ∃ a, row.changeSeq = some a ∧ ⟨k,a⟩ ∈ x.stamped := by
  obtain ⟨_,fired,done⟩ := ready
  rcases settling.settled k changed with waiting | started | deleted | ⟨a,own,stamped⟩
  · simp [fired] at waiting
  · simp [done] at started
  · simp [State.committed,Work.row,deleted] at found
  · simp only [State.committed,Work.row,own,Option.getD_some,Option.some.injEq] at found
    exact ⟨a,by simp [← found],stamped⟩

/-- Sequence numbers are unique among the visible rows of a business, follow the order of commits, and
every change a commit makes visible lies above all that was visible before. -/
theorem change_sequence_is_commit_order {s : State} (reached : Reachable Initial Step s) :
    (∀ k l row other a, s.rows k = some row → s.rows l = some other → row.changeSeq = some a →
      other.changeSeq = some a → k.business = l.business → k = l) ∧
    s.history.Pairwise (fun earlier later => ∀ p ∈ earlier, ∀ q ∈ later,
      p.key.business = q.key.business → p.seq < q.seq) ∧
    (∀ t x, s.running t = some x → x.ready → ∀ p ∈ x.stamped,
      (∀ q ∈ s.history.flatten, q.key.business = p.key.business → q.seq < p.seq) ∧
      ∀ k row a, s.rows k = some row → row.changeSeq = some a → k.business = p.key.business → a < p.seq) ∧
    (∀ t x, s.running t = some x → x.ready → ∀ k ∈ x.work.changed, ∀ row,
      (s.committed t x).rows k = some row → ∃ a, row.changeSeq = some a ∧ ⟨k,a⟩ ∈ x.stamped) := by
  have invariant := Invariant.reachable reached
  refine ⟨invariant.distinct,(List.pairwise_flatten.mp invariant.historyOrdered).2,?_,?_⟩
  · intro t x running ready p member
    have fresh := ((invariant.settling running ready).above p member).1
    refine ⟨fun q old same => ?_,fun k row a present carried same => ?_⟩
    · exact Nat.lt_of_le_of_lt (same ▸ invariant.historyBounded q old) fresh
    · exact Nat.lt_of_le_of_lt (same ▸ invariant.bounded k row a present carried) fresh
  · intro t x running ready k changed row found
    exact changed_stamped (invariant.settling running ready) ready changed found

private def product (id : Nat) : Key := ⟨1,.products,id⟩

private theorem alone {s : State} {t : Nat} (idle : ∀ other, other ≠ t → s.running other = none) :
    (∀ k, RowFree s t k) ∧ ∀ b, CounterFree s t b := by
  constructor <;> intro _ other x different running <;> simp [idle other different] at running

/-- One transaction from begin to commit that inserts a row while no other is running. -/
private theorem inserted {s : State} (reached : Reachable Initial Step s) (idle : ∀ t, s.running t = none)
    {k : Key} (missing : s.rows k = none) :
    ∃ x, x.ready ∧ x.stamped = [⟨k,s.counters k.business + 1⟩] ∧ (∀ l, l ≠ k → x.work.rows l = none) ∧
      x.counters k.business = some (s.counters k.business + 1) ∧
      Reachable Initial Step { s with running := Function.update s.running 0 (some x) } := by
  have others : ∀ x other, other ≠ 0 → Function.update s.running 0 (some x) other = none := by
    intro x other different
    rw [Function.update_of_ne different,idle]
  have step : ∀ {x y}, Reachable Initial Step { s with running := Function.update s.running 0 (some x) } →
      Progress { s with running := Function.update s.running 0 (some x) } 0 x y →
      Reachable Initial Step { s with running := Function.update s.running 0 (some y) } := by
    intro x y before moved
    simpa using before.next (.progress (by simp) moved)
  have free := fun x => alone (s := { s with running := Function.update s.running 0 (some x) }) (others x)
  have began := step (reached.next (.begin (idle 0)))
    (.statement rfl (.insert (k := k) (by simp [Work.row,Transaction.empty,missing]) ((free _).1 _)))
  have fired := step (step began (.commit rfl)) (.fire rfl rfl rfl (.syncStamp k))
  have drawn := step fired (.draw rfl (by simp [Work.row,Work.insert,Work.write,Work.queue]) ((free _).2 _))
  have stamped := step drawn
    (.stamp rfl rfl (by simp [Work.row,Work.insert,Work.write,Work.queue]) ((free _).1 _))
  refine ⟨_,⟨rfl,rfl,rfl⟩,by simp [nextSeq,Transaction.empty],fun l different => ?_,?_,stamped⟩
  · simp [Work.insert,Work.queue,Work.write,Transaction.empty,Function.update_of_ne different]
  · simp [nextSeq,Transaction.empty]

theorem change_sequence_second_commit : ∃ (s : State) (x : Transaction), s.running 0 = some x ∧ x.ready ∧
    s.history = [[⟨product 1,1⟩]] ∧ x.stamped = [⟨product 2,2⟩] ∧
    ∀ q ∈ s.history.flatten, q.key.business = (product 2).business → q.seq < 2 := by
  have start : Reachable Initial Step State.unstamped := .initial ⟨[],fun _ => none,by simp,rfl⟩
  obtain ⟨x,ready,stamped,rows,counter,reached⟩ := inserted start (fun _ => rfl) (k := product 1) rfl
  have committed := reached.next (.commit (Function.update_self ..) ready)
  obtain ⟨y,ready',stamped',_,_,reached'⟩ := inserted committed (k := product 2)
    (fun t => by by_cases same : t = 0 <;> simp [State.committed,State.unstamped,same])
    (by simp [State.committed,Work.row,rows (product 2) (by decide),State.unstamped])
  have raised : x.counters 1 = some 1 := counter
  have second : y.stamped = [⟨product 2,2⟩] := by
    simpa [State.committed,product,raised] using stamped'
  have above := (change_sequence_is_commit_order reached').2.2.1 0 y (by simp) ready'
  refine ⟨_,y,?_,ready',?_,second,(above ⟨product 2,2⟩ (by simp [second])).1⟩
  · simp
  · simp [State.committed,State.unstamped,stamped]

end ChangeSequence
