import SasBackend.Semantics.StockLevels

/-! Every view of the stock levels agrees with the live movements once its triggers have run.
The calls a trigger still has to make are what level and movements differ by, in each transaction's own view;
changed rows are locked, so the differences of two transactions add up.
-/
namespace StockLevels
open Overlay Histories Transition Finset
open scoped BigOperators

variable {s after : State} {t u : Nat} {ids : Finset Nat} {db : Database} {work other : Work} {position : Position} {id : Nat}
  {old new : Option StockMovement} {history : List Work}

theorem key_injective : Function.Injective Position.key := by
  intro first second same
  obtain ⟨business,branch,product,variation⟩ := first
  obtain ⟨business',branch',product',variation'⟩ := second
  simp only [Position.key,LevelKey.mk.injEq] at same
  obtain ⟨rfl,rfl,rfl,variations⟩ := same
  have equal : variation = variation' := by
    cases variation with
    | none =>
      cases variation' with
      | none => rfl
      | some real => exact absurd variations.symm real.generated
    | some real =>
      cases variation' with
      | none => exact absurd variations real.generated
      | some real' =>
        cases real
        cases real'
        simpa using variations
  rw [equal]

/-- What calls add to a position. -/
def pending (calls : List Call) (position : Position) : ℤ :=
  (calls.map fun call => if call.position = position then call.delta else 0).sum

@[simp] theorem pending_nil : pending [] position = 0 := rfl

@[simp] theorem pending_cons (call : Call) (calls : List Call) :
    pending (call :: calls) position = (if call.position = position then call.delta else 0) + pending calls position := by
  simp [pending]

@[simp] theorem pending_append (first second : List Call) :
    pending (first ++ second) position = pending first position + pending second position := by
  simp [pending]

theorem pending_unless {skipped : Prop} [Decidable skipped] (call : Call) (nothing : ¬skipped → call.delta = 0) :
    pending (if skipped then [call] else []) position = if call.position = position then call.delta else 0 := by
  by_cases kept : skipped <;> simp [kept,nothing]

theorem contribution_some (movement : StockMovement) : contribution position (some movement) =
    if movement.position = position then quantity (some movement) else 0 := rfl

/-- The trigger removes the old row at its position and adds the new one at its own. -/
theorem pending_syncStockLevels (old new : Option StockMovement) (position : Position) :
    pending (syncStockLevels old new) position = contribution position new - contribution position old := by
  unfold syncStockLevels
  cases old with
  | none =>
    cases new with
    | none => simp
    | some new =>
      rw [pending_unless _ (by simp),contribution_some]
      simp [contribution]
  | some old =>
    cases new with
    | none =>
      rw [pending_unless _ (by simp),contribution_some]
      split <;> simp_all [contribution]
    | some new =>
      dsimp only
      rw [contribution_some,contribution_some]
      split
      next place =>
        rw [pending_unless _ (by simp; omega),place]
        split <;> simp
      next place =>
        rw [pending_append,pending_unless _ (by simp),pending_unless _ (by simp)]
        split <;> split <;> simp_all

/-- The view agrees but for the calls still to be made. -/
def Settled (ids : Finset Nat) (db : Database) (work : Work) : Prop :=
  ∀ position, levelQty (work.view db) position + pending work.calls position = liveQty ids (work.view db) position

theorem Settled.change (settled : Settled ids db work) (idle : work.calls = []) (inside : id ∈ ids) :
    Settled ids db (work.change id ((work.view db).movements id) new) := by
  intro position
  have before := settled position
  rw [idle,pending_nil,add_zero] at before
  have level : levelQty ((work.change id ((work.view db).movements id) new).view db) position =
      levelQty (work.view db) position := rfl
  have live : liveQty ids ((work.change id ((work.view db).movements id) new).view db) position =
      liveQty ids (work.view db) position +
        (contribution position new - contribution position ((work.view db).movements id)) := by
    simp only [liveQty,Work.change,Work.view,overlaid_set]
    exact sum_update inside (contribution position) (overlaid db.movements work.movements) new
  rw [level,live,before]
  exact congrArg _ (pending_syncStockLevels _ _ position)

theorem qty_of_applied {level applied : Option StockLevel} {call : Call}
    (done : syncApplyStock level call = applied) (kept : applied.isSome = true) :
    applied.elim 0 StockLevel.qty = level.elim 0 StockLevel.qty + call.delta := by
  subst done
  unfold syncApplyStock at kept ⊢
  cases level <;> simp only at kept ⊢ <;> split <;> simp_all

theorem Settled.applyStock (settled : Settled ids db work) {call : Call} {rest : List Call} {level : StockLevel}
    (first : work.calls = call :: rest)
    (applied : syncApplyStock ((work.view db).levels call.position.key) call = some level) :
    Settled ids db ⟨work.movements,Overlay.set work.levels call.position.key (some level),rest⟩ := by
  intro position
  have before := settled position
  rw [first,pending_cons] at before
  have added := qty_of_applied applied rfl
  have live : liveQty ids (Work.view ⟨work.movements,Overlay.set work.levels call.position.key (some level),rest⟩ db)
      position = liveQty ids (work.view db) position := rfl
  rw [live,← before]
  simp only [levelQty,Work.view,overlaid_set]
  by_cases same : call.position = position
  · subst same
    rw [Function.update_self,if_pos rfl,added]
    simp only [Work.view]
    omega
  · have apart : position.key ≠ call.position.key := fun equal => same (key_injective equal).symm
    rw [Function.update_of_ne apart,if_neg same,zero_add]

/-- Another transaction's commit adds to level and movements alike. -/
theorem Settled.commit (settled : Settled ids db work) (committed : Settled ids db Work.empty)
    (finished : Settled ids db other) (idle : other.calls = []) (rows : Apart work.movements other.movements)
    (levels : Apart work.levels other.levels) : Settled ids (other.view db) work := by
  intro position
  have mine := settled position
  have theirs := finished position
  have both := committed position
  rw [idle,pending_nil,add_zero] at theirs
  have level : levelQty (work.view (other.view db)) position =
      levelQty (work.view db) position + levelQty (other.view db) position - levelQty db position :=
    overlaid_overlaid levels (fun level => level.elim 0 StockLevel.qty) db.levels position.key
  have live : liveQty ids (work.view (other.view db)) position =
      liveQty ids (work.view db) position + liveQty ids (other.view db) position - liveQty ids db position := by
    have pointwise : ∀ id, contribution position ((work.view (other.view db)).movements id) =
        contribution position ((work.view db).movements id) + contribution position ((other.view db).movements id) -
          contribution position (db.movements id) :=
      overlaid_overlaid rows (contribution position) db.movements
    simp only [liveQty,pointwise,sum_sub_distrib,sum_add_distrib]
  have base : levelQty db position = liveQty ids db position := by simpa [Work.empty,Work.view] using both
  rw [level,live,← base,← theirs,← mine]
  omega

theorem Settled.insert (settled : Settled ids db work) (absent : id ∉ ids → (work.view db).movements id = none) :
    Settled (insert id ids) db work := by
  intro position
  rw [settled position]
  by_cases inside : id ∈ ids
  · rw [insert_eq_of_mem inside]
  · simp [liveQty,sum_insert inside,absent inside,contribution]

/-- A work of the state: rows with known ids, and settled. -/
def Sound (ids : Finset Nat) (db : Database) (work : Work) : Prop :=
  (∀ id, id ∉ ids → work.movements id = none) ∧ Settled ids db work

def Alone (work other : Work) : Prop := Apart work.movements other.movements ∧ Apart work.levels other.levels

theorem alone_symm (work other : Work) (alone : Alone work other) : Alone other work := ⟨alone.1.symm,alone.2.symm⟩

theorem alone_empty (other : Work) : Alone .empty other := ⟨(apart_untouched _).symm,(apart_untouched _).symm⟩

structure Invariant (s : State) : Prop where
  covered : ∀ id, id ∉ s.ids → s.db.movements id = none
  committed : Settled s.ids s.db .empty
  open_ : Kept (Sound s.ids s.db) Alone s.transactions

theorem Invariant.bare (holds : Invariant s) : Sound s.ids s.db .empty := ⟨fun _ _ => rfl,holds.committed⟩

theorem Invariant.newest (holds : Invariant s) (there : s.transactions[t]? = some history) :
    Sound s.ids s.db (now .empty history) := holds.open_.now there holds.bare

theorem Invariant.put (holds : Invariant s) (new : Fits (Sound s.ids s.db) Alone s.transactions t history) :
    Invariant (s.put t history) := ⟨holds.covered,holds.committed,holds.open_.set alone_symm new⟩

theorem Invariant.seen (holds : Invariant s) (there : s.transactions[t]? = some history) {row : StockMovement}
    (found : (Work.view (now .empty history) s.db).movements id = some row) : id ∈ s.ids := by
  by_contra absent
  simp [Work.view,overlaid,(holds.newest there).1 id absent,holds.covered id absent] at found

theorem Invariant.change (holds : Invariant s) (there : s.transactions[t]? = some history)
    (granted : ready s t id (now .empty history) = true) (inside : id ∈ s.ids) (new : Option StockMovement) :
    Invariant (s.put t (Work.change (now .empty history) id
      ((Work.view (now .empty history) s.db).movements id) new :: history)) := by
  simp only [ready,Bool.and_eq_true,List.isEmpty_iff] at granted
  obtain ⟨covered,settled⟩ := holds.newest there
  apply holds.put
  apply (holds.open_.fits there).push
  · refine ⟨?_,settled.change granted.1 inside⟩
    intro other absent
    have away : other ≠ id := fun same => absent (same ▸ inside)
    simp only [Work.change,Overlay.set,Function.update_of_ne away]
    exact covered other absent
  · intro u others beside different other member
    have alone := holds.open_.now_apart there beside different alone_empty other member
    have unlocked := others_free granted.2 beside different other member
    exact ⟨alone.1.set (by simpa using unlocked) new,alone.2⟩

theorem Invariant.insert_id (holds : Invariant s) (id : Nat) : Invariant { s with ids := insert id s.ids } := by
  have outside : ∀ other, other ∉ insert id s.ids → other ∉ s.ids := by
    intro other absent inside
    exact absent (mem_insert_of_mem inside)
  refine ⟨fun other absent => holds.covered other (outside other absent),?_,holds.open_.imp ?_⟩
  · apply holds.committed.insert
    intro absent
    simp [Work.view,Work.empty,holds.covered id absent]
  · intro t history there work member sound
    refine ⟨fun other absent => sound.1 other (outside other absent),sound.2.insert ?_⟩
    intro absent
    simp [Work.view,overlaid,sound.1 id absent,holds.covered id absent]

theorem Invariant.applied (holds : Invariant s) (there : s.transactions[t]? = some history) {call : Call}
    {rest : List Call} (first : (now .empty history).calls = call :: rest) {level : StockLevel}
    (applied : syncApplyStock ((Work.view (now .empty history) s.db).levels call.position.key) call = some level)
    (granted : free s.transactions t (fun work => (work.levels call.position.key).isSome) = true) :
    Invariant (s.put t (⟨(now .empty history).movements,
      Overlay.set (now .empty history).levels call.position.key (some level),rest⟩ :: history.tail)) := by
  obtain ⟨covered,settled⟩ := holds.newest there
  apply holds.put
  apply ((holds.open_.fits there).sub fun work inside => List.mem_of_mem_tail inside).push
  · exact ⟨covered,settled.applyStock first applied⟩
  · intro u others beside different other member
    have alone := holds.open_.now_apart there beside different alone_empty other member
    have unlocked := others_free granted beside different other member
    exact ⟨alone.1,alone.2.set (by simpa using unlocked) _⟩

theorem Invariant.commit (holds : Invariant s) (there : s.transactions[t]? = some history)
    (idle : (now .empty history).calls = []) :
    Invariant { s.put t [] with db := Work.view (now .empty history) s.db } := by
  obtain ⟨covered,settled⟩ := holds.newest there
  have emptied := holds.put (t := t) .nil
  refine ⟨fun id absent => ?_,?_,emptied.open_.imp ?_⟩
  · simp [Work.view,overlaid,covered id absent,holds.covered id absent]
  · exact holds.committed.commit holds.committed settled idle (apart_untouched _).symm (apart_untouched _).symm
  · intro u others beside work member sound
    rcases set_cases beside with ⟨rfl,rfl⟩ | ⟨different,beside⟩
    · simp at member
    · have alone := holds.open_.now_apart there beside (Ne.symm different) alone_empty work member
      exact ⟨sound.1,sound.2.commit holds.committed settled idle alone.1.symm alone.2.symm⟩

theorem Invariant.step {a : Action} (holds : Invariant s) (taken : next s a = some after) : Invariant after := by
  cases a with
  | begin_ =>
    cases taken
    exact ⟨holds.covered,holds.committed,holds.open_.append⟩
  | insert t id row =>
    simp only [next,Option.bind_eq_bind,Option.bind_eq_some_iff,Option.ite_none_right_eq_some,Bool.and_eq_true,
      Option.some.injEq] at taken
    obtain ⟨history,there,⟨⟨granted,absent⟩,_⟩,rfl⟩ := taken
    have changed := (holds.insert_id id).change there granted (mem_insert_self id s.ids) (some row)
    rw [Option.isNone_iff_eq_none.mp absent] at changed
    exact changed
  | update t id row =>
    simp only [next,Option.bind_eq_bind,Option.bind_eq_some_iff,Option.ite_none_right_eq_some,Bool.and_eq_true,
      Option.some.injEq] at taken
    obtain ⟨history,there,old,found,⟨granted,_⟩,rfl⟩ := taken
    exact found ▸ holds.change there granted (holds.seen there found) (some row)
  | delete t id =>
    simp only [next,Option.bind_eq_bind,Option.bind_eq_some_iff,Option.ite_none_right_eq_some,Option.some.injEq] at taken
    obtain ⟨history,there,old,found,granted,rfl⟩ := taken
    exact found ▸ holds.change there granted (holds.seen there found) none
  | applyStock t =>
    simp only [next,Option.bind_eq_bind,Option.bind_eq_some_iff,Option.ite_none_right_eq_some,Option.some.injEq] at taken
    obtain ⟨history,there,call,first,level,applied,granted,rfl⟩ := taken
    exact holds.applied there (List.eq_cons_of_mem_head? (by simpa using first)) applied granted
  | rollback t statements =>
    simp only [next,Option.bind_eq_bind,Option.bind_eq_some_iff,Option.some.injEq] at taken
    obtain ⟨history,there,rfl⟩ := taken
    exact holds.put ((holds.open_.fits there).sub fun work inside => List.mem_of_mem_drop inside)
  | commit t =>
    simp only [next,Option.bind_eq_bind,Option.bind_eq_some_iff,Option.ite_none_right_eq_some,Option.some.injEq,
      List.isEmpty_iff] at taken
    obtain ⟨history,there,idle,rfl⟩ := taken
    exact holds.commit there idle

theorem movementsAt_sum (position : Position) : liveQty ids db position =
    ∑ id ∈ movementsAt ids db position, quantity (db.movements id) := by
  rw [liveQty,movementsAt,sum_filter]
  apply sum_congr rfl
  intro id _
  cases found : db.movements id with
  | none => simp [contribution]
  | some movement =>
    by_cases place : movement.position = position <;> by_cases live : movement.deletedAt = none <;>
      simp [contribution,quantity,StockMovement.liveQty,place,live]

theorem Backfilled.agrees (backfilled : Backfilled ids db) (position : Position) :
    levelQty db position = liveQty ids db position := by
  rw [movementsAt_sum]
  by_cases bare : movementsAt ids db position = ∅
  · rw [levelQty,(backfilled.2 position).1 bare,bare]
    rfl
  · obtain ⟨last,found⟩ := (backfilled.2 position).2 bare
    rw [levelQty,found]
    rfl

theorem Initial.invariant (initial : Initial s) : Invariant s := by
  obtain ⟨none_open,backfilled⟩ := initial
  refine ⟨backfilled.1,?_,none_open ▸ .nil⟩
  intro position
  have agrees := backfilled.agrees position
  simpa [Work.view,Work.empty] using agrees

/-- In every reachable state the committed levels agree with the committed live movements, and so does what each
transaction sees once its last statement has run its triggers. -/
theorem stock_levels_agree (s : State) (reached : Reachable Initial (OfNext next) s) (position : Position) :
    levelQty s.db position = liveQty s.ids s.db position ∧
      (∀ id, id ∉ s.ids → s.db.movements id = none) ∧
      ∀ (t : Nat) (history : List Work), s.transactions[t]? = some history → (now .empty history).calls = [] →
        levelQty (Work.view (now .empty history) s.db) position =
          liveQty s.ids (Work.view (now .empty history) s.db) position := by
  have holds : Invariant s := reached.invariant (fun s initial => initial.invariant) fun s a t kept taken => kept.step taken
  refine ⟨?_,holds.covered,?_⟩
  · have committed := holds.committed position
    simpa [Work.view,Work.empty] using committed
  · intro t history there idle
    have settled := (holds.newest there).2 position
    rwa [idle,pending_nil,add_zero] at settled

def emptyState : State := ⟨∅,⟨fun _ => none,fun _ => none⟩,[]⟩

theorem emptyState_initial : Initial emptyState := by
  refine ⟨rfl,fun _ _ => rfl,fun position => ⟨fun _ => rfl,fun some_movement => ?_⟩⟩
  exact absurd rfl some_movement

def shelf : Position := ⟨0,1,5,none⟩

def depot : Position := ⟨0,2,5,some ⟨8,by decide⟩⟩

/-- Two transactions write movements; the second then moves the first one's movement to its own position, with
another quantity, after a rollback of the same attempt. -/
def movedMovement : List Action :=
  [.begin_,.begin_,.insert 0 1 ⟨shelf,50000,10,none⟩,.applyStock 0,.insert 1 2 ⟨depot,30000,11,none⟩,.commit 0,
    .applyStock 1,.update 1 1 ⟨depot,60000,12,none⟩,.applyStock 1,.rollback 1 1,.update 1 1 ⟨depot,40000,12,none⟩,
    .applyStock 1,.applyStock 1,.commit 1]

theorem stock_levels_agree_moved : ∃ s, Reachable Initial (OfNext next) s ∧ levelQty s.db shelf = 0 ∧
    liveQty s.ids s.db shelf = 0 ∧ levelQty s.db depot = 70000 ∧ liveQty s.ids s.db depot = 70000 := by
  obtain ⟨s,reached,levels⟩ := reachable_of_execute next
    (fun s : State => (levelQty s.db shelf,levelQty s.db depot)) movedMovement emptyState_initial
    (show _ = some ((0 : ℤ),(70000 : ℤ)) by decide +kernel)
  simp only [Prod.mk.injEq] at levels
  have atShelf := (stock_levels_agree s reached shelf).1
  have atDepot := (stock_levels_agree s reached depot).1
  exact ⟨s,reached,levels.1,atShelf ▸ levels.1,levels.2,atDepot ▸ levels.2⟩

end StockLevels
