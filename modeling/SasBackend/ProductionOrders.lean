import SasBackend.Semantics.ProductionOrders

/-! A production order under any interleaving of the requests on it: when it is produced once.
-/
namespace ProductionOrders
open RowLocks SasBackend Transition
open Stock (Position BomLine Bom ProductionOrder ProductionStatus round4)

variable {boms : Nat → Option Bom} {s s' : State} {t : Nat} {a : Action}

def ProductionLine.ingredient (line : ProductionLine) : Nat × Nat := (line.bomHeaderId,line.bomLine)

/-- Goods are written together with the completion, and lines only with goods. -/
structure Writes.Sound (writes : Writes) : Prop where
  once : (writes.lines.map ProductionLine.ingredient).Nodup
  goods : ∀ goods ∈ writes.finished, writes.columns.status = some .completed ∧
    ∃ qty, writes.columns.qtyProduced = some qty ∧ round4 qty = goods.qty
  without : writes.finished = none → writes.lines = [] ∧ writes.columns.qtyProduced = none

/-- What has been produced is what the goods and the order's columns say. -/
structure Database.Sound (database : Database) : Prop where
  checked : Checked database.order
  once : (database.lines.map ProductionLine.ingredient).Nodup
  received : database.finished.length ≤ 1
  without : database.finished = [] → database.lines = []
  counted : database.order.qtyProduced = 0 ↔ database.finished = []
  cancelled : database.order.status = .cancelled → database.order.qtyProduced = 0

def Phase.Sound : Phase → Prop
  | .consuming order _ _ todo lines =>
    (lines.map ProductionLine.ingredient ++ todo.map fun entry => (order.bomHeaderId,entry.2)).Nodup
  | .writing writes => writes.Sound
  | .absent | .reading _ | .ended => True

structure Invariant (s : State) : Prop where
  database : s.database.Sound
  phases : ∀ t, (s.phase t).Sound

theorem Database.Sound.inOrder {database : Database} (sound : database.Sound) : InOrder database where
  consumedOnce := sound.once
  receivedOnce := sound.received
  within := sound.checked.2.2
  cancelled closed := by
    have nothing := sound.cancelled closed
    have none_received := sound.counted.mp nothing
    exact ⟨sound.without none_received,none_received,nothing⟩

theorem Database.Sound.write {database : Database} {writes : Writes} (sound : database.Sound) (ok : writes.Sound)
    (accepted : writes.accepted database.order = true)
    (unproduced : writes.closes = true → database.order.qtyProduced = 0) : (database.write writes).Sound := by
  obtain ⟨positive,checked⟩ := Bool.and_eq_true_iff.mp accepted
  cases finished : writes.finished with
  | none =>
    obtain ⟨no_lines,same⟩ := ok.without finished
    have kept : (writes.columns.apply database.order).qtyProduced = database.order.qtyProduced := by
      simp [Columns.apply,same]
    refine ⟨of_decide_eq_true checked,?_,?_,?_,?_,?_⟩
    · simpa [Database.write,no_lines] using sound.once
    · simpa [Database.write,finished] using sound.received
    · simpa [Database.write,finished,no_lines] using sound.without
    · simpa [Database.write,finished,kept] using sound.counted
    · intro closed
      rw [Database.write] at closed ⊢
      rw [kept]
      cases status : writes.columns.status with
      | none => exact sound.cancelled (by simpa [Columns.apply,status] using closed)
      | some status' =>
        have cancels : status' = .cancelled := by simpa [Columns.apply,status] using closed
        exact unproduced (by simp [Writes.closes,status,cancels])
  | some goods =>
    obtain ⟨completes,qty,written,same⟩ := ok.goods goods finished
    have nothing := sound.counted.mp (unproduced (by simp [Writes.closes,finished]))
    have some_goods : 0 < goods.qty := by simpa [finished] using positive
    have stored : (writes.columns.apply database.order).qtyProduced = goods.qty := by
      simp [Columns.apply,written,same]
    refine ⟨of_decide_eq_true checked,?_,?_,?_,?_,?_⟩
    · simpa [Database.write,sound.without nothing] using ok.once
    · simp [Database.write,finished,nothing]
    · simp [Database.write,finished]
    · simp [Database.write,finished,stored,some_goods.ne']
    · intro closed
      simp [Database.write,Columns.apply,completes] at closed

theorem Database.Sound.not_inOrder {database : Database} {writes : Writes} (sound : database.Sound)
    (closes : writes.closes = true) (produced : database.order.qtyProduced ≠ 0) : ¬InOrder (database.write writes) := by
  have received : database.finished ≠ [] := fun nothing => produced (sound.counted.mpr nothing)
  intro inOrder
  cases finished : writes.finished with
  | some goods =>
    have twice := inOrder.receivedOnce
    have once := List.length_pos_iff.mpr received
    simp only [Database.write,finished,Option.toList_some,List.length_append,List.length_singleton] at twice
    omega
  | none =>
    have cancels : writes.columns.status = some .cancelled := by simpa [Writes.closes,finished] using closes
    have nothing := (inOrder.cancelled (by simp [Database.write,Columns.apply,cancels])).2.1
    simp [Database.write,finished,received] at nothing

theorem Writes.sound_update (bomHeaderId : Option Nat) (status : Option ProductionStatus) (qtyToProduce : Option ℚ) :
    (Writes.update ⟨bomHeaderId,status,qtyToProduce,none⟩).Sound where
  once := List.nodup_nil
  goods := by simp [Writes.update]
  without _ := ⟨rfl,rfl⟩

theorem Phase.sound_if {condition : Prop} [Decidable condition] {phase : Phase} (ok : phase.Sound) :
    (if condition then phase else .ended).Sound := by
  split
  · exact ok
  · trivial

theorem read_sound (order : ProductionOrder) (request : Request) : (read boms order request).Sound := by
  cases request with
  | updateProductionOrder bomHeaderId qtyToProduce => exact Phase.sound_if (Writes.sound_update _ _ _)
  | startProductionOrder => exact Phase.sound_if (Writes.sound_update _ _ _)
  | cancelProductionOrder => exact Phase.sound_if (Writes.sound_update _ _ _)
  | completeProductionOrder qtyProduced =>
    apply Phase.sound_if
    split
    · next bom _ =>
      split
      · trivial
      · have indices : (bom.lines.zipIdx.map Prod.snd).Nodup := by
          rw [List.zipIdx_map_snd]
          exact List.nodup_range'
        have distinct := indices.map (Prod.mk_right_injective order.bomHeaderId)
        rw [List.map_map] at distinct
        exact distinct
    · trivial

theorem Invariant.moved (invariant : Invariant s) {phase : Phase} (ok : phase.Sound) (database : s'.database.Sound)
    (moved : s'.phase = Function.update s.phase t phase) : Invariant s' := by
  refine ⟨database,fun u => ?_⟩
  rw [moved]
  by_cases same : u = t
  · subst same
    rwa [Function.update_self]
  · rw [Function.update_of_ne same]
    exact invariant.phases u

theorem Invariant.goto (invariant : Invariant s) {phase : Phase} (ok : phase.Sound) : Invariant (s.goto t phase) :=
  invariant.moved ok invariant.database rfl

theorem Invariant.finish (invariant : Invariant s) : Invariant (s.finish t) :=
  invariant.moved (show Phase.Sound .ended from trivial) invariant.database rfl

theorem Invariant.lock (invariant : Invariant s) {position : Position} {phase : Phase} (ok : phase.Sound)
    (locked : s.lock t position phase = some s') : Invariant s' := by
  unfold State.lock at locked
  split at locked
  · cases locked
    exact invariant.moved ok invariant.database rfl
  · cases locked

/-- What a request writes, it writes in one step. -/
theorem advance_cases (taken : advance boms s t = some s') :
    (∃ writes, s.phase t = .writing writes ∧ writes.accepted s.database.order = true ∧
      s' = { s with database := s.database.write writes }.finish t) ∨
    s'.database = s.database ∧ (Invariant s → Invariant s') := by
  unfold advance at taken
  split at taken
  · next request _ =>
    have ok : (read boms s.database.order request).Sound := read_sound s.database.order request
    split at taken
    · cases taken
      exact .inr ⟨rfl,Invariant.finish⟩
    · cases taken
      exact .inr ⟨rfl,fun invariant => invariant.goto ok⟩
  · next order bom qtyProduced entry todo lines at_ =>
    dsimp only at taken
    split at taken
    · cases taken
      refine .inr ⟨rfl,fun invariant => invariant.goto ?_⟩
      have ok := invariant.phases t
      rw [at_] at ok
      exact ok.sublist (List.Sublist.append_left (List.sublist_cons_self _ _) _)
    · refine .inr ⟨?_,fun invariant => invariant.lock ?_ taken⟩
      · unfold State.lock at taken
        split at taken <;> cases taken
        rfl
      · have ok := invariant.phases t
        rw [at_] at ok
        simpa [Phase.Sound,ProductionLine.ingredient,consumed] using ok
  · next order bom qtyProduced lines at_ =>
    cases taken
    refine .inr ⟨rfl,fun invariant => invariant.goto ?_⟩
    have ok := invariant.phases t
    rw [at_] at ok
    exact ⟨by simpa [Phase.Sound] using ok,fun goods made => by
      cases Option.some.inj made
      exact ⟨rfl,qtyProduced,rfl,rfl⟩,by simp⟩
  · next writes at_ =>
    split at taken
    · next accepted =>
      cases taken
      exact .inl ⟨writes,at_,accepted,rfl⟩
    · cases taken
      exact .inr ⟨rfl,Invariant.finish⟩
  · cases taken
  · cases taken

theorem Invariant.next (invariant : Invariant s) (taken : next boms s a = some s') (unproduced : Unproduced s a) :
    Invariant s' := by
  cases a with
  | begin t request =>
    simp only [ProductionOrders.next] at taken
    split at taken <;> cases taken
    exact invariant.goto trivial
  | fail t =>
    simp only [ProductionOrders.next] at taken
    split at taken <;> cases taken
    exact invariant.finish
  | advance t =>
    rcases advance_cases taken with ⟨writes,at_,accepted,rfl⟩ | ⟨_,kept⟩
    · have ok := invariant.phases t
      rw [at_] at ok
      have written := invariant.database.write ok accepted fun closes => by
        simp only [Unproduced,at_] at unproduced
        exact unproduced ⟨closes,accepted⟩
      exact invariant.moved (show Phase.Sound .ended from trivial) written rfl
    · exact kept invariant

theorem Initial.invariant (initial : Initial s) : Invariant s := by
  obtain ⟨⟨draft,nothing,positive⟩,no_lines,none_received,_,idle⟩ := initial
  refine ⟨⟨⟨positive,nothing.ge,nothing.trans_le positive.le⟩,?_,?_,fun _ => no_lines,?_,?_⟩,fun t => ?_⟩
  · simp [no_lines]
  · simp [none_received]
  · simp [nothing,none_received]
  · simp [nothing]
  · rw [idle t]
    trivial

/-- The states of runs in which every completion and every cancellation finds the order unproduced when it writes. -/
def Reached (boms : Nat → Option Bom) : State → Prop :=
  Reachable Initial (Restricted Unproduced (OfNext (next boms)))

theorem Reached.invariant (reached : Reached boms s) : Invariant s :=
  Reachable.invariant reached (fun _ => Initial.invariant) fun _ _ _ invariant taken => invariant.next taken.2 taken.1

/-- In such runs the order is produced once, and the first write that finds it produced already breaks its order. -/
theorem produced_once (boms : Nat → Option Bom) : (∀ s, Reached boms s → InOrder s.database) ∧
    ∀ s a s', Reached boms s → next boms s a = some s' → ¬Unproduced s a → ¬InOrder s'.database := by
  constructor
  · exact fun s reached => reached.invariant.database.inOrder
  · intro s a s' reached taken overtaken
    cases a with
    | begin t request => exact absurd trivial overtaken
    | fail t => exact absurd trivial overtaken
    | advance t =>
      obtain ⟨writes,at_,⟨closes,accepted⟩,produced⟩ : ∃ writes, s.phase t = .writing writes ∧
          (writes.closes = true ∧ writes.accepted s.database.order = true) ∧ s.database.order.qtyProduced ≠ 0 := by
        simp only [Unproduced] at overtaken
        split at overtaken
        · next writes at_ => exact ⟨writes,at_,Classical.not_imp.mp overtaken⟩
        · exact absurd trivial overtaken
      have written : s'.database = s.database.write writes := by
        simp only [next,advance,at_,accepted,if_true,Option.some.injEq] at taken
        rw [← taken]
        rfl
      rw [written]
      exact reached.invariant.database.not_inOrder closes produced

/-- An order for so many pieces, as it is created. -/
def drafted (qtyToProduce : ℚ) : State :=
  ⟨⟨⟨1,1,.draft,qtyToProduce,0⟩,[],[]⟩,[],fun _ => .absent⟩

theorem drafted_initial (qtyToProduce : ℚ) (positive : 0 < qtyToProduce) : Initial (drafted qtyToProduce) :=
  ⟨⟨rfl,rfl,positive⟩,rfl,rfl,rfl,fun _ => rfl⟩

/-- One piece of product 1 takes one of product 2. -/
def simpleBom (_ : Nat) : Option Bom := some ⟨1,none,1,[⟨2,none,1,0⟩]⟩

/-- A completion and a cancellation that comes too late leave the order produced once. -/
theorem produced_once_completed : ∃ s : State, s.database.finished.length = 1 ∧ InOrder s.database := by
  obtain ⟨s,reached,one⟩ : ∃ s, Reached simpleBom s ∧ s.database.finished.length = 1 :=
    reachable_of_execute_within (next simpleBom) (·.database.finished.length)
      [.begin 0 .startProductionOrder,.advance 0,.advance 0,.begin 1 (.completeProductionOrder 10),
        .advance 1,.advance 1,.advance 1,.advance 1,.begin 2 .cancelProductionOrder,.advance 2]
      (drafted_initial 10 (by norm_num)) (by decide +kernel)
  exact ⟨s,one,(produced_once simpleBom).1 s reached⟩

/-- Two completions that both read the order in progress both produce it. -/
theorem produced_twice : ¬∀ boms s, Reachable Initial (OfNext (next boms)) s → InOrder s.database := by
  intro always
  obtain ⟨s,reached,twice⟩ : ∃ s, Reachable Initial (OfNext (next simpleBom)) s ∧ s.database.finished.length = 2 :=
    reachable_of_execute (next simpleBom) (·.database.finished.length)
      [.begin 0 .startProductionOrder,.advance 0,.advance 0,.begin 1 (.completeProductionOrder 10),
        .begin 2 (.completeProductionOrder 10),.advance 1,.advance 2,.advance 1,.advance 1,.advance 1,.advance 2,.advance 2,
        .advance 2] (drafted_initial 10 (by norm_num)) (by decide +kernel)
  have once := (always simpleBom s reached).receivedOnce
  rw [twice] at once
  omega

end ProductionOrders
