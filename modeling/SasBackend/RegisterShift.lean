import Mathlib.Algebra.Group.Submonoid.BigOperators
import SasBackend.Semantics.RegisterShift

/-! The totals of a closed shift against its register transactions.
Whoever can change the sum after the close holds a lock the close waits for, except a service that only read
the shift, or did not look at it, and inserts its first row after the close.
-/
namespace RegisterShift
open RowLocks SasBackend Transition

variable {s u : State} {t : Nat}

/-- What a transaction adds to the expected cash. -/
def cashEffect (tx : Transaction) : ℚ :=
  match tx.txType, tx.paymentMethod with
  | .sale, .cash => tx.amount
  | .saleReturn, .cash => -tx.amount
  | .cashIn, _ => tx.amount
  | .cashOut, _ => -tx.amount
  | .expense, .cash => -tx.amount
  | _, _ => 0

def cash (transactions : List Transaction) : ℚ := (transactions.map cashEffect).sum

theorem sumAmounts_cons (tx : Transaction) (rest : List Transaction) (txType : RegisterTxType)
    (paymentMethod : Option PaymentMethod) :
    sumAmounts (tx :: rest) txType paymentMethod =
      (if tx.txType = txType ∧ (paymentMethod = none ∨ paymentMethod = some tx.paymentMethod) then tx.amount else 0) +
        sumAmounts rest txType paymentMethod := by
  unfold sumAmounts
  rw [List.filter_cons]
  split <;> split <;> simp_all

theorem calculateExpectedCash_eq (shift : Shift) (transactions : List Transaction) :
    calculateExpectedCash shift transactions = shift.openingFloat + cash transactions := by
  induction transactions with
  | nil => simp [calculateExpectedCash,sumAmounts,cash]
  | cons tx rest induction =>
    have split : cash (tx :: rest) = cashEffect tx + cash rest := List.sum_cons
    rw [split,← add_left_comm,← induction]
    unfold calculateExpectedCash
    simp only [sumAmounts_cons]
    obtain ⟨txType,paymentMethod,amount⟩ := tx
    cases txType <;> cases paymentMethod <;> simp [cashEffect] <;> ring

theorem cash_append (first second : List Transaction) : cash (first ++ second) = cash first + cash second := by
  rw [cash,List.map_append,List.sum_append]
  rfl

theorem cash_closingCount (actualCash : ℚ) : cash (closingCount actualCash) = 0 := by
  unfold closingCount
  split <;> simp [cash,cashEffect,insertTransaction]

/-- Stored amounts have the scale of their column. -/
def Scaled (transactions : List Transaction) : Prop := ∀ tx ∈ transactions, tx.amount ∈ Decimal.grid 2

theorem Scaled.append {first second : List Transaction} (left : Scaled first) (right : Scaled second) :
    Scaled (first ++ second) := by
  intro tx member
  exact (List.mem_append.mp member).elim (left tx) (right tx)

theorem scaled_insert (tx : Transaction) : Scaled [insertTransaction tx] := by
  intro other member
  obtain rfl := List.mem_singleton.mp member
  exact Decimal.quantize_mem_grid 2 tx.amount

theorem scaled_closingCount (actualCash : ℚ) : Scaled (closingCount actualCash) := by
  unfold closingCount
  split
  · exact scaled_insert _
  · exact nofun

theorem cashEffect_mem_grid {tx : Transaction} (scaled : tx.amount ∈ Decimal.grid 2) :
    cashEffect tx ∈ Decimal.grid 2 := by
  unfold cashEffect
  split
  all_goals first | exact scaled | exact neg_mem scaled | exact zero_mem _

theorem Scaled.cash {transactions : List Transaction} (scaled : Scaled transactions) :
    cash transactions ∈ Decimal.grid 2 := by
  refine list_sum_mem fun effect member => ?_
  obtain ⟨tx,listed,rfl⟩ := List.mem_map.mp member
  exact cashEffect_mem_grid (scaled tx listed)

theorem money_of_mem {q : ℚ} (inside : q ∈ Decimal.grid 2) : money q = q := Decimal.quantize_of_mem_grid inside

/-- The columns of the shift and of its transactions. -/
structure Stored (s : State) : Prop where
  openingFloat : ∀ shift ∈ s.versions, shift.openingFloat = s.shift.openingFloat
  float : s.shift.openingFloat ∈ Decimal.grid 2
  actual : ∀ actual, s.shift.actualCash = some actual → actual ∈ Decimal.grid 2
  scaled : Scaled s.transactions

def Holds (s : State) (t : Nat) (mode : Mode) : Prop := ⟨t,(),mode⟩ ∈ s.locks

/-- What a transaction relies on at each point of its run. -/
def Position (s : State) (t : Nat) : Phase → Prop
  | .absent | .ended => True
  | .starting access => ∀ user canManageShifts actualCash, access = .close user canManageShifts actualCash →
      actualCash ∈ Decimal.grid 2
  | .posting _ inserted => Holds s t .noKeyUpdate ∧ s.shift.status = .opened ∧ Scaled inserted
  | .postingUnlocked _ inserted => (inserted ≠ [] → Holds s t .keyShare) ∧
      (s.shift.status = .closed → cash inserted = 0) ∧ Scaled inserted
  | .replaying shift _ inserted => Holds s t .noKeyUpdate ∧ shift = s.shift ∧ Scaled inserted
  | .refreshing shift inserted expected => Holds s t .noKeyUpdate ∧ shift = s.shift ∧ Scaled inserted ∧
      s.shift.status = .closed ∧ expected = s.shift.openingFloat + (cash s.transactions + cash inserted)
  | .loading shift actualCash => Holds s t .update ∧ shift.openingFloat = s.shift.openingFloat ∧
      actualCash ∈ Decimal.grid 2
  | .closing actualCash expected => Holds s t .update ∧ actualCash ∈ Decimal.grid 2 ∧
      expected = s.shift.openingFloat + cash s.transactions

structure Invariant (s : State) : Prop where
  settled : Settled s
  stored : Stored s
  current : s.shift ∈ s.versions
  compatible : Compatible s.locks
  position : ∀ t, Position s t (s.phase t)

/-- What a step of another transaction leaves to `t`. -/
structure Keeps (t : Nat) (s u : State) : Prop where
  locks : ∀ mode, Holds s t mode → Holds u t mode
  shift : Holds s t .noKeyUpdate ∨ Holds s t .update → u.shift = s.shift
  status : Holds s t .keyShare → u.shift.status = s.shift.status
  cash : Holds s t .noKeyUpdate → s.shift.status = .closed → cash u.transactions = cash s.transactions
  transactions : Holds s t .update → u.transactions = s.transactions

theorem Position.keep {phase : Phase} (position : Position s t phase) (keeps : Keeps t s u) :
    Position u t phase := by
  cases phase with
  | absent | ended => trivial
  | starting access => exact position
  | posting todo inserted =>
    obtain ⟨lock,opened,scaled⟩ := position
    exact ⟨keeps.locks _ lock,keeps.shift (.inl lock) ▸ opened,scaled⟩
  | postingUnlocked todo inserted =>
    obtain ⟨lock,zero,scaled⟩ := position
    refine ⟨fun some_ => keeps.locks _ (lock some_),fun gone => ?_,scaled⟩
    by_cases none_ : inserted = []
    · rw [none_]
      rfl
    · rw [keeps.status (lock none_)] at gone
      exact zero gone
  | replaying shift todo inserted =>
    obtain ⟨lock,same,scaled⟩ := position
    exact ⟨keeps.locks _ lock,same.trans (keeps.shift (.inl lock)).symm,scaled⟩
  | refreshing shift inserted expected =>
    obtain ⟨lock,same,scaled,gone,equal⟩ := position
    have kept := keeps.shift (.inl lock)
    refine ⟨keeps.locks _ lock,same.trans kept.symm,scaled,kept ▸ gone,?_⟩
    rw [kept,keeps.cash lock gone]
    exact equal
  | loading shift actualCash =>
    obtain ⟨lock,float,scaled⟩ := position
    exact ⟨keeps.locks _ lock,by rw [keeps.shift (.inr lock),float],scaled⟩
  | closing actualCash expected =>
    obtain ⟨lock,scaled,equal⟩ := position
    refine ⟨keeps.locks _ lock,scaled,?_⟩
    rw [keeps.shift (.inr lock),keeps.transactions lock]
    exact equal

/-- What the commit of `t` does to the shift and its transactions, seen by those who hold a lock. -/
structure Quiet (s : State) (t : Nat) (shift : Shift) (inserted : List Transaction) : Prop where
  locked : ∀ other, other ≠ t → Holds s other .noKeyUpdate →
    shift = s.shift ∧ (s.shift.status = .closed → cash inserted = 0)
  closing : ∀ other, other ≠ t → Holds s other .update → shift = s.shift ∧ inserted = []
  shared : ∀ other, other ≠ t → Holds s other .keyShare → shift.status = s.shift.status

private theorem Quiet.keeps {shift : Shift} {inserted : List Transaction} {other : Nat}
    (quiet : Quiet s t shift inserted) (different : other ≠ t) : Keeps other s (s.commit t shift inserted) where
  locks mode lock := mem_releaseAll.mpr ⟨lock,different⟩
  shift lock := by
    rcases lock with lock | lock
    · exact (quiet.locked other different lock).1
    · exact (quiet.closing other different lock).1
  status := quiet.shared other different
  cash lock gone := by
    change RegisterShift.cash (s.transactions ++ inserted) = _
    rw [cash_append,(quiet.locked other different lock).2 gone,add_zero]
  transactions lock := by
    change s.transactions ++ inserted = _
    rw [(quiet.closing other different lock).2,List.append_nil]

private theorem Invariant.move (locks : List (Held Unit)) {phase : Phase} (invariant : Invariant s)
    (compatible : Compatible locks) (kept : ∀ h ∈ s.locks, h.tx ≠ t → h ∈ locks)
    (position : Position ({ s with locks := locks }.goto t phase) t phase) :
    Invariant ({ s with locks := locks }.goto t phase) := by
  refine ⟨invariant.settled,⟨invariant.stored.1,invariant.stored.2,invariant.stored.3,invariant.stored.4⟩,invariant.current,
    compatible,fun other => ?_⟩
  by_cases same : other = t
  · rw [same]
    simpa [State.goto] using position
  · have place : ({ s with locks := locks }.goto t phase).phase other = s.phase other := by
      simp [State.goto,same]
    rw [place]
    refine (invariant.position other).keep ⟨fun mode lock => kept _ lock same,?_,?_,?_,?_⟩
    all_goals intros; rfl

private theorem Invariant.finish (invariant : Invariant s) (t : Nat) : Invariant (s.finish t) := by
  refine invariant.move _ (invariant.compatible.releaseAll t) (fun h member other => ?_) trivial
  exact mem_releaseAll.mpr ⟨member,other⟩

private theorem Invariant.goto {phase : Phase} (invariant : Invariant s) (position : Position s t phase) :
    Invariant (s.goto t phase) := by
  refine invariant.move s.locks invariant.compatible (fun _ member _ => member) (position.keep ?_)
  constructor <;> intros <;> first | rfl | assumption

private theorem Invariant.lock {mode : Mode} {phase : Phase} (invariant : Invariant s)
    (locked : s.lock t mode phase = some u)
    (position : ∀ locks, ⟨t,(),mode⟩ ∈ locks → (∀ h ∈ s.locks, h ∈ locks) →
      Position ({ s with locks := locks }.goto t phase) t phase) : Invariant u := by
  rw [State.lock] at locked
  split at locked
  · next granted =>
    cases locked
    have mine := (mem_acquire granted (h := ⟨t,(),mode⟩)).mpr (.inl rfl)
    have kept : ∀ h ∈ s.locks, h ∈ acquire s.locks t () mode := fun h member => (mem_acquire granted).mpr (.inr member)
    exact invariant.move _ (invariant.compatible.acquire t () mode) (fun h member _ => kept h member)
      (position _ mine kept)
  · cases locked

private theorem Invariant.commit {shift : Shift} {inserted : List Transaction} (invariant : Invariant s)
    (quiet : Quiet s t shift inserted) (scaled : Scaled inserted) (float : shift.openingFloat = s.shift.openingFloat)
    (actual : ∀ actual, shift.actualCash = some actual → actual ∈ Decimal.grid 2)
    (settled : Settled (s.commit t shift inserted)) : Invariant (s.commit t shift inserted) := by
  refine ⟨settled,⟨fun version member => ?_,?_,actual,invariant.stored.scaled.append scaled⟩,List.mem_cons_self,
    invariant.compatible.releaseAll t,fun other => ?_⟩
  · change _ = shift.openingFloat
    rcases List.mem_cons.mp member with rfl | older
    · rfl
    · rw [float,invariant.stored.openingFloat version older]
  · change shift.openingFloat ∈ _
    rw [float]
    exact invariant.stored.float
  · by_cases same : other = t
    · simp [State.commit,State.finish,State.goto,same,Position]
    · have place : (s.commit t shift inserted).phase other = s.phase other := by
        simp [State.commit,State.finish,State.goto,same]
      rw [place]
      exact (invariant.position other).keep (quiet.keeps same)

/-- Recorded cash has the scale of its column, a replayed op works with the shift's current row, and a service
that holds no lock inserts a transaction that moves cash only while the shift is open. -/
def sound (s : State) : Action → Bool
  | .begin _ request => match request.access with
    | .close _ _ actualCash => actualCash ∈ Decimal.grid 2
    | _ => true
  | .advance t held => match s.phase t with
    | .starting (.lockShift _ _ _) => held.all (· = s.shift)
    | .postingUnlocked (tx :: _) _ => s.shift.status = .opened || cashEffect (insertTransaction tx) = 0
    | _ => true
  | .fail _ => true

private theorem scaled_nil : Scaled [] := nofun

private theorem float_of_held (invariant : Invariant s) {held : Option Shift}
    (version : held.all (s.versions.contains ·) = true) :
    (held.getD s.shift).openingFloat = s.shift.openingFloat := by
  cases held with
  | none => rfl
  | some shift => exact invariant.stored.openingFloat shift (by simpa using version)

theorem Invariant.start {access : Access} {held : Option Shift} (invariant : Invariant s)
    (position : Position s t (.starting access)) (version : held.all (s.versions.contains ·) = true)
    (fresh : ∀ user branchId postings, access = .lockShift user branchId postings → held.all (· = s.shift) = true)
    (stepped : start s t held access = some u) : Invariant u := by
  cases access with
  | requireCallerShift user branchId postings =>
    rw [RegisterShift.start] at stepped
    split at stepped
    · next accepted =>
      simp only [Bool.and_eq_true,decide_eq_true_eq] at accepted
      exact invariant.lock stepped fun locks mine kept => ⟨mine,accepted.1.1,scaled_nil⟩
    · cases stepped
      exact invariant.finish t
  | verifyOpenRegisterShift postings =>
    rw [RegisterShift.start] at stepped
    split at stepped <;> cases stepped
    · exact invariant.goto ⟨fun some_ => absurd rfl some_,fun _ => rfl,scaled_nil⟩
    · exact invariant.finish t
  | activeShiftForBranch branchId postings =>
    rw [RegisterShift.start] at stepped
    split at stepped <;> cases stepped
    · exact invariant.goto ⟨fun some_ => absurd rfl some_,fun _ => rfl,scaled_nil⟩
    · exact invariant.finish t
  | notChecked postings =>
    cases stepped
    exact invariant.goto ⟨fun some_ => absurd rfl some_,fun _ => rfl,scaled_nil⟩
  | lockShift user branchId postings =>
    have current : held.getD s.shift = s.shift := by
      cases held with
      | none => rfl
      | some shift => simpa using fresh user branchId postings rfl
    rw [RegisterShift.start] at stepped
    split at stepped
    · exact invariant.lock stepped fun locks mine kept => ⟨mine,current,scaled_nil⟩
    · cases stepped
      exact invariant.finish t
  | close user canManageShifts actualCash =>
    rw [RegisterShift.start] at stepped
    split at stepped
    · refine invariant.lock stepped fun locks mine kept => ⟨mine,float_of_held invariant version,?_⟩
      exact position user canManageShifts actualCash rfl
    · cases stepped
      exact invariant.finish t

private theorem settled_commit {shift : Shift} {inserted : List Transaction} :
    Settled (s.commit t shift inserted) ↔ (shift.status = .closed →
      shift.expectedCash = some (calculateExpectedCash shift (s.transactions ++ inserted)) ∧
      ∃ actual, shift.actualCash = some actual ∧
        shift.cashDifference = some (actual - calculateExpectedCash shift (s.transactions ++ inserted))) := Iff.rfl

private theorem Settled.append (settled : Settled s) {inserted : List Transaction}
    (zero : s.shift.status = .closed → cash inserted = 0) : Settled (s.commit t s.shift inserted) := by
  rw [settled_commit]
  intro gone
  obtain ⟨expected,actual,recorded,difference⟩ := settled gone
  have same : calculateExpectedCash s.shift (s.transactions ++ inserted) =
      calculateExpectedCash s.shift s.transactions := by
    rw [calculateExpectedCash_eq,calculateExpectedCash_eq,cash_append,zero gone,add_zero]
  rw [same]
  exact ⟨expected,actual,recorded,difference⟩

private theorem quiet_of_locked {inserted : List Transaction} {shift : Shift} (compatible : Compatible s.locks)
    (lock : Holds s t .noKeyUpdate) (status : shift.status = s.shift.status) : Quiet s t shift inserted where
  locked _ different mine := absurd (compatible.same_tx mine lock rfl rfl) different
  closing _ different mine := absurd (compatible.same_tx mine lock rfl rfl) different
  shared _ _ _ := status

private theorem Invariant.commitPosted {todo inserted : List Transaction} (invariant : Invariant s)
    (position : Position s t (.posting todo inserted)) : Invariant (s.commit t s.shift inserted) := by
  obtain ⟨lock,opened,scaled⟩ := position
  refine invariant.commit (quiet_of_locked invariant.compatible lock rfl) scaled rfl invariant.stored.actual
    (invariant.settled.append ?_)
  intro gone
  rw [opened] at gone
  cases gone

private theorem Invariant.commitUnlocked {todo inserted : List Transaction} (invariant : Invariant s)
    (position : Position s t (.postingUnlocked todo inserted)) : Invariant (s.commit t s.shift inserted) := by
  obtain ⟨lock,zero,scaled⟩ := position
  refine invariant.commit ⟨fun _ _ _ => ⟨rfl,zero⟩,fun other different mine => ⟨rfl,?_⟩,fun _ _ _ => rfl⟩ scaled rfl
    invariant.stored.actual (invariant.settled.append zero)
  by_contra some_
  exact different (invariant.compatible.same_tx mine (lock some_) rfl rfl)

private theorem Invariant.commitReplayed {shift : Shift} {todo inserted : List Transaction} (invariant : Invariant s)
    (position : Position s t (.replaying shift todo inserted)) (opened : shift.status ≠ .closed) :
    Invariant (s.commit t s.shift inserted) := by
  obtain ⟨lock,rfl,scaled⟩ := position
  exact invariant.commit (quiet_of_locked invariant.compatible lock rfl) scaled rfl
    invariant.stored.actual (invariant.settled.append fun gone => absurd gone opened)

private theorem Invariant.commitRefreshed {shift : Shift} {inserted : List Transaction} {expected : ℚ}
    (invariant : Invariant s) (position : Position s t (.refreshing shift inserted expected)) :
    Invariant (s.commit t (refreshed s.shift shift expected) inserted) := by
  obtain ⟨lock,rfl,scaled,gone,equal⟩ := position
  refine invariant.commit (quiet_of_locked invariant.compatible lock rfl) scaled rfl invariant.stored.actual
    (settled_commit.mpr fun _ => ?_)
  obtain ⟨-,actual,recorded,difference⟩ := invariant.settled gone
  have total : calculateExpectedCash (refreshed s.shift s.shift expected) (s.transactions ++ inserted) = expected := by
    rw [calculateExpectedCash_eq,cash_append,equal]
    rfl
  have inside : expected ∈ Decimal.grid 2 := by
    rw [equal,← cash_append]
    exact add_mem invariant.stored.float (invariant.stored.scaled.append scaled).cash
  rw [total]
  refine ⟨congrArg some (money_of_mem inside),actual,recorded,?_⟩
  simp only [refreshed,recorded,Option.elim_some]
  rw [money_of_mem (sub_mem (invariant.stored.actual actual recorded) inside)]

private theorem Invariant.commitClosed {actualCash expected : ℚ} (invariant : Invariant s)
    (position : Position s t (.closing actualCash expected)) :
    Invariant (s.commit t (closed s.shift actualCash expected) (closingCount actualCash)) := by
  obtain ⟨lock,actual,equal⟩ := position
  refine invariant.commit ⟨fun other different mine => ?_,fun other different mine => ?_,fun other different mine => ?_⟩
    (scaled_closingCount actualCash) rfl (fun recorded same => ?_) (settled_commit.mpr fun _ => ?_)
  · exact absurd (invariant.compatible.same_tx mine lock rfl rfl) different
  · exact absurd (invariant.compatible.same_tx mine lock rfl rfl) different
  · exact absurd (invariant.compatible.same_tx mine lock rfl rfl) different
  · obtain rfl := Option.some.inj same
    exact Decimal.quantize_mem_grid 2 actualCash
  · have inside : expected ∈ Decimal.grid 2 := by
      rw [equal]
      exact add_mem invariant.stored.float invariant.stored.scaled.cash
    have total : calculateExpectedCash (closed s.shift actualCash expected) (s.transactions ++ closingCount actualCash) =
        expected := by
      rw [calculateExpectedCash_eq,cash_append,cash_closingCount,add_zero,equal]
      rfl
    rw [total]
    refine ⟨congrArg some (money_of_mem inside),actualCash,congrArg some (money_of_mem actual),?_⟩
    exact congrArg some (money_of_mem (sub_mem actual inside))

private theorem Position.inserted {tx : Transaction} {rest inserted : List Transaction} {locks : List (Held Unit)}
    {phase : Phase} (position : Position s t (.postingUnlocked (tx :: rest) inserted))
    (allowed : s.shift.status = .opened ∨ cashEffect (insertTransaction tx) = 0) (mine : ⟨t,(),.keyShare⟩ ∈ locks) :
    Position ({ s with locks := locks }.goto t phase) t
      (.postingUnlocked rest (inserted ++ [insertTransaction tx])) := by
  obtain ⟨-,zero,scaled⟩ := position
  refine ⟨fun _ => mine,fun gone => ?_,scaled.append (scaled_insert tx)⟩
  change s.shift.status = .closed at gone
  rcases allowed with opened | none_
  · rw [gone] at opened
    cases opened
  · rw [cash_append,zero gone,zero_add,cash,List.map_singleton,List.sum_singleton,none_]

theorem Invariant.advance {held : Option Shift} (invariant : Invariant s)
    (version : held.all (s.versions.contains ·) = true) (allowed : sound s (.advance t held) = true)
    (stepped : advance s t held = some u) : Invariant u := by
  have position := invariant.position t
  unfold RegisterShift.advance at stepped
  rw [sound] at allowed
  split at stepped <;> rename_i at_ <;> rw [at_] at position allowed
  case h_1 =>
    refine invariant.start position version (fun user branchId postings same => ?_) stepped
    rw [same] at allowed
    exact allowed
  case h_2 tx rest inserted =>
    obtain ⟨lock,opened,scaled⟩ := position
    exact invariant.lock stepped fun locks mine kept => ⟨kept _ lock,opened,scaled.append (scaled_insert tx)⟩
  case h_3 =>
    cases stepped
    exact invariant.commitPosted position
  case h_4 tx rest inserted =>
    have fine : s.shift.status = .opened ∨ cashEffect (insertTransaction tx) = 0 := by simpa using allowed
    exact invariant.lock stepped fun locks mine kept => position.inserted fine mine
  case h_5 =>
    cases stepped
    exact invariant.commitUnlocked position
  case h_6 shift tx rest inserted =>
    obtain ⟨lock,same,scaled⟩ := position
    exact invariant.lock stepped fun locks mine kept => ⟨kept _ lock,same,scaled.append (scaled_insert tx)⟩
  case h_7 shift inserted =>
    split at stepped <;> cases stepped
    · next gone =>
      obtain ⟨lock,rfl,scaled⟩ := position
      refine invariant.goto ⟨lock,rfl,scaled,gone,?_⟩
      rw [calculateExpectedCash_eq,cash_append]
    · next opened => exact invariant.commitReplayed position opened
  case h_8 =>
    cases stepped
    exact invariant.commitRefreshed position
  case h_9 shift actualCash =>
    cases stepped
    obtain ⟨lock,float,actual⟩ := position
    refine invariant.goto ⟨lock,actual,?_⟩
    rw [calculateExpectedCash_eq,float]
  case h_10 =>
    cases stepped
    exact invariant.commitClosed position
  all_goals cases stepped

theorem Invariant.next {action : Action} (invariant : Invariant s) (allowed : sound s action = true)
    (stepped : next s action = some u) : Invariant u := by
  cases action with
  | begin t request =>
    rw [RegisterShift.next] at stepped
    split at stepped <;> cases stepped
    refine invariant.goto fun user canManageShifts actualCash same => ?_
    rw [sound,same] at allowed
    exact of_decide_eq_true allowed
  | advance t held =>
    rw [RegisterShift.next] at stepped
    split at stepped
    · next version => exact invariant.advance version allowed stepped
    · cases stepped
  | fail t =>
    rw [RegisterShift.next] at stepped
    split at stepped <;> cases stepped
    exact invariant.finish t

theorem Invariant.initial (start : Initial s) : Invariant s := by
  obtain ⟨openedBy,branchId,openingFloat,rfl⟩ := start
  refine ⟨nofun,⟨fun shift member => ?_,Decimal.quantize_mem_grid 2 openingFloat,nofun,?_⟩,List.mem_cons_self,
    compatible_nil,fun _ => trivial⟩
  · rw [List.mem_singleton.mp member]
    rfl
  · unfold openShift
    dsimp only
    split
    · exact scaled_insert _
    · exact scaled_nil

/-- The totals of a closed shift stay those of its transactions. -/
theorem closed_totals_settled
    (reached : Reachable Initial (OfNext (within sound next)) s) : Settled s := by
  have invariant : Invariant s := by
    refine reached.invariant (fun _ => Invariant.initial) fun u action w invariant taken => ?_
    obtain ⟨allowed,stepped⟩ := within_eq_some.mp taken
    exact invariant.next allowed stepped
  exact invariant.settled

private theorem opened_initial : Initial (openShift 1 1 100) := ⟨1,1,100,rfl⟩

private def closeOf (t : Nat) (actualCash : ℚ) : List Action :=
  [.begin t (.closeShift 1 false actualCash),.advance t none,.advance t none,.advance t none]

private def totals (s : State) : ShiftStatus × Option ℚ × Option ℚ × ℚ :=
  (s.shift.status,s.shift.expectedCash,s.shift.cashDifference,calculateExpectedCash s.shift s.transactions)

/-- A sale synced after the close is added to the recorded totals. -/
theorem closed_totals_after_sync : ∃ s, totals s = (.closed,some 150,some (-50),150) ∧ Settled s := by
  obtain ⟨s,reached,view⟩ := reachable_of_execute (within sound next) totals
    (closeOf 0 100 ++ [.begin 1 (.saleCreateOp 1 1 [⟨.cash,50⟩])] ++ List.replicate 4 (.advance 1 none))
    opened_initial (b := (.closed,some 150,some (-50),150)) (by decide +kernel)
  exact ⟨s,view,closed_totals_settled reached⟩

/-- Cancelling a partly paid sale after its shift was closed refunds from the closed shift. -/
theorem cancel_after_close : ∃ s, Reachable Initial (OfNext next) s ∧
    totals s = (.closed,some 150,some 0,100) ∧ ¬Settled s := by
  obtain ⟨s,reached,view⟩ := reachable_of_execute next totals
    ([.begin 0 (.createSale 1 1 [⟨.cash,50⟩]),.advance 0 none,.advance 0 none,.advance 0 none] ++ closeOf 1 150 ++
      [.begin 2 (.cancelSale [⟨.cash,50,.completed,false⟩]),.advance 2 none,.advance 2 none,.advance 2 none])
    opened_initial (b := (.closed,some 150,some 0,100)) (by decide +kernel)
  refine ⟨s,reached,view,fun settled => ?_⟩
  have status : s.shift.status = .closed := congrArg Prod.fst view
  have expected : s.shift.expectedCash = some 150 := congrArg (·.2.1) view
  have sum : calculateExpectedCash s.shift s.transactions = 100 := congrArg (·.2.2.2) view
  have same := (settled status).1
  rw [expected,sum] at same
  exact absurd same (by decide +kernel)

end RegisterShift
