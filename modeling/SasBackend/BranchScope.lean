import SasBackend.Library.Outcome
import SasBackend.Semantics.BranchScope

/-! Writes of a restricted user stay on the user's branches unless a request strays.
Every handler writes for one branch: that of the body, or of the row the request names. A guard that found the row
has compared its branch, which no write changes; the payments of a customer have no guard.
-/
namespace BranchScope
open SasBackend Pricing Outcome Transition

variable {db after : Database} {user : User} {branches : List Nat} {branchId shiftId saleId : Nat} {writes : List Write}
  {change : Write}

/-- Rows keep their place and their branch. -/
def SameBranch {α : Type} (branchId : α → Nat) (rows later : List α) : Prop :=
  ∀ (id : Nat) (row : α), rows[id]? = some row → ∃ now, later[id]? = some now ∧ branchId now = branchId row

structure Grows (db after : Database) : Prop where
  cashRegisters : SameBranch CashRegister.branchId db.cashRegisters after.cashRegisters
  shifts : SameBranch RegisterShift.branchId db.shifts after.shifts
  sales : SameBranch Sale.branchId db.sales after.sales
  expenses : SameBranch Expense.branchId db.expenses after.expenses

section Rows
variable {α : Type} {place : α → Nat} {rows later : List α} {row : α} {id : Nat}

theorem SameBranch.refl : SameBranch place rows rows := fun _ row found => ⟨row,found,rfl⟩

theorem SameBranch.trans {last : List α} (first : SameBranch place rows later) (second : SameBranch place later last) :
    SameBranch place rows last := by
  intro id row found
  obtain ⟨now,there,same⟩ := first id row found
  obtain ⟨then_,at_,equal⟩ := second id now there
  exact ⟨then_,at_,equal.trans same⟩

theorem SameBranch.append : SameBranch place rows (rows ++ [row]) := by
  intro id old found
  exact ⟨old,by rw [List.getElem?_append_left (List.getElem?_eq_some_iff.mp found).1,found],rfl⟩

theorem SameBranch.set {old : α} (found : rows[id]? = some old) (same : place row = place old) :
    SameBranch place rows (rows.set id row) := by
  intro other kept foundOther
  by_cases equal : id = other
  · subst equal
    cases found.symm.trans foundOther
    exact ⟨row,List.getElem?_set_self (List.getElem?_eq_some_iff.mp found).1,same⟩
  · exact ⟨kept,by rw [List.getElem?_set_ne equal,foundOther],rfl⟩

end Rows

theorem Grows.refl : Grows db db := ⟨.refl,.refl,.refl,.refl⟩

theorem Grows.trans {last : Database} (first : Grows db after) (second : Grows after last) : Grows db last :=
  ⟨first.cashRegisters.trans second.cashRegisters,first.shifts.trans second.shifts,first.sales.trans second.sales,
    first.expenses.trans second.expenses⟩

/-- An update finds its row and keeps the row's branch. -/
def Write.Proper (db : Database) : Write → Prop
  | .updateShift id shift => ∃ old, db.shifts[id]? = some old ∧ shift.branchId = old.branchId
  | .updateSale id sale => ∃ old, db.sales[id]? = some old ∧ sale.branchId = old.branchId
  | .updateExpense id expense => ∃ old, db.expenses[id]? = some old ∧ expense.branchId = old.branchId
  | _ => True

theorem Write.Proper.grows (proper : change.Proper db) (more : Grows db after) : change.Proper after := by
  cases change with
  | updateShift id shift =>
    obtain ⟨old,found,same⟩ := proper
    obtain ⟨now,there,equal⟩ := more.shifts id old found
    exact ⟨now,there,same.trans equal.symm⟩
  | updateSale id sale =>
    obtain ⟨old,found,same⟩ := proper
    obtain ⟨now,there,equal⟩ := more.sales id old found
    exact ⟨now,there,same.trans equal.symm⟩
  | updateExpense id expense =>
    obtain ⟨old,found,same⟩ := proper
    obtain ⟨now,there,equal⟩ := more.expenses id old found
    exact ⟨now,there,same.trans equal.symm⟩
  | _ => trivial

theorem Grows.write (proper : change.Proper db) : Grows db (db.write change) := by
  cases change with
  | insertRegister register => exact ⟨.append,.refl,.refl,.refl⟩
  | insertShift shift => exact ⟨.refl,.append,.refl,.refl⟩
  | insertSale sale => exact ⟨.refl,.refl,.append,.refl⟩
  | insertExpense expense => exact ⟨.refl,.refl,.refl,.append⟩
  | updateShift id shift =>
    obtain ⟨old,found,same⟩ := proper
    exact ⟨.refl,.set found same,.refl,.refl⟩
  | updateSale id sale =>
    obtain ⟨old,found,same⟩ := proper
    exact ⟨.refl,.refl,.set found same,.refl⟩
  | updateExpense id expense =>
    obtain ⟨old,found,same⟩ := proper
    exact ⟨.refl,.refl,.refl,.set found same⟩
  | _ => exact ⟨.refl,.refl,.refl,.refl⟩

theorem Grows.commit (proper : ∀ change ∈ writes, change.Proper db) : Grows db (db.commit writes) := by
  induction writes generalizing db with
  | nil => exact .refl
  | cons change rest induction =>
    have first : Grows db (db.write change) := .write (proper change List.mem_cons_self)
    exact first.trans (induction fun other member => (proper other (List.mem_cons_of_mem _ member)).grows first)

def ShiftOn (db : Database) (shiftId branchId : Nat) : Prop :=
  ∃ shift, db.shifts[shiftId]? = some shift ∧ shift.branchId = branchId

theorem ShiftOn.grows (on : ShiftOn db shiftId branchId) (more : Grows db after) : ShiftOn after shiftId branchId := by
  obtain ⟨shift,found,same⟩ := on
  obtain ⟨now,there,equal⟩ := more.shifts shiftId shift found
  exact ⟨now,there,equal.trans same⟩

/-- The shift a paid sale names is on the sale's branch. -/
def Sale.Anchored (db : Database) (sale : Sale) : Prop :=
  sale.completedPayments ≠ [] → ∀ shiftId, sale.registerShiftId = some shiftId → ShiftOn db shiftId sale.branchId

theorem Sale.Anchored.grows {sale : Sale} (anchored : sale.Anchored db) (more : Grows db after) :
    sale.Anchored after := fun paid shiftId named => (anchored paid shiftId named).grows more

def Write.Anchors (db : Database) : Write → Prop
  | .insertSale sale | .updateSale _ sale => sale.Anchored db
  | _ => True

def Anchored (db : Database) : Prop := ∀ sale ∈ db.sales, sale.Anchored db

theorem Anchored.write (anchored : Anchored db) (proper : change.Proper db) (anchors : change.Anchors db) :
    Anchored (db.write change) := by
  have more : Grows db (db.write change) := .write proper
  intro sale member
  suffices known : sale ∈ db.sales ∨ sale.Anchored db from
    known.elim (fun old => (anchored sale old).grows more) fun new => new.grows more
  cases change with
  | insertSale added =>
    rcases List.mem_append.mp member with old | new
    · exact .inl old
    · exact .inr (List.mem_singleton.mp new ▸ anchors)
  | updateSale id changed =>
    rcases List.mem_or_eq_of_mem_set member with old | rfl
    · exact .inl old
    · exact .inr anchors
  | _ => exact .inl member

theorem Write.Anchors.grows (anchors : change.Anchors db) (more : Grows db after) : change.Anchors after := by
  cases change with
  | insertSale sale => exact Sale.Anchored.grows anchors more
  | updateSale id sale => exact Sale.Anchored.grows anchors more
  | _ => trivial

/-- What every handler's writes keep to. -/
structure Sound (db : Database) (change : Write) : Prop where
  proper : change.Proper db
  anchors : change.Anchors db

theorem Anchored.commit (anchored : Anchored db) (sound : ∀ change ∈ writes, Sound db change) :
    Anchored (db.commit writes) := by
  induction writes generalizing db with
  | nil => exact anchored
  | cons change rest induction =>
    have here := sound change List.mem_cons_self
    have more : Grows db (db.write change) := .write here.proper
    refine induction (anchored.write here.proper here.anchors) fun other member => ?_
    have later := sound other (List.mem_cons_of_mem _ member)
    exact ⟨later.proper.grows more,later.anchors.grows more⟩

/-- The row is on the branch, or the transaction belongs to a shift of it. -/
def Write.On (db : Database) (branchId : Nat) : Write → Prop
  | .insertTransaction transaction => ShiftOn db transaction.registerShiftId branchId
  | .insertSale sale | .updateSale _ sale => sale.branchId = branchId
  | .insertReturn saleReturn => saleReturn.branchId = branchId
  | .insertExpense expense | .updateExpense _ expense => expense.branchId = branchId
  | _ => True

/-- The write is of a kind that has a branch. -/
def Write.binds : Write → Bool
  | .insertTransaction _ | .insertSale _ | .updateSale _ _ | .insertReturn _ | .insertExpense _
  | .updateExpense _ _ => true
  | _ => false

theorem Write.On.grows (on : change.On db branchId) (more : Grows db after) : change.On after branchId := by
  cases change with
  | insertTransaction transaction => exact ShiftOn.grows on more
  | _ => exact on

theorem Write.On.confined_iff (on : change.On after branchId) :
    change.confined branches after = true ↔ (change.binds = true → branches.contains branchId = true) := by
  cases change with
  | insertTransaction transaction =>
    obtain ⟨shift,found,rfl⟩ := on
    simp [Write.confined,Write.binds,found]
  | insertSale sale | updateSale id sale | insertReturn saleReturn | insertExpense expense | updateExpense id expense =>
    cases on
    simp [Write.confined,Write.binds]
  | _ => simp [Write.confined,Write.binds]

/-- The writes are sound and all for one branch. -/
structure Lands (db : Database) (branchId : Nat) (writes : List Write) : Prop where
  sound : ∀ change ∈ writes, Sound db change
  on : ∀ change ∈ writes, change.On (db.commit writes) branchId

theorem Lands.confined_iff (lands : Lands db branchId writes) :
    Confined branches db writes ↔ ((∃ change ∈ writes, change.binds = true) → branches.contains branchId = true) := by
  constructor
  · rintro confined ⟨change,member,binds⟩
    exact ((lands.on change member).confined_iff.mp (confined change member)) binds
  · intro inside change member
    exact (lands.on change member).confined_iff.mpr fun binds => inside ⟨change,member,binds⟩

/-- A write for the branch that needs no row the same request inserts. -/
def Fits (db : Database) (branchId : Nat) (change : Write) : Prop := Sound db change ∧ change.On db branchId

theorem Lands.of_fits (fits : ∀ change ∈ writes, Fits db branchId change) : Lands db branchId writes := by
  have sound : ∀ change ∈ writes, Sound db change := fun change member => (fits change member).1
  have more : Grows db (db.commit writes) := .commit fun change member => (sound change member).proper
  exact ⟨sound,fun change member => (fits change member).2.grows more⟩

theorem fits_transactions {α : Type} {items : List α} {transaction : α → RegisterTransaction}
    (on : ∀ item ∈ items, ShiftOn db (transaction item).registerShiftId branchId) :
    ∀ change ∈ items.map fun item => Write.insertTransaction (transaction item), Fits db branchId change := by
  intro change member
  obtain ⟨item,inside,rfl⟩ := List.mem_map.mp member
  exact ⟨⟨trivial,trivial⟩,on item inside⟩

theorem getOr_ok {α : Type} {row : Option α} {refusal : Refusal} {found : α} (got : getOr row refusal = .ok found) :
    row = some found := by
  unfold getOr at got
  split at got
  · cases got
    rfl
  · cases got

theorem requireCallerShift_ok {userId id : Nat} {branch requested : Option Nat}
    (called : requireCallerShift db userId branch requested = .ok id) :
    ∃ shift, db.shifts[id]? = some shift ∧ (∀ branchId, branch = some branchId → shift.branchId = branchId) ∧
      ∀ asked, requested = some asked → asked = id := by
  unfold requireCallerShift at called
  dsimp only at called
  split at called
  · split at called
    · cases called
    · split at called <;> cases called
  case h_2 own found =>
    split at called
    · split at called <;> cases called
    case isFalse same =>
      split at called
      · cases called
      case isFalse agrees =>
        cases called
        obtain ⟨bound,-⟩ := List.findIdx?_eq_some_iff_getElem.mp found
        refine ⟨db.shifts[id],List.getElem?_eq_getElem bound,?_,?_⟩
        · rintro branchId rfl
          simpa [List.getElem?_eq_getElem bound] using agrees
        · rintro asked rfl
          simpa using same

theorem callerShift_on {userId id : Nat} {requested : Option Nat}
    (called : requireCallerShift db userId (some branchId) requested = .ok id) : ShiftOn db id branchId := by
  obtain ⟨shift,found,same,-⟩ := requireCallerShift_ok called
  exact ⟨shift,found,same branchId rfl⟩

theorem createSale_lands {data : CreateSaleRequest} (created : createSale db user data = .ok writes) :
    Lands db data.branchId writes := by
  obtain ⟨shiftId,called,created⟩ := bind_ok_iff.mp created
  obtain ⟨_,-,created⟩ := bind_ok_iff.mp created
  obtain ⟨settlement,-,created⟩ := bind_ok_iff.mp created
  cases created
  have on := callerShift_on called
  refine .of_fits (List.forall_mem_cons.mpr ⟨⟨⟨trivial,?_⟩,rfl⟩,fits_transactions fun _ _ => on⟩)
  rintro - _ ⟨rfl⟩
  exact on

theorem openTab_lands {shift : Option Nat} (opened : openTab db branchId shift = .ok writes) :
    Lands db branchId writes := by
  obtain ⟨_,-,opened⟩ := bind_ok_iff.mp opened
  obtain ⟨_,-,opened⟩ := bind_ok_iff.mp opened
  cases opened
  refine .of_fits (List.forall_mem_singleton.mpr ⟨⟨trivial,fun paid => ?_⟩,rfl⟩)
  exact absurd rfl paid

theorem getTabSale_ok {sale : Sale} (got : getTabSale db saleId = .ok sale) : db.sales[saleId]? = some sale := by
  obtain ⟨found,got_,got⟩ := bind_ok_iff.mp got
  obtain ⟨_,-,got⟩ := bind_ok_iff.mp got
  obtain ⟨_,-,got⟩ := bind_ok_iff.mp got
  cases got
  exact getOr_ok got_

theorem fits_updateSale {sale changed : Sale} (anchored : Anchored db) (found : db.sales[saleId]? = some sale)
    (payments : changed.payments = sale.payments) (shift : changed.registerShiftId = sale.registerShiftId)
    (same : changed.branchId = sale.branchId) : Fits db sale.branchId (.updateSale saleId changed) := by
  have known : sale.Anchored db := anchored sale (List.mem_of_getElem? found)
  refine ⟨⟨⟨sale,found,same⟩,fun paid shiftId named => ?_⟩,same⟩
  rw [Sale.completedPayments,payments] at paid
  rw [same]
  exact known paid shiftId (shift ▸ named)

theorem addLinesToTab_lands {lines : List Refunds.SaleLineRequest} (anchored : Anchored db)
    (added : addLinesToTab db saleId lines = .ok writes) : ∃ sale, db.sales[saleId]? = some sale ∧
      Lands db sale.branchId writes ∧ ∃ change ∈ writes, change.binds = true := by
  obtain ⟨sale,got,added⟩ := bind_ok_iff.mp added
  cases added
  have found := getTabSale_ok got
  exact ⟨sale,found,.of_fits (List.forall_mem_singleton.mpr (fits_updateSale anchored found rfl rfl rfl)),
    _,List.mem_cons_self,rfl⟩

theorem touchTab_lands (anchored : Anchored db) (touched : touchTab db saleId = .ok writes) :
    ∃ sale, db.sales[saleId]? = some sale ∧ Lands db sale.branchId writes ∧ ∃ change ∈ writes, change.binds = true := by
  obtain ⟨sale,got,touched⟩ := bind_ok_iff.mp touched
  cases touched
  have found := getTabSale_ok got
  exact ⟨sale,found,.of_fits (List.forall_mem_singleton.mpr (fits_updateSale anchored found rfl rfl rfl)),
    _,List.mem_cons_self,rfl⟩

theorem completeTab_lands {data : CompleteTabRequest} (completed : completeTab db user saleId data = .ok writes) :
    ∃ sale, db.sales[saleId]? = some sale ∧ Lands db sale.branchId writes ∧ ∃ change ∈ writes, change.binds = true := by
  obtain ⟨sale,got,completed⟩ := bind_ok_iff.mp completed
  obtain ⟨_,-,completed⟩ := bind_ok_iff.mp completed
  obtain ⟨shiftId,called,completed⟩ := bind_ok_iff.mp completed
  obtain ⟨settlement,-,completed⟩ := bind_ok_iff.mp completed
  obtain ⟨_,-,completed⟩ := bind_ok_iff.mp completed
  cases completed
  have found := getTabSale_ok got
  have on := callerShift_on called
  refine ⟨sale,found,.of_fits (List.forall_mem_cons.mpr ⟨⟨⟨⟨sale,found,rfl⟩,?_⟩,rfl⟩,fits_transactions fun _ _ => on⟩),
    _,List.mem_cons_self,rfl⟩
  rintro - _ ⟨rfl⟩
  exact on

theorem completed_refunded (payments : List SalePayment) :
    (payments.map refundedPayment).filter (·.status = .completed) = [] := by
  simp only [List.filter_eq_nil_iff,List.mem_map,decide_eq_true_eq]
  rintro _ ⟨payment,-,rfl⟩
  unfold refundedPayment
  split <;> simp_all

theorem reversal_lands {sale : Sale} {status : SaleStatus} (anchored : Anchored db)
    (found : db.sales[saleId]? = some sale) :
    Lands db sale.branchId (.updateSale saleId
      { sale with status := status, payments := sale.payments.map refundedPayment } :: reverseSettlements sale) := by
  have known : sale.Anchored db := anchored sale (List.mem_of_getElem? found)
  refine .of_fits (List.forall_mem_cons.mpr ⟨⟨⟨⟨sale,found,rfl⟩,fun paid => ?_⟩,rfl⟩,?_⟩)
  · exact absurd (completed_refunded sale.payments) paid
  · unfold reverseSettlements
    split
    · exact List.forall_mem_nil _
    case h_2 shiftId named =>
      exact fits_transactions fun payment member => known (List.ne_nil_of_mem member) shiftId named

theorem cancelSale_lands (anchored : Anchored db) (cancelled : cancelSale db saleId = .ok writes) :
    ∃ sale, db.sales[saleId]? = some sale ∧ Lands db sale.branchId writes ∧ ∃ change ∈ writes, change.binds = true := by
  obtain ⟨sale,got,cancelled⟩ := bind_ok_iff.mp cancelled
  obtain ⟨_,-,cancelled⟩ := bind_ok_iff.mp cancelled
  obtain ⟨_,-,cancelled⟩ := bind_ok_iff.mp cancelled
  cases cancelled
  exact ⟨sale,getOr_ok got,reversal_lands anchored (getOr_ok got),_,List.mem_cons_self,rfl⟩

theorem voidSale_lands (anchored : Anchored db) (voided : voidSale db saleId = .ok writes) :
    ∃ sale, db.sales[saleId]? = some sale ∧ Lands db sale.branchId writes ∧ ∃ change ∈ writes, change.binds = true := by
  obtain ⟨sale,got,voided⟩ := bind_ok_iff.mp voided
  obtain ⟨_,-,voided⟩ := bind_ok_iff.mp voided
  obtain ⟨_,-,voided⟩ := bind_ok_iff.mp voided
  obtain ⟨_,-,voided⟩ := bind_ok_iff.mp voided
  obtain ⟨_,-,voided⟩ := bind_ok_iff.mp voided
  cases voided
  exact ⟨sale,getOr_ok got,reversal_lands anchored (getOr_ok got),_,List.mem_cons_self,rfl⟩

theorem createSaleReturn_lands {data : CreateSaleReturnRequest} (created : createSaleReturn db user data = .ok writes) :
    Lands db data.branchId writes := by
  obtain ⟨_,-,created⟩ := bind_ok_iff.mp created
  obtain ⟨shiftId,called,created⟩ := bind_ok_iff.mp created
  obtain ⟨_,-,created⟩ := bind_ok_iff.mp created
  cases created
  exact .of_fits (List.forall_mem_cons.mpr ⟨⟨⟨trivial,trivial⟩,rfl⟩,fits_transactions fun _ _ => callerShift_on called⟩)

theorem cashTransaction_cases (shiftId : Nat) (txType : RegisterTxType) (amount : ℚ) :
    0 < amount ∧ cashTransaction shiftId txType amount = [.insertTransaction ⟨shiftId,txType,.cash,amount⟩] ∨
      ¬0 < amount ∧ cashTransaction shiftId txType amount = [] := by
  unfold cashTransaction
  split
  case isTrue positive => exact .inl ⟨positive,rfl⟩
  case isFalse none => exact .inr ⟨none,rfl⟩

theorem openShift_lands {cashRegisterId : Nat} {openingFloat : ℚ}
    (opened : openShift db user cashRegisterId openingFloat = .ok writes) :
    ∃ register, db.cashRegisters[cashRegisterId]? = some register ∧ Lands db register.branchId writes ∧
      ((∃ change ∈ writes, change.binds = true) ↔ 0 < openingFloat) := by
  obtain ⟨register,got,opened⟩ := bind_ok_iff.mp opened
  obtain ⟨_,-,opened⟩ := bind_ok_iff.mp opened
  obtain ⟨_,-,opened⟩ := bind_ok_iff.mp opened
  obtain ⟨_,-,opened⟩ := bind_ok_iff.mp opened
  cases opened
  refine ⟨register,getOr_ok got,?_⟩
  rcases cashTransaction_cases db.shifts.length .openingFloat openingFloat with ⟨positive,same⟩ | ⟨none,same⟩
  · rw [same]
    refine ⟨⟨?_,?_⟩,by simpa [Write.binds] using positive⟩
    · simp only [List.forall_mem_cons]
      exact ⟨⟨trivial,trivial⟩,⟨trivial,trivial⟩,nofun⟩
    · simp only [List.forall_mem_cons]
      exact ⟨trivial,⟨_,List.getElem?_concat_length,rfl⟩,nofun⟩
  · rw [same]
    refine ⟨.of_fits (List.forall_mem_singleton.mpr ⟨⟨trivial,trivial⟩,trivial⟩),by simpa [Write.binds] using none⟩

theorem closeShift_lands {actualCash : ℚ} {canManage : Bool}
    (closed : closeShift db user shiftId actualCash canManage = .ok writes) :
    ∃ shift, db.shifts[shiftId]? = some shift ∧ Lands db shift.branchId writes ∧
      ((∃ change ∈ writes, change.binds = true) ↔ 0 < actualCash) := by
  obtain ⟨shift,got,closed⟩ := bind_ok_iff.mp closed
  obtain ⟨_,-,closed⟩ := bind_ok_iff.mp closed
  obtain ⟨_,-,closed⟩ := bind_ok_iff.mp closed
  cases closed
  have found := getOr_ok got
  refine ⟨shift,found,?_⟩
  have fits : Fits db shift.branchId (.updateShift shiftId { shift with status := .closed }) :=
    ⟨⟨⟨shift,found,rfl⟩,trivial⟩,trivial⟩
  rcases cashTransaction_cases shiftId .closingCount actualCash with ⟨positive,same⟩ | ⟨none,same⟩
  · rw [same]
    refine ⟨.of_fits ?_,by simpa [Write.binds] using positive⟩
    simp only [List.forall_mem_cons]
    exact ⟨fits,⟨⟨trivial,trivial⟩,shift,found,rfl⟩,nofun⟩
  · rw [same]
    exact ⟨.of_fits (List.forall_mem_singleton.mpr fits),by simpa [Write.binds] using none⟩

theorem addCashMovement_lands {txType : RegisterTxType} {amount : ℚ}
    (added : addCashMovement db user shiftId txType amount = .ok writes) :
    ∃ shift, db.shifts[shiftId]? = some shift ∧ Lands db shift.branchId writes ∧
      ∃ change ∈ writes, change.binds = true := by
  obtain ⟨own,called,added⟩ := bind_ok_iff.mp added
  obtain ⟨_,-,added⟩ := bind_ok_iff.mp added
  cases added
  obtain ⟨shift,found,-,asked⟩ := requireCallerShift_ok called
  cases asked shiftId rfl
  exact ⟨shift,found,.of_fits (List.forall_mem_singleton.mpr ⟨⟨trivial,trivial⟩,shift,found,rfl⟩),
    _,List.mem_cons_self,rfl⟩

theorem verifyOpenRegisterShift_ok {u : Unit} (verified : verifyOpenRegisterShift db shiftId = .ok u) :
    ∃ shift, db.shifts[shiftId]? = some shift := by
  obtain ⟨shift,got,-⟩ := bind_ok_iff.mp verified
  exact ⟨shift,getOr_ok got⟩

theorem recordCustomerPayment_lands {customerId : Nat} {data : CustomerPaymentRequest}
    (recorded : recordCustomerPayment db customerId data = .ok writes) :
    writes = [] ∧ ¬(data.payment.paymentMethod = .cash ∧ data.registerShiftId.isSome) ∨
      ∃ shiftId shift, data.registerShiftId = some shiftId ∧ data.payment.paymentMethod = .cash ∧
        db.shifts[shiftId]? = some shift ∧ Lands db shift.branchId writes ∧ ∃ change ∈ writes, change.binds = true := by
  obtain ⟨_,-,recorded⟩ := bind_ok_iff.mp recorded
  cases named : data.registerShiftId with
  | none =>
    rw [named] at recorded
    cases recorded
    exact .inl ⟨rfl,fun both => absurd both.2 Bool.false_ne_true⟩
  | some shiftId =>
    rw [named] at recorded
    obtain ⟨_,verified,recorded⟩ := bind_ok_iff.mp recorded
    obtain ⟨shift,found⟩ := verifyOpenRegisterShift_ok verified
    by_cases cash : data.payment.paymentMethod = .cash
    · rw [if_pos cash] at recorded
      cases recorded
      exact .inr ⟨shiftId,shift,rfl,cash,found,
        .of_fits (List.forall_mem_singleton.mpr ⟨⟨trivial,trivial⟩,shift,found,rfl⟩),_,List.mem_cons_self,rfl⟩
    · rw [if_neg cash] at recorded
      cases recorded
      exact .inl ⟨rfl,fun ⟨isCash,_⟩ => cash isCash⟩

theorem activeShift_on (active : db.activeShiftOfBranch branchId = some shiftId) : ShiftOn db shiftId branchId := by
  obtain ⟨bound,same,-⟩ := List.findIdx?_eq_some_iff_getElem.mp active
  simp only [Bool.and_eq_true,decide_eq_true_eq] at same
  exact ⟨db.shifts[shiftId],List.getElem?_eq_getElem bound,same.1⟩

theorem fits_expenseTransactions (payment : Payment) :
    ∀ change ∈ expenseTransactions (db.activeShiftOfBranch branchId) payment, Fits db branchId change := by
  unfold expenseTransactions
  split
  case h_1 shiftId active =>
    split
    · exact List.forall_mem_singleton.mpr ⟨⟨trivial,trivial⟩,activeShift_on active⟩
    · exact List.forall_mem_nil _
  case h_2 => exact List.forall_mem_nil _

theorem createExpense_lands {data : CreateExpenseRequest} (created : createExpense db data = .ok writes) :
    Lands db data.branchId writes := by
  obtain ⟨_,-,created⟩ := bind_ok_iff.mp created
  cases created
  refine .of_fits (List.forall_mem_cons.mpr ⟨⟨⟨trivial,trivial⟩,rfl⟩,fun change member => ?_⟩)
  obtain ⟨payment,-,inside⟩ := List.mem_flatMap.mp member
  rcases List.mem_cons.mp inside with rfl | transaction
  · exact ⟨⟨trivial,trivial⟩,trivial⟩
  · exact fits_expenseTransactions payment change transaction

theorem getExpenseById_ok {expenseId : Nat} {expense : Expense} (got : getExpenseById db expenseId = .ok expense) :
    db.expenses[expenseId]? = some expense := (Option.filter_eq_some_iff.mp (getOr_ok got)).1

theorem expenseTransactions_binds {active : Option Nat} {payment : Payment} :
    (∃ change ∈ expenseTransactions active payment, change.binds = true) ↔
      active.isSome = true ∧ payment.paymentMethod = .cash := by
  unfold expenseTransactions
  cases active with
  | none => simp
  | some shiftId =>
    by_cases cash : payment.paymentMethod = .cash <;> simp [cash,Write.binds]

theorem addExpensePayment_lands {expenseId : Nat} {payment : Payment}
    (added : addExpensePayment db expenseId payment = .ok writes) :
    ∃ expense, db.expenses[expenseId]? = some expense ∧ Lands db expense.branchId writes ∧
      ((∃ change ∈ writes, change.binds = true) ↔
        (db.activeShiftOfBranch expense.branchId).isSome = true ∧ payment.paymentMethod = .cash) := by
  obtain ⟨expense,got,added⟩ := bind_ok_iff.mp added
  obtain ⟨_,-,added⟩ := bind_ok_iff.mp added
  cases added
  refine ⟨expense,getExpenseById_ok got,.of_fits ?_,?_⟩
  · exact List.forall_mem_cons.mpr ⟨⟨⟨trivial,trivial⟩,trivial⟩,fits_expenseTransactions payment⟩
  · rw [← expenseTransactions_binds]
    simp [Write.binds]

theorem fits_updateExpense {expenseId : Nat} {expense changed : Expense} (found : db.expenses[expenseId]? = some expense)
    (same : changed.branchId = expense.branchId) : Fits db expense.branchId (.updateExpense expenseId changed) :=
  ⟨⟨⟨expense,found,same⟩,trivial⟩,same⟩

theorem updateExpense_lands {expenseId : Nat} {amount taxAmount : Option ℚ}
    (updated : updateExpense db expenseId amount taxAmount = .ok writes) :
    ∃ expense, db.expenses[expenseId]? = some expense ∧ Lands db expense.branchId writes ∧
      ∃ change ∈ writes, change.binds = true := by
  obtain ⟨expense,got,updated⟩ := bind_ok_iff.mp updated
  cases updated
  have found := getExpenseById_ok got
  exact ⟨expense,found,.of_fits (List.forall_mem_singleton.mpr (fits_updateExpense found rfl)),_,List.mem_cons_self,rfl⟩

theorem deleteExpense_lands {expenseId : Nat} (deleted : deleteExpense db expenseId = .ok writes) :
    ∃ expense, db.expenses[expenseId]? = some expense ∧ Lands db expense.branchId writes ∧
      ∃ change ∈ writes, change.binds = true := by
  obtain ⟨expense,got,deleted⟩ := bind_ok_iff.mp deleted
  cases deleted
  have found := getExpenseById_ok got
  refine ⟨expense,found,.of_fits ?_,_,List.mem_cons_self,rfl⟩
  simp only [List.forall_mem_cons]
  exact ⟨fits_updateExpense found rfl,⟨⟨trivial,trivial⟩,trivial⟩,nofun⟩

/-- Handlers keep what every request relies on. -/
theorem handle_sound {request : Request} (anchored : Anchored db) (handled : handle db user request = .ok writes) :
    ∀ change ∈ writes, Sound db change := by
  cases request with
  | createSale data => exact (createSale_lands handled).sound
  | openTab branchId shift => exact (openTab_lands handled).sound
  | addTabLines saleId lines =>
    obtain ⟨_,-,lands,-⟩ := addLinesToTab_lands anchored handled
    exact lands.sound
  | fireTab saleId | requestTabBill saleId =>
    obtain ⟨_,-,lands,-⟩ := touchTab_lands anchored handled
    exact lands.sound
  | completeTab saleId data =>
    obtain ⟨_,-,lands,-⟩ := completeTab_lands handled
    exact lands.sound
  | cancelSale saleId =>
    obtain ⟨_,-,lands,-⟩ := cancelSale_lands anchored handled
    exact lands.sound
  | voidSale saleId =>
    obtain ⟨_,-,lands,-⟩ := voidSale_lands anchored handled
    exact lands.sound
  | createReturn data => exact (createSaleReturn_lands handled).sound
  | openShift cashRegisterId openingFloat =>
    obtain ⟨_,-,lands,-⟩ := openShift_lands handled
    exact lands.sound
  | closeShift shiftId actualCash canManage =>
    obtain ⟨_,-,lands,-⟩ := closeShift_lands handled
    exact lands.sound
  | cashMovement shiftId txType amount =>
    obtain ⟨_,-,lands,-⟩ := addCashMovement_lands handled
    exact lands.sound
  | customerPayment customerId data =>
    rcases recordCustomerPayment_lands handled with ⟨rfl,-⟩ | ⟨_,_,-,-,-,lands,-⟩
    · exact List.forall_mem_nil _
    · exact lands.sound
  | createExpense data => exact (createExpense_lands handled).sound
  | addExpensePayment expenseId payment =>
    obtain ⟨_,-,lands,-⟩ := addExpensePayment_lands handled
    exact lands.sound
  | updateExpense expenseId amount taxAmount =>
    obtain ⟨_,-,lands,-⟩ := updateExpense_lands handled
    exact lands.sound
  | deleteExpense expenseId =>
    obtain ⟨_,-,lands,-⟩ := deleteExpense_lands handled
    exact lands.sound

theorem replaySale_sound {data : CreateSaleRequest} : ∀ change ∈ replaySale db user data, Sound db change := by
  have on : ∀ shiftId, usableShift db user data = some shiftId → ShiftOn db shiftId data.branchId := by
    intro shiftId usable
    obtain ⟨-,own⟩ := Option.filter_eq_some_iff.mp usable
    obtain ⟨shift,found,same⟩ := (Option.any_eq_true _ _).mp own
    simp only [Bool.and_eq_true,decide_eq_true_eq] at same
    exact ⟨shift,found,same.2⟩
  refine List.forall_mem_cons.mpr ⟨⟨trivial,fun _ => on⟩,fun change member => ?_⟩
  split at member
  · cases member
  · obtain ⟨payment,-,rfl⟩ := List.mem_map.mp member
    exact ⟨trivial,trivial⟩

theorem replay_sound {operation : Operation} (replayed : replay db user operation = .ok writes) :
    ∀ change ∈ writes, Sound db change := by
  cases operation with
  | shiftOpen cashRegisterId openingFloat =>
    obtain ⟨_,-,lands,-⟩ := openShift_lands replayed
    exact lands.sound
  | shiftClose shiftId actualCash =>
    obtain ⟨_,-,lands,-⟩ := closeShift_lands replayed
    exact lands.sound
  | saleCreate data =>
    obtain ⟨_,-,replayed⟩ := bind_ok_iff.mp replayed
    obtain ⟨_,-,replayed⟩ := bind_ok_iff.mp replayed
    cases replayed
    exact replaySale_sound

variable {s t : State}

/-- Every request in flight passed its guards on rows that are still there. -/
structure Invariant (s : State) : Prop where
  anchored : Anchored s.db
  guarded : ∀ pending ∈ s.pending, admits (allowedBranchIds pending.user) pending.seen pending.request = true ∧
    Grows pending.seen s.db

theorem Invariant.initial (start : Initial s) : Invariant s := by
  obtain ⟨idle,-,sales,-⟩ := start
  refine ⟨fun sale member => ?_,fun pending member => ?_⟩
  · rw [sales] at member
    cases member
  · rw [idle] at member
    cases member

theorem Invariant.commit (invariant : Invariant s) (sound : ∀ change ∈ writes, Sound s.db change)
    {pending : List Pending} (fewer : ∀ request ∈ pending, request ∈ s.pending) :
    Invariant ⟨s.db.commit writes,pending⟩ := by
  have more : Grows s.db (s.db.commit writes) := .commit fun change member => (sound change member).proper
  refine ⟨invariant.anchored.commit sound,fun request member => ?_⟩
  obtain ⟨admitted,grown⟩ := invariant.guarded request (fewer request member)
  exact ⟨admitted,grown.trans more⟩

theorem Invariant.next {action : Action} (invariant : Invariant s) (taken : next s action = some t) : Invariant t := by
  cases action with
  | createCashRegister register =>
    cases taken
    have sound : Sound s.db (.insertRegister register) := ⟨trivial,trivial⟩
    exact invariant.commit (List.forall_mem_singleton.mpr sound) fun _ => id
  | push user operation =>
    obtain ⟨writes,replayed,rfl⟩ := Option.map_eq_some_iff.mp taken
    exact invariant.commit (replay_sound (toOption_eq_some.mp replayed)) fun _ => id
  | guard user request =>
    unfold BranchScope.next at taken
    dsimp only at taken
    split at taken
    case isTrue admitted =>
      cases taken
      refine ⟨invariant.anchored,List.forall_mem_append.mpr ⟨invariant.guarded,?_⟩⟩
      exact List.forall_mem_singleton.mpr ⟨admitted,.refl⟩
    case isFalse => cases taken
  | handle index =>
    obtain ⟨pending,-,taken⟩ := Option.bind_eq_some_iff.mp taken
    obtain ⟨writes,handled,taken⟩ := Option.bind_eq_some_iff.mp taken
    cases taken
    exact invariant.commit (handle_sound invariant.anchored (toOption_eq_some.mp handled)) fun _ =>
      List.mem_of_mem_eraseIdx

theorem late_eq {α : Type} {place : α → Nat} {seen now : List α} {id : Nat} {row : α}
    (guarded : guardRecord (some branches) place seen[id]? = true) (same : SameBranch place seen now)
    (found : now[id]? = some row) : late branches place seen[id]? now[id]? = !branches.contains (place row) := by
  rw [found]
  cases earlier : seen[id]? with
  | none => rfl
  | some old =>
    obtain ⟨later,there,equal⟩ := same id old earlier
    cases there.symm.trans found
    rw [earlier] at guarded
    have inside : branches.contains (place row) = true := equal ▸ guarded
    rw [inside]
    rfl

theorem Lands.confined_iff_of_binds (lands : Lands db branchId writes) (binds : ∃ change ∈ writes, change.binds = true) :
    Confined branches db writes ↔ (!branches.contains branchId) = false := by
  rw [lands.confined_iff,Bool.not_eq_false']
  exact ⟨fun inside => inside binds,fun inside _ => inside⟩

theorem Lands.confined (lands : Lands db branchId writes) (guarded : branches.contains branchId = true) :
    Confined branches db writes ↔ false = false := ⟨fun _ => rfl,fun _ => lands.confined_iff.mpr fun _ => guarded⟩

variable {pending : Pending}

/-- What a successful request of a restricted user writes is on the user's branches, unless it strays. -/
theorem confined_unless_strays (reached : Reachable Initial (OfNext next) s) (waiting : pending ∈ s.pending)
    (restricted : allowedBranchIds pending.user = some branches)
    (handled : handle s.db pending.user pending.request = .ok writes) :
    Confined branches s.db writes ↔ strays branches pending.seen s.db pending.request = false := by
  have invariant : Invariant s := reached.invariant (fun _ => Invariant.initial) fun _ _ _ => Invariant.next
  obtain ⟨admitted,grown⟩ := invariant.guarded pending waiting
  rw [restricted] at admitted
  obtain ⟨user,request,seen⟩ := pending
  dsimp only at *
  cases request with
  | createSale data => exact (createSale_lands handled).confined admitted
  | openTab branchId shift => exact (openTab_lands handled).confined admitted
  | createReturn data => exact (createSaleReturn_lands handled).confined admitted
  | createExpense data => exact (createExpense_lands handled).confined admitted
  | addTabLines saleId lines =>
    obtain ⟨sale,found,lands,binds⟩ := addLinesToTab_lands invariant.anchored handled
    rw [strays,late_eq admitted grown.sales found]
    exact lands.confined_iff_of_binds binds
  | fireTab saleId | requestTabBill saleId =>
    obtain ⟨sale,found,lands,binds⟩ := touchTab_lands invariant.anchored handled
    rw [strays,late_eq admitted grown.sales found]
    exact lands.confined_iff_of_binds binds
  | completeTab saleId data =>
    obtain ⟨sale,found,lands,binds⟩ := completeTab_lands handled
    rw [strays,late_eq admitted grown.sales found]
    exact lands.confined_iff_of_binds binds
  | cancelSale saleId =>
    obtain ⟨sale,found,lands,binds⟩ := cancelSale_lands invariant.anchored handled
    rw [strays,late_eq admitted grown.sales found]
    exact lands.confined_iff_of_binds binds
  | voidSale saleId =>
    obtain ⟨sale,found,lands,binds⟩ := voidSale_lands invariant.anchored handled
    rw [strays,late_eq admitted grown.sales found]
    exact lands.confined_iff_of_binds binds
  | openShift cashRegisterId openingFloat =>
    obtain ⟨register,found,lands,binds⟩ := openShift_lands handled
    rw [strays,late_eq admitted grown.cashRegisters found,lands.confined_iff,binds]
    simp
  | closeShift shiftId actualCash canManage =>
    obtain ⟨shift,found,lands,binds⟩ := closeShift_lands handled
    rw [strays,late_eq admitted grown.shifts found,lands.confined_iff,binds]
    simp
  | cashMovement shiftId txType amount =>
    obtain ⟨shift,found,lands,binds⟩ := addCashMovement_lands handled
    rw [strays,late_eq admitted grown.shifts found]
    exact lands.confined_iff_of_binds binds
  | customerPayment customerId data =>
    rcases recordCustomerPayment_lands handled with ⟨rfl,other⟩ | ⟨shiftId,shift,named,cash,found,lands,binds⟩
    · refine iff_of_true (List.forall_mem_nil _) ?_
      by_contra strayed
      simp only [strays,Bool.not_eq_false,Bool.and_eq_true,decide_eq_true_eq,Option.any_eq_true] at strayed
      obtain ⟨cash,shiftId,named,-⟩ := strayed
      exact other ⟨cash,named ▸ rfl⟩
    · rw [lands.confined_iff_of_binds binds]
      simp [strays,named,cash,found]
  | addExpensePayment expenseId payment =>
    obtain ⟨expense,found,lands,binds⟩ := addExpensePayment_lands handled
    rw [strays,late_eq admitted grown.expenses found,lands.confined_iff,binds,found]
    cases active : s.db.activeShiftOfBranch expense.branchId <;> simp [active]
  | updateExpense expenseId amount taxAmount =>
    obtain ⟨expense,found,lands,binds⟩ := updateExpense_lands handled
    rw [strays,late_eq admitted grown.expenses found]
    exact lands.confined_iff_of_binds binds
  | deleteExpense expenseId =>
    obtain ⟨expense,found,lands,binds⟩ := deleteExpense_lands handled
    rw [strays,late_eq admitted grown.expenses found]
    exact lands.confined_iff_of_binds binds

private def cashier (id branchId : Nat) : User := ⟨id,1,some branchId,[⟨1,none,some ⟨"cashier",false⟩,false⟩]⟩

private def twoBranches : Database := ⟨2,1,[⟨0,true⟩,⟨1,true⟩],[],[],[],[],[],[]⟩

private theorem idle_initial : Initial ⟨twoBranches,[]⟩ := ⟨rfl,rfl,rfl,rfl,rfl,rfl,rfl⟩

private def opened (branchId : Nat) : Database := { twoBranches with shifts := [⟨branchId,branchId,7,.opened⟩] }

private theorem reach_payment (branchId : Nat) (user : User)
    (executed : execute next ⟨twoBranches,[]⟩
      [.guard (cashier 7 branchId) (.openShift branchId 0),.handle 0,.guard user (.customerPayment 0 ⟨⟨.cash,50⟩,some 0⟩)] =
      some ⟨opened branchId,[⟨user,.customerPayment 0 ⟨⟨.cash,50⟩,some 0⟩,opened branchId⟩]⟩) :
    Reachable Initial (OfNext next)
      ⟨opened branchId,[⟨user,.customerPayment 0 ⟨⟨.cash,50⟩,some 0⟩,opened branchId⟩]⟩ :=
  ⟨_,_,idle_initial,run_of_execute executed⟩

theorem confined_own_payment : Confined [0] (opened 0) [.insertTransaction ⟨0,.cashIn,.cash,50⟩] :=
  (confined_unless_strays (reach_payment 0 (cashier 7 0) (by decide +kernel)) (List.mem_singleton_self _)
    (by decide +kernel) rfl).mpr rfl

/-- A cash payment goes into the open shift of another branch. -/
theorem payment_into_foreign_shift : ∃ s pending writes, Reachable Initial (OfNext next) s ∧ pending ∈ s.pending ∧
    allowedBranchIds pending.user = some [0] ∧ handle s.db pending.user pending.request = .ok writes ∧
    ¬Confined [0] s.db writes := by
  refine ⟨_,_,[.insertTransaction ⟨0,.cashIn,.cash,50⟩],reach_payment 1 (cashier 8 0) (by decide +kernel),
    List.mem_singleton_self _,by decide +kernel,rfl,fun confined => ?_⟩
  exact absurd (confined _ List.mem_cons_self) (by decide +kernel)

end BranchScope
