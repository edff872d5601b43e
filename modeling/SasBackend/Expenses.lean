import Mathlib.Algebra.Group.Subgroup.Finite
import SasBackend.Semantics.Expenses

/-! What the commits of the requests keep. The check of a payment protects the bill where what it has read still holds when the
payment commits; the ledger of the suppliers is written with an expense and never again.
-/
namespace Expenses
open SasBackend Tally Transition

variable {s t : State} {action : Action} {db db' : Database} {process : Process} {id now : Nat}

/-- What a process writes with its commit. -/
def written (db : Database) (now : Nat) : Process → Option Database
  | .committingCreate data shift => createExpense db data shift
  | .committingPayment id data _ _ shift => addExpensePayment db id data shift
  | .committingUpdate id data expense => updateExpense db id data expense
  | .committingDelete id payments => some (deleteExpense db id payments now)
  | .recordingSupplierPayment supplierId amount => recordSupplierPayment db supplierId amount
  | _ => none

theorem commit_cases {p : Nat} {answer : Answer} {change : Option Database} :
    (s.commit p change answer).db = s.db ∨ change = some (s.commit p change answer).db := by
  cases change with
  | none => exact .inl rfl
  | some db => exact .inr rfl

theorem step_cases (taken : next s action = some t) :
    t.db = s.db ∨ ∃ p now shift process, action = .advance p now shift ∧ s.processes[p]? = some process ∧
      written s.db now process = some t.db := by
  cases action with
  | begin request =>
    simp only [next,Option.ite_none_right_eq_some,Option.some.injEq] at taken
    obtain ⟨-,rfl⟩ := taken
    exact .inl rfl
  | abort p =>
    cases taken
    exact .inl rfl
  | advance p now shift =>
    obtain ⟨process,found,moved⟩ := Option.bind_eq_some_iff.mp taken
    have wrote (change : Option Database) (answer : Answer) (same : written s.db now process = change)
        (there : s.commit p change answer = t) : t.db = s.db ∨ ∃ p' now' shift' process',
          Action.advance p now shift = .advance p' now' shift' ∧ s.processes[p']? = some process' ∧
            written s.db now' process' = some t.db := by
      subst there
      rcases commit_cases with kept | new
      · exact .inl kept
      · exact .inr ⟨p,now,shift,process,rfl,found,same.trans new⟩
    cases process with
    | creating | recording | loadingPayments =>
      cases moved
      exact .inl rfl
    | paying | updating | deleting =>
      simp only [advance] at moved
      split at moved <;> cases moved <;> exact .inl rfl
    | summing =>
      simp only [advance] at moved
      split at moved <;> cases moved <;> exact .inl rfl
    | committingCreate | committingPayment | committingUpdate | committingDelete | recordingSupplierPayment =>
      exact wrote _ _ rfl (Option.some.inj moved)
    | ended => cases moved

theorem elim_append (expenses : List Expense) (expense : Expense) (g : Expense → ℚ) (id : Nat) :
    (expenses ++ [expense])[id]?.elim 0 g = expenses[id]?.elim 0 g + if expenses.length = id then g expense else 0 := by
  rcases Nat.lt_trichotomy id expenses.length with before | rfl | after
  · rw [List.getElem?_append_left before,if_neg (Nat.ne_of_gt before),add_zero]
  · simp
  · rw [List.getElem?_eq_none (by simpa using Nat.succ_le_of_lt after),List.getElem?_eq_none (Nat.le_of_lt after),if_neg (Nat.ne_of_lt after)]
    simp

theorem map_modify_same {expenses : List Expense} {f : Expense → Expense} {g : Expense → ℚ} {i : Nat}
    (same : ∀ row, expenses[i]? = some row → g (f row) = g row) : (expenses.modify i f).map g = expenses.map g := by
  apply List.ext_getElem?
  intro id
  rw [List.getElem?_map,List.getElem?_map,List.getElem?_modify]
  cases found : expenses[id]? with
  | none => rfl
  | some row =>
    by_cases here : i = id
    · subst here
      simp [same row found]
    · simp [here]

theorem elim_eq_map (expenses : List Expense) (g : Expense → ℚ) (id : Nat) :
    expenses[id]?.elim 0 g = (expenses.map g)[id]?.getD 0 := by
  rw [List.getElem?_map]
  cases expenses[id]? <;> rfl

theorem sumExpensePayments_mem_grid (db : Database) (id : Nat) : db.sumExpensePayments id ∈ Decimal.grid 2 := by
  apply AddSubgroup.list_sum_mem
  intro amount member
  obtain ⟨payment,-,rfl⟩ := List.mem_map.mp member
  exact payment.amount.property

theorem total_mem_grid (expense : Expense) : expense.total ∈ Decimal.grid 2 :=
  add_mem expense.amount.property expense.taxAmount.property

/-- A payment that has passed the check. -/
def Sound : Process → Prop
  | .recording _ data expense currentPaid => currentPaid ∈ Decimal.grid 2 ∧ data.amount ≤ max (expense.total - currentPaid) 0
  | .committingPayment _ data expense currentPaid _ =>
    currentPaid ∈ Decimal.grid 2 ∧ data.amount ≤ max (expense.total - currentPaid) 0
  | _ => True

theorem money_le {amount bill paid : ℚ} (bounded : amount ≤ max (bill - paid) 0) (stored : 0 < (money amount).val)
    (exactBill : bill ∈ Decimal.grid 2) (exactPaid : paid ∈ Decimal.grid 2) : paid + (money amount).val ≤ bill := by
  have inside : max (bill - paid) 0 ∈ Decimal.grid 2 := by
    rcases max_choice (bill - paid) 0 with same | same <;> rw [same]
    · exact sub_mem exactBill exactPaid
    · exact zero_mem _
  have rounded : (money amount).val ≤ max (bill - paid) 0 := by
    calc (money amount).val ≤ Decimal.quantize 2 (max (bill - paid) 0) := Decimal.quantize_mono bounded
      _ = max (bill - paid) 0 := Decimal.quantize_of_mem_grid inside
  rcases le_max_iff.mp rounded with within | refused
  · linarith
  · exact absurd stored (not_lt.mpr refused)

theorem goto_sound {p : Nat} {after : Process} (sound : ∀ process ∈ s.processes, Sound process) (new : Sound after) :
    ∀ process ∈ (s.goto p after).processes, Sound process := by
  intro process member
  rcases List.mem_or_eq_of_mem_set member with old | rfl
  · exact sound process old
  · exact new

theorem commit_sound {p : Nat} {answer : Answer} {change : Option Database} (sound : ∀ process ∈ s.processes, Sound process) :
    ∀ process ∈ (s.commit p change answer).processes, Sound process := by
  cases change <;> exact goto_sound sound trivial

theorem sound_step (sound : ∀ process ∈ s.processes, Sound process) (taken : next s action = some t) :
    ∀ process ∈ t.processes, Sound process := by
  cases action with
  | begin request =>
    simp only [next,Option.ite_none_right_eq_some,Option.some.injEq] at taken
    obtain ⟨-,rfl⟩ := taken
    refine List.forall_mem_append.mpr ⟨sound,List.forall_mem_singleton.mpr ?_⟩
    cases request <;> trivial
  | abort p =>
    cases taken
    exact goto_sound sound trivial
  | advance p now shift =>
    obtain ⟨process,found,moved⟩ := Option.bind_eq_some_iff.mp taken
    have mine := sound process (List.mem_of_getElem? found)
    cases process with
    | creating | loadingPayments =>
      cases moved
      exact goto_sound sound trivial
    | recording =>
      cases moved
      exact goto_sound sound mine
    | paying | updating | deleting =>
      simp only [advance] at moved
      split at moved <;> cases moved <;> exact goto_sound sound trivial
    | summing id data expense =>
      simp only [advance] at moved
      split at moved
      · cases moved
        exact goto_sound sound trivial
      · next enough =>
        cases moved
        exact goto_sound sound ⟨sumExpensePayments_mem_grid s.db id,not_lt.mp enough⟩
    | committingCreate | committingPayment | committingUpdate | committingDelete | recordingSupplierPayment =>
      cases moved
      exact commit_sound sound
    | ended => cases moved

structure Paid (db : Database) : Prop where
  within : ∀ id, db.sumExpensePayments id ≤ db.expenses[id]?.elim 0 Expense.total
  positive : ∀ payment ∈ db.payments, 0 ≤ payment.amount.val

theorem Paid.paidWithin (paid : Paid db) : PaidWithin db := by
  intro id expense found
  have bound := paid.within id
  rwa [found] at bound

theorem tally_storePayment (id other : Nat) (payments : List CreateExpensePaymentRequest) :
    tally ExpensePayment.expenseId (fun payment => payment.amount.val) id
        ((payments.map (storePayment other)).filter ExpensePayment.counts) =
      if other = id then (payments.map fun payment => (money payment.amount).val).sum else 0 := by
  have all : (payments.map (storePayment other)).filter ExpensePayment.counts = payments.map (storePayment other) := by
    apply List.filter_eq_self.mpr
    intro payment member
    obtain ⟨data,-,rfl⟩ := List.mem_map.mp member
    rfl
  rw [all,tally_map]
  split
  · next here =>
    have every : payments.filter (fun data => (ExpensePayment.expenseId ∘ storePayment other) data = id) = payments := by
      simp [storePayment,here]
    rw [tally,every]
    rfl
  · next apart => exact tally_eq_zero fun _ _ same => apart same

theorem Paid.create {data : CreateExpenseRequest} {shift : Option Nat} (paid : Paid db)
    (fits : (data.payments.map fun payment => (money payment.amount).val).sum ≤ (storeExpense data).total)
    (wrote : createExpense db data shift = some db') : Paid db' := by
  simp only [createExpense,Option.ite_none_right_eq_some,Option.some.injEq] at wrote
  obtain ⟨⟨-,checked,-⟩,rfl⟩ := wrote
  constructor
  · intro id
    have before := paid.within id
    simp only [Database.sumExpensePayments,List.filter_append,tally_append,tally_storePayment,elim_append] at before ⊢
    split
    · linarith
    · linarith
  · refine List.forall_mem_append.mpr ⟨paid.positive,fun payment member => ?_⟩
    have above := List.all_eq_true.mp checked payment member
    exact le_of_lt (of_decide_eq_true above)

theorem Paid.pay {data : CreateExpensePaymentRequest} {shift : Option Nat} {row : Expense} {currentPaid bill : ℚ} (paid : Paid db)
    (found : db.expenses[id]? = some row) (unpaid : db.sumExpensePayments id ≤ currentPaid) (due : bill ≤ row.total)
    (enough : 0 < (money data.amount).val → currentPaid + (money data.amount).val ≤ bill)
    (wrote : addExpensePayment db id data shift = some db') : Paid db' := by
  simp only [addExpensePayment,Option.ite_none_right_eq_some,Option.some.injEq] at wrote
  obtain ⟨⟨-,stored⟩,rfl⟩ := wrote
  have bound := enough stored
  constructor
  · intro other
    have before := paid.within other
    have new := tally_storePayment other id [data]
    simp only [List.map_cons,List.map_nil,List.sum_singleton] at new
    simp only [Database.sumExpensePayments,List.filter_append,tally_append,new] at before ⊢
    split
    · next here =>
      subst here
      rw [found]
      have same : tally ExpensePayment.expenseId (fun payment => payment.amount.val) id (db.payments.filter ExpensePayment.counts) =
        db.sumExpensePayments id := rfl
      rw [same]
      simp only [Option.elim_some]
      linarith
    · linarith
  · exact List.forall_mem_append.mpr ⟨paid.positive,List.forall_mem_singleton.mpr stored.le⟩

theorem Paid.update {data : UpdateExpenseRequest} {loaded : Expense} (paid : Paid db)
    (above : ∀ row, db.expenses[id]? = some row → db.sumExpensePayments id ≤ (data.write loaded row).total)
    (wrote : updateExpense db id data loaded = some db') : Paid db' := by
  simp only [updateExpense,Option.ite_none_right_eq_some,Option.some.injEq] at wrote
  obtain ⟨-,rfl⟩ := wrote
  refine ⟨fun other => ?_,paid.positive⟩
  have before := paid.within other
  change db.sumExpensePayments other ≤ _
  simp only [List.getElem?_modify]
  cases found : db.expenses[other]? with
  | none =>
    rw [found] at before
    exact before
  | some row =>
    rw [found] at before
    by_cases here : id = other
    · subst here
      simpa using above row found
    · simpa [here] using before

theorem Paid.delete {payments : List Nat} (paid : Paid db) : Paid (deleteExpense db id payments now) := by
  constructor
  · intro other
    have bill : (db.expenses.modify id fun expense => { expense with deletedAt := some now })[other]?.elim 0 Expense.total =
        db.expenses[other]?.elim 0 Expense.total := by
      have same (row : Expense) : Expense.total { row with deletedAt := some now } = row.total := rfl
      rw [elim_eq_map,elim_eq_map,map_modify_same fun row _ => same row]
    refine le_trans ?_ ((paid.within other).trans_eq bill.symm)
    simp only [Database.sumExpensePayments,deleteExpense,tally_filter]
    apply sum_mapIdx_le
    intro i payment member
    have amount := paid.positive payment member
    by_cases selected : i ∈ payments
    · have gone : ({ payment with deletedAt := some now } : ExpensePayment).counts = false := rfl
      simp only [if_pos selected,gone,Bool.false_eq_true,false_and,if_false]
      split
      · exact amount
      · exact le_rfl
    · rw [if_neg selected]
  · intro payment member
    simp only [deleteExpense,List.mem_mapIdx] at member
    obtain ⟨i,inside,rfl⟩ := member
    have amount := paid.positive _ (List.getElem_mem inside)
    split <;> exact amount

structure Invariant (s : State) : Prop where
  paid : Paid s.db
  sound : ∀ process ∈ s.processes, Sound process

theorem Paid.step (paid : Paid s.db) (sound : ∀ process ∈ s.processes, Sound process) (allowed : covered s action = true)
    (taken : next s action = some t) : Paid t.db := by
  rcases step_cases taken with same | ⟨p,now,shift,process,rfl,found,wrote⟩
  · rw [same]
    exact paid
  simp only [covered,found] at allowed
  have mine := sound process (List.mem_of_getElem? found)
  cases process with
  | committingCreate data shift => exact paid.create (of_decide_eq_true allowed) wrote
  | committingPayment id data expense currentPaid shift =>
    simp only [Bool.and_eq_true,decide_eq_true_eq,Option.all_eq_true] at allowed
    obtain ⟨unpaid,due⟩ := allowed
    obtain ⟨exactPaid,checked⟩ := mine
    have there : s.db.expenses[id]?.isSome := by
      simp only [written,addExpensePayment,Option.ite_none_right_eq_some] at wrote
      exact wrote.1.1
    obtain ⟨row,stored⟩ := Option.isSome_iff_exists.mp there
    exact paid.pay stored unpaid (due row stored) (fun positive => money_le checked positive (total_mem_grid expense) exactPaid) wrote
  | committingUpdate id data expense =>
    simp only [Option.all_eq_true,decide_eq_true_eq] at allowed
    exact paid.update allowed wrote
  | committingDelete id payments =>
    rw [← Option.some.inj wrote]
    exact paid.delete
  | recordingSupplierPayment supplierId amount =>
    simp only [written,recordSupplierPayment,Option.ite_none_right_eq_some,Option.some.injEq] at wrote
    rw [← wrote.2]
    exact ⟨paid.within,paid.positive⟩
  | creating | paying | summing | recording | updating | deleting | loadingPayments | ended => cases wrote

private def started : State := ⟨⟨[],[],[],[]⟩,[]⟩

private def bill (supplierId : Option Nat) (amount taxAmount : ℚ) (paid : List ℚ) : Request :=
  .createExpense ⟨0,0,supplierId,none,0,amount,taxAmount,paid.map fun amount => ⟨.cash,amount⟩⟩

private def reprice (id : Nat) (amount : ℚ) : Request := .updateExpense id ⟨none,none,some amount,none⟩

private def run (p steps : Nat) : List Action := .replicate steps (.advance p 1 (some 5))

/-- Where first payments and updates stay within the bill and no payment commits on what has changed since its check, no expense
has more paid on it than it costs. -/
theorem expense_payments_within_bill (reached : Reachable Initial (OfNext (within covered next)) s) : PaidWithin s.db := by
  have invariant : Invariant s := by
    refine reached.invariant ?_ fun u action w kept taken => ?_
    · rintro u rfl
      exact ⟨⟨fun id => by simp [Database.sumExpensePayments],List.forall_mem_nil _⟩,List.forall_mem_nil _⟩
    · obtain ⟨allowed,stepped⟩ := within_eq_some.mp taken
      exact ⟨kept.paid.step kept.sound allowed stepped,sound_step kept.sound stepped⟩
  exact invariant.paid.paidWithin

/-- What the first expense costs, and what is paid on it. -/
private def paidOn (s : State) : Option ℚ × ℚ := (s.db.expenses[0]?.map Expense.total,s.db.sumExpensePayments 0)

/-- A bill of 100, paid at once with 60 and then with 40. -/
theorem expense_payments_within_bill_parts : ∃ s, paidOn s = (some 100,100) ∧ PaidWithin s.db := by
  obtain ⟨s,reached,view⟩ := reachable_of_execute (within covered next) paidOn
    ([.begin (bill none 100 0 [60]),.begin (.addExpensePayment 0 ⟨.card,40⟩)] ++ run 0 2 ++ run 1 4)
    (show Initial started from rfl) (b := (some 100,100)) (by decide +kernel)
  exact ⟨s,view,expense_payments_within_bill reached⟩

private theorem overpaid {cost paid : ℚ} (labels : List Action)
    (executed : (execute next started labels).map paidOn = some (some cost,paid)) (more : cost < paid) :
    ∃ s, Reachable Initial (OfNext next) s ∧ paidOn s = (some cost,paid) ∧ ¬ PaidWithin s.db := by
  obtain ⟨s,reached,view⟩ := reachable_of_execute next paidOn labels (show Initial started from rfl) executed
  simp only [paidOn,Prod.mk.injEq,Option.map_eq_some_iff] at view
  obtain ⟨⟨expense,found,rfl⟩,rfl⟩ := view
  refine ⟨s,reached,by simp [paidOn,found],fun within => ?_⟩
  exact absurd (within 0 expense found) (not_le.mpr more)

/-- First payments above the bill, an update below what is paid, and two payments of 60 that both find nothing paid on 100. -/
theorem expense_payments_exceed_bill :
    (∃ s, Reachable Initial (OfNext next) s ∧ paidOn s = (some 100,200) ∧ ¬ PaidWithin s.db) ∧
      (∃ s, Reachable Initial (OfNext next) s ∧ paidOn s = (some 50,100) ∧ ¬ PaidWithin s.db) ∧
      ∃ s, Reachable Initial (OfNext next) s ∧ paidOn s = (some 100,120) ∧ ¬ PaidWithin s.db := by
  refine ⟨overpaid ([.begin (bill none 100 0 [200])] ++ run 0 2) (by decide +kernel) (by norm_num),
    overpaid ([.begin (bill none 100 0 [100]),.begin (reprice 0 50)] ++ run 0 2 ++ run 1 2) (by decide +kernel) (by norm_num),
    overpaid ([.begin (bill none 100 0 []),.begin (.addExpensePayment 0 ⟨.cash,60⟩),.begin (.addExpensePayment 0 ⟨.cash,60⟩)] ++
      run 0 2 ++ run 1 2 ++ run 2 4 ++ run 1 2) (by decide +kernel) (by norm_num)⟩

theorem booked_owed {data : CreateExpenseRequest} (supplierId : Nat)
    (exact_ : data.supplierId.isNone ∨ (money (data.amount + data.taxAmount)).val = (storeExpense data).total) :
    (if data.supplierId = some supplierId then (money (-(data.amount + data.taxAmount))).val else 0) =
      -(storeExpense data).owed supplierId := by
  have live : (storeExpense data).deletedAt.isNone = true := rfl
  have same : (storeExpense data).supplierId = data.supplierId := rfl
  simp only [Expense.owed,live,same,true_and]
  split
  · next mine =>
    have whole := exact_.resolve_left (by simp [mine])
    have turned : (money (-(data.amount + data.taxAmount))).val = -(money (data.amount + data.taxAmount)).val :=
      Decimal.quantize_neg
    rw [turned,whole]
  · rw [neg_zero]

theorem LedgerAgrees.create {data : CreateExpenseRequest} {shift : Option Nat} (agrees : LedgerAgrees db)
    (exact_ : data.supplierId.isNone ∨ (money (data.amount + data.taxAmount)).val = (storeExpense data).total)
    (wrote : createExpense db data shift = some db') : LedgerAgrees db' := by
  simp only [createExpense,Option.ite_none_right_eq_some,Option.some.injEq] at wrote
  obtain ⟨-,rfl⟩ := wrote
  have new : (bookLiability db.expenses.length data).filter SupplierLedger.counts = bookLiability db.expenses.length data := by
    rw [bookLiability]
    split <;> rfl
  constructor
  · intro supplierId id
    have before := agrees.entries supplierId id
    have owed := booked_owed supplierId exact_
    simp only [Database.booked,List.filter_append,tally_append,new,elim_append] at before ⊢
    rw [before]
    have entry : tally (fun entry : SupplierLedger => (entry.supplierId,entry.referenceId)) (fun entry => entry.amount.val)
        (supplierId,some id) (bookLiability db.expenses.length data) = -(if db.expenses.length = id then
          (storeExpense data).owed supplierId else 0) := by
      by_cases here : db.expenses.length = id
      · rw [if_pos here,← owed,bookLiability]
        split <;> simp_all [tally_singleton]
      · rw [if_neg here,neg_zero,bookLiability]
        split <;> simp_all [tally_singleton]
    rw [entry,neg_add]
  · intro supplierId
    have before := agrees.balance supplierId
    have owed := booked_owed supplierId exact_
    simp only [Database.getSupplierBalance,Database.paidTo,List.filter_append,tally_append,new,List.map_append,List.sum_append,
      List.map_cons,List.map_nil,List.sum_singleton] at before ⊢
    have entry : tally SupplierLedger.supplierId (fun entry => entry.amount.val) supplierId (bookLiability db.expenses.length data) =
        -(storeExpense data).owed supplierId := by
      rw [← owed,bookLiability]
      split <;> simp_all [tally_singleton]
    have none : tally (fun entry : SupplierLedger => (entry.supplierId,entry.entryType)) (fun entry => entry.amount.val)
        (supplierId,.payment) (bookLiability db.expenses.length data) = 0 := by
      rw [bookLiability]
      split <;> simp [tally_singleton]
    rw [before,entry,none]
    ring

theorem LedgerAgrees.pay {supplierId : Nat} {amount : ℚ} (agrees : LedgerAgrees db)
    (wrote : recordSupplierPayment db supplierId amount = some db') : LedgerAgrees db' := by
  simp only [recordSupplierPayment,Option.ite_none_right_eq_some,Option.some.injEq] at wrote
  obtain ⟨-,rfl⟩ := wrote
  have new (entry : SupplierLedger) (live : entry.deletedAt = none) : [entry].filter SupplierLedger.counts = [entry] := by
    simp [SupplierLedger.counts,live]
  constructor
  · intro other id
    have before := agrees.entries other id
    simp only [Database.booked,List.filter_append,tally_append,new,tally_singleton] at before ⊢
    simpa using before
  · intro other
    have before := agrees.balance other
    simp only [Database.getSupplierBalance,Database.paidTo,List.filter_append,tally_append,new,tally_singleton,
      Prod.mk.injEq,and_true] at before ⊢
    rw [before]
    ring

theorem LedgerAgrees.modify {f : Expense → Expense} (agrees : LedgerAgrees db)
    (same : ∀ row, db.expenses[id]? = some row → ∀ supplierId, (f row).owed supplierId = row.owed supplierId)
    (others : db'.ledger = db.ledger) (changed : db'.expenses = db.expenses.modify id f) : LedgerAgrees db' := by
  have kept (supplierId : Nat) : db'.expenses.map (Expense.owed supplierId) = db.expenses.map (Expense.owed supplierId) := by
    rw [changed]
    exact map_modify_same fun row found => same row found supplierId
  constructor
  · intro supplierId other
    rw [elim_eq_map,kept,← elim_eq_map,← agrees.entries]
    simp only [Database.booked,others]
  · intro supplierId
    have before := agrees.balance supplierId
    simp only [Database.getSupplierBalance,Database.paidTo,others] at before ⊢
    rw [kept,before]

theorem LedgerAgrees.step (agrees : LedgerAgrees s.db) (allowed : settled s action = true) (taken : next s action = some t) :
    LedgerAgrees t.db := by
  rcases step_cases taken with same | ⟨p,now,shift,process,rfl,found,wrote⟩
  · rw [same]
    exact agrees
  simp only [settled,found] at allowed
  cases process with
  | committingCreate data shift =>
    simp only [Bool.or_eq_true,decide_eq_true_eq] at allowed
    exact agrees.create allowed wrote
  | committingPayment id data expense currentPaid shift =>
    simp only [written,addExpensePayment,Option.ite_none_right_eq_some,Option.some.injEq] at wrote
    rw [← wrote.2]
    exact ⟨agrees.entries,agrees.balance⟩
  | committingUpdate id data expense =>
    simp only [written,updateExpense,Option.ite_none_right_eq_some,Option.some.injEq] at wrote
    refine agrees.modify (fun row stored supplierId => ?_) (by rw [← wrote.2]) (by rw [← wrote.2])
    have kept : (data.write expense row).deletedAt = row.deletedAt ∧ (data.write expense row).supplierId = row.supplierId :=
      ⟨rfl,rfl⟩
    simp only [Option.all_eq_true,Bool.or_eq_true,decide_eq_true_eq] at allowed
    simp only [Expense.owed,kept]
    rcases allowed row stored with (none | gone) | same
    · rw [Option.isNone_iff_eq_none.mp none]
      simp
    · rw [Option.isNone_eq_false_iff.mpr gone]
      simp
    · rw [same]
  | committingDelete id payments =>
    simp only [written,Option.some.injEq] at wrote
    refine agrees.modify (fun row stored supplierId => ?_) (by rw [← wrote]; rfl) (by rw [← wrote]; rfl)
    simp only [Option.all_eq_true,Bool.or_eq_true] at allowed
    simp only [Expense.owed]
    rcases allowed row stored with none | gone
    · rw [Option.isNone_iff_eq_none.mp none]
      simp
    · rw [Option.isNone_eq_false_iff.mpr gone]
      simp
  | recordingSupplierPayment supplierId amount => exact agrees.pay wrote
  | creating | paying | summing | recording | updating | deleting | loadingPayments | ended => cases wrote

/-- What the first supplier is owed for the first expense, and what is booked for it. -/
private def bookedFor (s : State) : Option ℚ × ℚ := (s.db.expenses[0]?.map (Expense.owed 0),s.db.booked 0 0)

private theorem misbooked {owed booked : ℚ} (labels : List Action)
    (executed : (execute next started labels).map bookedFor = some (some owed,booked)) (apart : booked ≠ -owed) :
    ∃ s, Reachable Initial (OfNext next) s ∧ bookedFor s = (some owed,booked) ∧ ¬ LedgerAgrees s.db := by
  obtain ⟨s,reached,view⟩ := reachable_of_execute next bookedFor labels (show Initial started from rfl) executed
  refine ⟨s,reached,view,fun agrees => apart ?_⟩
  simp only [bookedFor,Prod.mk.injEq,Option.map_eq_some_iff] at view
  obtain ⟨⟨expense,found,rfl⟩,rfl⟩ := view
  have entries := agrees.entries 0 0
  rwa [found] at entries

end Expenses
