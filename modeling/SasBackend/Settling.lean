import SasBackend.Semantics.Settling

/-! Settling conserves money: what is tendered is applied or given back, and only cash is given back.
-/
namespace Settling
open SasBackend
open Pricing (SettlementRefusal)

variable {due cashApplied : ℚ} {payments done : List PaymentInput} {payment : PaymentInput} {progress : Progress}
  {row : AppliedPayment} {rows : List AppliedPayment}

def AppliedPayment.Balanced (row : AppliedPayment) : Prop :=
  0 < row.amount ∧ row.tendered = row.amount + row.change ∧ 0 ≤ row.change ∧ (0 < row.change → row.method = .cash)

def cashRows (rows : List AppliedPayment) : List AppliedPayment := rows.filter (·.method = .cash)

def nonCashRows (rows : List AppliedPayment) : List AppliedPayment := rows.filter (·.method ≠ .cash)

def sumOf (value : AppliedPayment → ℚ) (rows : List AppliedPayment) : ℚ := (rows.map value).sum

/-- What is applied, tendered and given back. -/
structure Settled (due : ℚ) (payments : List PaymentInput) (settlement : Settlement) : Prop where
  capped : settlement.totalApplied = min due (total payments)
  balanced : ∀ row ∈ settlement.payments, row.Balanced
  applied : sumOf AppliedPayment.amount settlement.payments = settlement.totalApplied
  others : nonCashRows settlement.payments = (nonCash payments).map PaymentInput.inFull
  tendered : sumOf AppliedPayment.tendered settlement.payments = total payments
  changes : sumOf AppliedPayment.change settlement.payments = settlement.changeGiven
  changeGiven : settlement.changeGiven = total payments - settlement.totalApplied
  credit : settlement.creditAmount = sumOf AppliedPayment.amount (settlement.payments.filter (·.method = .credit))

/-- A payment is missing, other means exceed what is due, or nothing is left for the cash. -/
def Rejectable (due : ℚ) (payments : List PaymentInput) (requirePayment : Bool) : Prop :=
  requirePayment = true ∧ 0 < due ∧ payments = [] ∨ due < total (nonCash payments) ∨
    0 < total (cash payments) ∧ due - total (nonCash payments) ≤ 0

theorem foldl_exact {round : ℚ → ℚ} {values : List ℚ} {start : ℚ} (kept : ∀ some_, some_ <+: values → round (start + some_.sum) = start + some_.sum) :
    values.foldl (fun sum value => round (sum + value)) start = start + values.sum := by
  induction values using List.reverseRecOn with
  | nil => simp
  | append_singleton values value induction =>
    have whole := kept _ List.prefix_rfl
    rw [List.sum_append,List.sum_singleton,← add_assoc] at whole
    rw [List.foldl_concat,induction fun some_ first => kept some_ (first.trans (List.prefix_append _ _)),whole,List.sum_append,
      List.sum_singleton,add_assoc]

theorem added_eq_sum {round : ℚ → ℚ} {values : List ℚ} (kept : ∀ some_, some_ <+: values → round some_.sum = some_.sum) :
    added round values = values.sum := by
  refine (foldl_exact fun some_ first => ?_).trans (zero_add _)
  rw [zero_add]
  exact kept some_ first

@[simp] theorem added_id (values : List ℚ) : added id values = values.sum := added_eq_sum fun _ _ => rfl

theorem total_split (payments : List PaymentInput) : total payments = total (nonCash payments) + total (cash payments) := by
  unfold total nonCash cash
  induction payments with
  | nil => simp
  | cons payment rest induction =>
    by_cases method : payment.paymentMethod = .cash
    · simp only [method,List.map_cons,List.sum_cons,induction,List.filter_cons]
      simp
      ring
    · simp only [List.map_cons,List.sum_cons,induction,List.filter_cons]
      simp [method]
      ring

theorem sumOf_split (value : AppliedPayment → ℚ) (rows : List AppliedPayment) :
    sumOf value rows = sumOf value (nonCashRows rows) + sumOf value (cashRows rows) := by
  unfold sumOf nonCashRows cashRows
  induction rows with
  | nil => simp
  | cons row rest induction =>
    by_cases method : row.method = .cash
    · simp only [List.map_cons,List.sum_cons,induction,List.filter_cons]
      simp [method]
      ring
    · simp only [List.map_cons,List.sum_cons,induction,List.filter_cons]
      simp [method]
      ring

@[simp] theorem sumOf_append (value : AppliedPayment → ℚ) (first second : List AppliedPayment) :
    sumOf value (first ++ second) = sumOf value first + sumOf value second := by
  unfold sumOf
  rw [List.map_append,List.sum_append]

@[simp] theorem sumOf_singleton (value : AppliedPayment → ℚ) (row : AppliedPayment) : sumOf value [row] = value row := by
  simp [sumOf]

@[simp] theorem total_append (first second : List PaymentInput) : total (first ++ second) = total first + total second := by
  unfold total
  rw [List.map_append,List.sum_append]

@[simp] theorem cashRows_append (first second : List AppliedPayment) :
    cashRows (first ++ second) = cashRows first ++ cashRows second := List.filter_append _ _

@[simp] theorem nonCashRows_append (first second : List AppliedPayment) :
    nonCashRows (first ++ second) = nonCashRows first ++ nonCashRows second := List.filter_append _ _

@[simp] theorem cash_append (first second : List PaymentInput) : cash (first ++ second) = cash first ++ cash second :=
  List.filter_append _ _

@[simp] theorem nonCash_append (first second : List PaymentInput) :
    nonCash (first ++ second) = nonCash first ++ nonCash second := List.filter_append _ _

/-- The place is that of a cash row; without a place there is none. -/
def LastCash (rows : List AppliedPayment) : Option Nat → Prop
  | none => cashRows rows = []
  | some index => ∃ row, rows[index]? = some row ∧ row.method = .cash

/-- The loop after some of the tenders. -/
structure Applying (cashApplied : ℚ) (done : List PaymentInput) (progress : Progress) : Prop where
  balanced : ∀ row ∈ progress.applied, row.Balanced
  others : nonCashRows progress.applied = (nonCash done).map PaymentInput.inFull
  taken : sumOf AppliedPayment.amount (cashRows progress.applied) + progress.cashLeft = cashApplied
  left : progress.cashLeft = max (cashApplied - total (cash done)) 0
  tendered : sumOf AppliedPayment.tendered (cashRows progress.applied) ≤ total (cash done)
  last : LastCash progress.applied progress.lastCashIndex

theorem Applying.initial (positive : 0 ≤ cashApplied) : Applying cashApplied [] ⟨[],cashApplied,none⟩ where
  balanced := fun _ member => nomatch member
  others := rfl
  taken := by simp [sumOf,cashRows]
  left := by simp [total,cash,positive]
  tendered := by simp [sumOf,cashRows,total,cash]
  last := rfl

private theorem LastCash.append {last : Option Nat} (known : LastCash rows last) {more : AppliedPayment}
    (none_ : cashRows [more] = []) : LastCash (rows ++ [more]) last := by
  cases last with
  | none =>
    change cashRows (rows ++ [more]) = []
    have before : cashRows rows = [] := known
    rw [cashRows_append,before,none_,List.append_nil]
  | some index =>
    obtain ⟨row,found,method⟩ := known
    have bound := (List.getElem?_eq_some_iff.mp found).1
    exact ⟨row,by rw [List.getElem?_append_left bound,found],method⟩

theorem Applying.nonCashStep (applying : Applying cashApplied done progress) (positive : 0 < payment.amount)
    (method : payment.paymentMethod ≠ .cash) : Applying cashApplied (done ++ [payment]) (applyPayment id progress payment) := by
  have row : cashRows [payment.inFull] = [] := by simp [cashRows,PaymentInput.inFull,method]
  have row' : nonCashRows [payment.inFull] = [payment.inFull] := by simp [nonCashRows,PaymentInput.inFull,method]
  have input : cash [payment] = [] := by simp [cash,method]
  have input' : nonCash [payment] = [payment] := by simp [nonCash,method]
  rw [applyPayment,if_pos method]
  refine ⟨fun other member => ?_,?_,?_,?_,?_,applying.last.append row⟩
  · rcases List.mem_append.mp member with old | new
    · exact applying.balanced other old
    · rw [List.mem_singleton.mp new]
      exact ⟨positive,(add_zero _).symm,le_refl _,fun change => absurd change (lt_irrefl _)⟩
  · rw [nonCashRows_append,nonCash_append,row',input',applying.others,List.map_append]
    rfl
  · rw [cashRows_append,row,List.append_nil]
    exact applying.taken
  · rw [cash_append,input,List.append_nil]
    exact applying.left
  · rw [cashRows_append,cash_append,row,input,List.append_nil,List.append_nil]
    exact applying.tendered

theorem Applying.cashStep (applying : Applying cashApplied done progress) (positive : 0 < payment.amount)
    (method : payment.paymentMethod = .cash) : Applying cashApplied (done ++ [payment]) (applyPayment id progress payment) := by
  have input : cash [payment] = [payment] := by simp [cash,method]
  have input' : nonCash [payment] = [] := by simp [nonCash,method]
  have amount : total [payment] = payment.amount := by simp [total]
  have left : progress.cashLeft - min payment.amount progress.cashLeft =
      max (cashApplied - total (cash (done ++ [payment]))) 0 := by
    rw [cash_append,input,total_append,amount,applying.left]
    rcases le_total (cashApplied - total (cash done)) 0 with used | open_
    · rw [max_eq_right used,min_eq_right positive.le,max_eq_right (by linarith)]
      ring
    · rw [max_eq_left open_]
      rcases le_total payment.amount (cashApplied - total (cash done)) with less | more
      · rw [min_eq_left less,max_eq_left (by linarith)]
        ring
      · rw [min_eq_right more,max_eq_right (by linarith)]
        ring
  rw [applyPayment,if_neg (not_not.mpr method)]
  dsimp only
  split
  · next nothing =>
    have empty : progress.cashLeft ≤ 0 := (min_le_iff.mp nothing).resolve_left (not_le.mpr positive)
    have zero : min payment.amount progress.cashLeft = 0 := by
      have known := applying.left
      have none_ : 0 ≤ progress.cashLeft := known ▸ le_max_right _ _
      exact le_antisymm nothing (le_min positive.le none_)
    refine ⟨applying.balanced,?_,?_,left,?_,applying.last⟩
    · rw [nonCash_append,input',List.append_nil]
      exact applying.others
    · rw [zero,sub_zero]
      exact applying.taken
    · rw [cash_append,input,total_append,amount]
      linarith [applying.tendered]
  · next some_ =>
    have take : 0 < min payment.amount progress.cashLeft := not_le.mp some_
    have row : cashRows [payment.taking id (min payment.amount progress.cashLeft)] =
        [payment.taking id (min payment.amount progress.cashLeft)] := by simp [cashRows,PaymentInput.taking,method]
    have row' : nonCashRows [payment.taking id (min payment.amount progress.cashLeft)] = [] := by
      simp [nonCashRows,PaymentInput.taking,method]
    refine ⟨fun other member => ?_,?_,?_,left,?_,?_⟩
    · rcases List.mem_append.mp member with old | new
      · exact applying.balanced other old
      · rw [List.mem_singleton.mp new]
        have less := min_le_left payment.amount progress.cashLeft
        exact ⟨take,(add_sub_cancel _ _).symm,sub_nonneg.mpr less,fun _ => method⟩
    · rw [nonCashRows_append,nonCash_append,row',input',List.append_nil,List.append_nil]
      exact applying.others
    · rw [cashRows_append,row,sumOf_append,sumOf_singleton]
      have taken := applying.taken
      simp only [PaymentInput.taking,id_eq]
      linarith
    · rw [cashRows_append,row,sumOf_append,sumOf_singleton,cash_append,input,total_append,amount]
      have tendered := applying.tendered
      simp only [PaymentInput.taking,id_eq]
      linarith
    · exact ⟨_,List.getElem?_concat_length,method⟩

theorem Applying.run (positive : ∀ payment ∈ payments, 0 < payment.amount) : ∀ {done : List PaymentInput} {progress : Progress},
    Applying cashApplied done progress → Applying cashApplied (done ++ payments) (payments.foldl (applyPayment id) progress) := by
  induction payments with
  | nil =>
    intro done progress applying
    rw [List.append_nil]
    exact applying
  | cons payment rest induction =>
    intro done progress applying
    have first := positive payment List.mem_cons_self
    have next : Applying cashApplied (done ++ [payment]) (applyPayment id progress payment) := by
      by_cases method : payment.paymentMethod = .cash
      · exact applying.cashStep first method
      · exact applying.nonCashStep first method
    have later := induction (fun other member => positive other (List.mem_cons_of_mem _ member)) next
    rw [List.append_assoc] at later
    exact later

theorem sumOf_balanced (balanced : ∀ row ∈ rows, row.Balanced) :
    sumOf AppliedPayment.tendered rows = sumOf AppliedPayment.amount rows + sumOf AppliedPayment.change rows := by
  induction rows with
  | nil => simp [sumOf]
  | cons row rest induction =>
    have later := induction fun other member => balanced other (List.mem_cons_of_mem _ member)
    have own := (balanced row List.mem_cons_self).2.1
    simp only [sumOf,List.map_cons,List.sum_cons] at later ⊢
    rw [later,own]
    ring

/-- More change on a cash row. -/
structure Widened (extra : ℚ) (rows widened : List AppliedPayment) : Prop where
  balanced : ∀ row ∈ widened, row.Balanced
  others : nonCashRows widened = nonCashRows rows
  amounts : sumOf AppliedPayment.amount widened = sumOf AppliedPayment.amount rows
  changes : sumOf AppliedPayment.change widened = sumOf AppliedPayment.change rows + extra

theorem widened_modify {extra : ℚ} (balanced : ∀ row ∈ rows, row.Balanced) (positive : 0 ≤ extra) {index : Nat}
    (found : rows[index]? = some row) (method : row.method = .cash) :
    Widened extra rows (rows.modify index (AppliedPayment.addChange id extra)) := by
  obtain ⟨left,other,right,split,place,changed⟩ :=
    List.exists_of_modify (AppliedPayment.addChange id extra) (List.getElem?_eq_some_iff.mp found).1
  have same : other = row := by
    rw [split,← place] at found
    simpa using found
  subst same
  rw [changed]
  have own := balanced other (by rw [split]; simp)
  refine ⟨fun one member => ?_,?_,?_,?_⟩
  · rcases List.mem_append.mp member with old | later
    · exact balanced one (by rw [split]; exact List.mem_append_left _ old)
    · rcases List.mem_cons.mp later with rfl | old
      · obtain ⟨amount,tendered,change,-⟩ := own
        refine ⟨amount,?_,add_nonneg change positive,fun _ => method⟩
        simp only [AppliedPayment.addChange,tendered,id_eq]
        ring
      · exact balanced one (by rw [split]; exact List.mem_append_right _ (List.mem_cons_of_mem _ old))
  · rw [split]
    simp [nonCashRows,AppliedPayment.addChange,method]
  · rw [split]
    simp [sumOf,AppliedPayment.addChange]
  · rw [split]
    simp only [sumOf,AppliedPayment.addChange,id_eq,List.map_append,List.sum_append,List.map_cons,List.sum_cons]
    ring

theorem sumOf_inFull (payments : List PaymentInput) :
    sumOf AppliedPayment.amount (payments.map PaymentInput.inFull) = total payments ∧
      sumOf AppliedPayment.tendered (payments.map PaymentInput.inFull) = total payments := by
  simp [sumOf,total,PaymentInput.inFull,Function.comp_def]

/-- The rows once all change is on them. -/
theorem Applying.folded (applying : Applying cashApplied payments progress) (less : cashApplied ≤ total (cash payments))
    (some_ : 0 < total (cash payments) → 0 < cashApplied) :
    let rows := foldChange id (total (cash payments) - cashApplied) progress
    (∀ row ∈ rows, row.Balanced) ∧ nonCashRows rows = (nonCash payments).map PaymentInput.inFull ∧
      sumOf AppliedPayment.amount rows = total (nonCash payments) + cashApplied ∧
        sumOf AppliedPayment.change rows = total (cash payments) - cashApplied := by
  have left : progress.cashLeft = 0 := by
    rw [applying.left]
    exact max_eq_right (by linarith)
  have taken : sumOf AppliedPayment.amount (cashRows progress.applied) = cashApplied := by
    have taken := applying.taken
    rw [left] at taken
    linarith
  have amounts : sumOf AppliedPayment.amount progress.applied = total (nonCash payments) + cashApplied := by
    rw [sumOf_split,applying.others,(sumOf_inFull _).1,taken]
  have accounted : sumOf AppliedPayment.change progress.applied =
      sumOf AppliedPayment.tendered (cashRows progress.applied) - cashApplied := by
    have tendered := sumOf_balanced applying.balanced
    rw [sumOf_split,applying.others,(sumOf_inFull _).2,amounts] at tendered
    linarith
  unfold foldChange
  rw [added_id]
  cases known : progress.lastCashIndex with
  | none =>
    have none_ : cashRows progress.applied = [] := by
      have last := applying.last
      rw [known] at last
      exact last
    rw [none_] at taken accounted
    have nothing : cashApplied = 0 := by simpa [sumOf] using taken.symm
    have tendered : total (cash payments) = 0 :=
      le_antisymm (not_lt.mp fun paid => absurd (some_ paid) (by rw [nothing]; exact lt_irrefl _)) (nothing ▸ less)
    dsimp only
    refine ⟨applying.balanced,applying.others,amounts,?_⟩
    rw [accounted,nothing,tendered]
    simp [sumOf]
  | some index =>
    dsimp only
    split
    · next same => exact ⟨applying.balanced,applying.others,amounts,same⟩
    · obtain ⟨row,found,method⟩ : LastCash progress.applied (some index) := known ▸ applying.last
      have extra : 0 ≤ total (cash payments) - cashApplied - sumOf AppliedPayment.change progress.applied := by
        rw [accounted]
        linarith [applying.tendered]
      have widened := widened_modify applying.balanced extra found method
      refine ⟨widened.balanced,widened.others.trans applying.others,widened.amounts.trans amounts,widened.changes.trans ?_⟩
      ring

theorem total_nonneg (positive : ∀ payment ∈ payments, 0 < payment.amount) (kept : PaymentInput → Bool) :
    0 ≤ total (payments.filter kept) := by
  refine List.sum_nonneg fun amount member => ?_
  obtain ⟨payment,there,rfl⟩ := List.mem_map.mp member
  exact (positive payment (List.mem_of_mem_filter there)).le

/-- What a settlement that is not refused consists of. -/
theorem settled (positive : ∀ payment ∈ payments, 0 < payment.amount) (fits : ¬due < total (nonCash payments))
    (open_ : ¬(0 < total (cash payments) ∧ due - total (nonCash payments) ≤ 0)) :
    let cashApplied := min (total (cash payments)) (due - total (nonCash payments))
    let applied := foldChange id (total (cash payments) - cashApplied) (applyPayments id cashApplied payments)
    Settled due payments
      { payments := applied
        totalApplied := (applied.map AppliedPayment.amount).sum
        changeGiven := total (cash payments) - cashApplied
        creditAmount := ((applied.filter (·.method = .credit)).map AppliedPayment.amount).sum } := by
  intro cashApplied applied
  have whole := total_split payments
  have tendered : 0 ≤ total (cash payments) := total_nonneg positive _
  have nonneg : 0 ≤ cashApplied := le_min tendered (sub_nonneg.mpr (not_lt.mp fits))
  have applying : Applying cashApplied payments (applyPayments id cashApplied payments) := (Applying.initial nonneg).run positive
  obtain ⟨balanced,others,amounts,changes⟩ := applying.folded (min_le_left _ _)
    (fun paid => lt_min paid (not_le.mp fun none_ => open_ ⟨paid,none_⟩))
  have capped : total (nonCash payments) + cashApplied = min due (total payments) := by
    rcases le_total (total (cash payments)) (due - total (nonCash payments)) with less | more
    · have taken : cashApplied = total (cash payments) := min_eq_left less
      rw [min_eq_right (by linarith),taken,whole]
    · have taken : cashApplied = due - total (nonCash payments) := min_eq_right more
      rw [min_eq_left (by linarith),taken]
      ring
  refine ⟨amounts.trans capped,balanced,rfl,others,?_,changes,?_,rfl⟩
  · rw [sumOf_balanced balanced,amounts,changes,whole]
    ring
  · change _ = _ - sumOf AppliedPayment.amount applied
    rw [amounts,whole]
    ring

theorem settled_nil (dueNonneg : 0 ≤ due) : Settled due [] ⟨[],0,0,0⟩ := by
  refine ⟨?_,fun _ member => (nomatch member),rfl,rfl,rfl,rfl,?_,rfl⟩
  · simpa [total] using dueNonneg
  · simp [total]

/-- Whatever is accepted is settled. -/
theorem settled_of_accepted {requirePayment : Bool} {settlement : Settlement} (dueNonneg : 0 ≤ due)
    (positive : ∀ payment ∈ payments, 0 < payment.amount)
    (accepted : settlePayments id due payments requirePayment = .ok settlement) : Settled due payments settlement := by
  unfold settlePayments at accepted
  by_cases empty : payments = []
  · subst empty
    rw [List.isEmpty_nil,if_pos rfl] at accepted
    split at accepted
    · cases accepted
    · cases accepted
      exact settled_nil dueNonneg
  · have some_ : payments.isEmpty = false := by simpa using empty
    have valid : payments.any (·.amount ≤ 0) = false := by simpa using positive
    rw [some_,valid] at accepted
    simp only [Bool.false_eq_true,if_false,added_id,id_eq] at accepted
    split at accepted
    · cases accepted
    · next fits =>
      split at accepted
      · cases accepted
      · next open_ =>
        cases accepted
        exact settled positive fits open_

/-- In exact arithmetic what is settled conserves money, and exactly what cannot be settled is refused. -/
theorem settlement_exact (requirePayment : Bool) (dueNonneg : 0 ≤ due) (positive : ∀ payment ∈ payments, 0 < payment.amount) :
    (∀ settlement, settlePayments id due payments requirePayment = .ok settlement → Settled due payments settlement) ∧
      ((∃ refusal, settlePayments id due payments requirePayment = .error refusal) ↔ Rejectable due payments requirePayment) := by
  refine ⟨fun settlement accepted => settled_of_accepted dueNonneg positive accepted,?_⟩
  unfold settlePayments Rejectable
  by_cases empty : payments = []
  · subst empty
    have nothing : total (nonCash []) = 0 ∧ total (cash []) = 0 := by simp [total,nonCash,cash]
    rw [nothing.1,nothing.2]
    by_cases required : requirePayment = true ∧ 0 < due
    · simp [required]
    · have free : (requirePayment && decide (due > 0)) = false := by simpa using required
      rw [List.isEmpty_nil,if_pos rfl,free]
      simp only [Bool.false_eq_true,if_false]
      constructor
      · rintro ⟨_,refused⟩
        cases refused
      · rintro (⟨must,some_,-⟩ | beyond | ⟨paid,-⟩)
        · exact absurd ⟨must,some_⟩ required
        · exact absurd beyond (not_lt.mpr dueNonneg)
        · exact absurd paid (lt_irrefl _)
  · have some_ : payments.isEmpty = false := by simpa using empty
    have valid : payments.any (·.amount ≤ 0) = false := by simpa using positive
    rw [some_,valid]
    simp only [Bool.false_eq_true,if_false,added_id,id_eq]
    split
    · next beyond => exact ⟨fun _ => .inr (.inl beyond),fun _ => ⟨_,rfl⟩⟩
    · next fits =>
      split
      · next none_ => exact ⟨fun _ => .inr (.inr none_),fun _ => ⟨_,rfl⟩⟩
      · next open_ =>
        constructor
        · rintro ⟨_,refused⟩
          cases refused
        · rintro (⟨-,-,none_⟩ | beyond | none_)
          · exact absurd none_ empty
          · exact absurd beyond fits
          · exact absurd none_ open_

def PaymentInput.core (payment : PaymentInput) : Pricing.Payment := ⟨payment.paymentMethod,payment.amount⟩

def AppliedPayment.core (row : AppliedPayment) : Pricing.AppliedPayment := ⟨row.method,row.amount,row.tendered,row.change⟩

def Settlement.core (settlement : Settlement) : Pricing.Settlement :=
  ⟨settlement.payments.map AppliedPayment.core,settlement.totalApplied,settlement.changeGiven,settlement.creditAmount⟩

theorem lastCashIndex_snoc (rows : List Pricing.AppliedPayment) (row : Pricing.AppliedPayment) :
    Pricing.lastCashIndex (rows ++ [row]) = if row.method = .cash then some rows.length else Pricing.lastCashIndex rows := by
  unfold Pricing.lastCashIndex
  rw [List.zipIdx_append,List.filter_append]
  by_cases method : row.method = .cash
  · simp [method]
  · simp [method]

theorem applyPayments_core (payments : List PaymentInput) : ∀ progress : Progress,
    progress.lastCashIndex = Pricing.lastCashIndex (progress.applied.map AppliedPayment.core) →
      (payments.foldl (applyPayment id) progress).applied.map AppliedPayment.core =
          progress.applied.map AppliedPayment.core ++ Pricing.applyPayments progress.cashLeft (payments.map PaymentInput.core) ∧
        (payments.foldl (applyPayment id) progress).lastCashIndex =
          Pricing.lastCashIndex ((payments.foldl (applyPayment id) progress).applied.map AppliedPayment.core) := by
  induction payments with
  | nil => exact fun progress known => ⟨by simp [Pricing.applyPayments],known⟩
  | cons payment rest induction =>
    intro progress known
    rw [List.foldl_cons,List.map_cons,Pricing.applyPayments]
    have snoc (more : AppliedPayment) : (progress.applied ++ [more]).map AppliedPayment.core =
        progress.applied.map AppliedPayment.core ++ [more.core] := by rw [List.map_append,List.map_singleton]
    by_cases method : payment.paymentMethod = .cash
    · have step : applyPayment id progress payment =
          if min payment.amount progress.cashLeft ≤ 0 then
            { progress with cashLeft := progress.cashLeft - min payment.amount progress.cashLeft }
          else ⟨progress.applied ++ [payment.taking id (min payment.amount progress.cashLeft)],
            progress.cashLeft - min payment.amount progress.cashLeft,some progress.applied.length⟩ := by
        rw [applyPayment,if_neg (not_not.mpr method)]
        rfl
      have method' : ¬payment.core.paymentMethod ≠ .cash := not_not.mpr method
      rw [step,if_neg method']
      split
      · next nothing =>
        have none_ : min payment.core.amount progress.cashLeft ≤ 0 := nothing
        dsimp only
        rw [if_pos none_]
        exact induction _ known
      · next some_ =>
        have take : ¬min payment.core.amount progress.cashLeft ≤ 0 := some_
        have cash_ : (payment.taking id (min payment.amount progress.cashLeft)).core.method = .cash := method
        obtain ⟨rows,last⟩ := induction ⟨progress.applied ++ [payment.taking id (min payment.amount progress.cashLeft)],
            progress.cashLeft - min payment.amount progress.cashLeft,some progress.applied.length⟩
          (by rw [snoc,lastCashIndex_snoc,if_pos cash_,List.length_map])
        refine ⟨rows.trans ?_,last⟩
        dsimp only
        rw [if_neg take,snoc,List.append_assoc]
        simp [PaymentInput.taking,AppliedPayment.core,PaymentInput.core,method]
    · have step : applyPayment id progress payment = { progress with applied := progress.applied ++ [payment.inFull] } := by
        rw [applyPayment,if_pos method]
      have method' : payment.core.paymentMethod ≠ .cash := method
      have other : ¬payment.inFull.core.method = .cash := method
      obtain ⟨rows,last⟩ := induction { progress with applied := progress.applied ++ [payment.inFull] }
        (by rw [snoc,lastCashIndex_snoc,if_neg other,known])
      rw [step,if_pos method']
      refine ⟨rows.trans ?_,last⟩
      rw [snoc,List.append_assoc]
      rfl

theorem foldChange_core {changeTotal : ℚ}
    (known : progress.lastCashIndex = Pricing.lastCashIndex (progress.applied.map AppliedPayment.core)) :
    (foldChange id changeTotal progress).map AppliedPayment.core =
      Pricing.foldChange changeTotal (progress.applied.map AppliedPayment.core) := by
  have sums : ((progress.applied.map AppliedPayment.core).map Pricing.AppliedPayment.change).sum =
      (progress.applied.map AppliedPayment.change).sum := by
    rw [List.map_map]
    rfl
  unfold foldChange Pricing.foldChange
  rw [← known,sums,added_id]
  cases progress.lastCashIndex with
  | none => rfl
  | some last =>
    dsimp only
    split
    · rfl
    · refine List.ext_getElem? fun place => ?_
      simp only [List.getElem?_map,List.getElem?_modify]
      cases progress.applied[place]? with
      | none => rfl
      | some row =>
        by_cases here : last = place
        · simp [here,AppliedPayment.addChange,Pricing.AppliedPayment.addChange,AppliedPayment.core]
        · simp [here]

theorem accepted_core (cashApplied changeTotal : ℚ) (payments : List PaymentInput) :
    let applied := foldChange id changeTotal (applyPayments id cashApplied payments)
    let core := Pricing.foldChange changeTotal (Pricing.applyPayments cashApplied (payments.map PaymentInput.core))
    Settlement.core
        { payments := applied
          totalApplied := (applied.map AppliedPayment.amount).sum
          changeGiven := changeTotal
          creditAmount := ((applied.filter (·.method = .credit)).map AppliedPayment.amount).sum } =
      { payments := core
        totalApplied := (core.map Pricing.AppliedPayment.amount).sum
        changeGiven := changeTotal
        creditAmount := ((core.filter (·.method = .credit)).map Pricing.AppliedPayment.amount).sum } := by
  intro applied core
  obtain ⟨rows,last⟩ := applyPayments_core payments ⟨[],cashApplied,none⟩ rfl
  have same : applied.map AppliedPayment.core = core := by
    have known : (applyPayments id cashApplied payments).lastCashIndex =
        Pricing.lastCashIndex ((applyPayments id cashApplied payments).applied.map AppliedPayment.core) := last
    rw [foldChange_core known]
    exact congrArg (Pricing.foldChange changeTotal) (rows.trans (List.nil_append _))
  rw [← same]
  simp only [Settlement.core,List.map_map,List.filter_map,Function.comp_def]
  rfl

/-- The settlement of the payments as they are without their references. -/
theorem settlePayments_core (due : ℚ) (payments : List PaymentInput) (requirePayment : Bool) :
    (settlePayments id due payments requirePayment).map Settlement.core =
      Pricing.settlePayments due (payments.map PaymentInput.core) requirePayment := by
  have totals (kept : PaymentMethod → Bool) :
      Pricing.total ((payments.map PaymentInput.core).filter fun payment => kept payment.paymentMethod) =
        total (payments.filter fun payment => kept payment.paymentMethod) := by
    rw [List.filter_map,Pricing.total,List.map_map]
    rfl
  have cash_ := totals fun method => decide (method = .cash)
  have others := totals fun method => decide (method ≠ .cash)
  have invalid : (payments.map PaymentInput.core).any (·.amount ≤ 0) = payments.any (·.amount ≤ 0) := by
    rw [List.any_map]
    rfl
  have empty : (payments.map PaymentInput.core).isEmpty = payments.isEmpty := by simp
  unfold settlePayments Pricing.settlePayments
  rw [empty,invalid]
  split
  · split
    · rfl
    · rfl
  · split
    · rfl
    · simp only [cash_,others,added_id,id_eq]
      change Except.map _ (if total (nonCash payments) > due then _ else _) = if total (nonCash payments) > due then _ else _
      split
      · rfl
      · change Except.map _ (if total (cash payments) > 0 ∧ due - total (nonCash payments) ≤ 0 then _ else _) =
          if total (cash payments) > 0 ∧ due - total (nonCash payments) ≤ 0 then _ else _
        split
        · rfl
        · exact congrArg Except.ok (accepted_core (min (total (cash payments)) (due - total (nonCash payments)))
            (total (cash payments) - min (total (cash payments)) (due - total (nonCash payments))) payments)

end Settling
