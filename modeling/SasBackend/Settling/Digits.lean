import SasBackend.Settling

/-! Settling with 28 digits: as long as no sum and no difference has more of them nothing is lost.
-/
namespace Settling
open SasBackend
open SignificantDigits (Held Multiple multiple_zero rounded_of_held)
open Pricing (context)

variable {held : ℚ → Prop} {round : ℚ → ℚ} {due applied : ℚ} {payments before rest : List PaymentInput} {payment : PaymentInput}

/-- Rounding changes neither nothing nor what is held. -/
structure Keeps (held : ℚ → Prop) (round : ℚ → ℚ) : Prop where
  zero : round 0 = 0
  exact : ∀ {q}, held q → round q = q

theorem keeps_id (held : ℚ → Prop) : Keeps held id := ⟨rfl,fun _ => rfl⟩

theorem keeps_context : Keeps (Held 28) context := ⟨rounded_of_held ⟨0,0,by simp,by simp⟩,rounded_of_held⟩

theorem total_cash_nonneg (positive : ∀ payment ∈ payments, 0 < payment.amount) : 0 ≤ total (cash payments) := total_nonneg positive _

theorem total_cash_le (positive : ∀ payment ∈ payments, 0 < payment.amount) {done : List PaymentInput} (first : done <+: payments) :
    total (cash done) ≤ total (cash payments) := by
  obtain ⟨rest,rfl⟩ := first
  rw [cash_append,total_append]
  exact le_add_of_nonneg_right (total_cash_nonneg fun payment member => positive payment (List.mem_append_right _ member))

/-- The cash row that covers what is still open of the cash applied. -/
structure Covering (applied : ℚ) (before : List PaymentInput) (payment : PaymentInput) : Prop where
  method : payment.paymentMethod = .cash
  short : total (cash before) < applied
  reached : applied ≤ total (cash (before ++ [payment]))

theorem exists_covering (positive : 0 < applied) (reached : applied ≤ total (cash payments)) :
    ∃ before payment rest, payments = before ++ payment :: rest ∧ Covering applied before payment := by
  induction payments using List.reverseRecOn with
  | nil => exact absurd (positive.trans_le reached) (lt_irrefl _)
  | append_singleton payments last induction =>
    by_cases earlier : applied ≤ total (cash payments)
    · obtain ⟨before,payment,rest,rfl,covering⟩ := induction earlier
      exact ⟨before,payment,rest ++ [last],by simp,covering⟩
    · refine ⟨payments,last,[],rfl,not_not.mp fun method => earlier ?_,not_le.mp earlier,reached⟩
      have other : cash [last] = [] := by simp [cash,method]
      rw [cash_append,other,List.append_nil] at reached
      exact reached

/-- The rows with the change of the cash that covers the rest on one of them. -/
def coveredRows (applied : ℚ) (before : List PaymentInput) (payment : PaymentInput) (rest : List PaymentInput) : List AppliedPayment :=
  before.map PaymentInput.inFull ++
    ⟨payment.paymentMethod,applied - total (cash before),payment.amount + total (cash rest),
      total (cash (before ++ payment :: rest)) - applied,payment.referenceNo,payment.paidAt⟩ ::
    (nonCash rest).map PaymentInput.inFull

theorem cash_singleton (method : payment.paymentMethod = .cash) : total (cash [payment]) = payment.amount := by simp [cash,total,method]

/-- Rows before the one that covers the rest are applied in full. -/
theorem foldl_before (keeps : Keeps held round) (left : ∀ done, done <+: before → held (max (applied - total (cash done)) 0))
    (positive : ∀ payment ∈ before, 0 < payment.amount) (less : total (cash before) < applied) :
    ∃ last, before.foldl (applyPayment round) ⟨[],applied,none⟩ = ⟨before.map PaymentInput.inFull,applied - total (cash before),last⟩ := by
  induction before using List.reverseRecOn with
  | nil => exact ⟨none,by simp [cash,total]⟩
  | append_singleton before payment induction =>
    have paid := positive payment (by simp)
    have more : total (cash before) ≤ total (cash (before ++ [payment])) := total_cash_le positive (List.prefix_append _ _)
    obtain ⟨last,run⟩ := induction (fun done first => left done (first.trans (List.prefix_append _ _)))
      (fun other member => positive other (List.mem_append_left _ member)) (more.trans_lt less)
    rw [List.foldl_concat,run,applyPayment,List.map_append,List.map_singleton]
    split
    · next other =>
      have none_ : cash [payment] = [] := by simpa [cash] using other
      rw [cash_append,none_,List.append_nil]
      exact ⟨last,rfl⟩
    · next cash_ =>
      have method : payment.paymentMethod = .cash := not_not.mp cash_
      have sum : total (cash (before ++ [payment])) = total (cash before) + payment.amount := by
        rw [cash_append,total_append,cash_singleton method]
      have take : min payment.amount (applied - total (cash before)) = payment.amount := min_eq_left (by linarith)
      have rest_ := left _ List.prefix_rfl
      rw [max_eq_left (by linarith)] at rest_
      have exact_ : round (applied - total (cash before) - payment.amount) = applied - total (cash (before ++ [payment])) := by
        have same : applied - total (cash before) - payment.amount = applied - total (cash (before ++ [payment])) := by
          rw [sum]
          ring
        rw [same,keeps.exact rest_]
      refine ⟨some (before.map PaymentInput.inFull).length,?_⟩
      dsimp only
      rw [take,exact_,if_neg (not_le.mpr paid)]
      simp [PaymentInput.taking,PaymentInput.inFull,keeps.zero]

theorem foldl_rest (keeps : Keeps held round) (positive : ∀ payment ∈ rest, 0 < payment.amount) (rows : List AppliedPayment)
    (last : Option Nat) :
    rest.foldl (applyPayment round) ⟨rows,0,last⟩ = ⟨rows ++ (nonCash rest).map PaymentInput.inFull,0,last⟩ := by
  induction rest generalizing rows with
  | nil => simp [nonCash]
  | cons payment rest induction =>
    have paid := positive payment List.mem_cons_self
    have later := induction fun other member => positive other (List.mem_cons_of_mem _ member)
    rw [List.foldl_cons,applyPayment]
    split
    · next other =>
      rw [later]
      simp [nonCash,other]
    · next cash_ =>
      have nothing : min payment.amount 0 = 0 := min_eq_right paid.le
      dsimp only
      rw [nothing,sub_zero,keeps.zero,if_pos le_rfl,later]
      simp [nonCash,not_not.mp cash_]

theorem foldl_zeros (zero : round applied = applied) {values : List ℚ} (zeros : ∀ value ∈ values, value = 0) :
    values.foldl (fun sum value => round (sum + value)) applied = applied := by
  induction values with
  | nil => rfl
  | cons value rest induction =>
    rw [List.foldl_cons,zeros value List.mem_cons_self,add_zero,zero]
    exact induction fun other member => zeros other (List.mem_cons_of_mem _ member)

theorem change_inFull (payments : List PaymentInput) :
    ∀ value ∈ (payments.map PaymentInput.inFull).map AppliedPayment.change, value = 0 := by
  simp [PaymentInput.inFull]

theorem modify_middle {α : Type*} (change : α → α) (before : List α) (value : α) (after : List α) :
    (before ++ value :: after).modify before.length change = before ++ change value :: after := by
  induction before with
  | nil => rfl
  | cons first rest induction => exact congrArg (first :: ·) induction

/-- The rows of the loop, with change only in the one that covers. -/
theorem applyPayments_covered (keeps : Keeps held round) (fit : RowsFit held due payments)
    (positive : ∀ payment ∈ payments, 0 < payment.amount) (split : payments = before ++ payment :: rest)
    (covering : Covering (cashApplied due payments) before payment) :
    applyPayments round (cashApplied due payments) payments =
      ⟨before.map PaymentInput.inFull ++ ⟨payment.paymentMethod,cashApplied due payments - total (cash before),payment.amount,
        total (cash (before ++ [payment])) - cashApplied due payments,payment.referenceNo,payment.paidAt⟩ ::
          (nonCash rest).map PaymentInput.inFull,0,some before.length⟩ := by
  set applied := cashApplied due payments
  have upto : before ++ [payment] <+: payments := ⟨rest,by rw [split]; simp⟩
  have sum : total (cash (before ++ [payment])) = total (cash before) + payment.amount := by
    rw [cash_append,total_append,cash_singleton covering.method]
  obtain ⟨own,-⟩ := fit.covering before payment upto covering.method covering.short covering.reached
  obtain ⟨last,run⟩ := foldl_before keeps (fun done first => fit.left done (first.trans ⟨payment :: rest,split.symm⟩))
    (fun other member => positive other (by rw [split]; exact List.mem_append_left _ member)) covering.short
  have reached := covering.reached
  have open_ := covering.short
  have take : min payment.amount (applied - total (cash before)) = applied - total (cash before) := min_eq_right (by linarith)
  have change : payment.amount - (applied - total (cash before)) = total (cash (before ++ [payment])) - applied := by
    rw [sum]
    ring
  have step : applyPayment round ⟨before.map PaymentInput.inFull,applied - total (cash before),last⟩ payment =
      ⟨before.map PaymentInput.inFull ++ [⟨payment.paymentMethod,applied - total (cash before),payment.amount,
        total (cash (before ++ [payment])) - applied,payment.referenceNo,payment.paidAt⟩],0,some before.length⟩ := by
    rw [applyPayment,if_neg (not_not.mpr covering.method)]
    dsimp only
    rw [take,sub_self,keeps.zero,if_neg (by linarith)]
    simp only [PaymentInput.taking,List.length_map]
    rw [change,keeps.exact own]
  rw [applyPayments,split,List.foldl_append,run,List.foldl_cons,step,
    foldl_rest keeps fun other member => positive other (by rw [split]; exact List.mem_append_right _ (List.mem_cons_of_mem _ member))]
  simp

/-- What change makes of the rows of the loop. -/
theorem foldChange_covered (keeps : Keeps held round) (fit : RowsFit held due payments)
    (positive : ∀ payment ∈ payments, 0 < payment.amount) (split : payments = before ++ payment :: rest)
    (covering : Covering (cashApplied due payments) before payment) :
    foldChange round (total (cash payments) - cashApplied due payments) (applyPayments round (cashApplied due payments) payments) =
      coveredRows (cashApplied due payments) before payment rest := by
  have loop := applyPayments_covered keeps fit positive split covering
  set applied := cashApplied due payments
  have upto : before ++ [payment] <+: payments := ⟨rest,by rw [split]; simp⟩
  have sum : total (cash (before ++ [payment])) = total (cash before) + payment.amount := by
    rw [cash_append,total_append,cash_singleton covering.method]
  have whole : total (cash payments) = total (cash (before ++ [payment])) + total (cash rest) := by
    rw [split,List.append_cons,cash_append,total_append]
  obtain ⟨own,others⟩ := fit.covering before payment upto covering.method covering.short covering.reached
  have accounted : added round ((applyPayments round applied payments).applied.map AppliedPayment.change) =
      total (cash (before ++ [payment])) - applied := by
    rw [loop,added]
    dsimp only
    rw [List.map_append,List.map_cons,List.foldl_append,foldl_zeros keeps.zero (change_inFull before),List.foldl_cons,zero_add,
      keeps.exact own,foldl_zeros (keeps.exact own) (change_inFull _)]
  have all : total (cash (before ++ payment :: rest)) = total (cash payments) := by rw [split]
  rw [foldChange,accounted,loop,coveredRows,all]
  dsimp only
  split
  · next same =>
    have none_ : total (cash rest) = 0 := by linarith
    rw [none_,add_zero,same]
  · next different =>
    have nonneg := total_cash_le positive upto
    obtain ⟨extra,tendered⟩ := others (lt_of_le_of_ne nonneg fun same => different (by rw [same]))
    have extra_ : total (cash payments) - applied - (total (cash (before ++ [payment])) - applied) =
        total (cash payments) - total (cash (before ++ [payment])) := by ring
    have tendered_ : payment.amount + (total (cash payments) - total (cash (before ++ [payment]))) =
        total (cash payments) - total (cash before) := by
      rw [sum]
      ring
    have change_ : total (cash (before ++ [payment])) - applied + (total (cash payments) - total (cash (before ++ [payment]))) =
        total (cash payments) - applied := by ring
    have given : payment.amount + total (cash rest) = total (cash payments) - total (cash before) := by
      rw [whole,sum]
      ring
    rw [extra_,keeps.exact extra,given]
    have place : before.length = (before.map PaymentInput.inFull).length := (List.length_map _).symm
    rw [place,modify_middle]
    simp only [AppliedPayment.addChange]
    rw [tendered_,change_,keeps.exact tendered,keeps.exact fit.change]

theorem foldChange_others (keeps : Keeps held round) (none_ : cash payments = []) (positive : ∀ payment ∈ payments, 0 < payment.amount)
    (changeTotal : ℚ) : foldChange round changeTotal (applyPayments round 0 payments) = payments.map PaymentInput.inFull := by
  have all : nonCash payments = payments := by
    refine List.filter_eq_self.mpr fun payment member => ?_
    have other := List.filter_eq_nil_iff.mp none_ payment member
    simpa using other
  rw [applyPayments,foldl_rest keeps positive,foldChange,all]
  rfl

theorem map_amount_inFull (payments : List PaymentInput) :
    (payments.map PaymentInput.inFull).map AppliedPayment.amount = payments.map PaymentInput.amount := by
  simp [PaymentInput.inFull,Function.comp_def]

/-- The amounts of the rows are summed up without loss. -/
theorem added_amounts (keeps : Keeps held round) (fit : RowsFit held due payments)
    (positive : ∀ payment ∈ payments, 0 < payment.amount) (split : payments = before ++ payment :: rest)
    (covering : Covering (cashApplied due payments) before payment) :
    added round ((coveredRows (cashApplied due payments) before payment rest).map AppliedPayment.amount) =
      ((coveredRows (cashApplied due payments) before payment rest).map AppliedPayment.amount).sum := by
  set applied := cashApplied due payments
  have earlier {done : List PaymentInput} (first : done <+: before) : round (total done) = total done := by
    have below := total_cash_le (fun other member => positive other (by rw [split]; exact List.mem_append_left _ member)) first
    have exact_ := fit.applied done (first.trans ⟨payment :: rest,split.symm⟩)
    rw [min_eq_left (below.trans covering.short.le),← total_split] at exact_
    exact keeps.exact exact_
  have later {done : List PaymentInput} (first : done <+: rest) :
      round (total before + (applied - total (cash before)) + total (nonCash done)) =
        total before + (applied - total (cash before)) + total (nonCash done) := by
    have upto : before ++ [payment] ++ done <+: payments := by
      have parts : before ++ payment :: rest = before ++ [payment] ++ rest := List.append_cons _ _ _
      rw [split,parts]
      exact (List.prefix_append_right_inj _).mpr first
    have reached : applied ≤ total (cash (before ++ [payment] ++ done)) :=
      covering.reached.trans (total_cash_le (fun other member => positive other (upto.subset member)) (List.prefix_append _ _))
    have exact_ := fit.applied _ upto
    have other : nonCash [payment] = [] := by simp [nonCash,covering.method]
    have same : total (nonCash (before ++ [payment] ++ done)) + applied =
        total before + (applied - total (cash before)) + total (nonCash done) := by
      rw [nonCash_append,nonCash_append,other,List.append_nil,total_append,total_split before]
      ring
    rw [min_eq_right reached,same] at exact_
    exact keeps.exact exact_
  have first : (before.map PaymentInput.amount).foldl (fun sum value => round (sum + value)) 0 = total before := by
    refine (foldl_exact fun some_ prefix_ => ?_).trans (zero_add _)
    obtain ⟨done,first,rfl⟩ := List.prefix_map_iff.mp prefix_
    rw [zero_add]
    exact earlier first
  have middle := later (@List.nil_prefix _ rest)
  rw [show nonCash [] = [] from rfl,show total [] = 0 from rfl,add_zero] at middle
  have last : ((nonCash rest).map PaymentInput.amount).foldl (fun sum value => round (sum + value))
      (total before + (applied - total (cash before))) = total before + (applied - total (cash before)) + total (nonCash rest) := by
    refine foldl_exact fun some_ prefix_ => ?_
    obtain ⟨others,some_,rfl⟩ := List.prefix_map_iff.mp prefix_
    obtain ⟨done,upto,rfl⟩ := List.prefix_filter_iff.mp some_
    exact later upto
  have amounts : (coveredRows applied before payment rest).map AppliedPayment.amount =
      before.map PaymentInput.amount ++ (applied - total (cash before)) :: (nonCash rest).map PaymentInput.amount := by
    rw [coveredRows,List.map_append,List.map_cons,map_amount_inFull,map_amount_inFull]
  rw [amounts,added,List.foldl_append,first,List.foldl_cons,middle,last,List.sum_append,List.sum_cons]
  simp only [total]
  ring

theorem credit_amounts (method : payment.paymentMethod = .cash) :
    (((coveredRows applied before payment rest).filter (·.method = .credit)).map AppliedPayment.amount) =
      ((before ++ payment :: rest).filter (·.paymentMethod = .credit)).map PaymentInput.amount := by
  have credit (payments : List PaymentInput) : ((payments.map PaymentInput.inFull).filter (·.method = .credit)).map AppliedPayment.amount =
      (payments.filter (·.paymentMethod = .credit)).map PaymentInput.amount := by
    rw [List.filter_map,List.map_map]
    rfl
  have others : (nonCash rest).filter (·.paymentMethod = .credit) = rest.filter (·.paymentMethod = .credit) := by
    rw [nonCash,List.filter_filter]
    refine List.filter_congr fun payment _ => ?_
    cases payment.paymentMethod <;> rfl
  have own : ¬payment.paymentMethod = .credit := by
    rw [method]
    decide
  rw [coveredRows,List.filter_append,List.filter_cons_of_neg (by simpa using own),List.map_append,credit,credit,others,
    List.filter_append,List.filter_cons_of_neg (by simpa using own),List.map_append]

/-- What becomes of the payments once they are accepted. -/
structure RowsExact (round : ℚ → ℚ) (due : ℚ) (payments : List PaymentInput) (rows : List AppliedPayment) : Prop where
  same : foldChange round (total (cash payments) - cashApplied due payments) (applyPayments round (cashApplied due payments) payments) = rows
  amounts : added round (rows.map AppliedPayment.amount) = (rows.map AppliedPayment.amount).sum
  credit : added round ((rows.filter (·.method = .credit)).map AppliedPayment.amount) =
    ((rows.filter (·.method = .credit)).map AppliedPayment.amount).sum

theorem added_credit (keeps : Keeps held round) (fit : RowsFit held due payments) :
    added round ((payments.filter (·.paymentMethod = .credit)).map PaymentInput.amount) =
      ((payments.filter (·.paymentMethod = .credit)).map PaymentInput.amount).sum := by
  refine added_eq_sum fun some_ prefix_ => ?_
  obtain ⟨done,first,rfl⟩ := List.prefix_map_iff.mp prefix_
  exact keeps.exact (fit.credit done first)

/-- The rows do not depend on the rounding. -/
theorem rows_exact (positive : ∀ payment ∈ payments, 0 < payment.amount) (fits : total (nonCash payments) ≤ due)
    (open_ : ¬(0 < total (cash payments) ∧ due - total (nonCash payments) ≤ 0)) (fit : RowsFit held due payments) :
    ∃ rows, ∀ round, Keeps held round → RowsExact round due payments rows := by
  have tendered := total_cash_nonneg positive
  by_cases paid : 0 < total (cash payments)
  · have some_ : 0 < cashApplied due payments := lt_min paid (not_le.mp fun nothing => open_ ⟨paid,nothing⟩)
    obtain ⟨before,payment,rest,split,covering⟩ := exists_covering some_ (min_le_left _ _)
    refine ⟨coveredRows (cashApplied due payments) before payment rest,fun round keeps => ?_⟩
    refine ⟨foldChange_covered keeps fit positive split covering,added_amounts keeps fit positive split covering,?_⟩
    rw [credit_amounts covering.method,← split]
    exact added_credit keeps fit
  · have zero : total (cash payments) = 0 := le_antisymm (not_lt.mp paid) tendered
    have none_ : cash payments = [] := by
      refine List.eq_nil_iff_forall_not_mem.mpr fun payment member => paid ?_
      refine List.sum_pos _ (fun amount there => ?_) (fun empty => List.not_mem_nil (empty ▸ List.mem_map_of_mem member))
      obtain ⟨other,among,rfl⟩ := List.mem_map.mp there
      exact positive other (List.mem_of_mem_filter among)
    have nothing : cashApplied due payments = 0 := by
      rw [cashApplied,zero]
      exact min_eq_left (sub_nonneg.mpr fits)
    refine ⟨payments.map PaymentInput.inFull,fun round keeps => ⟨?_,?_,?_⟩⟩
    · rw [nothing]
      exact foldChange_others keeps none_ positive _
    · rw [map_amount_inFull]
      refine added_eq_sum fun some_ prefix_ => ?_
      obtain ⟨done,first,rfl⟩ := List.prefix_map_iff.mp prefix_
      have exact_ := fit.applied done first
      have least := total_cash_le positive first
      have none_ : total (cash done) = 0 := le_antisymm (least.trans zero.le)
        (total_cash_nonneg fun payment member => positive payment (first.subset member))
      have same : total (nonCash done) + min (total (cash done)) (cashApplied due payments) = (done.map PaymentInput.amount).sum := by
        have parts := total_split done
        rw [none_,nothing,min_self]
        rw [none_] at parts
        exact parts.symm
      rw [same] at exact_
      exact keeps.exact exact_
    · have same : ((payments.map PaymentInput.inFull).filter (·.method = .credit)).map AppliedPayment.amount =
          (payments.filter (·.paymentMethod = .credit)).map PaymentInput.amount := by
        rw [List.filter_map,List.map_map]
        rfl
      rw [same]
      exact added_credit keeps fit

theorem added_inputs (keeps : Keeps held round) {chosen : List PaymentInput} (fits : ∀ done, done <+: chosen → held (total done)) :
    added round (chosen.map PaymentInput.amount) = total chosen := by
  refine added_eq_sum fun some_ prefix_ => ?_
  obtain ⟨done,first,rfl⟩ := List.prefix_map_iff.mp prefix_
  exact keeps.exact (fits done first)

/-- Where everything fits the settlement is the exact one. -/
theorem settlePayments_exact (keeps : Keeps held round) (positive : ∀ payment ∈ payments, 0 < payment.amount)
    (fits : Fits held due payments) (requirePayment : Bool) :
    settlePayments round due payments requirePayment = settlePayments id due payments requirePayment := by
  unfold settlePayments
  by_cases empty : payments = []
  · subst empty
    rfl
  have some_ : payments.isEmpty = false := by simpa using empty
  have valid : payments.any (·.amount ≤ 0) = false := by simpa using positive
  rw [some_,valid,added_inputs keeps fits.cash,added_inputs keeps fits.nonCash,added_inputs (keeps_id held) fits.cash,
    added_inputs (keeps_id held) fits.nonCash]
  simp only [Bool.false_eq_true,if_false,id_eq]
  by_cases beyond : total (nonCash payments) > due
  · rw [if_pos beyond,if_pos beyond]
  · rw [if_neg beyond,if_neg beyond,keeps.exact (fits.cashDue empty (not_lt.mp beyond))]
    by_cases none_ : total (cash payments) > 0 ∧ due - total (nonCash payments) ≤ 0
    · rw [if_pos none_,if_pos none_]
    · have fit := fits.rows (not_lt.mp beyond) none_
      obtain ⟨rows,known⟩ := rows_exact positive (not_lt.mp beyond) none_ fit
      obtain ⟨ours,amounts,credit⟩ := known round keeps
      obtain ⟨exact_,amounts',credit'⟩ := known id (keeps_id held)
      rw [cashApplied] at ours exact_
      have change := keeps.exact fit.change
      rw [cashApplied] at change
      rw [if_neg none_,if_neg none_,change,ours,exact_,amounts,credit,amounts',credit']

theorem total_multiple {place : ℤ} {chosen : List PaymentInput} (multiples : ∀ payment ∈ chosen, Multiple place payment.amount) :
    Multiple place (total chosen) := by
  induction chosen with
  | nil => exact multiple_zero place
  | cons payment rest induction =>
    rw [total,List.map_cons,List.sum_cons]
    exact (multiples payment List.mem_cons_self).add (induction fun other member => multiples other (List.mem_cons_of_mem _ member))

theorem total_sublist (positive : ∀ payment ∈ payments, 0 < payment.amount) {chosen : List PaymentInput} (sub : chosen.Sublist payments) :
    total chosen ≤ total payments := by
  refine (sub.map PaymentInput.amount).sum_le_sum fun amount member => ?_
  obtain ⟨payment,there,rfl⟩ := List.mem_map.mp member
  exact (positive payment there).le

/-- Amounts with a common last place fit as long as all of them together have at most 28 digits. -/
theorem fits_of_place (place : ℤ) (dueNonneg : 0 ≤ due) (positive : ∀ payment ∈ payments, 0 < payment.amount)
    (dueMultiple : Multiple place due) (multiples : ∀ payment ∈ payments, Multiple place payment.amount)
    (few : due + total payments < 10 ^ (place + 28)) : Fits (Held 28) due payments := by
  have whole : 0 ≤ total payments := List.sum_nonneg fun amount member => by
    obtain ⟨payment,there,rfl⟩ := List.mem_map.mp member
    exact (positive payment there).le
  have held {value : ℚ} (multiple : Multiple place value) (nonneg : 0 ≤ value) (least : value ≤ due + total payments) :
      Held 28 value := multiple.held (by rw [abs_of_nonneg nonneg]; exact least.trans_lt few)
  have part {chosen : List PaymentInput} (sub : chosen.Sublist payments) :
      Multiple place (total chosen) ∧ 0 ≤ total chosen ∧ total chosen ≤ total payments := by
    refine ⟨total_multiple fun payment member => multiples payment (sub.subset member),?_,total_sublist positive sub⟩
    refine List.sum_nonneg fun amount member => ?_
    obtain ⟨payment,there,rfl⟩ := List.mem_map.mp member
    exact (positive payment (sub.subset there)).le
  have sum {chosen : List PaymentInput} (sub : chosen.Sublist payments) : Held 28 (total chosen) := by
    obtain ⟨multiple,nonneg,less⟩ := part sub
    exact held multiple nonneg (by linarith)
  have filtered (kept : PaymentInput → Bool) {done : List PaymentInput} (first : done <+: payments.filter kept) :
      done.Sublist payments := first.sublist.trans List.filter_sublist
  have cash_ {done : List PaymentInput} (first : done <+: payments) : (cash done).Sublist payments :=
    List.filter_sublist.trans first.sublist
  have others_ {done : List PaymentInput} (first : done <+: payments) : (nonCash done).Sublist payments :=
    List.filter_sublist.trans first.sublist
  obtain ⟨cashMultiple,cashNonneg,cashLess⟩ := part (cash_ List.prefix_rfl)
  obtain ⟨otherMultiple,otherNonneg,otherLess⟩ := part (others_ List.prefix_rfl)
  refine ⟨fun done first => sum (filtered _ first),fun done first => sum (filtered _ first),fun _ fits => ?_,fun fits _ => ?_⟩
  · exact held (dueMultiple.sub otherMultiple) (by linarith) (by linarith)
  have appliedMultiple : Multiple place (cashApplied due payments) := cashMultiple.min (dueMultiple.sub otherMultiple)
  have appliedNonneg : 0 ≤ cashApplied due payments := le_min cashNonneg (sub_nonneg.mpr fits)
  have appliedLess : cashApplied due payments ≤ total (cash payments) := min_le_left _ _
  refine ⟨?_,fun done first => ?_,fun done first => ?_,fun done first => sum (filtered _ first),?_⟩
  · exact held (cashMultiple.sub appliedMultiple) (by linarith) (by linarith)
  · obtain ⟨multiple,nonneg,less⟩ := part (cash_ first)
    exact held ((appliedMultiple.sub multiple).max (multiple_zero place)) (le_max_right _ _) (max_le (by linarith) (by linarith))
  · obtain ⟨multiple,nonneg,less⟩ := part (cash_ first)
    obtain ⟨multiple',nonneg',-⟩ := part (others_ first)
    have parts := total_split done
    have capped := min_le_left (total (cash done)) (cashApplied due payments)
    have doneLess := (part first.sublist).2.2
    exact held (multiple'.add (multiple.min appliedMultiple)) (add_nonneg nonneg' (le_min nonneg appliedNonneg)) (by linarith)
  · intro before payment first method short reached
    obtain ⟨multiple,nonneg,less⟩ := part (cash_ first)
    obtain ⟨multiple',nonneg',-⟩ := part (cash_ ((List.prefix_append before [payment]).trans first))
    refine ⟨held (multiple.sub appliedMultiple) (by linarith) (by linarith),fun more => ⟨?_,?_⟩⟩
    · exact held (cashMultiple.sub multiple) (by linarith) (by linarith)
    · exact held (cashMultiple.sub multiple') (by linarith) (by linarith)

/-- As long as nothing that is formed has more than 28 digits, what is settled conserves money, and exactly what cannot be settled is
refused. -/
theorem settlement_conserves (requirePayment : Bool) (dueNonneg : 0 ≤ due) (positive : ∀ payment ∈ payments, 0 < payment.amount)
    (fits : Fits (Held 28) due payments) :
    (∀ settlement, settlePayments context due payments requirePayment = .ok settlement → Settled due payments settlement) ∧
      ((∃ refusal, settlePayments context due payments requirePayment = .error refusal) ↔ Rejectable due payments requirePayment) := by
  rw [settlePayments_exact keeps_context positive fits]
  exact settlement_exact requirePayment dueNonneg positive

private def mixed : List PaymentInput :=
  [⟨.cash,5,none,none⟩,⟨.card,4,some "4711",none⟩,⟨.cash,3,none,none⟩,⟨.cash,2,none,none⟩]

/-- Ten are due; cash of ten and a card payment of four leave four in change, two of it for an absorbed row. -/
theorem settlement_conserves_mixed : (∃ settlement, settlePayments context 10 mixed true = .ok settlement ∧ settlement.changeGiven = 4 ∧
    Settled 10 mixed settlement) := by
  have positive : ∀ payment ∈ mixed, 0 < payment.amount := by
    intro payment member
    simp only [mixed,List.mem_cons,List.not_mem_nil,or_false] at member
    obtain rfl | rfl | rfl | rfl := member <;> norm_num
  have multiples : ∀ payment ∈ mixed, Multiple 0 payment.amount := by
    intro payment member
    simp only [mixed,List.mem_cons,List.not_mem_nil,or_false] at member
    obtain rfl | rfl | rfl | rfl := member
    · exact ⟨5,by norm_num⟩
    · exact ⟨4,by norm_num⟩
    · exact ⟨3,by norm_num⟩
    · exact ⟨2,by norm_num⟩
  have fits : Fits (Held 28) 10 mixed := fits_of_place 0 (by norm_num) positive ⟨10,by norm_num⟩ multiples (by norm_num [mixed,total])
  have view : (settlePayments context 10 mixed true).toOption.map Settlement.changeGiven = some 4 := by decide +kernel
  cases done : settlePayments context 10 mixed true with
  | error refusal =>
    rw [done] at view
    cases view
  | ok settlement =>
    rw [done] at view
    exact ⟨settlement,rfl,Option.some.inj view,(settlement_conserves true (by norm_num) positive fits).1 settlement done⟩

private def long : List PaymentInput := [⟨.card,50 + 1/10^31,none,none⟩,⟨.cash,50,none,none⟩]

/-- A hundred is due; a card payment with 33 digits is taken in full, its last digit is lost in the sum. -/
theorem settlement_loses_digits : ¬∀ (due : ℚ) (payments : List PaymentInput) (requirePayment : Bool), 0 ≤ due →
    (∀ payment ∈ payments, 0 < payment.amount) → ∀ settlement, settlePayments context due payments requirePayment = .ok settlement →
      Settled due payments settlement := by
  intro conserves
  have positive : ∀ payment ∈ long, 0 < payment.amount := by decide +kernel
  have view : (settlePayments context 100 long true).toOption.map
      (fun settlement => decide (sumOf AppliedPayment.amount settlement.payments = settlement.totalApplied)) = some false := by decide +kernel
  cases done : settlePayments context 100 long true with
  | error refusal =>
    rw [done] at view
    cases view
  | ok settlement =>
    rw [done] at view
    have differs := of_decide_eq_false (Option.some.inj view)
    exact differs (conserves 100 long true (by norm_num) positive settlement done).applied

end Settling
