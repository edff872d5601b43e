import SasBackend.LayerRoom
import SasBackend.RegisterShift

/-! A void of a completed sale gives back what the sale took from the layers, and takes back what it brought to the registers and to the
account of its customer.
-/
namespace VoidedSales
open SasBackend Pricing Tally Transition
open CreditSales (CustomerLedger LedgerEntryType refundPayment storeEntry)
open RegisterShift (Shift Transaction cash cashEffect insertTransaction money)
open Refunds (SalePayment)
open Stock (Step Recorded Outstanding Roomy lineItem tabInvoiceTotal)

variable {s t u : State} {saleId registerShiftId customerId : Nat} {subject buyer : Option Nat} {bill : Bill} {amount : ℚ}
  {entryType : LedgerEntryType} {transactions : List Transaction}

def State.posted (s : State) (saleId : Nat) : List Posting := s.register.filter (·.saleId = some saleId)

def State.entries (s : State) (saleId : Nat) : List Entry := s.ledger.filter (·.saleId = some saleId)

/-- What the postings of a sale add to the expected cash of a shift. -/
def State.drawn (s : State) (saleId registerShiftId : Nat) : ℚ :=
  tally Posting.registerShiftId (fun posting => cashEffect posting.transaction) registerShiftId (s.posted saleId)

/-- What the entries of a sale add to the balance of a customer. -/
def State.owed (s : State) (saleId customerId : Nat) : ℚ :=
  tally (fun entry : Entry => entry.row.customerId) (fun entry => entry.row.amount) customerId
    ((s.entries saleId).filter (·.row.deletedAt.isNone))

theorem expectedCash_tally (s : State) (registerShiftId : Nat) (shift : Shift) : s.expectedCash registerShiftId shift =
    shift.openingFloat + tally Posting.registerShiftId (fun posting => cashEffect posting.transaction) registerShiftId s.register := by
  rw [State.expectedCash,RegisterShift.calculateExpectedCash_eq,cash,List.map_map]
  rfl

theorem drawers_without (s : State) (saleId registerShiftId : Nat) (shift : Shift) :
    s.expectedCash registerShiftId shift = (s.without saleId).expectedCash registerShiftId shift + s.drawn saleId registerShiftId := by
  rw [expectedCash_tally,expectedCash_tally,← tally_split (fun posting => posting.saleId = some saleId) s.register]
  simp only [State.without,State.drawn,State.posted,ne_eq,decide_not]
  ring

theorem accounts_without (s : State) (saleId customerId : Nat) :
    s.customerBalance customerId = (s.without saleId).customerBalance customerId + s.owed saleId customerId := by
  rw [State.customerBalance,← tally_split (fun entry => entry.saleId = some saleId) (s.ledger.filter (·.row.deletedAt.isNone)),
    State.customerBalance,State.owed,State.entries,State.without]
  simp only [List.filter_filter,ne_eq,decide_not,Bool.and_comm]
  ring

theorem balances_without (s : State) (saleId : Nat) (position : Stock.Position) :
    s.stock.balance position = (s.without saleId).stock.balance position + s.stock.saleNet saleId position := by
  rw [Stock.Store.balance,← tally_split (s.stock.ofSale saleId) s.stock.movements,add_comm]
  rfl

/-- Nothing has changed but the money of this sale, if any. -/
structure Touches (subject : Option Nat) (s t : State) : Prop where
  bills : ∀ other, subject ≠ some other → t.bills[other]? = s.bills[other]?
  posted : ∀ other, subject ≠ some other → t.posted other = s.posted other
  entries : ∀ other, subject ≠ some other → t.entries other = s.entries other

theorem touches_refl (subject : Option Nat) (s : State) : Touches subject s s := ⟨fun _ _ => rfl,fun _ _ => rfl,fun _ _ => rfl⟩

theorem Touches.trans (first : Touches subject s t) (second : Touches subject t u) : Touches subject s u where
  bills other apart := (second.bills other apart).trans (first.bills other apart)
  posted other apart := (second.posted other apart).trans (first.posted other apart)
  entries other apart := (second.entries other apart).trans (first.entries other apart)

theorem posted_post (s : State) (subject : Option Nat) (registerShiftId : Nat) (transactions : List Transaction) (other : Nat) :
    (s.post subject registerShiftId transactions).posted other = s.posted other ++
      if subject = some other then transactions.map fun tx => ⟨subject,registerShiftId,insertTransaction tx⟩ else [] := by
  rw [State.posted,State.post,List.filter_append,List.filter_map,State.posted]
  split
  · next same => simp [Function.comp_def,same]
  · next apart => simp [Function.comp_def,apart]

theorem touches_post (s : State) (subject : Option Nat) (registerShiftId : Nat) (transactions : List Transaction) :
    Touches subject s (s.post subject registerShiftId transactions) where
  bills _ _ := rfl
  posted other apart := by rw [posted_post,if_neg apart,List.append_nil]
  entries _ _ := rfl

theorem createLedgerEntry_some (created : createLedgerEntry s subject customerId entryType amount = some t) :
    t = { s with ledger := s.ledger ++ [⟨subject,storeEntry customerId entryType amount⟩] } := by
  rw [createLedgerEntry] at created
  split at created
  · cases created
  · exact (Option.some.inj created).symm

theorem entries_append (s : State) (subject : Option Nat) (row : CustomerLedger) (other : Nat) :
    State.entries { s with ledger := s.ledger ++ [⟨subject,row⟩] } other =
      s.entries other ++ if subject = some other then [⟨subject,row⟩] else [] := by
  rw [State.entries,List.filter_append,State.entries]
  split
  · next same => simp [same]
  · next apart => simp [apart]

theorem touches_createLedgerEntry (created : createLedgerEntry s subject customerId entryType amount = some t) : Touches subject s t := by
  obtain rfl := createLedgerEntry_some created
  exact ⟨fun _ _ => rfl,fun _ _ => rfl,fun other apart => by rw [entries_append,if_neg apart,List.append_nil]⟩

theorem owed_createLedgerEntry (created : createLedgerEntry s (some saleId) customerId entryType amount = some t) (other : Nat) :
    t.owed saleId other = s.owed saleId other + if customerId = other then money amount else 0 := by
  obtain rfl := createLedgerEntry_some created
  rw [State.owed,entries_append,if_pos rfl,List.filter_append,tally_append,State.owed]
  congr 1
  exact tally_singleton _

theorem touches_charge (charged : charge s saleId buyer amount = some t) : Touches (some saleId) s t ∧ t.bills = s.bills ∧
    t.posted saleId = s.posted saleId := by
  rw [charge] at charged
  split at charged
  · obtain ⟨customerId,-,created⟩ := Option.bind_eq_some_iff.mp charged
    refine ⟨touches_createLedgerEntry created,?_⟩
    obtain rfl := createLedgerEntry_some created
    exact ⟨rfl,rfl⟩
  · obtain rfl := Option.some.inj charged
    exact ⟨touches_refl _ _,rfl,rfl⟩

theorem owed_charge (charged : charge s saleId buyer amount = some t) (other : Nat) :
    t.owed saleId other = s.owed saleId other - if 0 < amount ∧ buyer = some other then money amount else 0 := by
  rw [charge] at charged
  split at charged
  · next positive =>
    obtain ⟨customerId,known,created⟩ := Option.bind_eq_some_iff.mp charged
    have negated : money (-amount) = -money amount := Decimal.quantize_neg
    rw [owed_createLedgerEntry created,known,negated]
    simp only [positive,Option.some.injEq,true_and]
    split <;> ring
  · next nothing =>
    obtain rfl := Option.some.inj charged
    rw [if_neg fun both => nothing both.1,sub_zero]

theorem touches_creditBack (credited : creditBack s subject buyer entryType amount = some t) : Touches subject s t ∧ t.bills = s.bills ∧
    ∀ other, t.posted other = s.posted other := by
  rw [creditBack.eq_def] at credited
  split at credited
  · split at credited
    · refine ⟨touches_createLedgerEntry credited,?_⟩
      obtain rfl := createLedgerEntry_some credited
      exact ⟨rfl,fun _ => rfl⟩
    · obtain rfl := Option.some.inj credited
      exact ⟨touches_refl _ _,rfl,fun _ => rfl⟩
  · obtain rfl := Option.some.inj credited
    exact ⟨touches_refl _ _,rfl,fun _ => rfl⟩

theorem owed_creditBack (credited : creditBack s (some saleId) buyer entryType amount = some t) (other : Nat) :
    t.owed saleId other = s.owed saleId other + if 0 < amount ∧ buyer = some other then money amount else 0 := by
  rw [creditBack.eq_def] at credited
  split at credited
  · next customerId =>
    split at credited
    · next positive =>
      rw [owed_createLedgerEntry credited]
      simp only [positive,Option.some.injEq,true_and]
    · next nothing =>
      obtain rfl := Option.some.inj credited
      rw [if_neg fun both => nothing both.1,add_zero]
  · obtain rfl := Option.some.inj credited
    simp

def posting (txType : RegisterTxType) (saleId registerShiftId : Nat) (payment : SalePayment) : Posting :=
  ⟨some saleId,registerShiftId,txType,payment.paymentMethod,payment.amount⟩

/-- The payments of a sale are all that stands of it in the registers and on the account. -/
structure Paid (s : State) (saleId : Nat) (bill : Bill) : Prop where
  standing : ∀ payment ∈ bill.payments, payment.status = .completed ∧ payment.amount ∈ Decimal.grid 2
  posted : ∃ registerShiftId, bill.registerShiftId = some registerShiftId ∧
    s.posted saleId = bill.payments.map (posting .sale saleId registerShiftId)
  owed : ∀ customerId, s.owed saleId customerId = -if bill.customerId = some customerId then creditOf bill.payments else 0

structure Blank (s : State) (saleId : Nat) : Prop where
  posted : s.posted saleId = []
  entries : s.entries saleId = []

theorem Blank.owed (blank : Blank s saleId) (customerId : Nat) : s.owed saleId customerId = 0 := by
  rw [State.owed,blank.entries]
  rfl

/-- The amounts put on account. -/
def credits (applied : List AppliedPayment) : List ℚ := (applied.filter (·.method = .credit)).map AppliedPayment.amount

theorem credits_applyPayments (payments : List Payment) : ∀ cashLeft, credits (applyPayments cashLeft payments) =
    (payments.filter (·.paymentMethod = .credit)).map Payment.amount := by
  induction payments with
  | nil => exact fun _ => rfl
  | cons payment rest induction =>
    intro cashLeft
    rw [applyPayments,List.filter_cons]
    split
    · next other => by_cases credit : payment.paymentMethod = .credit <;> simp [credits,credit,← induction cashLeft]
    · next cash_ =>
      have cash_ : payment.paymentMethod = .cash := not_not.mp cash_
      dsimp only
      split <;> simp [credits,cash_,← induction (cashLeft - min payment.amount cashLeft)]

theorem credits_addChange (extra : ℚ) (applied : List AppliedPayment) : ∀ row,
    credits (applied.modify row (AppliedPayment.addChange extra)) = credits applied := by
  induction applied with
  | nil => exact fun _ => by simp
  | cons payment rest induction =>
    rintro (_ | row)
    · simp [credits,AppliedPayment.addChange,List.filter_cons,apply_ite]
    · have later := induction row
      by_cases credit : payment.method = .credit <;> simp_all [credits]

theorem credits_foldChange (changeTotal : ℚ) (applied : List AppliedPayment) : credits (foldChange changeTotal applied) = credits applied := by
  unfold foldChange
  dsimp only
  split
  · rfl
  · split
    · rfl
    · exact credits_addChange _ applied _

/-- What is put on account is left as it is by a settlement. -/
theorem settled_credits {totalDue : ℚ} {payments : List Payment} {settlement : Settlement}
    (settled : settlePayments totalDue payments true = .ok settlement) :
    credits settlement.payments = (payments.filter (·.paymentMethod = .credit)).map Payment.amount ∧
      settlement.creditAmount = (credits settlement.payments).sum := by
  rw [settlePayments] at settled
  split at settled
  · next none =>
    have none : payments = [] := List.isEmpty_iff.mp none
    split at settled
    · cases settled
    · cases settled
      rw [none]
      exact ⟨rfl,rfl⟩
  · split at settled
    · cases settled
    · dsimp only at settled
      split at settled
      · cases settled
      · split at settled
        · cases settled
        · cases settled
          exact ⟨(credits_foldChange _ _).trans (credits_applyPayments payments _),rfl⟩

/-- The columns of a payment row that are read later. -/
def columns (payment : SalePayment) : PaymentMethod × ℚ × PaymentStatus := (payment.paymentMethod,payment.amount,payment.status)

theorem stored_columns {applied : List AppliedPayment} {stored : List SalePayment} (inserted : applied.mapM Refunds.storePayment = .ok stored) :
    stored.map columns = applied.map fun payment => (payment.method,round2 payment.amount,.completed) := by
  refine Outcome.mapM_map (fun payment kept ok => ?_) inserted
  rw [Refunds.storePayment] at ok
  split at ok
  · cases ok
    rfl
  · cases ok

theorem stored_credit {applied : List AppliedPayment} {stored : List SalePayment} (inserted : applied.mapM Refunds.storePayment = .ok stored) :
    creditOf stored = ((credits applied).map round2).sum := by
  have kept := congrArg (fun rows => ((rows.filter fun row : PaymentMethod × ℚ × PaymentStatus => row.1 = .credit).map (·.2.1)).sum)
    (stored_columns inserted)
  simp only [List.filter_map,List.map_map,Function.comp_def,columns] at kept
  rw [credits,List.map_map]
  exact kept

theorem creditOf_nonneg (payments : List SalePayment) : 0 ≤ creditOf payments := by
  refine List.sum_nonneg fun amount member => ?_
  obtain ⟨payment,-,rfl⟩ := List.mem_map.mp member
  exact payment.positive.le

/-- A sale is paid by what is settled, with nothing on record of it before. -/
theorem paid_charge {payments : List Payment} {totalDue : ℚ} {settlement : Settlement} {stored : List SalePayment}
    (blank : Blank s saleId) (whole : wholeCredit payments = true) (settled : settlePayments totalDue payments true = .ok settlement)
    (inserted : settlement.payments.mapM Refunds.storePayment = .ok stored)
    (charged : charge (s.post (some saleId) registerShiftId (salePostings settlement.payments)) saleId buyer settlement.creditAmount = some t) :
    Paid t saleId ⟨buyer,some registerShiftId,stored⟩ := by
  have kept := stored_columns inserted
  obtain ⟨-,-,posted⟩ := touches_charge charged
  refine ⟨fun payment member => ?_,⟨registerShiftId,rfl,?_⟩,fun other => ?_⟩
  · have inside := List.mem_map_of_mem (f := columns) member
    rw [kept] at inside
    obtain ⟨applied,-,same⟩ := List.mem_map.mp inside
    simp only [columns,Prod.mk.injEq] at same
    exact ⟨same.2.2.symm,same.2.1 ▸ Decimal.quantize_mem_grid 2 _⟩
  · rw [posted,posted_post,blank.posted,if_pos rfl,List.nil_append,salePostings,List.map_map]
    have rows := congrArg (List.map fun row : PaymentMethod × ℚ × PaymentStatus =>
      (⟨some saleId,registerShiftId,.sale,row.1,row.2.1⟩ : Posting)) kept
    rw [List.map_map,List.map_map] at rows
    exact rows.symm
  · -- the sum is rounded as its parts are, and nothing is charged only where there are none
    obtain ⟨asked,credit⟩ := settled_credits settled
    have rounded : money settlement.creditAmount = creditOf stored := by
      rw [stored_credit inserted,credit,asked]
      exact of_decide_eq_true whole
    have before : (s.post (some saleId) registerShiftId (salePostings settlement.payments)).owed saleId other = 0 := blank.owed other
    rw [owed_charge charged,before,zero_sub,rounded]
    congr 1
    by_cases positive : 0 < settlement.creditAmount
    · simp only [positive,true_and]
    · have least := Decimal.quantize_nonneg (p := 2) (neg_nonneg.mpr (not_lt.mp positive))
      rw [Decimal.quantize_neg] at least
      have zero : creditOf stored = 0 := (rounded.symm.trans_le (neg_nonneg.mp least)).antisymm (creditOf_nonneg stored)
      rw [if_neg fun both => positive both.1]
      simp [zero]

/-- What is on record of a tab and of a completed sale. -/
structure Entered (s : State) (saleId : Nat) (status : SaleStatus) : Prop where
  held : status = .held → Blank s saleId ∧ ∀ bill, s.bills[saleId]? = some bill → bill.payments = []
  completed : status = .completed → ∀ bill, s.bills[saleId]? = some bill → Paid s saleId bill

/-- The money of the sales in stock. -/
structure Books (s : State) : Prop where
  stock : Recorded s.stock
  room : Roomy s.stock
  counted : s.bills.length = s.stock.sales.length
  unknown : ∀ saleId, s.stock.sales.length ≤ saleId → Blank s saleId
  entered : ∀ (saleId : Nat) sale, s.stock.sales[saleId]? = some sale → Entered s saleId sale.status

theorem Paid.same (paid : Paid s saleId bill) (touches : Touches subject s t) (apart : subject ≠ some saleId) : Paid t saleId bill where
  standing := paid.standing
  posted := by
    rw [touches.posted saleId apart]
    exact paid.posted
  owed customerId := by
    rw [State.owed,touches.entries saleId apart]
    exact paid.owed customerId

theorem Blank.same (blank : Blank s saleId) (touches : Touches subject s t) (apart : subject ≠ some saleId) : Blank t saleId :=
  ⟨(touches.posted saleId apart).trans blank.posted,(touches.entries saleId apart).trans blank.entries⟩

theorem Entered.same {status : SaleStatus} (entered : Entered s saleId status) (touches : Touches subject s t)
    (apart : subject ≠ some saleId) : Entered t saleId status where
  held held := by
    rw [touches.bills saleId apart]
    exact ⟨(entered.held held).1.same touches apart,(entered.held held).2⟩
  completed completed bill found := by
    rw [touches.bills saleId apart] at found
    exact (entered.completed completed bill found).same touches apart

theorem Entered.restocked {status : SaleStatus} (entered : Entered s saleId status) (stock : Stock.Store) :
    Entered { s with stock := stock } saleId status where
  held held := ⟨⟨(entered.held held).1.posted,(entered.held held).1.entries⟩,(entered.held held).2⟩
  completed completed bill found :=
    have paid := entered.completed completed bill found
    ⟨paid.standing,paid.posted,paid.owed⟩

theorem Touches.restocked (touches : Touches subject s t) (stock : Stock.Store) : Touches subject s { t with stock := stock } :=
  ⟨touches.bills,touches.posted,touches.entries⟩

/-- Only the sale that a request is about has to be looked at. -/
theorem Books.next {request : Stock.Request} (books : Books s) (step : Step request s.stock t.stock) (room : Roomy t.stock)
    (touches : Touches (request.subject s.stock) s t)
    (here : ∀ saleId, request.subject s.stock = some saleId → saleId < t.bills.length ∧
      ∀ status, request.leaves status = true → Entered t saleId status) : Books t := by
  refine ⟨step.recorded,room,eq_of_forall_lt_iff fun other => ?_,fun saleId beyond => ?_,fun saleId sale found => ?_⟩
  · by_cases subject : request.subject s.stock = some other
    · obtain ⟨sale,found,-⟩ := step.settled other subject
      exact iff_of_true (here other subject).1 (List.getElem?_eq_some_iff.mp found).1
    · rw [step.there subject,← books.counted,← not_le,← not_le,← List.getElem?_eq_none_iff,← List.getElem?_eq_none_iff,
        touches.bills other subject]
  · have apart : request.subject s.stock ≠ some saleId := by
      intro subject
      obtain ⟨sale,found,-⟩ := step.settled saleId subject
      exact absurd beyond (not_le.mpr (List.getElem?_eq_some_iff.mp found).1)
    have before : s.stock.sales.length ≤ saleId := not_lt.mp fun inside => not_lt.mpr beyond ((step.there apart).mpr inside)
    exact (books.unknown saleId before).same touches apart
  · by_cases subject : request.subject s.stock = some saleId
    · obtain ⟨same,there,leaves⟩ := step.settled saleId subject
      obtain rfl := Option.some.inj (there.symm.trans found)
      exact (here saleId subject).2 _ leaves
    · have same := step.others saleId subject
      rw [found] at same
      obtain ⟨old,there,status⟩ := Option.map_eq_some_iff.mp same.symm
      rw [← status]
      exact (books.entered saleId old there).same touches subject

/-- What a request leaves of the money of the sale that it is about. -/
structure Enters (request : Stock.Request) (s t : State) : Prop where
  touches : Touches (request.subject s.stock) s t
  here : ∀ saleId, request.subject s.stock = some saleId → saleId < t.bills.length ∧
    ∀ status, request.leaves status = true → Entered t saleId status

theorem Touches.bills_of {bills : List Bill} (same : ∀ other, other ≠ saleId → bills[other]? = s.bills[other]?) :
    Touches (some saleId) s { s with bills := bills } :=
  ⟨fun other apart => same other fun equal => apart (congrArg some equal.symm),fun _ _ => rfl,fun _ _ => rfl⟩

theorem enters_createSale {data : Stock.CreateSale} (books : Books s) (whole : wholeCredit data.bill.payments = true)
    (settled : createSale s data registerShiftId = some u) : Enters (.createSale data) s u := by
  simp only [createSale,Option.bind_eq_bind,Option.bind_eq_some_iff,Outcome.toOption_eq_some] at settled
  obtain ⟨settlement,accepted,stored,inserted,charged⟩ := settled
  rw [← books.counted] at charged
  obtain ⟨touches,bills,-⟩ := touches_charge charged
  refine ⟨?_,fun saleId subject => ?_⟩
  · rw [Stock.Request.subject,← books.counted]
    exact ((Touches.bills_of fun other apart => Slots.append_apart apart).trans (touches_post _ _ _ _)).trans touches
  · obtain rfl := Option.some.inj subject
    rw [← books.counted,bills]
    refine ⟨by simp [State.post],fun status leaves => ⟨fun held => ?_,fun _ bill found => ?_⟩⟩
    · rw [held] at leaves
      cases leaves
    · rw [bills] at found
      obtain rfl := Option.some.inj (List.getElem?_concat_length.symm.trans found)
      have blank := books.unknown _ le_rfl
      rw [← books.counted] at blank
      exact paid_charge (s := { s with bills := s.bills ++ [⟨data.bill.customerId,some registerShiftId,stored⟩] })
        ⟨blank.posted,blank.entries⟩ whole accepted inserted charged

theorem enters_openTab (books : Books s) (branchId : Nat) : Enters (.openTab branchId) s (openTab s subject buyer) := by
  refine ⟨?_,fun saleId same => ?_⟩
  · rw [Stock.Request.subject,← books.counted]
    exact Touches.bills_of fun other apart => Slots.append_apart apart
  · obtain rfl := Option.some.inj same
    have blank := books.unknown _ le_rfl
    rw [← books.counted] at blank ⊢
    refine ⟨by simp [openTab],fun status leaves => ⟨fun _ => ⟨⟨blank.posted,blank.entries⟩,fun bill found => ?_⟩,fun completed => ?_⟩⟩
    · obtain rfl := Option.some.inj (List.getElem?_concat_length.symm.trans found)
      rfl
    · rw [completed] at leaves
      cases leaves

theorem enters_completeTab {payments : List Payment} {soldAt : Int} (books : Books s) (whole : wholeCredit payments = true)
    (tabbed : s.stock.sales[saleId]?.all (·.status = .held) = true)
    (settled : completeTab s saleId payments registerShiftId = some u) : Enters (.completeTab saleId payments soldAt) s u := by
  simp only [completeTab,Option.bind_eq_bind,Option.bind_eq_some_iff,Outcome.toOption_eq_some] at settled
  obtain ⟨sale,there,bill,found,settlement,accepted,stored,inserted,charged⟩ := settled
  rw [there,Option.all_some,decide_eq_true_eq] at tabbed
  obtain ⟨blank,unpaid⟩ := (books.entered saleId sale there).held tabbed
  obtain ⟨touches,bills,-⟩ := touches_charge charged
  have inside := (List.getElem?_eq_some_iff.mp found).1
  refine ⟨((Touches.bills_of fun other apart => List.getElem?_set_ne apart.symm).trans (touches_post _ _ _ _)).trans touches,fun other subject => ?_⟩
  obtain rfl := Option.some.inj subject
  rw [bills]
  refine ⟨by simpa [State.post] using inside,fun status leaves => ⟨fun held => ?_,fun _ paid now => ?_⟩⟩
  · rw [held] at leaves
    cases leaves
  · rw [bills] at now
    obtain rfl := Option.some.inj ((List.getElem?_set_self inside).symm.trans now)
    rw [unpaid bill found,List.nil_append] at charged ⊢
    exact paid_charge (s := { s with bills := s.bills.set saleId { bill with registerShiftId := some registerShiftId, payments := stored } })
      ⟨blank.posted,blank.entries⟩ whole accepted inserted charged

theorem touches_reverse (reversed : reverseCompletedSaleSettlements s saleId bill = some u) (found : s.bills[saleId]? = some bill) :
    Touches (some saleId) s u ∧ saleId < u.bills.length := by
  have inside := (List.getElem?_eq_some_iff.mp found).1
  rw [reverseCompletedSaleSettlements] at reversed
  generalize refunded : ({ s with bills := s.bills.set saleId { bill with payments := bill.payments.map refundPayment } } : State) = v at reversed
  have set : Touches (some saleId) s v ∧ saleId < v.bills.length := by
    rw [← refunded]
    exact ⟨Touches.bills_of fun other apart => List.getElem?_set_ne apart.symm,by simpa using inside⟩
  obtain ⟨touches,bills,-⟩ := touches_creditBack reversed
  rw [bills]
  cases shift : bill.registerShiftId with
  | none =>
    rw [shift] at touches
    exact ⟨set.1.trans touches,set.2⟩
  | some registerShiftId =>
    rw [shift] at touches
    exact ⟨(set.1.trans (touches_post _ _ _ _)).trans touches,set.2⟩

theorem entered_shut {status : SaleStatus} (shut : status = .voided ∨ status = .cancelled) : Entered s saleId status := by
  constructor <;> rcases shut with rfl | rfl <;> intro same <;> cases same

theorem enters_voidSale {now : Int} (settled : voidSale s saleId = some u) : Enters (.voidSale saleId now) s u := by
  obtain ⟨bill,found,settled⟩ := Option.bind_eq_some_iff.mp settled
  split at settled
  · obtain ⟨touches,inside⟩ := touches_reverse settled found
    refine ⟨touches,fun other subject => ?_⟩
    obtain rfl := Option.some.inj subject
    exact ⟨inside,fun status leaves => entered_shut (.inl (of_decide_eq_true leaves))⟩
  · cases settled

theorem enters_cancelSale {now : Int} (settled : cancelSale s saleId = some u) : Enters (.cancelSale saleId now) s u := by
  obtain ⟨bill,found,settled⟩ := Option.bind_eq_some_iff.mp settled
  have reversed : Touches (some saleId) s u ∧ saleId < u.bills.length := by
    split at settled
    · obtain rfl := Option.some.inj settled
      exact ⟨touches_refl _ _,(List.getElem?_eq_some_iff.mp found).1⟩
    · exact touches_reverse settled found
  refine ⟨reversed.1,fun other subject => ?_⟩
  obtain rfl := Option.some.inj subject
  exact ⟨reversed.2,fun status leaves => entered_shut (.inr (of_decide_eq_true leaves))⟩

theorem Touches.enters {request : Stock.Request} (touches : Touches none s u) (subject : request.subject s.stock = none) : Enters request s u :=
  ⟨subject ▸ touches,fun saleId some_ => by rw [subject] at some_; cases some_⟩

theorem touches_createSaleReturn {data : Refunds.CreateSaleReturnRequest} (settled : createSaleReturn s data registerShiftId = some u) :
    Touches none s u := by
  obtain ⟨saleReturn,-,settled⟩ := Option.bind_eq_some_iff.mp settled
  have recorded : Touches none s { s with returns := s.returns ++ [saleReturn] } := ⟨fun _ _ => rfl,fun _ _ => rfl,fun _ _ => rfl⟩
  exact (recorded.trans (touches_post _ _ _ _)).trans (touches_creditBack settled).1

theorem reversible_of_settles {request : Stock.Request} {shift customer : Option Nat}
    (allowed : settles s (.stock request shift customer) = true) : Stock.reversible s.stock request = true ∧ wholeCredits request = true :=
  Bool.and_eq_true_iff.mp allowed

theorem enters_settle {request : Stock.Request} {shift customer : Option Nat} (books : Books s)
    (allowed : settles s (.stock request shift customer) = true) (settled : settle s shift customer request = some u) : Enters request s u := by
  have aside (same : some s = some u) (subject : request.subject s.stock = none) : Enters request s u := by
    obtain rfl := Option.some.inj same
    exact (touches_refl none s).enters subject
  cases request with
  | createSale data =>
    obtain ⟨registerShiftId,-,settled⟩ := Option.bind_eq_some_iff.mp settled
    exact enters_createSale books (reversible_of_settles allowed).2 settled
  | openTab branchId =>
    obtain rfl := Option.some.inj settled
    exact enters_openTab books branchId
  | completeTab saleId payments soldAt =>
    obtain ⟨registerShiftId,-,settled⟩ := Option.bind_eq_some_iff.mp settled
    obtain ⟨tabbed,whole⟩ := reversible_of_settles allowed
    exact enters_completeTab books whole tabbed settled
  | createSaleReturn data returnedAt =>
    obtain ⟨registerShiftId,-,settled⟩ := Option.bind_eq_some_iff.mp settled
    exact (touches_createSaleReturn settled).enters rfl
  | voidSale saleId now => exact enters_voidSale settled
  | cancelSale saleId now => exact enters_cancelSale settled
  | _ => exact aside settled rfl

theorem tabbed_of_settles {request : Stock.Request} {shift customer : Option Nat} (allowed : settles s (.stock request shift customer) = true) :
    request.tabbed s.stock = true := by
  cases request with
  | completeTab saleId payments soldAt => exact (reversible_of_settles allowed).1
  | _ => rfl

theorem serve_stock {request : Stock.Request} {shift customer : Option Nat} (served : serve s (.stock request shift customer) = some t) :
    ∃ u, settle s shift customer request = some u ∧ t = { u with stock := t.stock } ∧ ∃ done, request.program.run s.stock = .ok (done,t.stock) := by
  simp only [serve,Option.bind_eq_bind,Option.bind_eq_some_iff] at served
  obtain ⟨stock,ran,u,settled,same⟩ := served
  cases same
  exact ⟨u,settled,rfl,Stock.serve_eq_some ran⟩

theorem books_stock {request : Stock.Request} {shift customer : Option Nat} (books : Books s)
    (allowed : settles s (.stock request shift customer) = true) (served : serve s (.stock request shift customer) = some t) :
    Books t ∧ Step request s.stock t.stock := by
  obtain ⟨u,settled,same,done,ran⟩ := serve_stock served
  have step := Stock.step_program request books.stock (tabbed_of_settles allowed) done t.stock ran
  have room := Stock.roomy_program books.room books.stock (reversible_of_settles allowed).1 done t.stock ran
  obtain ⟨touches,here⟩ := enters_settle books allowed settled
  rw [same] at step ⊢
  refine ⟨books.next step room (touches.restocked _) fun saleId subject => ?_,step⟩
  exact ⟨(here saleId subject).1,fun status leaves => ((here saleId subject).2 status leaves).restocked _⟩

theorem touches_cashPostings (s : State) (txType : RegisterTxType) (payments : List Payment) (shift : Option Nat) :
    Touches none s (cashPostings s txType payments shift) := by
  cases shift with
  | none => exact touches_refl none s
  | some registerShiftId => exact touches_post s none registerShiftId _

/-- A request of another kind is about no sale. -/
theorem touches_serve {request : Request} (served : serve s request = some t) :
    (∃ stock shift customer, request = .stock stock shift customer) ∨ Touches none s t ∧ t.stock = s.stock := by
  have posted {condition : Prop} [Decidable condition] {transactions : List Transaction} {registerShiftId : Nat}
      (same : some (if condition then s.post none registerShiftId transactions else s) = some t) : Touches none s t ∧ t.stock = s.stock := by
    obtain rfl := Option.some.inj same
    split
    · exact ⟨touches_post s none registerShiftId _,rfl⟩
    · exact ⟨touches_refl none s,rfl⟩
  cases request with
  | stock request shift customer => exact .inl ⟨request,shift,customer,rfl⟩
  | recordCustomerPayment customerId payment registerShiftId =>
    rw [serve] at served
    split at served
    · have paid := (touches_cashPostings s .cashIn [payment] registerShiftId).trans (touches_createLedgerEntry served)
      obtain rfl := createLedgerEntry_some served
      exact .inr ⟨paid,by cases registerShiftId <;> rfl⟩
    · cases served
  | addCashMovement txType amount registerShiftId =>
    rw [serve] at served
    split at served
    · obtain rfl := Option.some.inj served
      exact .inr ⟨touches_post s none registerShiftId _,rfl⟩
    · cases served
  | payExpense payments activeShift =>
    obtain rfl := Option.some.inj served
    exact .inr ⟨touches_cashPostings s .expense payments activeShift,by cases activeShift <;> rfl⟩
  | openShift openingFloat registerShiftId => exact .inr (posted served)
  | closeShift actualCash registerShiftId => exact .inr (posted served)

theorem Books.aside (books : Books s) (touches : Touches none s t) (stock : t.stock = s.stock) : Books t := by
  have apart (other : Nat) : (none : Option Nat) ≠ some other := Option.some_ne_none other |>.symm
  refine ⟨stock ▸ books.stock,stock ▸ books.room,?_,fun saleId beyond => ?_,fun saleId sale found => ?_⟩
  · rw [stock,← books.counted]
    refine eq_of_forall_lt_iff fun other => ?_
    rw [← not_le,← not_le,← List.getElem?_eq_none_iff,← List.getElem?_eq_none_iff,touches.bills other (apart other)]
  · exact (books.unknown saleId (stock ▸ beyond)).same touches (apart saleId)
  · exact (books.entered saleId sale (stock ▸ found)).same touches (apart saleId)

theorem books_initial (initial : Initial s) : Books s := by
  obtain ⟨empty,bills,register,ledger⟩ := initial
  have sales := empty.2.2.1
  refine ⟨Stock.recorded_empty empty,Stock.roomy_empty empty,by rw [bills,sales]; rfl,fun saleId _ => ⟨?_,?_⟩,fun saleId sale found => ?_⟩
  · exact List.filter_eq_nil_iff.mpr fun posting member => by simp [register posting member]
  · exact List.filter_eq_nil_iff.mpr fun entry member => by simp [ledger entry member]
  · rw [sales] at found
    cases found

theorem books_serve {request : Request} (books : Books s) (taken : within settles serve s request = some t) : Books t := by
  obtain ⟨allowed,served⟩ := within_eq_some.mp taken
  rcases touches_serve served with ⟨stock,shift,customer,rfl⟩ | ⟨touches,stock⟩
  · exact (books_stock books allowed served).1
  · exact books.aside touches stock

theorem outstanding_serve {request : Request} {before made : Stock.Store} (books : Books s) (outstanding : Outstanding saleId before made s.stock)
    (taken : within settles serve s request = some t) : Outstanding saleId before made t.stock := by
  obtain ⟨allowed,served⟩ := within_eq_some.mp taken
  rcases touches_serve served with ⟨stock,shift,customer,rfl⟩ | ⟨-,same⟩
  · obtain ⟨-,step⟩ := books_stock books allowed served
    obtain ⟨u,-,-,done,ran⟩ := serve_stock served
    exact outstanding.step (tabbed_of_settles allowed) step (Stock.longer_program stock s.stock done t.stock ran)
  · rwa [same]

theorem outstanding_sold {request : Request} (books : Books s) (sells : request.sells s = some saleId)
    (taken : within settles serve s request = some t) : Outstanding saleId s.stock t.stock t.stock := by
  obtain ⟨allowed,served⟩ := within_eq_some.mp taken
  cases request with
  | stock request shift customer =>
    obtain ⟨u,-,-,done,ran⟩ := serve_stock served
    cases request with
    | createSale data =>
      obtain rfl := Option.some.inj sells
      exact Stock.outstanding_createSale data books.stock (reversible_of_settles allowed).1 done t.stock ran
    | completeTab other payments soldAt =>
      obtain rfl := Option.some.inj sells
      exact Stock.outstanding_completeTab other payments soldAt books.stock (tabbed_of_settles allowed) done t.stock ran
    | _ => cases sells
  | _ => cases sells

theorem cash_reversed (payments : List SalePayment) (saleId registerShiftId shiftId : Nat) :
    tally Posting.registerShiftId (fun row => cashEffect row.transaction) shiftId (payments.map (posting .sale saleId registerShiftId)) +
      tally Posting.registerShiftId (fun row => cashEffect row.transaction) shiftId (payments.map (posting .saleReturn saleId registerShiftId)) = 0 := by
  induction payments with
  | nil => simp
  | cons payment rest induction =>
    have opposite : cashEffect (posting .saleReturn saleId registerShiftId payment).transaction =
        -cashEffect (posting .sale saleId registerShiftId payment).transaction := by
      cases method : payment.paymentMethod <;> simp [posting,cashEffect,method]
    rw [List.map_cons,List.map_cons,tally_cons,tally_cons,opposite]
    change (if registerShiftId = shiftId then _ else 0) + _ + ((if registerShiftId = shiftId then _ else 0) + _) = 0
    split <;> linarith

theorem posted_reversals {payments : List SalePayment} (stored : ∀ payment ∈ payments, payment.amount ∈ Decimal.grid 2) :
    (reversals payments).map (fun tx => (⟨some saleId,registerShiftId,insertTransaction tx⟩ : Posting)) =
      payments.map (posting .saleReturn saleId registerShiftId) := by
  rw [reversals,List.map_map]
  refine List.map_congr_left fun payment member => ?_
  have same : money payment.amount = payment.amount := Decimal.quantize_of_mem_grid (stored payment member)
  simp [posting,insertTransaction,same]

/-- What the payments of a sale brought is taken back in the shift they were taken in, and from the account they were put on. -/
theorem reversed_paid (paid : Paid s saleId bill) (reversed : reverseCompletedSaleSettlements s saleId bill = some t) :
    (∀ registerShiftId, t.drawn saleId registerShiftId = 0) ∧ ∀ customerId, t.owed saleId customerId = 0 := by
  obtain ⟨registerShiftId,shift,posted⟩ := paid.posted
  have stored : ∀ payment ∈ bill.payments, payment.amount ∈ Decimal.grid 2 := fun payment member => (paid.standing payment member).2
  have completed : bill.completed = bill.payments := List.filter_eq_self.mpr fun payment member => decide_eq_true (paid.standing payment member).1
  rw [reverseCompletedSaleSettlements,completed] at reversed
  generalize refunded : ({ s with bills := s.bills.set saleId { bill with payments := bill.payments.map refundPayment } } : State) = v at reversed
  have before : v.posted saleId = s.posted saleId ∧ ∀ other, v.owed saleId other = s.owed saleId other := by
    rw [← refunded]
    exact ⟨rfl,fun _ => rfl⟩
  rw [shift] at reversed
  obtain ⟨-,-,same⟩ := touches_creditBack reversed
  refine ⟨fun shiftId => ?_,fun other => ?_⟩
  · rw [State.drawn,same,posted_post,if_pos rfl,before.1,posted,tally_append,posted_reversals stored]
    exact cash_reversed bill.payments saleId registerShiftId shiftId
  · have inside : creditOf bill.payments ∈ Decimal.grid 2 := by
      refine list_sum_mem fun amount member => ?_
      obtain ⟨payment,there,rfl⟩ := List.mem_map.mp member
      exact stored payment (List.mem_of_mem_filter there)
    have rounded : money (creditOf bill.payments) = creditOf bill.payments := Decimal.quantize_of_mem_grid inside
    have owed : (v.post (some saleId) registerShiftId (reversals bill.payments)).owed saleId other = s.owed saleId other := before.2 other
    rw [owed_creditBack reversed,owed,paid.owed,rounded]
    rcases (creditOf_nonneg bill.payments).eq_or_lt with none | positive
    · simp [← none]
    · simp only [positive,true_and,neg_add_cancel]

private def newShop : State := ⟨⟨true,[],[],[],[],[],[],[],[]⟩,[],[],[],[]⟩

private theorem newShop_initial : Initial newShop := ⟨⟨rfl,rfl,rfl,rfl,rfl⟩,rfl,List.forall_mem_nil _,List.forall_mem_nil _⟩

private def counter : Stock.Position := ⟨1,5,none⟩

private def delivery (qty : ℚ) (receivedAt : Int) : Request := .stock (.createPurchaseReceipt ⟨1,none,[⟨5,none,none,qty,1⟩],receivedAt⟩) none none

private def wasting (qty : ℚ) : Request := .stock (.createWasteEntry 1 [⟨5,none,qty⟩] 2) none none

private def selling (saleType : SaleType) (qty : ℚ) (payments : List Payment) : Request :=
  .stock (.createSale ⟨⟨1,some 9,[⟨5,none,qty,1,0,0,0⟩],payments⟩,saleType,1⟩) (some 1) none

private def returning (qty : ℚ) : Request :=
  .stock (.createSaleReturn ⟨1,some 1,none,[⟨some ⟨1,0⟩,none,none,qty,none,none⟩],[⟨.cash,qty⟩]⟩ 3) (some 1) none

/-- A sale after some requests, what comes between, and its void. -/
private def trial (step : State → Request → Option State) (first : List Request) (sale : Request) (between : List Request) :
    Option (State × State × State × State) := do
  let before ← execute step newShop first
  let made ← step before sale
  let later ← execute step made between
  let t ← step later (.stock (.voidSale 0 9) none none)
  pure (before,made,later,t)

private theorem trial_some {β : Type} {b : β} (step : State → Request → Option State) (view : State × State × State × State → β)
    (first : List Request) (sale : Request) (between : List Request) (computed : (trial step first sale between).map view = some b) :
    ∃ before made later t, Reachable Initial (OfNext step) before ∧ step before sale = some made ∧ Run (OfNext step) made between later ∧
      step later (.stock (.voidSale 0 9) none none) = some t ∧ view (before,made,later,t) = b := by
  obtain ⟨states,ran,same⟩ := Option.map_eq_some_iff.mp computed
  simp only [trial,Option.bind_eq_bind,Option.bind_eq_some_iff] at ran
  obtain ⟨before,reached,made,sold,later,passed,t,voided,ended⟩ := ran
  cases ended
  exact ⟨before,made,later,t,⟨newShop,first,newShop_initial,run_of_execute reached⟩,sold,run_of_execute passed,voided,same⟩

/-- A dine-in sale that is completed as a tab after a part was paid, a quantity between two that the columns hold, credits that are each
rounded up, another sale that is cancelled twice, and one that is returned in two parts.
-/
private def unsettledRuns : List (List Request × Request × List Request) :=
  [([delivery 10 0,selling .dineIn 4 [⟨.cash,1⟩]],.stock (.completeTab 0 [⟨.cash,4⟩] 2) (some 2) none,[]),
    ([delivery 10 0],selling .pos (100005/100000) [⟨.cash,1⟩],[wasting 1]),
    ([delivery 10 0],selling .pos 1 [⟨.credit,5/1000⟩,⟨.credit,5/1000⟩,⟨.cash,1⟩],[]),
    ([delivery 10 0],selling .pos 4 [⟨.cash,4⟩],
      [selling .pos 3 [⟨.cash,1⟩],.stock (.cancelSale 1 3) none none,.stock (.cancelSale 1 4) none none]),
    ([delivery 10 0],selling .pos 4 [⟨.cash,4⟩],[delivery 3 (-1),selling .pos 5 [⟨.cash,5⟩],returning 2,returning 3])]

private def neutralAt : State × State × State × State → Bool
  | (before,made,later,t) =>
    (List.range later.stock.layers.length).all (fun id =>
      t.stock.remaining id = later.stock.remaining id + (before.stock.remaining id - made.stock.remaining id)) &&
    t.stock.balance counter = (t.without 0).stock.balance counter && t.customerBalance 9 = (t.without 0).customerBalance 9

private theorem neutralAt_of {before made later t : State} (neutral : Neutral 0 before made later t) : neutralAt (before,made,later,t) = true := by
  simp only [neutralAt,Bool.and_eq_true,List.all_eq_true,List.mem_range,decide_eq_true_eq]
  exact ⟨⟨neutral.refilled,neutral.balances counter⟩,neutral.accounts 9⟩

private def Unsettled (run : List Request × Request × List Request) : Prop := ∃ before made later t, Reachable Initial (OfNext serve) before ∧
  run.2.1.sells before = some 0 ∧ serve before run.2.1 = some made ∧ Run (OfNext serve) made run.2.2 later ∧
    serve later (.stock (.voidSale 0 9) none none) = some t ∧ ¬ Neutral 0 before made later t

end VoidedSales
