import Mathlib.Algebra.Group.Submonoid.BigOperators
import SasBackend.Library.Outcome
import SasBackend.Semantics.CreditSales

/-! Nobody owes more than the credit limit by requests that run among each other.
A request that charges an account has locked the customer, and has seen that the rest of the limit covers the charge.
-/
namespace CreditSales
open SasBackend Pricing Tally Program Interleaving Transition

variable {α β : Type} {customerId : Nat} {creditLimit : ℚ} {s : Accounts} {held : Set Row} {floor : Row → ℚ}

/-- What the customer may still charge; the other rows limit nothing. -/
def headroom (customerId : Nat) (creditLimit : ℚ) (s : Accounts) : Row → ℚ
  | .customer id => if id = customerId then creditLimit + s.balance id else 0
  | .sale _ => 0

abbrev Charges (customerId : Nat) (creditLimit : ℚ) (p : Tx α) (held : Set Row) (floor : Row → ℚ)
    (post : α → Set Row → (Row → ℚ) → Prop) : Prop :=
  Safe (headroom customerId creditLimit) (Limited customerId creditLimit) p held floor post

/-- The program charges nothing. -/
def Gives (customerId : Nat) (creditLimit : ℚ) (p : Tx α) : Prop :=
  ∀ held floor, Charges customerId creditLimit p held floor fun _ _ _ => True

/-- A charge of the amount to the account is covered by what has been seen under the lock. -/
def Covers (customerId id : Nat) (amount : ℚ) (held : Set Row) (floor : Row → ℚ) : Prop :=
  id = customerId → .customer id ∈ held ∧ 0 ≤ floor (.customer id) + Decimal.quantize 2 (-amount)

theorem balance_entry (entry : CustomerLedger) (live : entry.deletedAt = none) (id : Nat) :
    Accounts.balance { s with ledger := s.ledger ++ [entry] } id =
      s.balance id + if entry.customerId = id then entry.amount else 0 := by
  simp only [Accounts.balance,List.filter_append,List.filter_singleton,live,Option.isNone_none,Bool.cond_true,
    tally_append,tally_singleton]

theorem balance_mem_grid (s : Accounts) (id : Nat) : s.balance id ∈ Decimal.grid 2 := by
  apply list_sum_mem
  intro amount member
  obtain ⟨entry,_,rfl⟩ := List.mem_map.mp member
  exact entry.scaled

theorem headroom_entry (id : Nat) (entryType : LedgerEntryType) (amount : ℚ) (s : Accounts) (row : Row) :
    headroom customerId creditLimit { s with ledger := s.ledger ++ [storeEntry id entryType amount] } row =
      headroom customerId creditLimit s row +
        if row = .customer id ∧ id = customerId then Decimal.quantize 2 amount else 0 := by
  cases row with
  | sale other => simp [headroom]
  | customer other =>
    simp only [headroom,balance_entry (storeEntry id entryType amount) rfl,Row.customer.injEq]
    by_cases mine : other = customerId
    · subst mine
      simp only [if_true,storeEntry]
      by_cases same : id = other
      · simp [same,add_assoc]
      · simp [same,Ne.symm same]
    · simp only [if_neg mine,zero_add]
      rw [if_neg]
      rintro ⟨rfl,same⟩
      exact mine same

theorem checkLimit_ok {balance amount : ℚ} {done : Unit} (passed : checkLimit creditLimit balance amount = .ok done)
    (positive : 0 < creditLimit) (scaled : creditLimit ∈ Decimal.grid 2) (exact_ : balance ∈ Decimal.grid 2) :
    0 ≤ creditLimit + balance + Decimal.quantize 2 (-amount) := by
  have within : -(creditLimit + balance) ≤ -amount := by
    by_contra beyond
    push Not at beyond
    have refused : balance - amount < 0 ∧ creditLimit < -(balance - amount) := ⟨by linarith,by linarith⟩
    simp only [checkLimit,if_pos refused] at passed
    cases passed
  have rounded := Decimal.quantize_mono (p := 2) within
  rw [Decimal.quantize_of_mem_grid (neg_mem (add_mem scaled exact_))] at rounded
  linarith

theorem Gives.bind {p : Tx α} {f : α → Tx β} (first : Gives customerId creditLimit p)
    (rest : ∀ a, Gives customerId creditLimit (f a)) : Gives customerId creditLimit (p >>= f) :=
  fun held floor => .bind ((first held floor).mono fun a held floor _ => rest a held floor)

theorem gives_pure (a : α) : Gives customerId creditLimit (pure a) := fun _ _ => trivial

theorem gives_fail (refusal : Refusal) : Gives customerId creditLimit (.fail refusal : Tx α) := fun _ _ => trivial

theorem gives_ofExcept (outcome : Except Refusal α) : Gives customerId creditLimit (ofExcept outcome) :=
  fun _ _ => safe_ofExcept fun _ _ => trivial

theorem gives_require (condition : Bool) (refusal : Refusal) : Gives customerId creditLimit (require condition refusal) :=
  fun _ _ => safe_require fun _ => trivial

theorem gives_get (query : Accounts → α) : Gives customerId creditLimit (get query) :=
  fun _ _ => safe_get fun _ _ _ => trivial

theorem gives_acquire (row : Row) : Gives customerId creditLimit (acquire row) := fun _ _ => safe_acquire trivial

theorem gives_found (query : Accounts → Option α) (refusal : Refusal) :
    Gives customerId creditLimit (found query refusal) := by
  refine (gives_get query).bind fun row => ?_
  cases row with
  | none => exact gives_fail refusal
  | some row => exact gives_pure row

theorem charges_put {change : Accounts → Accounts} {post : Unit → Set Row → (Row → ℚ) → Prop}
    (customers : ∀ s, (change s).customers = s.customers) (ledger : ∀ s, (change s).ledger = s.ledger)
    (holds : post () held floor) : Charges customerId creditLimit (put change) held floor post := by
  refine safe_put (fun s limited => ?_) (fun s => ?_) holds
  · rwa [Limited,customers]
  · funext row
    cases row <;> simp [headroom,Accounts.balance,ledger]

theorem gives_put {change : Accounts → Accounts} (customers : ∀ s, (change s).customers = s.customers)
    (ledger : ∀ s, (change s).ledger = s.ledger) : Gives customerId creditLimit (put change) :=
  fun _ _ => charges_put customers ledger trivial

theorem charges_entry {id : Nat} {entryType : LedgerEntryType} {amount : ℚ}
    (allowed : 0 ≤ amount ∨ Covers customerId id (-amount) held floor) :
    Charges customerId creditLimit (createLedgerEntry id entryType amount) held floor fun _ _ _ => True := by
  refine .bind (safe_require fun _ => ?_)
  refine ⟨fun row => if row = .customer id ∧ id = customerId then Decimal.quantize 2 amount else 0,
    ⟨fun s limited => limited,headroom_entry id entryType amount⟩,fun row => ?_,trivial⟩
  by_cases here : row = .customer id ∧ id = customerId
  · simp only [if_pos here]
    obtain ⟨rfl,mine⟩ := here
    rcases allowed with credit | covered
    · exact .inl (Decimal.quantize_nonneg credit)
    · have fits := covered mine
      rw [neg_neg] at fits
      exact .inr fits
  · simp only [if_neg here]
    exact .inl le_rfl

theorem gives_creditBack (id : Option Nat) (entryType : LedgerEntryType) (amount : ℚ) :
    Gives customerId creditLimit (creditBack id entryType amount) := by
  intro held floor
  unfold creditBack
  split
  · split
    · next positive => exact charges_entry (.inl positive.le)
    · trivial
  · trivial

theorem limited_customer {id : Nat} {customer : Customer} (limited : Limited customerId creditLimit s)
    (found : s.customer id = some customer) (mine : id = customerId) :
    customer.creditLimit = creditLimit := by
  obtain ⟨row,there,limit⟩ := limited
  subst mine
  have kept := (Option.filter_eq_some_iff.mp found).1
  cases there.symm.trans kept
  exact limit

/-- After the check the charge is covered by the customer's lock and the balance seen under it. -/
theorem charges_assertCreditAvailable (positive : 0 < creditLimit) {id : Nat} {amount : ℚ} (charged : 0 < amount) :
    Charges customerId creditLimit (assertCreditAvailable id amount) held floor
      fun _ held floor => Covers customerId id amount held floor := by
  refine .bind (.bind (safe_acquire (.bind (safe_get fun view limited _ => ?_))))
  cases known : view.customer id with
  | none => trivial
  | some customer =>
    refine safe_pure ?_
    by_cases free : amount ≤ 0 ∨ customer.creditLimit ≤ 0
    · rw [if_pos free]
      refine safe_pure fun mine => ?_
      rw [limited_customer limited known mine] at free
      rcases free with none | none <;> linarith
    · rw [if_neg free]
      refine .bind (.bind (.bind (safe_get fun seen _ _ => ?_)))
      cases seen.customer id with
      | none => trivial
      | some row =>
        refine safe_pure (safe_get fun last _ _ => safe_ofExcept fun _ passed mine => ?_)
        subst mine
        rw [limited_customer limited known rfl] at passed
        have scaled : creditLimit ∈ Decimal.grid 2 := limited_customer limited known rfl ▸ customer.scaled
        have enough := checkLimit_ok passed positive scaled (balance_mem_grid last id)
        exact ⟨Set.mem_insert _ _,by simpa [headroom] using enough⟩

/-- The part on account is covered, if there is one. -/
def Ready (customerId : Nat) (buyer : Option Nat) (amount : ℚ) (held : Set Row) (floor : Row → ℚ) : Prop :=
  ∀ id, buyer = some id → 0 < amount → Covers customerId id amount held floor

theorem charges_checkCredit (positive : 0 < creditLimit) (buyer : Option Nat) (amount : ℚ) :
    Charges customerId creditLimit (checkCredit buyer amount) held floor
      fun _ held floor => Ready customerId buyer amount held floor := by
  unfold checkCredit
  split
  · next charged =>
    split
    · next id =>
      refine (charges_assertCreditAvailable positive charged).mono fun _ held floor covers => ?_
      rintro other same _
      cases same
      exact covers
    · trivial
  · next nothing => exact safe_pure fun _ _ charged => absurd charged nothing

theorem charges_charge {buyer : Option Nat} {amount : ℚ} (ready : Ready customerId buyer amount held floor) :
    Charges customerId creditLimit (charge buyer amount) held floor fun _ _ _ => True := by
  unfold charge
  split
  · next id =>
    split
    · next charged =>
      refine charges_entry (.inr ?_)
      rw [neg_neg]
      exact ready id rfl charged
    · trivial
  · trivial

theorem gives_knownCustomer (buyer : Option Nat) : Gives customerId creditLimit (knownCustomer buyer) := by
  cases buyer with
  | none => exact gives_pure ()
  | some id => exact (gives_found _ _).bind fun _ => gives_pure ()

theorem gives_lockCustomer (id : Nat) : Gives customerId creditLimit (lockCustomer id) :=
  (gives_acquire _).bind fun _ => gives_found _ _

theorem gives_lockKnown (buyer : Option Nat) : Gives customerId creditLimit (lockKnown buyer) := by
  cases buyer with
  | none => exact gives_pure ()
  | some id => exact (gives_lockCustomer id).bind fun _ => gives_pure ()

theorem gives_lockSale (saleId : Nat) : Gives customerId creditLimit (lockSale saleId) :=
  (gives_acquire _).bind fun _ => gives_found _ _

theorem Gives.andThen {p : Tx α} {f : α → Tx β} {post : β → Set Row → (Row → ℚ) → Prop}
    (first : Gives customerId creditLimit p)
    (rest : ∀ a held floor, Charges customerId creditLimit (f a) held floor post) :
    Charges customerId creditLimit (p >>= f) held floor post :=
  .bind ((first held floor).mono fun a held floor _ => rest a held floor)

theorem charges_createSale (positive : 0 < creditLimit) (data : Refunds.CreateSaleRequest) (saleType : SaleType)
    (registerShiftId : Nat) : Gives customerId creditLimit (createSale data saleType registerShiftId) := by
  intro held floor
  refine (gives_require _ _).andThen fun _ _ _ => (gives_knownCustomer _).andThen fun _ _ _ =>
    (gives_ofExcept _).andThen fun settlement _ _ => .bind ?_
  refine (charges_checkCredit positive _ _).mono fun _ _ _ ready => ?_
  exact .bind (safe_ofExcept fun _ _ => .bind (safe_ofExcept fun _ _ =>
    .bind (charges_put (fun _ => rfl) (fun _ => rfl) (charges_charge ready))))

theorem charges_completeTab (positive : 0 < creditLimit) (saleId : Nat) (payments : List Payment) (registerShiftId : Nat) :
    Gives customerId creditLimit (completeTab saleId payments registerShiftId) := by
  intro held floor
  refine (gives_lockSale saleId).andThen fun sale _ _ => (gives_require _ _).andThen fun _ _ _ =>
    (gives_require _ _).andThen fun _ _ _ => (gives_require _ _).andThen fun _ _ _ =>
    (gives_ofExcept _).andThen fun settlement _ _ => (gives_require _ _).andThen fun _ _ _ => .bind ?_
  refine (charges_checkCredit positive _ _).mono fun _ _ _ ready => ?_
  exact .bind (safe_ofExcept fun _ _ => .bind (charges_put (fun _ => rfl) (fun _ => rfl) (charges_charge ready)))

theorem gives_recordCustomerPayment (id : Nat) (amount : ℚ) :
    Gives customerId creditLimit (recordCustomerPayment id amount) := by
  intro held floor
  refine .bind (safe_require fun paid => (gives_found _ _).andThen fun _ _ _ => charges_entry (.inl ?_))
  exact (of_decide_eq_true paid).le

theorem gives_reverse (saleId : Nat) (sale : Sale) :
    Gives customerId creditLimit (reverseCompletedSaleSettlements saleId sale) := by
  refine Gives.bind ?_ fun _ => gives_creditBack _ _ _
  exact gives_put (fun _ => rfl) fun _ => rfl

theorem gives_setStatus (saleId : Nat) (status : SaleStatus) : Gives customerId creditLimit (setStatus saleId status) :=
  gives_put (fun _ => rfl) fun _ => rfl

theorem gives_voidSale (saleId : Nat) : Gives customerId creditLimit (voidSale saleId) :=
  (gives_lockSale saleId).bind fun sale => (gives_require _ _).bind fun _ => (gives_require _ _).bind fun _ =>
    (gives_get _).bind fun _ => (gives_require _ _).bind fun _ => (gives_reverse saleId sale).bind fun _ =>
    gives_setStatus saleId .voided

theorem gives_cancelSale (saleId : Nat) : Gives customerId creditLimit (cancelSale saleId) := by
  refine (gives_lockSale saleId).bind fun sale => (gives_require _ _).bind fun _ => (gives_get _).bind fun _ =>
    (gives_require _ _).bind fun _ => ?_
  split
  · exact (gives_reverse saleId sale).bind fun _ => gives_setStatus saleId .cancelled
  · exact (gives_pure ()).bind fun _ => gives_setStatus saleId .cancelled

theorem gives_createSaleReturn (data : Refunds.CreateSaleReturnRequest) :
    Gives customerId creditLimit (createSaleReturn data) := by
  refine (gives_get _).bind fun _ => (gives_ofExcept _).bind fun _ => (gives_lockKnown _).bind fun _ =>
    (gives_get _).bind fun _ => (gives_ofExcept _).bind fun _ => Gives.bind ?_ fun _ => gives_creditBack _ _ _
  exact gives_put (fun _ => rfl) fun _ => rfl

theorem request_gives (positive : 0 < creditLimit) (request : Request) :
    Gives customerId creditLimit request.program := by
  cases request with
  | createSale data saleType registerShiftId => exact charges_createSale positive data saleType registerShiftId
  | completeTab saleId payments registerShiftId => exact charges_completeTab positive saleId payments registerShiftId
  | recordCustomerPayment id amount => exact gives_recordCustomerPayment id amount
  | voidSale saleId => exact gives_voidSale saleId
  | cancelSale saleId => exact gives_cancelSale saleId
  | createSaleReturn data => exact gives_createSaleReturn data

/-- No run of the requests brings a customer above the limit. -/
theorem credit_limit_kept {w w' : World} {labels : List (Label Accounts Request)} (positive : 0 < creditLimit)
    (fresh : Fresh w) (limited : Limited customerId creditLimit w.committed)
    (within : w.committed.owed customerId ≤ creditLimit) (run : Run Step w labels w') :
    w'.committed.owed customerId ≤ creditLimit := by
  have nonneg : ∀ row, 0 ≤ headroom customerId creditLimit w.committed row := by
    intro row
    cases row with
    | sale id => exact le_rfl
    | customer id =>
      simp only [headroom]
      split
      · next mine =>
        rw [Accounts.owed] at within
        rw [mine]
        linarith
      · exact le_rfl
  have kept : Invariant (headroom customerId creditLimit) (Limited customerId creditLimit) w' := by
    refine run.invariant (fun _ _ _ kept taken => ?_) (.initial fresh limited nonneg)
    refine Invariant.step (fun shown view known seen => ⟨?_,fun row => ?_⟩) (fun _ request _ => ?_) kept taken
    · rwa [Limited,seen.1]
    · cases row <;> simp [headroom,Accounts.balance,seen.2]
    · exact (request_gives positive request ∅ _).mono fun _ _ _ _ => trivial
  have last := kept.nonneg (.customer customerId)
  simp only [headroom,if_true] at last
  rw [Accounts.owed]
  linarith

/-- One customer with a limit of 100 who owes 40. -/
def oneCustomer : World where
  committed :=
    { customers := [⟨100,none,by decide +kernel⟩]
      ledger := [storeEntry 0 .sale (-40)]
      sales := []
      returns := [] }
  locks := []
  sessions := fun _ => none

def onAccount : Refunds.CreateSaleRequest := ⟨1,some 0,[⟨5,none,2,30,0,0,0⟩],[⟨.credit,60⟩]⟩

/-- The rest of the limit may be put on account. -/
theorem credit_limit_kept_exhausted : ∃ labels d, Run Step oneCustomer labels ⟨d,[],fun _ => none⟩ ∧
    d.ledger.length = 2 ∧ d.owed 0 ≤ 100 := by
  obtain ⟨outcome,ran,entries⟩ : ∃ outcome, ((Request.createSale onAccount .pos 3).program.run oneCustomer.committed).toOption =
      some outcome ∧ outcome.2.ledger.length = 2 := by
    refine Option.map_eq_some_iff.mp ?_
    decide +kernel
  have ended := Outcome.toOption_eq_some.mp ran
  have fresh : Fresh oneCustomer := ⟨rfl,fun _ => rfl⟩
  let anything (_ : World) (_ : Label Accounts Request) : Prop := True
  obtain ⟨labels,run⟩ : ∃ labels, Run (Restricted anything Step) oneCustomer labels ⟨outcome.2,[],fun _ => none⟩ :=
    runs_alone (fun d => ⟨rfl,rfl⟩) (fun _ _ _ => trivial) fresh trivial ended
  have moved : Run Step oneCustomer labels ⟨outcome.2,[],fun _ => none⟩ := run.mono fun _ _ _ taken => taken.2
  have limited : Limited 0 100 oneCustomer.committed := ⟨⟨100,none,by decide +kernel⟩,rfl,rfl⟩
  have kept := credit_limit_kept (by norm_num) fresh limited (by decide +kernel) moved
  exact ⟨labels,outcome.2,moved,entries,kept⟩

end CreditSales
