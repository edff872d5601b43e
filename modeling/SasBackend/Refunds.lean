import Mathlib.Tactic.Ring
import Mathlib.Algebra.BigOperators.Fin
import Mathlib.Algebra.Group.Submonoid.BigOperators
import Mathlib.Algebra.Order.Field.Basic
import SasBackend.Library.Outcome
import SasBackend.Semantics.Refunds

/-! Money paid back stays within money taken while every return is borne by its lines.
A line's account is what its returns have taken together: part of it never refunds more than its exact share, and
the return that completes it makes up the difference to what the line cost.
-/
namespace Refunds
open SasBackend Pricing Tally Outcome Transition

def ReturnLine.refund (line : ReturnLine) : ℚ :=
  round2 (line.qty * line.unitPrice - line.discountAmount + line.taxAmount)

/-- What was returned of one sale line. -/
structure Account where
  qty : ℚ
  discount : ℚ
  tax : ℚ
  refund : ℚ

def account (lines : List ReturnLine) (id : LineId) : Account where
  qty := tally ReturnLine.saleLineId ReturnLine.qty (some id) lines
  discount := tally ReturnLine.saleLineId ReturnLine.discountAmount (some id) lines
  tax := tally ReturnLine.saleLineId ReturnLine.taxAmount (some id) lines
  refund := tally ReturnLine.saleLineId ReturnLine.refund (some id) lines

def Account.add (a : Account) (line : ReturnLine) : Account :=
  ⟨a.qty + line.qty,a.discount + line.discountAmount,a.tax + line.taxAmount,a.refund + line.refund⟩

theorem account_snoc_of_eq {lines : List ReturnLine} {line : ReturnLine} {id : LineId}
    (same : line.saleLineId = some id) : account (lines ++ [line]) id = (account lines id).add line := by
  simp [account,Account.add,tally_append,tally_singleton,same]

theorem account_append_of_ne {lines more : List ReturnLine} {id : LineId}
    (other : ∀ line ∈ more, line.saleLineId ≠ some id) : account (lines ++ more) id = account lines id := by
  simp only [account,tally_append,tally_eq_zero other,add_zero]

theorem account_append (lines more : List ReturnLine) (id : LineId) : account (lines ++ more) id =
    ⟨(account lines id).qty + (account more id).qty,(account lines id).discount + (account more id).discount,
      (account lines id).tax + (account more id).tax,(account lines id).refund + (account more id).refund⟩ := by
  simp only [account,tally_append]

theorem account_nil (id : LineId) : account [] id = ⟨0,0,0,0⟩ := rfl

theorem account_eq_zero {lines : List ReturnLine} {id : LineId} (other : ∀ line ∈ lines, line.saleLineId ≠ some id) :
    account lines id = ⟨0,0,0,0⟩ := by
  simp only [account,tally_eq_zero other]

variable {line : SaleLine} {a : Account}

/-- What an account keeps to. -/
structure Fair (line : SaleLine) (a : Account) : Prop where
  scaled : a.refund ∈ Decimal.grid 2
  discountScaled : a.discount ∈ Decimal.grid 2
  taxScaled : a.tax ∈ Decimal.grid 2
  nonneg : 0 ≤ a.qty
  bounded : a.qty ≤ line.qty
  refund : a.qty < line.qty → a.refund ≤ a.qty * line.unitPrice - a.discount + a.tax
  discount : a.qty < line.qty → line.discountAmount * a.qty / line.qty ≤ a.discount
  tax : a.qty < line.qty → a.tax ≤ line.taxAmount * a.qty / line.qty
  whole : a.qty = line.qty → a.refund ≤ line.lineTotal

theorem Fair.zero : Fair line ⟨0,0,0,0⟩ := by
  have positive := line.qtyPositive
  refine ⟨zero_mem _,zero_mem _,zero_mem _,le_rfl,positive.le,?_,?_,?_,fun same => absurd same positive.ne⟩ <;> simp

theorem lineTotal_eq : line.lineTotal =
    Decimal.halfUp 2 (line.qty * line.unitPrice - line.discountAmount + line.taxAmount) := by
  have price : 0 ≤ line.qty * line.unitPrice := mul_nonneg line.qtyPositive.le line.priceNonneg
  have inside : -line.discountAmount + line.taxAmount ∈ Decimal.grid 2 :=
    add_mem (neg_mem line.discountScaled) line.taxScaled
  have moved := Decimal.halfUp_add (q := line.qty * line.unitPrice) inside
  rw [SaleLine.lineTotal,round2,Decimal.quantize_of_nonneg price,sub_eq_add_neg,sub_eq_add_neg,add_assoc,add_assoc,
    moved]

theorem Fair.le_worth (fair : Fair line a) : a.refund ≤ line.worth a.qty := by
  unfold SaleLine.worth
  split
  case isTrue less =>
    refine Decimal.le_truncate fair.scaled ?_
    have refund := fair.refund less
    have discount := fair.discount less
    have tax := fair.tax less
    have split : (line.qty * line.unitPrice - line.discountAmount + line.taxAmount) * a.qty / line.qty =
        a.qty * line.unitPrice - line.discountAmount * a.qty / line.qty + line.taxAmount * a.qty / line.qty := by
      have positive := line.qtyPositive.ne'
      field_simp
    linarith
  case isFalse complete => exact fair.whole (le_antisymm fair.bounded (not_lt.mp complete))

theorem round2_mem (q : ℚ) : round2 q ∈ Decimal.grid 2 := Decimal.quantize_mem_grid 2 q

/-- A return that leaves units behind and rounds nothing in the customer's favour. -/
theorem Fair.part {item : ReturnLine} (fair : Fair line a) (positive : 0 < item.qty)
    (leaves : a.qty + item.qty < line.qty) (price : item.unitPrice = line.unitPrice)
    (discount : item.discountAmount = round2 (line.discountAmount * item.qty / line.qty))
    (tax : item.taxAmount = round2 (line.taxAmount * item.qty / line.qty))
    (against : line.roundsAgainst item.qty = false) : Fair line (a.add item) := by
  have less : a.qty < line.qty := by linarith
  simp only [SaleLine.roundsAgainst,Bool.or_eq_false_iff,decide_eq_false_iff_not,not_lt] at against
  obtain ⟨⟨low,high⟩,amount⟩ := against
  rw [← discount] at low
  rw [← tax] at high
  rw [← discount,← tax,← price] at amount
  have shares : ∀ q : ℚ, q * (a.qty + item.qty) / line.qty = q * a.qty / line.qty + q * item.qty / line.qty := by
    intro q
    rw [mul_add,add_div]
  constructor
  case scaled => exact add_mem fair.scaled (round2_mem _)
  case discountScaled => exact add_mem fair.discountScaled (discount ▸ round2_mem _)
  case taxScaled => exact add_mem fair.taxScaled (tax ▸ round2_mem _)
  case nonneg => exact add_nonneg fair.nonneg positive.le
  case bounded => exact leaves.le
  case refund =>
    intro _
    have refund := fair.refund less
    have share : item.refund ≤ item.qty * item.unitPrice - item.discountAmount + item.taxAmount := amount
    rw [price] at share
    dsimp only [Account.add]
    linarith
  case discount =>
    intro _
    have share := fair.discount less
    dsimp only [Account.add]
    rw [shares]
    exact add_le_add share low
  case tax =>
    intro _
    have share := fair.tax less
    dsimp only [Account.add]
    rw [shares]
    exact add_le_add share high
  case whole => exact fun same => absurd same leaves.ne

/-- The return of the last units: it may give back what is left of tax over discount. -/
theorem Fair.complete {item : ReturnLine} (fair : Fair line a) (positive : 0 < item.qty)
    (all : a.qty + item.qty = line.qty) (price : item.unitPrice = line.unitPrice)
    (discount : item.discountAmount ∈ Decimal.grid 2) (tax : item.taxAmount ∈ Decimal.grid 2)
    (rest : item.taxAmount - item.discountAmount ≤
      (line.taxAmount - a.tax) - (line.discountAmount - a.discount)) : Fair line (a.add item) := by
  have less : a.qty < line.qty := by linarith
  have taken : ¬(a.add item).qty < line.qty := all.ge.not_gt
  constructor
  case scaled => exact add_mem fair.scaled (round2_mem _)
  case discountScaled => exact add_mem fair.discountScaled discount
  case taxScaled => exact add_mem fair.taxScaled tax
  case nonneg => exact add_nonneg fair.nonneg positive.le
  case bounded => exact all.le
  case refund => exact fun less => absurd less taken
  case discount => exact fun less => absurd less taken
  case tax => exact fun less => absurd less taken
  case whole =>
    intro _
    have earlier := fair.refund less
    have goods : line.qty * line.unitPrice = a.qty * line.unitPrice + item.qty * item.unitPrice := by
      rw [← all,price,add_mul]
    calc a.refund + item.refund
        ≤ a.refund + Decimal.halfUp 2 (item.qty * item.unitPrice - item.discountAmount + item.taxAmount) :=
          add_le_add_right Decimal.quantize_le_halfUp _
      _ = Decimal.halfUp 2 (item.qty * item.unitPrice - item.discountAmount + item.taxAmount + a.refund) := by
          rw [Decimal.halfUp_add fair.scaled,add_comm]
      _ ≤ Decimal.halfUp 2 (line.qty * line.unitPrice - line.discountAmount + line.taxAmount) :=
          Decimal.halfUp_mono (by linarith)
      _ = line.lineTotal := lineTotal_eq.symm

variable {s t : State} {pending : List Prepared} {request : ReturnLineRequest} {item : Prepared} {id : LineId}
  {original : SaleLine}

def FairLines (s : State) (lines : List ReturnLine) : Prop :=
  ∀ (id : LineId) (original : SaleLine), s.line id = some original → Fair original (account lines id)

/-- Where the check of a request's lines stands. -/
structure Progress (s : State) (pending : List Prepared) : Prop where
  fair : FairLines s (returnedLines s ++ pending.map Prepared.store)
  lesser : ∀ (id : LineId) (original : SaleLine), s.line id = some original →
    original.taxAmount ≤ original.discountAmount →
    (account (returnedLines s ++ pending.map Prepared.store) id).qty < original.qty →
    (account (pending.map Prepared.store) id).tax ≤ (account (pending.map Prepared.store) id).discount
  positive : ∀ item ∈ pending, 0 < item.qty
  qty : ∀ item ∈ pending, item.store.qty = item.qty
  refund : ∀ item ∈ pending, item.store.refund = item.refund
  linked : ∀ item ∈ pending, ∃ id, item.saleLineId = some id ∧ (s.line id).isSome

theorem prepareLinked_ok (prepared : prepareLinked s pending request id original = .ok item) :
    (alreadyReturnedAmounts s id).qty + tally Prepared.saleLineId Prepared.qty (some id) pending + request.qty ≤
        original.qty ∧
      ∃ amounts, amounts = computeReturnLineAmounts request.qty original
          { alreadyReturnedAmounts s id with
            qty := (alreadyReturnedAmounts s id).qty +
              tally Prepared.saleLineId Prepared.qty (some id) pending } ∧
        item = ⟨request,original.unitPrice,amounts.1,amounts.2⟩ := by
  unfold prepareLinked at prepared
  dsimp only at prepared
  split at prepared
  · cases prepared
  · split at prepared
    · cases prepared
    · split at prepared
      · cases prepared
      case isFalse enough =>
        exact ⟨by linarith,_,rfl,(Except.ok.inj prepared).symm⟩

theorem requestedQty_map (id : LineId) (pending : List Prepared) :
    requestedQty id (pending.map Prepared.request) = tally Prepared.saleLineId Prepared.qty (some id) pending :=
  tally_map Prepared.request pending

theorem Progress.inRequest (progress : Progress s pending) (id : LineId) :
    (account (pending.map Prepared.store) id).qty = tally Prepared.saleLineId Prepared.qty (some id) pending := by
  have moved : (account (pending.map Prepared.store) id).qty =
      tally Prepared.saleLineId (fun item => item.store.qty) (some id) pending := tally_map Prepared.store pending
  exact moved.trans (tally_congr progress.qty)

theorem Progress.taken (progress : Progress s pending) (id : LineId) :
    (account (returnedLines s ++ pending.map Prepared.store) id).qty =
      (alreadyReturnedAmounts s id).qty + tally Prepared.saleLineId Prepared.qty (some id) pending := by
  rw [account_append,progress.inRequest]
  rfl

theorem amounts_scaled {returned : ReturnedAmounts} (discount : returned.discount ∈ Decimal.grid 2)
    (tax : returned.tax ∈ Decimal.grid 2) (qty : ℚ) :
    (computeReturnLineAmounts qty original returned).1 ∈ Decimal.grid 2 ∧
      (computeReturnLineAmounts qty original returned).2 ∈ Decimal.grid 2 := by
  have part : ∀ amount : ℚ, share amount qty original.qty ∈ Decimal.grid 2 := by
    intro amount
    unfold share
    split
    · exact zero_mem _
    · exact round2_mem _
  have rest : ∀ q ∈ Decimal.grid 2, max q 0 ∈ Decimal.grid 2 := by
    intro q inside
    rcases max_choice q 0 with same | same <;> rw [same]
    · exact inside
    · exact zero_mem _
  unfold computeReturnLineAmounts
  split
  · exact ⟨rest _ (sub_mem original.discountScaled discount),rest _ (sub_mem original.taxScaled tax)⟩
  · exact ⟨part _,part _⟩

/-- A checked line as it is stored. -/
structure Stored (original : SaleLine) (request : ReturnLineRequest) (amounts : ℚ × ℚ) (row : ReturnLine) : Prop where
  qty : row.qty = request.qty
  price : row.unitPrice = original.unitPrice
  discount : row.discountAmount = amounts.1
  tax : row.taxAmount = amounts.2

theorem store_eq {amounts : ℚ × ℚ} (qty : request.qty ∈ Decimal.grid 4)
    (scaled : amounts.1 ∈ Decimal.grid 2 ∧ amounts.2 ∈ Decimal.grid 2) :
    Stored original request amounts (Prepared.store ⟨request,original.unitPrice,amounts.1,amounts.2⟩) where
  qty := Decimal.quantize_of_mem_grid qty
  price := Decimal.quantize_of_mem_grid original.priceScaled
  discount := Decimal.quantize_of_mem_grid scaled.1
  tax := Decimal.quantize_of_mem_grid scaled.2

theorem Fair.tax_le (fair : Fair line a) (less : a.qty < line.qty) (positive : 0 ≤ line.taxAmount) :
    a.tax ≤ line.taxAmount := by
  have part := fair.tax less
  have whole : line.taxAmount * a.qty / line.qty ≤ line.taxAmount := by
    rw [div_le_iff₀ line.qtyPositive]
    exact mul_le_mul_of_nonneg_left less.le positive
  exact part.trans whole

theorem share_eq (amount qty : ℚ) : share amount qty line.qty = round2 (amount * qty / line.qty) :=
  if_neg line.qtyPositive.not_ge

theorem share_le {q r qty : ℚ} (le : q ≤ r) (positive : 0 ≤ qty) : share q qty line.qty ≤ share r qty line.qty := by
  rw [share_eq,share_eq]
  have scaled := div_le_div_of_nonneg_right (mul_le_mul_of_nonneg_right le positive) line.qtyPositive.le
  exact Decimal.quantize_mono scaled

variable {row : ReturnLine} {amounts : ℚ × ℚ} {returned : ReturnedAmounts}

theorem Fair.leaves (fair : Fair original a) (stored : Stored original request amounts row)
    (computed : amounts = computeReturnLineAmounts request.qty original returned) (same : returned.qty = a.qty)
    (positive : 0 < request.qty) (leaves : ¬original.qty ≤ a.qty + request.qty)
    (against : original.roundsAgainst request.qty = false) : Fair original (a.add row) := by
  rw [computeReturnLineAmounts,same,if_neg leaves,share_eq,share_eq] at computed
  rw [← stored.qty] at positive leaves against
  refine fair.part positive (not_le.mp leaves) stored.price ?_ ?_ against
  · rw [stored.discount,computed,stored.qty]
  · rw [stored.tax,computed,stored.qty]

theorem Fair.completes {b : Account} (fair : Fair original a) (onRecord : Fair original b)
    (stored : Stored original request amounts row) (scaled : amounts.1 ∈ Decimal.grid 2 ∧ amounts.2 ∈ Decimal.grid 2)
    (computed : amounts = computeReturnLineAmounts request.qty original ⟨a.qty,b.discount,b.tax⟩)
    (positive : 0 < request.qty) (all : a.qty + request.qty = original.qty) (before : b.qty ≤ a.qty)
    (taxed : 0 ≤ original.taxAmount) (lesser : a.tax - b.tax ≤ a.discount - b.discount) :
    Fair original (a.add row) := by
  rw [computeReturnLineAmounts,if_pos all.ge] at computed
  have less : b.qty < original.qty := by linarith
  have left : max (original.taxAmount - b.tax) 0 = original.taxAmount - b.tax :=
    max_eq_left (sub_nonneg.mpr (onRecord.tax_le less taxed))
  have right : original.discountAmount - b.discount ≤ max (original.discountAmount - b.discount) 0 := le_max_left _ _
  rw [← stored.qty] at positive all
  refine fair.complete positive all stored.price (stored.discount ▸ scaled.1) (stored.tax ▸ scaled.2) ?_
  rw [stored.tax,stored.discount,computed]
  dsimp only
  rw [left]
  linarith

/-- A checked line keeps its sale line's account fair. -/
theorem Progress.fairItem (base : FairLines s (returnedLines s)) (progress : Progress s pending)
    (found : s.line id = some original) (positive : 0 < request.qty)
    (borne : bears s (pending.map Prepared.request) request id original = true)
    (prepared : prepareLinked s pending request id original = .ok item) :
    item.request = request ∧ item.store.qty = item.qty ∧ item.store.refund = item.refund ∧
      Fair original ((account (returnedLines s ++ pending.map Prepared.store) id).add item.store) ∧
      ((account (returnedLines s ++ pending.map Prepared.store) id).qty + request.qty < original.qty →
        original.taxAmount ≤ original.discountAmount → item.store.taxAmount ≤ item.store.discountAmount) := by
  obtain ⟨enough,amounts,computed,rfl⟩ := prepareLinked_ok prepared
  have fair := progress.fair id original found
  have taken := progress.taken id
  have onRecord := base id original found
  simp only [bears,requestedQty_map,← taken,Bool.and_eq_true,decide_eq_true_eq] at borne enough computed
  obtain ⟨scaled,borne⟩ := borne
  have amountsScaled : amounts.1 ∈ Decimal.grid 2 ∧ amounts.2 ∈ Decimal.grid 2 :=
    computed ▸ amounts_scaled onRecord.discountScaled onRecord.taxScaled request.qty
  have stored : Stored original request amounts (Prepared.store ⟨request,original.unitPrice,amounts.1,amounts.2⟩) :=
    store_eq scaled amountsScaled
  have refund : ReturnLine.refund (Prepared.store ⟨request,original.unitPrice,amounts.1,amounts.2⟩) =
      Prepared.refund ⟨request,original.unitPrice,amounts.1,amounts.2⟩ := by
    rw [ReturnLine.refund,stored.qty,stored.price,stored.discount,stored.tax]
    rfl
  refine ⟨rfl,stored.qty,refund,?_,fun leaves less => ?_⟩
  · split at borne
    case isTrue last =>
      simp only [Bool.and_eq_true,Bool.or_eq_true,decide_eq_true_eq,List.all_eq_true] at borne
      obtain ⟨taxed,alone⟩ := borne
      refine fair.completes onRecord stored amountsScaled computed positive (le_antisymm enough last) ?_ taxed ?_
      · rw [taken]
        exact le_add_of_nonneg_right (tally_nonneg fun item member => (progress.positive item member).le)
      · rw [account_append]
        dsimp only
        rw [add_sub_cancel_left,add_sub_cancel_left]
        rcases alone with alone | less
        · have none : account (pending.map Prepared.store) id = ⟨0,0,0,0⟩ := by
            refine account_eq_zero fun line member => ?_
            obtain ⟨item,inside,rfl⟩ := List.mem_map.mp member
            exact alone _ (List.mem_map_of_mem inside)
          rw [none]
        · exact progress.lesser id original found less (by linarith)
    case isFalse leaves =>
      rw [Bool.not_eq_true'] at borne
      exact fair.leaves stored computed rfl positive leaves borne
  · rw [stored.tax,stored.discount,computed,computeReturnLineAmounts,if_neg leaves.not_ge]
    exact share_le less positive.le

theorem Progress.nil (base : FairLines s (returnedLines s)) : Progress s [] where
  fair := by simpa using base
  lesser := by
    intro id original found less leaves
    rw [List.map_nil,account_nil]
  positive _ member := absurd member List.not_mem_nil
  qty _ member := absurd member List.not_mem_nil
  refund _ member := absurd member List.not_mem_nil
  linked _ member := absurd member List.not_mem_nil

theorem Progress.snoc (base : FairLines s (returnedLines s)) (progress : Progress s pending)
    (found : s.line id = some original) (positive : 0 < request.qty) (named : request.saleLineId = some id)
    (borne : bears s (pending.map Prepared.request) request id original = true)
    (prepared : prepareLinked s pending request id original = .ok item) : Progress s (pending ++ [item]) := by
  obtain ⟨same,qty,refund,fair,lesser⟩ := progress.fairItem base found positive borne prepared
  have key : item.store.saleLineId = some id := (congrArg ReturnLineRequest.saleLineId same).trans named
  have amount : item.qty = request.qty := congrArg ReturnLineRequest.qty same
  constructor
  case fair =>
    intro other line foundOther
    rw [List.map_append,List.map_singleton,← List.append_assoc]
    by_cases equal : other = id
    · subst equal
      cases found.symm.trans foundOther
      rw [account_snoc_of_eq key]
      exact fair
    · rw [account_append_of_ne (by simpa [key] using Ne.symm equal)]
      exact progress.fair other line foundOther
  case lesser =>
    intro other line foundOther less leaves
    rw [List.map_append,List.map_singleton] at leaves ⊢
    rw [← List.append_assoc] at leaves
    by_cases equal : other = id
    · subst equal
      cases found.symm.trans foundOther
      rw [account_snoc_of_eq key] at leaves ⊢
      have left : (account (returnedLines s ++ pending.map Prepared.store) other).qty + request.qty < original.qty := by
        rw [← amount,← qty]
        exact leaves
      have before : (account (returnedLines s ++ pending.map Prepared.store) other).qty < original.qty := by linarith
      have earlier := progress.lesser other original found less before
      have added := lesser left less
      dsimp only [Account.add]
      exact add_le_add earlier added
    · rw [account_append_of_ne (by simpa [key] using Ne.symm equal)] at leaves ⊢
      exact progress.lesser other line foundOther less leaves
  case positive =>
    exact List.forall_mem_append.mpr ⟨progress.positive,List.forall_mem_singleton.mpr (amount ▸ positive)⟩
  case qty => exact List.forall_mem_append.mpr ⟨progress.qty,List.forall_mem_singleton.mpr qty⟩
  case refund => exact List.forall_mem_append.mpr ⟨progress.refund,List.forall_mem_singleton.mpr refund⟩
  case linked =>
    have known : (s.line id).isSome = true := found ▸ rfl
    exact List.forall_mem_append.mpr ⟨progress.linked,List.forall_mem_singleton.mpr ⟨id,key,known⟩⟩

theorem prepareLine_request (prepared : prepareLine s pending request = .ok item) : item.request = request := by
  unfold prepareLine at prepared
  split at prepared
  · cases prepared
    rfl
  · split at prepared
    · cases prepared
    · obtain ⟨-,_,-,rfl⟩ := prepareLinked_ok prepared
      rfl

theorem prepareLines_requests {lines : List ReturnLineRequest} {items : List Prepared}
    (prepared : prepareLines s pending lines = .ok items) :
    items.map Prepared.request = pending.map Prepared.request ++ lines := by
  induction lines generalizing pending with
  | nil =>
    cases prepared
    exact (List.append_nil _).symm
  | cons line rest induction =>
    obtain ⟨item,first,later⟩ := bind_ok_iff.mp prepared
    rw [induction later,List.map_append,List.map_singleton,prepareLine_request first,List.append_assoc,
      List.singleton_append]

theorem prepareLines_progress (base : FairLines s (returnedLines s)) {lines : List ReturnLineRequest}
    {items : List Prepared} (progress : Progress s pending) (positive : ∀ line ∈ lines, 0 < line.qty)
    (borne : bearsAll s (pending.map Prepared.request) lines = true)
    (prepared : prepareLines s pending lines = .ok items) : Progress s items := by
  induction lines generalizing pending with
  | nil =>
    cases prepared
    exact progress
  | cons line rest induction =>
    obtain ⟨item,first,later⟩ := bind_ok_iff.mp prepared
    have mapped : (pending ++ [item]).map Prepared.request = pending.map Prepared.request ++ [line] := by
      rw [List.map_append,List.map_singleton,prepareLine_request first]
    simp only [bearsAll,Bool.and_eq_true,Option.any_eq_true,Option.all_eq_true] at borne
    obtain ⟨⟨id,named,bears⟩,borne⟩ := borne
    simp only [prepareLine,named] at first
    cases found : s.line id with
    | none => simp [found] at first
    | some original =>
      rw [found] at first
      have next := progress.snoc base found (positive line List.mem_cons_self) named (bears original found) first
      exact induction next (fun other member => positive other (List.mem_cons_of_mem _ member)) (mapped ▸ borne) later

theorem resolveSale_ok {data : CreateSaleReturnRequest} {saleId : Option Nat}
    (resolved : resolveSale s data = .ok saleId) :
    saleId = data.saleId.or ((data.lines.filterMap ReturnLineRequest.saleLineId).head?.map LineId.saleId) ∧
      ∀ line ∈ data.lines, ∀ id, line.saleLineId = some id → (s.line id).isSome ∧ saleId = some id.saleId := by
  unfold resolveSale at resolved
  dsimp only at resolved
  split at resolved
  · cases resolved
  case isFalse known =>
    split at resolved
    · cases resolved
    case isFalse same =>
      cases resolved
      refine ⟨rfl,fun line member id named => ?_⟩
      have inside : id ∈ data.lines.filterMap ReturnLineRequest.saleLineId :=
        List.mem_filterMap.mpr ⟨line,member,named⟩
      simp only [List.any_eq_true,not_exists,not_and] at known same
      constructor
      · simpa [Option.isSome_iff_ne_none] using known id inside
      · have agrees : some id.saleId = data.saleId.or
            ((data.lines.filterMap ReturnLineRequest.saleLineId).head?.map LineId.saleId) := by
          simpa using same id inside
        exact agrees.symm

/-- What an accepted return is. -/
structure Accepted (s : State) (data : CreateSaleReturnRequest) (items : List Prepared) (r : SaleReturn) : Prop where
  valid : data.valid = true
  resolved : resolveSale s data = .ok r.saleId
  prepared : prepareLines s [] data.lines = .ok items
  lines : r.lines = items.map Prepared.store
  payments : r.payments = data.refundPayments.map storeRefund
  paidOut : total data.refundPayments ≤ (items.map Prepared.refund).sum
  complete : 0 < (items.map Prepared.refund).sum - cashOut data.refundPayments → r.customerId.isSome
  credited : r.creditedToAccount =
    storeCredit r.customerId ((items.map Prepared.refund).sum - cashOut data.refundPayments)

theorem createSaleReturn_ok {data : CreateSaleReturnRequest} {r : SaleReturn}
    (created : createSaleReturn s data = .ok r) : ∃ items, Accepted s data items r := by
  obtain ⟨_,valid,created⟩ := bind_ok_iff.mp created
  obtain ⟨saleId,resolved,created⟩ := bind_ok_iff.mp created
  obtain ⟨customerId,-,created⟩ := bind_ok_iff.mp created
  obtain ⟨items,prepared,created⟩ := bind_ok_iff.mp created
  obtain ⟨_,paidOut,created⟩ := bind_ok_iff.mp created
  obtain ⟨_,complete,created⟩ := bind_ok_iff.mp created
  obtain ⟨_,-,created⟩ := bind_ok_iff.mp created
  cases created
  refine ⟨items,require_ok.mp valid,resolved,prepared,rfl,rfl,by simpa using require_ok.mp paidOut,fun owed => ?_,rfl⟩
  have covered := require_ok.mp complete
  simp only [Bool.or_eq_true,decide_eq_true_eq] at covered
  exact covered.resolve_left owed.not_ge

theorem cashOut_le {payments : List Payment} (positive : ∀ payment ∈ payments, 0 < payment.amount) :
    cashOut payments ≤ total payments := by
  induction payments with
  | nil => exact le_rfl
  | cons payment rest induction =>
    have later := induction fun other member => positive other (List.mem_cons_of_mem _ member)
    have here := positive payment List.mem_cons_self
    unfold cashOut total at later ⊢
    rw [List.filter_cons,List.map_cons,List.sum_cons]
    split
    · rw [List.map_cons,List.sum_cons]
      exact add_le_add_right later _
    · exact later.trans (le_add_of_nonneg_left here.le)

theorem map_storeRefund {payments : List Payment} (scaled : ∀ payment ∈ payments, payment.amount ∈ Decimal.grid 2) :
    payments.map storeRefund = payments := by
  refine (List.map_congr_left fun payment member => ?_).trans (List.map_id _)
  simp only [storeRefund,Decimal.quantize_of_mem_grid (scaled payment member),id]

theorem cashOut_mem {payments : List Payment} (scaled : ∀ payment ∈ payments, payment.amount ∈ Decimal.grid 2) :
    cashOut payments ∈ Decimal.grid 2 := by
  refine list_sum_mem fun amount member => ?_
  obtain ⟨payment,inside,rfl⟩ := List.mem_map.mp member
  exact scaled payment (List.mem_of_mem_filter inside)

theorem Accepted.refundValue {data : CreateSaleReturnRequest} {items : List Prepared} {r : SaleReturn}
    (accepted : Accepted s data items r) (scaled : ∀ payment ∈ data.refundPayments, payment.amount ∈ Decimal.grid 2) :
    r.refundValue = (items.map Prepared.refund).sum := by
  have positive : ∀ payment ∈ data.refundPayments, 0 < payment.amount := by
    have valid := accepted.valid
    simp only [CreateSaleReturnRequest.valid,Bool.and_eq_true,List.all_eq_true,decide_eq_true_eq] at valid
    exact valid.2
  have inside : (items.map Prepared.refund).sum - cashOut data.refundPayments ∈ Decimal.grid 2 := by
    refine sub_mem (list_sum_mem fun refund member => ?_) (cashOut_mem scaled)
    obtain ⟨item,-,rfl⟩ := List.mem_map.mp member
    exact round2_mem _
  rw [SaleReturn.refundValue,accepted.credited,accepted.payments,map_storeRefund scaled]
  rcases (sub_nonneg.mpr ((cashOut_le positive).trans accepted.paidOut)).eq_or_lt with none | owed
  · rw [← none,storeCredit,if_neg (by simp)]
    linarith
  · rw [storeCredit,if_pos (Bool.and_eq_true_iff.mpr ⟨accepted.complete owed,decide_eq_true owed⟩),Decimal.quantize_of_mem_grid inside]
    exact add_sub_cancel _ _

structure Invariant (s : State) : Prop where
  fair : FairLines s (returnedLines s)
  named : ∀ r ∈ s.returns, ∀ saleId, r.saleId = some saleId → saleId < s.sales.length
  linked : ∀ line ∈ returnedLines s, ∀ id, line.saleLineId = some id → id.saleId < s.sales.length
  balance : ∀ (saleId : Nat) (sale : Sale), s.sales[saleId]? = some sale →
    s.refunded saleId = ∑ index : Fin sale.lines.length, (account (returnedLines s) ⟨saleId,index⟩).refund
  covered : Covered s

theorem sum_accounts {lines : List ReturnLine} {saleId size : Nat}
    (own : ∀ line ∈ lines, ∃ index : Fin size, line.saleLineId = some ⟨saleId,index⟩) :
    ∑ index : Fin size, (account lines ⟨saleId,index⟩).refund = (lines.map ReturnLine.refund).sum := by
  have injective : Function.Injective fun index : Fin size => some (LineId.mk saleId index) := by
    intro first second same
    simpa [Fin.ext_iff] using same
  have covered : ∀ line ∈ lines, line.saleLineId ∈
      Finset.univ.image fun index : Fin size => some (LineId.mk saleId index) := by
    intro line member
    obtain ⟨index,same⟩ := own line member
    exact Finset.mem_image.mpr ⟨index,Finset.mem_univ _,same.symm⟩
  have total : _ = (lines.map ReturnLine.refund).sum := sum_tally covered
  rw [Finset.sum_image injective.injOn] at total
  exact total

theorem Sale.paid_nonneg (sale : Sale) : 0 ≤ sale.paid := by
  refine List.sum_nonneg fun amount member => ?_
  obtain ⟨payment,-,rfl⟩ := List.mem_map.mp member
  exact payment.positive.le

theorem Invariant.initial (start : Initial s) : Invariant s := by
  have none : returnedLines s = [] := by rw [returnedLines,start,List.flatMap_nil]
  have nothing : ∀ saleId, s.refunded saleId = 0 := by
    intro saleId
    rw [State.refunded,start,tally_nil]
  constructor
  case fair =>
    intro id original _
    rw [none,account_nil]
    exact Fair.zero
  case named =>
    intro r member
    rw [start] at member
    cases member
  case linked =>
    intro line member
    rw [none] at member
    cases member
  case balance =>
    intro saleId sale _
    simp [nothing,none,account_nil]
  case covered =>
    intro saleId sale _
    rw [nothing]
    exact sale.paid_nonneg

theorem Invariant.createSale (invariant : Invariant s) (sale : Sale) :
    Invariant { s with sales := s.sales ++ [sale] } := by
  have foundIn : ∀ {saleId : Nat} {other : Sale}, (s.sales ++ [sale])[saleId]? = some other →
      s.sales[saleId]? = some other ∨ saleId = s.sales.length := by
    intro saleId other found
    by_cases inside : saleId < s.sales.length
    · rw [List.getElem?_append_left inside] at found
      exact .inl found
    · have bound := (List.getElem?_eq_some_iff.mp found).1
      rw [List.length_append,List.length_singleton] at bound
      exact .inr (by omega)
  have fresh : ∀ index, account (returnedLines s) ⟨s.sales.length,index⟩ = ⟨0,0,0,0⟩ := by
    intro index
    refine account_eq_zero fun line member same => ?_
    exact absurd (invariant.linked line member _ same) (lt_irrefl _)
  have nothing : s.refunded s.sales.length = 0 := by
    refine tally_eq_zero fun r member same => ?_
    exact absurd (invariant.named r member _ same) (lt_irrefl _)
  constructor
  case fair =>
    intro id original found
    obtain ⟨other,inside,at_⟩ := Option.bind_eq_some_iff.mp found
    rcases foundIn inside with old | new
    · exact invariant.fair id original (by rw [State.line,old]; exact at_)
    · obtain ⟨saleId,index⟩ := id
      cases new
      exact (fresh index).symm ▸ Fair.zero
  case named =>
    intro r member saleId same
    exact (invariant.named r member saleId same).trans_le (by simp)
  case linked =>
    intro line member id same
    exact (invariant.linked line member id same).trans_le (by simp)
  case balance =>
    intro saleId other found
    rcases foundIn found with old | new
    · exact invariant.balance saleId other old
    · cases new
      change s.refunded s.sales.length = ∑ index : Fin other.lines.length, (account (returnedLines s) _).refund
      simp [nothing,fresh]
  case covered =>
    intro saleId other found
    rcases foundIn found with old | new
    · exact invariant.covered saleId other old
    · cases new
      exact nothing.trans_le other.paid_nonneg

theorem returnedLines_snoc (r : SaleReturn) :
    returnedLines { s with returns := s.returns ++ [r] } = returnedLines s ++ r.lines := by
  simp [returnedLines]

theorem refunded_snoc (r : SaleReturn) (saleId : Nat) :
    State.refunded { s with returns := s.returns ++ [r] } saleId =
      s.refunded saleId + if r.saleId = some saleId then r.refundValue else 0 := by
  rw [State.refunded,tally_append,tally_singleton]
  rfl

/-- A return of no sale. -/
theorem Invariant.unlinked (invariant : Invariant s) {r : SaleReturn} (free : r.saleId = none)
    (lines : ∀ line ∈ r.lines, line.saleLineId = none) : Invariant { s with returns := s.returns ++ [r] } := by
  have same : ∀ id, account (returnedLines s ++ r.lines) id = account (returnedLines s) id := by
    intro id
    refine account_append_of_ne fun line member linked => ?_
    rw [lines line member] at linked
    cases linked
  have kept : ∀ saleId, State.refunded { s with returns := s.returns ++ [r] } saleId = s.refunded saleId := by
    intro saleId
    rw [refunded_snoc,free,if_neg (Option.some_ne_none _).symm,add_zero]
  constructor
  case fair =>
    intro id original found
    rw [returnedLines_snoc,same]
    exact invariant.fair id original found
  case named =>
    refine List.forall_mem_append.mpr ⟨invariant.named,List.forall_mem_singleton.mpr fun saleId named => ?_⟩
    rw [free] at named
    cases named
  case linked =>
    rw [returnedLines_snoc]
    refine List.forall_mem_append.mpr ⟨invariant.linked,fun line member id linked => ?_⟩
    rw [lines line member] at linked
    cases linked
  case balance =>
    intro saleId sale found
    rw [kept,returnedLines_snoc,invariant.balance saleId sale found]
    simp only [same]
  case covered =>
    intro saleId sale found
    rw [kept]
    exact invariant.covered saleId sale found

variable {r : SaleReturn} {saleId : Nat} {sale : Sale}

/-- A return of a sale's own lines. -/
theorem Invariant.linkedTo (invariant : Invariant s) (found : s.sales[saleId]? = some sale)
    (names : r.saleId = some saleId)
    (own : ∀ line ∈ r.lines, ∃ index : Fin sale.lines.length, line.saleLineId = some ⟨saleId,index⟩)
    (fair : FairLines s (returnedLines s ++ r.lines)) (value : r.refundValue = (r.lines.map ReturnLine.refund).sum)
    (covers : ∑ index : Fin sale.lines.length,
      (sale.lines.get index).worth (account (returnedLines s ++ r.lines) ⟨saleId,index⟩).qty ≤ sale.paid) :
    Invariant { s with returns := s.returns ++ [r] } := by
  have bound : saleId < s.sales.length := (List.getElem?_eq_some_iff.mp found).1
  have balance : s.refunded saleId + r.refundValue =
      ∑ index : Fin sale.lines.length, (account (returnedLines s ++ r.lines) ⟨saleId,index⟩).refund := by
    simp only [account_append]
    rw [Finset.sum_add_distrib,sum_accounts own,← invariant.balance saleId sale found,value]
  have total : State.refunded { s with returns := s.returns ++ [r] } saleId = s.refunded saleId + r.refundValue := by
    rw [refunded_snoc,if_pos names]
  have elsewhere : ∀ other, other ≠ saleId → ∀ index,
      account (returnedLines s ++ r.lines) ⟨other,index⟩ = account (returnedLines s) ⟨other,index⟩ := by
    intro other ne index
    refine account_append_of_ne fun line member linked => ?_
    obtain ⟨_,same⟩ := own line member
    rw [same] at linked
    cases linked
    exact ne rfl
  have kept : ∀ other, other ≠ saleId → State.refunded { s with returns := s.returns ++ [r] } other = s.refunded other := by
    intro other ne
    rw [refunded_snoc,names,if_neg (by simpa using ne.symm),add_zero]
  constructor
  case fair =>
    rw [returnedLines_snoc]
    exact fair
  case named =>
    refine List.forall_mem_append.mpr ⟨invariant.named,List.forall_mem_singleton.mpr fun other named => ?_⟩
    cases names.symm.trans named
    exact bound
  case linked =>
    rw [returnedLines_snoc]
    refine List.forall_mem_append.mpr ⟨invariant.linked,fun line member id linked => ?_⟩
    obtain ⟨_,same⟩ := own line member
    cases same.symm.trans linked
    exact bound
  case balance =>
    intro other sale' found'
    rw [returnedLines_snoc]
    by_cases equal : other = saleId
    · subst equal
      cases found.symm.trans found'
      exact total.trans balance
    · rw [kept other equal,invariant.balance other sale' found']
      simp only [elsewhere other equal]
  case covered =>
    intro other sale' found'
    by_cases equal : other = saleId
    · subst equal
      cases found.symm.trans found'
      rw [total,balance]
      refine le_trans (Finset.sum_le_sum fun index _ => ?_) covers
      have line : s.line ⟨other,index⟩ = some sale.lines[index] := by
        simp [State.line,found]
      exact (fair _ _ line).le_worth
    · rw [kept other equal]
      exact invariant.covered other sale' found'

theorem line_found (known : (s.line id).isSome) :
    ∃ sale, s.sales[id.saleId]? = some sale ∧ id.index < sale.lines.length := by
  obtain ⟨original,found⟩ := Option.isSome_iff_exists.mp known
  obtain ⟨sale,stored,inside⟩ := Option.bind_eq_some_iff.mp found
  exact ⟨sale,stored,(List.getElem?_eq_some_iff.mp inside).1⟩

variable {data : CreateSaleReturnRequest} {items : List Prepared}

theorem Accepted.positive (accepted : Accepted s data items r) :
    data.lines ≠ [] ∧ ∀ line ∈ data.lines, 0 < line.qty := by
  have valid := accepted.valid
  simp only [CreateSaleReturnRequest.valid,Bool.and_eq_true,List.all_eq_true,decide_eq_true_eq] at valid
  refine ⟨valid.1.1,fun line member => ?_⟩
  have checked := valid.1.2 line member
  simp only [ReturnLineRequest.valid,Bool.and_eq_true,decide_eq_true_eq] at checked
  exact checked.1.1.1

theorem Accepted.requests (accepted : Accepted s data items r) : items.map Prepared.request = data.lines :=
  prepareLines_requests accepted.prepared

theorem Invariant.returnOfNone (invariant : Invariant s) (accepted : Accepted s data items r)
    (free : data.saleId = none) (unlinked : ∀ line ∈ data.lines, line.saleLineId = none) :
    Invariant { s with returns := s.returns ++ [r] } := by
  have none : data.lines.filterMap ReturnLineRequest.saleLineId = [] := List.filterMap_eq_nil_iff.mpr unlinked
  have saleId := (resolveSale_ok accepted.resolved).1
  rw [free,none] at saleId
  refine invariant.unlinked saleId fun line member => ?_
  rw [accepted.lines] at member
  obtain ⟨item,inside,rfl⟩ := List.mem_map.mp member
  exact unlinked _ (accepted.requests ▸ List.mem_map_of_mem inside)

theorem Invariant.returnOfSale (invariant : Invariant s) (accepted : Accepted s data items r)
    (borne : bearsAll s [] data.lines = true)
    (scaled : ∀ payment ∈ data.refundPayments, payment.amount ∈ Decimal.grid 2)
    (weighed : ∀ (saleId : Nat) (sale : Sale), s.sales[saleId]? = some sale →
      (∃ line ∈ data.lines, ∃ id, line.saleLineId = some id ∧ id.saleId = saleId) →
      outweighs s data.lines saleId sale = false) :
    Invariant { s with returns := s.returns ++ [r] } := by
  obtain ⟨nonempty,positive⟩ := accepted.positive
  have progress := prepareLines_progress invariant.fair (Progress.nil invariant.fair) positive borne accepted.prepared
  have resolved := (resolveSale_ok accepted.resolved).2
  have own : ∀ item ∈ items, ∃ id, item.saleLineId = some id ∧ (s.line id).isSome ∧ r.saleId = some id.saleId := by
    intro item member
    obtain ⟨id,named,known⟩ := progress.linked item member
    exact ⟨id,named,known,(resolved _ (accepted.requests ▸ List.mem_map_of_mem member) id named).2⟩
  obtain ⟨first,member⟩ : ∃ item, item ∈ items := by
    refine List.exists_mem_of_ne_nil _ fun none => nonempty ?_
    rw [← accepted.requests,none,List.map_nil]
  obtain ⟨id,named,known,saleId⟩ := own first member
  obtain ⟨sale,found,-⟩ := line_found known
  have weighs : outweighs s data.lines id.saleId sale = false :=
    weighed id.saleId sale found ⟨first.request,accepted.requests ▸ List.mem_map_of_mem member,id,named,rfl⟩
  refine invariant.linkedTo found saleId ?own ?fair ?value ?covers
  case own =>
    intro line inside
    rw [accepted.lines] at inside
    obtain ⟨item,listed,rfl⟩ := List.mem_map.mp inside
    obtain ⟨⟨other,index⟩,linked,known,same⟩ := own item listed
    cases saleId.symm.trans same
    obtain ⟨sale',found',bound⟩ := line_found known
    cases found.symm.trans found'
    exact ⟨⟨index,bound⟩,linked⟩
  case fair => exact accepted.lines ▸ progress.fair
  case value =>
    rw [accepted.refundValue scaled,accepted.lines,List.map_map]
    exact congrArg List.sum (List.map_congr_left fun item inside => (progress.refund item inside).symm)
  case covers =>
    simp only [outweighs,decide_eq_false_iff_not,not_lt] at weighs
    refine le_of_eq_of_le (Finset.sum_congr rfl fun index _ => ?_) weighs
    rw [accepted.lines,progress.taken,← requestedQty_map,accepted.requests,List.get_eq_getElem]
    rfl

theorem Invariant.next {action : Action} (invariant : Invariant s) (allowed : sound s action = true)
    (taken : next s action = some t) : Invariant t := by
  cases action with
  | createSale data =>
    obtain ⟨sale,-,rfl⟩ := Option.map_eq_some_iff.mp taken
    exact invariant.createSale sale
  | createSaleReturn data =>
    obtain ⟨r,created,rfl⟩ := Option.map_eq_some_iff.mp taken
    obtain ⟨items,accepted⟩ := createSaleReturn_ok (toOption_eq_some.mp created)
    simp only [sound,Bool.or_eq_true,Bool.and_eq_true,List.all_eq_true,decide_eq_true_eq,Option.isNone_iff_eq_none]
      at allowed
    rcases allowed with ⟨free,unlinked⟩ | ⟨⟨borne,scaled⟩,weighed⟩
    · exact invariant.returnOfNone accepted free unlinked
    · refine invariant.returnOfSale accepted borne scaled fun saleId sale found ⟨line,member,id,linked,same⟩ => ?_
      have listed : (sale,saleId) ∈ s.sales.zipIdx := List.mem_zipIdx_iff_getElem?.mpr found
      rcases weighed _ listed with elsewhere | light
      · have ne := elsewhere line member
        rw [linked] at ne
        simp [same] at ne
      · simpa using light

theorem worth_le_lineTotal {qty : ℚ} (price : 0 ≤ line.qty * line.unitPrice - line.discountAmount + line.taxAmount) :
    line.worth qty ≤ line.lineTotal := by
  unfold SaleLine.worth
  split
  case isTrue less =>
    rw [lineTotal_eq]
    refine Decimal.truncate_le_halfUp ?_
    rw [div_le_iff₀ line.qtyPositive]
    exact mul_le_mul_of_nonneg_left less.le price
  case isFalse => exact le_rfl

/-- No return outweighs a sale paid in full, unless a discount took a line below zero. -/
theorem outweighs_of_paid {lines : List ReturnLineRequest} (full : (sale.lines.map SaleLine.lineTotal).sum ≤ sale.paid)
    (prices : ∀ line ∈ sale.lines, 0 ≤ line.qty * line.unitPrice - line.discountAmount + line.taxAmount) :
    outweighs s lines saleId sale = false := by
  simp only [outweighs,decide_eq_false_iff_not,not_lt]
  refine le_trans (Finset.sum_le_sum fun index _ => worth_le_lineTotal (prices _ (List.getElem_mem index.isLt))) ?_
  exact (Fin.sum_univ_fun_getElem sale.lines SaleLine.lineTotal).trans_le full

private def sell (paid : ℚ) : Action := .createSale ⟨1,none,[⟨1,none,2,100,0,0,10⟩],[⟨.cash,paid⟩]⟩

private def giveBack (quantities : List ℚ) (amount : ℚ) : Action :=
  .createSaleReturn ⟨1,none,none,quantities.map fun qty => ⟨some ⟨0,0⟩,none,none,qty,none,none⟩,[⟨.cash,amount⟩]⟩

private theorem nothing_sold : Initial ⟨[],[]⟩ := rfl

private def money (s : State) : ℚ × Option ℚ := (s.refunded 0,s.sales.head?.map Sale.paid)

private theorem not_covered {refund paid : ℚ} (view : money s = (refund,some paid)) (more : paid < refund) : ¬Covered s := by
  intro covered
  obtain ⟨sale,first,same⟩ := Option.map_eq_some_iff.mp (congrArg Prod.snd view)
  have refunded : s.refunded 0 = refund := congrArg Prod.fst view
  have bound := covered 0 sale (List.head?_eq_getElem?.symm.trans first)
  rw [refunded,same] at bound
  exact absurd more bound.not_gt

end Refunds
