import SasBackend.Discounts
import SasBackend.Semantics.Billing
import SasBackend.Settling

/-! What the lines of a sale and the sale itself cost, within the bounds a price should keep.
-/
namespace Pricing

/-- What one line costs at a counter. -/
structure Priced (amounts : LineAmounts) : Prop where
  subtotalScaled : amounts.lineSubtotal ∈ Decimal.grid 2
  discountScaled : amounts.effectiveDiscount ∈ Decimal.grid 2
  taxScaled : amounts.taxAmount ∈ Decimal.grid 2
  taxable : amounts.taxableAmount = amounts.lineSubtotal - amounts.effectiveDiscount
  total : amounts.lineTotal = amounts.lineSubtotal - amounts.effectiveDiscount + amounts.taxAmount

theorem round2_scaled (value : ℚ) : round2 value ∈ Decimal.grid 2 := Decimal.quantize_mem_grid 2 value

theorem round2_of_scaled {value : ℚ} (scaled : value ∈ Decimal.grid 2) : round2 value = value :=
  Decimal.quantize_of_mem_grid scaled

theorem priced (qty unitPrice discountPct discountAmount taxRate : ℚ) :
    Priced (calculateLineTotal qty unitPrice discountPct discountAmount taxRate) := by
  have taxable : round2 (round2 (qty * unitPrice) - round2 (max discountAmount (round2 (round2 (qty * unitPrice) * discountPct / 100)))) =
      round2 (qty * unitPrice) - round2 (max discountAmount (round2 (round2 (qty * unitPrice) * discountPct / 100))) :=
    round2_of_scaled (sub_mem (round2_scaled _) (round2_scaled _))
  refine ⟨round2_scaled _,round2_scaled _,round2_scaled _,taxable,?_⟩
  simp only [calculateLineTotal]
  rw [round2_of_scaled (add_mem (round2_scaled _) (round2_scaled _)),taxable]

theorem calculateSaleTotals_sum {lines : List LineAmounts} (all : ∀ amounts ∈ lines, Priced amounts) :
    (calculateSaleTotals lines).totalAmount = (lines.map LineAmounts.lineTotal).sum := by
  have scaled (field : LineAmounts → ℚ) (each : ∀ amounts ∈ lines, field amounts ∈ Decimal.grid 2) :
      (lines.map field).sum ∈ Decimal.grid 2 := by
    apply list_sum_mem
    intro value member
    obtain ⟨amounts,inside,rfl⟩ := List.mem_map.mp member
    exact each amounts inside
  have subtotal := scaled LineAmounts.lineSubtotal fun amounts member => (all amounts member).subtotalScaled
  have discount := scaled LineAmounts.effectiveDiscount fun amounts member => (all amounts member).discountScaled
  have tax := scaled LineAmounts.taxAmount fun amounts member => (all amounts member).taxScaled
  have sum : (lines.map LineAmounts.lineTotal).sum = (lines.map LineAmounts.lineSubtotal).sum -
      (lines.map LineAmounts.effectiveDiscount).sum + (lines.map LineAmounts.taxAmount).sum := by
    rw [List.map_congr_left fun amounts member => (all amounts member).total,List.sum_map_add,Tally.sum_map_sub]
  simp only [calculateSaleTotals]
  rw [round2_of_scaled subtotal,round2_of_scaled discount,round2_of_scaled tax,
    round2_of_scaled (add_mem (sub_mem subtotal discount) tax),sum]

structure LineAmounts.Bounded (amounts : LineAmounts) : Prop where
  discountNonneg : 0 ≤ amounts.effectiveDiscount
  discountWithin : amounts.effectiveDiscount ≤ amounts.lineSubtotal
  tax : 0 ≤ amounts.taxAmount
  total : 0 ≤ amounts.lineTotal

section Line
variable {qty unitPrice discountPct discountAmount taxRate : ℚ}

/-- A line keeps its bounds where neither of its discounts exceeds its price. -/
theorem bounded_iff (sold : 0 < qty) (price : 0 ≤ unitPrice) (rate : 0 ≤ taxRate) (given : 0 ≤ discountAmount ∨ 0 ≤ discountPct) :
    (calculateLineTotal qty unitPrice discountPct discountAmount taxRate).Bounded ↔
      round2 discountAmount ≤ round2 (qty * unitPrice) ∧
        round2 (round2 (qty * unitPrice) * discountPct / 100) ≤ round2 (qty * unitPrice) := by
  have fields := priced qty unitPrice discountPct discountAmount taxRate
  have subtotal : 0 ≤ round2 (qty * unitPrice) := Decimal.quantize_nonneg (mul_nonneg sold.le price)
  have effective : (calculateLineTotal qty unitPrice discountPct discountAmount taxRate).effectiveDiscount =
      max (round2 discountAmount) (round2 (round2 (qty * unitPrice) * discountPct / 100)) := by
    have rounded := round2_of_scaled (round2_scaled (round2 (qty * unitPrice) * discountPct / 100))
    exact Decimal.quantize_max.trans (congrArg (max _) rounded)
  constructor
  · intro bounded
    exact max_le_iff.mp (effective.symm.trans_le bounded.discountWithin)
  · intro within
    have least : (calculateLineTotal qty unitPrice discountPct discountAmount taxRate).effectiveDiscount ≤
        (calculateLineTotal qty unitPrice discountPct discountAmount taxRate).lineSubtotal :=
      effective.trans_le (max_le within.1 within.2)
    have taxable : 0 ≤ (calculateLineTotal qty unitPrice discountPct discountAmount taxRate).taxableAmount := by
      rw [fields.taxable]
      exact sub_nonneg.mpr least
    have tax : 0 ≤ (calculateLineTotal qty unitPrice discountPct discountAmount taxRate).taxAmount :=
      Decimal.quantize_nonneg (div_nonneg (mul_nonneg taxable rate) (by norm_num))
    refine ⟨?_,least,tax,?_⟩
    · rw [effective]
      rcases given with amount | percentage
      · exact le_max_of_le_left (Decimal.quantize_nonneg amount)
      · exact le_max_of_le_right (Decimal.quantize_nonneg (div_nonneg (mul_nonneg subtotal percentage) (by norm_num)))
    · rw [fields.total]
      linarith

theorem percentage_within (sold : 0 < qty) (price : 0 ≤ unitPrice) (most : discountPct ≤ 100) :
    round2 (round2 (qty * unitPrice) * discountPct / 100) ≤ round2 (qty * unitPrice) := by
  have subtotal : 0 ≤ round2 (qty * unitPrice) := Decimal.quantize_nonneg (mul_nonneg sold.le price)
  have less : round2 (qty * unitPrice) * discountPct / 100 ≤ round2 (qty * unitPrice) := by
    rw [div_le_iff₀ (by norm_num)]
    exact mul_le_mul_of_nonneg_left most subtotal
  exact (Decimal.quantize_mono less).trans_eq (round2_of_scaled (round2_scaled _))

end Line

theorem determineSaleStatus_completed {totalAmount totalPaid : ℚ} (due : 0 ≤ totalAmount) (paid : 0 ≤ totalPaid) :
    determineSaleStatus totalAmount totalPaid = .completed ↔ totalAmount ≤ totalPaid := by
  unfold determineSaleStatus
  split_ifs with free unpaid less
  · simp [free,paid]
  · have owed : totalPaid < totalAmount := unpaid.trans_lt (lt_of_le_of_ne due (Ne.symm free))
    simp [owed]
  · simp [less]
  · simpa using less

end Pricing

namespace Billing
open SasBackend Pricing
open Discounts (DiscountScheme LineDiscount Granted hasManualDiscount)
open Outcome (require_ok)

variable {catalogue : Catalogue} {mayOverride : Bool} {data : CreateSaleRequest} {line : CreateSaleLineRequest}
  {pricing : PricePreview} {sale : Sale}

/-- The discount of a line stays within its price: a manual amount does, or the percentage of the scheme that is for it. -/
def CreateSaleLineRequest.discountFits (scheme : Option DiscountScheme) (categoryOf : Nat → Option Nat)
    (line : CreateSaleLineRequest) : Bool :=
  let subtotal := round2 (line.qty * line.unitPrice)
  if hasManualDiscount line.input then round2 line.discountAmount ≤ subtotal
  else scheme.all fun scheme => scheme.discountType ≠ .percentage || !Discounts.eligible scheme categoryOf line.input ||
    round2 (subtotal * scheme.discountValue / 100) ≤ subtotal

def CreateSaleRequest.scheme (catalogue : Catalogue) (data : CreateSaleRequest) : Option DiscountScheme :=
  data.discountSchemeId.bind catalogue.discountScheme

def CreateSaleRequest.discountsFit (catalogue : Catalogue) (data : CreateSaleRequest) : Bool :=
  data.lines.all (·.discountFits (data.scheme catalogue) catalogue.categoryOf)

structure PriceBounds (data : CreateSaleRequest) (pricing : PricePreview) (sale : Sale) : Prop where
  lines : ∀ amounts ∈ pricing.lines, amounts.Bounded
  total : sale.totalAmount = (pricing.lines.map LineAmounts.lineTotal).sum
  nonneg : 0 ≤ sale.totalAmount
  completed : sale.status = .completed ↔ sale.totalAmount ≤ Settling.total data.payments

/-- What the scheme of the request, if it names one, gives to a line. -/
def Offered (catalogue : Catalogue) (data : CreateSaleRequest) (line : CreateSaleLineRequest) :
    Option LineDiscount → Prop
  | none => data.scheme catalogue = none
  | some discount => ∃ scheme, data.scheme catalogue = some scheme ∧ Granted scheme catalogue.categoryOf line.input discount

theorem resolveLineTaxRate_nonneg (valid : line.valid) : 0 ≤ resolveLineTaxRate catalogue mayOverride line := by
  have product : 0 ≤ (((catalogue.product line.productId).bind Product.taxRate).map TaxRate.rate).getD 0 := by
    cases (catalogue.product line.productId).bind Product.taxRate with
    | none => simp
    | some taxRate => exact taxRate.nonneg
  simp only [CreateSaleLineRequest.valid,Bool.and_eq_true,decide_eq_true_eq] at valid
  have requested := valid.2
  unfold resolveLineTaxRate
  split
  · next rate asked =>
    rw [asked] at requested
    simp only [Option.all_some,Bool.and_eq_true,decide_eq_true_eq] at requested
    exact requested.1
  · exact product

theorem priceLine_bounded_iff (valid : line.valid) {schemeInputs : Option LineDiscount} (offered : Offered catalogue data line schemeInputs) :
    (priceLine catalogue mayOverride schemeInputs line).Bounded ↔
      line.discountFits (data.scheme catalogue) catalogue.categoryOf := by
  have rate : 0 ≤ resolveLineTaxRate catalogue mayOverride line := resolveLineTaxRate_nonneg valid
  simp only [CreateSaleLineRequest.valid,Bool.and_eq_true,decide_eq_true_eq] at valid
  obtain ⟨⟨⟨⟨⟨sold,price⟩,percentage⟩,most⟩,amount⟩,-⟩ := valid
  have subtotal : 0 ≤ round2 (line.qty * line.unitPrice) := Decimal.quantize_nonneg (mul_nonneg sold.le price)
  have zero : round2 0 = 0 := round2_of_scaled (zero_mem _)
  unfold priceLine CreateSaleLineRequest.discountFits mergeLineDiscountInputs
  by_cases manual : hasManualDiscount line.input
  · simp only [if_pos manual,decide_eq_true_eq]
    rw [bounded_iff sold price rate (.inl amount)]
    exact and_iff_left (percentage_within sold price most)
  · simp only [if_neg manual]
    cases schemeInputs with
    | none =>
      have unpriced : data.scheme catalogue = none := offered
      have nothing : line.discountPct = 0 ∧ line.discountAmount = 0 := by
        have least : line.discountPct ≤ 0 ∧ line.discountAmount ≤ 0 := by
          simpa [hasManualDiscount,CreateSaleLineRequest.input] using manual
        exact ⟨least.1.antisymm percentage,least.2.antisymm amount⟩
      rw [unpriced,Option.getD_none,nothing.1,nothing.2,bounded_iff sold price rate (.inl le_rfl)]
      simp [zero,subtotal]
    | some discount =>
      obtain ⟨scheme,named,granted⟩ := offered
      rw [named,Option.getD_some]
      unfold Granted at granted
      split at granted
      · next kind =>
        by_cases chosen : Discounts.eligible scheme catalogue.categoryOf line.input
        · rw [if_pos chosen] at granted
          subst granted
          rw [bounded_iff sold price rate (.inl le_rfl)]
          simp [zero,subtotal,kind,chosen]
        · rw [if_neg chosen] at granted
          subst granted
          rw [bounded_iff sold price rate (.inl le_rfl)]
          simp [zero,subtotal,chosen]
      · next kind =>
        obtain ⟨none_,least⟩ := granted
        have priced : Discounts.lineSubtotal line.qty line.unitPrice ≤ round2 (line.qty * line.unitPrice) :=
          Decimal.quantizeHalfEven_le_quantize (mul_nonneg sold.le price)
        have within : round2 discount.discountAmount ≤ round2 (line.qty * line.unitPrice) := by
          have rounded := Decimal.quantize_mono (p := 2) (least.trans (max_le subtotal priced))
          exact rounded.trans_eq (round2_of_scaled (round2_scaled _))
        rw [none_,bounded_iff sold price rate (.inr le_rfl)]
        simp [zero,subtotal,within,kind]

/-- What the pricing of a request consists of. -/
structure Computed (catalogue : Catalogue) (mayOverride : Bool) (data : CreateSaleRequest) (pricing : PricePreview) : Prop where
  totals : pricing.totals = calculateSaleTotals pricing.lines
  length : pricing.lines.length = data.lines.length
  line : ∀ (index : Nat) (line : CreateSaleLineRequest), data.lines[index]? = some line → ∃ schemeInputs, Offered catalogue data line schemeInputs ∧
    pricing.lines[index]? = some (priceLine catalogue mayOverride schemeInputs line)

theorem schemeLineDiscounts_offered {discounts : Option (List LineDiscount)} (found : schemeLineDiscounts catalogue data = .ok discounts)
    {index : Nat} (here : data.lines[index]? = some line) : Offered catalogue data line (discounts.bind (·[index]?)) := by
  unfold schemeLineDiscounts at found
  split at found
  · next unnamed =>
    cases found
    simp [Offered,CreateSaleRequest.scheme,unnamed]
  · next id named =>
    split at found
    · cases found
    · next scheme known =>
      have ours : data.scheme catalogue = some scheme := by simp [CreateSaleRequest.scheme,named,known]
      cases applied : Discounts.applyDiscountScheme scheme (data.lines.map CreateSaleLineRequest.input) catalogue.categoryOf with
      | error failure =>
        rw [applied] at found
        cases found
      | ok results =>
        rw [applied] at found
        cases found
        have input : (data.lines.map CreateSaleLineRequest.input)[index]? = some line.input := by simp [here]
        obtain ⟨discount,given,granted⟩ := Discounts.applyDiscountScheme_granted applied input
        rw [Option.bind_some,given]
        exact ⟨scheme,ours,granted⟩

theorem computeSalePricing_computed (computed : computeSalePricing catalogue mayOverride data = .ok pricing) :
    Computed catalogue mayOverride data pricing := by
  unfold computeSalePricing at computed
  obtain ⟨discounts,found,computed⟩ := Outcome.bind_ok_iff.mp computed
  obtain ⟨_,-,computed⟩ := Outcome.bind_ok_iff.mp computed
  cases computed
  refine ⟨rfl,by simp,fun index line here => ?_⟩
  refine ⟨_,schemeLineDiscounts_offered found here,?_⟩
  simp [here]

theorem Computed.priced (computed : Computed catalogue mayOverride data pricing) : ∀ amounts ∈ pricing.lines, Priced amounts := by
  intro amounts member
  obtain ⟨index,inside,same⟩ := List.mem_iff_getElem.mp member
  have bound : index < data.lines.length := computed.length ▸ inside
  obtain ⟨_,-,here⟩ := computed.line index _ (List.getElem?_eq_getElem bound)
  rw [List.getElem?_eq_getElem inside,same] at here
  cases here
  exact Pricing.priced _ _ _ _ _

theorem Computed.bounded_iff (computed : Computed catalogue mayOverride data pricing) (valid : ∀ line ∈ data.lines, line.valid) :
    (∀ amounts ∈ pricing.lines, amounts.Bounded) ↔ data.discountsFit catalogue := by
  rw [CreateSaleRequest.discountsFit,List.all_eq_true]
  constructor
  · intro bounded line member
    obtain ⟨index,here⟩ := List.mem_iff_getElem?.mp member
    obtain ⟨_,offered,priced⟩ := computed.line index line here
    exact (priceLine_bounded_iff (valid line member) offered).mp (bounded _ (List.mem_of_getElem? priced))
  · intro fits amounts member
    obtain ⟨index,inside,same⟩ := List.mem_iff_getElem.mp member
    have bound : index < data.lines.length := computed.length ▸ inside
    obtain ⟨_,offered,priced⟩ := computed.line index _ (List.getElem?_eq_getElem bound)
    rw [List.getElem?_eq_getElem inside,same] at priced
    cases priced
    have sold := List.getElem_mem bound
    exact (priceLine_bounded_iff (valid _ sold) offered).mpr (fits _ sold)

/-- What an accepted sale is made of. -/
structure Accepted (catalogue : Catalogue) (mayOverride : Bool) (data : CreateSaleRequest) (sale : Sale)
    (pricing : PricePreview) (settlement : Settling.Settlement) : Prop where
  valid : data.valid
  computed : computeSalePricing catalogue mayOverride data = .ok pricing
  settled : Settling.settlePayments id pricing.totals.totalAmount data.payments true = .ok settlement
  lines : ((data.lines.zip pricing.lines).mapM fun entry => (entry.1.sold entry.2).insert) = .ok sale.lines
  totalAmount : sale.totalAmount = pricing.totals.totalAmount
  status : sale.status = determineSaleStatus pricing.totals.totalAmount settlement.totalApplied

theorem createSale_accepted (created : createSale catalogue mayOverride data = .ok sale) :
    ∃ pricing settlement, Accepted catalogue mayOverride data sale pricing settlement := by
  unfold createSale at created
  obtain ⟨_,valid,created⟩ := Outcome.bind_ok_iff.mp created
  obtain ⟨pricing,computed,created⟩ := Outcome.bind_ok_iff.mp created
  obtain ⟨settlement,settled,created⟩ := Outcome.bind_ok_iff.mp created
  obtain ⟨_,-,created⟩ := Outcome.bind_ok_iff.mp created
  obtain ⟨lines,inserted,created⟩ := Outcome.bind_ok_iff.mp created
  obtain ⟨payments,-,created⟩ := Outcome.bind_ok_iff.mp created
  cases created
  refine ⟨pricing,settlement,require_ok.mp valid,computed,?_,inserted,rfl,rfl⟩
  cases outcome : Settling.settlePayments id pricing.totals.totalAmount data.payments true with
  | error refusal =>
    rw [outcome] at settled
    cases settled
  | ok found =>
    rw [outcome] at settled
    cases settled
    rfl

theorem CreateSaleRequest.valid_lines (valid : data.valid) : ∀ line ∈ data.lines, line.valid := by
  simp only [CreateSaleRequest.valid,Bool.and_eq_true,List.all_eq_true] at valid
  exact valid.1.2

theorem CreateSaleRequest.valid_payments (valid : data.valid) : ∀ payment ∈ data.payments, 0 < payment.amount := by
  simp only [CreateSaleRequest.valid,Bool.and_eq_true,List.all_eq_true,decide_eq_true_eq] at valid
  exact valid.2

private def shop : Catalogue where
  product := fun _ => some ⟨none,some ⟨10,by norm_num,by norm_num⟩⟩
  discountScheme := fun _ => none

private def untaxed : Catalogue where
  product := fun _ => some ⟨none,none⟩
  discountScheme := fun _ => none

private def bread (discountAmount : ℚ) : CreateSaleLineRequest := ⟨1,none,1.5,10,0,discountAmount,none⟩

private def basket : CreateSaleRequest := ⟨none,none,[bread 5,bread 0],[⟨.cash,30,none,none⟩]⟩

end Billing
