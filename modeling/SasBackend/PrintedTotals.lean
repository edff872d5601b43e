import SasBackend.PriceBounds

/-! What is read off the stored lines of a sale later, against what the sale was charged.
-/
namespace Billing
open SasBackend Pricing
open Refunds (SaleLine)

variable {catalogue : Catalogue} {mayOverride : Bool} {data : CreateSaleRequest} {pricing : PricePreview} {sale : Sale}

/-- What a line is charged before discount and tax, against its exact price, and what these two add. -/
structure Charge where
  exact : ℚ
  subtotal : ℚ
  adjustment : ℚ
  deriving DecidableEq

def exactPrice (charges : List Charge) : ℚ := (charges.map Charge.exact).sum

def chargedSubtotal (charges : List Charge) : ℚ := (charges.map Charge.subtotal).sum

def adjustments (charges : List Charge) : ℚ := (charges.map Charge.adjustment).sum

/-- A sale at the counter or one pushed by a device. -/
inductive Entry
  | counter (catalogue : Catalogue) (mayOverride : Bool) (data : CreateSaleRequest)
  | pushed (p : SaleCreatePayload)

def Entry.record : Entry → Except Refusal Sale
  | .counter catalogue mayOverride data => createSale catalogue mayOverride data
  | .pushed p => saleCreate p

def counterCharge (line : CreateSaleLineRequest) (amounts : LineAmounts) : Charge :=
  ⟨line.qty * line.unitPrice,amounts.lineSubtotal,amounts.taxAmount - amounts.effectiveDiscount⟩

def pushedCharge (line : SaleLinePayload) : Charge :=
  let adjustment := round2 line.taxAmount - round2 line.discountAmount
  ⟨line.qty * line.unitPrice,line.lineTotal - adjustment,adjustment⟩

def Entry.charges : Entry → Except Refusal (List Charge)
  | .counter catalogue mayOverride data =>
    (computeSalePricing catalogue mayOverride data).map fun pricing => List.zipWith counterCharge data.lines pricing.lines
  | .pushed p => .ok (p.lines.map pushedCharge)

/-- Quantities have four places and prices two. -/
def Entry.Scaled : Entry → Prop
  | .counter _ _ data => ∀ line ∈ data.lines, line.qty ∈ Decimal.grid 4 ∧ line.unitPrice ∈ Decimal.grid 2
  | .pushed p => ∀ line ∈ p.lines, line.qty ∈ Decimal.grid 4 ∧ line.unitPrice ∈ Decimal.grid 2

/-- The roundings of the lines add up to less than half a cent, or to half a cent beside even amounts of cents. -/
def Balances (charges : List Charge) : Prop :=
  |chargedSubtotal charges - exactPrice charges| < 1/200 ∨
    |chargedSubtotal charges - exactPrice charges| = 1/200 ∧ chargedSubtotal charges / 2 ∈ Decimal.grid 2 ∧
      adjustments charges / 2 ∈ Decimal.grid 2

instance (charges : List Charge) : Decidable (Balances charges) := by
  unfold Balances
  infer_instance

structure PrintedAsCharged (sale : Sale) : Prop where
  invoice : (buildSummary sale.lines sale.payments).totalAmount = sale.totalAmount
  listed : listedTotal sale.lines = sale.totalAmount
  recomputed : saleInvoiceTotal sale.lines = sale.totalAmount

/-- The stored lines of a sale carry its charges. -/
structure Carried (charges : List Charge) (sale : Sale) : Prop where
  subtotalScaled : chargedSubtotal charges ∈ Decimal.grid 2
  exact : exactSubtotal sale.lines = exactPrice charges
  adjusted : storedTax sale.lines - storedDiscount sale.lines = adjustments charges
  total : sale.totalAmount = chargedSubtotal charges + adjustments charges

theorem storedTax_scaled (lines : List SaleLine) : storedTax lines ∈ Decimal.grid 2 := by
  apply list_sum_mem
  intro value member
  obtain ⟨line,-,rfl⟩ := List.mem_map.mp member
  exact line.taxScaled

theorem storedDiscount_scaled (lines : List SaleLine) : storedDiscount lines ∈ Decimal.grid 2 := by
  apply list_sum_mem
  intro value member
  obtain ⟨line,-,rfl⟩ := List.mem_map.mp member
  exact line.discountScaled

theorem exactTotal_sum (lines : List SaleLine) :
    (lines.map SaleLine.exactTotal).sum = exactSubtotal lines + (storedTax lines - storedDiscount lines) := by
  unfold exactSubtotal storedTax storedDiscount
  rw [← Tally.sum_map_sub,← List.sum_map_add]
  congr 2
  ext line
  unfold SaleLine.exactTotal
  ring

theorem invoiceRound2_of_scaled {value : ℚ} (scaled : value ∈ Decimal.grid 2) : invoiceRound2 value = value :=
  Decimal.quantizeHalfEven_of_mem_grid scaled

theorem invoiceRound2_eq_iff {value cents : ℚ} (scaled : cents ∈ Decimal.grid 2) :
    invoiceRound2 value = cents ↔ |value - cents| < 1/200 ∨ |value - cents| = 1/200 ∧ cents / 2 ∈ Decimal.grid 2 := by
  have half : Decimal.unit 2 / 2 = 1/200 := by norm_num [Decimal.unit]
  rw [invoiceRound2,Decimal.quantizeHalfEven_eq_iff scaled,half]

theorem printed_iff (sale : Sale) : PrintedAsCharged sale ↔
    invoiceRound2 (exactSubtotal sale.lines) + (storedTax sale.lines - storedDiscount sale.lines) = sale.totalAmount ∧
      invoiceRound2 (exactSubtotal sale.lines + (storedTax sale.lines - storedDiscount sale.lines)) = sale.totalAmount := by
  have discount := storedDiscount_scaled sale.lines
  have tax := storedTax_scaled sale.lines
  have subtotal : invoiceRound2 (exactSubtotal sale.lines) ∈ Decimal.grid 2 := Decimal.quantizeHalfEven_mem_grid 2 _
  have invoice : (buildSummary sale.lines sale.payments).totalAmount =
      invoiceRound2 (exactSubtotal sale.lines) + (storedTax sale.lines - storedDiscount sale.lines) := by
    simp only [buildSummary]
    rw [invoiceRound2_of_scaled discount,invoiceRound2_of_scaled tax,
      invoiceRound2_of_scaled (add_mem (sub_mem subtotal discount) tax)]
    ring
  have recomputed : saleInvoiceTotal sale.lines =
      invoiceRound2 (exactSubtotal sale.lines + (storedTax sale.lines - storedDiscount sale.lines)) := by
    rw [saleInvoiceTotal,exactTotal_sum]
  constructor
  · intro printed
    exact ⟨invoice.symm.trans printed.invoice,recomputed.symm.trans printed.recomputed⟩
  · rintro ⟨first,second⟩
    exact ⟨invoice.trans first,recomputed.trans second,recomputed.trans second⟩

theorem Carried.printed_iff {charges : List Charge} (carried : Carried charges sale) :
    PrintedAsCharged sale ↔ Balances charges := by
  have scaled : adjustments charges ∈ Decimal.grid 2 := by
    rw [← carried.adjusted]
    exact sub_mem (storedTax_scaled _) (storedDiscount_scaled _)
  have moved : exactPrice charges + adjustments charges - (chargedSubtotal charges + adjustments charges) =
      exactPrice charges - chargedSubtotal charges := by ring
  rw [Billing.printed_iff,carried.exact,carried.adjusted,carried.total,add_left_inj,
    invoiceRound2_eq_iff carried.subtotalScaled,invoiceRound2_eq_iff (add_mem carried.subtotalScaled scaled),moved,abs_sub_comm,
    Balances,add_div]
  constructor
  · rintro ⟨small | ⟨tie,even⟩,small | ⟨-,both⟩⟩
    · exact .inl small
    · exact .inl small
    · exact .inl small
    · exact .inr ⟨tie,even,(add_mem_cancel_left even).mp both⟩
  · rintro (small | ⟨tie,even,other⟩)
    · exact ⟨.inl small,.inl small⟩
    · exact ⟨.inr ⟨tie,even⟩,.inr ⟨tie,add_mem even other⟩⟩

theorem insert_ok {line : NewSaleLine} {stored : SaleLine} (inserted : line.insert = .ok stored) :
    stored.qty = Decimal.quantize 4 line.qty ∧ stored.unitPrice = Decimal.quantize 2 line.unitPrice ∧
      stored.discountAmount = round2 line.discountAmount ∧ stored.taxAmount = round2 line.taxAmount := by
  unfold NewSaleLine.insert at inserted
  dsimp only at inserted
  split at inserted
  · cases inserted
    exact ⟨rfl,rfl,rfl,rfl⟩
  · cases inserted

/-- What inserted lines add up to. -/
theorem inserted_sums {α : Type} {requests : List α} {sold : α → NewSaleLine} {stored : List SaleLine}
    (inserted : requests.mapM (fun request => (sold request).insert) = .ok stored)
    (scaled : ∀ request ∈ requests, (sold request).qty ∈ Decimal.grid 4 ∧ (sold request).unitPrice ∈ Decimal.grid 2) :
    exactSubtotal stored = (requests.map fun request => (sold request).qty * (sold request).unitPrice).sum ∧
      storedTax stored - storedDiscount stored =
        (requests.map fun request => round2 (sold request).taxAmount - round2 (sold request).discountAmount).sum := by
  have price : stored.map (fun line => line.qty * line.unitPrice) = requests.map fun request =>
      Decimal.quantize 4 (sold request).qty * Decimal.quantize 2 (sold request).unitPrice := by
    apply Outcome.mapM_map _ inserted
    intro request line ok
    rw [(insert_ok ok).1,(insert_ok ok).2.1]
  have adjusted : stored.map (fun line => line.taxAmount - line.discountAmount) = requests.map fun request =>
      round2 (sold request).taxAmount - round2 (sold request).discountAmount := by
    apply Outcome.mapM_map _ inserted
    intro request line ok
    rw [(insert_ok ok).2.2.1,(insert_ok ok).2.2.2]
  constructor
  · rw [exactSubtotal,price]
    apply congrArg List.sum
    apply List.map_congr_left
    intro request member
    rw [Decimal.quantize_of_mem_grid (scaled request member).1,Decimal.quantize_of_mem_grid (scaled request member).2]
  · rw [storedTax,storedDiscount,← Tally.sum_map_sub,adjusted]

theorem zipWith_map {α β γ : Type} (f : α → β → γ) (xs : List α) (ys : List β) :
    List.zipWith f xs ys = (xs.zip ys).map fun entry => f entry.1 entry.2 := by
  rw [List.zip,List.map_zipWith]

theorem counter_carried (created : createSale catalogue mayOverride data = .ok sale)
    (computed : computeSalePricing catalogue mayOverride data = .ok pricing)
    (scaled : ∀ line ∈ data.lines, line.qty ∈ Decimal.grid 4 ∧ line.unitPrice ∈ Decimal.grid 2) :
    Carried (List.zipWith counterCharge data.lines pricing.lines) sale := by
  obtain ⟨_,settlement,accepted⟩ := createSale_accepted created
  obtain rfl := Except.ok.inj (computed.symm.trans accepted.computed)
  have described := computeSalePricing_computed computed
  have priced := described.priced
  have inside : ∀ entry ∈ data.lines.zip pricing.lines, entry.1 ∈ data.lines ∧ entry.2 ∈ pricing.lines :=
    fun entry member => List.of_mem_zip member
  obtain ⟨exact_,adjusted⟩ := inserted_sums accepted.lines fun entry member => scaled entry.1 (inside entry member).1
  have columns : (data.lines.zip pricing.lines).map Prod.snd = pricing.lines :=
    List.map_snd_zip described.length.le
  refine ⟨?_,?_,?_,?_⟩
  · apply list_sum_mem
    intro value member
    rw [zipWith_map,List.map_map] at member
    obtain ⟨entry,there,rfl⟩ := List.mem_map.mp member
    exact (priced entry.2 (inside entry there).2).subtotalScaled
  · rw [exact_,exactPrice,zipWith_map,List.map_map]
    rfl
  · rw [adjusted,adjustments,zipWith_map,List.map_map]
    apply congrArg List.sum
    apply List.map_congr_left
    intro entry member
    have fields := priced entry.2 (inside entry member).2
    simp only [CreateSaleLineRequest.sold,counterCharge,Function.comp_apply]
    rw [round2_of_scaled fields.taxScaled,round2_of_scaled fields.discountScaled]
  · rw [accepted.totalAmount,described.totals,calculateSaleTotals_sum priced,chargedSubtotal,adjustments,← List.sum_map_add,
      zipWith_map,List.map_map,← columns,List.map_map,columns]
    apply congrArg List.sum
    apply List.map_congr_left
    intro entry member
    have fields := priced entry.2 (inside entry member).2
    simp only [counterCharge,Function.comp_apply]
    rw [fields.total]
    ring

theorem pushed_carried {p : SaleCreatePayload} (created : saleCreate p = .ok sale)
    (scaled : ∀ line ∈ p.lines, line.qty ∈ Decimal.grid 4 ∧ line.unitPrice ∈ Decimal.grid 2) :
    Carried (p.lines.map pushedCharge) sale := by
  unfold saleCreate at created
  obtain ⟨_,-,created⟩ := Outcome.bind_ok_iff.mp created
  obtain ⟨_,-,created⟩ := Outcome.bind_ok_iff.mp created
  obtain ⟨lines,inserted,created⟩ := Outcome.bind_ok_iff.mp created
  obtain ⟨payments,-,created⟩ := Outcome.bind_ok_iff.mp created
  cases created
  obtain ⟨exact_,adjusted⟩ := inserted_sums inserted scaled
  refine ⟨?_,?_,?_,?_⟩
  · apply list_sum_mem
    intro value member
    rw [List.map_map] at member
    obtain ⟨line,-,rfl⟩ := List.mem_map.mp member
    have total : line.lineTotal ∈ Decimal.grid 2 := Decimal.quantizeHalfEven_mem_grid 2 _
    exact sub_mem total (sub_mem (round2_scaled _) (round2_scaled _))
  · rw [exact_,exactPrice,List.map_map]
    rfl
  · rw [adjusted,adjustments,List.map_map]
    rfl
  · dsimp only
    rw [chargedSubtotal,adjustments,← List.sum_map_add,List.map_map]
    apply congrArg List.sum
    apply List.map_congr_left
    intro line member
    simp only [pushedCharge,Function.comp_apply]
    ring

private def counter : Catalogue := ⟨fun _ => some ⟨none,none⟩,fun _ => none⟩

private def weighed (qty unitPrice : ℚ) : CreateSaleLineRequest := ⟨1,none,qty,unitPrice,0,0,none⟩

private def weighing (qty : ℚ) : Entry := .counter counter false ⟨none,none,[weighed qty 3,weighed 2 4.99],[⟨.cash,20,none,none⟩]⟩

end Billing
