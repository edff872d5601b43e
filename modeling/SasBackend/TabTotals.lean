import SasBackend.PrintedTotals

/-! A tab against the counter: the same lines, added in any number of requests, and what both charge for them.
-/
namespace Billing
open SasBackend Pricing
open Refunds (SaleLine)

variable {catalogue : Catalogue} {mayOverride : Bool} {tab : Tab}

/-- The line with its modifiers in the price, which a tab rounds to the cent first. -/
def TabSaleLineRequest.priced (data : TabSaleLineRequest) : CreateSaleLineRequest :=
  { data.line with unitPrice := invoiceRound2 (data.line.unitPrice + data.priceDeltas.sum) }

/-- What a line adds to a tab before the total is rounded. -/
def tabAmount (catalogue : Catalogue) (mayOverride : Bool) (data : TabSaleLineRequest) : ℚ :=
  let amounts := priceLine catalogue mayOverride none data.priced
  data.priced.qty * data.priced.unitPrice - amounts.effectiveDiscount + amounts.taxAmount

def counterAmount (catalogue : Catalogue) (mayOverride : Bool) (line : CreateSaleLineRequest) : ℚ :=
  (priceLine catalogue mayOverride none line).lineTotal

def CreateSaleLineRequest.plain (line : CreateSaleLineRequest) : TabSaleLineRequest := ⟨line,[]⟩

/-- What the counter rounds off a line and the tab does not. -/
def drift (catalogue : Catalogue) (mayOverride : Bool) (line : CreateSaleLineRequest) : ℚ :=
  counterAmount catalogue mayOverride line - tabAmount catalogue mayOverride line.plain

/-- The drifts add up to less than half a cent, or to half a cent beside an even amount of cents. -/
def DriftsCancel (catalogue : Catalogue) (mayOverride : Bool) (lines : List CreateSaleLineRequest) : Prop :=
  |(lines.map (drift catalogue mayOverride)).sum| < 1/200 ∨
    |(lines.map (drift catalogue mayOverride)).sum| = 1/200 ∧
      (lines.map (counterAmount catalogue mayOverride)).sum / 2 ∈ Decimal.grid 2

instance (lines : List CreateSaleLineRequest) : Decidable (DriftsCancel catalogue mayOverride lines) := by
  unfold DriftsCancel
  infer_instance

theorem counterAmount_eq (line : CreateSaleLineRequest) : counterAmount catalogue mayOverride line =
    (priceLine catalogue mayOverride none line).lineSubtotal - (priceLine catalogue mayOverride none line).effectiveDiscount +
      (priceLine catalogue mayOverride none line).taxAmount :=
  (Pricing.priced _ _ _ _ _).total

theorem drift_of_cents {line : CreateSaleLineRequest} (cents : line.unitPrice ∈ Decimal.grid 2) :
    drift catalogue mayOverride line = round2 (line.qty * line.unitPrice) - line.qty * line.unitPrice := by
  have same : line.plain.priced = line := by
    simp only [CreateSaleLineRequest.plain,TabSaleLineRequest.priced,List.sum_nil,add_zero,invoiceRound2_of_scaled cents]
  rw [drift,counterAmount_eq,tabAmount,same]
  simp only [priceLine,calculateLineTotal]
  ring

theorem prepared_amounts {data : TabSaleLineRequest} {line : NewSaleLine}
    (prepared : prepareTabLinePricing catalogue mayOverride data = .ok line) :
    line.qty = data.priced.qty ∧ line.unitPrice = data.priced.unitPrice ∧
      line.discountAmount = (priceLine catalogue mayOverride none data.priced).effectiveDiscount ∧
      line.taxAmount = (priceLine catalogue mayOverride none data.priced).taxAmount := by
  unfold prepareTabLinePricing at prepared
  obtain ⟨_,-,prepared⟩ := Outcome.bind_ok_iff.mp prepared
  cases prepared
  exact ⟨rfl,rfl,rfl,rfl⟩

theorem stored_amount {data : TabSaleLineRequest} {line : NewSaleLine} {stored : SaleLine}
    (prepared : prepareTabLinePricing catalogue mayOverride data = .ok line) (inserted : line.insert = .ok stored)
    (scaled : data.line.qty ∈ Decimal.grid 4) : SaleLine.exactTotal stored = tabAmount catalogue mayOverride data := by
  obtain ⟨qty,price,discount,tax⟩ := insert_ok inserted
  obtain ⟨qty',price',discount',tax'⟩ := prepared_amounts prepared
  have fields : Priced (priceLine catalogue mayOverride none data.priced) := Pricing.priced _ _ _ _ _
  have cents : data.priced.unitPrice ∈ Decimal.grid 2 := Decimal.quantizeHalfEven_mem_grid 2 _
  have whole : data.priced.qty ∈ Decimal.grid 4 := scaled
  rw [SaleLine.exactTotal,qty,price,discount,tax,qty',price',discount',tax',Decimal.quantize_of_mem_grid whole,
    Decimal.quantize_of_mem_grid cents,round2_of_scaled fields.discountScaled,round2_of_scaled fields.taxScaled,tabAmount]

/-- Two passes over a list, each of which may refuse, read as one. -/
theorem mapM_mapM_map {α β γ δ ε : Type} {f : α → Except ε β} {g : β → Except ε γ} {value : γ → δ} {meaning : α → δ}
    {xs : List α} {ys : List β} {zs : List γ} (first : xs.mapM f = .ok ys) (second : ys.mapM g = .ok zs)
    (each : ∀ x ∈ xs, ∀ y z, f x = .ok y → g y = .ok z → value z = meaning x) : zs.map value = xs.map meaning := by
  induction xs generalizing ys zs with
  | nil =>
    rw [List.mapM_nil] at first
    cases first
    rw [List.mapM_nil] at second
    cases second
    simp
  | cons x xs induction =>
    rw [List.mapM_cons] at first
    obtain ⟨y,here,first⟩ := Outcome.bind_ok_iff.mp first
    obtain ⟨more,rest,first⟩ := Outcome.bind_ok_iff.mp first
    cases first
    rw [List.mapM_cons] at second
    obtain ⟨z,there,second⟩ := Outcome.bind_ok_iff.mp second
    obtain ⟨last,later,second⟩ := Outcome.bind_ok_iff.mp second
    cases second
    have tail := induction rest later fun x' member => each x' (List.mem_cons_of_mem x member)
    rw [List.map_cons,List.map_cons,each x List.mem_cons_self y z here there,tail]

theorem added_amounts {lines : List TabSaleLineRequest} {after : Tab} (scaled : ∀ data ∈ lines, data.line.qty ∈ Decimal.grid 4)
    (added : addLinesToTab catalogue mayOverride tab lines = .ok after) :
    after.lines.map SaleLine.exactTotal = tab.lines.map SaleLine.exactTotal ++ lines.map (tabAmount catalogue mayOverride) := by
  unfold addLinesToTab at added
  obtain ⟨_,-,added⟩ := Outcome.bind_ok_iff.mp added
  obtain ⟨_,-,added⟩ := Outcome.bind_ok_iff.mp added
  obtain ⟨priced,prepared,added⟩ := Outcome.bind_ok_iff.mp added
  obtain ⟨stored,inserted,added⟩ := Outcome.bind_ok_iff.mp added
  cases added
  rw [List.map_append]
  congr 1
  exact mapM_mapM_map prepared inserted fun data member line row first second => stored_amount first second (scaled data member)

theorem tab_amounts {batches : List (List TabSaleLineRequest)} {after : Tab}
    (scaled : ∀ data ∈ batches.flatten, data.line.qty ∈ Decimal.grid 4)
    (added : batches.foldlM (addLinesToTab catalogue mayOverride) tab = .ok after) :
    after.lines.map SaleLine.exactTotal =
      tab.lines.map SaleLine.exactTotal ++ batches.flatten.map (tabAmount catalogue mayOverride) := by
  induction batches generalizing tab with
  | nil =>
    rw [List.foldlM_nil] at added
    cases added
    simp
  | cons lines batches induction =>
    rw [List.foldlM_cons] at added
    obtain ⟨middle,first,added⟩ := Outcome.bind_ok_iff.mp added
    rw [List.flatten_cons] at scaled ⊢
    have here := added_amounts (fun data member => scaled data (List.mem_append_left _ member)) first
    have later := induction (fun data member => scaled data (List.mem_append_right _ member)) added
    rw [later,here,List.map_append,List.append_assoc]

theorem completeTab_total {payments : List Settling.PaymentInput} {completed : Sale}
    (done : completeTab tab payments = .ok completed) : completed.totalAmount = tabInvoiceTotal tab := by
  unfold completeTab at done
  obtain ⟨_,-,done⟩ := Outcome.bind_ok_iff.mp done
  obtain ⟨_,-,done⟩ := Outcome.bind_ok_iff.mp done
  obtain ⟨_,-,done⟩ := Outcome.bind_ok_iff.mp done
  obtain ⟨settlement,-,done⟩ := Outcome.bind_ok_iff.mp done
  obtain ⟨_,-,done⟩ := Outcome.bind_ok_iff.mp done
  obtain ⟨_,-,done⟩ := Outcome.bind_ok_iff.mp done
  obtain ⟨stored,-,done⟩ := Outcome.bind_ok_iff.mp done
  cases done
  rfl

/-- Without a scheme the counter charges the sum of its line totals. -/
theorem counter_total {data : CreateSaleRequest} {sale : Sale} (unschemed : data.discountSchemeId = none)
    (created : createSale catalogue mayOverride data = .ok sale) :
    sale.totalAmount = (data.lines.map (counterAmount catalogue mayOverride)).sum := by
  obtain ⟨pricing,settlement,accepted⟩ := createSale_accepted created
  have described := computeSalePricing_computed accepted.computed
  have lines : pricing.lines = data.lines.map (priceLine catalogue mayOverride none) := by
    apply List.ext_getElem
    · rw [described.length,List.length_map]
    · intro index inside _
      have bound : index < data.lines.length := described.length ▸ inside
      obtain ⟨schemeInputs,offered,priced⟩ := described.line index _ (List.getElem?_eq_getElem bound)
      have nothing : schemeInputs = none := by
        cases schemeInputs with
        | none => rfl
        | some discount =>
          obtain ⟨scheme,named,-⟩ := offered
          simp [CreateSaleRequest.scheme,unschemed] at named
      rw [List.getElem?_eq_getElem inside,nothing] at priced
      rw [List.getElem_map]
      exact Option.some.inj priced
  rw [accepted.totalAmount,described.totals,calculateSaleTotals_sum described.priced,lines,List.map_map]
  rfl

private def stall (rate : ℚ) (bounds : 0 ≤ rate ∧ rate ≤ 100) : Catalogue :=
  ⟨fun _ => some ⟨none,some ⟨rate,bounds.1,bounds.2⟩⟩,fun _ => none⟩

private theorem fivePercent : (0 : ℚ) ≤ 5 ∧ (5 : ℚ) ≤ 100 := by norm_num

private theorem noPercent : (0 : ℚ) ≤ 0 ∧ (0 : ℚ) ≤ 100 := by norm_num

private def half (unitPrice discountPct : ℚ) : CreateSaleLineRequest := ⟨1,none,0.5,unitPrice,discountPct,0,none⟩

private def visit (lines : List CreateSaleLineRequest) : CreateSaleRequest := ⟨none,none,lines,[⟨.cash,50,none,none⟩]⟩

/-- A tab with one line a request and the counter, both paid. -/
private def both (catalogue : Catalogue) (lines : List CreateSaleLineRequest) : Except Refusal (ℚ × ℚ) := do
  let tab ← (lines.map fun line => [line.plain]).foldlM (addLinesToTab catalogue false) (Tab.opened none)
  let completed ← completeTab tab [⟨.cash,50,none,none⟩]
  let sale ← createSale catalogue false (visit lines)
  return (completed.totalAmount,sale.totalAmount)

end Billing
