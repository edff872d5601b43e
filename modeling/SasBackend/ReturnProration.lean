import SasBackend.Library.Remainders
import SasBackend.Refunds

/-! The returns of one sale line, one request after the other, until nothing of it is left.
Every part gets its rounded share of discount and tax, and the one that clears the line what the others left of them.
-/
namespace Refunds
open SasBackend Pricing Tally Outcome Transition

theorem calculateLineTotal_lineTotal (qty unitPrice discountPct discountAmount taxRate : ℚ) :
    let amounts := calculateLineTotal qty unitPrice discountPct discountAmount taxRate
    (amounts.effectiveDiscount ∈ Decimal.grid 2 ∧ amounts.taxAmount ∈ Decimal.grid 2) ∧
      amounts.lineTotal = round2 (qty * unitPrice) - amounts.effectiveDiscount + amounts.taxAmount := by
  dsimp only [calculateLineTotal]
  generalize max discountAmount _ = effective
  have taxable : round2 (round2 (qty * unitPrice) - round2 effective) = round2 (qty * unitPrice) - round2 effective :=
    Decimal.quantize_of_mem_grid (sub_mem (round2_mem _) (round2_mem _))
  rw [taxable]
  exact ⟨⟨round2_mem _,round2_mem _⟩,
    Decimal.quantize_of_mem_grid (add_mem (sub_mem (round2_mem _) (round2_mem _)) (round2_mem _))⟩

/-- The sale line as a request became it costs what was computed for the request. -/
theorem store_lineTotal {request : SaleLineRequest} {line : SaleLine} (qty : request.qty ∈ Decimal.grid 4)
    (price : request.unitPrice ∈ Decimal.grid 2) (stored : request.store = .ok line) :
    line.lineTotal = request.amounts.lineTotal := by
  obtain ⟨⟨discount,tax⟩,total⟩ : (request.amounts.effectiveDiscount ∈ Decimal.grid 2 ∧ request.amounts.taxAmount ∈ Decimal.grid 2) ∧
      request.amounts.lineTotal = round2 (request.qty * request.unitPrice) - request.amounts.effectiveDiscount +
        request.amounts.taxAmount := calculateLineTotal_lineTotal ..
  unfold SaleLineRequest.store at stored
  dsimp only at stored
  split at stored
  · cases stored
    rw [total]
    simp only [SaleLine.lineTotal,Decimal.quantize_of_mem_grid qty,Decimal.quantize_of_mem_grid price,
      Decimal.quantize_of_mem_grid discount,Decimal.quantize_of_mem_grid tax]
  · cases stored

def ReturnedAmounts.add (returned : ReturnedAmounts) (item : Prepared) : ReturnedAmounts :=
  ⟨returned.qty + Decimal.quantize 4 item.qty,returned.discount + item.discount,returned.tax + item.tax⟩

/-- A part of the line after what was returned of it before. -/
structure Prorates (original : SaleLine) (returned : ReturnedAmounts) (item : Prepared) : Prop where
  price : item.unitPrice = original.unitPrice
  positive : 0 < item.qty
  within : returned.qty + item.qty ≤ original.qty
  amounts : (item.discount,item.tax) = computeReturnLineAmounts item.qty original returned

/-- The parts returned one after the other, and what they add up to. -/
inductive Parts (original : SaleLine) : List Prepared → ReturnedAmounts → Prop
  | none : Parts original [] ⟨0,0,0⟩
  | more {items : List Prepared} {returned : ReturnedAmounts} {item : Prepared} (before : Parts original items returned)
    (prorates : Prorates original returned item) : Parts original (items ++ [item]) (returned.add item)

section Sums

variable {original : SaleLine} {items : List Prepared} {returned : ReturnedAmounts} {item : Prepared}

theorem Prorates.scaled (prorates : Prorates original returned item) (discount : returned.discount ∈ Decimal.grid 2)
    (tax : returned.tax ∈ Decimal.grid 2) : item.discount ∈ Decimal.grid 2 ∧ item.tax ∈ Decimal.grid 2 := by
  have first : item.discount = _ := congrArg Prod.fst prorates.amounts
  have second : item.tax = _ := congrArg Prod.snd prorates.amounts
  rw [first,second]
  exact amounts_scaled discount tax item.qty

theorem Prorates.nonneg (prorates : Prorates original returned item) : 0 ≤ item.discount ∧ 0 ≤ item.tax := by
  have part (amount : ℚ) (nonneg : 0 ≤ amount) : 0 ≤ share amount item.qty original.qty := by
    rw [share_eq]
    exact Decimal.quantize_nonneg (div_nonneg (mul_nonneg nonneg prorates.positive.le) original.qtyPositive.le)
  have first : item.discount = _ := congrArg Prod.fst prorates.amounts
  have second : item.tax = _ := congrArg Prod.snd prorates.amounts
  rw [first,second]
  unfold computeReturnLineAmounts
  split
  · exact ⟨le_max_right _ _,le_max_right _ _⟩
  · exact ⟨part _ original.discountNonneg,part _ original.taxNonneg⟩

/-- What a sequence of returns adds up to. -/
structure Summed (items : List Prepared) (returned : ReturnedAmounts) : Prop where
  qty : returned.qty = ((items.map Prepared.qty).map (Decimal.quantize 4)).sum
  discount : returned.discount = (items.map Prepared.discount).sum
  tax : returned.tax = (items.map Prepared.tax).sum
  qtyScaled : returned.qty ∈ Decimal.grid 4
  scaled : ∀ item ∈ items, item.discount ∈ Decimal.grid 2 ∧ item.tax ∈ Decimal.grid 2
  discountScaled : returned.discount ∈ Decimal.grid 2
  taxScaled : returned.tax ∈ Decimal.grid 2

theorem Parts.summed (parts : Parts original items returned) : Summed items returned := by
  induction parts with
  | none => exact ⟨rfl,rfl,rfl,zero_mem _,List.forall_mem_nil _,zero_mem _,zero_mem _⟩
  | more before prorates summed =>
    have amounts := prorates.scaled summed.discountScaled summed.taxScaled
    unfold ReturnedAmounts.add
    refine ⟨?_,?_,?_,?_,?_,?_,?_⟩
    · simp [summed.qty]
    · simp [summed.discount]
    · simp [summed.tax]
    · exact add_mem summed.qtyScaled (Decimal.quantize_mem_grid 4 _)
    · exact List.forall_mem_append.mpr ⟨summed.scaled,List.forall_mem_singleton.mpr amounts⟩
    · exact add_mem summed.discountScaled amounts.1
    · exact add_mem summed.taxScaled amounts.2

theorem Parts.nonneg (parts : Parts original items returned) : ∀ item ∈ items, 0 ≤ item.discount ∧ 0 ≤ item.tax := by
  induction parts with
  | none => exact List.forall_mem_nil _
  | more _ prorates earlier =>
    exact List.forall_mem_append.mpr ⟨earlier,List.forall_mem_singleton.mpr prorates.nonneg⟩

theorem Parts.price (parts : Parts original items returned) : ∀ item ∈ items, item.unitPrice = original.unitPrice := by
  induction parts with
  | none => exact List.forall_mem_nil _
  | more _ prorates earlier => exact List.forall_mem_append.mpr ⟨earlier,List.forall_mem_singleton.mpr prorates.price⟩

/-- A part that leaves something of the line gets its share. -/
def Shared (original : SaleLine) (item : Prepared) : Prop :=
  item.discount = share original.discountAmount item.qty original.qty ∧
    item.tax = share original.taxAmount item.qty original.qty

theorem Prorates.shared (prorates : Prorates original returned item) (leaves : returned.qty + item.qty ≠ original.qty) :
    Shared original item := by
  have less : ¬ returned.qty + item.qty ≥ original.qty := (prorates.within.lt_of_ne leaves).not_ge
  have amounts := prorates.amounts
  rw [computeReturnLineAmounts,if_neg less] at amounts
  exact Prod.mk.inj amounts

theorem Parts.shared (scaled : original.qty ∈ Decimal.grid 4) (parts : Parts original items returned)
    (left : returned.qty < original.qty) : ∀ item ∈ items, Shared original item := by
  induction parts with
  | none => exact List.forall_mem_nil _
  | @more items returned item before prorates earlier =>
    have stored : 0 ≤ Decimal.quantize 4 item.qty := Decimal.quantize_nonneg prorates.positive.le
    have less : returned.qty < original.qty := lt_of_le_of_lt (le_add_of_nonneg_right stored) left
    refine List.forall_mem_append.mpr ⟨earlier less,List.forall_mem_singleton.mpr (prorates.shared fun clears => ?_)⟩
    -- a part that clears the line is stored as it is
    have inside : item.qty ∈ Decimal.grid 4 := by
      rw [← sub_eq_of_eq_add' clears.symm]
      exact sub_mem scaled before.summed.qtyScaled
    have all : returned.qty + Decimal.quantize 4 item.qty = original.qty := by rw [Decimal.quantize_of_mem_grid inside,clears]
    exact left.ne all

end Sums

/-- The exact shares of some parts in an amount, in cents. -/
def centShares (amount : ℚ) (original : SaleLine) (quantities : List ℚ) : List ℚ :=
  quantities.map fun qty => amount * qty / original.qty * 100

/-- The discount of a part less its tax, each to the nearest cent. -/
def SaleLine.partOff (original : SaleLine) (qty : ℚ) : ℚ :=
  Decimal.halfUp 2 (original.discountAmount * qty / original.qty) - Decimal.halfUp 2 (original.taxAmount * qty / original.qty)

/-- The parts with what is taken off each of them; the last one takes the rest. -/
def partsOff (original : SaleLine) (quantities : List ℚ) : List (ℚ × ℚ) :=
  (quantities.dropLast.map fun qty => (qty,original.partOff qty)) ++
    [(quantities.getLastD 0,original.discountAmount - original.taxAmount - (quantities.dropLast.map original.partOff).sum)]

/-- The price of a part counts up from half a cent on, or beyond half a cent where more than the price is taken off it. -/
def SaleLine.countsUp (original : SaleLine) (part : ℚ × ℚ) : Bool :=
  if part.1 * original.unitPrice < part.2 then Remainders.downward (part.1 * original.unitPrice * 100)
  else Remainders.upward (part.1 * original.unitPrice * 100)

/-- The parts divide the line: for discount and tax the fractions of a cent in the shares of all parts but the last, with the last
one's share, make up a cent for every share that counts up; and the fractions of a cent in the prices of the parts make up a cent for
every price that counts up, as that of the whole line does. -/
structure Divides (original : SaleLine) (quantities : List ℚ) : Prop where
  discount : (centShares original.discountAmount original quantities.dropLast).countP Remainders.upward ≤
    Remainders.fractions (centShares original.discountAmount original quantities.dropLast) +
      original.discountAmount * quantities.getLastD 0 / original.qty * 100
  tax : (centShares original.taxAmount original quantities.dropLast).countP Remainders.upward ≤
    Remainders.fractions (centShares original.taxAmount original quantities.dropLast) +
      original.taxAmount * quantities.getLastD 0 / original.qty * 100
  price : (partsOff original quantities).countP original.countsUp + Int.fract (original.qty * original.unitPrice * 100) =
    Remainders.fractions ((partsOff original quantities).map fun part => part.1 * original.unitPrice * 100) +
      if Remainders.upward (original.qty * original.unitPrice * 100) then 1 else 0

/-- The returns give back exactly the discount, the tax and the price of the line. -/
structure ExactlyReturned (original : SaleLine) (items : List Prepared) : Prop where
  nonneg : ∀ item ∈ items, 0 ≤ item.discount ∧ 0 ≤ item.tax
  discount : (items.map Prepared.discount).sum = original.discountAmount
  tax : (items.map Prepared.tax).sum = original.taxAmount
  refund : (items.map Prepared.refund).sum = original.lineTotal

/-- The price of a part in whole cents: half a cent counts upward unless more than the price is taken off it. -/
def SaleLine.partPrice (original : SaleLine) (qty off : ℚ) : ℚ :=
  if qty * original.unitPrice < off then Decimal.halfDown 2 (qty * original.unitPrice)
  else Decimal.halfUp 2 (qty * original.unitPrice)

/-- The parts make up the line, their prices told from discount and tax. -/
def AddUp (original : SaleLine) (items : List Prepared) : Prop :=
  (items.map Prepared.discount).sum = original.discountAmount ∧ (items.map Prepared.tax).sum = original.taxAmount ∧
    (items.map fun item => original.partPrice item.qty (item.discount - item.tax)).sum =
      round2 (original.qty * original.unitPrice)

section Exact

variable {original : SaleLine} {items : List Prepared} {returned : ReturnedAmounts} {item : Prepared}

theorem refund_eq (price : item.unitPrice = original.unitPrice)
    (scaled : item.discount ∈ Decimal.grid 2 ∧ item.tax ∈ Decimal.grid 2) :
    item.refund = original.partPrice item.qty (item.discount - item.tax) - (item.discount - item.tax) := by
  rw [Prepared.refund,price,sub_add,round2,Decimal.quantize_sub (sub_mem scaled.1 scaled.2)]
  rfl

theorem refund_sum (price : ∀ item ∈ items, item.unitPrice = original.unitPrice)
    (scaled : ∀ item ∈ items, item.discount ∈ Decimal.grid 2 ∧ item.tax ∈ Decimal.grid 2) :
    (items.map Prepared.refund).sum =
      (items.map fun item => original.partPrice item.qty (item.discount - item.tax)).sum -
        (items.map Prepared.discount).sum + (items.map Prepared.tax).sum := by
  induction items with
  | nil => simp
  | cons item rest induction =>
    have later := induction (fun other member => price other (List.mem_cons_of_mem _ member))
      fun other member => scaled other (List.mem_cons_of_mem _ member)
    simp only [List.map_cons,List.sum_cons,later,
      refund_eq (price item List.mem_cons_self) (scaled item List.mem_cons_self)]
    ring

theorem shared_sums (shared : ∀ item ∈ items, Shared original item) :
    (items.map Prepared.discount = (items.map Prepared.qty).map fun qty => share original.discountAmount qty original.qty) ∧
      items.map Prepared.tax = (items.map Prepared.qty).map fun qty => share original.taxAmount qty original.qty := by
  simp only [List.map_map]
  exact ⟨List.map_congr_left fun item member => (shared item member).1,List.map_congr_left fun item member => (shared item member).2⟩

theorem Parts.exactlyReturned_iff (parts : Parts original items returned) :
    ExactlyReturned original items ↔ AddUp original items := by
  have total := refund_sum parts.price parts.summed.scaled
  constructor
  · rintro ⟨-,discount,tax,refund⟩
    refine ⟨discount,tax,?_⟩
    rw [total,discount,tax,SaleLine.lineTotal] at refund
    linarith
  · rintro ⟨discount,tax,price⟩
    refine ⟨parts.nonneg,discount,tax,?_⟩
    rw [total,discount,tax,price,SaleLine.lineTotal]

theorem max_left_iff {whole part : ℚ} : part + max (whole - part) 0 = whole ↔ part ≤ whole := by
  constructor
  · intro same
    have least := le_max_right (whole - part) 0
    linarith
  · intro least
    rw [max_eq_left (sub_nonneg.mpr least)]
    ring

/-- The shares in an amount add up to no more than the amount where the fractions pay for those that count up. -/
theorem shares_within_iff {amount last : ℚ} {quantities : List ℚ} (nonneg : 0 ≤ amount) (positive : ∀ qty ∈ quantities, 0 ≤ qty)
    (whole : quantities.sum + last = original.qty) :
    (quantities.map fun qty => share amount qty original.qty).sum ≤ amount ↔
      (centShares amount original quantities).countP Remainders.upward ≤
        Remainders.fractions (centShares amount original quantities) + amount * last / original.qty * 100 := by
  have cents : (quantities.map fun qty => share amount qty original.qty).sum * 100 =
      ((centShares amount original quantities).map fun cents => (⌊cents + 1/2⌋ : ℚ)).sum := by
    rw [centShares,← List.sum_map_mul_right,List.map_map]
    refine congrArg List.sum (List.map_congr_left fun qty member => ?_)
    have above : 0 ≤ amount * qty / original.qty := div_nonneg (mul_nonneg nonneg (positive qty member)) original.qtyPositive.le
    rw [share_eq,round2,Decimal.quantize_of_nonneg above,Decimal.halfUp]
    norm_num
  have counted := @Remainders.sum_rounded _ id (fun cents => ⌊cents + 1/2⌋) Remainders.upward (centShares amount original quantities)
    fun _ _ => Remainders.floor_half
  rw [List.map_id,← cents] at counted
  have exact_ : (centShares amount original quantities).sum + amount * last / original.qty * 100 = amount * 100 := by
    have scaled : centShares amount original quantities = quantities.map (· * (amount / original.qty * 100)) := by
      refine List.map_congr_left fun qty _ => ?_
      ring
    have ratio : amount / original.qty * original.qty = amount := div_mul_cancel₀ _ original.qtyPositive.ne'
    rw [scaled,List.sum_map_mul_right,List.map_id']
    calc quantities.sum * (amount / original.qty * 100) + amount * last / original.qty * 100
        = amount / original.qty * (quantities.sum + last) * 100 := by ring
      _ = amount * 100 := by rw [whole,ratio]
  constructor
  · intro least
    linarith
  · intro least
    linarith

/-- The prices of the parts add up to that of the line where the fractions pay for those that count up. -/
theorem prices_iff {parts : List (ℚ × ℚ)} (whole : (parts.map Prod.fst).sum = original.qty) :
    (parts.map fun part => original.partPrice part.1 part.2).sum = round2 (original.qty * original.unitPrice) ↔
      parts.countP original.countsUp + Int.fract (original.qty * original.unitPrice * 100) =
        Remainders.fractions (parts.map fun part => part.1 * original.unitPrice * 100) +
          if Remainders.upward (original.qty * original.unitPrice * 100) then 1 else 0 := by
  have rule : ∀ part ∈ parts, (if part.1 * original.unitPrice < part.2 then -⌊-(part.1 * original.unitPrice * 100) + 1/2⌋
      else ⌊part.1 * original.unitPrice * 100 + 1/2⌋) = ⌊part.1 * original.unitPrice * 100⌋ + if original.countsUp part then 1 else 0 := by
    intro part _
    unfold SaleLine.countsUp
    split
    · exact Remainders.neg_floor_half
    · exact Remainders.floor_half
  have cents : (parts.map fun part => original.partPrice part.1 part.2).sum * 100 =
      (parts.map fun part => ((if part.1 * original.unitPrice < part.2 then -⌊-(part.1 * original.unitPrice * 100) + 1/2⌋
        else ⌊part.1 * original.unitPrice * 100 + 1/2⌋ : ℤ) : ℚ)).sum := by
    rw [← List.sum_map_mul_right]
    refine congrArg List.sum (List.map_congr_left fun part _ => ?_)
    unfold SaleLine.partPrice Decimal.halfDown Decimal.halfUp
    split
    · norm_num
    · norm_num
  have counted := Remainders.sum_rounded parts rule
  rw [← cents] at counted
  have exact_ : (parts.map fun part => part.1 * original.unitPrice * 100).sum = original.qty * original.unitPrice * 100 := by
    have factored : (parts.map fun part => part.1 * original.unitPrice * 100) =
        (parts.map Prod.fst).map (· * (original.unitPrice * 100)) := by
      rw [List.map_map]
      refine List.map_congr_left fun part _ => ?_
      simp only [Function.comp_apply]
      ring
    rw [factored,List.sum_map_mul_right,List.map_id',whole]
    ring
  rw [exact_] at counted
  have own : round2 (original.qty * original.unitPrice) * 100 + Int.fract (original.qty * original.unitPrice * 100) =
      original.qty * original.unitPrice * 100 + if Remainders.upward (original.qty * original.unitPrice * 100) then 1 else 0 := by
    have above : 0 ≤ original.qty * original.unitPrice := mul_nonneg original.qtyPositive.le original.priceNonneg
    have parts := Int.floor_add_fract (original.qty * original.unitPrice * 100)
    have floor := @Remainders.floor_half (original.qty * original.unitPrice * 100)
    have rounded : round2 (original.qty * original.unitPrice) * 100 = ⌊original.qty * original.unitPrice * 100 + 1/2⌋ := by
      rw [round2,Decimal.quantize_of_nonneg above,Decimal.halfUp]
      norm_num
    rw [rounded,floor]
    push_cast
    linarith
  constructor
  · intro same
    rw [same] at counted
    linarith
  · intro same
    linarith

theorem share_halfUp {amount qty : ℚ} (nonneg : 0 ≤ amount) (positive : 0 ≤ qty) :
    share amount qty original.qty = Decimal.halfUp 2 (amount * qty / original.qty) := by
  rw [share_eq,round2,Decimal.quantize_of_nonneg (div_nonneg (mul_nonneg nonneg positive) original.qtyPositive.le)]

/-- The last part clears the line, and gets what the others left. -/
theorem Parts.cleared_iff (before : Parts original items returned) (prorates : Prorates original returned item)
    (shares : ∀ item ∈ items, Shared original item) (positive : ∀ item ∈ items, 0 ≤ item.qty)
    (clears : returned.qty + item.qty = original.qty) (sums : returned.qty = (items.map Prepared.qty).sum) :
    AddUp original (items ++ [item]) ↔ Divides original (items.map Prepared.qty ++ [item.qty]) := by
  obtain ⟨discounts,taxes⟩ := shared_sums shares
  have amounts := prorates.amounts
  rw [computeReturnLineAmounts,if_pos clears.ge] at amounts
  obtain ⟨discount,tax⟩ := Prod.mk.inj amounts
  have quantities : ∀ qty ∈ items.map Prepared.qty, 0 ≤ qty := by
    intro qty member
    obtain ⟨other,there,rfl⟩ := List.mem_map.mp member
    exact positive other there
  have whole : (items.map Prepared.qty).sum + item.qty = original.qty := sums ▸ clears
  have discountIff := shares_within_iff original.discountNonneg quantities whole
  have taxIff := shares_within_iff original.taxNonneg quantities whole
  rw [← discounts,← before.summed.discount] at discountIff
  rw [← taxes,← before.summed.tax] at taxIff
  have off : ∀ other ∈ items, other.discount - other.tax = original.partOff other.qty := by
    intro other member
    obtain ⟨first,second⟩ := shares other member
    rw [first,second,share_halfUp original.discountNonneg (positive other member),
      share_halfUp original.taxNonneg (positive other member),SaleLine.partOff]
  have offs : ((items.map Prepared.qty).map original.partOff).sum = returned.discount - returned.tax := by
    rw [before.summed.discount,before.summed.tax,← Tally.sum_map_sub,List.map_map]
    exact congrArg List.sum (List.map_congr_left fun other member => (off other member).symm)
  have parts : partsOff original (items.map Prepared.qty ++ [item.qty]) = (items.map fun item => (item.qty,item.discount - item.tax)) ++
      [(item.qty,original.discountAmount - returned.discount - (original.taxAmount - returned.tax))] := by
    have rest : original.discountAmount - original.taxAmount - (returned.discount - returned.tax) =
        original.discountAmount - returned.discount - (original.taxAmount - returned.tax) := by ring
    rw [partsOff,List.dropLast_concat,List.getLastD_concat,offs,rest,List.map_map]
    refine congrArg (· ++ _) (List.map_congr_left fun other member => ?_)
    rw [off other member]
    rfl
  have priced : ((partsOff original (items.map Prepared.qty ++ [item.qty])).map fun part => original.partPrice part.1 part.2).sum =
      (items.map fun item => original.partPrice item.qty (item.discount - item.tax)).sum + original.partPrice item.qty
        (original.discountAmount - returned.discount - (original.taxAmount - returned.tax)) := by
    rw [parts,List.map_append,List.map_map,List.sum_append,List.map_singleton,List.sum_singleton]
    rfl
  have sold : ((partsOff original (items.map Prepared.qty ++ [item.qty])).map Prod.fst).sum = original.qty := by
    rw [parts,List.map_append,List.map_map,List.sum_append,List.map_singleton,List.sum_singleton]
    exact whole
  have priceIff := prices_iff sold
  simp only [AddUp,List.map_append,List.map_singleton,List.sum_append,List.sum_singleton,discount,tax]
  rw [← before.summed.discount,← before.summed.tax,max_left_iff,max_left_iff]
  constructor
  · rintro ⟨first,second,third⟩
    rw [max_eq_left (sub_nonneg.mpr first),max_eq_left (sub_nonneg.mpr second)] at third
    refine ⟨?_,?_,priceIff.mp (priced.trans third)⟩
    · rw [List.dropLast_concat,List.getLastD_concat]
      exact discountIff.mp first
    · rw [List.dropLast_concat,List.getLastD_concat]
      exact taxIff.mp second
  · rintro ⟨first,second,third⟩
    rw [List.dropLast_concat,List.getLastD_concat] at first second
    have less := discountIff.mpr first
    have less' := taxIff.mpr second
    rw [max_eq_left (sub_nonneg.mpr less),max_eq_left (sub_nonneg.mpr less')]
    exact ⟨less,less',priced.symm.trans (priceIff.mpr third)⟩

theorem Parts.positive (parts : Parts original items returned) : ∀ item ∈ items, 0 < item.qty := by
  induction parts with
  | none => exact List.forall_mem_nil _
  | more _ prorates earlier => exact List.forall_mem_append.mpr ⟨earlier,List.forall_mem_singleton.mpr prorates.positive⟩

theorem Parts.stored (parts : Parts original items returned) (scaled : ∀ item ∈ items, item.qty ∈ Decimal.grid 4) :
    returned.qty = (items.map Prepared.qty).sum := by
  rw [parts.summed.qty,List.map_map]
  exact congrArg List.sum (List.map_congr_left fun item member => Decimal.quantize_of_mem_grid (scaled item member))

theorem Parts.exact_iff (parts : Parts original items returned) (complete : returned.qty = original.qty)
    (scaled : ∀ item ∈ items, item.qty ∈ Decimal.grid 4) :
    ExactlyReturned original items ↔ Divides original (items.map Prepared.qty) := by
  have whole : original.qty ∈ Decimal.grid 4 := complete ▸ parts.summed.qtyScaled
  rw [parts.exactlyReturned_iff]
  cases parts with
  | none => exact absurd complete original.qtyPositive.ne
  | @more items returned item before prorates =>
    have left : returned.qty < original.qty := (lt_add_of_pos_right _ prorates.positive).trans_le prorates.within
    have earlier : ∀ item ∈ items, item.qty ∈ Decimal.grid 4 := fun other member => scaled other (List.mem_append_left _ member)
    have clears : returned.qty + item.qty = original.qty := by
      have last : Decimal.quantize 4 item.qty = item.qty := Decimal.quantize_of_mem_grid (scaled item (by simp))
      rw [← last]
      exact complete
    rw [List.map_append,List.map_singleton]
    exact before.cleared_iff prorates (before.shared whole left) (fun other member => (before.positive other member).le) clears
      (before.stored earlier)

end Exact

/-- What an action returns of the line. -/
def itemsFor (s : State) (id : LineId) : Action → List Prepared
  | .createSale _ => []
  | .createSaleReturn data =>
    ((prepareLines s [] data.lines).toOption.getD []).filter fun item => item.saleLineId = some id

/-- The line is named at most once in a request. -/
def Separate (id : LineId) : Action → Prop
  | .createSale _ => True
  | .createSaleReturn data => (data.lines.filter fun line => line.saleLineId = some id).length ≤ 1

/-- Any accepted actions with what they returned of the line, each in a request of its own. -/
inductive Returned (id : LineId) (s : State) : State → List Prepared → Prop
  | start : Returned id s s []
  | next {t u : State} {items : List Prepared} {action : Action} (before : Returned id s t items) (separate : Separate id action)
    (taken : next t action = some u) : Returned id s u (items ++ itemsFor t id action)

section Run

variable {s t u : State} {id : LineId} {original : SaleLine} {items pending : List Prepared} {lines : List ReturnLineRequest}

theorem prepareLines_without (others : lines.filter (fun line => line.saleLineId = some id) = [])
    (prepared : prepareLines s pending lines = .ok items) :
    items.filter (fun item => item.saleLineId = some id) = pending.filter fun item => item.saleLineId = some id := by
  induction lines generalizing pending with
  | nil =>
    cases prepared
    rfl
  | cons line rest induction =>
    obtain ⟨item,first,later⟩ := bind_ok_iff.mp prepared
    have other : line.saleLineId ≠ some id := by
      intro same
      simp [same] at others
    have absent : item.saleLineId ≠ some id := by
      rw [Prepared.saleLineId,prepareLine_request first]
      exact other
    rw [List.filter_cons_of_neg (by simpa using other)] at others
    rw [induction others later,List.filter_append,List.filter_singleton]
    simp [absent]

/-- A request that names the line once returns one part of it. -/
theorem prepareLines_once (found : s.line id = some original) (positive : ∀ line ∈ lines, 0 < line.qty)
    (fresh : pending.filter (fun item => item.saleLineId = some id) = [])
    (once : (lines.filter fun line => line.saleLineId = some id).length ≤ 1)
    (prepared : prepareLines s pending lines = .ok items) :
    items.filter (fun item => item.saleLineId = some id) = [] ∨
      ∃ item, items.filter (fun item => item.saleLineId = some id) = [item] ∧
        Prorates original (alreadyReturnedAmounts s id) item := by
  induction lines generalizing pending with
  | nil =>
    cases prepared
    exact .inl fresh
  | cons line rest induction =>
    obtain ⟨item,first,later⟩ := bind_ok_iff.mp prepared
    have positiveRest : ∀ line ∈ rest, 0 < line.qty := fun other member => positive other (List.mem_cons_of_mem _ member)
    have named : item.saleLineId = line.saleLineId := congrArg ReturnLineRequest.saleLineId (prepareLine_request first)
    by_cases same : line.saleLineId = some id
    · -- nothing else of the request is of this line
      rw [List.filter_cons_of_pos (by simpa using same),List.length_cons] at once
      have others := List.eq_nil_of_length_eq_zero (Nat.le_zero.mp (Nat.le_of_succ_le_succ once))
      have only : items.filter (fun item => item.saleLineId = some id) = [item] := by
        rw [prepareLines_without others later,List.filter_append,fresh,List.filter_singleton]
        simp [named,same]
      refine .inr ⟨item,only,?_⟩
      simp only [prepareLine,same,found] at first
      obtain ⟨enough,amounts,computed,rfl⟩ := prepareLinked_ok first
      have nothing : tally Prepared.saleLineId Prepared.qty (some id) pending = 0 := by
        rw [tally,fresh,List.map_nil,List.sum_nil]
      rw [nothing,add_zero] at enough computed
      exact ⟨rfl,positive line List.mem_cons_self,enough,computed⟩
    · rw [List.filter_cons_of_neg (by simpa using same)] at once
      refine induction positiveRest ?_ once later
      rw [List.filter_append,fresh,List.filter_singleton]
      simp [named,same]

theorem line_of_next {action : Action} (found : s.line id = some original) (taken : next s action = some t) :
    t.line id = some original := by
  cases action with
  | createSale data =>
    obtain ⟨sale,-,rfl⟩ := Option.map_eq_some_iff.mp taken
    obtain ⟨other,stored,inside⟩ := Option.bind_eq_some_iff.mp found
    have bound : id.saleId < s.sales.length := (List.getElem?_eq_some_iff.mp stored).1
    rw [State.line,List.getElem?_append_left bound]
    exact found
  | createSaleReturn data =>
    obtain ⟨r,-,rfl⟩ := Option.map_eq_some_iff.mp taken
    exact found

theorem alreadyReturned_snoc (r : SaleReturn) :
    alreadyReturnedAmounts { s with returns := s.returns ++ [r] } id =
      ⟨(alreadyReturnedAmounts s id).qty + tally ReturnLine.saleLineId ReturnLine.qty (some id) r.lines,
        (alreadyReturnedAmounts s id).discount + tally ReturnLine.saleLineId ReturnLine.discountAmount (some id) r.lines,
        (alreadyReturnedAmounts s id).tax + tally ReturnLine.saleLineId ReturnLine.taxAmount (some id) r.lines⟩ := by
  simp only [alreadyReturnedAmounts,returnedLines_snoc,tally_append]

theorem stored_tally (weight : ReturnLine → ℚ) : tally ReturnLine.saleLineId weight (some id) (items.map Prepared.store) =
    ((items.filter fun item => item.saleLineId = some id).map fun item => weight item.store).sum := by
  rw [tally_map]
  rfl

/-- An accepted action returns nothing of the line, or the next part of it. -/
theorem parts_of_next {action : Action} (found : s.line id = some original) (separate : Separate id action)
    (taken : next s action = some t) (discount : (alreadyReturnedAmounts s id).discount ∈ Decimal.grid 2)
    (tax : (alreadyReturnedAmounts s id).tax ∈ Decimal.grid 2) :
    (itemsFor s id action = [] ∧ alreadyReturnedAmounts t id = alreadyReturnedAmounts s id) ∨
      ∃ item, itemsFor s id action = [item] ∧ Prorates original (alreadyReturnedAmounts s id) item ∧
        alreadyReturnedAmounts t id = (alreadyReturnedAmounts s id).add item := by
  cases action with
  | createSale data =>
    obtain ⟨sale,-,rfl⟩ := Option.map_eq_some_iff.mp taken
    exact .inl ⟨rfl,rfl⟩
  | createSaleReturn data =>
    obtain ⟨r,created,rfl⟩ := Option.map_eq_some_iff.mp taken
    obtain ⟨items,accepted⟩ := createSaleReturn_ok (toOption_eq_some.mp created)
    have parts : itemsFor s id (.createSaleReturn data) = items.filter fun item => item.saleLineId = some id := by
      rw [itemsFor,accepted.prepared]
      rfl
    rw [parts,alreadyReturned_snoc,accepted.lines,stored_tally,stored_tally,stored_tally]
    rcases prepareLines_once found accepted.positive.2 rfl separate accepted.prepared with none | ⟨item,only,prorates⟩
    · rw [none]
      simp
    · obtain ⟨first,second⟩ := prorates.scaled discount tax
      rw [only]
      refine .inr ⟨item,rfl,prorates,?_⟩
      simp [ReturnedAmounts.add,Prepared.store,Decimal.quantize_of_mem_grid first,Decimal.quantize_of_mem_grid second]

theorem Returned.parts (returned : Returned id s t items) (found : s.line id = some original)
    (fresh : ∀ line ∈ returnedLines s, line.saleLineId ≠ some id) :
    t.line id = some original ∧ Parts original items (alreadyReturnedAmounts t id) := by
  induction returned with
  | start =>
    have nothing : alreadyReturnedAmounts s id = ⟨0,0,0⟩ := by simp only [alreadyReturnedAmounts,tally_eq_zero fresh]
    rw [nothing]
    exact ⟨found,.none⟩
  | next _ separate taken earlier =>
    obtain ⟨here,parts⟩ := earlier
    refine ⟨line_of_next here taken,?_⟩
    rcases parts_of_next here separate taken parts.summed.discountScaled parts.summed.taxScaled with
      ⟨none,same⟩ | ⟨item,only,prorates,added⟩
    · rw [none,same,List.append_nil]
      exact parts
    · rw [only,added]
      exact .more parts prorates

end Run

section Cases

private def collect (id : LineId) : List Action → State → List Prepared → Option (State × List Prepared)
  | [],s,items => some (s,items)
  | action :: rest,s,items => (next s action).bind fun t => collect id rest t (items ++ itemsFor s id action)

private theorem collect_returned {id : LineId} {s : State} {result : State × List Prepared} (actions : List Action) :
    ∀ {t : State} {items : List Prepared}, Returned id s t items → (∀ action ∈ actions, Separate id action) →
      collect id actions t items = some result → Returned id s result.1 result.2 := by
  induction actions with
  | nil =>
    intro t items returned _ done
    cases done
    exact returned
  | cons action rest induction =>
    intro t items returned separate done
    obtain ⟨u,taken,done⟩ := Option.bind_eq_some_iff.mp done
    obtain ⟨first,separate⟩ := List.forall_mem_cons.mp separate
    exact induction (.next returned first taken) separate done

private def sold (qty unitPrice discountAmount taxAmount : ℚ) (positive : 0 < qty) (nonneg : 0 ≤ unitPrice)
    (charged : 0 ≤ discountAmount ∧ 0 ≤ taxAmount)
    (scaled : unitPrice ∈ Decimal.grid 2 ∧ discountAmount ∈ Decimal.grid 2 ∧ taxAmount ∈ Decimal.grid 2) : SaleLine :=
  ⟨1,none,qty,unitPrice,discountAmount,taxAmount,positive,nonneg,charged.1,charged.2,scaled.1,scaled.2.1,scaled.2.2⟩

private def after (line : SaleLine) : State := ⟨[⟨1,some 1,.completed,[line],[]⟩],[]⟩

private def part (qty : ℚ) : Action := .createSaleReturn ⟨1,none,none,[⟨some ⟨0,0⟩,none,none,qty,none,none⟩],[]⟩

private def summary (result : State × List Prepared) : ℚ × List ℚ × ℚ × ℚ :=
  ((alreadyReturnedAmounts result.1 ⟨0,0⟩).qty,result.2.map Prepared.qty,(result.2.map Prepared.discount).sum,
    (result.2.map Prepared.refund).sum)

private theorem returned_in (line : SaleLine) (quantities : List ℚ) (view : ℚ × List ℚ × ℚ × ℚ)
    (run : (collect ⟨0,0⟩ (quantities.map part) (after line) []).map summary = some view) :
    ∃ t items, Returned ⟨0,0⟩ (after line) t items ∧ summary (t,items) = view := by
  obtain ⟨⟨t,items⟩,done,same⟩ := Option.map_eq_some_iff.mp run
  refine ⟨t,items,collect_returned _ .start (List.forall_mem_map.mpr fun qty _ => ?_) done,same⟩
  simp [Separate,part]

private def thirds : SaleLine := sold 3 20 10 1 (by norm_num) (by norm_num) (by norm_num) (by decide +kernel)

private def fiveOff : SaleLine := sold 10 1 0.05 0 (by norm_num) (by norm_num) (by norm_num) (by decide +kernel)

private def oneCent : SaleLine := sold 1 0.01 0 0 (by norm_num) (by norm_num) (by norm_num) (by decide +kernel)

end Cases

end Refunds
