import SasBackend.Consumption

/-! What a production takes of its ingredients, against what its bill of materials asks for.
-/
namespace Stock
open SasBackend Program
open Pricing (context)

variable {s t : Store}

/-- The requirement of one unit as the bill of materials states it. -/
def BomLine.unitRequirement (line : BomLine) (outputQty : ℚ) : ℚ := line.qtyRequired / outputQty * (1 + line.wastagePct / 100)

/-- A quantity is within one rounding to two places of what is required, and not nothing for 0.005 or more. -/
def Accurate (taken required : ℚ) : Prop := |taken - required| ≤ 1/200 ∧ (1/200 ≤ required → 0 < taken)

/-- As near as half a hundredth, up to the 26th digit: a value in the middle has one such neighbour on either side. -/
def NearestHundredth (hundredths value : ℚ) : Prop :=
  hundredths ∈ Decimal.grid 2 ∧ |hundredths - value| ≤ 1/200 + value / 10 ^ 26

/-- Whether so many units are taken at the requirement of one or at its nearest hundredth, no half hundredth lies between, and a
requirement of 0.005 in all is not taken for less. -/
def RoundsAlike (unit qty : ℚ) : Prop := ∀ hundredths, NearestHundredth hundredths unit →
  ¬Decimal.Separated 2 (context (hundredths * qty)) (unit * qty) ∧ (unit * qty = 1/200 → 1/200 < context (hundredths * qty))

/-- Not in the middle between two hundredths, nor so near to it that the 26th digit tells. -/
def Decided (value : ℚ) : Prop := ∀ middle, Decimal.Tie 2 middle → value / 10 ^ 26 < |value - middle|

theorem round2HalfEven_pos {value : ℚ} (cent : 1/200 < value) : 0 < round2HalfEven value := by
  have near := abs_le.mp (Decimal.abs_quantizeHalfEven_sub_le 2 value)
  have half : Decimal.unit 2 / 2 = 1/200 := by norm_num [Decimal.unit]
  rw [half] at near
  unfold round2HalfEven
  linarith

theorem round2HalfEven_nonpos {value : ℚ} (small : value ≤ 1/200) : round2HalfEven value ≤ 0 := by
  have rounded : round2HalfEven (1/200) = 0 := by decide +kernel
  exact (Decimal.quantizeHalfEven_mono small).trans_eq rounded

theorem accurate_iff (value required : ℚ) : Accurate (round2HalfEven value) required ↔
    ¬Decimal.Separated 2 value required ∧ (required = 1/200 → 1/200 < value) := by
  have half : Decimal.unit 2 / 2 = 1/200 := by norm_num [Decimal.unit]
  have near : |round2HalfEven value - required| ≤ 1/200 ↔ ¬Decimal.Separated 2 value required := by
    rw [← half]
    exact Decimal.quantizeHalfEven_near_iff
  rw [Accurate,near]
  apply and_congr_right
  intro together
  constructor
  · intro taken same
    by_contra small
    exact absurd (taken same.ge) (round2HalfEven_nonpos (not_lt.mp small)).not_gt
  · intro above cent
    rcases cent.lt_or_eq with more | same
    · have close := (abs_le.mp (near.mpr together)).1
      linarith
    · exact round2HalfEven_pos (above same.symm)

/-- A value that is not in the middle has one nearest hundredth. -/
theorem NearestHundredth.unique {value first second : ℚ} (decided : Decided value) (one : NearestHundredth first value)
    (other : NearestHundredth second value) : first = second := by
  have apart {low high : ℚ} (lower : NearestHundredth low value) (upper : NearestHundredth high value) : ¬low < high := by
    intro less
    obtain ⟨m,rfl⟩ := Decimal.mem_grid.mp lower.1
    obtain ⟨n,rfl⟩ := Decimal.mem_grid.mp upper.1
    have digits : m + 1 ≤ n := by
      have scaled := (div_lt_div_iff_of_pos_right (by norm_num : (0 : ℚ) < 10 ^ 2)).mp less
      exact_mod_cast scaled
    have step : (m : ℚ) / 10 ^ 2 + 1/100 ≤ n / 10 ^ 2 := by
      have digits : (m : ℚ) + 1 ≤ n := by exact_mod_cast digits
      linarith
    have middle : Decimal.Tie 2 ((m : ℚ) / 10 ^ 2 + 1/200) := ⟨m + 1,by push_cast; ring⟩
    have near := decided _ middle
    obtain ⟨above,-⟩ := abs_le.mp lower.2
    obtain ⟨-,below⟩ := abs_le.mp upper.2
    exact absurd near (not_lt.mpr (abs_le.mpr ⟨by linarith,by linarith⟩))
  rcases lt_trichotomy first second with less | same | more
  · exact absurd less (apart one other)
  · exact same
  · exact absurd more (apart other one)

/-- The four operations before the rounding of the unit's requirement leave it right to the 26th digit. -/
theorem perUnit_nearest {line : BomLine} {outputQty : ℚ} (made : 0 < outputQty) (required : 0 < line.qtyRequired)
    (wastage : 0 ≤ line.wastagePct) : NearestHundredth (perUnit line outputQty) (line.unitRequirement outputQty) := by
  open SignificantDigits in
  have wasted : 0 ≤ line.wastagePct / 100 := by positivity
  have ratio := within_rounded 28 (line.qtyRequired / outputQty)
  have share : Within (5 / 10 ^ 28 + 5 / 10 ^ 28 + 5 / 10 ^ 28 * (5 / 10 ^ 28)) _ _ :=
    (within_rounded 28 _).trans ((within_rounded 28 (line.wastagePct / 100)).add_left (s := 1) (by norm_num) wasted (by norm_num))
      (by norm_num)
  have product := (within_rounded 28 _).trans (ratio.mul share (by norm_num)) (by norm_num)
  have close : Within (1 / 10 ^ 26) _ (line.unitRequirement outputQty) := product.mono (by norm_num)
  have positive : 0 ≤ line.unitRequirement outputQty := by
    unfold BomLine.unitRequirement
    positivity
  have half : Decimal.unit 2 / 2 = 1/200 := by norm_num [Decimal.unit]
  refine ⟨Decimal.quantizeHalfEven_mem_grid 2 _,?_⟩
  rw [Within,abs_of_nonneg positive] at close
  have rounding := Decimal.abs_quantizeHalfEven_sub_le 2
    (context (context (line.qtyRequired / outputQty) * context (1 + context (line.wastagePct / 100))))
  rw [abs_sub_comm,half] at rounding
  have sum := abs_sub_le (perUnit line outputQty)
    (context (context (line.qtyRequired / outputQty) * context (1 + context (line.wastagePct / 100)))) (line.unitRequirement outputQty)
  unfold perUnit round2HalfEven context at *
  linarith

theorem accurate_of_alike {line : BomLine} {outputQty qtyToProduce : ℚ} (made : 0 < outputQty) (required : 0 < line.qtyRequired)
    (wastage : 0 ≤ line.wastagePct) :
    (RoundsAlike (line.unitRequirement outputQty) qtyToProduce →
      Accurate (computeIngredientQtyForProduction line outputQty qtyToProduce) (line.unitRequirement outputQty * qtyToProduce)) ∧
    (Decided (line.unitRequirement outputQty) →
      Accurate (computeIngredientQtyForProduction line outputQty qtyToProduce) (line.unitRequirement outputQty * qtyToProduce) →
        RoundsAlike (line.unitRequirement outputQty) qtyToProduce) := by
  have nearest := perUnit_nearest made required wastage
  constructor
  · intro alike
    exact (accurate_iff _ _).mpr (alike _ nearest)
  · intro decided accurate hundredths near
    rw [near.unique decided nearest]
    exact (accurate_iff _ _).mp accurate

/-- Rows of a completion that take an ingredient. -/
def Consumes (branchId : Nat) (line : BomLine) (qty : ℚ) (rows : List StockMovement) : Prop :=
  (∀ m ∈ rows, m.val.position = ⟨branchId,line.ingredientProductId,line.ingredientVariationId⟩ ∧ m.val.movementType = .productionOut) ∧
    taken rows = max qty 0

theorem ends_ingredient_rows {branchId : Nat} {line : BomLine} {qty : ℚ} {allowNegative : Bool} {now : Int} (scaled : qty ∈ Decimal.grid 4) :
    Ends (if qty ≤ 0 then pure 0
      else consumeIngredientFifo ⟨⟨branchId,line.ingredientProductId,line.ingredientVariationId⟩,qty⟩ allowNegative now : Tx ℚ) s
      fun _ t => ∃ rows, Moved s t rows ∧ Consumes branchId line qty rows := by
  split
  · next none => exact ends_pure ⟨[],moved_refl s,by simp,by simp [taken,none]⟩
  · next some_ =>
    have positive : 0 < qty := not_le.mp some_
    have consumed : Ends (consumeToMovements ⟨⟨branchId,line.ingredientProductId,line.ingredientVariationId⟩,qty⟩ .productionOut
        .productionLine now >>= fun allocation => pure (allocation.slices.map fun slice => slice.qty * slice.costPerUnit).sum) s
        fun _ t => ∃ rows, Moved s t rows ∧ Consumes branchId line qty rows := by
      refine .bind ((ends_consumeToMovements_taken positive.le scaled).mono fun _ t wrote => ends_pure ?_)
      obtain ⟨rows,moved,each,sum⟩ := wrote
      exact ⟨rows,moved,each,sum.trans (max_eq_left positive.le).symm⟩
    refine .bind ((ends_locks _).mono fun _ u same => ?_)
    subst same
    dsimp only
    split
    · exact consumed
    · refine .bind (ends_checkSufficientStock.mono fun _ v same => .bind (ends_require fun _ => ?_))
      subst same
      exact consumed

/-- The lines up to some point have been taken, each by its rows. -/
def Consuming (s : Store) (branchId : Nat) (bom : Bom) (qtyProduced : ℚ) (later : List BomLine) (_ : List ℚ) (t : Store) : Prop :=
  ∃ earlier rows, bom.lines = earlier ++ later ∧ Moved s t rows.flatten ∧
    List.Forall₂ (fun line rows => Consumes branchId line (computeIngredientQtyForProduction line bom.outputQty qtyProduced) rows)
      earlier rows

theorem consuming_start (s : Store) (branchId : Nat) (bom : Bom) (qtyProduced : ℚ) :
    Consuming s branchId bom qtyProduced bom.lines [] s :=
  ⟨[],[],by simp,moved_refl s,.nil⟩

/-- A completion takes of each ingredient what the bill of materials is computed to need, and brings in the product. -/
theorem ends_completeProductionOrder_rows (id : Nat) (qtyProduced : ℚ) (now : Int) :
    Ends (completeProductionOrder id qtyProduced now) s fun _ t => ∃ order bom rows finished,
      s.productionOrders[id]? = some order ∧ s.boms[order.bomHeaderId]? = some bom ∧
        t.movements = s.movements ++ rows.flatten ++ [finished] ∧
        List.Forall₂ (fun line rows => Consumes order.branchId line
          (computeIngredientQtyForProduction line bom.outputQty qtyProduced) rows) bom.lines rows := by
  refine .bind (ends_require fun positive => .bind (ends_found fun order known => .bind (ends_require fun _ => .bind (ends_require fun _ => ?_))))
  refine .bind (ends_found fun bom made => .bind (ends_require fun _ => .bind (ends_get (.bind ?_))))
  refine (ends_mapM (Consuming s order.branchId bom qtyProduced) ?_ (consuming_start s order.branchId bom qtyProduced)).mono
    fun costs t first => ?_
  · rintro line later results t ⟨earlier,rows,split_,moved,each⟩
    have scaled : computeIngredientQtyForProduction line bom.outputQty qtyProduced ∈ Decimal.grid 4 :=
      Decimal.grid_mono (by decide) (Decimal.quantizeHalfEven_mem_grid 2 _)
    refine (ends_ingredient_rows scaled).mono fun _ u wrote => ?_
    obtain ⟨more,next_,consumes⟩ := wrote
    refine ⟨earlier ++ [line],rows ++ [more],by simp [split_],?_,?_⟩
    · rw [List.flatten_append,List.flatten_singleton]
      exact moved.trans next_
    · exact List.rel_append each (.cons consumes .nil)
  · obtain ⟨earlier,rows,whole,moved,each⟩ := first
    rw [List.append_nil] at whole
    rw [← whole] at each
    refine .bind ((ends_receiveIntoNewLayer_row _).mono fun _ u received => ?_)
    obtain ⟨layer,m,-,-,rfl⟩ := received
    refine ends_put ⟨order,bom,rows,m,known,made,?_,each⟩
    rw [← moved.parts.1]
    rfl

/-- The computed quantity, which is what a completion takes of each ingredient, is accurate where taking hundredths of one unit
makes no difference, and only there unless one unit needs an odd number of half hundredths. -/
theorem materials_accurate {line : BomLine} {outputQty : ℚ} (made : 0 < outputQty) (required : 0 < line.qtyRequired)
    (wastage : 0 ≤ line.wastagePct) (qtyToProduce : ℚ) :
    (RoundsAlike (line.unitRequirement outputQty) qtyToProduce →
      Accurate (computeIngredientQtyForProduction line outputQty qtyToProduce) (line.unitRequirement outputQty * qtyToProduce)) ∧
    (Decided (line.unitRequirement outputQty) →
      Accurate (computeIngredientQtyForProduction line outputQty qtyToProduce) (line.unitRequirement outputQty * qtyToProduce) →
        RoundsAlike (line.unitRequirement outputQty) qtyToProduce) ∧
      ∀ (id : Nat) (qtyProduced : ℚ) (now : Int) (s t : Store), run (completeProductionOrder id qtyProduced now) s = .ok ((),t) →
        ∃ order bom rows finished, s.productionOrders[id]? = some order ∧ s.boms[order.bomHeaderId]? = some bom ∧
          t.movements = s.movements ++ rows.flatten ++ [finished] ∧
          List.Forall₂ (fun line rows => Consumes order.branchId line
            (computeIngredientQtyForProduction line bom.outputQty qtyProduced) rows) bom.lines rows :=
  have ⟨enough,only⟩ := accurate_of_alike made required wastage
  ⟨enough,only,fun id qtyProduced now _ t ran => ends_completeProductionOrder_rows id qtyProduced now () t ran⟩

/-- A kilogram of flour for each of four loaves. -/
theorem materials_accurate_loaves :
    Accurate (computeIngredientQtyForProduction ⟨1,none,4,0⟩ 4 3) (BomLine.unitRequirement ⟨1,none,4,0⟩ 4 * 3) := by
  refine (@materials_accurate ⟨1,none,4,0⟩ 4 (by norm_num) (by norm_num) (by norm_num) 3).1 ?_
  have unit : BomLine.unitRequirement ⟨1,none,4,0⟩ 4 = 1 := by norm_num [BomLine.unitRequirement]
  have whole : NearestHundredth 1 1 := ⟨by decide +kernel,by norm_num⟩
  have decided : Decided 1 := by
    rintro middle ⟨n,same⟩
    rcases le_or_gt n 100 with low | high
    · have low : (n : ℚ) ≤ 100 := by exact_mod_cast low
      rw [lt_abs]
      left
      linarith
    · have high : (101 : ℚ) ≤ n := by exact_mod_cast high
      rw [lt_abs]
      right
      linarith
  intro hundredths near
  rw [unit] at near ⊢
  rw [near.unique decided whole]
  exact ⟨Decimal.quantizeHalfEven_near_iff.mp (by decide +kernel),by norm_num⟩

/-- A third of a unit for each piece: right for one, 33 for a hundred, and a hundredth of that for none at all. And of a unit that needs
0.275 in the end, 0.27 is taken, the quotient 1.1/7 having been cut off: for 0.9 of it 0.24 instead of 0.2475. -/
theorem materials_inaccurate :
    Accurate (computeIngredientQtyForProduction ⟨1,none,1,0⟩ 3 1) (BomLine.unitRequirement ⟨1,none,1,0⟩ 3) ∧
      computeIngredientQtyForProduction ⟨1,none,1,0⟩ 3 100 = 33 ∧ BomLine.unitRequirement ⟨1,none,1,0⟩ 3 * 100 = 100/3 ∧
      ¬Accurate (computeIngredientQtyForProduction ⟨1,none,1,0⟩ 3 100) (BomLine.unitRequirement ⟨1,none,1,0⟩ 3 * 100) ∧
      computeIngredientQtyForProduction ⟨1,none,0.01,0⟩ 3 1000 = 0 ∧ BomLine.unitRequirement ⟨1,none,0.01,0⟩ 3 * 1000 = 10/3 ∧
      computeIngredientQtyForProduction ⟨1,none,1.1,75⟩ 7 0.9 = 0.24 ∧ BomLine.unitRequirement ⟨1,none,1.1,75⟩ 7 * 0.9 = 0.2475 ∧
      ¬Accurate (computeIngredientQtyForProduction ⟨1,none,1.1,75⟩ 7 0.9) (BomLine.unitRequirement ⟨1,none,1.1,75⟩ 7 * 0.9) := by
  unfold Accurate
  decide +kernel

end Stock
