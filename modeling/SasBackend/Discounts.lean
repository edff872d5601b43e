import SasBackend.Library.Outcome
import SasBackend.Library.Remainders
import SasBackend.Semantics.Discounts
import Mathlib.Algebra.BigOperators.Group.List.Basic
import Mathlib.Algebra.Order.BigOperators.Group.List
import Mathlib.Algebra.BigOperators.Ring.List
import Mathlib.Algebra.Group.Submonoid.BigOperators
import Mathlib.Data.List.Nodup

/-! A fixed discount over the lines it is for: what the rounded shares leave to the last of them.
-/
namespace Discounts

/-- What the loop over the eligible lines gives them, in their order. -/
def amounts (totalDiscount eligibleSubtotal : ℚ) : List ℚ → ℚ → List ℚ
  | [],_ => []
  | [last],allocated => [min (round2 (totalDiscount - allocated)) last]
  | subtotal :: next :: rest,allocated =>
    let discount := round2 (totalDiscount * subtotal / eligibleSubtotal)
    min discount subtotal :: amounts totalDiscount eligibleSubtotal (next :: rest) (allocated + discount)

/-- The results with the given amounts in the given places, which were empty before. -/
structure Written (results : List LineDiscount) (places : List Nat) (values : List ℚ) (final : List LineDiscount) : Prop where
  length : final.length = results.length
  kept : ∀ place, place ∉ places → final[place]? = results[place]?
  written : ∀ place value, (place,value) ∈ places.zip values → final[place]? = some ⟨0,value⟩
  sum : (final.map LineDiscount.discountAmount).sum = (results.map LineDiscount.discountAmount).sum + values.sum

theorem Written.nil (results : List LineDiscount) : Written results [] [] results :=
  ⟨rfl,fun _ _ => rfl,nofun,by simp⟩

theorem Written.cons {results final : List LineDiscount} {place : Nat} {places : List Nat} {value : ℚ} {values : List ℚ}
    (blank : results[place]? = some ⟨0,0⟩) (fresh : place ∉ places)
    (rest : Written (results.set place ⟨0,value⟩) places values final) :
    Written results (place :: places) (value :: values) final := by
  obtain ⟨inside,empty⟩ := List.getElem?_eq_some_iff.mp blank
  refine ⟨by rw [rest.length,List.length_set],fun other absent => ?_,fun other amount member => ?_,?_⟩
  · obtain ⟨apart,absent⟩ := not_or.mp (List.mem_cons.not.mp absent)
    rw [rest.kept other absent,List.getElem?_set_ne (Ne.symm apart)]
  · rw [List.zip_cons_cons,List.mem_cons] at member
    obtain same | member := member
    · obtain ⟨rfl,rfl⟩ := Prod.mk.inj same
      rw [rest.kept other fresh,List.getElem?_set_self inside]
    · exact rest.written other amount member
  · have bound : place < (results.map LineDiscount.discountAmount).length := by rwa [List.length_map]
    rw [rest.sum,List.map_set,List.sum_set',dif_pos bound,List.getElem_map,empty,List.sum_cons]
    ring

section Loop

variable {totalDiscount eligibleSubtotal : ℚ} {subtotals : List ℚ}

theorem lineDiscount_false (totalDiscount allocated lineTotal : ℚ) (nonzero : eligibleSubtotal ≠ 0) :
    lineDiscount totalDiscount allocated lineTotal eligibleSubtotal false =
      .ok (round2 (totalDiscount * lineTotal / eligibleSubtotal)) := by
  simp only [lineDiscount,divide,if_neg nonzero]
  rfl

theorem allocate_written (totalDiscount : ℚ) (subtotals : List ℚ) (indices : List Nat) : ∀ (allocated : ℚ) (results : List LineDiscount),
    (eligibleSubtotal ≠ 0 ∨ indices.length ≤ 1) → indices.Nodup →
    (∀ index ∈ indices, results[index]? = some ⟨0,0⟩) →
    ∃ final, allocate totalDiscount eligibleSubtotal subtotals indices allocated results = .ok final ∧
      Written results indices (amounts totalDiscount eligibleSubtotal (indices.map (subtotals.getD · 0)) allocated) final := by
  induction indices with
  | nil => exact fun _ results _ _ _ => ⟨results,rfl,.nil results⟩
  | cons index rest induction =>
    intro allocated results divisible distinct blank
    obtain ⟨fresh,distinct⟩ := List.nodup_cons.mp distinct
    have later (value : ℚ) : ∀ other ∈ rest, (results.set index ⟨0,value⟩)[other]? = some ⟨0,0⟩ := by
      intro other member
      have apart : index ≠ other := by
        rintro rfl
        exact fresh member
      rw [List.getElem?_set_ne apart]
      exact blank other (List.mem_cons_of_mem _ member)
    cases rest with
    | nil =>
      exact ⟨_,rfl,.cons (blank index List.mem_cons_self) fresh (.nil _)⟩
    | cons next more =>
      have nonzero : eligibleSubtotal ≠ 0 := by
        obtain nonzero | short := divisible
        · exact nonzero
        · simp at short
      have one := lineDiscount_false totalDiscount allocated (subtotals.getD index 0) nonzero
      obtain ⟨final,done,written⟩ := induction (allocated + round2 (totalDiscount * subtotals.getD index 0 / eligibleSubtotal))
        _ (.inl nonzero) distinct (later _)
      refine ⟨final,?_,.cons (blank index List.mem_cons_self) fresh written⟩
      rw [allocate,List.isEmpty_cons,one]
      exact done

theorem allocate_worthless {index next : Nat} {rest : List Nat} {allocated : ℚ} {results : List LineDiscount} :
    allocate 0 0 subtotals (index :: next :: rest) allocated results = .error .invalidOperation := by
  simp only [allocate,List.isEmpty_cons,lineDiscount,divide,zero_mul,if_true]
  rfl

end Loop

/-- The exact share of a line. -/
def share (totalDiscount eligibleSubtotal subtotal : ℚ) : ℚ := totalDiscount * subtotal / eligibleSubtotal

/-- What the lines before the last one get. -/
def early (totalDiscount eligibleSubtotal : ℚ) (subtotals : List ℚ) : ℚ :=
  (subtotals.dropLast.map fun subtotal => round2 (share totalDiscount eligibleSubtotal subtotal)).sum

section Amounts

variable {totalDiscount eligibleSubtotal : ℚ}

theorem share_bounded {subtotal : ℚ} (nonneg : 0 ≤ totalDiscount) (within : totalDiscount ≤ eligibleSubtotal)
    (scaled : subtotal ∈ Decimal.grid 2) (positive : 0 ≤ subtotal) :
    0 ≤ round2 (share totalDiscount eligibleSubtotal subtotal) ∧
      round2 (share totalDiscount eligibleSubtotal subtotal) ≤ subtotal := by
  have whole : 0 ≤ eligibleSubtotal := nonneg.trans within
  have upper : share totalDiscount eligibleSubtotal subtotal ≤ subtotal := by
    refine div_le_of_le_mul₀ whole positive ?_
    rw [mul_comm subtotal]
    exact mul_le_mul_of_nonneg_right within positive
  exact ⟨Decimal.quantizeHalfEven_nonneg (by unfold share; positivity),Decimal.quantizeHalfEven_le scaled upper⟩

/-- The amounts are exact where the last line can take what the others leave. -/
theorem amounts_exact_iff (subtotals : List ℚ) (nonneg : 0 ≤ totalDiscount) (within : totalDiscount ≤ eligibleSubtotal)
    (total : totalDiscount ∈ Decimal.grid 2) : ∀ (some_ : subtotals ≠ []) (allocated : ℚ), allocated ∈ Decimal.grid 2 →
    (∀ subtotal ∈ subtotals, subtotal ∈ Decimal.grid 2 ∧ 0 ≤ subtotal) →
    let remainder := totalDiscount - allocated - early totalDiscount eligibleSubtotal subtotals
    ((∀ pair ∈ subtotals.zip (amounts totalDiscount eligibleSubtotal subtotals allocated), 0 ≤ pair.2 ∧ pair.2 ≤ pair.1) ↔
        0 ≤ remainder) ∧
      (amounts totalDiscount eligibleSubtotal subtotals allocated).sum =
        early totalDiscount eligibleSubtotal subtotals + min remainder (subtotals.getLast some_) := by
  induction subtotals with
  | nil => exact fun absent => absurd rfl absent
  | cons subtotal rest induction =>
    intro _ allocated inside priced
    obtain ⟨scaled,positive⟩ := priced subtotal List.mem_cons_self
    cases rest with
    | nil =>
      have exact_ : round2 (totalDiscount - allocated) = totalDiscount - allocated :=
        Decimal.quantizeHalfEven_of_mem_grid (sub_mem total inside)
      simp [amounts,early,exact_,positive]
    | cons next more =>
      obtain ⟨low,high⟩ := share_bounded nonneg within scaled positive
      have moved : allocated + round2 (share totalDiscount eligibleSubtotal subtotal) ∈ Decimal.grid 2 :=
        add_mem inside (Decimal.quantizeHalfEven_mem_grid 2 _)
      obtain ⟨bounds,sum⟩ := induction (List.cons_ne_nil _ _) _ moved fun other member =>
        priced other (List.mem_cons_of_mem _ member)
      have opened : early totalDiscount eligibleSubtotal (subtotal :: next :: more) =
          round2 (share totalDiscount eligibleSubtotal subtotal) + early totalDiscount eligibleSubtotal (next :: more) := by
        simp [early]
      have left : totalDiscount - allocated - early totalDiscount eligibleSubtotal (subtotal :: next :: more) =
          totalDiscount - (allocated + round2 (share totalDiscount eligibleSubtotal subtotal)) -
            early totalDiscount eligibleSubtotal (next :: more) := by
        rw [opened]
        ring
      have first : amounts totalDiscount eligibleSubtotal (subtotal :: next :: more) allocated =
          round2 (share totalDiscount eligibleSubtotal subtotal) :: amounts totalDiscount eligibleSubtotal (next :: more)
            (allocated + round2 (share totalDiscount eligibleSubtotal subtotal)) :=
        congrArg (· :: _) (min_eq_left high)
      simp only [left,first]
      constructor
      · rw [List.zip_cons_cons,List.forall_mem_cons,bounds]
        simp [low,high]
      · rw [List.sum_cons,sum,opened,List.getLast_cons (List.cons_ne_nil _ _)]
        ring

end Amounts

section Scheme

variable {scheme : DiscountScheme} {categoryOf : Nat → Option Nat} {lines : List SaleLineInput}

/-- The subtotals of the lines the scheme is for. -/
def eligibleSubtotals (scheme : DiscountScheme) (categoryOf : Nat → Option Nat) (lines : List SaleLineInput) : List ℚ :=
  (lines.filter (eligible scheme categoryOf)).map fun line => lineSubtotal line.qty line.unitPrice

theorem mem_eligibleIndices {index : Nat} :
    index ∈ eligibleIndices scheme categoryOf lines ↔ ∃ line, lines[index]? = some line ∧ eligible scheme categoryOf line := by
  simp only [eligibleIndices,List.mem_map,List.mem_filter]
  constructor
  · rintro ⟨⟨line,place⟩,⟨member,chosen⟩,rfl⟩
    exact ⟨line,List.mem_zipIdx_iff_getElem?.mp member,chosen⟩
  · rintro ⟨line,here,chosen⟩
    exact ⟨(line,index),⟨List.mem_zipIdx_iff_getElem?.mpr here,chosen⟩,rfl⟩

theorem eligibleIndices_nodup : (eligibleIndices scheme categoryOf lines).Nodup := by
  have all : (lines.zipIdx.map Prod.snd).Nodup := by
    rw [List.zipIdx_map_snd]
    exact List.nodup_range'
  exact all.sublist (List.filter_sublist.map Prod.snd)

theorem eligibleIndices_map :
    (eligibleIndices scheme categoryOf lines).map ((lines.map fun line => lineSubtotal line.qty line.unitPrice).getD · 0) =
      eligibleSubtotals scheme categoryOf lines := by
  have filtered : (lines.zipIdx.filter fun entry => eligible scheme categoryOf entry.1).map Prod.fst =
      lines.filter (eligible scheme categoryOf) := by
    conv_rhs => rw [← List.zipIdx_map_fst 0 lines,List.filter_map]
    rfl
  rw [eligibleSubtotals,← filtered,eligibleIndices,List.map_map,List.map_map]
  refine List.map_congr_left fun entry member => ?_
  have here := List.mem_zipIdx_iff_getElem?.mp (List.mem_of_mem_filter member)
  simp [here]

theorem eligibleSubtotals_priced (sold : ∀ line ∈ lines, 0 < line.qty ∧ 0 ≤ line.unitPrice) :
    ∀ subtotal ∈ eligibleSubtotals scheme categoryOf lines, subtotal ∈ Decimal.grid 2 ∧ 0 ≤ subtotal := by
  intro subtotal member
  obtain ⟨line,chosen,rfl⟩ := List.mem_map.mp member
  obtain ⟨qty,price⟩ := sold line (List.mem_of_mem_filter chosen)
  exact ⟨Decimal.quantizeHalfEven_mem_grid 2 _,Decimal.quantizeHalfEven_nonneg (mul_nonneg qty.le price)⟩

/-- Only the lines the scheme is for get something, none more than it costs, and all together the whole discount. -/
structure Exact (scheme : DiscountScheme) (categoryOf : Nat → Option Nat) (lines : List SaleLineInput)
    (results : List LineDiscount) : Prop where
  length : results.length = lines.length
  bounded : ∀ line discount, (line,discount) ∈ lines.zip results → eligible scheme categoryOf line →
    0 ≤ discount.discountAmount ∧ discount.discountAmount ≤ lineSubtotal line.qty line.unitPrice
  others : ∀ line discount, (line,discount) ∈ lines.zip results → eligible scheme categoryOf line = false → discount = ⟨0,0⟩
  sum : (results.map LineDiscount.discountAmount).sum =
    min scheme.discountValue (eligibleSubtotals scheme categoryOf lines).sum

/-- The exact shares of the lines before the last one, in cents. -/
def earlyShares (totalDiscount eligibleSubtotal : ℚ) (subtotals : List ℚ) : List ℚ :=
  subtotals.dropLast.map fun subtotal => share totalDiscount eligibleSubtotal subtotal * 100

/-- There is something to divide by. The fractions of a cent in the shares of the lines before the last one make up, with the last
line's share, a cent for every share that counts up, and beyond these no more than the last line costs. -/
structure Absorbed (discountValue : ℚ) (subtotals : List ℚ) : Prop where
  divisible : 0 < subtotals.sum ∨ subtotals.length = 1
  enough : (earlyShares (min discountValue subtotals.sum) subtotals.sum subtotals).countP Remainders.toEven ≤
    Remainders.fractions (earlyShares (min discountValue subtotals.sum) subtotals.sum subtotals) +
      share (min discountValue subtotals.sum) subtotals.sum (subtotals.getLastD 0) * 100
  room : Remainders.fractions (earlyShares (min discountValue subtotals.sum) subtotals.sum subtotals) +
      share (min discountValue subtotals.sum) subtotals.sum (subtotals.getLastD 0) * 100 ≤
    (earlyShares (min discountValue subtotals.sum) subtotals.sum subtotals).countP Remainders.toEven + subtotals.getLastD 0 * 100

theorem amounts_length (totalDiscount eligibleSubtotal : ℚ) (subtotals : List ℚ) : ∀ allocated,
    (amounts totalDiscount eligibleSubtotal subtotals allocated).length = subtotals.length := by
  induction subtotals with
  | nil => exact fun _ => rfl
  | cons subtotal rest induction =>
    intro allocated
    cases rest with
    | nil => rfl
    | cons next more => exact congrArg (· + 1) (induction _)

theorem blank_at {index : Nat} {line : SaleLineInput} (here : lines[index]? = some line) :
    (lines.map fun _ => (⟨0,0⟩ : LineDiscount))[index]? = some ⟨0,0⟩ := by
  rw [List.getElem?_map,here]
  rfl

/-- The property of the results is one of the amounts the loop gives out. -/
theorem Written.exact_iff {values : List ℚ} {final : List LineDiscount}
    (written : Written (lines.map fun _ => ⟨0,0⟩) (eligibleIndices scheme categoryOf lines) values final)
    (covers : values.length = (eligibleIndices scheme categoryOf lines).length) :
    Exact scheme categoryOf lines final ↔
      (∀ pair ∈ (eligibleSubtotals scheme categoryOf lines).zip values, 0 ≤ pair.2 ∧ pair.2 ≤ pair.1) ∧
        values.sum = min scheme.discountValue (eligibleSubtotals scheme categoryOf lines).sum := by
  have priceAt {index : Nat} {line : SaleLineInput} (here : lines[index]? = some line) :
      (lines.map fun line => lineSubtotal line.qty line.unitPrice).getD index 0 = lineSubtotal line.qty line.unitPrice := by
    simp [here]
  have total : (final.map LineDiscount.discountAmount).sum = values.sum := by
    rw [written.sum,List.map_map]
    simp [Function.comp_def]
  rw [← eligibleIndices_map,List.zip_map_left,List.forall_mem_map,eligibleIndices_map]
  constructor
  · intro exact_
    refine ⟨?_,total.symm.trans exact_.sum⟩
    rintro ⟨index,value⟩ member
    obtain ⟨line,here,chosen⟩ := mem_eligibleIndices.mp (List.of_mem_zip member).1
    have paired : (line,(⟨0,value⟩ : LineDiscount)) ∈ lines.zip final :=
      List.mem_iff_getElem?.mpr ⟨index,List.getElem?_zip_eq_some.mpr ⟨here,written.written index value member⟩⟩
    have bounded := exact_.bounded line _ paired chosen
    rw [← priceAt here] at bounded
    exact bounded
  · rintro ⟨bounded,sum⟩
    refine ⟨by rw [written.length,List.length_map],fun line discount paired chosen => ?_,fun line discount paired spared => ?_,
      total.trans sum⟩
    · obtain ⟨index,both⟩ := List.mem_iff_getElem?.mp paired
      obtain ⟨here,found⟩ := List.getElem?_zip_eq_some.mp both
      dsimp only at here found
      obtain ⟨place,inside,same⟩ := List.mem_iff_getElem.mp (mem_eligibleIndices.mpr ⟨line,here,chosen⟩)
      have member : (index,values[place]) ∈ (eligibleIndices scheme categoryOf lines).zip values := by
        refine List.mem_iff_getElem.mpr ⟨place,by simp [covers,inside],?_⟩
        simp [same]
      have stored := written.written index _ member
      rw [found,Option.some.injEq] at stored
      have least := bounded _ member
      simp only [Prod.map_fst,Prod.map_snd,id,priceAt here] at least
      rw [stored]
      exact least
    · obtain ⟨index,both⟩ := List.mem_iff_getElem?.mp paired
      obtain ⟨here,found⟩ := List.getElem?_zip_eq_some.mp both
      dsimp only at here found
      have absent : index ∉ eligibleIndices scheme categoryOf lines := by
        intro member
        obtain ⟨other,there,chosen⟩ := mem_eligibleIndices.mp member
        rw [Option.some.inj (here.symm.trans there),chosen] at spared
        cases spared
      rw [written.kept index absent,blank_at here,Option.some.injEq] at found
      exact found.symm

theorem getLastD_eq {subtotals : List ℚ} (some_ : subtotals ≠ []) : subtotals.getLastD 0 = subtotals.getLast some_ := by
  rw [List.getLastD_eq_getLast?,List.getLast?_eq_some_getLast some_]
  rfl

theorem early_cents (totalDiscount eligibleSubtotal : ℚ) (subtotals : List ℚ) :
    early totalDiscount eligibleSubtotal subtotals * 100 + Remainders.fractions (earlyShares totalDiscount eligibleSubtotal subtotals) =
      (subtotals.dropLast.map (share totalDiscount eligibleSubtotal)).sum * 100 +
        (earlyShares totalDiscount eligibleSubtotal subtotals).countP Remainders.toEven := by
  have cents : early totalDiscount eligibleSubtotal subtotals * 100 =
      ((earlyShares totalDiscount eligibleSubtotal subtotals).map fun cents => (Decimal.roundHalfEven cents : ℚ)).sum := by
    rw [early,earlyShares,← List.sum_map_mul_right,List.map_map]
    refine congrArg List.sum (List.map_congr_left fun subtotal _ => ?_)
    simp only [round2,Decimal.quantizeHalfEven,Function.comp_apply]
    norm_num
  have counted := @Remainders.sum_rounded _ id Decimal.roundHalfEven Remainders.toEven
    (earlyShares totalDiscount eligibleSubtotal subtotals) fun _ _ => Remainders.roundHalfEven_eq
  rw [List.map_id] at counted
  rw [cents,counted,earlyShares,List.sum_map_mul_right]

theorem remainder_eq {totalDiscount eligibleSubtotal : ℚ} {subtotals : List ℚ} (some_ : subtotals ≠ [])
    (shared : (subtotals.map (share totalDiscount eligibleSubtotal)).sum = totalDiscount) :
    (totalDiscount - early totalDiscount eligibleSubtotal subtotals) * 100 =
      Remainders.fractions (earlyShares totalDiscount eligibleSubtotal subtotals) +
        share totalDiscount eligibleSubtotal (subtotals.getLastD 0) * 100 -
          (earlyShares totalDiscount eligibleSubtotal subtotals).countP Remainders.toEven := by
  have split_ : (subtotals.map (share totalDiscount eligibleSubtotal)).sum =
      (subtotals.dropLast.map (share totalDiscount eligibleSubtotal)).sum +
        share totalDiscount eligibleSubtotal (subtotals.getLast some_) := by
    conv_lhs => rw [← List.dropLast_append_getLast some_]
    simp
  have cents := early_cents totalDiscount eligibleSubtotal subtotals
  rw [getLastD_eq some_]
  linarith

theorem share_sum {totalDiscount : ℚ} {subtotals : List ℚ} (within : totalDiscount ≤ subtotals.sum) (nonneg : 0 ≤ totalDiscount) :
    (subtotals.map (share totalDiscount subtotals.sum)).sum = totalDiscount := by
  have scaled : (subtotals.map (share totalDiscount subtotals.sum)).sum = totalDiscount * subtotals.sum / subtotals.sum := by
    have factored (subtotal : ℚ) : share totalDiscount subtotals.sum subtotal = totalDiscount / subtotals.sum * subtotal :=
      (div_mul_eq_mul_div ..).symm
    rw [funext factored,List.sum_map_mul_left,List.map_id',div_mul_eq_mul_div]
  rw [scaled]
  rcases eq_or_ne subtotals.sum 0 with worthless | worth
  · rw [worthless,mul_zero,zero_div]
    linarith
  · exact mul_div_cancel_right₀ _ worth

/-- Once there is something to divide by, the amounts are exact where the rounding is absorbed. -/
theorem amounts_absorbed_iff {value : ℚ} {subtotals : List ℚ} (positive : 0 < value) (cents : value ∈ Decimal.grid 2)
    (some_ : subtotals ≠ []) (priced : ∀ subtotal ∈ subtotals, subtotal ∈ Decimal.grid 2 ∧ 0 ≤ subtotal)
    (divisible : 0 < subtotals.sum ∨ subtotals.length = 1) :
    ((∀ pair ∈ subtotals.zip (amounts (min value subtotals.sum) subtotals.sum subtotals 0), 0 ≤ pair.2 ∧ pair.2 ≤ pair.1) ∧
        (amounts (min value subtotals.sum) subtotals.sum subtotals 0).sum = min value subtotals.sum) ↔
      Absorbed value subtotals := by
  have worth : 0 ≤ subtotals.sum := List.sum_nonneg fun subtotal member => (priced subtotal member).2
  have scaled : subtotals.sum ∈ Decimal.grid 2 := list_sum_mem fun subtotal member => (priced subtotal member).1
  have total : 0 ≤ min value subtotals.sum := le_min positive.le worth
  have rounded : min value subtotals.sum ∈ Decimal.grid 2 := by
    rcases min_choice value subtotals.sum with same | same <;> rw [same] <;> assumption
  obtain ⟨bounds,sum⟩ := amounts_exact_iff subtotals total (min_le_right _ _) rounded some_ 0 (zero_mem _) priced
  have remainder := remainder_eq some_ (share_sum (min_le_right value _) total)
  rw [sub_zero] at bounds sum
  rw [bounds,sum,← getLastD_eq some_]
  constructor
  · rintro ⟨gain,whole⟩
    have least : min (min value subtotals.sum - early (min value subtotals.sum) subtotals.sum subtotals) (subtotals.getLastD 0) =
        min value subtotals.sum - early (min value subtotals.sum) subtotals.sum subtotals := by linarith
    rw [min_eq_left_iff] at least
    exact ⟨divisible,by linarith,by linarith⟩
  · rintro ⟨-,enough,room⟩
    have least : min value subtotals.sum - early (min value subtotals.sum) subtotals.sum subtotals ≤ subtotals.getLastD 0 := by
      linarith
    rw [min_eq_left least]
    exact ⟨by linarith,by ring⟩

theorem allocate_fails {indices : List Nat} {prices : List ℚ} {allocated : ℚ} {results : List LineDiscount}
    (many : 2 ≤ indices.length) : allocate 0 0 prices indices allocated results = .error .invalidOperation := by
  match indices with
  | [] | [_] => simp at many
  | _ :: _ :: _ => exact allocate_worthless

variable (sold : ∀ line ∈ lines, 0 < line.qty ∧ 0 ≤ line.unitPrice)
  (chosen : ∃ line ∈ lines, eligible scheme categoryOf line)

include chosen in
theorem eligibleIndices_ne_nil : eligibleIndices scheme categoryOf lines ≠ [] := by
  obtain ⟨line,member,chosen⟩ := chosen
  obtain ⟨index,here⟩ := List.mem_iff_getElem?.mp member
  exact List.ne_nil_of_mem (mem_eligibleIndices.mpr ⟨line,here,chosen⟩)

include sold in
theorem eligibleSubtotals_sum :
    0 ≤ (eligibleSubtotals scheme categoryOf lines).sum ∧ (eligibleSubtotals scheme categoryOf lines).sum ∈ Decimal.grid 2 :=
  ⟨List.sum_nonneg fun subtotal member => (eligibleSubtotals_priced sold subtotal member).2,
    list_sum_mem fun subtotal member => (eligibleSubtotals_priced sold subtotal member).1⟩

include sold chosen in
theorem applyDiscountScheme_fixed (fixed : scheme.discountType = .fixedAmount)
    (minimum : ∀ least, scheme.minPurchaseAmount = some least → least ≤ (eligibleSubtotals scheme categoryOf lines).sum) :
    applyDiscountScheme scheme lines categoryOf =
      allocate (min scheme.discountValue (eligibleSubtotals scheme categoryOf lines).sum)
        (eligibleSubtotals scheme categoryOf lines).sum (lines.map fun line => lineSubtotal line.qty line.unitPrice)
        (eligibleIndices scheme categoryOf lines) 0 (lines.map fun _ => ⟨0,0⟩) := by
  have total : round2 (eligibleSubtotals scheme categoryOf lines).sum = (eligibleSubtotals scheme categoryOf lines).sum :=
    Decimal.quantizeHalfEven_of_mem_grid (eligibleSubtotals_sum sold).2
  have met : ¬ scheme.minPurchaseAmount.any ((eligibleSubtotals scheme categoryOf lines).sum < ·) := by
    cases least : scheme.minPurchaseAmount with
    | none => simp
    | some value => simpa using minimum value least
  have many : (eligibleIndices scheme categoryOf lines).isEmpty = false := by
    simpa using eligibleIndices_ne_nil chosen
  simp only [applyDiscountScheme,many,eligibleIndices_map,total,met,fixed,Bool.false_eq_true,if_false]

/-- What a scheme may give to a line: its percentage, or an amount within what the line costs. -/
def Granted (scheme : DiscountScheme) (categoryOf : Nat → Option Nat) (line : SaleLineInput) (discount : LineDiscount) : Prop :=
  if scheme.discountType = .percentage then
    discount = if eligible scheme categoryOf line then ⟨scheme.discountValue,0⟩ else ⟨0,0⟩
  else discount.discountPct = 0 ∧ discount.discountAmount ≤ max 0 (lineSubtotal line.qty line.unitPrice)

theorem foldl_set (value : LineDiscount) (indices : List Nat) (place : Nat) : ∀ results : List LineDiscount,
    (indices.foldl (fun results index => results.set index value) results)[place]? =
      if place ∈ indices then results[place]?.map fun _ => value else results[place]? := by
  induction indices with
  | nil => simp
  | cons index rest induction =>
    intro results
    rw [List.foldl_cons,induction,List.getElem?_set]
    by_cases same : index = place
    · subst same
      by_cases inside : index < results.length
      · simp [inside]
      · simp [inside]
    · have apart : place ≠ index := Ne.symm same
      simp [same,apart]

/-- No discount of the results is more than the line in its place costs. -/
def Capped (subtotals : List ℚ) (results : List LineDiscount) : Prop :=
  ∀ place discount, results[place]? = some discount →
    discount.discountPct = 0 ∧ discount.discountAmount ≤ max 0 (subtotals.getD place 0)

theorem allocate_capped {totalDiscount eligibleSubtotal : ℚ} {subtotals : List ℚ} (indices : List Nat) :
    ∀ {allocated : ℚ} {results final : List LineDiscount}, Capped subtotals results →
      allocate totalDiscount eligibleSubtotal subtotals indices allocated results = .ok final →
      final.length = results.length ∧ Capped subtotals final := by
  induction indices with
  | nil =>
    intro allocated results final capped done
    cases done
    exact ⟨rfl,capped⟩
  | cons index rest induction =>
    intro allocated results final capped done
    rw [allocate] at done
    obtain ⟨discount,-,done⟩ := Outcome.bind_ok_iff.mp done
    have set : Capped subtotals (results.set index ⟨0,min discount (subtotals.getD index 0)⟩) := by
      intro place given here
      rw [List.getElem?_set] at here
      split at here
      · next same =>
        subst same
        split at here
        · cases here
          exact ⟨rfl,(min_le_right _ _).trans (le_max_right _ _)⟩
        · cases here
      · exact capped place given here
    obtain ⟨length,bounded⟩ := induction set done
    exact ⟨length.trans List.length_set,bounded⟩

/-- Every line gets from an applied scheme what the scheme may give it. -/
theorem applyDiscountScheme_granted {results : List LineDiscount} (applied : applyDiscountScheme scheme lines categoryOf = .ok results)
    {index : Nat} {line : SaleLineInput} (here : lines[index]? = some line) :
    ∃ discount, results[index]? = some discount ∧ Granted scheme categoryOf line discount := by
  unfold applyDiscountScheme at applied
  dsimp only at applied
  split at applied
  · cases applied
  · split at applied
    · cases applied
    · split at applied
      · next percentage =>
        cases applied
        unfold Granted
        rw [foldl_set,blank_at here]
        simp only [percentage,if_true]
        by_cases chosen : eligible scheme categoryOf line
        · rw [if_pos (mem_eligibleIndices.mpr ⟨line,here,chosen⟩),if_pos chosen]
          exact ⟨_,rfl,rfl⟩
        · have absent : index ∉ eligibleIndices scheme categoryOf lines := by
            intro member
            obtain ⟨other,there,found⟩ := mem_eligibleIndices.mp member
            exact chosen (Option.some.inj (here.symm.trans there) ▸ found)
          rw [if_neg absent,if_neg chosen]
          exact ⟨_,rfl,rfl⟩
      · next fixed =>
        have blank : Capped (lines.map fun line => lineSubtotal line.qty line.unitPrice) (lines.map fun _ => ⟨0,0⟩) := by
          intro place discount there
          obtain ⟨_,_,rfl⟩ := List.mem_map.mp (List.mem_of_getElem? there)
          simp
        obtain ⟨length,capped⟩ := allocate_capped _ blank applied
        have inside : index < results.length := by
          rw [length,List.length_map]
          exact (List.getElem?_eq_some_iff.mp here).1
        have stored := List.getElem?_eq_getElem inside
        refine ⟨_,stored,?_⟩
        unfold Granted
        rw [if_neg (by simp [fixed])]
        simpa [here] using capped index _ stored
      · cases applied

end Scheme

private def off (value : ℚ) : DiscountScheme := ⟨.fixedAmount,value,none,none⟩

private def priced (unitPrice : ℚ) : SaleLineInput := ⟨1,unitPrice,0,0,1⟩

end Discounts
