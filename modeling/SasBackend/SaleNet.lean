import SasBackend.SaleStock

/-! What a sale has out is what its lines sold less what came back of them, as long as only tabs that were opened as tabs are filled,
completed or cancelled as tabs, no sale is cancelled again, and the decimals of returns fit their columns.
-/
namespace Stock
open SasBackend Tally Program Transition
open Refunds (LineId SaleLineRequest ReturnLineRequest CreateSaleReturnRequest)

variable {s t : Store} {saleId : Nat} {sale : Sale} {position : Position} {change : Position → ℚ} {data : CreateSaleReturnRequest}

/-- What came back of the lines that a sale sold from a position. -/
def Store.cameBack (s : Store) (saleId : Nat) (sale : Sale) (position : Position) : ℚ :=
  tally (fun entry : SaleLine × Nat => entry.1.position sale.branchId) (fun entry => s.returnedQty ⟨saleId,entry.2⟩) position
    sale.lines.zipIdx

theorem qtyAt_zipIdx (sale : Sale) (position : Position) : sale.qtyAt position =
    tally (fun entry : SaleLine × Nat => entry.1.position sale.branchId) (fun entry => entry.1.stored.qty) position sale.lines.zipIdx := by
  have lines := List.zipIdx_map_fst 0 sale.lines
  rw [Sale.qtyAt]
  nth_rewrite 1 [← lines]
  exact tally_map Prod.fst _

theorem cameBack_eq_zero (none : ∀ index, s.returnedQty ⟨saleId,index⟩ = 0) (sale : Sale) (position : Position) :
    s.cameBack saleId sale position = 0 :=
  (tally_congr fun entry _ => none entry.2).trans (tally_zero _)

theorem cameBack_same (same : ∀ index, t.returnedQty ⟨saleId,index⟩ = s.returnedQty ⟨saleId,index⟩) (sale : Sale) (position : Position) :
    t.cameBack saleId sale position = s.cameBack saleId sale position :=
  tally_congr fun entry _ => same entry.2

/-- What a return brings to a position, line by line of the sale. -/
theorem brought_lines {lines : List ReturnLineRequest} (there : s.sales[saleId]? = some sale)
    (mine : ∀ line ∈ lines, ∀ id, line.saleLineId = some id → id.saleId = saleId) (position : Position) : s.brought lines position =
    tally (fun entry : SaleLine × Nat => entry.1.position sale.branchId)
      (fun entry => tally ReturnLineRequest.saleLineId (fun line => round4 line.qty) (some ⟨saleId,entry.2⟩) lines) position
      sale.lines.zipIdx := by
  induction lines with
  | nil => exact (tally_zero _).symm
  | cons line rest induction =>
    obtain ⟨here,mine⟩ := List.forall_mem_cons.mp mine
    have later := induction mine
    rw [Store.brought] at later
    simp only [Store.brought,tally_cons,later,tally_add]
    congr 1
    cases named : line.saleLineId with
    | none => simp [tally_zero]
    | some id =>
      obtain ⟨other,index⟩ := id
      obtain rfl : other = saleId := here _ named
      have from_ : s.soldFrom ⟨other,index⟩ = sale.lines[index]?.map (·.position sale.branchId) := by rw [Store.soldFrom,there]; rfl
      have place := tally_place (k := position) (SaleLine.position · sale.branchId) (round4 line.qty) sale.lines 0 index
      rw [Nat.zero_add] at place
      rw [Option.bind_some,from_,← place]
      refine tally_congr fun entry _ => ?_
      simp only [Option.some.injEq,LineId.mk.injEq,true_and,eq_comm (a := index)]

theorem ends_prepareLine_room (branchId : Nat) (pending : List ReturnLineRequest) (line : ReturnLineRequest) :
    Ends (prepareLine branchId pending line) s fun _ t => t = s ∧ ∀ id sold, line.saleLineId = some id → s.line id = some sold →
      s.returnedQty id + tally ReturnLineRequest.saleLineId ReturnLineRequest.qty (some id) pending + line.qty ≤ sold.stored.qty := by
  rw [prepareLine]
  split
  · next none => exact ends_pure ⟨rfl,fun id _ named => by rw [none] at named; cases named⟩
  · next id named =>
    refine .bind (ends_found fun original here => .bind (ends_require fun _ => .bind (ends_require fun _ => .bind (ends_get ?_))))
    refine .bind (ends_require fun remaining => ends_pure ⟨rfl,fun other sold mine there => ?_⟩)
    obtain rfl := Option.some.inj (named.symm.trans mine)
    obtain rfl := Option.some.inj (here.symm.trans there)
    have room := of_decide_eq_true remaining
    linarith

/-- What is asked for of a sale line, and what came back of it before, is no more than it sold. -/
theorem ends_prepareLines_room (branchId : Nat) (lines : List ReturnLineRequest) : ∀ pending : List ReturnLineRequest,
    Ends (prepareLines branchId pending lines) s fun _ _ => ∀ id sold, s.line id = some sold →
      (∃ line ∈ lines, line.saleLineId = some id) →
      s.returnedQty id + tally ReturnLineRequest.saleLineId ReturnLineRequest.qty (some id) (pending ++ lines) ≤ sold.stored.qty := by
  induction lines with
  | nil => exact fun _ => ends_pure fun _ _ _ named => by simp at named
  | cons line rest induction =>
    intro pending
    refine .bind ((ends_prepareLine_room branchId pending line).mono fun item t first => ?_)
    obtain ⟨rfl,here⟩ := first
    refine .bind ((induction (pending ++ [line])).mono fun items u others => ends_pure fun id sold there named => ?_)
    by_cases again : ∃ other ∈ rest, other.saleLineId = some id
    · have room := others id sold there again
      rwa [List.append_assoc,List.singleton_append] at room
    · have mine : line.saleLineId = some id := by
        obtain ⟨other,member,same⟩ := named
        rcases List.mem_cons.mp member with rfl | later
        · exact same
        · exact absurd ⟨other,later,same⟩ again
      have none : tally ReturnLineRequest.saleLineId ReturnLineRequest.qty (some id) rest = 0 :=
        tally_eq_zero fun other member same => again ⟨other,member,same⟩
      rw [tally_append,tally_cons,if_pos mine,none,add_zero,← add_assoc]
      exact here id sold mine there

theorem room_createSaleReturn (returnedAt : Int) : Ends (createSaleReturn data returnedAt) s fun _ _ => ∀ id sold,
    s.line id = some sold → (∃ line ∈ data.lines, line.saleLineId = some id) →
      s.returnedQty id + tally ReturnLineRequest.saleLineId ReturnLineRequest.qty (some id) data.lines ≤ sold.stored.qty := by
  refine .bind (ends_require fun _ => .bind (ends_get (.bind (ends_require fun _ => .bind (ends_require fun _ => ?_)))))
  refine .bind ((ends_checkReturnedSale _ _).mono fun _ t checked => ?_)
  obtain ⟨rfl,-⟩ := checked
  exact .bind ((ends_prepareLines_room data.branchId data.lines []).mono fun _ _ room _ _ _ => room)

structure Traced (s : Store) (saleId : Nat) (sale : Sale) : Prop where
  held : sale.status = .held → (∀ position, s.saleNet saleId position = 0) ∧ ∀ index, s.returnedQty ⟨saleId,index⟩ = 0
  billed : billedStatus sale.status = true → ∀ position, s.saleNet saleId position = s.cameBack saleId sale position - sale.qtyAt position

structure Balanced (s : Store) : Prop where
  accounted : Accounted s
  scaled : ∀ id, s.returnedQty id ∈ Decimal.grid 4
  room : ∀ id line, s.line id = some line → s.returnedQty id ≤ line.stored.qty
  sales : ∀ (saleId : Nat) sale, s.sales[saleId]? = some sale → Traced s saleId sale

theorem Filed.returnedQty_unknown (filed : Filed s) (beyond : s.sales.length ≤ saleId) (index : Nat) : s.returnedQty ⟨saleId,index⟩ = 0 := by
  refine tally_eq_zero fun line member named => ?_
  obtain ⟨r,listed,inside⟩ := List.mem_flatMap.mp member
  exact absurd (filed.linked r listed line inside _ named) (not_lt.mpr beyond)

theorem returnedQty_same (returns : t.returns = s.returns) (id : LineId) : t.returnedQty id = s.returnedQty id := by
  rw [Store.returnedQty,returns,Store.returnedQty]

theorem line_same (sales : t.sales[saleId]? = s.sales[saleId]?) (index : Nat) : t.line ⟨saleId,index⟩ = s.line ⟨saleId,index⟩ := by
  rw [Store.line,sales,Store.line]

theorem Balanced.touch (balanced : Balanced s) (accounted : Accounted t) (touches : Touches saleId s t change) (returns : t.returns = s.returns)
    (room : ∀ index line, t.line ⟨saleId,index⟩ = some line → s.returnedQty ⟨saleId,index⟩ ≤ line.stored.qty)
    (here : ∀ sale, t.sales[saleId]? = some sale → Traced t saleId sale) : Balanced t := by
  refine ⟨accounted,fun id => returnedQty_same returns id ▸ balanced.scaled id,fun id line found => ?_,fun other sale found => ?_⟩
  · rw [returnedQty_same returns]
    by_cases same : id.saleId = saleId
    · subst same
      exact room id.index line found
    · exact balanced.room id line ((line_same (touches.others id.saleId same).1 id.index).symm.trans found)
  · by_cases same : other = saleId
    · subst same
      exact here sale found
    · obtain ⟨sales,-,net⟩ := touches.others other same
      have before := balanced.sales other sale (sales ▸ found)
      have back := cameBack_same fun index => returnedQty_same returns ⟨other,index⟩
      refine ⟨fun held => ⟨fun position => ?_,fun index => ?_⟩,fun billed position => ?_⟩
      · exact (net position).trans ((before.held held).1 position)
      · exact (returnedQty_same returns _).trans ((before.held held).2 index)
      · rw [net,back]
        exact before.billed billed position

theorem traced_taken (none : ∀ index, t.returnedQty ⟨saleId,index⟩ = 0) (billed : billedStatus sale.status = true)
    (out : ∀ position, t.saleNet saleId position = -sale.qtyAt position) : Traced t saleId sale := by
  refine ⟨fun held => ?_,fun _ position => ?_⟩
  · rw [held] at billed
    cases billed
  · rw [out,cameBack_eq_zero none,zero_sub]

theorem room_none (none : ∀ index, s.returnedQty ⟨saleId,index⟩ = 0) : ∀ index line, t.line ⟨saleId,index⟩ = some line →
    s.returnedQty ⟨saleId,index⟩ ≤ line.stored.qty := by
  intro index line _
  rw [none]
  exact line.stored.qtyPositive.le

theorem balanced_createSale (data : CreateSale) (balanced : Balanced s) : Ends (createSale data) s fun _ => Balanced := by
  refine ((decides_createSale data balanced.accounted).and (sells_createSale data)).mono fun _ t given => ?_
  obtain ⟨decides,sells,billed⟩ := given
  have filed := balanced.accounted.filed
  obtain ⟨rows,sale,-,found,-,touches⟩ := filed.takes sells
  have none (index : Nat) : s.returnedQty ⟨s.sales.length,index⟩ = 0 := filed.returnedQty_unknown le_rfl index
  refine balanced.touch (decides.1 rfl) touches sells.returns (room_none none) fun other same => ?_
  obtain rfl := Option.some.inj (found.symm.trans same)
  refine traced_taken (fun index => (returnedQty_same sells.returns _).trans (none index)) (billed sale found) fun position => ?_
  rw [touches.net,filed.saleNet_unknown le_rfl,zero_add]

theorem balanced_openTab (branchId : Nat) (balanced : Balanced s) : Ends (openTab branchId) s fun _ => Balanced := by
  refine fun _ t ran => ?_
  have accounted := (decides_openTab branchId balanced.accounted _ t ran).1 rfl
  obtain rfl : t = { s with sales := s.sales ++ [⟨branchId,.dineIn,.held,[]⟩] } := (Prod.mk.inj (Except.ok.inj ran)).2.symm
  have filed := balanced.accounted.filed
  have none (index : Nat) : s.returnedQty ⟨s.sales.length,index⟩ = 0 := filed.returnedQty_unknown le_rfl index
  have touches := filed.opens branchId
  refine balanced.touch accounted touches rfl (room_none none) fun sale found => ?_
  have same : (⟨branchId,.dineIn,.held,[]⟩ : Sale) = sale := by simpa using found
  subst same
  refine ⟨fun _ => ⟨fun position => ?_,none⟩,fun billed => by cases billed⟩
  rw [touches.net,filed.saleNet_unknown le_rfl,add_zero]

theorem balanced_addLinesToTab (saleId : Nat) (lines : List SaleLineRequest) (balanced : Balanced s)
    (allowed : once s (.addLinesToTab saleId lines) = true) : Ends (addLinesToTab saleId lines) s fun _ => Balanced := by
  refine ((decides_addLinesToTab saleId lines balanced.accounted).and (ends_addedLines saleId lines)).mono fun _ t given => ?_
  obtain ⟨decides,sale,more,found,-,rfl⟩ := given
  have held : sale.status = .held := by simpa [once,found] using allowed
  obtain ⟨none,unreturned⟩ := (balanced.sales saleId sale found).held held
  have movements : s.movements = s.movements ++ [] := (List.append_nil _).symm
  have modified := balanced.accounted.filed.modifies
    (t := { s with sales := s.sales.modify saleId fun sale => { sale with lines := sale.lines ++ more } })
    movements rfl rfl found (List.forall_mem_nil _)
  obtain ⟨now,touches⟩ := modified
  refine balanced.touch (decides.1 rfl) touches rfl (room_none unreturned) fun other same => ?_
  obtain rfl := Option.some.inj (now.symm.trans same)
  refine ⟨fun _ => ⟨fun position => ?_,unreturned⟩,fun billed => ?_⟩
  · rw [touches.net,none]
    exact add_zero _
  · dsimp only at billed
    rw [held] at billed
    cases billed

theorem balanced_completeTab (saleId : Nat) (payments : List Pricing.Payment) (soldAt : Int) (balanced : Balanced s)
    (allowed : once s (.completeTab saleId payments soldAt) = true) : Ends (completeTab saleId payments soldAt) s fun _ => Balanced := by
  refine ((decides_completeTab saleId payments soldAt balanced.accounted).and (sells_completeTab saleId payments soldAt)).mono
    fun _ t given => ?_
  obtain ⟨decides,⟨old,there,-⟩,sells,billed⟩ := given
  have held : old.status = .held := by simpa [once,there] using allowed
  obtain ⟨none,unreturned⟩ := (balanced.sales saleId old there).held held
  have nothing : s.balances (.completeTab saleId payments soldAt) = true := by
    simp [Store.balances,there,Store.nothingOut,none]
  obtain ⟨rows,sale,-,found,-,touches⟩ := balanced.accounted.filed.takes sells
  refine balanced.touch (decides.1 nothing) touches sells.returns (room_none unreturned) fun other same => ?_
  obtain rfl := Option.some.inj (found.symm.trans same)
  refine traced_taken (fun index => (returnedQty_same sells.returns _).trans (unreturned index)) (billed sale found) fun position => ?_
  rw [touches.net,none,zero_add]

theorem balanced_shut {status : SaleStatus} {rows : List StockMovement} (balanced : Balanced s) (accounted : Accounted t)
    (shut : status = .voided ∨ status = .cancelled) (wrote : Shut status saleId rows s t) (there : s.sales[saleId]? = some sale)
    (back : ∀ m ∈ rows, ∃ index, m.val.reference = .saleLine ⟨saleId,index⟩) : Balanced t := by
  obtain ⟨found,touches⟩ := balanced.accounted.filed.modifies wrote.movements wrote.returns wrote.sales there back
  refine balanced.touch accounted touches wrote.returns (fun index line here => ?_) fun other same => ?_
  · refine balanced.room ⟨saleId,index⟩ line ?_
    rw [Store.line,there]
    rw [Store.line,found] at here
    exact here
  · obtain rfl := Option.some.inj (found.symm.trans same)
    constructor <;> rcases shut with rfl | rfl <;> intro absurd_ <;> cases absurd_

theorem balanced_voidSale (saleId : Nat) (now : Int) (balanced : Balanced s) : Ends (voidSale saleId now) s fun _ => Balanced := by
  refine ((decides_voidSale saleId now balanced.accounted).and (shuts_voidSale saleId now)).mono fun _ t given => ?_
  obtain ⟨decides,sale,rows,there,-,-,brings,shut⟩ := given
  exact balanced_shut balanced (decides.1 rfl) (.inl rfl) shut there brings.back

theorem balanced_cancelSale (saleId : Nat) (now : Int) (balanced : Balanced s) (allowed : once s (.cancelSale saleId now) = true) :
    Ends (cancelSale saleId now) s fun _ => Balanced := by
  refine ((decides_cancelSale saleId now balanced.accounted).and (shuts_cancelSale saleId now)).mono fun _ t given => ?_
  obtain ⟨decides,sale,rows,there,-,-,wrote,shut⟩ := given
  have standing : sale.status ≠ .cancelled ∧ (sale.saleType = .dineIn → sale.status = .held) := by
    simpa [once,there,imp_iff_not_or] using allowed
  have nothing : s.balances (.cancelSale saleId now) = true := by
    rw [Store.balances,there,Option.all_some]
    split
    · next skip =>
      have dineIn : sale.saleType = .dineIn := by simpa using (Bool.and_eq_true_iff.mp skip).1
      have none := ((balanced.sales saleId sale there).held (standing.2 dineIn)).1
      simp [Store.nothingOut,none]
    · simp [standing.1]
  refine balanced_shut balanced (decides.1 nothing) (.inr rfl) shut there fun m member => ?_
  split at wrote
  · rw [wrote] at member
    cases member
  · exact wrote.back m member

theorem returnedQty_append {saleReturn : SaleReturn} (returns : t.returns = s.returns ++ [saleReturn]) (id : LineId) :
    t.returnedQty id = s.returnedQty id + tally ReturnLine.saleLineId ReturnLine.qty (some id) saleReturn.lines := by
  rw [Store.returnedQty,returns,List.flatMap_append,tally_append,List.flatMap_singleton,Store.returnedQty]

theorem Balanced.left (balanced : Balanced s) (fits : returnsFit data.lines = true)
    (room : ∀ id sold, s.line id = some sold → (∃ line ∈ data.lines, line.saleLineId = some id) →
      s.returnedQty id + tally ReturnLineRequest.saleLineId ReturnLineRequest.qty (some id) data.lines ≤ sold.stored.qty)
    {id : LineId} {sold : SaleLine} (there : s.line id = some sold) :
    s.returnedQty id + tally ReturnLineRequest.saleLineId (fun line => round4 line.qty) (some id) data.lines ≤ sold.stored.qty := by
  by_cases named : ∃ line ∈ data.lines, line.saleLineId = some id
  · have enough := room id sold there named
    have rounded : tally ReturnLineRequest.saleLineId (fun line => round4 line.qty) (some id) data.lines ≤ sold.stored.qty - s.returnedQty id := by
      refine Oversell.tally_rounded_le (fun line member here => ?_) (sub_mem sold.qtyScaled (balanced.scaled id)) (by linarith)
      have fit := List.all_eq_true.mp fits line member
      simpa [here] using fit
    linarith
  · have none : tally ReturnLineRequest.saleLineId (fun line => round4 line.qty) (some id) data.lines = 0 :=
      tally_eq_zero fun line member same => named ⟨line,member,same⟩
    rw [none,add_zero]
    exact balanced.room id sold there

theorem Returned.returnedQty (returned : Returned data s t) (id : LineId) : t.returnedQty id =
    s.returnedQty id + tally ReturnLineRequest.saleLineId (fun line => round4 line.qty) (some id) data.lines := by
  obtain ⟨_,_,returns,-⟩ := returned.recorded
  rw [returnedQty_append returns,tally_map]
  rfl

theorem cameBack_le (there : s.sales[saleId]? = some sale) (room : ∀ id sold, s.line id = some sold → t.returnedQty id ≤ sold.stored.qty)
    (position : Position) : t.cameBack saleId sale position ≤ sale.qtyAt position := by
  rw [qtyAt_zipIdx]
  refine tally_mono fun entry member => room ⟨saleId,entry.2⟩ entry.1 ?_
  rw [Store.line,there]
  exact List.mem_zipIdx_iff_getElem?.mp member

/-- What is left of the lines of a returned sale is still out. -/
theorem Traced.returned (traced : Traced s saleId sale) (there : s.sales[saleId]? = some sale)
    (able : SaleExclusion.returnable sale.status = true) (returned : Returned data s t)
    (mine : ∀ line ∈ data.lines, ∀ id, line.saleLineId = some id → id.saleId = saleId) (position : Position) :
    s.saleNet saleId position + s.brought data.lines position = t.cameBack saleId sale position - sale.qtyAt position := by
  have billed : billedStatus sale.status = true := by
    cases status : sale.status <;> simp_all [SaleExclusion.returnable,billedStatus]
  rw [traced.billed billed,brought_lines there mine,Store.cameBack,Store.cameBack,sub_add_eq_add_sub,← tally_add]
  congr 1
  exact tally_congr fun entry _ => (returned.returnedQty _).symm

theorem balanced_createSaleReturn (data : CreateSaleReturnRequest) (returnedAt : Int) (balanced : Balanced s)
    (allowed : once s (.createSaleReturn data returnedAt) = true) : Ends (createSaleReturn data returnedAt) s fun _ => Balanced := by
  have filed := balanced.accounted.filed
  refine (((decides_createSaleReturn data returnedAt balanced.accounted).and
    (returned_createSaleReturn data returnedAt filed.counted)).and (room_createSaleReturn returnedAt)).mono fun _ t given => ?_
  obtain ⟨⟨decides,returned⟩,room⟩ := given
  have sales := returned.sales
  have after := returned.returnedQty
  have left : ∀ id sold, s.line id = some sold → t.returnedQty id ≤ sold.stored.qty := by
    intro id sold there
    rw [after]
    exact balanced.left allowed room there
  obtain ⟨sold,change,touches,mine,here⟩ := filed.returned returned
  have apart (other index : Nat) (different : other ≠ sold) : t.returnedQty ⟨other,index⟩ = s.returnedQty ⟨other,index⟩ := by
    rw [after,tally_eq_zero fun line member named => different (mine line member _ named),add_zero]
  have net {sale : Sale} (there : s.sales[sold]? = some sale) :=
    (balanced.sales sold sale there).returned there (here sale there).1 returned mine
  have within_ : s.balances (.createSaleReturn data returnedAt) = true := by
    refine List.all_eq_true.mpr fun id member => ?_
    obtain ⟨line,listed,named⟩ := List.mem_filterMap.mp member
    cases from_ : s.soldFrom id with
    | none => rfl
    | some position =>
      obtain ⟨sale,there,-⟩ := Option.bind_eq_some_iff.mp from_
      have same := mine line listed id named
      rw [same] at there
      rw [Option.all_some,decide_eq_true_eq,same,net there]
      linarith [cameBack_le there left position]
  refine ⟨decides.1 within_,fun id => ?_,fun id line found => ?_,fun other sale found => ?_⟩
  · rw [after]
    exact add_mem (balanced.scaled id) (tally_mem fun line _ => Decimal.quantize_mem_grid 4 _)
  · refine left id line ?_
    rwa [Store.line,← sales]
  · rw [sales] at found
    by_cases same : other = sold
    · subst same
      obtain ⟨able,-,brings⟩ := here sale found
      refine ⟨fun held => ?_,fun _ position => ?_⟩
      · rw [held] at able
        cases able
      · rw [touches.net,brings,net found]
    · obtain ⟨-,-,nets⟩ := touches.others other same
      have before := balanced.sales other sale found
      refine ⟨fun held => ⟨fun position => ?_,fun index => ?_⟩,fun billed position => ?_⟩
      · exact (nets position).trans ((before.held held).1 position)
      · exact (apart other index same).trans ((before.held held).2 index)
      · rw [nets,cameBack_same fun index => apart other index same]
        exact before.billed billed position

theorem balanced_program (request : Request) (balanced : Balanced s) (allowed : once s request = true) :
    Ends request.program s fun _ => Balanced := by
  have aside (other : request.selling = false) (always : s.balances request = true) : Ends request.program s fun _ => Balanced := by
    refine ((decides_program request balanced.accounted).and (beside_program other s)).mono fun _ t given => ?_
    obtain ⟨decides,beside⟩ := given
    have filed := balanced.accounted.filed
    refine balanced.touch (decides.1 always) (filed.beside beside) beside.returns
      (room_none fun index => filed.returnedQty_unknown le_rfl index) fun sale found => ?_
    rw [beside.sales,List.getElem?_eq_none le_rfl] at found
    cases found
  cases request with
  | createSale data => exact balanced_createSale data balanced
  | openTab branchId => exact balanced_openTab branchId balanced
  | addLinesToTab saleId lines => exact balanced_addLinesToTab saleId lines balanced allowed
  | completeTab saleId payments soldAt => exact balanced_completeTab saleId payments soldAt balanced allowed
  | createSaleReturn data returnedAt => exact balanced_createSaleReturn data returnedAt balanced allowed
  | voidSale saleId now => exact balanced_voidSale saleId now balanced
  | cancelSale saleId now => exact balanced_cancelSale saleId now balanced allowed
  | createPurchaseOrder branchId lines now => exact aside rfl rfl
  | updatePurchaseOrderStatus id target => exact aside rfl rfl
  | createPurchaseReceipt data => exact aside rfl rfl
  | createStockAdjustment branchId openingBalance lines adjustedAt => exact aside rfl rfl
  | createWasteEntry branchId lines wastedAt => exact aside rfl rfl
  | createStockTransfer source dest lines now => exact aside rfl rfl
  | receiveStockTransfer id now => exact aside rfl rfl
  | createProductionOrder branchId bomHeaderId qty => exact aside rfl rfl
  | startProductionOrder id => exact aside rfl rfl
  | cancelProductionOrder id => exact aside rfl rfl
  | completeProductionOrder id qtyProduced now => exact aside rfl rfl

theorem balanced_empty (empty : Empty s) : Balanced s := by
  have accounted := accounted_empty empty
  obtain ⟨-,-,sales,returns,-⟩ := empty
  have none (id : LineId) : s.returnedQty id = 0 := by simp [Store.returnedQty,returns]
  refine ⟨accounted,fun id => none id ▸ zero_mem _,fun id line _ => none id ▸ line.stored.qtyPositive.le,fun saleId sale found => ?_⟩
  simp [sales] at found

theorem balanced_reachable (reached : Reachable Empty (OfNext (within once serve)) s) : Balanced s :=
  reached.invariant (fun _ => balanced_empty) fun s request t balanced taken => by
    obtain ⟨allowed,served⟩ := within_eq_some.mp taken
    obtain ⟨u,ran⟩ := serve_eq_some served
    exact balanced_program request balanced allowed u t ran

private def shelfPosition : Position := ⟨1,5,none⟩

private def stocking : Request := .createPurchaseReceipt ⟨1,none,[⟨5,none,none,10,1⟩],0⟩

private def served_ (saleType : SaleType) (qty paid : ℚ) : Request :=
  .createSale ⟨⟨1,none,[⟨5,none,qty,1,0,0,0⟩],[⟨.cash,paid⟩]⟩,saleType,1⟩

private def bringing (quantities : List ℚ) : Request :=
  .createSaleReturn ⟨1,some 0,none,quantities.map fun qty => ⟨some ⟨0,0⟩,none,none,qty,none,none⟩,[]⟩ 2

/-- What the first sale has out and what its lines sold, and whether it is closed. -/
private def firstSale (s : Store) : Option (ℚ × ℚ × Bool) :=
  s.sales[0]?.map fun sale => (s.saleNet 0 shelfPosition,sale.qtyAt shelfPosition,sale.closed)

private theorem firstSale_kept (kept : SalesKept s) {out sold : ℚ} {closed : Bool} (view : firstSale s = some (out,sold,closed)) :
    -sold ≤ out ∧ out ≤ 0 ∧ (closed = true → out = 0) := by
  obtain ⟨sale,found,same⟩ := Option.map_eq_some_iff.mp view
  cases same
  have here := kept 0 sale found
  exact ⟨here.covered _,here.nonpos _,fun closed => here.closed closed _⟩

/-- A dine-in sale that is completed as a tab, cancelled or added to after a part was paid, a sale cancelled twice, and a line returned
in two parts that are each rounded up. -/
private def doubledRuns : List (List Request × (ℚ × ℚ × Bool)) :=
  [([stocking,served_ .dineIn 4 1,.completeTab 0 [⟨.cash,4⟩] 2],(-8,4,false)),
    ([stocking,served_ .dineIn 4 1,.cancelSale 0 2],(-4,4,true)),
    ([stocking,served_ .dineIn 4 1,.addLinesToTab 0 [⟨5,none,3,1,0,0,0⟩],
      .createSaleReturn ⟨1,some 0,none,[⟨some ⟨0,0⟩,none,none,4,none,none⟩,⟨some ⟨0,1⟩,none,none,3,none,none⟩],[]⟩ 2],(3,7,false)),
    ([stocking,served_ .pos 4 1,.cancelSale 0 2,.cancelSale 0 3],(4,4,true)),
    ([stocking,served_ .pos 1 1,bringing [49995/100000,50005/100000]],(1/10000,1,false))]

private def Doubled (run : List Request × (ℚ × ℚ × Bool)) : Prop :=
  ∃ s, Reachable Empty (OfNext serve) s ∧ firstSale s = some run.2 ∧ ¬ SalesKept s

end Stock
