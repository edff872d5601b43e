import SasBackend.LayerConservation
import SasBackend.SoldStock

/-! A layer keeps room for all that sale lines have taken from it and not got back: what other requests take of it is not due to a line,
and a receipt raises what it may hold with what it holds.
-/
namespace Stock
open SasBackend Tally Program
open Refunds (LineId SaleLineRequest)

variable {s t : Store} {drift due spare change : Nat → ℚ} {id saleId : Nat} {line : LineId} {rows : List StockMovement} {sale : Sale}

structure Roomy (s : Store) : Prop where
  known : ∀ m ∈ s.movements, ∀ id, m.val.purchaseLineId = some id → id < s.layers.length
  reported : ∀ m ∈ s.movements, ∀ saleReturn index, m.val.reference = .saleReturnLine saleReturn index → saleReturn < s.returns.length
  gave : ∀ m ∈ s.movements, m.val.movementType = .saleReturn → 0 ≤ m.val.qty
  returned : ∀ line id, 0 < s.takenFrom line id → s.givenBack line id ≤ s.takenFrom line id
  room : ∀ (id : Nat) layer, s.layers[id]? = some layer → ∀ lines : Finset LineId,
    layer.val.qtyRemaining + ∑ line ∈ lines, s.owed line id ≤ layer.val.receivedQty
  papers : Papers s

theorem Conserved.roomy (conserved : Conserved drift s) : Roomy s where
  known := conserved.settled.known
  reported := conserved.settled.reported
  gave := conserved.settled.gave
  returned := conserved.settled.returned
  room id layer found lines := by
    rw [conserved.settled.balanced id layer found]
    linarith [conserved.settled.room id layer found lines]
  papers := conserved.papers

theorem Roomy.conserved (roomy : Roomy s) : Conserved (fun id => s.remaining id - s.layerSum id) s := by
  have held (id : Nat) (layer : PurchaseLine) (found : s.layers[id]? = some layer) : s.remaining id = layer.val.qtyRemaining := by
    rw [Store.remaining,found]
    rfl
  refine ⟨⟨roomy.known,roomy.reported,roomy.gave,roomy.returned,fun id beyond => ?_,fun id layer found => ?_,fun id layer found lines => ?_⟩,
    roomy.papers⟩
  · have apart : ∀ m ∈ s.movements, m.val.purchaseLineId ≠ some id := fun m member named =>
      absurd (roomy.known m member id named) (not_lt.mpr beyond)
    have none : s.layerSum id = 0 := tally_eq_zero apart
    rw [remaining_beyond beyond,none,sub_zero]
    exact ⟨rfl,le_rfl⟩
  · rw [held id layer found]
    ring
  · rw [held id layer found]
    linarith [roomy.room id layer found lines]

theorem Foreign.plainRow {m : StockMovement} (foreign : Foreign s m) : Plain m :=
  ⟨foreign.typed.2,foreign.typed.1,(Reference.plain_apart foreign.plain).1⟩

theorem Beside.aside (beside : Beside s t) : Aside s t := by
  obtain ⟨rows,movements,foreign⟩ := beside.rows
  exact ⟨⟨rows,movements,fun m member => (foreign m member).plainRow⟩,beside.sales,beside.returns⟩

/-- Whatever no sale is part of leaves the layers their room. -/
theorem Roomy.beside (roomy : Roomy s) (beside : Beside s t) : Roomy t := by
  have papers := roomy.papers.aside beside.aside
  obtain ⟨⟨rows,movements,foreign⟩,-,returns,room⟩ := beside
  have unsold : ∀ m ∈ rows, m.val.movementType ≠ .sale := fun m member => (foreign m member).typed.2
  have taken (line : LineId) := (traced_same (saleMovements_same movements unsold line)).2.2.2
  have given (line : LineId) (id : Nat) : t.givenBack line id = s.givenBack line id := by
    have none : rows.filter (s.givesBack line) = [] := List.filter_eq_nil_iff.mpr fun m member gives =>
      (foreign m member).typed.1 (givesBack_saleReturn gives)
    rw [Store.givenBack,funext (givesBack_same returns),movements,List.filter_append,none,List.append_nil,Store.givenBack]
  have owed (line : LineId) (id : Nat) : t.owed line id = s.owed line id := by rw [Store.owed,taken,given,Store.owed]
  refine ⟨?_,?_,?_,fun line id some_ => ?_,fun id layer found lines => ?_,papers⟩
  · rw [movements]
    refine List.forall_mem_append.mpr ⟨fun m member id named => ?_,fun m member => (foreign m member).named⟩
    exact (roomy.known m member id named).trans_le room.longer
  · rw [movements,returns]
    exact List.forall_mem_append.mpr ⟨roomy.reported,fun m member saleReturn index named =>
      absurd named ((Reference.plain_apart (foreign m member).plain).2 saleReturn index)⟩
  · rw [movements]
    exact List.forall_mem_append.mpr ⟨roomy.gave,fun m member typed => absurd typed (foreign m member).typed.1⟩
  · rw [taken] at some_ ⊢
    rw [given]
    exact roomy.returned line id some_
  · simp only [owed]
    by_cases inside : id < s.layers.length
    · obtain ⟨after,there,least⟩ := room id _ (List.getElem?_eq_getElem inside)
      obtain rfl := Option.some.inj (found.symm.trans there)
      linarith [roomy.room id _ (List.getElem?_eq_getElem inside) lines]
    · have none : ∑ line ∈ lines, s.owed line id = 0 := Finset.sum_eq_zero fun line _ =>
        roomy.conserved.settled.unowed (not_lt.mp inside) line
      rw [none,add_zero]
      exact layer.2.received

/-- Rows of sale lines of which nothing has come back. -/
structure FreshRow (s : Store) (m : StockMovement) : Prop where
  known : ∀ id, m.val.purchaseLineId = some id → id < s.layers.length
  sold : m.val.movementType = .sale
  about : ∃ line, m.val.reference = .saleLine line ∧ s.untouched line = true
  takes : m.val.qty ≤ 0

theorem Kept.takeRows (rows : List StockMovement) : ∀ {s due}, Kept s due spare → (∀ m ∈ rows, FreshRow s m) → t.layers = s.layers →
    t.movements = s.movements ++ rows → t.returns = s.returns → Kept t (fun id => due id + drawnBy rows id) spare := by
  induction rows with
  | nil =>
    intro s due kept _ layers movements returns
    exact (kept.same layers (movements.trans (List.append_nil _)) returns).congr (fun id => by simp [drawnBy]) fun _ => rfl
  | cons m rows induction =>
    intro s due kept fresh layers movements returns
    obtain ⟨⟨known,sold,⟨line,about,untouched⟩,takes⟩,fresh⟩ := List.forall_mem_cons.mp fresh
    have typed : m.val.movementType ≠ .saleReturn := sold.trans_ne (by decide)
    have first := kept.recordTaken known (fun saleReturn index named => by rw [about] at named; cases named) takes typed
      fun _ other named => Reference.saleLine.inj (about.symm.trans named) ▸ untouched
    have still : ∀ other ∈ rows, FreshRow (s.record m) other := by
      intro other member
      obtain ⟨known,sold,⟨line,about,untouched⟩,takes⟩ := fresh other member
      exact ⟨known,sold,⟨line,about,(moved_record s m).untouched (List.forall_mem_singleton.mpr typed) untouched⟩,takes⟩
    refine (induction first still layers (by rw [movements,Store.record,List.append_assoc]; rfl) returns).congr (fun id => ?_) fun _ => rfl
    rw [drawnBy,tally_cons,abs_of_nonpos takes]
    change _ + ((if m.val.purchaseLineId = some id then _ else 0) + drawnBy rows id) = _
    split <;> ring

theorem Kept.shift (kept : Kept s due spare) (shifts : Shifts change [] s t) (known : ∀ id, s.layers.length ≤ id → change id = 0) :
    Kept { s with layers := t.layers } (fun id => due id + change id) spare := by
  have length : t.layers.length = s.layers.length := shifts.length
  refine ⟨fun m member id named => ?_,kept.reported,kept.gave,kept.returned,fun id beyond => ?_,fun id layer found => ?_,
    fun id layer found lines => ?_⟩
  · exact (kept.known m member id named).trans_eq length.symm
  · have outside : s.layers.length ≤ id := length.symm.trans_le beyond
    rw [known id outside,add_zero]
    exact kept.fresh id outside
  · have inside : id < s.layers.length := (List.getElem?_eq_some_iff.mp found).1.trans_eq length
    obtain ⟨before,here,remains,-⟩ := shifts.found inside found
    change layer.val.qtyRemaining = s.layerSum id + _
    rw [remains,kept.balanced id before here]
    ring
  · have inside : id < s.layers.length := (List.getElem?_eq_some_iff.mp found).1.trans_eq length
    obtain ⟨before,here,-,received⟩ := shifts.found inside found
    change s.layerSum id + ∑ line ∈ lines, s.owed line id + spare id ≤ layer.val.receivedQty
    rw [received]
    exact kept.room id before here lines

/-- What a new sale takes of the layers is due to its lines. -/
theorem Roomy.sells (roomy : Roomy s) (sells : Sells s t s.sales.length)
    (lost : ∃ rows, t.movements = s.movements ++ rows ∧ Loses rows s t) : Roomy t := by
  have stands : s.closedSale s.sales.length = false := by simp [Store.closedSale]
  have papers := roomy.papers.sells sells stands
  obtain ⟨⟨rows,sale,movements,-,soldRows⟩,returns,-⟩ := sells
  obtain ⟨others,again,loses⟩ := lost
  obtain rfl := List.append_cancel_left (movements.symm.trans again)
  have length : t.layers.length = s.layers.length := loses.shifts.length
  have fresh : ∀ m ∈ rows, FreshRow { s with layers := t.layers } m := by
    intro m member
    obtain ⟨sold,entry,listed,about⟩ := soldRows.sold m member
    refine ⟨fun id named => ?_,sold,⟨_,about,untouched_same rfl rfl (roomy.papers.unheard entry.2)⟩,?_⟩
    · by_contra beyond
      have none := loses.known id (length.symm.trans_le (not_lt.mp beyond))
      have some_ : |m.val.qty| ≤ drawnBy rows id := by
        refine List.single_le_sum (fun amount inside => ?_) _ (List.mem_map_of_mem (List.mem_filter.mpr ⟨member,decide_eq_true named⟩))
        obtain ⟨other,-,rfl⟩ := List.mem_map.mp inside
        exact abs_nonneg _
      exact absurd (abs_pos.mpr m.2.nonzero) (not_lt.mpr (none ▸ some_))
    · exact ((soldRows.lines entry listed).each m (List.mem_filter.mpr ⟨member,decide_eq_true about⟩)).2.2.2
  have lowered := Kept.shift roomy.conserved.settled loses.shifts fun id beyond => by rw [loses.known id beyond,neg_zero]
  have taken := lowered.takeRows (t := t) rows fresh rfl movements returns
  have settled : Settled (fun id => s.remaining id - s.layerSum id) t := taken.congr (fun id => by ring) fun _ => rfl
  exact Conserved.roomy ⟨settled,papers⟩

theorem Roomy.whole (roomy : Roomy s) (found : s.sales[saleId]? = some sale) (completed : sale.status = .completed)
    (unreturned : s.hasReturnLines saleId = false) (whole : Whole s saleId sale) :
    ∀ (id : Nat) layer, s.layers[id]? = some layer → layer.val.qtyRemaining + s.consumed saleId id ≤ layer.val.receivedQty := by
  intro id layer there
  have stands : s.closedSale saleId = false := by
    rw [Store.closedSale,found]
    simp [completed]
  have owed (index : Nat) : s.owed ⟨saleId,index⟩ id = s.takenFrom ⟨saleId,index⟩ id := by
    rw [Store.owed,untouched_givenBack (roomy.papers.untouched stands unreturned index),sub_zero,max_eq_left (takenFrom_nonneg s _ id)]
  let lines : List LineId := sale.lines.zipIdx.map fun entry => ⟨saleId,entry.2⟩
  have distinct : lines.Nodup := by
    have indexed := (zipped_distinct sale.lines).map (f := fun index => LineId.mk saleId index) fun _ _ same => congrArg LineId.index same
    rwa [List.map_map] at indexed
  have all : ∑ line ∈ lines.toFinset, s.owed line id = s.consumed saleId id := by
    rw [List.sum_toFinset _ distinct,← takenBy_consumed whole.rows,Store.takenBy,List.map_map]
    exact congrArg List.sum (List.map_congr_left fun entry _ => owed entry.2)
  rw [← all]
  exact roomy.room id layer there lines.toFinset

theorem Recorded.unreturned (recorded : Recorded s) (tabbed : s.sales[saleId]?.all (·.status = .held) = true) :
    s.hasReturnLines saleId = false := by
  cases found : s.sales[saleId]? with
  | none => exact recorded.filed.unreturned (List.getElem?_eq_none_iff.mp found)
  | some sale =>
    rw [found,Option.all_some,decide_eq_true_eq] at tabbed
    exact (recorded.sales saleId sale found).kept tabbed

theorem roomy_program {request : Request} (roomy : Roomy s) (recorded : Recorded s) (allowed : reversible s request = true) :
    Ends request.program s fun _ => Roomy := by
  have orderly (allowed : orderly s request = true) : Ends request.program s fun _ => Roomy :=
    (conserved_program roomy.conserved allowed).mono fun _ _ => Conserved.roomy
  have aside (other : request.selling = false) : Ends request.program s fun _ => Roomy :=
    (beside_program other s).mono fun _ _ => roomy.beside
  cases request with
  | createSale data =>
    exact ((sells_createSale data).and (loses_createSale data allowed)).mono fun _ _ sold => roomy.sells sold.1.1 sold.2
  | completeTab saleId payments soldAt =>
    refine orderly ?_
    rw [Stock.orderly,recorded.unreturned allowed]
    rfl
  | openTab branchId => exact orderly rfl
  | addLinesToTab saleId lines => exact orderly rfl
  | createSaleReturn data returnedAt => exact orderly allowed
  | voidSale saleId now => exact orderly rfl
  | cancelSale saleId now => exact orderly allowed
  | _ => exact aside rfl

theorem roomy_empty (empty : Empty s) : Roomy s := (conserved_empty empty).roomy

end Stock
