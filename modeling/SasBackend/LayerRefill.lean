import SasBackend.LayerShifts

/-! What a void puts back: every layer as much as the rows of the sale say it lost, and what was taken beyond the layers into new ones.
-/
namespace Stock
open SasBackend Tally Program
open Refunds (LineId)

variable {s t : Store} {id saleId : Nat} {qty : ℚ} {line : LineId} {r : Restoration}

/-- Layers that have room for slices take them in full. -/
theorem shifts_restoreFifoLayers (slices : List FifoLayerConsumption) : ∀ {s : Store},
    (∀ slice ∈ slices, 0 ≤ slice.qty ∧ ∃ id, slice.purchaseLineId = some id ∧ id < s.layers.length) →
    (∀ (id : Nat) layer, s.layers[id]? = some layer → layer.val.qtyRemaining + drawn slices id ≤ layer.val.receivedQty) →
    Ends (restoreFifoLayers slices) s fun _ t => Shifts (drawn slices) [] s t := by
  induction slices with
  | nil =>
    intro s _ _
    exact ends_pure ((Shifts.same rfl).congr fun id => rfl)
  | cons slice slices induction =>
    intro s known room
    obtain ⟨⟨nonneg,id,named,inside⟩,known⟩ := List.forall_mem_cons.mp known
    have later (other : Nat) : 0 ≤ drawn slices other := drawn_nonneg (fun slice member => (known slice member).1) other
    have found : s.layers[id]? = some s.layers[id] := List.getElem?_eq_getElem inside
    generalize s.layers[id] = layer at found
    have bound := room id layer found
    rw [drawn_cons,if_pos named] at bound
    have full : round4 layer.val.receivedQty = layer.val.receivedQty := Decimal.quantize_of_mem_grid layer.2.receivedScaled
    have filled : round4 (min (layer.val.qtyRemaining + slice.qty) layer.val.receivedQty) = layer.val.qtyRemaining + round4 slice.qty := by
      have sum : round4 (layer.val.qtyRemaining + slice.qty) = layer.val.qtyRemaining + round4 slice.qty :=
        Decimal.quantize_add layer.2.remainingScaled layer.2.remaining nonneg
      have mono : Monotone round4 := fun _ _ le => Decimal.quantize_mono le
      rw [mono.map_min,sum,full,min_eq_left (by linarith [later id])]
    rw [restoreFifoLayers,List.forM_cons]
    simp only [named]
    refine .bind (.bind (ends_get ?_))
    rw [found]
    refine ends_updateLayer_stored.mono fun _ t updated => ?_
    obtain ⟨stored,same,rfl⟩ := updated
    have placed : stored.val.position = layer.val.position := by
      rw [same]
      rfl
    have received : stored.val.receivedQty = layer.val.receivedQty := by
      rw [same]
      exact full
    have remains : stored.val.qtyRemaining = layer.val.qtyRemaining + round4 slice.qty := by
      rw [same]
      exact filled
    have first := shifts_set found placed received
    have still : ∀ slice ∈ slices, 0 ≤ slice.qty ∧ ∃ other, slice.purchaseLineId = some other ∧ other < (s.layers.set id stored).length := by
      simpa using known
    refine (induction still fun other row there => ?_).mono fun _ u rest => ?_
    · rcases Slots.set_cases there with ⟨rfl,rfl⟩ | ⟨apart,old⟩
      · rw [remains,received]
        linarith
      · have bound := room other row old
        rw [drawn_cons,named,if_neg (by simpa using Ne.symm apart),zero_add] at bound
        exact bound
    · refine (first.trans rest fun other beyond => ?_).congr fun other => ?_
      · refine tally_eq_zero fun slice member at_ => ?_
        obtain ⟨-,there,own,before⟩ := known slice member
        exact absurd beyond (Option.some.inj (own.symm.trans at_) ▸ not_le.mpr before)
      · rw [drawn_cons,named,remains]
        simp only [Option.some.injEq,eq_comm (a := id)]
        split <;> ring

theorem shifts_restoreUntraced (inside : qty ∈ Decimal.grid 4) : Ends (restoreUntraced r qty) s fun _ t =>
    Shifts (fun _ => 0) [⟨r.position,qty⟩] s t := by
  refine (ends_receiveIntoNewLayer_row _).mono fun _ t received => ?_
  obtain ⟨layer,m,same,-,rfl⟩ := received
  have exact_ : round4 qty = qty := Decimal.quantize_of_mem_grid inside
  refine ⟨?_,[layer.val.receivedQty],by rw [List.map_append,List.map_singleton]⟩
  rw [Store.items,List.map_append,List.map_singleton,add_zero_id,Store.items,same,LayerRow.item,exact_]

/-- What a line took beyond the layers, if anything. -/
def shortItem (position : Position) (qty : ℚ) : List Item := if 0 < qty then [⟨position,qty⟩] else []

theorem traced_inside (known : ∀ id, s.layers.length ≤ id → s.takenFrom line id = 0) : ∀ slice ∈ s.tracedConsumptions line,
    0 ≤ slice.qty ∧ ∃ id, slice.purchaseLineId = some id ∧ id < s.layers.length := by
  intro slice member
  have positive := (ledger_traced s line slice member).1
  obtain ⟨m,inside,rfl⟩ := List.mem_map.mp member
  rw [List.mem_insertionSort,List.mem_filter,Option.isSome_iff_exists] at inside
  obtain ⟨listed,id,named⟩ := inside
  refine ⟨positive.le,id,named,?_⟩
  by_contra beyond
  refine absurd (known id (not_lt.mp beyond)) (ne_of_gt (positive.trans_le ?_))
  rw [Store.takenFrom,tally]
  refine List.single_le_sum (fun amount member => ?_) _ (List.mem_map_of_mem (List.mem_filter.mpr ⟨listed,decide_eq_true named⟩))
  obtain ⟨other,-,rfl⟩ := List.mem_map.mp member
  exact abs_nonneg _

/-- A line that is given back in full, while its layers have room. -/
theorem shifts_restoreSaleLineInventory (sold : s.soldQty r.saleLineId = r.saleLineQty) (all : r.qtyToRestore = r.saleLineQty)
    (positive : 0 < r.saleLineQty) (known : ∀ id, s.layers.length ≤ id → s.takenFrom r.saleLineId id = 0)
    (room : ∀ (id : Nat) layer, s.layers[id]? = some layer → layer.val.qtyRemaining + s.takenFrom r.saleLineId id ≤ layer.val.receivedQty) :
    Ends (restoreSaleLineInventory r) s fun _ t =>
      Shifts (s.takenFrom r.saleLineId) (shortItem r.position (s.untracedQty r.saleLineId)) s t := by
  have ledger := ledger_traced s r.saleLineId
  have taken := drawn_traced s r.saleLineId
  have inside := traced_inside known
  obtain ⟨looseScaled,looseNonneg⟩ := untraced_mem_grid s r.saleLineId
  rw [Store.soldQty] at sold
  refine .bind (ends_get ?_)
  split
  · next none =>
    have whole : s.untracedQty r.saleLineId = r.saleLineQty := by simpa [none,totalQty] using sold
    have nothing (id : Nat) : s.takenFrom r.saleLineId id = 0 := by
      rw [← taken,none]
      rfl
    rw [all,← whole,shortItem,if_pos (whole ▸ positive)]
    exact (shifts_restoreUntraced looseScaled).mono fun _ t shifts => shifts.congr nothing
  refine .bind (ends_get ?_)
  generalize s.tracedConsumptions r.saleLineId = traced at *
  generalize s.untracedQty r.saleLineId = loose at *
  have total : totalQty traced ≤ r.qtyToRestore := by linarith
  have plan : planLifoRestoration traced (min r.qtyToRestore (totalQty traced)) = traced.reverse := by
    rw [planLifoRestoration,min_eq_right total,← totalQty_reverse,unwind_all ledger.reverse]
  have back (id : Nat) : drawn traced.reverse id = s.takenFrom r.saleLineId id := (drawn_reverse _ id).trans (taken id)
  have left : r.qtyToRestore - totalQty traced.reverse = loose := by
    rw [totalQty_reverse]
    linarith
  dsimp only
  rw [plan,left,if_pos sold,min_self]
  have planned : ∀ slice ∈ traced.reverse, 0 ≤ slice.qty ∧ ∃ id, slice.purchaseLineId = some id ∧ id < s.layers.length := fun slice member =>
    inside slice (List.mem_reverse.mp member)
  have filled := shifts_restoreFifoLayers traced.reverse planned fun id layer found => (back id).symm ▸ room id layer found
  refine .bind (filled.mono fun _ t shifts => .bind ((ends_rows _ _).mono fun _ u wrote => ?_))
  obtain ⟨rows,-,rfl⟩ := wrote
  have shifts : Shifts (s.takenFrom r.saleLineId) [] s { t with movements := t.movements ++ rows } :=
    Shifts.congr ⟨shifts.items,shifts.received⟩ fun id => (back id).symm
  split
  · next some_ =>
    rw [shortItem,if_pos some_.1]
    refine (shifts_restoreUntraced looseScaled).mono fun _ v fresh => ?_
    exact (shifts.trans fresh fun _ _ => rfl).congr fun id => (add_zero _).symm
  · next none =>
    rw [shortItem,if_neg fun some_ => none ⟨some_,some_⟩]
    exact ends_pure shifts

def Store.takenBy (s : Store) (saleId : Nat) (entries : List (SaleLine × Nat)) (id : Nat) : ℚ :=
  (entries.map fun entry => s.takenFrom ⟨saleId,entry.2⟩ id).sum

theorem takenBy_cons (s : Store) (saleId : Nat) (entry : SaleLine × Nat) (entries : List (SaleLine × Nat)) (id : Nat) :
    s.takenBy saleId (entry :: entries) id = s.takenFrom ⟨saleId,entry.2⟩ id + s.takenBy saleId entries id := by
  rw [Store.takenBy,List.map_cons,List.sum_cons,Store.takenBy]

theorem takenBy_nonneg (s : Store) (saleId : Nat) (entries : List (SaleLine × Nat)) (id : Nat) : 0 ≤ s.takenBy saleId entries id := by
  refine List.sum_nonneg fun amount member => ?_
  obtain ⟨entry,-,rfl⟩ := List.mem_map.mp member
  exact takenFrom_nonneg s _ id

def Store.shortItems (s : Store) (saleId branchId : Nat) (entries : List (SaleLine × Nat)) : List Item :=
  entries.flatMap fun entry => shortItem (entry.1.position branchId) (s.untracedQty ⟨saleId,entry.2⟩)

theorem shorts_shortItems (s : Store) (saleId : Nat) (sale : Sale) : s.shorts saleId sale = s.shortItems saleId sale.branchId sale.lines.zipIdx := by
  rw [Store.shorts,Store.shortItems]
  induction sale.lines.zipIdx with
  | nil => rfl
  | cons entry entries induction =>
    rw [List.map_cons,List.filter_cons,induction,List.flatMap_cons,shortItem]
    by_cases some_ : 0 < s.untracedQty ⟨saleId,entry.2⟩ <;> simp [some_]

theorem saleMovements_salesOf (s : Store) (saleId index : Nat) : s.saleMovements ⟨saleId,index⟩ =
    (s.salesOf saleId).filter fun m => m.val.reference = .saleLine ⟨saleId,index⟩ := by
  rw [Store.saleMovements,Store.salesOf,List.filter_filter]
  refine List.filter_congr fun m _ => ?_
  by_cases named : m.val.reference = .saleLine ⟨saleId,index⟩ <;> simp [named,Reference.saleOf]

theorem takenBy_consumed {sale : Sale}
    (rows : ∀ m ∈ s.salesOf saleId, ∃ entry ∈ sale.lines.zipIdx, m.val.reference = .saleLine ⟨saleId,entry.2⟩) (id : Nat) :
    s.takenBy saleId sale.lines.zipIdx id = s.consumed saleId id := by
  have distinct : (sale.lines.zipIdx.map fun entry => Reference.saleLine ⟨saleId,entry.2⟩).Nodup := by
    rw [← Function.comp_def (fun index => Reference.saleLine ⟨saleId,index⟩) Prod.snd,← List.map_map]
    exact (zipped_distinct sale.lines).map fun _ _ same => congrArg LineId.index (Reference.saleLine.inj same)
  have covered : ∀ m ∈ s.salesOf saleId, m.val.reference ∈ sale.lines.zipIdx.map fun entry => Reference.saleLine ⟨saleId,entry.2⟩ := by
    intro m member
    obtain ⟨entry,inside,about⟩ := rows m member
    exact List.mem_map.mpr ⟨entry,inside,about.symm⟩
  rw [Store.consumed,← sum_tally_filter distinct covered,Store.takenBy,List.map_map]
  exact congrArg List.sum (List.map_congr_left fun entry _ => by rw [Store.takenFrom,saleMovements_salesOf]; rfl)

theorem shifts_restoreLines (saleId branchId : Nat) (movementAt : Int) (entries : List (SaleLine × Nat)) : ∀ {s : Store},
    (∀ entry ∈ entries, s.soldQty ⟨saleId,entry.2⟩ = entry.1.stored.qty) →
    (∀ id, s.layers.length ≤ id → s.takenBy saleId entries id = 0) →
    (∀ (id : Nat) layer, s.layers[id]? = some layer → layer.val.qtyRemaining + s.takenBy saleId entries id ≤ layer.val.receivedQty) →
    Ends (forM entries fun entry => restoreSaleLineInventory (lineRestoration saleId branchId movementAt entry)) s fun _ t =>
      Shifts (s.takenBy saleId entries) (s.shortItems saleId branchId entries) s t := by
  induction entries with
  | nil =>
    intro s _ _ _
    exact ends_pure (Shifts.same rfl)
  | cons entry entries induction =>
    intro s sold known room
    obtain ⟨here,sold⟩ := List.forall_mem_cons.mp sold
    have least (id : Nat) := takenFrom_nonneg s ⟨saleId,entry.2⟩ id
    have rest (id : Nat) := takenBy_nonneg s saleId entries id
    have none (id : Nat) (beyond : s.layers.length ≤ id) : s.takenFrom ⟨saleId,entry.2⟩ id = 0 ∧ s.takenBy saleId entries id = 0 := by
      have all := known id beyond
      rw [takenBy_cons] at all
      constructor <;> linarith [least id,rest id]
    have mine : ∀ (id : Nat) layer, s.layers[id]? = some layer →
        layer.val.qtyRemaining + s.takenFrom ⟨saleId,entry.2⟩ id ≤ layer.val.receivedQty := by
      intro id layer found
      have bound := room id layer found
      rw [takenBy_cons] at bound
      linarith [rest id]
    have restored := shifts_restoreSaleLineInventory (r := lineRestoration saleId branchId movementAt entry) here rfl
      entry.1.stored.qtyPositive (fun id beyond => (none id beyond).1) mine
    have written : Ends (restoreSaleLineInventory (lineRestoration saleId branchId movementAt entry)) s _ :=
      ends_restored entry.1.stored.qtyPositive.le le_rfl
    rw [List.forM_cons]
    refine .bind ((restored.and written).mono fun _ t back => ?_)
    obtain ⟨shifts,rows,moved,incoming,-⟩ := back
    have same (index : Nat) := traced_same (saleMovements_same moved.parts.1 incoming.unsold ⟨saleId,index⟩)
    have takenSame (id : Nat) : t.takenBy saleId entries id = s.takenBy saleId entries id :=
      congrArg List.sum (List.map_congr_left fun other _ => (same other.2).2.2.2 id)
    have shortSame : t.shortItems saleId branchId entries = s.shortItems saleId branchId entries :=
      List.flatMap_congr fun other _ => by rw [(same other.2).2.1]
    have later := induction (s := t)
      (fun other inside => by rw [Store.soldQty,(same other.2).1,(same other.2).2.1]; exact sold other inside)
      (fun id beyond => (takenSame id).trans (none id (moved.longer.trans beyond)).2)
      fun id layer found => by
        rw [takenSame]
        by_cases inside : id < s.layers.length
        · obtain ⟨before,there,remains,received⟩ := shifts.found inside found
          have bound := room id before there
          rw [takenBy_cons] at bound
          rw [remains,received]
          change before.val.qtyRemaining + s.takenFrom ⟨saleId,entry.2⟩ id + _ ≤ _
          linarith
        · rw [(none id (not_lt.mp inside)).2,add_zero]
          exact layer.2.received
    refine later.mono fun _ u more => ?_
    rw [shortSame] at more
    have more := more.congr fun id => (takenSame id).symm
    refine (shifts.trans more fun id beyond => (none id beyond).2).congr fun id => ?_
    exact takenBy_cons s saleId entry entries id

/-- The rows of a sale are about its lines, and take what these sold. -/
structure Whole (s : Store) (saleId : Nat) (sale : Sale) : Prop where
  lines : ∀ entry ∈ sale.lines.zipIdx, s.soldQty ⟨saleId,entry.2⟩ = entry.1.stored.qty
  rows : ∀ m ∈ s.salesOf saleId, ∃ entry ∈ sale.lines.zipIdx, m.val.reference = .saleLine ⟨saleId,entry.2⟩

theorem shifts_voidSale {saleId : Nat} {now : Int}
    (room : ∀ (id : Nat) layer, s.layers[id]? = some layer → layer.val.qtyRemaining + s.consumed saleId id ≤ layer.val.receivedQty)
    (known : ∀ id, s.layers.length ≤ id → s.consumed saleId id = 0)
    (whole : ∀ sale, s.sales[saleId]? = some sale → sale.status = .completed → Whole s saleId sale) :
    Ends (voidSale saleId now) s fun _ t => ∃ sale, s.sales[saleId]? = some sale ∧ Shifts (s.consumed saleId) (s.shorts saleId sale) s t := by
  refine .bind (ends_found fun sale found => .bind (ends_require fun completed => .bind (ends_get (.bind (ends_require fun _ => ?_)))))
  have whole := whole sale found (of_decide_eq_true completed)
  have same := takenBy_consumed whole.rows
  have restored := shifts_restoreLines saleId sale.branchId now sale.lines.zipIdx whole.lines (fun id beyond => (same id).trans (known id beyond))
    fun id layer there => (same id).symm ▸ room id layer there
  refine .bind (restored.mono fun _ t shifts => ends_put ⟨sale,found,?_⟩)
  rw [shorts_shortItems]
  exact Shifts.congr ⟨shifts.items,shifts.received⟩ fun id => (same id).symm

end Stock
