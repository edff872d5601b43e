import SasBackend.StockRequests

/-! What a request takes from the layers and writes about it, whatever state it finds.
-/
namespace Stock
open SasBackend Program
open Oversell (Covers)

variable {s t : Store} {qty : ℚ} {position : Position} {layers : List (PurchaseLine × Nat)}

/-- The slices that cover a quantity, and what the layers do not cover. -/
def cover : List (PurchaseLine × Nat) → ℚ → List FifoLayerConsumption × ℚ
  | [], remaining => ([],remaining)
  | (layer,id) :: rest, remaining =>
    if remaining ≤ 0 then ([],remaining)
    else
      let take := min remaining layer.val.qtyRemaining
      (⟨some id,take,layer.val.costPerUnit⟩ :: (cover rest (remaining - take)).1,(cover rest (remaining - take)).2)

theorem ends_takeFromLayers_cover (layers : List (PurchaseLine × Nat)) : ∀ {s : Store} {qty : ℚ},
    Ends (takeFromLayers layers qty) s fun r t => r = cover layers qty ∧ Moved s t [] := by
  induction layers with
  | nil =>
    intro s qty
    exact ends_pure ⟨rfl,moved_refl s⟩
  | cons entry rest induction =>
    intro s qty
    obtain ⟨layer,id⟩ := entry
    rw [takeFromLayers_cons,cover]
    split
    · exact ends_pure ⟨rfl,moved_refl s⟩
    · refine .bind (ends_updateLayer.mono fun _ t wrote => ?_)
      obtain ⟨stored,-,-,rfl⟩ := wrote
      have first : Moved s { s with layers := s.layers.set id stored } [] := ⟨s.layers.set id stored,List.length_set.ge,by simp⟩
      refine .bind (induction.mono fun r u after => ends_pure ?_)
      obtain ⟨rfl,moved⟩ := after
      exact ⟨rfl,first.trans moved⟩

theorem cover_facts (held : ∀ entry ∈ layers, 0 < entry.1.val.qtyRemaining) : ∀ {qty : ℚ}, 0 ≤ qty →
    (((cover layers qty).1.map FifoLayerConsumption.qty).sum + (cover layers qty).2 = qty ∧ 0 ≤ (cover layers qty).2) ∧
      ∀ slice ∈ (cover layers qty).1, 0 < slice.qty := by
  induction layers with
  | nil => simp [cover]
  | cons entry rest induction =>
    intro qty nonneg
    obtain ⟨layer,id⟩ := entry
    obtain ⟨some_,held⟩ := List.forall_mem_cons.mp held
    rw [cover]
    split
    · simp [nonneg]
    · next left =>
      have left : 0 < qty := not_le.mp left
      have rest := induction held (sub_nonneg.mpr (min_le_left qty layer.val.qtyRemaining))
      obtain ⟨⟨sum,nonneg⟩,positive⟩ := rest
      refine ⟨⟨?_,nonneg⟩,List.forall_mem_cons.mpr ⟨lt_min left some_,positive⟩⟩
      rw [List.map_cons,List.sum_cons,add_assoc,sum]
      ring

theorem cover_scaled : ∀ {qty : ℚ}, qty ∈ Decimal.grid 4 →
    (∀ slice ∈ (cover layers qty).1, slice.qty ∈ Decimal.grid 4) ∧ (cover layers qty).2 ∈ Decimal.grid 4 := by
  induction layers with
  | nil => simp [cover]
  | cons entry rest induction =>
    intro qty scaled
    obtain ⟨layer,id⟩ := entry
    rw [cover]
    split
    · simp [scaled]
    · have take : min qty layer.val.qtyRemaining ∈ Decimal.grid 4 := by
        rcases min_choice qty layer.val.qtyRemaining with same | same
        · rwa [same]
        · rw [same]
          exact layer.2.remainingScaled
      obtain ⟨slices,short⟩ := induction (sub_mem scaled take)
      exact ⟨List.forall_mem_cons.mpr ⟨take,slices⟩,short⟩

/-- The slices of a position that cover a quantity; what layers lack is taken at a fallback cost. -/
def Store.slices (s : Store) (position : Position) (qty fallback : ℚ) : List FifoLayerConsumption :=
  if qty ≤ 0 then []
  else
    let r := cover (s.fifoLayers position) qty
    if 0 < r.2 then r.1 ++ [⟨none,r.2,fallback⟩] else r.1

theorem ends_consumeFifoLayers_cover : Ends (consumeFifoLayers position qty) s fun r t =>
    Moved s t [] ∧ r = if qty ≤ 0 then ([],0) else cover (s.fifoLayers position) qty := by
  rw [consumeFifoLayers_eq]
  split
  · exact ends_pure ⟨moved_refl s,rfl⟩
  · exact .bind (ends_get ((ends_takeFromLayers_cover _).mono fun r t took => ⟨took.2,took.1⟩))

theorem ends_allocateSaleLineFifo_slices : Ends (allocateSaleLineFifo position qty) s fun allocation t =>
    Moved s t [] ∧ ∃ fallback, allocation.slices = s.slices position qty fallback := by
  refine .bind (ends_consumeFifoLayers_cover.mono fun r t took => ?_)
  obtain ⟨moved,same⟩ := took
  obtain ⟨slices,short⟩ := r
  by_cases none : qty ≤ 0
  · rw [if_pos none] at same
    obtain ⟨rfl,rfl⟩ := Prod.mk.inj same
    dsimp only
    rw [if_neg (lt_irrefl _)]
    exact ends_pure ⟨moved,0,by simp [Store.slices,none]⟩
  · rw [if_neg none] at same
    have covered (fallback : ℚ) : s.slices position qty fallback =
        if 0 < short then slices ++ [⟨Option.none,short,fallback⟩] else slices := by
      rw [Store.slices,if_neg none,← same]
    dsimp only
    split
    · next some_ =>
      refine .bind (ends_getFallbackCostPerUnit.mono fun fallback u unchanged => ends_pure ⟨unchanged ▸ moved,fallback,?_⟩)
      rw [covered,if_pos some_]
    · next whole => exact ends_pure ⟨moved,0,by rw [covered,if_neg whole]⟩

theorem fifoLayers_held (s : Store) (position : Position) : ∀ entry ∈ s.fifoLayers position, 0 < entry.1.val.qtyRemaining := by
  intro entry member
  rw [Store.fifoLayers,List.mem_insertionSort,List.mem_filter] at member
  simpa using (Bool.and_eq_true_iff.mp member.2).2

theorem slices_sum (nonneg : 0 ≤ qty) (fallback : ℚ) : totalQty (s.slices position qty fallback) = qty ∧
    ∀ slice ∈ s.slices position qty fallback, 0 < slice.qty := by
  obtain ⟨⟨sum,least⟩,positive⟩ := cover_facts (fifoLayers_held s position) nonneg
  unfold Store.slices totalQty
  dsimp only
  split
  · next none => simpa using nonneg.antisymm none
  · split
    · next some_ =>
      rw [List.map_append,List.sum_append]
      exact ⟨by simpa using sum,List.forall_mem_append.mpr ⟨positive,List.forall_mem_singleton.mpr some_⟩⟩
    · next none =>
      have zero : (cover (s.fifoLayers position) qty).2 = 0 := (not_lt.mp none).antisymm least
      exact ⟨by rwa [zero,add_zero] at sum,positive⟩

theorem slices_scaled (scaled : qty ∈ Decimal.grid 4) (fallback : ℚ) :
    ∀ slice ∈ s.slices position qty fallback, slice.qty ∈ Decimal.grid 4 := by
  have covered : (∀ slice ∈ (cover (s.fifoLayers position) qty).1, slice.qty ∈ Decimal.grid 4) ∧
      (cover (s.fifoLayers position) qty).2 ∈ Decimal.grid 4 := cover_scaled scaled
  obtain ⟨each,short⟩ := covered
  unfold Store.slices
  dsimp only
  split
  · exact List.forall_mem_nil _
  · split
    · exact List.forall_mem_append.mpr ⟨each,List.forall_mem_singleton.mpr short⟩
    · exact each

theorem ends_rows {α : Type} (row : α → MovementRow) (xs : List α) : ∀ {s : Store},
    Ends (forM xs fun x => createStockMovement (row x)) s fun _ t => ∃ rows,
      rows.map Subtype.val = xs.map (fun x => (row x).stored) ∧ t = { s with movements := s.movements ++ rows } := by
  induction xs with
  | nil =>
    intro s
    exact ends_pure ⟨[],by simp⟩
  | cons x xs induction =>
    intro s
    rw [List.forM_cons]
    refine .bind (ends_createStockMovement.mono fun _ t wrote => ?_)
    obtain ⟨m,same,rfl⟩ := wrote
    refine induction.mono fun _ u more => ?_
    obtain ⟨rows,each,rfl⟩ := more
    exact ⟨m :: rows,by rw [List.map_cons,List.map_cons,same,each],by simp [Store.record]⟩

/-- The rows of slices as they are stored. -/
def sliceRows (position : Position) (movementType : MovementType) (reference : Reference) (movementAt : Int)
    (slices : List FifoLayerConsumption) : List MovementRow :=
  slices.zipIdx.map fun slice => (sliceMovement position movementType reference movementAt slice).stored

theorem ends_consumeToMovements_rows {item : Item} {movementType : MovementType} {reference : Reference} {movementAt : Int} :
    Ends (consumeToMovements item movementType reference movementAt) s fun _ t => ∃ fallback rows, Moved s t rows ∧
      rows.map Subtype.val = sliceRows item.position movementType reference movementAt (s.slices item.position item.qty fallback) := by
  refine .bind (ends_allocateSaleLineFifo_slices.mono fun allocation t took => ?_)
  obtain ⟨moved,fallback,same⟩ := took
  refine .bind ((ends_rows _ _).mono fun _ u wrote => ends_pure ?_)
  obtain ⟨rows,each,rfl⟩ := wrote
  refine ⟨fallback,rows,?_,by rw [each,same,sliceRows]⟩
  have later : Moved t { t with movements := t.movements ++ rows } rows := ⟨t.layers,le_rfl,rfl⟩
  exact moved.trans later

theorem sliceRows_sum {movementType : MovementType} {reference : Reference} {movementAt : Int} {slices : List FifoLayerConsumption}
    (scaled : ∀ slice ∈ slices, slice.qty ∈ Decimal.grid 4) :
    ((sliceRows position movementType reference movementAt slices).map MovementRow.qty).sum = -totalQty slices := by
  have each : (sliceRows position movementType reference movementAt slices).map MovementRow.qty =
      (slices.zipIdx.map Prod.fst).map fun slice => -slice.qty := by
    rw [sliceRows,List.map_map,List.map_map]
    apply List.map_congr_left
    intro entry member
    have inside : entry.1 ∈ slices := List.fst_mem_of_mem_zipIdx member
    have same : round4 (-entry.1.qty) = -entry.1.qty := Decimal.quantize_of_mem_grid (neg_mem (scaled entry.1 inside))
    exact same
  have negated : (fun slice : FifoLayerConsumption => -slice.qty) = fun slice => 0 - slice.qty := by
    ext slice
    exact (zero_sub _).symm
  rw [each,List.zipIdx_map_fst,totalQty,negated,Tally.sum_map_sub]
  simp

/-- What rows take. -/
def taken (rows : List StockMovement) : ℚ := -(rows.map (·.val.qty)).sum

theorem ends_consumeToMovements_taken {item : Item} {movementType : MovementType} {reference : Reference} {movementAt : Int}
    (nonneg : 0 ≤ item.qty) (scaled : item.qty ∈ Decimal.grid 4) :
    Ends (consumeToMovements item movementType reference movementAt) s fun _ t => ∃ rows, Moved s t rows ∧
      (∀ m ∈ rows, m.val.position = item.position ∧ m.val.movementType = movementType) ∧ taken rows = item.qty := by
  refine ends_consumeToMovements_rows.mono fun _ t wrote => ?_
  obtain ⟨fallback,rows,moved,each⟩ := wrote
  have sum : (rows.map (·.val.qty)).sum = -totalQty (s.slices item.position item.qty fallback) := by
    rw [← sliceRows_sum (slices_scaled scaled fallback),← each,List.map_map]
    rfl
  refine ⟨rows,moved,?_,?_⟩
  · intro m member
    have row : m.val ∈ rows.map Subtype.val := List.mem_map.mpr ⟨m,member,rfl⟩
    rw [each] at row
    obtain ⟨slice,-,same⟩ := List.mem_map.mp row
    simp [← same,MovementRow.stored,sliceMovement]
  · rw [taken,sum,neg_neg,(slices_sum nonneg fallback).1]

/-- The layer and the row of goods received. -/
theorem ends_receiveIntoNewLayer_row (item : Item) {cost : ℚ} {movementType : MovementType} {reference : Reference}
    {createdAt movementAt : Int} {movementSequence : Option Nat} :
    Ends (receiveIntoNewLayer item cost movementType reference createdAt movementAt movementSequence) s fun _ t =>
      ∃ (layer : PurchaseLine) (m : StockMovement),
        layer.val = ⟨none,item.position,round4 item.qty,round4 item.qty,round4 item.qty,round4 (round4 cost),createdAt⟩ ∧
        m.val = ⟨item.position,movementType,round4 item.qty,round4 cost,reference,some s.layers.length,movementAt,movementSequence⟩ ∧
        t = { s with layers := s.layers ++ [layer], movements := s.movements ++ [m] } := by
  have made : Ends (createFifoLayer item cost createdAt) s fun id t => id = s.layers.length ∧ ∃ layer : PurchaseLine,
      layer.val = ⟨none,item.position,round4 item.qty,round4 item.qty,round4 item.qty,round4 (round4 cost),createdAt⟩ ∧
        t = { s with layers := s.layers ++ [layer] } := by
    refine .bind (ends_ofExcept fun stored ok => .bind (ends_get (.bind (ends_put (ends_pure ⟨rfl,stored,?_,rfl⟩)))))
    rw [LayerRow.store] at ok
    split at ok
    · cases ok
      rfl
    · cases ok
  refine .bind (made.mono fun id t first => ?_)
  obtain ⟨rfl,layer,same,rfl⟩ := first
  refine ends_createStockMovement.mono fun _ u wrote => ?_
  obtain ⟨m,stored,rfl⟩ := wrote
  exact ⟨layer,m,same,stored,by simp [Store.record]⟩

theorem round4_split {remaining : ℚ} (inside : remaining ∈ Decimal.grid 4) (held : 0 ≤ remaining) (qty : ℚ) :
    round4 (min qty remaining) + round4 (qty - min qty remaining) = round4 qty := by
  rcases le_total qty remaining with within_ | beyond
  · have zero : round4 0 = 0 := Decimal.quantize_of_mem_grid (zero_mem _)
    rw [min_eq_left within_,sub_self,zero,add_zero]
  · have same : round4 remaining = remaining := Decimal.quantize_of_mem_grid inside
    rw [min_eq_right beyond,same,add_comm]
    exact Decimal.quantize_sub_add inside held beyond

theorem cover_rounded (layers : List (PurchaseLine × Nat)) : ∀ qty,
    ((cover layers qty).1.map fun slice => round4 slice.qty).sum + round4 (cover layers qty).2 = round4 qty := by
  induction layers with
  | nil => simp [cover]
  | cons entry rest induction =>
    intro qty
    obtain ⟨layer,id⟩ := entry
    rw [cover]
    split
    · simp
    · rw [List.map_cons,List.sum_cons,add_assoc,induction]
      exact round4_split layer.2.remainingScaled layer.2.remaining qty

theorem slices_covers (nonneg : 0 ≤ qty) (fallback : ℚ) : Covers qty (s.slices position qty fallback) := by
  refine ⟨(slices_sum nonneg fallback).2,?_⟩
  have least := (cover_facts (fifoLayers_held s position) nonneg).1.2
  have sum := cover_rounded (s.fifoLayers position) qty
  have zero : round4 0 = 0 := Decimal.quantize_of_mem_grid (zero_mem _)
  unfold Store.slices
  dsimp only
  split
  · next none => rw [none.antisymm nonneg,zero,List.map_nil,List.sum_nil]
  · split
    · simpa using sum
    · next none =>
      rw [(not_lt.mp none).antisymm least,zero,add_zero] at sum
      exact sum

theorem ends_allocateCovers (nonneg : 0 ≤ qty) : Ends (allocateSaleLineFifo position qty) s fun allocation t =>
    Moved s t [] ∧ Covers qty allocation.slices := by
  refine ends_allocateSaleLineFifo_slices.mono fun allocation t took => ?_
  obtain ⟨moved,fallback,same⟩ := took
  exact ⟨moved,same ▸ slices_covers nonneg fallback⟩

theorem ends_sliceRows {item : Item} {movementType : MovementType} {reference : Reference} {movementAt : Int}
    {slices : List FifoLayerConsumption} (covers : Covers item.qty slices) :
    Ends (createSliceMovements item.position movementType reference movementAt slices) s fun _ t =>
      ∃ rows, Moved s t rows ∧ Outgoing rows item movementType reference := by
  refine (ends_rows _ _).mono fun _ t wrote => ?_
  obtain ⟨rows,each,rfl⟩ := wrote
  have stored (slice : FifoLayerConsumption × Nat) :
      (sliceMovement item.position movementType reference movementAt slice).stored.qty = -round4 slice.1.qty := Decimal.quantize_neg
  refine ⟨rows,⟨s.layers,le_rfl,rfl⟩,fun m member => ?_,?_⟩
  · have row : m.val ∈ rows.map Subtype.val := List.mem_map_of_mem member
    rw [each] at row
    obtain ⟨slice,inside,same⟩ := List.mem_map.mp row
    have nonneg : 0 ≤ round4 slice.1.qty := Decimal.quantize_nonneg (covers.1 slice.1 (List.fst_mem_of_mem_zipIdx inside)).le
    rw [← same,stored]
    exact ⟨rfl,rfl,rfl,neg_nonpos.mpr nonneg⟩
  · calc (rows.map (·.val.qty)).sum
        = ((rows.map Subtype.val).map MovementRow.qty).sum := by rw [List.map_map]; rfl
      _ = ((slices.zipIdx.map Prod.fst).map fun slice => -round4 slice.qty).sum := by
        rw [each,List.map_map,List.map_map]
        exact congrArg List.sum (List.map_congr_left fun slice _ => stored slice)
      _ = -(slices.map fun slice => round4 slice.qty).sum := by
        rw [List.zipIdx_map_fst,List.sum_neg,List.map_map]
        rfl
      _ = -round4 item.qty := by rw [covers.2]

end Stock
