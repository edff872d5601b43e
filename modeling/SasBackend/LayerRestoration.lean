import SasBackend.LayerAccounting

/-! Returns, void and cancel put back what a sale line took: the plan goes back over the line's slices, the layers take it in full
while it stays within what is owed to the line, and the rest opens a layer.
-/
namespace Stock
open SasBackend Tally Program Transition
open Refunds (LineId SaleLineRequest ReturnLineRequest CreateSaleReturnRequest)

variable {s t : Store} {drift due spare : Nat → ℚ} {id : Nat} {layer : PurchaseLine} {qty : ℚ} {position : Position} {line : LineId}

/-- Slices as rows of the ledger hold them. -/
def Ledger (slices : List FifoLayerConsumption) : Prop := ∀ slice ∈ slices, 0 < slice.qty ∧ slice.qty ∈ Decimal.grid 4

theorem totalQty_cons (slice : FifoLayerConsumption) (slices : List FifoLayerConsumption) :
    totalQty (slice :: slices) = slice.qty + totalQty slices := by
  rw [totalQty,List.map_cons,List.sum_cons,totalQty]

theorem Ledger.total_nonneg {slices : List FifoLayerConsumption} (ledger : Ledger slices) : 0 ≤ totalQty slices := by
  apply List.sum_nonneg
  intro amount member
  obtain ⟨slice,inside,rfl⟩ := List.mem_map.mp member
  exact (ledger slice inside).1.le

theorem drawn_nonneg {slices : List FifoLayerConsumption} (nonneg : ∀ slice ∈ slices, 0 ≤ slice.qty) (id : Nat) : 0 ≤ drawn slices id :=
  tally_nonneg fun slice member => Decimal.quantize_nonneg (nonneg slice member)

theorem round4_nonpos {qty : ℚ} (nonpos : qty ≤ 0) : round4 qty ≤ 0 := by
  have zero : round4 0 = 0 := Decimal.quantize_of_mem_grid (zero_mem _)
  exact (Decimal.quantize_mono nonpos).trans_eq zero

theorem unwind_layers {slices : List FifoLayerConsumption} (qty : ℚ) : ∀ slice ∈ unwind slices qty, ∃ from_ ∈ slices,
    slice.purchaseLineId = from_.purchaseLineId := by
  induction slices generalizing qty with
  | nil => simp [unwind]
  | cons slice rest induction =>
    rw [unwind]
    split
    · simp
    · refine List.forall_mem_cons.mpr ⟨⟨slice,List.mem_cons_self,rfl⟩,fun other member => ?_⟩
      obtain ⟨from_,inside,same⟩ := induction _ other member
      exact ⟨from_,List.mem_cons_of_mem _ inside,same⟩

theorem drawn_unwind_le {slices : List FifoLayerConsumption} (ledger : Ledger slices) (qty : ℚ) (id : Nat) :
    drawn (unwind slices qty) id ≤ drawn slices id := by
  have nonneg : ∀ {slices : List FifoLayerConsumption}, Ledger slices → 0 ≤ drawn slices id := fun ledger =>
    drawn_nonneg (fun slice member => (ledger slice member).1.le) id
  induction slices generalizing qty with
  | nil => exact le_rfl
  | cons slice rest induction =>
    have later : Ledger rest := fun other member => ledger other (List.mem_cons_of_mem _ member)
    rw [unwind]
    split
    · exact nonneg ledger
    · rw [drawn_cons,drawn_cons]
      refine add_le_add ?_ (induction later _)
      dsimp only
      split
      · exact Decimal.quantize_mono (min_le_right _ _)
      · exact le_rfl

theorem sum_unwind {slices : List FifoLayerConsumption} (ledger : Ledger slices) {qty : ℚ} (nonneg : 0 ≤ qty) :
    ((unwind slices qty).map fun slice => round4 slice.qty).sum = round4 (min qty (totalQty slices)) := by
  have zero : round4 0 = 0 := Decimal.quantize_of_mem_grid (zero_mem _)
  induction slices generalizing qty with
  | nil => simp [unwind,totalQty,min_eq_right nonneg,zero]
  | cons slice rest induction =>
    have later : Ledger rest := fun other member => ledger other (List.mem_cons_of_mem _ member)
    obtain ⟨some_,exact_⟩ := ledger slice List.mem_cons_self
    have total := later.total_nonneg
    rw [unwind,totalQty_cons]
    split
    · next none =>
      obtain rfl : qty = 0 := none.antisymm nonneg
      rw [min_eq_left (by linarith),zero,List.map_nil,List.sum_nil]
    · rw [List.map_cons,List.sum_cons,induction later (sub_nonneg.mpr (min_le_left _ _))]
      rcases le_total qty slice.qty with within_ | beyond
      · rw [min_eq_left within_,sub_self,min_eq_left total,min_eq_left (by linarith),zero,add_zero]
      · have same : round4 slice.qty = slice.qty := Decimal.quantize_of_mem_grid exact_
        have rest_ : 0 ≤ min (qty - slice.qty) (totalQty rest) := le_min (sub_nonneg.mpr beyond) total
        rw [min_eq_right beyond,same]
        refine (Decimal.quantize_add exact_ some_.le rest_).symm.trans (congrArg round4 ?_)
        rw [← min_add_add_left]
        congr 1
        ring

theorem totalQty_unwind {slices : List FifoLayerConsumption} (ledger : Ledger slices) {qty : ℚ} (nonneg : 0 ≤ qty) :
    totalQty (unwind slices qty) = min qty (totalQty slices) := by
  induction slices generalizing qty with
  | nil => simp [unwind,totalQty,min_eq_right nonneg]
  | cons slice rest induction =>
    have later : Ledger rest := fun other member => ledger other (List.mem_cons_of_mem _ member)
    have total := later.total_nonneg
    rw [unwind,totalQty_cons]
    split
    · next none =>
      obtain rfl : qty = 0 := none.antisymm nonneg
      rw [min_eq_left (by linarith [(ledger slice List.mem_cons_self).1])]
      rfl
    · rw [totalQty_cons,induction later (sub_nonneg.mpr (min_le_left _ _))]
      rcases le_total qty slice.qty with within_ | beyond
      · rw [min_eq_left within_,sub_self,min_eq_left total,min_eq_left (by linarith),add_zero]
      · rw [min_eq_right beyond,← min_add_add_left]
        congr 1
        ring

theorem unwind_all {slices : List FifoLayerConsumption} (ledger : Ledger slices) : unwind slices (totalQty slices) = slices := by
  induction slices with
  | nil => rfl
  | cons slice rest induction =>
    have later : Ledger rest := fun other member => ledger other (List.mem_cons_of_mem _ member)
    have some_ := (ledger slice List.mem_cons_self).1
    have total := later.total_nonneg
    rw [unwind,totalQty_cons,if_neg (by linarith),min_eq_right (by linarith)]
    dsimp only
    rw [add_sub_cancel_left,induction later]

/-- What stays within the first slice comes from its layer alone. -/
theorem drawn_unwind_first {first : FifoLayerConsumption} {rest : List FifoLayerConsumption} (ledger : Ledger (first :: rest))
    (nonneg : 0 ≤ qty) (within_ : round4 qty ≤ first.qty) (id : Nat) :
    drawn (unwind (first :: rest) qty) id ≤ if first.purchaseLineId = some id then round4 qty else 0 := by
  have later : Ledger rest := fun other member => ledger other (List.mem_cons_of_mem _ member)
  obtain ⟨some_,exact_⟩ := ledger first List.mem_cons_self
  have less : 0 ≤ qty - min qty first.qty := sub_nonneg.mpr (min_le_left _ _)
  have nothing : drawn (unwind rest (qty - min qty first.qty)) id ≤ 0 := by
    have small : round4 (qty - min qty first.qty) ≤ 0 := by
      rcases le_total qty first.qty with inside | beyond
      · rw [min_eq_left inside,sub_self]
        exact round4_nonpos le_rfl
      · rw [min_eq_right beyond]
        have split_ := Decimal.quantize_sub_add exact_ some_.le beyond
        change round4 (qty - first.qty) + first.qty = round4 qty at split_
        linarith
    have nonneg : ∀ slice ∈ unwind rest (qty - min qty first.qty), 0 ≤ round4 slice.qty := fun slice member =>
      Decimal.quantize_nonneg (Oversell.unwind_nonneg (fun other inside => (later other inside).1.le) _ slice member)
    refine (tally_le_sum nonneg).trans ?_
    rw [sum_unwind later less]
    exact (Decimal.quantize_mono (min_le_left _ _)).trans small
  rw [unwind]
  split
  · split
    · exact Decimal.quantize_nonneg nonneg
    · exact le_rfl
  · rw [drawn_cons]
    refine (add_le_add_right nothing _).trans ?_
    rw [add_zero]
    dsimp only
    split
    · exact Decimal.quantize_mono (min_le_left _ _)
    · exact le_rfl

theorem ledger_traced (s : Store) (line : LineId) : Ledger (s.tracedConsumptions line) := by
  intro slice member
  obtain ⟨m,-,rfl⟩ := List.mem_map.mp member
  exact ⟨abs_pos.mpr m.2.nonzero,Decimal.abs_mem_grid m.2.scaled⟩

theorem drawn_traced (s : Store) (line : LineId) (id : Nat) : drawn (s.tracedConsumptions line) id = s.takenFrom line id := by
  have exact_ : ∀ slice ∈ s.tracedConsumptions line, round4 slice.qty = slice.qty := fun slice member =>
    Decimal.quantize_of_mem_grid (ledger_traced s line slice member).2
  rw [drawn,tally_congr exact_,Store.tracedConsumptions,tally_map,tally_perm (List.perm_insertionSort _ _)]
  change tally (fun m : StockMovement => m.val.purchaseLineId) (fun m => |m.val.qty|) (some id) _ = _
  rw [tally,List.filter_filter,Store.takenFrom,tally]
  congr 2
  refine List.filter_congr fun m _ => ?_
  by_cases named : m.val.purchaseLineId = some id <;> simp [named]

theorem traced_known (kept : Kept s due spare) (line : LineId) : ∀ slice ∈ s.tracedConsumptions line, ∃ id,
    slice.purchaseLineId = some id ∧ id < s.layers.length := by
  intro slice member
  obtain ⟨m,inside,rfl⟩ := List.mem_map.mp member
  rw [List.mem_insertionSort,List.mem_filter,Store.saleMovements,List.mem_filter,Option.isSome_iff_exists] at inside
  obtain ⟨⟨row,-⟩,id,named⟩ := inside
  exact ⟨id,named,kept.known m row id named⟩

/-- Between requests nothing is due; `drift` is what layers hold beyond their movements. -/
def Settled (drift : Nat → ℚ) (s : Store) : Prop := Kept s drift drift

theorem Moved.about {rows : List StockMovement} (moved : Moved s t rows) (reference : Reference) : t.about reference = s.about reference := by
  obtain ⟨layers,-,rfl⟩ := moved
  rfl

theorem Moved.givenBack (moved : Moved s t []) (line : LineId) (id : Nat) : t.givenBack line id = s.givenBack line id := by
  obtain ⟨layers,-,rfl⟩ := moved
  rw [List.append_nil]
  rfl

theorem Moved.owed (moved : Moved s t []) (line : LineId) (id : Nat) : t.owed line id = s.owed line id := by
  obtain ⟨layers,-,rfl⟩ := moved
  rw [List.append_nil]
  rfl

/-- Layers take back in full what is owed of them. -/
theorem ends_restoreFifoLayers (line : LineId) (slices : List FifoLayerConsumption) : ∀ {s due}, Kept s due drift →
    (∀ slice ∈ slices, 0 ≤ slice.qty ∧ ∃ id, slice.purchaseLineId = some id ∧ id < s.layers.length) →
    (∀ id, due id + drawn slices id ≤ drift id + s.owed line id) →
    Ends (restoreFifoLayers slices) s fun _ t => Moved s t [] ∧ Kept t (fun id => due id + drawn slices id) drift := by
  induction slices with
  | nil =>
    intro s due kept _ _
    exact ends_pure ⟨moved_refl s,kept.congr (fun id => by simp [drawn]) fun _ => rfl⟩
  | cons slice slices induction =>
    intro s due kept known enough
    obtain ⟨⟨nonneg,id,named,inside⟩,known⟩ := List.forall_mem_cons.mp known
    have later (other : Nat) : 0 ≤ drawn slices other := drawn_nonneg (fun slice member => (known slice member).1) other
    have found : s.layers[id]? = some s.layers[id] := List.getElem?_eq_getElem inside
    generalize s.layers[id] = layer at found
    have bound : layer.val.qtyRemaining + round4 slice.qty ≤ layer.val.receivedQty := by
      have room := kept.room id layer found {line}
      have due_ := enough id
      rw [drawn_cons,if_pos named] at due_
      rw [Finset.sum_singleton] at room
      rw [kept.balanced id layer found]
      linarith [later id]
    have remaining := layer.2.remainingScaled
    have filled : round4 (min (layer.val.qtyRemaining + slice.qty) layer.val.receivedQty) = layer.val.qtyRemaining + round4 slice.qty := by
      have full : round4 layer.val.receivedQty = layer.val.receivedQty := Decimal.quantize_of_mem_grid layer.2.receivedScaled
      have sum : round4 (layer.val.qtyRemaining + slice.qty) = layer.val.qtyRemaining + round4 slice.qty :=
        Decimal.quantize_add remaining layer.2.remaining nonneg
      have mono : Monotone round4 := fun _ _ le => Decimal.quantize_mono le
      rw [mono.map_min,sum,full,min_eq_left bound]
    rw [restoreFifoLayers,List.forM_cons]
    simp only [named]
    refine .bind (.bind (ends_get ?_))
    rw [found]
    refine ends_updateLayer.mono fun _ t updated => ?_
    obtain ⟨stored,remains,into,rfl⟩ := updated
    have received : round4 layer.val.receivedQty = layer.val.receivedQty := Decimal.quantize_of_mem_grid layer.2.receivedScaled
    have moved := kept.setLayer found (round4 slice.qty) 0 (by rw [remains,filled]) (by rw [into]; simp [received])
    have next_ : Kept _ (bump due id (round4 slice.qty)) drift := moved.congr (fun _ => rfl) fun _ => by simp [bump]
    have first : Moved s { s with layers := s.layers.set id stored } [] := ⟨s.layers.set id stored,List.length_set.ge,by simp⟩
    have still : ∀ slice ∈ slices, 0 ≤ slice.qty ∧ ∃ other, slice.purchaseLineId = some other ∧ other < (s.layers.set id stored).length := by
      simpa using known
    refine (induction next_ still fun other => ?_).mono fun _ u more => ⟨first.trans more.1,more.2.congr (fun other => ?_) fun _ => rfl⟩
    · have limit := enough other
      rw [drawn_cons,named] at limit
      rw [first.owed]
      simp only [bump,Option.some.injEq,eq_comm (a := id)] at limit ⊢
      linarith
    · simp only [drawn_cons,named,bump,Option.some.injEq,eq_comm (a := id)]
      ring

/-- Rows that give a quantity back. -/
def Incoming (r : Restoration) (rows : List StockMovement) : Prop :=
  ∀ m ∈ rows, m.val.position = r.position ∧ m.val.movementType = .saleReturn ∧ m.val.reference = r.reference ∧ 0 ≤ m.val.qty

theorem ends_restoredRows {r : Restoration} (slices : List FifoLayerConsumption) : ∀ {s due}, Kept s due drift →
    (∀ saleReturn index, r.reference = .saleReturnLine saleReturn index → saleReturn < s.returns.length) →
    s.about r.reference = some line →
    (∀ slice ∈ slices, 0 ≤ slice.qty ∧ ∃ id, slice.purchaseLineId = some id ∧ id < s.layers.length) →
    (∀ id, 0 < drawn slices id → s.givenBack line id + drawn slices id ≤ s.takenFrom line id) →
    Ends (forM slices fun slice => createStockMovement
      ⟨r.position,.saleReturn,slice.qty,slice.costPerUnit,r.reference,slice.purchaseLineId,r.movementAt,none⟩) s fun _ t =>
      Kept t (fun id => due id - drawn slices id) drift ∧ ∃ rows, Moved s t rows ∧ Incoming r rows ∧
        (rows.map (·.val.qty)).sum = (slices.map fun slice => round4 slice.qty).sum ∧
        ∀ id, tally (fun m : StockMovement => m.val.purchaseLineId) (fun m => m.val.qty) (some id) rows = drawn slices id := by
  induction slices with
  | nil =>
    intro s due kept _ _ _ _
    exact ends_pure ⟨kept.congr (fun id => by simp [drawn]) fun _ => rfl,[],moved_refl s,List.forall_mem_nil _,rfl,fun _ => rfl⟩
  | cons slice slices induction =>
    intro s due kept reported about known enough
    obtain ⟨⟨nonneg,id,named,inside⟩,known⟩ := List.forall_mem_cons.mp known
    have later (other : Nat) : 0 ≤ drawn slices other := drawn_nonneg (fun slice member => (known slice member).1) other
    rw [List.forM_cons]
    refine .bind (ends_createStockMovement.mono fun _ t wrote => ?_)
    obtain ⟨m,same,rfl⟩ := wrote
    have brings : m.val.qty = round4 slice.qty := by rw [same]; rfl
    have layered : m.val.purchaseLineId = some id := by rw [same]; exact named
    have kind : m.val.position = r.position ∧ m.val.movementType = .saleReturn ∧ m.val.reference = r.reference := by
      rw [same]
      exact ⟨rfl,rfl,rfl⟩
    have unsold : m.val.movementType ≠ .sale := by simp [kind.2.1]
    have amount : 0 ≤ m.val.qty := brings ▸ Decimal.quantize_nonneg nonneg
    have positive : 0 < m.val.qty := lt_of_le_of_ne amount (Ne.symm m.2.nonzero)
    have gives (other : LineId) : s.givesBack other m ↔ other = line := by
      simp only [Store.givesBack,kind.2.1,kind.2.2,about,Option.some.injEq,decide_true,Bool.true_and,decide_eq_true_eq]
      exact eq_comm
    have limit := enough id
    rw [drawn_cons,if_pos named,← brings] at limit
    have here := limit (by linarith [later id])
    have next_ := kept.recordRestored (m := m) (fun other same => Option.some.inj (layered.symm.trans same) ▸ inside)
      (fun saleReturn index written => reported saleReturn index (kind.2.2.symm.trans written)) amount unsold gives
      (fun other same => by
        obtain rfl := Option.some.inj (layered.symm.trans same)
        linarith [later id])
    have more (other : Nat) (some_ : 0 < drawn slices other) :
        (s.record m).givenBack line other + drawn slices other ≤ (s.record m).takenFrom line other := by
      have bound := enough other
      rw [drawn_cons,named] at bound
      rw [givenBack_movement,recorded_takenFrom unsold,layered,brings]
      simp only [(gives line).mpr rfl,true_and]
      split_ifs at bound ⊢ <;> linarith [bound (by linarith [brings ▸ positive])]
    refine (induction next_ reported about known more).mono fun _ u wrote => ?_
    obtain ⟨kept,rows,moved,incoming,total,layers⟩ := wrote
    refine ⟨kept.congr (fun other => ?_) fun _ => rfl,m :: rows,(moved_record s m).trans moved,?_,?_,fun other => ?_⟩
    · rw [drawn_cons,named,layered,brings]
      ring
    · exact List.forall_mem_cons.mpr ⟨⟨kind.1,kind.2.1,kind.2.2,amount⟩,incoming⟩
    · rw [List.map_cons,List.sum_cons,total,brings,List.map_cons,List.sum_cons]
    · rw [tally_cons,layers,drawn_cons,layered,named,brings]

theorem drawn_reverse (slices : List FifoLayerConsumption) (id : Nat) : drawn slices.reverse id = drawn slices id :=
  tally_perm slices.reverse_perm

theorem Ledger.reverse {slices : List FifoLayerConsumption} (ledger : Ledger slices) : Ledger slices.reverse := fun slice member =>
  ledger slice (List.mem_reverse.mp member)

theorem totalQty_reverse (slices : List FifoLayerConsumption) : totalQty slices.reverse = totalQty slices := by
  rw [totalQty,List.map_reverse,List.sum_reverse,totalQty]

theorem Ledger.planned {slices : List FifoLayerConsumption} (ledger : Ledger slices) {asked : ℚ} (least : 0 ≤ min asked (totalQty slices)) :
    totalQty (planLifoRestoration slices (min asked (totalQty slices))) = min asked (totalQty slices) ∧
      ((planLifoRestoration slices (min asked (totalQty slices))).map fun slice => round4 slice.qty).sum = round4 (min asked (totalQty slices)) := by
  constructor
  · rw [planLifoRestoration,totalQty_unwind ledger.reverse least,totalQty_reverse,min_assoc,min_self]
  · rw [planLifoRestoration,sum_unwind ledger.reverse least,totalQty_reverse,min_assoc,min_self]

theorem Kept.givenBack_le (kept : Kept s due spare) (line : LineId) (id : Nat) : s.givenBack line id ≤ s.restoredQty line := by
  apply tally_le_sum
  intro m member
  obtain ⟨inside,gives⟩ := List.mem_filter.mp member
  exact kept.gave m inside (givesBack_saleReturn gives)

theorem Kept.restoredQty_nonneg (kept : Kept s due spare) (line : LineId) : 0 ≤ s.restoredQty line := by
  apply List.sum_nonneg
  intro amount member
  obtain ⟨m,inside,rfl⟩ := List.mem_map.mp member
  obtain ⟨row,gives⟩ := List.mem_filter.mp inside
  exact kept.gave m row (givesBack_saleReturn gives)

/-- A line can be given a quantity back: for the first time, or within what the first layer to fill is still owed. -/
def Restorable (s : Store) (line : LineId) (qty : ℚ) : Prop :=
  s.tracedConsumptions line = [] ∨ s.untouched line ∨ s.restoredQty line + round4 qty ≤ s.lastTaken line

theorem plan_within (kept : Kept s due spare) (nonneg : 0 ≤ qty) (restorable : Restorable s line qty) (id : Nat)
    (some_ : 0 < drawn (planLifoRestoration (s.tracedConsumptions line) (min qty (totalQty (s.tracedConsumptions line)))) id) :
    s.givenBack line id + drawn (planLifoRestoration (s.tracedConsumptions line) (min qty (totalQty (s.tracedConsumptions line)))) id ≤
      s.takenFrom line id := by
  have ledger := ledger_traced s line
  have taken : drawn (s.tracedConsumptions line).reverse id = s.takenFrom line id := (drawn_reverse _ id).trans (drawn_traced s line id)
  rcases restorable with none | untouched | within_
  · rw [none] at some_
    exact absurd some_ (lt_irrefl 0)
  · rw [untouched_givenBack untouched,zero_add,← taken]
    exact drawn_unwind_le ledger.reverse _ id
  · have total := ledger.total_nonneg
    have given := kept.givenBack_le line id
    have nothing := kept.restoredQty_nonneg line
    rw [Store.lastTaken,← List.head?_reverse] at within_
    rw [← taken]
    rw [planLifoRestoration] at some_ ⊢
    have ledger := ledger.reverse
    generalize (s.tracedConsumptions line).reverse = slices at within_ ledger some_ ⊢
    cases slices with
    | nil => exact absurd some_ (lt_irrefl 0)
    | cons first rest =>
      change _ ≤ first.qty at within_
      have least : 0 ≤ min qty (totalQty (s.tracedConsumptions line)) := le_min nonneg total
      have rounded : round4 (min qty (totalQty (s.tracedConsumptions line))) ≤ round4 qty := Decimal.quantize_mono (min_le_left _ _)
      have bound := drawn_unwind_first ledger least (by linarith) id
      have rest_ : 0 ≤ drawn rest id :=
        drawn_nonneg (fun slice member => (ledger slice (List.mem_cons_of_mem _ member)).1.le) id
      have exact_ : round4 first.qty = first.qty := Decimal.quantize_of_mem_grid (ledger first List.mem_cons_self).2
      split at bound
      · next named =>
        rw [drawn_cons first,if_pos named,exact_]
        linarith
      · linarith

/-- What a restoration has done. -/
structure PutBack (r : Restoration) (drift : Nat → ℚ) (s t : Store) (rows : List StockMovement) : Prop where
  settled : Settled drift t
  moved : Moved s t rows
  incoming : Incoming r rows
  bounded : (rows.map (·.val.qty)).sum ≤ round4 r.qtyToRestore
  whole : totalQty (s.tracedConsumptions r.saleLineId) + s.untracedQty r.saleLineId = r.saleLineQty → r.qtyToRestore = r.saleLineQty →
    (rows.map (·.val.qty)).sum = r.saleLineQty ∧ ∀ id < s.layers.length,
      tally (fun m : StockMovement => m.val.purchaseLineId) (fun m => m.val.qty) (some id) rows = s.takenFrom r.saleLineId id

theorem ends_restoreUntraced {r : Restoration} (settled : Settled drift s)
    (reported : ∀ saleReturn index, r.reference = .saleReturnLine saleReturn index → saleReturn < s.returns.length) (nonneg : 0 ≤ qty) :
    Ends (restoreUntraced r qty) s fun _ t => Settled drift t ∧ ∃ m : StockMovement, Moved s t [m] ∧ Incoming r [m] ∧
      m.val.qty = round4 qty ∧ m.val.purchaseLineId = some s.layers.length := by
  refine (ends_receiveIntoNewLayer ⟨r.position,qty⟩ (by decide) reported settled nonneg).mono fun _ t received => ?_
  obtain ⟨kept,m,moved,placed,typed,about,brings,layered⟩ := received
  refine ⟨kept,m,moved,List.forall_mem_singleton.mpr ⟨placed,typed,about,?_⟩,brings,layered⟩
  rw [brings]
  exact Decimal.quantize_nonneg nonneg

theorem untraced_mem_grid (s : Store) (line : LineId) : s.untracedQty line ∈ Decimal.grid 4 ∧ 0 ≤ s.untracedQty line := by
  constructor
  · apply list_sum_mem
    intro amount member
    obtain ⟨m,-,rfl⟩ := List.mem_map.mp member
    rcases abs_choice m.val.qty with same | negated
    · rw [same]
      exact m.2.scaled
    · rw [negated]
      exact neg_mem m.2.scaled
  · apply List.sum_nonneg
    intro amount member
    obtain ⟨m,-,rfl⟩ := List.mem_map.mp member
    exact abs_nonneg _

theorem Ledger.total_mem_grid {slices : List FifoLayerConsumption} (ledger : Ledger slices) : totalQty slices ∈ Decimal.grid 4 := by
  apply list_sum_mem
  intro amount member
  obtain ⟨slice,inside,rfl⟩ := List.mem_map.mp member
  exact (ledger slice inside).2

/-- Putting back a plan of what the line is owed: the layers first, then their rows. -/
theorem ends_restorePlan {r : Restoration} {plan : List FifoLayerConsumption} (settled : Settled drift s)
    (reported : ∀ saleReturn index, r.reference = .saleReturnLine saleReturn index → saleReturn < s.returns.length)
    (about : s.about r.reference = some line)
    (planned : ∀ slice ∈ plan, 0 ≤ slice.qty ∧ ∃ id, slice.purchaseLineId = some id ∧ id < s.layers.length)
    (within_ : ∀ id, 0 < drawn plan id → s.givenBack line id + drawn plan id ≤ s.takenFrom line id) :
    Ends (restoreFifoLayers plan) s fun _ t => Ends (forM plan fun slice => createStockMovement
      ⟨r.position,.saleReturn,slice.qty,slice.costPerUnit,r.reference,slice.purchaseLineId,r.movementAt,none⟩) t fun _ u =>
      Settled drift u ∧ ∃ rows, Moved s u rows ∧ Incoming r rows ∧ (rows.map (·.val.qty)).sum = (plan.map fun slice => round4 slice.qty).sum ∧
        ∀ id, tally (fun m : StockMovement => m.val.purchaseLineId) (fun m => m.val.qty) (some id) rows = drawn plan id := by
  have owed (id : Nat) : drift id + drawn plan id ≤ drift id + s.owed line id := by
    have nonneg := drawn_nonneg (fun slice member => (planned slice member).1) id
    apply add_le_add_right
    rcases nonneg.eq_or_lt with none | some_
    · rw [← none]
      exact owed_nonneg s line id
    · rw [Store.owed]
      exact le_max_of_le_left (by linarith [within_ id some_])
  refine (ends_restoreFifoLayers line plan settled planned owed).mono fun _ t filled => ?_
  obtain ⟨moved,kept⟩ := filled
  have still : ∀ slice ∈ plan, 0 ≤ slice.qty ∧ ∃ id, slice.purchaseLineId = some id ∧ id < t.layers.length := by
    intro slice member
    obtain ⟨nonneg,id,named,inside⟩ := planned slice member
    exact ⟨nonneg,id,named,inside.trans_le moved.longer⟩
  have withinThen (id : Nat) (some_ : 0 < drawn plan id) : t.givenBack line id + drawn plan id ≤ t.takenFrom line id := by
    rw [moved.givenBack,moved.takenFrom]
    exact within_ id some_
  rw [← moved.returns] at reported
  refine (ends_restoredRows plan kept reported ((moved.about _).trans about) still withinThen).mono fun _ u wrote => ?_
  obtain ⟨kept,rows,recorded,incoming,sum,layers⟩ := wrote
  exact ⟨kept.congr (fun id => by ring) fun _ => rfl,rows,moved.trans recorded,incoming,sum,layers⟩

/-- Where no layer was drawn from, what comes back is a layer of its own. -/
theorem ends_putBackFresh {r : Restoration} (settled : Settled drift s) (nonneg : 0 ≤ r.qtyToRestore)
    (reported : ∀ saleReturn index, r.reference = .saleReturnLine saleReturn index → saleReturn < s.returns.length)
    (none : s.tracedConsumptions r.saleLineId = []) :
    Ends (restoreUntraced r r.qtyToRestore) s fun _ t => ∃ rows, PutBack r drift s t rows := by
  refine (ends_restoreUntraced settled reported nonneg).mono fun _ t received => ?_
  obtain ⟨kept,m,moved,incoming,brings,layered⟩ := received
  refine ⟨[m],kept,moved,incoming,by simp [brings],fun whole all => ⟨?_,fun id inside => ?_⟩⟩
  · have nothing : totalQty (s.tracedConsumptions r.saleLineId) = 0 := by
      rw [none]
      rfl
    have scaled := (untraced_mem_grid s r.saleLineId).1
    rw [nothing,zero_add] at whole
    rw [List.map_singleton,List.sum_singleton,brings,all,← whole]
    exact Decimal.quantize_of_mem_grid scaled
  · have apart : s.layers.length ≠ id := inside.ne'
    rw [← drawn_traced,none,tally_singleton,layered,if_neg (by simpa using apart)]
    rfl

theorem ends_restoreSaleLineInventory {r : Restoration} (settled : Settled drift s) (nonneg : 0 ≤ r.qtyToRestore)
    (reported : ∀ saleReturn index, r.reference = .saleReturnLine saleReturn index → saleReturn < s.returns.length)
    (about : s.about r.reference = some r.saleLineId) (restorable : Restorable s r.saleLineId r.qtyToRestore) :
    Ends (restoreSaleLineInventory r) s fun _ t => ∃ rows, PutBack r drift s t rows := by
  have ledger := ledger_traced s r.saleLineId
  have taken := drawn_traced s r.saleLineId
  have within_ := plan_within settled nonneg restorable
  have known := traced_known settled r.saleLineId
  obtain ⟨looseScaled,looseNonneg⟩ := untraced_mem_grid s r.saleLineId
  have looseSame : round4 (s.untracedQty r.saleLineId) = s.untracedQty r.saleLineId := Decimal.quantize_of_mem_grid looseScaled
  refine .bind (ends_get ?_)
  split
  · next none => exact ends_putBackFresh settled nonneg reported none
  refine .bind (ends_get ?_)
  generalize tracedAs : s.tracedConsumptions r.saleLineId = traced at *
  generalize looseAs : s.untracedQty r.saleLineId = loose at *
  have total := ledger.total_nonneg
  have totalSame : round4 (totalQty traced) = totalQty traced := Decimal.quantize_of_mem_grid ledger.total_mem_grid
  have least : 0 ≤ min r.qtyToRestore (totalQty traced) := le_min nonneg total
  have planned : ∀ slice ∈ planLifoRestoration traced (min r.qtyToRestore (totalQty traced)), 0 ≤ slice.qty ∧
      ∃ id, slice.purchaseLineId = some id ∧ id < s.layers.length := by
    intro slice member
    refine ⟨Oversell.unwind_nonneg (fun other inside => (ledger.reverse other inside).1.le) _ slice member,?_⟩
    obtain ⟨from_,inside,same⟩ := unwind_layers _ slice member
    rw [same]
    exact known from_ (List.mem_reverse.mp inside)
  obtain ⟨planTotal,planSum⟩ := ledger.planned least
  have planAll : totalQty traced ≤ r.qtyToRestore → ∀ id,
      drawn (planLifoRestoration traced (min r.qtyToRestore (totalQty traced))) id = s.takenFrom r.saleLineId id := by
    intro enough id
    rw [planLifoRestoration,min_eq_right enough,← totalQty_reverse,unwind_all ledger.reverse,drawn_reverse,taken]
  generalize planLifoRestoration traced (min r.qtyToRestore (totalQty traced)) = plan at *
  obtain ⟨fresh,looseFresh⟩ : ∃ fresh, fresh = if totalQty traced + loose = r.saleLineQty then loose
    else max (r.saleLineQty - totalQty traced) 0 := ⟨_,rfl⟩
  refine .bind ((ends_restorePlan settled reported about planned within_).mono fun _ t filled => .bind (filled.mono fun _ u put => ?_))
  obtain ⟨settledThen,rows,moved,incoming,sum,layers⟩ := put
  rw [planTotal]
  dsimp only
  rw [← looseFresh]
  split
  · next more =>
    have beyond : totalQty traced < r.qtyToRestore := by
      by_contra inside
      rw [min_eq_left (not_lt.mp inside),sub_self] at more
      exact lt_irrefl 0 more.1
    rw [min_eq_right beyond.le] at *
    have split_ : round4 (r.qtyToRestore - totalQty traced) + totalQty traced = round4 r.qtyToRestore :=
      Decimal.quantize_sub_add ledger.total_mem_grid total beyond.le
    rw [← moved.returns] at reported
    refine (ends_restoreUntraced settledThen reported (le_min more.1.le more.2.le)).mono fun _ v received => ?_
    obtain ⟨settledLast,m,added,last,brings,layered⟩ := received
    have amount : ((rows ++ [m]).map (·.val.qty)).sum = totalQty traced + round4 (min (r.qtyToRestore - totalQty traced) fresh) := by
      rw [List.map_append,List.sum_append,sum,planSum,totalSame,List.map_singleton,List.sum_singleton,brings]
    refine ⟨rows ++ [m],settledLast,moved.trans added,List.forall_mem_append.mpr ⟨incoming,last⟩,?_,fun whole full => ⟨?_,fun id inside => ?_⟩⟩
    · have limit : round4 (min (r.qtyToRestore - totalQty traced) fresh) ≤ round4 (r.qtyToRestore - totalQty traced) :=
        Decimal.quantize_mono (min_le_left _ _)
      rw [amount]
      linarith
    · rw [tracedAs,looseAs] at whole
      rw [if_pos whole] at looseFresh
      rw [amount,full,← whole,add_sub_cancel_left,looseFresh,min_self,looseSame]
    · have apart : u.layers.length ≠ id := (inside.trans_le moved.longer).ne'
      rw [tally_append,layers,planAll beyond.le,tally_singleton,layered,if_neg (by simpa using apart),add_zero]
  · next none =>
    have rounded : round4 (min r.qtyToRestore (totalQty traced)) ≤ round4 r.qtyToRestore := Decimal.quantize_mono (min_le_left _ _)
    refine ends_pure ⟨rows,settledThen,moved,incoming,sum.trans_le (planSum.trans_le rounded),fun whole full => ?_⟩
    rw [tracedAs,looseAs] at whole
    rw [if_pos whole] at looseFresh
    have within_ : totalQty traced ≤ r.qtyToRestore := by linarith
    have nothing : loose = 0 := by
      rw [min_eq_right within_,full,← whole,add_sub_cancel_left,looseFresh,and_self] at none
      exact (not_lt.mp none).antisymm looseNonneg
    refine ⟨?_,fun id _ => ?_⟩
    · rw [sum,planSum,min_eq_right within_,totalSame,← whole,nothing,add_zero]
    · rw [layers,planAll within_]

end Stock
