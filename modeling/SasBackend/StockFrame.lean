import SasBackend.Consumption
import SasBackend.FifoCost

/-! What every request leaves alone: when a layer was created, the movements on record and the lines of a transfer.
-/
namespace Stock
open SasBackend Pricing Program
open Refunds (LineId SaleLineRequest ReturnLineRequest CreateSaleReturnRequest)

variable {s t : Store} {kinds : MovementType → Prop}

/-- Transfers keep their lines, and the new movements are of these kinds. -/
structure Writes (kinds : MovementType → Prop) (s t : Store) : Prop where
  rows : ∃ rows, t.movements = s.movements ++ rows ∧ ∀ m ∈ rows, kinds m.val.movementType
  transfers : ∀ (id : Nat) transfer, s.transfers[id]? = some transfer → ∃ later, t.transfers[id]? = some later ∧
    later.destBranchId = transfer.destBranchId ∧ later.lines = transfer.lines

/-- Layers keep their age, too. -/
structure Frame (kinds : MovementType → Prop) (s t : Store) : Prop extends Writes kinds s t where
  ages : ∀ (id : Nat) layer, s.layers[id]? = some layer → ∃ later, t.layers[id]? = some later ∧
    later.val.createdAt = layer.val.createdAt

instance : Std.Refl (Writes kinds) where
  refl s := ⟨⟨[],by simp⟩,fun _ transfer here => ⟨transfer,here,rfl,rfl⟩⟩

instance : IsTrans Store (Writes kinds) where
  trans s t u first second := by
    obtain ⟨rows,wrote,firstKinds⟩ := first.rows
    obtain ⟨more,again,secondKinds⟩ := second.rows
    refine ⟨⟨rows ++ more,by rw [again,wrote,List.append_assoc],?_⟩,fun id transfer here => ?_⟩
    · exact List.forall_mem_append.mpr ⟨firstKinds,secondKinds⟩
    · obtain ⟨later,there,branch,lines⟩ := first.transfers id transfer here
      obtain ⟨last,found,branchSame,linesSame⟩ := second.transfers id later there
      exact ⟨last,found,branchSame.trans branch,linesSame.trans lines⟩

instance : Std.Refl (Frame kinds) where
  refl s := ⟨refl_of (Writes kinds) s,fun _ layer here => ⟨layer,here,rfl⟩⟩

instance : IsTrans Store (Frame kinds) where
  trans s t u first second := by
    refine ⟨trans_of (Writes kinds) first.toWrites second.toWrites,fun id layer here => ?_⟩
    obtain ⟨later,there,age⟩ := first.ages id layer here
    obtain ⟨last,found,same⟩ := second.ages id later there
    exact ⟨last,found,same.trans age⟩

theorem Frame.mono {more : MovementType → Prop} (frame : Frame kinds s t) (implied : ∀ kind, kinds kind → more kind) :
    Frame more s t := by
  obtain ⟨rows,wrote,each⟩ := frame.rows
  exact ⟨⟨⟨rows,wrote,fun m member => implied _ (each m member)⟩,frame.transfers⟩,frame.ages⟩

theorem Frame.longer (frame : Frame kinds s t) : s.layers.length ≤ t.layers.length := by
  by_contra shorter
  obtain ⟨later,found,-⟩ := frame.ages t.layers.length _ (List.getElem?_eq_getElem (not_le.mp shorter))
  simp at found

theorem writes_of_same (movements : t.movements = s.movements) (transfers : t.transfers = s.transfers) : Writes kinds s t :=
  ⟨⟨[],by simp [movements]⟩,fun _ transfer here => ⟨transfer,by rwa [transfers],rfl,rfl⟩⟩

theorem frame_put {change : Store → Store} (layers : ∀ s, (change s).layers = s.layers) (movements : ∀ s, (change s).movements = s.movements)
    (transfers : ∀ s, (change s).transfers = s.transfers) : Relates (Frame kinds) (put change : Tx Unit) :=
  relates_put fun s => ⟨writes_of_same (movements s) (transfers s),fun id layer here => ⟨layer,by rwa [layers],rfl⟩⟩

theorem frame_found {α : Type} (query : Store → Option α) : Relates (Frame kinds) (found query) := by
  refine (relates_get query).bind fun answer => ?_
  cases answer with
  | none => exact relates_fail _
  | some a => exact relates_pure a

theorem frame_lockStockPositions (positions : List Position) : Relates (Frame kinds) (lockStockPositions positions) :=
  relates_forM fun _ _ => relates_acquire _

theorem frame_checkSufficientStock (item : Item) : Relates (Frame kinds) (checkSufficientStock item) :=
  (relates_get _).bind fun _ => relates_pure _

theorem frame_assertStockAvailable (items : List Item) : Relates (Frame kinds) (assertStockAvailable items) :=
  relates_forM fun _ _ => (frame_checkSufficientStock _).bind fun _ => relates_require _ _

theorem frame_createStockMovement {row : MovementRow} (kind : kinds row.movementType) :
    Relates (Frame kinds) (createStockMovement row) := by
  intro s
  refine ends_createStockMovement.mono fun _ t wrote => ?_
  obtain ⟨m,same,rfl⟩ := wrote
  refine ⟨⟨⟨[m],rfl,List.forall_mem_singleton.mpr ?_⟩,fun _ transfer here => ⟨transfer,here,rfl,rfl⟩⟩,fun _ layer here => ⟨layer,here,rfl⟩⟩
  rw [same]
  exact kind

theorem frame_updateLayer {id : Nat} {row : LayerRow}
    (age : ∀ layer, s.layers[id]? = some layer → row.createdAt = layer.val.createdAt) :
    Ends (updateLayer id row) s fun _ t => Frame kinds s t := by
  refine .bind (ends_ofExcept fun stored ok => ends_put ?_)
  refine ⟨writes_of_same rfl rfl,fun other layer here => ?_⟩
  have inside := (List.getElem?_eq_some_iff.mp here).1
  by_cases same : other = id
  · subst same
    exact ⟨stored,by simp [inside],by rw [LayerRow.store_stored ok]; exact age layer here⟩
  · exact ⟨layer,by rwa [List.getElem?_set_ne (Ne.symm same)],rfl⟩

theorem frame_createFifoLayer (item : Item) (cost : ℚ) (createdAt : Int) : Relates (Frame kinds) (createFifoLayer item cost createdAt) := by
  refine (relates_ofExcept _).bind fun layer => (relates_get _).bind fun id => (relates_put fun s => ?_).bind fun _ => relates_pure _
  refine ⟨writes_of_same rfl rfl,fun other found here => ⟨found,?_,rfl⟩⟩
  exact List.getElem?_append_left (List.getElem?_eq_some_iff.mp here).1 |>.trans here

theorem frame_receiveIntoNewLayer {item : Item} {cost : ℚ} {movementType : MovementType} {reference : Reference}
    {createdAt movementAt : Int} {movementSequence : Option Nat} (kind : kinds movementType) :
    Relates (Frame kinds) (receiveIntoNewLayer item cost movementType reference createdAt movementAt movementSequence) :=
  (frame_createFifoLayer _ _ _).bind fun _ => frame_createStockMovement kind

theorem frame_getFallbackCostPerUnit (position : Position) : Relates (Frame kinds) (getFallbackCostPerUnit position) := by
  intro s
  refine ends_getFallbackCostPerUnit.mono fun _ t same => ?_
  subst same
  exact refl_of _ _

/-- What is at hand is as old as it is stored. -/
def Held.Aged (hand : Held) (s : Store) : Prop :=
  ∀ entry ∈ hand, ∃ layer, s.layers[entry.1]? = some layer ∧ entry.2.createdAt = layer.val.createdAt

theorem Held.Aged.later {hand : Held} (aged : hand.Aged s) (frame : Frame kinds s t) : hand.Aged t := by
  intro entry member
  obtain ⟨layer,here,same⟩ := aged entry member
  obtain ⟨later,there,age⟩ := frame.ages entry.1 layer here
  exact ⟨later,there,same.trans age.symm⟩

theorem Held.Aged.read {hand : Held} (aged : hand.Aged s) {entry : PurchaseLine × Nat} (here : s.layers[entry.2]? = some entry.1) :
    (hand.read entry).createdAt = entry.1.val.createdAt := by
  rw [Held.read,Held.row]
  cases found : hand.find? (·.1 = entry.2) with
  | none => rfl
  | some kept =>
    have named : kept.1 = entry.2 := by simpa using List.find?_some found
    obtain ⟨layer,there,same⟩ := aged kept (List.mem_of_find?_eq_some found)
    rw [named,here] at there
    cases there
    exact same

theorem frame_takeFromHeld {hand : Held} (layers : List (PurchaseLine × Nat)) : ∀ {s : Store} {qty : ℚ},
    (∀ entry ∈ layers, ∃ layer, s.layers[entry.2]? = some layer ∧ (hand.read entry).createdAt = layer.val.createdAt) →
    Ends (takeFromHeld hand layers qty) s fun _ t => Frame kinds s t := by
  induction layers with
  | nil => exact fun _ => ends_pure (refl_of _ _)
  | cons entry rest induction =>
    intro s qty ages
    obtain ⟨layer,id⟩ := entry
    obtain ⟨⟨stored,here,age⟩,restAges⟩ := List.forall_mem_cons.mp ages
    rw [takeFromHeld]
    split
    · exact ends_pure (refl_of _ s)
    · refine .bind ((@frame_updateLayer s kinds id _ fun found there => ?_).mono fun _ t first => ?_)
      · rw [← Option.some.inj (here.symm.trans there)]
        exact age
      · have kept : ∀ other ∈ rest, ∃ found, t.layers[other.2]? = some found ∧ (hand.read other).createdAt = found.val.createdAt := by
          intro other member
          obtain ⟨before,there,same⟩ := restAges other member
          obtain ⟨later,found,aged⟩ := first.ages _ _ there
          exact ⟨later,found,same.trans aged.symm⟩
        exact .bind ((induction kept).mono fun r u second => ends_pure (trans_of _ first second))

theorem frame_allocateHeldLayers {hand : Held} {position : Position} {qty : ℚ} (aged : hand.Aged s) :
    Ends (allocateHeldLayers hand position qty) s fun _ t => Frame kinds s t := by
  have consumed : Ends (consumeHeldLayers hand position qty) s fun _ t => Frame kinds s t := by
    rw [consumeHeldLayers]
    split
    · exact ends_pure (refl_of _ s)
    · refine .bind (ends_get (frame_takeFromHeld _ fun entry member => ?_))
      have here := (mem_fifoLayers.mp member).1
      have near : (hand.at position).Aged s := fun kept inside => aged kept (List.mem_of_mem_filter inside)
      exact ⟨entry.1,here,near.read here⟩
  have rest (r : List FifoLayerConsumption × ℚ) : Relates (Frame kinds) (
      if 0 < r.2 then (do
        let fallback ← getFallbackCostPerUnit position
        pure ⟨computeWeightedCostPerUnit qty (r.1 ++ [⟨none,r.2,fallback⟩]),r.1 ++ [⟨none,r.2,fallback⟩],r.2⟩)
      else pure ⟨computeWeightedCostPerUnit qty r.1,r.1,r.2⟩ : Tx Allocation) :=
    relates_ite ((frame_getFallbackCostPerUnit _).bind fun _ => relates_pure _) (relates_pure _)
  exact .bind (consumed.mono fun r t first => (rest r t).mono fun _ u second => trans_of _ first second)

theorem frame_allocateSaleLineFifo (position : Position) (qty : ℚ) : Relates (Frame kinds) (allocateSaleLineFifo position qty) :=
  fun _ => frame_allocateHeldLayers (List.forall_mem_nil _)

theorem frame_createSliceMovements {position : Position} {movementType : MovementType} {reference : Reference} {movementAt : Int}
    {slices : List FifoLayerConsumption} (kind : kinds movementType) :
    Relates (Frame kinds) (createSliceMovements position movementType reference movementAt slices) :=
  relates_forM fun _ _ => frame_createStockMovement kind

theorem frame_consumeHeldToMovements {hand : Held} {item : Item} {movementType : MovementType} {reference : Reference}
    {movementAt : Int} (kind : kinds movementType) (aged : hand.Aged s) :
    Ends (consumeHeldToMovements hand item movementType reference movementAt) s fun _ t => Frame kinds s t := by
  refine .bind ((@frame_allocateHeldLayers s kinds hand _ _ aged).mono fun allocation t first => ?_)
  refine .bind ((frame_createSliceMovements kind t).mono fun _ u second => ends_pure ?_)
  exact trans_of _ first second

theorem frame_consumeToMovements {item : Item} {movementType : MovementType} {reference : Reference} {movementAt : Int}
    (kind : kinds movementType) : Relates (Frame kinds) (consumeToMovements item movementType reference movementAt) :=
  fun _ => frame_consumeHeldToMovements kind (List.forall_mem_nil _)

theorem frame_restoreFifoLayers (slices : List FifoLayerConsumption) : Relates (Frame kinds) (restoreFifoLayers slices) := by
  refine relates_forM fun slice _ s => ?_
  split
  · exact ends_pure (refl_of _ s)
  · refine .bind (ends_get ?_)
    split
    · exact ends_pure (refl_of _ s)
    · next layer here => exact frame_updateLayer fun found there => by rw [Option.some.inj (here.symm.trans there)]

theorem frame_restoreSaleLineInventory {r : Restoration} (kind : kinds .saleReturn) :
    Relates (Frame kinds) (restoreSaleLineInventory r) := by
  refine (relates_get _).bind fun traced => relates_ite ?_ ?_
  · exact frame_receiveIntoNewLayer kind
  · refine (relates_get _).bind fun untraced => (frame_restoreFifoLayers _).bind fun _ => ?_
    refine (relates_forM fun slice _ => frame_createStockMovement kind).bind fun _ => ?_
    exact relates_ite (frame_receiveIntoNewLayer kind) (relates_pure _)

/-- Neither goods received nor goods sent to another branch. -/
def Other (kind : MovementType) : Prop := kind ≠ .purchase ∧ kind ≠ .transferOut

instance : DecidablePred Other := fun _ => inferInstanceAs (Decidable (_ ∧ _))

theorem frame_sales (change : Store → List Sale) : Relates (Frame kinds) (put fun s => { s with sales := change s } : Tx Unit) :=
  frame_put (fun _ => rfl) (fun _ => rfl) fun _ => rfl

theorem frame_createSale (data : CreateSale) : Relates (Frame Other) (createSale data) := by
  refine (relates_get _).bind fun allowNegative => (relates_ofExcept _).bind fun sale => (frame_lockStockPositions _).bind fun _ => ?_
  have rest : Relates (Frame Other) (do
      let allocations ← (data.bill.lines.map (lineItem data.bill.branchId)).mapM fun item => allocateSaleLineFifo item.position item.qty
      let lines ← ofExcept ((data.bill.lines.zip allocations).mapM fun entry => storeLine entry.1 entry.2.costPerUnit)
      let saleId ← get (·.sales.length)
      put fun s => { s with sales := s.sales ++ [⟨data.bill.branchId,data.saleType,sale.status,lines⟩] }
      forM ((data.bill.lines.map (lineItem data.bill.branchId)).zip allocations).zipIdx fun entry =>
        createSaleLineStockMovements entry.1.1.position ⟨saleId,entry.2⟩ entry.1.2.slices data.soldAt : Tx Unit) := by
    refine (relates_mapM fun _ _ => frame_allocateSaleLineFifo _ _).bind fun allocations => (relates_ofExcept _).bind fun lines => ?_
    refine (relates_get _).bind fun saleId => (frame_sales _).bind fun _ => ?_
    exact relates_forM fun _ _ => frame_createSliceMovements (by decide)
  exact relates_ite rest ((frame_assertStockAvailable _).bind fun _ => rest)

theorem frame_mutableTab (saleId : Nat) : Relates (Frame kinds) (mutableTab saleId) :=
  (frame_found _).bind fun _ => (relates_require _ _).bind fun _ => (relates_require _ _).bind fun _ => relates_pure _

theorem frame_openTab (branchId : Nat) : Relates (Frame kinds) (openTab branchId) := frame_sales _

theorem frame_addLinesToTab (saleId : Nat) (lines : List SaleLineRequest) : Relates (Frame kinds) (addLinesToTab saleId lines) :=
  (relates_require _ _).bind fun _ => (frame_mutableTab _).bind fun _ => (relates_ofExcept _).bind fun _ => frame_sales _

theorem frame_completeTab (saleId : Nat) (payments : List Payment) (soldAt : Int) :
    Relates (Frame Other) (completeTab saleId payments soldAt) := by
  refine (relates_get _).bind fun allowNegative => (frame_mutableTab _).bind fun sale => (relates_require _ _).bind fun _ => ?_
  refine (relates_ofExcept _).bind fun settlement => (relates_require _ _).bind fun _ => (frame_lockStockPositions _).bind fun _ => ?_
  have rest : Relates (Frame Other) (do
      forM (sale.lines.map (·.item sale.branchId)).zipIdx fun entry => do
        let allocation ← allocateSaleLineFifo entry.1.position entry.1.qty
        put (setLineCost ⟨saleId,entry.2⟩ allocation.costPerUnit)
        createSaleLineStockMovements entry.1.position ⟨saleId,entry.2⟩ allocation.slices soldAt
      put (setStatus saleId (determineSaleStatus (tabInvoiceTotal sale) settlement.totalApplied)) : Tx Unit) := by
    refine (relates_forM fun entry _ => ?_).bind fun _ => frame_sales _
    exact (frame_allocateSaleLineFifo _ _).bind fun _ => (frame_sales _).bind fun _ => frame_createSliceMovements (by decide)
  exact relates_ite rest ((frame_assertStockAvailable _).bind fun _ => rest)

theorem frame_prepareLines (branchId : Nat) (pending lines : List ReturnLineRequest) :
    Relates (Frame kinds) (prepareLines branchId pending lines) := by
  induction lines generalizing pending with
  | nil => exact relates_pure _
  | cons line rest induction =>
    have prepared : Relates (Frame kinds) (prepareLine branchId pending line) := by
      rw [prepareLine]
      split
      · exact relates_pure _
      · refine (frame_found _).bind fun _ => (relates_require _ _).bind fun _ => (relates_require _ _).bind fun _ => ?_
        exact (relates_get _).bind fun _ => (relates_require _ _).bind fun _ => relates_pure _
    exact prepared.bind fun _ => (induction _).bind fun _ => relates_pure _

theorem frame_createSaleReturn (data : CreateSaleReturnRequest) (returnedAt : Int) (kind : kinds .saleReturn) :
    Relates (Frame kinds) (createSaleReturn data returnedAt) := by
  refine (relates_require _ _).bind fun _ => (relates_get _).bind fun existing => (relates_require _ _).bind fun _ => ?_
  refine (relates_require _ _).bind fun _ => Relates.bind ?_ fun _ => (frame_prepareLines _ _ _).bind fun prepared => ?_
  · rw [checkReturnedSale.eq_def]
    split
    · exact relates_pure _
    · exact (frame_found _).bind fun _ => (relates_require _ _).bind fun _ => relates_require _ _
  · refine (frame_lockStockPositions _).bind fun _ => (relates_require _ _).bind fun _ => (relates_get _).bind fun saleReturn => ?_
    refine Relates.bind ?_ fun _ => relates_forM fun entry _ => ?_
    · exact frame_put (fun _ => rfl) (fun _ => rfl) fun _ => rfl
    rw [returnRestock]
    split
    · exact frame_restoreSaleLineInventory kind
    · exact (frame_getFallbackCostPerUnit _).bind fun _ => frame_receiveIntoNewLayer kind

theorem frame_restoreAllSaleLineInventory (saleId : Nat) (sale : Sale) (movementAt : Int) (kind : kinds .saleReturn) :
    Relates (Frame kinds) (restoreAllSaleLineInventory saleId sale movementAt) :=
  relates_forM fun _ _ => frame_restoreSaleLineInventory kind

theorem frame_voidSale (saleId : Nat) (now : Int) (kind : kinds .saleReturn) : Relates (Frame kinds) (voidSale saleId now) := by
  refine (frame_found _).bind fun sale => (relates_require _ _).bind fun _ => (relates_get _).bind fun _ => ?_
  exact (relates_require _ _).bind fun _ => (frame_restoreAllSaleLineInventory _ _ _ kind).bind fun _ => frame_sales _

theorem frame_cancelSale (saleId : Nat) (now : Int) (kind : kinds .saleReturn) : Relates (Frame kinds) (cancelSale saleId now) := by
  refine (frame_found _).bind fun sale => (relates_require _ _).bind fun _ => (relates_get _).bind fun _ => (relates_require _ _).bind fun _ => ?_
  exact relates_ite (frame_sales _) ((frame_restoreAllSaleLineInventory _ _ _ kind).bind fun _ => frame_sales _)

theorem frame_createPurchaseOrder (branchId : Nat) (lines : List PurchaseLineRequest) (now : Int) :
    Relates (Frame kinds) (createPurchaseOrder branchId lines now) := by
  refine (relates_require _ _).bind fun _ => (relates_get _).bind fun _ => Relates.bind ?_ fun _ => ?_
  · exact frame_put (fun _ => rfl) (fun _ => rfl) fun _ => rfl
  refine relates_forM fun line _ => (relates_ofExcept _).bind fun layer => relates_put fun s => ?_
  refine ⟨writes_of_same rfl rfl,fun other found here => ⟨found,?_,rfl⟩⟩
  exact List.getElem?_append_left (List.getElem?_eq_some_iff.mp here).1 |>.trans here

theorem writes_createPurchaseReceipt (data : CreatePurchaseReceiptRequest) :
    Relates (Writes (· = .purchase)) (createPurchaseReceipt data) := by
  have opened (line : ReceiptLineRequest) : Relates (Frame (· = .purchase)) (receiveNew data line) := frame_receiveIntoNewLayer rfl
  refine relates_createPurchaseReceipt data ?_ (fun line => (opened line).mono fun _ _ frame => frame.toWrites) ?_ ?_
  · exact fun id row => (relates_ofExcept _).bind fun _ => relates_put fun _ => writes_of_same rfl rfl
  · intro row kind _
    have framed : Relates (Frame (· = .purchase)) (createStockMovement row) := frame_createStockMovement kind
    exact framed.mono fun _ _ frame => frame.toWrites
  · exact fun id status => relates_put fun _ => writes_of_same rfl rfl

theorem frame_updatePurchaseOrderStatus (id : Nat) (target : PurchaseOrderStatus) :
    Relates (Frame kinds) (updatePurchaseOrderStatus id target) :=
  (frame_found _).bind fun _ => (relates_require _ _).bind fun _ => frame_put (fun _ => rfl) (fun _ => rfl) fun _ => rfl

/-- The layer at hand is as old as it is stored, after a line as before it. -/
theorem frame_adjustLine {branchId : Nat} {openingBalance : Bool} {adjustedAt : Int} {hand : Held} {line : AdjustmentLineRequest}
    (aged : hand.Aged s) :
    Ends (adjustLine branchId openingBalance adjustedAt hand line) s fun hand t => Frame Other s t ∧ hand.Aged t := by
  rw [adjustLine]
  split
  · have cost : Relates (Frame Other) (adjustmentCost openingBalance line (line.item branchId).position) := by
      rw [adjustmentCost.eq_def]
      split
      · exact relates_pure _
      · exact frame_getFallbackCostPerUnit _
    refine .bind ((cost s).mono fun cost t first => .bind (((@frame_createFifoLayer Other _ _ _ t).and ends_createFifoLayer_row).mono
      fun id u made => ?_))
    obtain ⟨second,stored,written,there⟩ := made
    have recorded {row : MovementRow} (kind : Other row.movementType) : Relates (Frame Other) (createStockMovement row) :=
      frame_createStockMovement kind
    refine .bind ((recorded (show Other .adjustmentIn by decide) u).mono fun _ v third => ends_pure ⟨trans_of _ (trans_of _ first second) third,?_⟩)
    have fresh : Held.Aged [(id,newLayer (line.item branchId) (round4 cost) adjustedAt)] u := by
      intro entry member
      rw [List.mem_singleton.mp member]
      exact ⟨stored,there,by rw [written]; rfl⟩
    exact fresh.later third
  · refine .bind ((@frame_consumeHeldToMovements s Other hand _ _ _ _ (by decide) aged).mono fun allocation t first => ends_pure ⟨first,?_⟩)
    intro entry member
    obtain ⟨kept,inside,rfl⟩ := List.mem_map.mp member
    obtain ⟨layer,there,same⟩ := aged.later first kept inside
    refine ⟨layer,?_⟩
    split <;> exact ⟨there,same⟩

theorem frame_createStockAdjustment (branchId : Nat) (openingBalance : Bool) (lines : List AdjustmentLineRequest) (adjustedAt : Int) :
    Relates (Frame Other) (createStockAdjustment branchId openingBalance lines adjustedAt) := by
  refine (relates_require _ _).bind fun _ => (relates_get _).bind fun _ => (frame_lockStockPositions _).bind fun _ => ?_
  have rest : Relates (Frame Other) (do
      let _held ← lines.foldlM (adjustLine branchId openingBalance adjustedAt) []
      pure () : Tx Unit) := by
    intro s
    refine .bind ((ends_foldlM (fun _ hand t => Frame Other s t ∧ hand.Aged t) ?_ ⟨refl_of _ s,List.forall_mem_nil _⟩).mono
      fun _ t kept => ends_pure kept.1)
    rintro line later hand t ⟨first,aged⟩
    exact (frame_adjustLine aged).mono fun _ u next_ => ⟨trans_of _ first next_.1,next_.2⟩
  exact relates_ite rest ((frame_assertStockAvailable _).bind fun _ => rest)

theorem frame_createWasteEntry (branchId : Nat) (lines : List ItemRequest) (wastedAt : Int) :
    Relates (Frame Other) (createWasteEntry branchId lines wastedAt) := by
  refine (relates_require _ _).bind fun _ => (relates_get _).bind fun _ => (frame_lockStockPositions _).bind fun _ => ?_
  have rest : Relates (Frame Other) (forM (lines.map (·.item branchId)) fun item => do
      let _allocation ← consumeToMovements item .waste .wasteEntryLine wastedAt
      pure () : Tx Unit) :=
    relates_forM fun _ _ => (frame_consumeToMovements (by decide)).bind fun _ => relates_pure _
  exact relates_ite rest ((frame_assertStockAvailable _).bind fun _ => rest)

theorem frame_assertAvailableAtSource (items : List Item) : Relates (Frame kinds) (assertAvailableAtSource items) :=
  relates_forM fun _ _ => (relates_get _).bind fun _ => relates_require _ _

theorem frame_addTransfer (transfer : StockTransfer) :
    Relates (Frame kinds) (put fun s => { s with transfers := s.transfers ++ [transfer] } : Tx Unit) := by
  refine relates_put fun s => ⟨⟨⟨[],by simp⟩,fun other found here => ⟨found,?_,rfl,rfl⟩⟩,fun _ layer here => ⟨layer,here,rfl⟩⟩
  exact List.getElem?_append_left (List.getElem?_eq_some_iff.mp here).1 |>.trans here

theorem frame_createStockTransfer (source dest : Nat) (lines : List ItemRequest) (now : Int) :
    Relates (Frame (· = .transferOut)) (createStockTransfer source dest lines now) := by
  refine (relates_require _ _).bind fun _ => (frame_lockStockPositions _).bind fun _ => (frame_assertAvailableAtSource _).bind fun _ => ?_
  refine (relates_ofExcept _).bind fun _ => (relates_get _).bind fun _ => (frame_addTransfer _).bind fun _ => ?_
  exact relates_forM fun _ _ => (frame_consumeToMovements (by decide)).bind fun _ => relates_pure _

theorem frame_receiveStockTransfer (id : Nat) (now : Int) : Relates (Frame Other) (receiveStockTransfer id now) := by
  refine (frame_found _).bind fun transfer => (relates_require _ _).bind fun _ => Relates.bind ?_ fun _ => relates_put fun s => ?_
  · exact relates_forM fun entry _ => (relates_get _).bind fun _ => relates_forM fun _ _ => frame_receiveIntoNewLayer (by decide)
  · refine ⟨⟨⟨[],by simp⟩,fun other found here => ?_⟩,fun _ layer here => ⟨layer,here,rfl⟩⟩
    simp only [List.getElem?_modify,here,Option.map_eq_map,Option.map_some,Option.some.injEq,exists_eq_left']
    split <;> exact ⟨rfl,rfl⟩

theorem frame_createProductionOrder (branchId bomHeaderId : Nat) (qtyToProduce : ℚ) :
    Relates (Frame kinds) (createProductionOrder branchId bomHeaderId qtyToProduce) :=
  (relates_require _ _).bind fun _ => (frame_found _).bind fun _ => frame_put (fun _ => rfl) (fun _ => rfl) fun _ => rfl

theorem frame_startProductionOrder (id : Nat) : Relates (Frame kinds) (startProductionOrder id) :=
  (frame_found _).bind fun _ => (relates_require _ _).bind fun _ => frame_put (fun _ => rfl) (fun _ => rfl) fun _ => rfl

theorem frame_cancelProductionOrder (id : Nat) : Relates (Frame kinds) (cancelProductionOrder id) :=
  (frame_found _).bind fun _ => (relates_require _ _).bind fun _ => frame_put (fun _ => rfl) (fun _ => rfl) fun _ => rfl

theorem frame_consumeIngredientFifo (item : Item) (allowNegative : Bool) (movementAt : Int) :
    Relates (Frame Other) (consumeIngredientFifo item allowNegative movementAt) := by
  refine (frame_lockStockPositions _).bind fun _ => ?_
  have rest : Relates (Frame Other) (do
      let allocation ← consumeToMovements item .productionOut .productionLine movementAt
      pure (allocation.slices.map fun slice => slice.qty * slice.costPerUnit).sum : Tx ℚ) :=
    (frame_consumeToMovements (by decide)).bind fun _ => relates_pure _
  exact relates_ite rest ((frame_checkSufficientStock _).bind fun _ => (relates_require _ _).bind fun _ => rest)

theorem frame_completeProductionOrder (id : Nat) (qtyProduced : ℚ) (now : Int) :
    Relates (Frame Other) (completeProductionOrder id qtyProduced now) := by
  refine (relates_require _ _).bind fun _ => (frame_found _).bind fun _ => (relates_require _ _).bind fun _ => (relates_require _ _).bind fun _ => ?_
  refine (frame_found _).bind fun _ => (relates_require _ _).bind fun _ => (relates_get _).bind fun _ => Relates.bind ?_ fun _ => ?_
  · exact relates_mapM fun _ _ => relates_ite (relates_pure _) (frame_consumeIngredientFifo _ _ _)
  · exact (frame_receiveIntoNewLayer (by decide)).bind fun _ => frame_put (fun _ => rfl) (fun _ => rfl) fun _ => rfl

theorem serve_eq_some {request : Request} (served : serve s request = some t) : ∃ u, request.program.run s = .ok (u,t) := by
  obtain ⟨⟨u,_⟩,ran,rfl⟩ := Option.map_eq_some_iff.mp served
  exact ⟨u,Outcome.toOption_eq_some.mp ran⟩

theorem serve_relates {r : Store → Store → Prop} {request : Request} (relates : Relates r request.program)
    (served : serve s request = some t) : r s t := by
  obtain ⟨u,ran⟩ := serve_eq_some served
  exact relates s u t ran

/-- Requests other than receipts of purchases and dispatches of transfers. -/
def Request.other : Request → Bool
  | .createPurchaseReceipt _ | .createStockTransfer _ _ _ _ => false
  | _ => true

theorem frame_program {request : Request} (other : request.other = true) : Relates (Frame Other) request.program := by
  cases request with
  | createSale data => exact frame_createSale data
  | openTab branchId => exact frame_openTab branchId
  | addLinesToTab saleId lines => exact frame_addLinesToTab saleId lines
  | completeTab saleId payments soldAt => exact frame_completeTab saleId payments soldAt
  | createSaleReturn data returnedAt => exact frame_createSaleReturn data returnedAt (by decide)
  | voidSale saleId now => exact frame_voidSale saleId now (by decide)
  | cancelSale saleId now => exact frame_cancelSale saleId now (by decide)
  | createPurchaseOrder branchId lines now => exact frame_createPurchaseOrder branchId lines now
  | updatePurchaseOrderStatus id target => exact frame_updatePurchaseOrderStatus id target
  | createPurchaseReceipt data => cases other
  | createStockAdjustment branchId openingBalance lines adjustedAt => exact frame_createStockAdjustment branchId openingBalance lines adjustedAt
  | createWasteEntry branchId lines wastedAt => exact frame_createWasteEntry branchId lines wastedAt
  | createStockTransfer source dest lines now => cases other
  | receiveStockTransfer id now => exact frame_receiveStockTransfer id now
  | createProductionOrder branchId bomHeaderId qty => exact frame_createProductionOrder branchId bomHeaderId qty
  | startProductionOrder id => exact frame_startProductionOrder id
  | cancelProductionOrder id => exact frame_cancelProductionOrder id
  | completeProductionOrder id qtyProduced now => exact frame_completeProductionOrder id qtyProduced now

end Stock
