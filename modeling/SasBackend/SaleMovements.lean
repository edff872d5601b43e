import SasBackend.ReturnRequests
import SasBackend.Semantics.SaleStock

/-! What each request writes for a sale, whatever the layers hold: requests for other things write nothing for one, a sale that is made
and a tab that is completed take the quantity of every line, and what comes back for a line comes back in full.
-/
namespace Stock
open SasBackend Tally Program Transition
open Oversell (Covers)
open Refunds (LineId SaleLineRequest ReturnLineRequest CreateSaleReturnRequest)

variable {s t : Store} {id saleId : Nat} {qty : ℚ} {position : Position} {line : LineId} {rows : List StockMovement} {r : Restoration}

/-- No layer has less room than it had. -/
def Roomier (s t : Store) : Prop := ∀ (id : Nat) before, s.layers[id]? = some before → ∃ after, t.layers[id]? = some after ∧
  after.val.qtyRemaining + before.val.receivedQty ≤ before.val.qtyRemaining + after.val.receivedQty

/-- A row that refers to no sale and gives nothing back, of a layer there is. -/
structure Foreign (s : Store) (m : StockMovement) : Prop where
  plain : m.val.reference.plain = true
  typed : m.val.movementType ≠ .saleReturn ∧ m.val.movementType ≠ .sale
  named : ∀ id, m.val.purchaseLineId = some id → id < s.layers.length

/-- Sales and returns are as they were, new movements have nothing to do with them, and layers keep their room. -/
structure Beside (s t : Store) : Prop where
  rows : ∃ rows, t.movements = s.movements ++ rows ∧ ∀ m ∈ rows, Foreign t m
  sales : t.sales = s.sales
  returns : t.returns = s.returns
  room : Roomier s t

theorem Roomier.longer (room : Roomier s t) : s.layers.length ≤ t.layers.length := by
  by_contra shorter
  obtain ⟨after,found,-⟩ := room t.layers.length _ (List.getElem?_eq_getElem (not_le.mp shorter))
  simp at found

theorem roomier_extends (extends_ : Extends s t) : Roomier s t := fun id before here => ⟨before,extends_ id before here,le_rfl⟩

theorem Foreign.later {m : StockMovement} (foreign : Foreign s m) (longer : s.layers.length ≤ t.layers.length) : Foreign t m :=
  ⟨foreign.plain,foreign.typed,fun id named => (foreign.named id named).trans_le longer⟩

instance : Std.Refl Beside where
  refl _ := ⟨⟨[],by simp⟩,rfl,rfl,roomier_extends fun _ _ here => here⟩

instance : IsTrans Store Beside where
  trans s t u first second := by
    obtain ⟨rows,wrote,foreign⟩ := first.rows
    obtain ⟨more,again,also_⟩ := second.rows
    refine ⟨⟨rows ++ more,by rw [again,wrote,List.append_assoc],?_⟩,second.sales.trans first.sales,second.returns.trans first.returns,
      fun id before here => ?_⟩
    · exact List.forall_mem_append.mpr ⟨fun m member => (foreign m member).later second.room.longer,also_⟩
    · obtain ⟨between,there,least⟩ := first.room id before here
      obtain ⟨after,found,most⟩ := second.room id between there
      exact ⟨after,found,by linarith⟩

theorem beside_layers (room : Roomier s t) (movements : t.movements = s.movements) (sales : t.sales = s.sales)
    (returns : t.returns = s.returns) : Beside s t :=
  ⟨⟨[],by simp [movements],List.forall_mem_nil _⟩,sales,returns,room⟩

theorem beside_put {change : Store → Store} (layers : ∀ s, (change s).layers = s.layers) (movements : ∀ s, (change s).movements = s.movements)
    (sales : ∀ s, (change s).sales = s.sales) (returns : ∀ s, (change s).returns = s.returns) : Relates Beside (put change : Tx Unit) :=
  relates_put fun s => beside_layers (roomier_extends fun _ _ here => by rwa [layers]) (movements s) (sales s) (returns s)

theorem beside_addLayer (new : PurchaseLine) : Beside s { s with layers := s.layers ++ [new] } := by
  refine beside_layers (roomier_extends fun id layer here => ?_) rfl rfl rfl
  exact (List.getElem?_append_left (List.getElem?_eq_some_iff.mp here).1).trans here

theorem Beside.append (beside : Beside s t) (foreign : ∀ m ∈ rows, Foreign t m) : Beside s { t with movements := t.movements ++ rows } := by
  have grown : Beside t { t with movements := t.movements ++ rows } :=
    ⟨⟨rows,rfl,fun m member => (foreign m member).later le_rfl⟩,rfl,rfl,roomier_extends fun _ _ here => here⟩
  exact trans_of Beside beside grown

theorem Beside.setLayer {stored : PurchaseLine} (beside : Beside s t) (enough : ∀ before, s.layers[id]? = some before →
    stored.val.qtyRemaining + before.val.receivedQty ≤ before.val.qtyRemaining + stored.val.receivedQty) :
    Beside s { t with layers := t.layers.set id stored } := by
  obtain ⟨rows,wrote,foreign⟩ := beside.rows
  refine ⟨⟨rows,wrote,fun m member => (foreign m member).later List.length_set.ge⟩,beside.sales,beside.returns,fun other before here => ?_⟩
  obtain ⟨after,there,least⟩ := beside.room other before here
  by_cases same : other = id
  · subst same
    exact ⟨stored,List.getElem?_set_self (List.getElem?_eq_some_iff.mp there).1,enough before here⟩
  · exact ⟨after,(List.getElem?_set_ne (Ne.symm same)).trans there,least⟩

theorem beside_found {α : Type} (query : Store → Option α) : Relates Beside (found query) := by
  refine (relates_get query).bind fun answer => ?_
  cases answer with
  | none => exact relates_fail _
  | some a => exact relates_pure a

theorem beside_lockStockPositions (positions : List Position) : Relates Beside (lockStockPositions positions) :=
  relates_forM fun _ _ => relates_acquire _

theorem beside_assertStockAvailable (items : List Item) : Relates Beside (assertStockAvailable items) :=
  relates_forM fun _ _ => Relates.bind ((relates_get _).bind fun _ => relates_pure _) fun _ => relates_require _ _

theorem beside_createStockMovement {row : MovementRow} (beside : Beside s t) (plain : row.reference.plain = true)
    (typed : row.movementType ≠ .saleReturn ∧ row.movementType ≠ .sale) (named : ∀ id, row.purchaseLineId = some id → id < t.layers.length) :
    Ends (createStockMovement row) t fun _ u => Beside s u := by
  refine ends_createStockMovement.mono fun _ u wrote => ?_
  obtain ⟨m,same,rfl⟩ := wrote
  refine beside.append (List.forall_mem_singleton.mpr ?_)
  constructor <;> rw [same]
  · exact plain
  · exact typed
  · exact named

theorem beside_receiveIntoNewLayer {item : Item} {cost : ℚ} {movementType : MovementType} {reference : Reference}
    {createdAt movementAt : Int} {movementSequence : Option Nat} (plain : reference.plain = true)
    (typed : movementType ≠ .saleReturn ∧ movementType ≠ .sale) :
    Relates Beside (receiveIntoNewLayer item cost movementType reference createdAt movementAt movementSequence) := by
  intro s
  refine (ends_receiveIntoNewLayer_row item).mono fun _ t received => ?_
  obtain ⟨layer,m,-,same,rfl⟩ := received
  refine (beside_addLayer layer).append (List.forall_mem_singleton.mpr ?_)
  constructor <;> rw [same]
  · exact plain
  · exact typed
  · intro id named
    rw [← Option.some.inj named]
    simp

/-- Layers that were there at first are taken from as they are stored. -/
theorem beside_takeFromHeld {hand : Held} (layers : List (PurchaseLine × Nat)) : ∀ {t : Store} {qty : ℚ}, Beside s t →
    (layers.map Prod.snd).Nodup → (∀ entry ∈ layers, t.layers[entry.2]? = some entry.1) →
    (∀ entry ∈ layers, entry.2 < s.layers.length → hand.read entry = entry.1.val) →
    Ends (takeFromHeld hand layers qty) t fun _ u => Beside s u ∧ u.layers.length = t.layers.length := by
  induction layers with
  | nil => exact fun beside _ _ _ => ends_pure ⟨beside,rfl⟩
  | cons entry rest induction =>
    intro t qty beside distinct listed stored
    obtain ⟨layer,id⟩ := entry
    obtain ⟨fresh,distinct⟩ := List.nodup_cons.mp distinct
    obtain ⟨here,listed⟩ := List.forall_mem_cons.mp listed
    obtain ⟨read,stored⟩ := List.forall_mem_cons.mp stored
    rw [takeFromHeld]
    split
    · exact ends_pure ⟨beside,rfl⟩
    · next some_ =>
      refine .bind (ends_updateLayer.mono fun _ u updated => ?_)
      obtain ⟨written,remains,into,rfl⟩ := updated
      have lowered : Beside s { t with layers := t.layers.set id written } := by
        refine beside.setLayer fun before old => ?_
        have inside := (List.getElem?_eq_some_iff.mp old).1
        dsimp only at remains into
        rw [read inside] at remains into
        obtain ⟨after,there,least⟩ := beside.room id before old
        obtain rfl := Option.some.inj (here.symm.trans there)
        have same : round4 layer.val.qtyRemaining = layer.val.qtyRemaining := Decimal.quantize_of_mem_grid layer.2.remainingScaled
        have full : round4 layer.val.receivedQty = layer.val.receivedQty := Decimal.quantize_of_mem_grid layer.2.receivedScaled
        have less : round4 (layer.val.qtyRemaining - min qty layer.val.qtyRemaining) ≤ round4 layer.val.qtyRemaining :=
          Decimal.quantize_mono (sub_le_self _ (le_min (not_le.mp some_).le layer.2.remaining))
        rw [remains,into,full]
        linarith
      refine .bind ((induction lowered distinct (fun other member => ?_) stored).mono fun r v took => ends_pure ?_)
      · have apart : id ≠ other.2 := fun same => fresh (List.mem_map.mpr ⟨other,member,same.symm⟩)
        exact (List.getElem?_set_ne apart).trans (listed other member)
      · exact ⟨took.1,took.2.trans List.length_set⟩

theorem beside_consumeHeldToMovements {hand : Held} {item : Item} {movementType : MovementType} {reference : Reference} {movementAt : Int}
    (beside : Beside s t) (plain : reference.plain = true) (typed : movementType ≠ .saleReturn ∧ movementType ≠ .sale)
    (later : ∀ entry ∈ hand, s.layers.length ≤ entry.1) :
    Ends (consumeHeldToMovements hand item movementType reference movementAt) t fun _ u => Beside s u := by
  have consumed : Ends (consumeHeldLayers hand item.position item.qty) t fun _ u => Beside s u ∧ u.layers.length = t.layers.length := by
    rw [consumeHeldLayers]
    split
    · exact ends_pure ⟨beside,rfl⟩
    · refine .bind (ends_get (beside_takeFromHeld _ beside (fifoLayers_distinct t item.position) ?_ fun entry member inside => ?_))
      · exact fun entry member => (mem_fifoLayers.mp member).1
      · rw [Held.read,Held.row,List.find?_eq_none.mpr,Option.map_none,Option.getD_none]
        intro kept held
        have beyond := later kept (List.mem_of_mem_filter held)
        simpa using fun same : kept.1 = entry.2 => absurd inside (not_lt.mpr (same ▸ beyond))
  have allocated : Ends (allocateHeldLayers hand item.position item.qty) t fun _ u => Beside s u ∧ u.layers.length = t.layers.length := by
    refine .bind (consumed.mono fun r u given => ?_)
    dsimp only
    split
    · refine .bind (ends_getFallbackCostPerUnit.mono fun _ v same => ends_pure ?_)
      subst same
      exact given
    · exact ends_pure given
  refine .bind ((allocated.and ends_allocateHeldLayers_named).mono fun allocation u given => ?_)
  obtain ⟨⟨beside,same⟩,named⟩ := given
  refine .bind ((ends_rows _ _).mono fun _ v wrote => ends_pure ?_)
  obtain ⟨rows,each,rfl⟩ := wrote
  refine beside.append fun m member => ?_
  have row : m.val ∈ rows.map Subtype.val := List.mem_map_of_mem member
  rw [each] at row
  obtain ⟨slice,inside,written⟩ := List.mem_map.mp row
  constructor <;> rw [← written]
  · exact plain
  · exact typed
  · intro id mine
    obtain ⟨layer,listed⟩ := named slice.1 (List.fst_mem_of_mem_zipIdx inside) id mine
    rw [same]
    exact (List.getElem?_eq_some_iff.mp (mem_fifoLayers.mp listed).1).1

theorem beside_consumeToMovements {item : Item} {movementType : MovementType} {reference : Reference} {movementAt : Int}
    (plain : reference.plain = true)
    (typed : movementType ≠ .saleReturn ∧ movementType ≠ .sale) :
    Relates Beside (consumeToMovements item movementType reference movementAt) :=
  fun s => beside_consumeHeldToMovements (refl_of Beside s) plain typed (List.forall_mem_nil _)

theorem beside_createPurchaseOrder (branchId : Nat) (lines : List PurchaseLineRequest) (now : Int) :
    Relates Beside (createPurchaseOrder branchId lines now) := by
  refine (relates_require _ _).bind fun _ => (relates_get _).bind fun _ => Relates.bind ?_ fun _ => ?_
  · exact beside_put (fun _ => rfl) (fun _ => rfl) (fun _ => rfl) fun _ => rfl
  · exact relates_forM fun _ _ => (relates_ofExcept _).bind fun layer => relates_put fun _ => beside_addLayer layer

theorem beside_setOrderStatus (id : Nat) (status : PurchaseOrderStatus) : Relates Beside (put (setOrderStatus id status) : Tx Unit) :=
  beside_put (fun _ => rfl) (fun _ => rfl) (fun _ => rfl) fun _ => rfl

theorem beside_updatePurchaseOrderStatus (id : Nat) (target : PurchaseOrderStatus) :
    Relates Beside (updatePurchaseOrderStatus id target) :=
  (beside_found _).bind fun _ => (relates_require _ _).bind fun _ => beside_setOrderStatus _ _

/-- The row of an order line has been raised by no more than what it received. -/
structure Raised (before : PurchaseLine) (row : LayerRow) : Prop where
  least : before.val.qtyRemaining ≤ row.qtyRemaining
  most : row.qtyRemaining - before.val.qtyRemaining ≤ row.receivedQty - before.val.receivedQty

theorem Raised.stored {before stored : PurchaseLine} {row : LayerRow} (raised : Raised before row)
    (remains : stored.val.qtyRemaining = round4 row.qtyRemaining) (into : stored.val.receivedQty = round4 row.receivedQty) :
    stored.val.qtyRemaining + before.val.receivedQty ≤ before.val.qtyRemaining + stored.val.receivedQty := by
  have more : 0 ≤ row.qtyRemaining - before.val.qtyRemaining := sub_nonneg.mpr raised.least
  have left : round4 (before.val.qtyRemaining + (row.qtyRemaining - before.val.qtyRemaining)) =
      before.val.qtyRemaining + round4 (row.qtyRemaining - before.val.qtyRemaining) :=
    Decimal.quantize_add before.2.remainingScaled before.2.remaining more
  have full : round4 (before.val.receivedQty + (row.receivedQty - before.val.receivedQty)) =
      before.val.receivedQty + round4 (row.receivedQty - before.val.receivedQty) :=
    Decimal.quantize_add before.2.receivedScaled (before.2.remaining.trans before.2.received) (more.trans raised.most)
  have rounded : round4 (row.qtyRemaining - before.val.qtyRemaining) ≤ round4 (row.receivedQty - before.val.receivedQty) :=
    Decimal.quantize_mono raised.most
  rw [add_sub_cancel] at left full
  rw [remains,into,left,full]
  linarith

/-- What is at hand of the order lines has been raised since the request began. -/
def Held.Raises (hand : Held) (s : Store) : Prop :=
  ∀ id row, hand.row id = some row → ∃ before, s.layers[id]? = some before ∧ Raised before row

theorem Held.Raises.written {hand : Held} {row : LayerRow} {before : PurchaseLine} (raises : hand.Raises s)
    (here : s.layers[id]? = some before) (raised : Raised before row) : Held.Raises ((id,row) :: hand) s := by
  intro other found held
  rw [heldRow_cons] at held
  split at held
  · next same =>
    cases held
    exact ⟨before,same ▸ here,raised⟩
  · exact raises other found held

theorem beside_receiveLine {data : CreatePurchaseReceiptRequest} {hand : Held} {line : ReceiptLineRequest} (beside : Beside s t)
    (nonneg : 0 ≤ line.qtyReceived) (raises : hand.Raises s) :
    Ends (receiveLine data hand line) t fun hand u => Beside s u ∧ hand.Raises s := by
  have opened {u : Store} (beside : Beside s u) : Ends (receiveNew data line) u fun _ v => Beside s v :=
    (beside_receiveIntoNewLayer rfl (by decide) u).mono fun _ _ next_ => trans_of Beside beside next_
  rw [receiveLine]
  split
  · exact .bind ((opened beside).mono fun _ _ next_ => ends_pure ⟨next_,raises⟩)
  next id named =>
    split
    · exact ends_fail _
    next row held =>
      obtain ⟨before,here,least,most⟩ := raises id row held
      have written {stored : PurchaseLine} {row : LayerRow} (remains : stored.val.qtyRemaining = round4 row.qtyRemaining)
          (into : stored.val.receivedQty = round4 row.receivedQty) (raised : Raised before row) :
          Beside s { t with layers := t.layers.set id stored } := by
        refine beside.setLayer fun other found => ?_
        obtain rfl := Option.some.inj (here.symm.trans found)
        exact raised.stored remains into
      dsimp only
      split
      · refine .bind (ends_updateLayer.mono fun _ u updated => ?_)
        obtain ⟨stored,remains,into,rfl⟩ := updated
        have raised {other : LayerRow} (left : other.qtyRemaining = row.qtyRemaining + line.qtyReceived)
            (full : other.receivedQty = row.receivedQty + line.qtyReceived) : Raised before other := ⟨by linarith,by linarith⟩
        refine .bind ((beside_createStockMovement (written remains into (raised rfl rfl)) rfl (by simp) fun other same => ?_).mono
          fun _ _ next_ => ends_pure ⟨next_,raises.written here (raised rfl rfl)⟩)
        rw [← Option.some.inj same,List.length_set]
        exact (List.getElem?_eq_some_iff.mp here).1.trans_le beside.room.longer
      · refine .bind (ends_updateLayer.mono fun _ u updated => ?_)
        obtain ⟨stored,remains,into,rfl⟩ := updated
        have raised {other : LayerRow} (left : other.qtyRemaining = row.qtyRemaining)
            (full : other.receivedQty = row.receivedQty + line.qtyReceived) : Raised before other := ⟨by linarith,by linarith⟩
        exact .bind ((opened (written remains into (raised rfl rfl))).mono fun _ _ next_ =>
          ends_pure ⟨next_,raises.written here (raised rfl rfl)⟩)

theorem beside_createPurchaseReceipt (data : CreatePurchaseReceiptRequest) : Relates Beside (createPurchaseReceipt data) := by
  intro s
  refine .bind (ends_require fun valid => .bind ((ends_checkReceivedOrder _ _).mono fun _ t same => ?_))
  subst same
  refine .bind ((ends_lockOrderLines data).mono fun locked u given => ?_)
  obtain ⟨rfl,stored⟩ := given
  refine .bind ((ends_checkReceiptLines locked [] data.lines).mono fun _ v same => ?_)
  subst same
  have positive : ∀ line ∈ data.lines, 0 ≤ line.qtyReceived := by
    intro line member
    simp only [CreatePurchaseReceiptRequest.valid,Bool.and_eq_true,List.all_eq_true,decide_eq_true_eq] at valid
    exact (valid.2 line member).1.le
  have raises : locked.Raises v := by
    intro id row here
    obtain ⟨layer,there,rfl⟩ := stored id row here
    exact ⟨layer,there,le_rfl,by rw [sub_self,sub_self]⟩
  refine .bind ((ends_foldlM (fun later hand t => Beside v t ∧ hand.Raises v ∧ ∀ line ∈ later, 0 ≤ line.qtyReceived) ?_
    ⟨refl_of Beside v,raises,positive⟩).mono fun hand w first => ?_)
  · rintro line later hand t ⟨beside,raises,nonneg⟩
    obtain ⟨here,nonneg⟩ := List.forall_mem_cons.mp nonneg
    exact (beside_receiveLine beside here raises).mono fun _ u received => ⟨received.1,received.2,nonneg⟩
  · split
    · exact ends_pure first.1
    · refine .bind (ends_get ?_)
      split
      · exact ends_pure first.1
      · exact (beside_setOrderStatus _ _ w).mono fun _ _ next_ => trans_of Beside first.1 next_

theorem beside_adjustLine {branchId : Nat} {openingBalance : Bool} {adjustedAt : Int} {hand : Held} {line : AdjustmentLineRequest}
    (beside : Beside s t) (later : ∀ entry ∈ hand, s.layers.length ≤ entry.1) :
    Ends (adjustLine branchId openingBalance adjustedAt hand line) t fun hand u => Beside s u ∧ ∀ entry ∈ hand, s.layers.length ≤ entry.1 := by
  rw [adjustLine]
  split
  · refine .bind ((ends_adjustmentCost openingBalance line).mono fun cost u same => ?_)
    subst same
    refine .bind (.bind (ends_ofExcept fun new _ => .bind (ends_get (.bind (ends_put (ends_pure ?_))))))
    have opened := trans_of Beside beside (beside_addLayer new)
    refine .bind ((beside_createStockMovement opened rfl (by simp) fun id named => ?_).mono fun _ v wrote => ends_pure ⟨wrote,?_⟩)
    · rw [← Option.some.inj named]
      simp
    · exact List.forall_mem_singleton.mpr beside.room.longer
  · refine .bind ((beside_consumeHeldToMovements beside rfl (by decide) later).mono fun allocation u consumed => ends_pure ⟨consumed,?_⟩)
    refine List.forall_mem_map.mpr fun entry member => ?_
    split <;> exact later entry member

theorem beside_createStockAdjustment (branchId : Nat) (openingBalance : Bool) (lines : List AdjustmentLineRequest) (adjustedAt : Int) :
    Relates Beside (createStockAdjustment branchId openingBalance lines adjustedAt) := by
  refine (relates_require _ _).bind fun _ => (relates_get _).bind fun _ => (beside_lockStockPositions _).bind fun _ => ?_
  have rest : Relates Beside (do
      let _held ← lines.foldlM (adjustLine branchId openingBalance adjustedAt) []
      pure () : Tx Unit) := by
    intro s
    refine .bind ((ends_foldlM (fun _ hand t => Beside s t ∧ ∀ entry ∈ hand, s.layers.length ≤ entry.1) ?_
      ⟨refl_of Beside s,List.forall_mem_nil _⟩).mono fun _ t kept => ends_pure kept.1)
    exact fun line _ hand t kept => beside_adjustLine kept.1 kept.2
  exact relates_ite rest ((beside_assertStockAvailable _).bind fun _ => rest)

theorem beside_createWasteEntry (branchId : Nat) (lines : List ItemRequest) (wastedAt : Int) :
    Relates Beside (createWasteEntry branchId lines wastedAt) := by
  refine (relates_require _ _).bind fun _ => (relates_get _).bind fun _ => (beside_lockStockPositions _).bind fun _ => ?_
  have rest : Relates Beside (forM (lines.map (·.item branchId)) fun item => do
      let _allocation ← consumeToMovements item .waste .wasteEntryLine wastedAt
      pure () : Tx Unit) :=
    relates_forM fun _ _ => (beside_consumeToMovements rfl (by decide)).bind fun _ => relates_pure _
  exact relates_ite rest ((beside_assertStockAvailable _).bind fun _ => rest)

theorem beside_createStockTransfer (source dest : Nat) (lines : List ItemRequest) (now : Int) :
    Relates Beside (createStockTransfer source dest lines now) := by
  have checked (items : List Item) : Relates Beside (assertAvailableAtSource items) :=
    relates_forM fun _ _ => (relates_get _).bind fun _ => relates_require _ _
  refine (relates_require _ _).bind fun _ => (beside_lockStockPositions _).bind fun _ => (checked _).bind fun _ => ?_
  refine (relates_ofExcept _).bind fun _ => (relates_get _).bind fun _ => Relates.bind ?_ fun _ => ?_
  · exact beside_put (fun _ => rfl) (fun _ => rfl) (fun _ => rfl) fun _ => rfl
  · exact relates_forM fun _ _ => (beside_consumeToMovements rfl (by decide)).bind fun _ => relates_pure _

theorem beside_receiveStockTransfer (id : Nat) (now : Int) : Relates Beside (receiveStockTransfer id now) := by
  refine (beside_found _).bind fun transfer => (relates_require _ _).bind fun _ => Relates.bind ?_ fun _ => ?_
  · refine relates_forM fun entry _ => (relates_get _).bind fun slices => relates_forM fun slice _ => ?_
    exact beside_receiveIntoNewLayer rfl (by decide)
  · exact beside_put (fun _ => rfl) (fun _ => rfl) (fun _ => rfl) fun _ => rfl

theorem beside_setOrder (id : Nat) (change : ProductionOrder → ProductionOrder) : Relates Beside (put (setOrder id change) : Tx Unit) :=
  beside_put (fun _ => rfl) (fun _ => rfl) (fun _ => rfl) fun _ => rfl

theorem beside_completeProductionOrder (id : Nat) (qtyProduced : ℚ) (now : Int) :
    Relates Beside (completeProductionOrder id qtyProduced now) := by
  have ingredient (item : Item) (allowNegative : Bool) : Relates Beside (consumeIngredientFifo item allowNegative now) := by
    have rest : Relates Beside (consumeToMovements item .productionOut .productionLine now >>= fun allocation =>
        pure (allocation.slices.map fun slice => slice.qty * slice.costPerUnit).sum) :=
      (beside_consumeToMovements rfl (by decide)).bind fun _ => relates_pure _
    refine (beside_lockStockPositions _).bind fun _ => relates_ite rest (Relates.bind ?_ fun _ => (relates_require _ _).bind fun _ => rest)
    exact (relates_get _).bind fun _ => relates_pure _
  refine (relates_require _ _).bind fun _ => (beside_found _).bind fun _ => (relates_require _ _).bind fun _ => (relates_require _ _).bind fun _ => ?_
  refine (beside_found _).bind fun _ => (relates_require _ _).bind fun _ => (relates_get _).bind fun _ => Relates.bind ?_ fun _ => ?_
  · exact relates_mapM fun _ _ => relates_ite (relates_pure _) (ingredient _ _)
  · exact (beside_receiveIntoNewLayer rfl (by decide)).bind fun _ => beside_setOrder _ _

/-- Requests about sales and their returns. -/
def Request.selling : Request → Bool
  | .createSale _ | .openTab _ | .addLinesToTab _ _ | .completeTab _ _ _ | .createSaleReturn _ _ | .voidSale _ _ | .cancelSale _ _ => true
  | _ => false

theorem beside_program {request : Request} (other : request.selling = false) : Relates Beside request.program := by
  cases request with
  | createSale data => cases other
  | openTab branchId => cases other
  | addLinesToTab saleId lines => cases other
  | completeTab saleId payments soldAt => cases other
  | createSaleReturn data returnedAt => cases other
  | voidSale saleId now => cases other
  | cancelSale saleId now => cases other
  | createPurchaseOrder branchId lines now => exact beside_createPurchaseOrder branchId lines now
  | updatePurchaseOrderStatus id target => exact beside_updatePurchaseOrderStatus id target
  | createPurchaseReceipt data => exact beside_createPurchaseReceipt data
  | createStockAdjustment branchId openingBalance lines adjustedAt => exact beside_createStockAdjustment branchId openingBalance lines adjustedAt
  | createWasteEntry branchId lines wastedAt => exact beside_createWasteEntry branchId lines wastedAt
  | createStockTransfer source dest lines now => exact beside_createStockTransfer source dest lines now
  | receiveStockTransfer id now => exact beside_receiveStockTransfer id now
  | createProductionOrder branchId bomHeaderId qty =>
    refine (relates_require _ _).bind fun _ => (beside_found _).bind fun _ => ?_
    exact beside_put (fun _ => rfl) (fun _ => rfl) (fun _ => rfl) fun _ => rfl
  | startProductionOrder id => exact (beside_found _).bind fun _ => (relates_require _ _).bind fun _ => beside_setOrder _ _
  | cancelProductionOrder id => exact (beside_found _).bind fun _ => (relates_require _ _).bind fun _ => beside_setOrder _ _
  | completeProductionOrder id qtyProduced now => exact beside_completeProductionOrder id qtyProduced now

theorem ends_refill (slices : List FifoLayerConsumption) : Ends (restoreFifoLayers slices) s fun _ t => Moved s t [] := by
  refine (ends_forM (fun _ t => Moved s t []) (fun slice rest t moved => ?_) (moved_refl s)).mono fun _ _ moved => moved
  split
  · exact ends_pure moved
  next id _ =>
    refine .bind (ends_get ?_)
    split
    · exact ends_pure moved
    · refine ends_updateLayer.mono fun _ u updated => ?_
      obtain ⟨stored,-,-,rfl⟩ := updated
      have next_ : Moved t { t with layers := t.layers.set id stored } [] :=
        ⟨t.layers.set id stored,List.length_set.ge,by simp⟩
      exact moved.trans next_

theorem ends_backRows {slices : List FifoLayerConsumption} (nonneg : ∀ slice ∈ slices, 0 ≤ slice.qty) :
    Ends (forM slices fun slice => createStockMovement
      ⟨r.position,.saleReturn,slice.qty,slice.costPerUnit,r.reference,slice.purchaseLineId,r.movementAt,none⟩) s fun _ t =>
      ∃ rows, Moved s t rows ∧ Incoming r rows ∧ (rows.map (·.val.qty)).sum = (slices.map fun slice => round4 slice.qty).sum := by
  refine (ends_rows _ _).mono fun _ t wrote => ?_
  obtain ⟨rows,each,rfl⟩ := wrote
  refine ⟨rows,⟨s.layers,le_rfl,rfl⟩,fun m member => ?_,?_⟩
  · have row : m.val ∈ rows.map Subtype.val := List.mem_map_of_mem member
    rw [each] at row
    obtain ⟨slice,inside,same⟩ := List.mem_map.mp row
    rw [← same]
    exact ⟨rfl,rfl,rfl,Decimal.quantize_nonneg (nonneg slice inside)⟩
  · calc (rows.map (·.val.qty)).sum
        = ((rows.map Subtype.val).map MovementRow.qty).sum := by rw [List.map_map]; rfl
      _ = (slices.map fun slice => round4 slice.qty).sum := by
        rw [each,List.map_map]
        rfl

theorem ends_untracedRow (nonneg : 0 ≤ qty) : Ends (restoreUntraced r qty) s fun _ t =>
    ∃ rows, Moved s t rows ∧ Incoming r rows ∧ (rows.map (·.val.qty)).sum = round4 qty := by
  refine (ends_receiveIntoNewLayer_row _).mono fun _ t received => ?_
  obtain ⟨layer,m,-,same,rfl⟩ := received
  refine ⟨[m],⟨s.layers ++ [layer],by simp,rfl⟩,List.forall_mem_singleton.mpr ?_,by rw [List.map_singleton,List.sum_singleton,same]⟩
  rw [same]
  exact ⟨rfl,rfl,rfl,Decimal.quantize_nonneg nonneg⟩

theorem untraced_enough (traced : ℚ) {untraced sold : ℚ} (nonneg : 0 ≤ untraced) (within_ : qty ≤ sold) :
    qty - min qty traced ≤ if traced + untraced = sold then untraced else max (sold - traced) 0 := by
  rcases le_total qty traced with covered | beyond
  · rw [min_eq_left covered,sub_self]
    split
    · exact nonneg
    · exact le_max_right _ _
  · rw [min_eq_right beyond]
    split
    · linarith
    · exact le_max_of_le_left (by linarith)

/-- Up to what the line sold, all that is asked for comes back. -/
theorem ends_restored (nonneg : 0 ≤ r.qtyToRestore) (within_ : r.qtyToRestore ≤ r.saleLineQty) :
    Ends (restoreSaleLineInventory r) s fun _ t => ∃ rows, Moved s t rows ∧ Incoming r rows ∧
      (rows.map (·.val.qty)).sum = round4 r.qtyToRestore := by
  have ledger := ledger_traced s r.saleLineId
  obtain ⟨-,looseNonneg⟩ := untraced_mem_grid s r.saleLineId
  refine .bind (ends_get ?_)
  split
  · exact ends_untracedRow nonneg
  refine .bind (ends_get ?_)
  generalize s.tracedConsumptions r.saleLineId = traced at *
  have enough := untraced_enough (totalQty traced) looseNonneg within_
  generalize s.untracedQty r.saleLineId = loose at *
  generalize (if totalQty traced + loose = r.saleLineQty then loose else max (r.saleLineQty - totalQty traced) 0) = left at *
  have least : 0 ≤ min r.qtyToRestore (totalQty traced) := le_min nonneg ledger.total_nonneg
  have planned : ∀ slice ∈ planLifoRestoration traced (min r.qtyToRestore (totalQty traced)), 0 ≤ slice.qty :=
    Oversell.unwind_nonneg (fun other inside => (ledger.reverse other inside).1.le) _
  obtain ⟨planTotal,planSum⟩ := ledger.planned least
  have split_ := round4_split ledger.total_mem_grid ledger.total_nonneg r.qtyToRestore
  refine .bind ((ends_refill _).mono fun _ t refilled => .bind ((ends_backRows planned).mono fun _ u wrote => ?_))
  obtain ⟨rows,moved,incoming,sum⟩ := wrote
  dsimp only
  rw [planTotal]
  split
  · next short =>
    rw [min_eq_left enough]
    refine (ends_untracedRow short.1.le).mono fun _ v wrote => ?_
    obtain ⟨more,further,rest,brings⟩ := wrote
    refine ⟨rows ++ more,(refilled.trans moved).trans further,List.forall_mem_append.mpr ⟨incoming,rest⟩,?_⟩
    rw [List.map_append,List.sum_append,sum,planSum,brings,split_]
  · next whole =>
    have none : r.qtyToRestore - min r.qtyToRestore (totalQty traced) ≤ 0 := by
      by_contra more
      exact whole ⟨not_le.mp more,(not_le.mp more).trans_le enough⟩
    have same : min r.qtyToRestore (totalQty traced) = r.qtyToRestore := (min_le_left _ _).antisymm (sub_nonpos.mp none)
    exact ends_pure ⟨rows,refilled.trans moved,incoming,by rw [sum,planSum,same]⟩

/-- Rows that bring back the quantity of every line of a sale. -/
structure Brings (saleId : Nat) (sale : Sale) (rows : List StockMovement) : Prop where
  back : ∀ m ∈ rows, ∃ index, m.val.reference = .saleLine ⟨saleId,index⟩
  placed : ∀ position, tally (fun m : StockMovement => m.val.position) (fun m => m.val.qty) position rows = sale.qtyAt position

theorem ends_restoredLines (saleId branchId : Nat) (movementAt : Int) (entries : List (SaleLine × Nat)) : ∀ {s : Store},
    Ends (forM entries fun entry => restoreSaleLineInventory (lineRestoration saleId branchId movementAt entry)) s fun _ t =>
      ∃ rows, Moved s t rows ∧ (∀ m ∈ rows, ∃ index, m.val.reference = .saleLine ⟨saleId,index⟩) ∧
        ∀ position, tally (fun m : StockMovement => m.val.position) (fun m => m.val.qty) position rows =
          tally (fun entry : SaleLine × Nat => entry.1.position branchId) (fun entry => entry.1.stored.qty) position entries := by
  induction entries with
  | nil =>
    intro s
    exact ends_pure ⟨[],moved_refl s,List.forall_mem_nil _,fun _ => rfl⟩
  | cons entry entries induction =>
    intro s
    rw [List.forM_cons]
    refine .bind ((ends_restored entry.1.stored.qtyPositive.le le_rfl).mono fun _ t wrote => induction.mono fun _ u more => ?_)
    obtain ⟨rows,moved,incoming,sum⟩ := wrote
    obtain ⟨rest,further,back,placed⟩ := more
    refine ⟨rows ++ rest,moved.trans further,List.forall_mem_append.mpr ⟨fun m member => ⟨entry.2,(incoming m member).2.2.1⟩,back⟩,fun position => ?_⟩
    have same : round4 entry.1.stored.qty = entry.1.stored.qty := Decimal.quantize_of_mem_grid entry.1.qtyScaled
    rw [tally_append,placed,tally_placed (fun m member => (incoming m member).1),sum,tally_cons,lineRestoration,same]

theorem brings_restoreAll (saleId : Nat) (sale : Sale) (movementAt : Int) : Ends (restoreAllSaleLineInventory saleId sale movementAt) s fun _ t =>
    ∃ rows, Moved s t rows ∧ Brings saleId sale rows := by
  refine (ends_restoredLines saleId sale.branchId movementAt sale.lines.zipIdx).mono fun _ t wrote => ?_
  obtain ⟨rows,moved,back,placed⟩ := wrote
  refine ⟨rows,moved,back,fun position => ?_⟩
  rw [placed,Sale.qtyAt]
  conv_rhs => rw [← List.zipIdx_map_fst 0 sale.lines,tally_map]
  rfl

/-- A sale has been given a status, and these rows have been written. -/
structure Shut (status : SaleStatus) (saleId : Nat) (rows : List StockMovement) (s t : Store) : Prop where
  movements : t.movements = s.movements ++ rows
  sales : t.sales = s.sales.modify saleId fun sale => { sale with status := status }
  returns : t.returns = s.returns

theorem Moved.shut (moved : Moved s t rows) (status : SaleStatus) (saleId : Nat) : Shut status saleId rows s (setStatus saleId status t) := by
  obtain ⟨movements,sales,returns⟩ := moved.parts
  exact ⟨movements,by rw [setStatus,sales],returns⟩

theorem shuts_voidSale (saleId : Nat) (now : Int) : Ends (voidSale saleId now) s fun _ t => ∃ sale rows, s.sales[saleId]? = some sale ∧
    sale.status = .completed ∧ s.hasReturnLines saleId = false ∧ Brings saleId sale rows ∧ Shut .voided saleId rows s t := by
  refine .bind (ends_found fun sale found => .bind (ends_require fun completed => .bind (ends_get (.bind (ends_require fun unreturned => ?_)))))
  refine .bind ((brings_restoreAll saleId sale now).mono fun _ t wrote => ends_put ?_)
  obtain ⟨rows,moved,brings⟩ := wrote
  exact ⟨sale,rows,found,of_decide_eq_true completed,by simpa using unreturned,brings,moved.shut .voided saleId⟩

theorem shuts_cancelSale (saleId : Nat) (now : Int) : Ends (cancelSale saleId now) s fun _ t => ∃ sale rows, s.sales[saleId]? = some sale ∧
    (sale.status ≠ .completed ∧ sale.status ≠ .voided) ∧ s.hasReturnLines saleId = false ∧
      (if skipInventoryRestore sale then rows = [] else Brings saleId sale rows) ∧ Shut .cancelled saleId rows s t := by
  refine .bind (ends_found fun sale found => .bind (ends_require fun status => .bind (ends_get (.bind (ends_require fun unreturned => ?_)))))
  have status : sale.status ≠ .completed ∧ sale.status ≠ .voided := by simpa using status
  have unreturned : s.hasReturnLines saleId = false := by simpa using unreturned
  dsimp only
  split
  · next skip => exact ends_put ⟨sale,[],found,status,unreturned,by rw [if_pos skip],(moved_refl s).shut .cancelled saleId⟩
  · next whole =>
    refine .bind ((brings_restoreAll saleId sale now).mono fun _ t wrote => ends_put ?_)
    obtain ⟨rows,moved,brings⟩ := wrote
    exact ⟨sale,rows,found,status,unreturned,by rwa [if_neg whole],moved.shut .cancelled saleId⟩

/-- Returned quantities are not negative. -/
def Counted (s : Store) : Prop := ∀ r ∈ s.returns, ∀ line ∈ r.lines, 0 ≤ line.qty

theorem Counted.returnedQty_nonneg (counted : Counted s) (line : LineId) : 0 ≤ s.returnedQty line := by
  refine tally_nonneg fun item member => ?_
  obtain ⟨r,listed,inside⟩ := List.mem_flatMap.mp member
  exact counted r listed item inside

/-- A line of a request as it is prepared: a linked one comes from where its line was sold, and no more than was sold. -/
structure Prepares (s : Store) (branchId : Nat) (item : Prepared) : Prop where
  positive : 0 < item.request.qty
  linked : item.original.map Prod.fst = item.request.saleLineId
  found : ∀ id original, item.original = some (id,original) → s.line id = some original ∧ item.position = original.position branchId ∧
    item.request.qty ≤ original.stored.qty

theorem ends_preparesLine (branchId : Nat) {pending : List ReturnLineRequest} {line : ReturnLineRequest} (counted : Counted s)
    (nonneg : ∀ other ∈ pending, 0 ≤ other.qty) (positive : 0 < line.qty) :
    Ends (prepareLine branchId pending line) s fun item t => t = s ∧ item.request = line ∧ Prepares s branchId item := by
  rw [prepareLine]
  split
  · next none => exact ends_pure ⟨rfl,rfl,positive,none.symm,by simp⟩
  · next id named =>
    refine .bind (ends_found fun original found => .bind (ends_require fun _ => .bind (ends_require fun _ => .bind (ends_get ?_))))
    refine .bind (ends_require fun remaining => ends_pure ⟨rfl,rfl,positive,named.symm,?_⟩)
    rintro _ _ same
    obtain ⟨rfl,rfl⟩ := Prod.mk.inj (Option.some.inj same)
    refine ⟨found,rfl,?_⟩
    have before := counted.returnedQty_nonneg id
    have waiting : 0 ≤ tally ReturnLineRequest.saleLineId ReturnLineRequest.qty (some id) pending := tally_nonneg nonneg
    have room := of_decide_eq_true remaining
    dsimp only
    linarith

theorem ends_preparesLines (branchId : Nat) (counted : Counted s) (lines : List ReturnLineRequest) : ∀ pending : List ReturnLineRequest,
    (∀ other ∈ pending, 0 ≤ other.qty) → (∀ line ∈ lines, 0 < line.qty) →
    Ends (prepareLines branchId pending lines) s fun items t => t = s ∧ items.map Prepared.request = lines ∧
      ∀ item ∈ items, Prepares s branchId item := by
  induction lines with
  | nil => exact fun _ _ _ => ends_pure ⟨rfl,rfl,List.forall_mem_nil _⟩
  | cons line lines induction =>
    intro pending nonneg positive
    obtain ⟨here,positive⟩ := List.forall_mem_cons.mp positive
    refine .bind ((ends_preparesLine branchId counted nonneg here).mono fun item t first => ?_)
    obtain ⟨rfl,requested,prepares⟩ := first
    have more : ∀ other ∈ pending ++ [line], 0 ≤ other.qty := List.forall_mem_append.mpr ⟨nonneg,List.forall_mem_singleton.mpr here.le⟩
    refine .bind ((induction _ more positive).mono fun items u rest => ends_pure ?_)
    obtain ⟨rfl,requests,others⟩ := rest
    exact ⟨rfl,by rw [List.map_cons,requested,requests],List.forall_mem_cons.mpr ⟨prepares,others⟩⟩

/-- A prepared line that is to be put back as this line of a return, and comes from this sale if it is linked. -/
structure Restocks (s : Store) (saleReturn saleId : Nat) (entry : Prepared × Nat) : Prop where
  positive : 0 < entry.1.request.qty
  linked : entry.1.original.map Prod.fst = entry.1.request.saleLineId
  recorded : s.linkedLine saleReturn entry.2 = entry.1.request.saleLineId
  sold : ∀ id original, entry.1.original = some (id,original) → id.saleId = saleId ∧ s.soldFrom id = some entry.1.position ∧
    entry.1.request.qty ≤ original.stored.qty

theorem Restocks.moved {saleReturn : Nat} {entry : Prepared × Nat} (restocks : Restocks s saleReturn saleId entry) (moved : Moved s t rows) :
    Restocks t saleReturn saleId entry := by
  obtain ⟨layers,-,rfl⟩ := moved
  exact ⟨restocks.positive,restocks.linked,restocks.recorded,restocks.sold⟩

theorem Moved.ofSale (moved : Moved s t rows) (saleId : Nat) : t.ofSale saleId = s.ofSale saleId := by
  obtain ⟨layers,-,rfl⟩ := moved
  rfl

theorem Moved.soldFrom (moved : Moved s t rows) : t.soldFrom = s.soldFrom := by
  obtain ⟨layers,-,rfl⟩ := moved
  rfl

theorem Restocks.ofSale {saleReturn : Nat} {entry : Prepared × Nat} (restocks : Restocks s saleReturn saleId entry)
    (about : ∀ m ∈ rows, m.val.reference = .saleReturnLine saleReturn entry.2) :
    rows.filter (s.ofSale saleId) = if entry.1.request.saleLineId.isSome then rows else [] := by
  have same (m : StockMovement) (member : m ∈ rows) : s.ofSale saleId m = entry.1.request.saleLineId.isSome := by
    rw [Store.ofSale,about m member,Store.about,restocks.recorded,← restocks.linked]
    cases made : entry.1.original with
    | none => simp
    | some original => simp [(restocks.sold original.1 original.2 made).1]
  rw [List.filter_congr same]
  split
  · next linked => simp [linked]
  · next loose => simp [loose]

theorem ends_restocked {saleReturn : Nat} {returnedAt : Int} {entry : Prepared × Nat} (restocks : Restocks s saleReturn saleId entry) :
    Ends (returnRestock saleReturn returnedAt entry) s fun _ t => ∃ rows, Moved s t rows ∧
      (∀ m ∈ rows, m.val.reference = .saleReturnLine saleReturn entry.2) ∧
        ∀ position, tally (fun m : StockMovement => m.val.position) (fun m => m.val.qty) position (rows.filter (s.ofSale saleId)) =
          if entry.1.request.saleLineId.bind s.soldFrom = some position then round4 entry.1.request.qty else 0 := by
  have linked := restocks.linked
  rw [returnRestock]
  split
  · next id original made =>
    obtain ⟨-,from_,within_⟩ := restocks.sold id original made
    rw [made,Option.map_some] at linked
    refine (ends_restored restocks.positive.le within_).mono fun _ t wrote => ?_
    obtain ⟨rows,moved,incoming,sum⟩ := wrote
    have about (m : StockMovement) (member : m ∈ rows) := (incoming m member).2.2.1
    refine ⟨rows,moved,about,fun position => ?_⟩
    rw [restocks.ofSale about,← linked,Option.isSome_some,if_pos rfl,Option.bind_some,from_,tally_placed fun m member => (incoming m member).1,sum]
    simp only [Option.some.injEq]
  · next made =>
    rw [made,Option.map_none] at linked
    refine .bind (ends_getFallbackCostPerUnit.mono fun cost t same => ?_)
    subst same
    refine (ends_receiveIntoNewLayer_row _).mono fun _ u received => ?_
    obtain ⟨layer,m,-,same,rfl⟩ := received
    have about : ∀ m' ∈ [m], m'.val.reference = .saleReturnLine saleReturn entry.2 := List.forall_mem_singleton.mpr (by rw [same])
    refine ⟨[m],⟨_,by simp,rfl⟩,about,fun position => ?_⟩
    rw [restocks.ofSale about,← linked]
    simp

theorem ends_restockedAll (saleReturn : Nat) (returnedAt : Int) (entries : List (Prepared × Nat)) : ∀ {s : Store},
    (∀ entry ∈ entries, Restocks s saleReturn saleId entry) →
    Ends (forM entries (returnRestock saleReturn returnedAt)) s fun _ t => ∃ rows, Moved s t rows ∧
      (∀ m ∈ rows, ∃ index, m.val.reference = .saleReturnLine saleReturn index) ∧
        ∀ position, tally (fun m : StockMovement => m.val.position) (fun m => m.val.qty) position (rows.filter (s.ofSale saleId)) =
          s.brought (entries.map (·.1.request)) position := by
  induction entries with
  | nil =>
    intro s _
    exact ends_pure ⟨[],moved_refl s,List.forall_mem_nil _,fun _ => rfl⟩
  | cons entry entries induction =>
    intro s restocks
    obtain ⟨here,restocks⟩ := List.forall_mem_cons.mp restocks
    rw [List.forM_cons]
    refine .bind ((ends_restocked here).mono fun _ t wrote => ?_)
    obtain ⟨rows,moved,about,placed⟩ := wrote
    refine (induction fun other member => (restocks other member).moved moved).mono fun _ u more => ?_
    obtain ⟨rest,further,others,later⟩ := more
    refine ⟨rows ++ rest,moved.trans further,List.forall_mem_append.mpr ⟨fun m member => ⟨entry.2,about m member⟩,others⟩,fun position => ?_⟩
    have after := later position
    rw [moved.ofSale,Store.brought,moved.soldFrom] at after
    rw [List.filter_append,tally_append,placed,after,List.map_cons,Store.brought,tally_cons]

/-- What a return has put on record and written. -/
structure Returned (data : CreateSaleReturnRequest) (s t : Store) : Prop where
  sales : t.sales = s.sales
  lines : data.lines ≠ [] ∧ ∀ line ∈ data.lines, 0 < line.qty
  recorded : ∃ saleId rows, t.returns = s.returns ++ [⟨saleId,data.lines.map fun line => ⟨line.saleLineId,round4 line.qty⟩⟩] ∧
    t.movements = s.movements ++ rows ∧ (∀ m ∈ rows, ∃ index, m.val.reference = .saleReturnLine s.returns.length index) ∧
      (∀ line ∈ data.lines, ∀ id, line.saleLineId = some id → saleId = some id.saleId) ∧
        ∀ sold, saleId = some sold → (∃ sale, s.sales[sold]? = some sale ∧ SaleExclusion.returnable sale.status = true) ∧
          ∀ position, tally (fun m : StockMovement => m.val.position) (fun m => m.val.qty) position (rows.filter (t.ofSale sold)) =
            s.brought data.lines position

theorem ends_checkedSale (branchId : Nat) (saleId : Option Nat) : Ends (checkReturnedSale branchId saleId) s fun _ t =>
    t = s ∧ ∀ id, saleId = some id → ∃ sale, s.sales[id]? = some sale ∧ SaleExclusion.returnable sale.status = true ∧ sale.branchId = branchId := by
  cases saleId with
  | none => exact ends_pure ⟨rfl,fun _ none => by cases none⟩
  | some id =>
    refine .bind (ends_found fun sale found => .bind (ends_require fun able => ends_require fun here => ⟨rfl,fun other same => ?_⟩))
    obtain rfl := Option.some.inj same
    exact ⟨sale,found,able,of_decide_eq_true here⟩

theorem soldFrom_line {sale : Sale} {original : SaleLine} (there : s.sales[line.saleId]? = some sale) (found : s.line line = some original) :
    s.soldFrom line = some (original.position sale.branchId) := by
  rw [Store.line,there,Option.bind_some] at found
  rw [Store.soldFrom,there,Option.bind_some,found,Option.map_some]

theorem returned_createSaleReturn (data : CreateSaleReturnRequest) (returnedAt : Int) (counted : Counted s) :
    Ends (createSaleReturn data returnedAt) s fun _ => Returned data s := by
  refine .bind (ends_require fun valid => .bind (ends_get (.bind (ends_require fun existing => .bind (ends_require fun own => ?_)))))
  generalize data.saleId.or _ = saleId at *
  refine .bind ((ends_checkedSale _ _).mono fun _ t checked => ?_)
  obtain ⟨rfl,checked⟩ := checked
  have lines : data.lines ≠ [] ∧ ∀ line ∈ data.lines, 0 < line.qty := by
    simp only [CreateSaleReturnRequest.valid,ReturnLineRequest.valid,Bool.and_eq_true,List.all_eq_true,decide_eq_true_eq] at valid
    exact ⟨valid.1.1,fun line member => (valid.1.2 line member).1.1.1⟩
  have mine (line : ReturnLineRequest) (member : line ∈ data.lines) (id : LineId) (named : line.saleLineId = some id) : saleId = some id.saleId := by
    simp only [List.all_eq_true,decide_eq_true_eq] at own
    exact (own id (List.mem_filterMap.mpr ⟨line,member,named⟩)).symm
  refine .bind ((ends_preparesLines data.branchId counted data.lines [] (List.forall_mem_nil _) lines.2).mono fun prepared u made => ?_)
  obtain ⟨rfl,requests,prepares⟩ := made
  refine .bind ((ends_locks _).mono fun _ v same => .bind (ends_require fun _ => .bind (ends_get (.bind (ends_put ?_)))))
  subst same
  have requested : prepared.zipIdx.map (·.1.request) = data.lines := by
    rw [← Function.comp_def Prepared.request Prod.fst,← List.map_map,List.zipIdx_map_fst,requests]
  generalize written : ({ saleId := saleId, lines := data.lines.map fun line => ⟨line.saleLineId,round4 line.qty⟩ } : SaleReturn) = r
  have restocks (entry : Prepared × Nat) (member : entry ∈ prepared.zipIdx) :
      Restocks { v with returns := v.returns ++ [r] } v.returns.length (saleId.getD 0) entry := by
    have inside := List.fst_mem_of_mem_zipIdx member
    obtain ⟨positive,linked,found⟩ := prepares entry.1 inside
    refine ⟨positive,linked,?_,fun id original same => ?_⟩
    · have there : data.lines[entry.2]? = some entry.1.request := by
        rw [← requests,List.getElem?_map,List.mem_zipIdx_iff_getElem?.mp member]
        rfl
      simp [Store.linkedLine,← written,there]
    · obtain ⟨here,placed,within_⟩ := found id original same
      rw [same] at linked
      have mine := mine _ (requests ▸ List.mem_map_of_mem inside) id linked.symm
      obtain ⟨sale,there,-,branch⟩ := checked id.saleId mine
      refine ⟨by rw [mine]; rfl,?_,within_⟩
      rw [placed,← branch]
      exact soldFrom_line there here
  refine (ends_restockedAll v.returns.length returnedAt _ restocks).mono fun _ w wrote => ?_
  obtain ⟨rows,moved,about,placed⟩ := wrote
  obtain ⟨movements,sales,returns⟩ := moved.parts
  refine ⟨sales,lines,saleId,rows,by rw [written]; exact returns,movements,about,mine,?_⟩
  rintro sold rfl
  obtain ⟨sale,there,able,-⟩ := checked sold rfl
  refine ⟨⟨sale,there,able⟩,fun position => ?_⟩
  rw [moved.ofSale]
  exact (placed position).trans (by rw [requested]; rfl)

end Stock
