import SasBackend.LayerRestoration

/-! Requests that no sale is part of keep the layers, and what is on record of sales and returns.
-/
namespace Stock
open SasBackend Tally Program Transition
open Refunds (LineId SaleLineRequest ReturnLineRequest CreateSaleReturnRequest)

variable {s t : Store} {drift due spare : Nat → ℚ} {id : Nat} {layer : PurchaseLine} {qty : ℚ} {position : Position} {line : LineId}

/-- No sale and no return is referred to. -/
def Reference.plain : Reference → Bool
  | .saleLine _ | .saleReturnLine _ _ => false
  | _ => true

theorem Reference.plain_apart {reference : Reference} (plain : reference.plain = true) :
    (∀ line, reference ≠ .saleLine line) ∧ ∀ saleReturn index, reference ≠ .saleReturnLine saleReturn index := by
  cases reference <;> simp_all [Reference.plain]

def Plain (m : StockMovement) : Prop :=
  m.val.movementType ≠ .sale ∧ m.val.movementType ≠ .saleReturn ∧ ∀ line, m.val.reference ≠ .saleLine line

/-- Sales and returns are as they were, and the new movements have nothing to do with them. -/
structure Aside (s t : Store) : Prop where
  rows : ∃ rows, t.movements = s.movements ++ rows ∧ ∀ m ∈ rows, Plain m
  sales : t.sales = s.sales
  returns : t.returns = s.returns

theorem aside_refl (s : Store) : Aside s s := ⟨⟨[],by simp,List.forall_mem_nil _⟩,rfl,rfl⟩

theorem Aside.trans {u : Store} (first : Aside s t) (second : Aside t u) : Aside s u := by
  obtain ⟨one,wrote,plain⟩ := first.rows
  obtain ⟨two,more,also_⟩ := second.rows
  refine ⟨⟨one ++ two,by rw [more,wrote,List.append_assoc],?_⟩,second.sales.trans first.sales,second.returns.trans first.returns⟩
  exact List.forall_mem_append.mpr ⟨plain,also_⟩

theorem Moved.aside {rows : List StockMovement} (moved : Moved s t rows) (plain : ∀ m ∈ rows, Plain m) : Aside s t := by
  obtain ⟨layers,-,rfl⟩ := moved
  exact ⟨⟨rows,rfl,plain⟩,rfl,rfl⟩

/-- Layers are accounted for, and sales are left as they were. -/
def Steady (drift : Nat → ℚ) (s t : Store) : Prop := Settled drift t ∧ Aside s t

theorem Steady.then {u : Store} (first : Steady drift s t) (second : Steady drift t u) : Steady drift s u := ⟨second.1,first.2.trans second.2⟩

theorem Kept.same (kept : Kept s due spare) (layers : t.layers = s.layers) (movements : t.movements = s.movements)
    (returns : t.returns = s.returns) : Kept t due spare := by
  obtain ⟨_,_,_,_,_,_,_,_,_⟩ := t
  obtain rfl := layers
  obtain rfl := movements
  obtain rfl := returns
  exact ⟨kept.known,kept.reported,kept.gave,kept.returned,kept.fresh,kept.balanced,kept.room⟩

theorem Settled.put (settled : Settled drift s) {change : Store → Store} (layers : (change s).layers = s.layers)
    (movements : (change s).movements = s.movements) (returns : (change s).returns = s.returns) (sales : (change s).sales = s.sales) :
    Ends (put change : Tx Unit) s fun _ => Steady drift s :=
  ends_put ⟨Kept.same settled layers movements returns,⟨[],by simp [movements],List.forall_mem_nil _⟩,sales,returns⟩

theorem ends_steady {γ : Type} {f : γ → Tx PUnit} {xs : List γ} (settled : Settled drift s)
    (round : ∀ x ∈ xs, ∀ t, Settled drift t → Ends (f x) t fun _ => Steady drift t) : Ends (forM xs f) s fun _ => Steady drift s := by
  refine (ends_forM (fun later t => Steady drift s t ∧ ∀ x ∈ later, x ∈ xs) ?_ ⟨⟨settled,aside_refl s⟩,fun _ member => member⟩).mono
    fun _ _ kept => kept.1
  rintro x later t ⟨steady,listed⟩
  obtain ⟨here,listed⟩ := List.forall_mem_cons.mp listed
  exact (round x here t steady.1).mono fun _ _ next_ => ⟨steady.then next_,listed⟩

theorem Steady.ends {p : Tx Unit} (steady : Steady drift s t) (ends : Ends p t fun _ => Steady drift t) : Ends p t fun _ => Steady drift s :=
  ends.mono fun _ _ next_ => steady.then next_

theorem ends_found {α : Type} {query : Store → Option α} {post : α → Store → Prop} (holds : ∀ a, query s = some a → post a s) :
    Ends (found query) s post := by
  refine .bind (ends_get ?_)
  cases answer : query s with
  | none => exact ends_fail _
  | some a => exact ends_pure (holds a answer)

theorem ends_locks (positions : List Position) : Ends (lockStockPositions positions) s fun _ t => t = s := by
  refine (ends_forM (fun _ t => t = s) (fun _ _ _ same => ends_acquire same) rfl).mono fun _ _ same => same

theorem ends_checkSufficientStock {item : Item} : Ends (checkSufficientStock item) s fun _ t => t = s :=
  .bind (ends_get (ends_pure rfl))

theorem ends_assertStockAvailable (items : List Item) : Ends (assertStockAvailable items) s fun _ t => t = s := by
  refine (ends_forM (fun _ t => t = s) (fun item _ t same => ?_) rfl).mono fun _ _ same => same
  exact .bind (ends_checkSufficientStock.mono fun _ u here => ends_require fun _ => here.trans same)

theorem ends_unless {α : Type} {allowed : Bool} {items : List Item} {later : PUnit → Tx α} {post : α → Store → Prop}
    (ends : Ends (later ⟨⟩) s post) :
    Ends (if allowed = true then later ⟨⟩ else assertStockAvailable items >>= later) s post := by
  split
  · exact ends
  · refine .bind ((ends_assertStockAvailable items).mono fun _ t same => ?_)
    subst same
    exact ends

theorem ends_assertAvailableAtSource (items : List Item) : Ends (assertAvailableAtSource items) s fun _ t => t = s := by
  refine (ends_forM (fun _ t => t = s) (fun item _ t same => ?_) rfl).mono fun _ _ same => same
  exact .bind (ends_get (ends_require fun _ => same))

theorem steady_consume {item : Item} {movementType : MovementType} {reference : Reference} {movementAt : Int}
    (typed : movementType ≠ .saleReturn ∧ movementType ≠ .sale) (plain : reference.plain = true) (settled : Settled drift s) (nonneg : 0 ≤ item.qty) (untied : ¬ Decimal.Tie 4 item.qty) :
    Ends (consumeToMovements item movementType reference movementAt) s fun _ => Steady drift s := by
  obtain ⟨apart,own⟩ := Reference.plain_apart plain
  refine (ends_consumeToMovements typed own settled nonneg untied).mono fun _ t consumed => ?_
  obtain ⟨kept,rows,moved,outgoing⟩ := consumed
  refine ⟨kept,moved.aside fun m member => ?_⟩
  obtain ⟨-,ofType,about,-⟩ := outgoing.each m member
  rw [Plain,ofType,about]
  exact ⟨typed.2,typed.1,apart⟩

theorem steady_receive (item : Item) {cost : ℚ} {movementType : MovementType} {reference : Reference} {createdAt movementAt : Int}
    {movementSequence : Option Nat} (typed : movementType ≠ .saleReturn ∧ movementType ≠ .sale) (plain : reference.plain = true)
    (settled : Settled drift s) (nonneg : 0 ≤ item.qty) :
    Ends (receiveIntoNewLayer item cost movementType reference createdAt movementAt movementSequence) s fun _ => Steady drift s := by
  obtain ⟨apart,own⟩ := Reference.plain_apart plain
  refine (ends_receiveIntoNewLayer item typed.2 (fun saleReturn index named => absurd named (own saleReturn index)) settled nonneg).mono
    fun _ t received => ?_
  obtain ⟨kept,m,moved,-,ofType,about,-⟩ := received
  refine ⟨kept,moved.aside (List.forall_mem_singleton.mpr ?_)⟩
  rw [Plain,ofType,about]
  exact ⟨typed.2,typed.1,apart⟩

theorem steady_receiveNew {data : CreatePurchaseReceiptRequest} {line : ReceiptLineRequest} (settled : Settled drift s)
    (nonneg : 0 ≤ line.qtyReceived) : Ends (receiveNew data line) s fun _ => Steady drift s :=
  steady_receive _ (by decide) rfl settled nonneg

/-- An order line as it is at hand has the quantities of the stored one. -/
def SameQuantities (row : LayerRow) (layer : PurchaseLine) : Prop :=
  row.qtyRemaining = layer.val.qtyRemaining ∧ row.receivedQty = layer.val.receivedQty

/-- Order lines that are read again are at hand as they are stored. -/
def Mirrored (s : Store) (hand : Held) (later : List ReceiptLineRequest) : Prop :=
  ∀ line ∈ later, ∀ id, line.purchaseLineId = some id → ∀ row, hand.row id = some row →
    ∃ layer, s.layers[id]? = some layer ∧ SameQuantities row layer

theorem heldRow_cons (hand : Held) (id other : Nat) (row : LayerRow) :
    Held.row ((id,row) :: hand) other = if id = other then some row else hand.row other := by
  by_cases same : id = other <;> simp [Held.row,same]

/-- The layers there are stay as they are. -/
def Extends (s t : Store) : Prop := ∀ (id : Nat) layer, s.layers[id]? = some layer → t.layers[id]? = some layer

theorem Mirrored.extended {hand : Held} {later : List ReceiptLineRequest} (mirrored : Mirrored s hand later) (extends_ : Extends s t) :
    Mirrored t hand later := by
  intro line member id named row here
  obtain ⟨layer,there,same⟩ := mirrored line member id named row here
  exact ⟨layer,extends_ id layer there,same⟩

theorem ends_receiveNew_extends {data : CreatePurchaseReceiptRequest} {line : ReceiptLineRequest} :
    Ends (receiveNew data line) s fun _ t => Extends s t := by
  refine .bind (.bind (ends_ofExcept fun stored _ => .bind (ends_get (.bind (ends_put (ends_pure ?_))))))
  refine ends_createStockMovement.mono fun _ u wrote => ?_
  obtain ⟨m,-,rfl⟩ := wrote
  intro id layer there
  exact (List.getElem?_append_left (List.getElem?_eq_some_iff.mp there).1).trans there

theorem Mirrored.written {hand : Held} {line : ReceiptLineRequest} {later : List ReceiptLineRequest}
    {row : LayerRow} {stored : PurchaseLine} (last : receivesLast (line :: later) = true) (named : line.purchaseLineId = some id)
    (mirrored : Mirrored s hand (line :: later)) (inside : id < s.layers.length)
    (same : line.qtyReceived ∈ Decimal.grid 4 → SameQuantities row stored) :
    Mirrored { s with layers := s.layers.set id stored } ((id,row) :: hand) later := by
  intro other member k given held here
  rw [heldRow_cons] at here
  split at here
  next again =>
    subst again
    cases here
    have pairs := (List.pairwise_cons.mp (of_decide_eq_true last)).1 other member
    refine ⟨stored,List.getElem?_set_self inside,same (pairs ?_ (named.trans given.symm))⟩
    rw [named]
    rfl
  next apart =>
    obtain ⟨layer,there,agrees⟩ := mirrored other (List.mem_cons_of_mem _ member) k given held here
    exact ⟨layer,(List.getElem?_set_ne apart).trans there,agrees⟩

/-- What an order line receives raises its layer and what the layer may hold alike. -/
theorem Settled.fill (settled : Settled drift s) (here : s.layers[id]? = some layer) {stored : PurchaseLine} {m : StockMovement}
    (nonneg : 0 ≤ m.val.qty) (remains : stored.val.qtyRemaining = layer.val.qtyRemaining + m.val.qty)
    (received : stored.val.receivedQty = layer.val.receivedQty + m.val.qty) (layered : m.val.purchaseLineId = some id) (plain : Plain m)
    (about : m.val.reference.plain = true) : Steady drift s { s with layers := s.layers.set id stored, movements := s.movements ++ [m] } := by
  have inside := (List.getElem?_eq_some_iff.mp here).1
  have raised := Kept.setLayer settled here _ _ remains received
  have recorded := raised.recordReceived (m := m) (fun other named => ?_)
    (fun saleReturn index named => absurd named ((Reference.plain_apart about).2 saleReturn index)) nonneg
    plain.1 fun other named line gives => absurd (givesBack_saleReturn gives) plain.2.1
  · refine ⟨recorded.congr (fun other => ?_) fun other => ?_,⟨[m],rfl,List.forall_mem_singleton.mpr plain⟩,rfl,rfl⟩
    · simp only [bump,layered,Option.some.injEq,eq_comm (a := id)]
      ring
    · simp only [bump,layered,Option.some.injEq,eq_comm (a := id)]
      ring
  · obtain rfl := Option.some.inj (layered.symm.trans named)
    rw [List.length_set]
    exact inside

/-- Goods that are counted on an order line and kept elsewhere leave its layer room. -/
theorem Settled.beside (settled : Settled drift s) (here : s.layers[id]? = some layer) {stored : PurchaseLine} (nonneg : 0 ≤ qty)
    (remains : stored.val.qtyRemaining = layer.val.qtyRemaining) (received : stored.val.receivedQty = layer.val.receivedQty + qty) :
    Steady drift s { s with layers := s.layers.set id stored } := by
  have raised := Kept.setLayer settled here 0 _ (by rw [remains,add_zero]) received
  have lowered := raised.weaken drift fun other => by
    rw [bump]
    refine le_add_of_nonneg_right ?_
    split
    · exact nonneg
    · exact le_rfl
  exact ⟨lowered.congr (fun other => by simp [bump]) fun _ => rfl,⟨[],by simp,List.forall_mem_nil _⟩,rfl,rfl⟩

theorem steady_receiveLine {data : CreatePurchaseReceiptRequest} {hand : Held} {line : ReceiptLineRequest}
    {later : List ReceiptLineRequest} (settled : Settled drift s) (nonneg : 0 ≤ line.qtyReceived)
    (last : receivesLast (line :: later) = true) (mirrored : Mirrored s hand (line :: later)) :
    Ends (receiveLine data hand line) s fun hand t => Steady drift s t ∧ Mirrored t hand later := by
  have rest : Mirrored s hand later := fun other member => mirrored other (List.mem_cons_of_mem _ member)
  rw [receiveLine]
  split
  · refine .bind (((steady_receiveNew settled nonneg).and ends_receiveNew_extends).mono fun _ t received => ends_pure ?_)
    exact ⟨received.1,rest.extended received.2⟩
  next id named =>
    split
    · exact ends_fail _
    next row held =>
      obtain ⟨layer,here,remaining,into_⟩ := mirrored line List.mem_cons_self id named row held
      have inside := (List.getElem?_eq_some_iff.mp here).1
      have amount : 0 ≤ round4 line.qtyReceived := Decimal.quantize_nonneg nonneg
      have received : round4 (row.receivedQty + line.qtyReceived) = layer.val.receivedQty + round4 line.qtyReceived := by
        rw [into_]
        exact Decimal.quantize_add layer.2.receivedScaled (layer.2.remaining.trans layer.2.received) nonneg
      have written {old scaled_ : ℚ} (scaled : line.qtyReceived ∈ Decimal.grid 4) (same : scaled_ = old + round4 line.qtyReceived) :
          old + line.qtyReceived = scaled_ := by rw [same,round4,Decimal.quantize_of_mem_grid scaled]
      dsimp only
      split
      · refine .bind (ends_updateLayer.mono fun _ t updated => ?_)
        obtain ⟨stored,remains,into,rfl⟩ := updated
        have filled : round4 (row.qtyRemaining + line.qtyReceived) = layer.val.qtyRemaining + round4 line.qtyReceived := by
          rw [remaining]
          exact Decimal.quantize_add layer.2.remainingScaled layer.2.remaining nonneg
        refine .bind (ends_createStockMovement.mono fun _ u wrote => ends_pure ?_)
        obtain ⟨m,same,rfl⟩ := wrote
        have brings : m.val.qty = round4 line.qtyReceived := by rw [same]; rfl
        have layered : m.val.purchaseLineId = some id := by rw [same]; rfl
        have about : m.val.reference.plain = true := by rw [same]; rfl
        have plain : Plain m := by
          rw [Plain,same]
          simp [MovementRow.stored]
        refine ⟨settled.fill here (brings ▸ amount) (brings ▸ remains.trans filled) (brings ▸ into.trans received) layered plain about,?_⟩
        refine mirrored.written last named inside fun scaled => ⟨?_,?_⟩
        · rw [remaining]
          exact written scaled (remains.trans filled)
        · rw [into_]
          exact written scaled (into.trans received)
      · refine .bind (ends_updateLayer.mono fun _ t updated => ?_)
        obtain ⟨stored,remains,into,rfl⟩ := updated
        have same : round4 row.qtyRemaining = layer.val.qtyRemaining := by
          rw [remaining]
          exact Decimal.quantize_of_mem_grid layer.2.remainingScaled
        have first := settled.beside here amount (remains.trans same) (into.trans received)
        refine .bind (((steady_receiveNew first.1 nonneg).and ends_receiveNew_extends).mono fun _ u wrote => ends_pure ?_)
        refine ⟨first.then wrote.1,Mirrored.extended ?_ wrote.2⟩
        refine mirrored.written last named inside fun scaled => ⟨?_,?_⟩
        · exact remaining.trans (remains.trans same).symm
        · rw [into_]
          exact written scaled (into.trans received)

theorem untied_all {quantities : List ℚ} (all : untied quantities = true) : ∀ qty ∈ quantities, ¬ Decimal.Tie 4 qty := by
  simpa [untied] using all

theorem steady_createPurchaseOrder (branchId : Nat) (lines : List PurchaseLineRequest) (now : Int) (settled : Settled drift s) :
    Ends (createPurchaseOrder branchId lines now) s fun _ => Steady drift s := by
  refine .bind (ends_require fun _ => .bind (ends_get (.bind ?_)))
  refine (settled.put rfl rfl rfl rfl).mono fun _ t first => first.ends (ends_steady first.1 fun line _ u settled => ?_)
  refine .bind (ends_ofExcept fun stored ok => ends_put ?_)
  obtain ⟨remains,received⟩ := LayerRow.store_ok ok
  have zero : round4 0 = 0 := Decimal.quantize_of_mem_grid (zero_mem _)
  have added := Kept.addLayer settled (remains.trans received.symm)
  rw [received,zero] at added
  exact ⟨added.congr (fun other => by simp [bump]) fun other => by simp [bump],⟨[],by simp,List.forall_mem_nil _⟩,rfl,rfl⟩

theorem steady_updatePurchaseOrderStatus (id : Nat) (target : PurchaseOrderStatus) (settled : Settled drift s) :
    Ends (updatePurchaseOrderStatus id target) s fun _ => Steady drift s :=
  .bind (ends_found fun _ _ => .bind (ends_require fun _ => settled.put rfl rfl rfl rfl))

theorem ends_checkReceiptLine (hand : Held) (pending : List ReceiptLineRequest) (line : ReceiptLineRequest) :
    Ends (checkReceiptLine hand pending line) s fun _ t => t = s := by
  rw [checkReceiptLine]
  split
  · exact ends_pure rfl
  · split
    · exact ends_fail _
    · exact .bind (ends_require fun _ => ends_require fun _ => rfl)

theorem ends_checkReceiptLines (hand : Held) (pending lines : List ReceiptLineRequest) :
    Ends (checkReceiptLines hand pending lines) s fun _ t => t = s := by
  induction lines generalizing pending with
  | nil => exact ends_pure rfl
  | cons line rest induction =>
    refine .bind ((ends_checkReceiptLine hand pending line).mono fun _ t same => ?_)
    subst same
    exact induction _

theorem ends_lockOrderLines (data : CreatePurchaseReceiptRequest) : Ends (lockOrderLines data) s fun hand t =>
    t = s ∧ ∀ id row, hand.row id = some row → ∃ layer, s.layers[id]? = some layer ∧ row = layer.val := by
  refine .bind (ends_require fun _ => .bind (ends_get (.bind (ends_require fun _ => ends_pure ⟨rfl,fun id row here => ?_⟩))))
  obtain ⟨entry,found,rfl⟩ := Option.map_eq_some_iff.mp here
  have named : entry.1 = id := by simpa using List.find?_some found
  obtain ⟨other,-,read⟩ := List.mem_filterMap.mp (List.mem_of_find?_eq_some found)
  obtain ⟨layer,kept,rfl⟩ := Option.map_eq_some_iff.mp read
  exact ⟨layer,named ▸ (Option.filter_eq_some_iff.mp kept).1,rfl⟩

theorem ends_checkReceivedOrder (branchId : Nat) (order : Option Nat) : Ends (checkReceivedOrder branchId order) s fun _ t => t = s := by
  cases order with
  | none => exact ends_pure rfl
  | some id => exact .bind (ends_found fun _ _ => .bind (ends_require fun _ => ends_require fun _ => rfl))

theorem steady_updateOrderFromReceipt (hand : Held) (id : Nat) (settled : Settled drift s) :
    Ends (updateOrderFromReceipt hand id) s fun _ => Steady drift s := by
  refine .bind (ends_get ?_)
  split
  · exact ends_pure ⟨settled,aside_refl s⟩
  · exact settled.put rfl rfl rfl rfl

theorem steady_createPurchaseReceipt (data : CreatePurchaseReceiptRequest) (settled : Settled drift s)
    (allowed : orderly s (.createPurchaseReceipt data) = true) : Ends (createPurchaseReceipt data) s fun _ => Steady drift s := by
  refine .bind (ends_require fun valid => .bind ((ends_checkReceivedOrder _ _).mono fun _ t same => ?_))
  subst same
  refine .bind ((ends_lockOrderLines data).mono fun locked u given => ?_)
  obtain ⟨rfl,stored⟩ := given
  refine .bind ((ends_checkReceiptLines locked [] data.lines).mono fun _ v same => ?_)
  subst same
  have positive : ∀ line ∈ data.lines, 0 ≤ line.qtyReceived := by
    intro line member
    simp only [CreatePurchaseReceiptRequest.valid,Bool.and_eq_true,List.all_eq_true,decide_eq_true_eq] at valid
    exact (valid.2 line member).1.le
  have mirrored : Mirrored v locked data.lines := by
    intro line _ id _ row here
    obtain ⟨layer,there,rfl⟩ := stored id row here
    exact ⟨layer,there,rfl,rfl⟩
  refine .bind ((ends_foldlM (fun later hand t => Steady drift v t ∧ Mirrored t hand later ∧ receivesLast later = true ∧
    ∀ line ∈ later, 0 ≤ line.qtyReceived) ?_ ⟨⟨settled,aside_refl v⟩,mirrored,allowed,positive⟩).mono fun hand w first => ?_)
  · rintro line later hand t ⟨steady,mirrored,last,nonneg⟩
    refine (steady_receiveLine steady.1 (nonneg line List.mem_cons_self) last mirrored).mono fun _ u received => ?_
    refine ⟨steady.then received.1,received.2,?_,fun other member => nonneg other (List.mem_cons_of_mem _ member)⟩
    exact decide_eq_true (List.pairwise_cons.mp (of_decide_eq_true last)).2
  · split
    · exact ends_pure first.1
    · exact first.1.ends (steady_updateOrderFromReceipt hand _ first.1.1)

/-- A receipt does to the store what writing its order lines, opening layers, filling them and closing its order do. -/
theorem relates_createPurchaseReceipt {r : Store → Store → Prop} [Std.Refl r] [IsTrans Store r] (data : CreatePurchaseReceiptRequest)
    (updates : ∀ id row, Relates r (updateLayer id row)) (opens : ∀ line, Relates r (receiveNew data line))
    (records : ∀ row : MovementRow, row.movementType = .purchase → row.reference = .purchaseReceiptLine →
      Relates r (createStockMovement row))
    (orders : ∀ id status, Relates r (put (setOrderStatus id status) : Tx Unit)) : Relates r (createPurchaseReceipt data) := by
  have received (hand : Held) (line : ReceiptLineRequest) : Relates r (receiveLine data hand line) := by
    rw [receiveLine]
    split
    · exact (opens line).bind fun _ => relates_pure _
    · split
      · exact relates_fail _
      · refine relates_ite ((updates _ _).bind fun _ => (records _ rfl rfl).bind fun _ => relates_pure _) ?_
        exact (updates _ _).bind fun _ => (opens line).bind fun _ => relates_pure _
  have checked (branchId : Nat) (order : Option Nat) : Relates r (checkReceivedOrder branchId order) := by
    intro s
    exact (ends_checkReceivedOrder branchId order).mono fun _ t same => same ▸ refl_of _ _
  have locked : Relates r (lockOrderLines data) := by
    intro s
    exact (ends_lockOrderLines data).mono fun _ t given => given.1 ▸ refl_of _ _
  have lines (hand : Held) : Relates r (checkReceiptLines hand [] data.lines) := by
    intro s
    exact (ends_checkReceiptLines hand [] data.lines).mono fun _ t same => same ▸ refl_of _ _
  refine (relates_require _ _).bind fun _ => (checked _ _).bind fun _ => locked.bind fun hand => (lines hand).bind fun _ => ?_
  refine (relates_foldlM received data.lines hand).bind fun _ => ?_
  split
  · exact relates_pure _
  · exact (relates_get _).bind fun _ => relates_ite (relates_pure _) (orders _ _)

theorem ends_adjustmentCost (openingBalance : Bool) (line : AdjustmentLineRequest) :
    Ends (adjustmentCost openingBalance line position) s fun _ t => t = s := by
  rw [adjustmentCost.eq_def]
  cases openingBalance with
  | false => exact ends_getFallbackCostPerUnit
  | true => cases line.costPerUnit with
    | none => exact ends_getFallbackCostPerUnit
    | some cost => exact ends_pure rfl

/-- A layer that is taken from again is at hand as it is stored. -/
def Reread (branchId : Nat) (s : Store) (hand : Held) (later : List AdjustmentLineRequest) : Prop :=
  ∀ entry ∈ hand, ∀ line ∈ later, line.qtyDelta < 0 → entry.2.position = (line.item branchId).position →
    ∃ layer, s.layers[entry.1]? = some layer ∧ LikeStored entry.2 layer

theorem ends_createFifoLayer_row {item : Item} {cost : ℚ} {createdAt : Int} : Ends (createFifoLayer item cost createdAt) s fun id t =>
    ∃ stored : PurchaseLine, stored.val = (newLayer item cost createdAt).stored ∧ t.layers[id]? = some stored := by
  refine .bind (ends_ofExcept fun stored ok => .bind (ends_get (.bind (ends_put (ends_pure ?_)))))
  exact ⟨stored,LayerRow.store_stored ok,List.getElem?_concat_length⟩

/-- The layer of a line is opened, and is at hand as it is stored unless nothing takes from it. -/
theorem steady_openLayer {branchId : Nat} {line : AdjustmentLineRequest} {later : List AdjustmentLineRequest} {cost : ℚ} {adjustedAt : Int}
    (positive : 0 < line.qtyDelta) (settled : Settled drift s) (last : adjustsLast branchId (line :: later) = true) :
    Ends (do
      let id ← createFifoLayer (line.item branchId) cost adjustedAt
      createStockMovement
        ⟨(line.item branchId).position,.adjustmentIn,(line.item branchId).qty,cost,.stockAdjustmentLine,some id,adjustedAt,none⟩
      pure [(id,newLayer (line.item branchId) cost adjustedAt)] : Tx Held) s
      fun hand t => Steady drift s t ∧ Reread branchId t hand later := by
  refine .bind (((ends_createFifoLayer settled).and ends_createFifoLayer_row).mono fun id t made => ?_)
  obtain ⟨⟨rfl,longer,moved,filled⟩,stored,written,there⟩ := made
  refine .bind ((@ends_fillLayer _ _ _ _ (line.item branchId) _ (by simp) (fun _ _ named => by cases named) settled (abs_nonneg _) rfl rfl
    longer moved filled).mono fun _ u wrote => ends_pure ?_)
  obtain ⟨kept,m,same,rfl⟩ := wrote
  refine ⟨⟨kept,(moved.trans (moved_record t m)).aside (List.forall_mem_singleton.mpr ?_)⟩,?_⟩
  · rw [Plain,same]
    simp [MovementRow.stored]
  · intro entry member other inside negative placed
    obtain rfl := List.mem_singleton.mp member
    have scaled : (line.item branchId).qty ∈ Decimal.grid 4 := by
      rw [AdjustmentLineRequest.item,abs_of_pos positive]
      exact (List.pairwise_cons.mp (of_decide_eq_true last)).1 other inside negative placed
    have whole : round4 (line.item branchId).qty = (line.item branchId).qty := Decimal.quantize_of_mem_grid scaled
    refine ⟨stored,there,?_,?_,?_⟩
    · rw [written]
      rfl
    · rw [written]
      exact whole.symm
    · rw [written]
      exact whole.symm

/-- What is taken is taken from the layer at hand and from the stored one alike. -/
theorem Reread.taken {branchId : Nat} {line : AdjustmentLineRequest} {later : List AdjustmentLineRequest} {hand : Held}
    {slices : List FifoLayerConsumption} (reread : Reread branchId s hand (line :: later)) (negative : line.qtyDelta < 0)
    (last : adjustsLast branchId (line :: later) = true) (settled : Settled drift s)
    (allocated : Allocated s t drift drift (line.item branchId).qty slices)
    (named : ∀ slice ∈ slices, ∀ id, slice.purchaseLineId = some id → ∃ layer, (layer,id) ∈ s.fifoLayers (line.item branchId).position) :
    Reread branchId t (hand.without (line.item branchId).position slices) later := by
  intro entry member other inside below placed
  obtain ⟨⟨id,row⟩,held,rfl⟩ := List.mem_map.mp member
  have where_ : row.position = (other.item branchId).position := by
    rw [← placed]
    split <;> rfl
  obtain ⟨layer,here,same⟩ := reread (id,row) held other (List.mem_cons_of_mem _ inside) below where_
  have some_ : id < t.layers.length := (List.getElem?_eq_some_iff.mp here).1.trans_le allocated.frame.longer
  obtain ⟨before,there,shape,remains⟩ := allocated.lowered settled (List.getElem?_eq_getElem some_)
  obtain rfl := Option.some.inj (here.symm.trans there)
  simp only [PurchaseLine.shape,Prod.mk.injEq] at shape
  split
  next at_ =>
    have scaled : (line.item branchId).qty ∈ Decimal.grid 4 := by
      have pairs := (List.pairwise_cons.mp (of_decide_eq_true last)).1 other inside below (at_.symm.trans where_)
      rw [AdjustmentLineRequest.item,abs_of_neg negative]
      exact neg_mem pairs
    refine ⟨_,List.getElem?_eq_getElem some_,same.position.trans shape.1,?_,same.received.trans shape.2⟩
    rw [remains,allocated.scaled scaled,same.remaining]
  next away =>
    have none : drawn slices id = 0 := by
      refine tally_eq_zero fun slice given mine => ?_
      obtain ⟨found,member⟩ := named slice given id mine
      obtain ⟨there,at_,-⟩ := mem_fifoLayers.mp member
      obtain rfl := Option.some.inj (here.symm.trans there)
      exact away (same.position.trans at_)
    refine ⟨_,List.getElem?_eq_getElem some_,same.position.trans shape.1,?_,same.received.trans shape.2⟩
    rw [remains,none,sub_zero,same.remaining]

theorem steady_adjustLine {branchId : Nat} {openingBalance : Bool} {adjustedAt : Int} {line : AdjustmentLineRequest}
    {later : List AdjustmentLineRequest} {hand : Held} (untied : line.qtyDelta < 0 → ¬ Decimal.Tie 4 |line.qtyDelta|)
    (nonzero : line.qtyDelta ≠ 0) (settled : Settled drift s) (last : adjustsLast branchId (line :: later) = true)
    (reread : Reread branchId s hand (line :: later)) :
    Ends (adjustLine branchId openingBalance adjustedAt hand line) s fun hand t => Steady drift s t ∧ Reread branchId t hand later := by
  rw [adjustLine]
  split
  · next positive =>
    refine .bind ((ends_adjustmentCost openingBalance line).mono fun _ t same => ?_)
    subst same
    exact steady_openLayer positive settled last
  · next out =>
    have negative : line.qtyDelta < 0 := lt_of_le_of_ne (not_lt.mp out) nonzero
    have agrees : ∀ entry ∈ s.fifoLayers (line.item branchId).position,
        LikeStored ((hand.at (line.item branchId).position).read entry) entry.1 := by
      rintro ⟨layer,id⟩ member
      rw [Held.read,Held.row]
      cases found : (hand.at (line.item branchId).position).find? (·.1 = id) with
      | none => exact ⟨rfl,rfl,rfl⟩
      | some entry =>
        have named : entry.1 = id := by simpa using List.find?_some found
        obtain ⟨held,placed⟩ := List.mem_filter.mp (List.mem_of_find?_eq_some found)
        obtain ⟨other,there,same⟩ := reread entry held line List.mem_cons_self negative (by simpa using placed)
        obtain rfl := Option.some.inj ((named ▸ there).symm.trans (mem_fifoLayers.mp member).1)
        exact same
    refine .bind ((ends_consumeHeldToMovements (by decide) (fun _ _ named => by cases named) settled (abs_nonneg _) (untied negative)
      agrees).mono fun allocation t consumed => ends_pure ?_)
    obtain ⟨⟨kept,rows,moved,outgoing⟩,⟨u,allocated,layers⟩,named⟩ := consumed
    refine ⟨⟨kept,moved.aside fun m member => ?_⟩,?_⟩
    · obtain ⟨-,ofType,about,-⟩ := outgoing.each m member
      rw [Plain,ofType,about]
      simp
    · have taken := reread.taken negative last settled allocated named
      rwa [Reread,layers]

theorem steady_createStockAdjustment (branchId : Nat) (openingBalance : Bool) (lines : List AdjustmentLineRequest) (adjustedAt : Int)
    (settled : Settled drift s) (allowed : orderly s (.createStockAdjustment branchId openingBalance lines adjustedAt) = true) :
    Ends (createStockAdjustment branchId openingBalance lines adjustedAt) s fun _ => Steady drift s := by
  refine .bind (ends_require fun valid => .bind (ends_get (.bind ((ends_locks _).mono fun _ t same => ?_))))
  subst same
  dsimp only
  simp only [Bool.and_eq_true,List.all_eq_true,decide_eq_true_eq] at valid
  obtain ⟨last,untied⟩ := Bool.and_eq_true_iff.mp allowed
  have each : ∀ line ∈ lines, line.qtyDelta ≠ 0 ∧ (line.qtyDelta < 0 → ¬ Decimal.Tie 4 |line.qtyDelta|) := by
    refine fun line member => ⟨(valid.2 line member).1,fun negative => ?_⟩
    exact untied_all untied _ (List.mem_map.mpr ⟨line,List.mem_filter.mpr ⟨member,by simpa using negative⟩,rfl⟩)
  apply ends_unless
  refine .bind ((ends_foldlM (fun later hand u => Steady drift t u ∧ Reread branchId u hand later ∧ adjustsLast branchId later = true ∧
    ∀ line ∈ later, line.qtyDelta ≠ 0 ∧ (line.qtyDelta < 0 → ¬ Decimal.Tie 4 |line.qtyDelta|)) ?_
    ⟨⟨settled,aside_refl t⟩,by simp [Reread],last,each⟩).mono fun _ u kept => ends_pure kept.1)
  rintro line later hand u ⟨steady,reread,last,each⟩
  obtain ⟨⟨nonzero,untied⟩,each⟩ := List.forall_mem_cons.mp each
  refine (steady_adjustLine untied nonzero steady.1 last reread).mono fun _ v next_ => ⟨steady.then next_.1,next_.2,?_,each⟩
  exact decide_eq_true (List.pairwise_cons.mp (of_decide_eq_true last)).2

theorem steady_createWasteEntry (branchId : Nat) (lines : List ItemRequest) (wastedAt : Int) (settled : Settled drift s)
    (allowed : orderly s (.createWasteEntry branchId lines wastedAt) = true) :
    Ends (createWasteEntry branchId lines wastedAt) s fun _ => Steady drift s := by
  refine .bind (ends_require fun valid => .bind (ends_get (.bind ((ends_locks _).mono fun _ t same => ?_))))
  subst same
  dsimp only
  simp only [Bool.and_eq_true,List.all_eq_true,decide_eq_true_eq] at valid
  apply ends_unless
  refine ends_steady settled fun item member v settled => ?_
  obtain ⟨line,inside,rfl⟩ := List.mem_map.mp member
  have untied := untied_all allowed _ (List.mem_map_of_mem inside)
  exact .bind ((steady_consume (by decide) rfl settled (valid.2 line inside).le untied).mono fun _ w first => ends_pure first)

theorem steady_createStockTransfer (source dest : Nat) (lines : List ItemRequest) (now : Int) (settled : Settled drift s)
    (allowed : orderly s (.createStockTransfer source dest lines now) = true) :
    Ends (createStockTransfer source dest lines now) s fun _ => Steady drift s := by
  refine .bind (ends_require fun valid => .bind ((ends_locks _).mono fun _ t same => ?_))
  subst same
  refine .bind ((ends_assertAvailableAtSource _).mono fun _ u same => ?_)
  subst same
  refine .bind (ends_ofExcept fun stored _ => .bind (ends_get (.bind ?_)))
  simp only [Bool.and_eq_true,List.all_eq_true,decide_eq_true_eq] at valid
  refine (settled.put rfl rfl rfl rfl).mono fun _ t first => first.ends (ends_steady first.1 fun entry member v settled => ?_)
  obtain ⟨line,inside,same⟩ := List.mem_map.mp (List.fst_mem_of_mem_zipIdx member)
  have untied : ¬ Decimal.Tie 4 entry.1.qty := same ▸ untied_all allowed _ (List.mem_map_of_mem inside)
  have nonneg : 0 ≤ entry.1.qty := same ▸ (valid.2 line inside).le
  exact .bind ((steady_consume (by decide) rfl settled nonneg untied).mono fun _ w first => ends_pure first)

theorem steady_receiveStockTransfer (id : Nat) (now : Int) (settled : Settled drift s) :
    Ends (receiveStockTransfer id now) s fun _ => Steady drift s := by
  refine .bind (ends_found fun transfer _ => .bind (ends_require fun _ => .bind ?_))
  refine (ends_steady settled fun entry _ t settled => .bind (ends_get ?_)).mono fun _ u first => first.ends (first.1.put rfl rfl rfl rfl)
  exact ends_steady settled fun slice _ v settled => steady_receive _ (by decide) rfl settled (abs_nonneg _)

theorem steady_createProductionOrder (branchId bomHeaderId : Nat) (qtyToProduce : ℚ) (settled : Settled drift s) :
    Ends (createProductionOrder branchId bomHeaderId qtyToProduce) s fun _ => Steady drift s :=
  .bind (ends_require fun _ => .bind (ends_found fun _ _ => settled.put rfl rfl rfl rfl))

theorem steady_startProductionOrder (id : Nat) (settled : Settled drift s) : Ends (startProductionOrder id) s fun _ => Steady drift s :=
  .bind (ends_found fun _ _ => .bind (ends_require fun _ => settled.put rfl rfl rfl rfl))

theorem steady_cancelProductionOrder (id : Nat) (settled : Settled drift s) : Ends (cancelProductionOrder id) s fun _ => Steady drift s :=
  .bind (ends_found fun _ _ => .bind (ends_require fun _ => settled.put rfl rfl rfl rfl))

theorem steady_consumeIngredientFifo (item : Item) (allowNegative : Bool) (movementAt : Int) (settled : Settled drift s) (nonneg : 0 ≤ item.qty)
    (untied : ¬ Decimal.Tie 4 item.qty) : Ends (consumeIngredientFifo item allowNegative movementAt) s fun _ => Steady drift s := by
  refine .bind ((ends_locks _).mono fun _ t same => ?_)
  subst same
  have taken : Ends (consumeToMovements item .productionOut .productionLine movementAt >>= fun allocation =>
      pure (allocation.slices.map fun slice => slice.qty * slice.costPerUnit).sum) t fun _ => Steady drift t :=
    .bind ((steady_consume (by decide) rfl settled nonneg untied).mono fun _ v first => ends_pure first)
  dsimp only
  split
  · exact taken
  · refine .bind (ends_checkSufficientStock.mono fun _ u same => .bind (ends_require fun _ => ?_))
    subst same
    exact taken

theorem steady_completeProductionOrder (id : Nat) (qtyProduced : ℚ) (now : Int) (settled : Settled drift s) :
    Ends (completeProductionOrder id qtyProduced now) s fun _ => Steady drift s := by
  refine .bind (ends_require fun positive => .bind (ends_found fun order _ => .bind (ends_require fun _ => .bind (ends_require fun _ => ?_))))
  refine .bind (ends_found fun bom _ => .bind (ends_require fun _ => .bind (ends_get (.bind ?_))))
  have start : Steady drift s s := ⟨settled,aside_refl s⟩
  refine (ends_mapM_kept (fun line t steady => ?_) bom.lines start).mono fun costs t first => ?_
  · dsimp only
    split
    · exact ends_pure steady
    · next some_ =>
      have scaled : computeIngredientQtyForProduction line bom.outputQty qtyProduced ∈ Decimal.grid 4 :=
        Decimal.grid_mono (by decide) (Decimal.quantizeHalfEven_mem_grid 2 _)
      refine (steady_consumeIngredientFifo _ _ now steady.1 (not_le.mp some_).le (Decimal.not_tie_of_mem_grid scaled)).mono fun _ u next_ => ?_
      exact steady.then next_
  · have amount : 0 ≤ qtyProduced := (of_decide_eq_true positive).le
    refine .bind ((first.ends (steady_receive _ (by decide) rfl first.1 amount)).mono fun _ u next_ => ?_)
    exact next_.ends (next_.1.put rfl rfl rfl rfl)

end Stock
