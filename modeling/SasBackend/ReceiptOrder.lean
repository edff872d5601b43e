import SasBackend.Library.Queue
import SasBackend.Semantics.ReceiptOrder
import SasBackend.StockFrame

/-! Layers are taken in the order of their receipts, unless an order line gets its first goods after others that were
received for it at another cost: it then stays as old as the order.
-/
namespace Stock
open SasBackend Program Transition

variable {s t : Store} {position : Position} {a b : PurchaseLine × Nat} {layers : List (PurchaseLine × Nat)}

theorem cover_before {qty : ℚ} (distinct : (layers.map Prod.snd).Nodup) (before : [a,b].Sublist layers) :
    ∀ slice ∈ (cover layers qty).1, slice.purchaseLineId = some b.2 →
      ∃ first, [first,slice].Sublist (cover layers qty).1 ∧ first.purchaseLineId = some a.2 ∧ first.qty = a.1.val.qtyRemaining := by
  induction layers generalizing qty with
  | nil => cases before
  | cons entry rest induction =>
    obtain ⟨layer,id⟩ := entry
    rw [List.map_cons,List.nodup_cons] at distinct
    obtain ⟨fresh,distinct⟩ := distinct
    have inside : b ∈ rest := by
      cases before with
      | cons _ later => exact later.subset (List.mem_cons_of_mem a List.mem_cons_self)
      | cons_cons _ later => exact later.subset List.mem_cons_self
    have apart : b.2 ≠ id := fun same => fresh (List.mem_map.mpr ⟨b,inside,same⟩)
    rw [cover]
    split
    · exact fun _ absurd_ => absurd absurd_ List.not_mem_nil
    · intro slice member named
      obtain rfl | member := List.mem_cons.mp member
      · exact absurd (Option.some.inj named).symm apart
      · cases before with
        | cons _ later =>
          obtain ⟨first,order,rest_⟩ := induction distinct later slice member named
          exact ⟨first,order.cons _,rest_⟩
        | cons_cons _ later =>
          refine ⟨_,(List.singleton_sublist.mpr member).cons_cons _,rfl,?_⟩
          -- something is left for the later layer, so this one was emptied
          have less : ¬ qty ≤ layer.val.qtyRemaining := by
            intro enough
            rw [min_eq_left enough,sub_self] at member
            cases rest with
            | nil => cases inside
            | cons next more =>
              rw [cover,if_pos le_rfl] at member
              cases member
          exact min_eq_right (not_le.mp less).le

theorem takesBefore_of_sublist (before : [a,b].Sublist (s.fifoLayers position)) : s.TakesBefore position a b := by
  intro qty slices short t ran slice member named
  have taken : (slices,short) = if qty ≤ 0 then ([],0) else cover (s.fifoLayers position) qty :=
    (ends_consumeFifoLayers_cover _ _ ran).2
  split at taken
  · cases taken
    cases member
  · have same : slices = (cover (s.fifoLayers position) qty).1 := congrArg Prod.fst taken
    subst same
    exact cover_before (fifoLayers_distinct s position) before slice member named

theorem Older.sublist (older : Older a b) (first : a ∈ s.fifoLayers position) (second : b ∈ s.fifoLayers position) :
    [a,b].Sublist (s.fifoLayers position) := by
  have apart : a ≠ b := by
    intro same
    subst same
    exact older.asymm older
  exact Queue.pair_sublist_of_pairwise (fifoLayers_older s position) first second apart older.asymm

/-- A layer that goods were received into is as old as one of these receipts. -/
structure Arrived (s : Store) : Prop where
  known : ∀ m ∈ s.movements, m.val.movementType = .purchase → ∀ id, m.val.purchaseLineId = some id → id < s.layers.length
  aged : ∀ (id : Nat) layer, s.layers[id]? = some layer → s.receiptsInto id ≠ [] → layer.val.createdAt ∈ s.receiptsInto id

theorem Arrived.receiptOrder (arrived : Arrived s) : ReceiptOrder s := by
  intro position a first b second before
  obtain ⟨into,after,each⟩ := before
  have older : Older a b := by
    apply Or.inl
    apply each
    · exact arrived.aged a.2 a.1 (mem_fifoLayers.mp first).1 into
    · exact arrived.aged b.2 b.1 (mem_fifoLayers.mp second).1 after
  have listed := older.sublist first second
  exact ⟨listed,takesBefore_of_sublist listed⟩

theorem arrived_empty (empty : Empty s) : Arrived s := by
  obtain ⟨layers,movements,-⟩ := empty
  constructor
  · simp [movements]
  · simp [layers]

theorem receiptsInto_append {rows : List StockMovement} (wrote : t.movements = s.movements ++ rows) (id : Nat) :
    t.receiptsInto id = s.receiptsInto id ++
      (rows.filter fun m => m.val.movementType = .purchase && m.val.purchaseLineId = some id).map (·.val.movementAt) := by
  simp [Store.receiptsInto,wrote]

theorem Arrived.unreceived (arrived : Arrived s) {id : Nat} (beyond : s.layers.length ≤ id) : s.receiptsInto id = [] := by
  simp only [Store.receiptsInto,List.map_eq_nil_iff,List.filter_eq_nil_iff,Bool.and_eq_true,decide_eq_true_eq,not_and]
  intro m member typed named
  exact absurd (arrived.known m member typed id named) (not_lt.mpr beyond)

theorem Frame.receiptsInto (frame : Frame (· ≠ .purchase) s t) (id : Nat) : t.receiptsInto id = s.receiptsInto id := by
  obtain ⟨rows,wrote,each⟩ := frame.rows
  have none : (rows.filter fun m => m.val.movementType = .purchase && m.val.purchaseLineId = some id) = [] := by
    apply List.filter_eq_nil_iff.mpr
    intro m member
    simp [each m member]
  rw [receiptsInto_append wrote,none,List.map_nil,List.append_nil]

theorem Arrived.frame (arrived : Arrived s) (frame : Frame (· ≠ .purchase) s t) : Arrived t := by
  constructor
  · obtain ⟨rows,wrote,each⟩ := frame.rows
    rw [wrote]
    intro m member typed id named
    rcases List.mem_append.mp member with old | new
    · exact (arrived.known m old typed id named).trans_le frame.longer
    · exact absurd typed (each m new)
  · intro id layer here received
    rw [frame.receiptsInto] at received ⊢
    have inside : id < s.layers.length := not_le.mp fun beyond => received (arrived.unreceived beyond)
    have before := List.getElem?_eq_getElem inside
    obtain ⟨later,found,age⟩ := frame.ages id _ before
    rw [Option.some.inj (here.symm.trans found),age]
    exact arrived.aged id _ before received

variable {data : CreatePurchaseReceiptRequest} {line : ReceiptLineRequest} {lines : List ReceiptLineRequest} {receivedAt : Int}

/-- Goods go into one layer, which is as old as this receipt or another one into it. -/
theorem Arrived.receive (arrived : Arrived s) {id : Nat} {m : StockMovement} {later : List PurchaseLine} (purchase : m.val.movementType = .purchase)
    (named : m.val.purchaseLineId = some id) (longer : s.layers.length ≤ later.length) (inside : id < later.length)
    (others : ∀ other ≠ id, later[other]? = s.layers[other]?)
    (age : ∀ layer, later[id]? = some layer → layer.val.createdAt = m.val.movementAt ∨ layer.val.createdAt ∈ s.receiptsInto id) :
    Arrived { s with layers := later, movements := s.movements ++ [m] } := by
  have receipts : ∀ other, Store.receiptsInto { s with layers := later, movements := s.movements ++ [m] } other = s.receiptsInto other ++
      ([m].filter fun m => m.val.movementType = .purchase && m.val.purchaseLineId = some other).map (·.val.movementAt) :=
    receiptsInto_append rfl
  constructor
  · intro row member typed other into
    rcases List.mem_append.mp member with old | new
    · exact (arrived.known row old typed other into).trans_le longer
    · rw [List.mem_singleton.mp new,named,Option.some.injEq] at into
      exact into ▸ inside
  · intro other layer here received
    rw [receipts] at received ⊢
    by_cases same : other = id
    · subst same
      simp only [List.filter_singleton,purchase,named,decide_true,Bool.and_self,List.mem_append]
      exact (age layer here).symm.imp_right List.mem_singleton.mpr
    · have none : [m].filter (fun m => m.val.movementType = .purchase && m.val.purchaseLineId = some other) = [] := by
        simp [named,Ne.symm same]
      rw [none,List.map_nil,List.append_nil] at received ⊢
      exact arrived.aged other layer ((others other same).symm.trans here) received

/-- What the lines after a receipt line find. -/
structure Received (s t : Store) (line : ReceiptLineRequest) (receivedAt : Int) : Prop where
  arrived : Arrived t
  layers : ∀ (id : Nat) later, t.layers[id]? = some later → later.val.createdAt = receivedAt ∨
    ∃ layer, s.layers[id]? = some layer ∧ round4 later.val.costPerUnit = round4 layer.val.costPerUnit ∧
      later.val.createdAt = layer.val.createdAt ∧ (line.purchaseLineId ≠ some id → later.val.receivedQty = layer.val.receivedQty)
  receipts : ∀ id, s.receiptsInto id ≠ [] → t.receiptsInto id ≠ []
  filled : ∀ (id : Nat) layer, line.purchaseLineId = some id → s.layers[id]? = some layer →
    round4 layer.val.costPerUnit = round4 line.costPerUnit → t.receiptsInto id ≠ []

theorem receiptsInto_ne_nil {rows : List StockMovement} (wrote : t.movements = s.movements ++ rows) {id : Nat} (received : s.receiptsInto id ≠ []) :
    t.receiptsInto id ≠ [] := by
  rw [receiptsInto_append wrote]
  exact List.append_ne_nil_of_left_ne_nil received _

theorem promptLine_iff : s.promptLine receivedAt lines line = true ↔ ∀ id layer, line.purchaseLineId = some id →
    s.layers[id]? = some layer → round4 layer.val.costPerUnit = round4 line.costPerUnit →
    s.receiptsInto id ≠ [] ∨ layer.val.createdAt = receivedAt ∨ layer.val.receivedQty = 0 ∧
      ∀ first, lines.find? (fun other => other.purchaseLineId = some id) = some first → round4 layer.val.costPerUnit = round4 first.costPerUnit := by
  simp only [Store.promptLine,Option.all_eq_true,Bool.or_eq_true,Bool.and_eq_true,decide_eq_true_eq,Bool.not_eq_true',
    List.isEmpty_eq_false_iff]
  grind

theorem received_new (arrived : Arrived s) (elsewhere : ∀ id layer, line.purchaseLineId = some id → s.layers[id]? = some layer →
    round4 layer.val.costPerUnit ≠ round4 line.costPerUnit) :
    Ends (receiveNew data line) s fun _ t => Received s t line data.receivedAt := by
  refine (ends_receiveIntoNewLayer_row _).mono fun _ t received => ?_
  obtain ⟨layer,m,made,row,rfl⟩ := received
  have new : (s.layers ++ [layer])[s.layers.length]? = some layer := List.getElem?_concat_length
  have old : ∀ other ≠ s.layers.length, (s.layers ++ [layer])[other]? = s.layers[other]? := fun _ apart => Slots.append_apart apart
  refine ⟨?_,fun id later here => ?_,fun id => receiptsInto_ne_nil rfl,fun id found named here same => absurd same (elsewhere id found named here)⟩
  · refine arrived.receive (by rw [row]) (by rw [row]) (by simp) (by simp) old fun found here => .inl ?_
    rw [Option.some.inj (here.symm.trans new),made,row]
  · by_cases same : id = s.layers.length
    · subst same
      rw [Option.some.inj (here.symm.trans new),made]
      exact .inl rfl
    · exact .inr ⟨later,(old id same).symm.trans here,rfl,rfl,fun _ => rfl⟩

/-- An order line at hand is as old and at the cost that is stored, and has received goods where the stored one has. -/
structure Mirrors (row : LayerRow) (layer : PurchaseLine) : Prop where
  cost : round4 row.costPerUnit = round4 layer.val.costPerUnit
  age : row.createdAt = layer.val.createdAt
  nonneg : 0 ≤ row.receivedQty
  untouched : row.receivedQty = 0 ↔ layer.val.receivedQty = 0

def Held.Stored (hand : Held) (s : Store) : Prop :=
  ∀ id row, hand.row id = some row → ∃ layer, s.layers[id]? = some layer ∧ Mirrors row layer

theorem Held.Stored.extended {hand : Held} (stored : hand.Stored s) (extends_ : Extends s t) : hand.Stored t := by
  intro id row here
  obtain ⟨layer,there,same⟩ := stored id row here
  exact ⟨layer,extends_ id layer there,same⟩

theorem Held.Stored.written {hand : Held} {id : Nat} {row : LayerRow} {layer : PurchaseLine} (stored : hand.Stored s)
    (inside : id < s.layers.length) (same : Mirrors row layer) :
    Held.Stored ((id,row) :: hand) { s with layers := s.layers.set id layer } := by
  intro other found here
  rw [heldRow_cons] at here
  split at here
  next again =>
    subst again
    cases here
    exact ⟨layer,List.getElem?_set_self inside,same⟩
  next apart =>
    obtain ⟨before,there,mirrors⟩ := stored other found here
    exact ⟨before,(List.getElem?_set_ne apart).trans there,mirrors⟩

theorem Mirrors.stored {row : LayerRow} {layer : PurchaseLine} (written : layer.val = row.stored) {before : ℚ} (nonneg : 0 ≤ before)
    (received : row.receivedQty = before + line.qtyReceived) (positive : 0 < line.qtyReceived) (some_ : round4 line.qtyReceived ≠ 0) :
    Mirrors row layer := by
  have more : line.qtyReceived ≤ row.receivedQty := by linarith
  have filled : 0 < round4 row.receivedQty :=
    (lt_of_le_of_ne (Decimal.quantize_nonneg positive.le) (Ne.symm some_)).trans_le (Decimal.quantize_mono more)
  refine ⟨?_,by rw [written]; rfl,positive.le.trans more,?_⟩
  · rw [written]
    exact (Decimal.quantize_of_mem_grid (Decimal.quantize_mem_grid 4 _)).symm
  · rw [written]
    exact iff_of_false (positive.trans_le more).ne' filled.ne'

theorem ends_receiveNew_some : Ends (receiveNew data line) s fun _ t => Extends s t ∧ round4 line.qtyReceived ≠ 0 := by
  refine (ends_receiveNew_extends.and (ends_receiveIntoNewLayer_row _)).mono fun _ t received => ⟨received.1,?_⟩
  obtain ⟨layer,m,-,row,-⟩ := received.2
  have some_ := m.2.nonzero
  rwa [row] at some_

/-- Goods at its own cost go into the layer of the order line, which takes the age of the receipt when they are its first. -/
theorem Arrived.fill (arrived : Arrived s) (prompt : s.promptLine receivedAt (line :: lines) line = true) {id : Nat}
    (named : line.purchaseLineId = some id) {row : LayerRow} {layer stored : PurchaseLine} (here : s.layers[id]? = some layer)
    (mirrors : Mirrors row layer) (sameCost : round4 row.costPerUnit = round4 line.costPerUnit)
    (cost : round4 stored.val.costPerUnit = round4 row.costPerUnit)
    (age : stored.val.createdAt = if row.receivedQty = 0 then receivedAt else row.createdAt) {m : StockMovement}
    (purchase : m.val.movementType = .purchase) (into : m.val.purchaseLineId = some id) (at_ : m.val.movementAt = receivedAt) :
    Received s { s with layers := s.layers.set id stored, movements := s.movements ++ [m] } line receivedAt := by
  have inside := (List.getElem?_eq_some_iff.mp here).1
  have set : (s.layers.set id stored)[id]? = some stored := List.getElem?_set_self inside
  have others : ∀ other ≠ id, (s.layers.set id stored)[other]? = s.layers[other]? := fun other apart =>
    List.getElem?_set_ne (Ne.symm apart)
  have received : Store.receiptsInto { s with layers := s.layers.set id stored, movements := s.movements ++ [m] } id ≠ [] := by
    rw [receiptsInto_append rfl]
    simp [purchase,into]
  refine ⟨?_,fun other later found => ?_,fun other => receiptsInto_ne_nil rfl,?_⟩
  · refine arrived.receive purchase into List.length_set.ge (by rwa [List.length_set]) others fun found there => ?_
    rw [Option.some.inj (there.symm.trans set),age,at_]
    split
    · exact .inl rfl
    · next more =>
      rw [mirrors.age]
      obtain before | same | ⟨none,-⟩ := promptLine_iff.mp prompt id layer named here (mirrors.cost.symm.trans sameCost)
      · exact .inr (arrived.aged id layer here before)
      · exact .inl same
      · exact absurd (mirrors.untouched.mpr none) more
  · by_cases same : other = id
    · subst same
      rw [Option.some.inj (found.symm.trans set),age,cost]
      split
      · exact .inl rfl
      · exact .inr ⟨layer,here,mirrors.cost,mirrors.age,fun apart => absurd named apart⟩
    · exact .inr ⟨later,(others other same).symm.trans found,rfl,rfl,fun _ => rfl⟩
  · intro other found into_ _ _
    obtain rfl := Option.some.inj (named.symm.trans into_)
    exact received

/-- Goods at another cost leave the age and the cost of the order line's own layer. -/
theorem Received.beside {id : Nat} {layer stored : PurchaseLine} (received : Received { s with layers := s.layers.set id stored } t line receivedAt)
    (frame : Frame (· ≠ .purchase) s { s with layers := s.layers.set id stored }) (named : line.purchaseLineId = some id)
    (here : s.layers[id]? = some layer) (cost : round4 stored.val.costPerUnit = round4 layer.val.costPerUnit)
    (age : stored.val.createdAt = layer.val.createdAt) (apart : round4 layer.val.costPerUnit ≠ round4 line.costPerUnit) :
    Received s t line receivedAt := by
  have set : (s.layers.set id stored)[id]? = some stored := List.getElem?_set_self (List.getElem?_eq_some_iff.mp here).1
  refine ⟨received.arrived,fun other later found => ?_,fun other before => received.receipts other (by rwa [frame.receiptsInto]),?_⟩
  · obtain now | ⟨before,there,costs,ages,amounts⟩ := received.layers other later found
    · exact .inl now
    by_cases same : other = id
    · subst same
      obtain rfl := Option.some.inj (there.symm.trans set)
      exact .inr ⟨layer,here,costs.trans cost,ages.trans age,fun apart => absurd named apart⟩
    · rw [List.getElem?_set_ne (Ne.symm same)] at there
      exact .inr ⟨before,there,costs,ages,amounts⟩
  · intro other found into there sameCost
    obtain rfl := Option.some.inj (named.symm.trans into)
    rw [Option.some.inj (there.symm.trans here)] at sameCost
    exact absurd sameCost apart

/-- A prompt line tops up a layer that is as old as a receipt into it. -/
theorem received_line {hand : Held} (arrived : Arrived s) (prompt : s.promptLine data.receivedAt (line :: lines) line = true)
    (positive : 0 < line.qtyReceived) (atHand : hand.Stored s) :
    Ends (receiveLine data hand line) s fun hand t => Received s t line data.receivedAt ∧ hand.Stored t := by
  rw [receiveLine]
  split
  · next none =>
    have new : Ends (receiveNew data line) s fun _ t => Received s t line data.receivedAt :=
      received_new arrived fun id _ named => by rw [none] at named; cases named
    exact .bind ((new.and ends_receiveNew_extends).mono fun _ t received => ends_pure ⟨received.1,atHand.extended received.2⟩)
  next id named =>
    split
    · exact ends_fail _
    next row held =>
    obtain ⟨layer,here,mirrors⟩ := atHand id row held
    have inside := (List.getElem?_eq_some_iff.mp here).1
    dsimp only
    split
    · next sameCost =>
      refine .bind (ends_updateLayer_stored.mono fun _ t updated => ?_)
      obtain ⟨stored,written,rfl⟩ := updated
      refine .bind (ends_createStockMovement.mono fun _ u wrote => ends_pure ?_)
      obtain ⟨m,movement,rfl⟩ := wrote
      have some_ : round4 line.qtyReceived ≠ 0 := by
        have nonzero := m.2.nonzero
        rwa [movement] at nonzero
      have cost : round4 stored.val.costPerUnit = round4 row.costPerUnit := by
        rw [written]
        exact Decimal.quantize_of_mem_grid (Decimal.quantize_mem_grid 4 _)
      have age : stored.val.createdAt = if row.receivedQty = 0 then data.receivedAt else row.createdAt := by rw [written]; rfl
      have purchase : m.val.movementType = .purchase ∧ m.val.purchaseLineId = some id ∧ m.val.movementAt = data.receivedAt := by
        rw [movement]
        exact ⟨rfl,rfl,rfl⟩
      exact ⟨arrived.fill prompt named here mirrors sameCost cost age purchase.1 purchase.2.1 purchase.2.2,
        atHand.written inside (.stored written mirrors.nonneg rfl positive some_)⟩
    · next otherCost =>
      refine .bind fun _ t ran => ?_
      have frame : Frame (· ≠ .purchase) s t :=
        frame_updateLayer (fun found there => by rw [← Option.some.inj (here.symm.trans there)]; exact mirrors.age) _ t ran
      obtain ⟨stored,written,rfl⟩ := ends_updateLayer_stored _ t ran
      have cost : round4 stored.val.costPerUnit = round4 layer.val.costPerUnit := by
        rw [written]
        exact (Decimal.quantize_of_mem_grid (Decimal.quantize_mem_grid 4 _)).trans mirrors.cost
      have age : stored.val.createdAt = layer.val.createdAt := by
        rw [written]
        exact mirrors.age
      have set : (s.layers.set id stored)[id]? = some stored := List.getElem?_set_self inside
      have apart : round4 layer.val.costPerUnit ≠ round4 line.costPerUnit := fun same => otherCost (mirrors.cost.trans same)
      have elsewhere : ∀ other found, line.purchaseLineId = some other → (s.layers.set id stored)[other]? = some found →
          round4 found.val.costPerUnit ≠ round4 line.costPerUnit := by
        intro other found into there
        obtain rfl := Option.some.inj (named.symm.trans into)
        rw [← Option.some.inj (set.symm.trans there),cost]
        exact apart
      refine .bind (((received_new (arrived.frame frame) elsewhere).and ends_receiveNew_some).mono fun _ u given => ends_pure ?_)
      obtain ⟨received,extends_,some_⟩ := given
      exact ⟨received.beside frame named here cost age apart,
        (atHand.written inside (.stored written mirrors.nonneg rfl positive some_)).extended extends_⟩

theorem Received.prompt (received : Received s t line receivedAt)
    (all : ∀ other ∈ line :: lines, s.promptLine receivedAt (line :: lines) other = true) :
    ∀ other ∈ lines, t.promptLine receivedAt lines other = true := by
  intro other member
  apply promptLine_iff.mpr
  intro id later named found sameCost
  obtain now | ⟨layer,here,cost,age,amount⟩ := received.layers id later found
  · exact .inr (.inl now)
  obtain before | now | ⟨none,first⟩ := promptLine_iff.mp (all other (List.mem_cons_of_mem line member)) id layer named here (cost ▸ sameCost)
  · exact .inl (received.receipts id before)
  · exact .inr (.inl (age.trans now))
  · by_cases into : line.purchaseLineId = some id
    · exact .inl (received.filled id layer into here (first line (by simp [into])))
    · refine .inr (.inr ⟨(amount into).trans none,fun next named => ?_⟩)
      rw [cost]
      exact first next (by rw [List.find?_cons_of_neg (by simpa using into),named])

theorem arrived_createPurchaseReceipt (arrived : Arrived s) (prompt : ∀ line ∈ data.lines, s.promptLine data.receivedAt data.lines line = true) :
    Ends (createPurchaseReceipt data) s fun _ => Arrived := by
  refine .bind (ends_require fun valid => .bind ((ends_checkReceivedOrder _ _).mono fun _ t same => ?_))
  subst same
  refine .bind ((ends_lockOrderLines data).mono fun locked u given => ?_)
  obtain ⟨rfl,read⟩ := given
  refine .bind ((ends_checkReceiptLines locked [] data.lines).mono fun _ v same => ?_)
  subst same
  have positive : ∀ line ∈ data.lines, 0 < line.qtyReceived := by
    intro line member
    simp only [CreatePurchaseReceiptRequest.valid,Bool.and_eq_true,List.all_eq_true,decide_eq_true_eq] at valid
    exact (valid.2 line member).1
  have atHand : locked.Stored v := by
    intro id row here
    obtain ⟨layer,there,rfl⟩ := read id row here
    exact ⟨layer,there,rfl,rfl,layer.2.remaining.trans layer.2.received,Iff.rfl⟩
  refine .bind ((ends_foldlM (fun lines hand t => Arrived t ∧ (∀ line ∈ lines, t.promptLine data.receivedAt lines line = true) ∧
    (∀ line ∈ lines, 0 < line.qtyReceived) ∧ hand.Stored t) ?_ ⟨arrived,prompt,positive,atHand⟩).mono fun hand w received => ?_)
  · rintro line lines hand t ⟨arrived,prompt,positive,atHand⟩
    obtain ⟨some_,positive⟩ := List.forall_mem_cons.mp positive
    refine (received_line arrived (prompt line List.mem_cons_self) some_ atHand).mono fun _ u given => ?_
    exact ⟨given.1.arrived,given.1.prompt prompt,positive,given.2⟩
  · have updated (id : Nat) : Relates (Frame (· ≠ .purchase)) (updateOrderFromReceipt hand id) :=
      (relates_get _).bind fun lines => relates_ite (relates_pure _) (frame_put (fun _ => rfl) (fun _ => rfl) fun _ => rfl)
    split
    · exact ends_pure received.1
    · next id _ => exact (updated id w).mono fun _ x frame => received.1.frame frame

theorem arrived_serve {request : Request} (arrived : Arrived s) (allowed : prompt s request = true) (served : serve s request = some t) :
    Arrived t := by
  cases other : request.other with
  | true =>
    have frame := serve_relates (frame_program other) served
    exact arrived.frame (frame.mono fun kind kept => kept.1)
  | false =>
    cases request with
    | createPurchaseReceipt data =>
      obtain ⟨u,ran⟩ := serve_eq_some served
      exact arrived_createPurchaseReceipt arrived (List.all_eq_true.mp allowed) u t ran
    | createStockTransfer source dest lines now =>
      have frame := serve_relates (frame_createStockTransfer source dest lines now) served
      refine arrived.frame (frame.mono fun kind sent => ?_)
      rw [sent]
      decide
    | _ => cases other

/-- As long as no receipt is the first to put goods into an order line that others have received at other costs, layers
are taken in the order of their receipts. -/
theorem receipt_order (reached : Reachable Empty (OfNext (within prompt serve)) s) : ReceiptOrder s := by
  refine Arrived.receiptOrder (reached.invariant (fun _ => arrived_empty) fun s request t arrived taken => ?_)
  obtain ⟨allowed,served⟩ := within_eq_some.mp taken
  exact arrived_serve arrived allowed served

private def ordered (now : Int) : Request := .createPurchaseOrder 1 [⟨5,none,10,5⟩] now

private def orderReceipt (qty cost : ℚ) (receivedAt : Int) : Request := .createPurchaseReceipt ⟨1,some 0,[⟨5,none,some 0,qty,cost⟩],receivedAt⟩

/-- The layers of the position in their order, and the times of the receipts into each. -/
private def arrivals (s : Store) : List (Nat × List Int) := (s.fifoLayers ⟨1,5,none⟩).map fun entry => (entry.2,s.receiptsInto entry.2)

/-- The first receipt is at the ordered cost, the second is not. -/
theorem receipt_order_kept : ∃ s, Reachable Empty (OfNext (within prompt serve)) s ∧ arrivals s = [(0,[200]),(1,[300])] ∧ ReceiptOrder s := by
  obtain ⟨s,reached,listed⟩ := reachable_of_execute (within prompt serve) arrivals [ordered 100,orderReceipt 4 5 200,orderReceipt 6 7 300]
    empty_init (show _ = some [(0,[200]),(1,[300])] by decide +kernel)
  exact ⟨s,reached,listed,receipt_order reached⟩

/-- The first receipt is at another cost: what arrived at 300 is taken before what arrived at 200. -/
theorem receipt_order_lost : ∃ s, Reachable Empty (OfNext serve) s ∧ arrivals s = [(0,[300]),(1,[200])] ∧ ¬ ReceiptOrder s := by
  obtain ⟨s,reached,listed⟩ := reachable_of_execute serve arrivals [ordered 100,orderReceipt 4 7 200,orderReceipt 6 5 300]
    empty_init (show _ = some [(0,[300]),(1,[200])] by decide +kernel)
  refine ⟨s,reached,listed,fun kept => ?_⟩
  have entry (id : Nat) (at_ : List Int) (member : (id,at_) ∈ arrivals s) : ∃ layer, (layer,id) ∈ s.fifoLayers ⟨1,5,none⟩ ∧ s.receiptsInto id = at_ := by
    obtain ⟨⟨layer,_⟩,inside,same⟩ := List.mem_map.mp member
    obtain ⟨rfl,rfl⟩ := Prod.mk.inj same
    exact ⟨layer,inside,rfl⟩
  obtain ⟨late,inOrder,last⟩ := entry 0 [300] (by rw [listed]; decide)
  obtain ⟨early,apart,first⟩ := entry 1 [200] (by rw [listed]; decide)
  have before : s.ReceivedBefore 1 0 := by simp [Store.ReceivedBefore,first,last]
  have order : ([(early,1),(late,0)].map fun entry => (entry.2,s.receiptsInto entry.2)).Sublist (arrivals s) :=
    (kept _ (early,1) apart (late,0) inOrder before).1.map _
  simp only [listed,List.map_cons,List.map_nil,first,last] at order
  revert order
  decide

end Stock
