import SasBackend.SaleMovements
import SasBackend.Semantics.VoidedSales

/-! What the layers lose to a sale and get back from its void, whatever else they have gone through: a quantity is lost as its rows say
unless it is cut between two of its column, and what has room is filled in full.
-/
namespace Stock
open SasBackend Tally Program
open Oversell (Covers)
open Refunds (LineId SaleLineRequest)

variable {s t u : Store} {change more : Nat → ℚ} {fresh further : List Item} {id saleId : Nat} {layer stored : PurchaseLine} {qty : ℚ}
  {position : Position} {line : LineId} {rows : List StockMovement} {r : Restoration}

/-- What the layers hold, in their order. -/
def Store.items (s : Store) : List Item := s.layers.map (·.val.item)

theorem items_length (s : Store) : s.items.length = s.layers.length := List.length_map _

theorem remaining_items (s : Store) (id : Nat) : s.remaining id = s.items[id]?.elim 0 Item.qty := by
  rw [Store.remaining,Store.items,List.getElem?_map]
  cases s.layers[id]? <;> rfl

def Item.add (change : Nat → ℚ) (id : Nat) (item : Item) : Item := ⟨item.position,item.qty + change id⟩

/-- Each layer has changed by so much, and new ones have come. -/
structure Shifts (change : Nat → ℚ) (fresh : List Item) (s t : Store) : Prop where
  items : t.items = s.items.mapIdx (Item.add change) ++ fresh
  received : ∃ added, t.layers.map (·.val.receivedQty) = s.layers.map (·.val.receivedQty) ++ added

theorem add_zero_id (items : List Item) : items.mapIdx (Item.add fun _ => 0) = items := by
  apply List.ext_getElem?
  intro id
  rw [List.getElem?_mapIdx]
  cases items[id]? <;> simp [Item.add]

theorem Shifts.same (layers : t.layers = s.layers) : Shifts (fun _ => 0) [] s t :=
  ⟨by rw [add_zero_id,List.append_nil,Store.items,layers,Store.items],[],by rw [layers,List.append_nil]⟩

theorem Shifts.congr {other : Nat → ℚ} (shifts : Shifts change fresh s t) (same : ∀ id, other id = change id) : Shifts other fresh s t := by
  obtain rfl : other = change := funext same
  exact shifts

theorem Shifts.length (shifts : Shifts change fresh s t) : t.layers.length = s.layers.length + fresh.length := by
  have lengths := congrArg List.length shifts.items
  rwa [items_length,List.length_append,List.length_mapIdx,items_length] at lengths

/-- Changes of layers that were there already add up. -/
theorem Shifts.trans (first : Shifts change fresh s t) (second : Shifts more further t u)
    (known : ∀ id, s.layers.length ≤ id → more id = 0) : Shifts (fun id => change id + more id) (fresh ++ further) s u := by
  constructor
  · have later : fresh.mapIdx (fun i => Item.add more (i + (s.items.mapIdx (Item.add change)).length)) = fresh := by
      apply List.ext_getElem?
      intro i
      have none : more (i + (s.items.mapIdx (Item.add change)).length) = 0 := by
        apply known
        rw [List.length_mapIdx,items_length]
        exact Nat.le_add_left _ _
      have same (item : Item) : Item.add more (i + (s.items.mapIdx (Item.add change)).length) item = item :=
        congrArg (Item.mk item.position) (by rw [none,add_zero])
      rw [List.getElem?_mapIdx,funext same]
      exact Option.map_id'
    rw [second.items,first.items,List.mapIdx_append,List.mapIdx_mapIdx,later,List.append_assoc]
    congr 2
    funext i item
    exact congrArg (Item.mk item.position) (add_assoc _ _ _)
  · obtain ⟨one,first⟩ := first.received
    obtain ⟨two,second⟩ := second.received
    exact ⟨one ++ two,by rw [second,first,List.append_assoc]⟩

theorem Shifts.remaining (shifts : Shifts change fresh s t) (inside : id < s.layers.length) : t.remaining id = s.remaining id + change id := by
  have there : id < (s.items.mapIdx (Item.add change)).length := by rwa [List.length_mapIdx,items_length]
  rw [remaining_items,remaining_items,shifts.items,List.getElem?_append_left there,List.getElem?_mapIdx]
  rw [← items_length] at inside
  rw [List.getElem?_eq_getElem inside]
  rfl

theorem Shifts.beyond (shifts : Shifts change fresh s t) : (t.layers.drop s.layers.length).map (·.val.item) = fresh := by
  have length : (s.items.mapIdx (Item.add change)).length = s.layers.length := by rw [List.length_mapIdx,items_length]
  rw [List.map_drop]
  change t.items.drop _ = fresh
  rw [shifts.items,List.drop_left' length]

theorem remaining_beyond (beyond : s.layers.length ≤ id) : s.remaining id = 0 := by
  rw [Store.remaining,List.getElem?_eq_none beyond]
  rfl

theorem Shifts.found (shifts : Shifts change fresh s t) (inside : id < s.layers.length) (found : t.layers[id]? = some layer) :
    ∃ before, s.layers[id]? = some before ∧ layer.val.qtyRemaining = before.val.qtyRemaining + change id ∧
      layer.val.receivedQty = before.val.receivedQty := by
  refine ⟨s.layers[id],List.getElem?_eq_getElem inside,?_,?_⟩
  · have moved := shifts.remaining inside
    rwa [Store.remaining,found,Store.remaining,List.getElem?_eq_getElem inside] at moved
  · obtain ⟨added,received⟩ := shifts.received
    have same := congrArg (fun column : List ℚ => column[id]?) received
    rw [List.getElem?_append_left (by rwa [List.length_map]),List.getElem?_map,List.getElem?_map,found,List.getElem?_eq_getElem inside] at same
    exact Option.some.inj same

theorem shifts_set (found : s.layers[id]? = some layer) (placed : stored.val.position = layer.val.position)
    (received : stored.val.receivedQty = layer.val.receivedQty) :
    Shifts (fun other => if other = id then stored.val.qtyRemaining - layer.val.qtyRemaining else 0) []
      s { s with layers := s.layers.set id stored } := by
  constructor
  · rw [List.append_nil]
    apply List.ext_getElem?
    intro other
    rw [Store.items,List.map_set,List.getElem?_set,List.getElem?_mapIdx,Store.items,List.length_map,List.getElem?_map]
    by_cases same : id = other
    · subst same
      rw [if_pos rfl,if_pos (List.getElem?_eq_some_iff.mp found).1,found]
      simp [Item.add,LayerRow.item,placed]
    · rw [if_neg same]
      cases s.layers[other]? <;> simp [Item.add,Ne.symm same]
  · refine ⟨[],?_⟩
    rw [List.append_nil]
    apply List.ext_getElem?
    intro other
    rw [List.map_set,List.getElem?_set,List.length_map,List.getElem?_map]
    by_cases same : id = other
    · subst same
      rw [if_pos rfl,if_pos (List.getElem?_eq_some_iff.mp found).1,found,received]
      rfl
    · rw [if_neg same]

theorem held_set (found : s.layers[id]? = some layer) (placed : stored.val.position = layer.val.position) (position : Position) :
    Store.held { s with layers := s.layers.set id stored } position =
      s.held position + if layer.val.position = position then stored.val.qtyRemaining - layer.val.qtyRemaining else 0 := by
  have replaced : tally (fun layer : PurchaseLine => layer.val.position) (fun layer => layer.val.qtyRemaining) position (s.layers.set id stored) + _ =
      s.held position + _ := tally_set stored found
  rw [Store.held]
  dsimp only at replaced ⊢
  rw [placed] at replaced
  split_ifs at replaced ⊢ <;> linarith

theorem round4_rest (whole : ¬ Decimal.Tie 4 qty ∨ layer.val.qtyRemaining ≤ qty) (nonneg : 0 ≤ qty) :
    round4 (layer.val.qtyRemaining - min qty layer.val.qtyRemaining) = layer.val.qtyRemaining - round4 (min qty layer.val.qtyRemaining) := by
  rcases whole with untied | beyond
  · exact (round4_take untied layer.2.remainingScaled nonneg layer.2.remaining).1
  · have same : round4 layer.val.qtyRemaining = layer.val.qtyRemaining := Decimal.quantize_of_mem_grid layer.2.remainingScaled
    have zero : round4 0 = 0 := Decimal.quantize_of_mem_grid (zero_mem _)
    rw [min_eq_right beyond,sub_self,zero,same,sub_self]

def heldBy (layers : List (PurchaseLine × Nat)) : ℚ := (layers.map fun entry => entry.1.val.qtyRemaining).sum

theorem heldBy_cons (entry : PurchaseLine × Nat) (layers : List (PurchaseLine × Nat)) :
    heldBy (entry :: layers) = entry.1.val.qtyRemaining + heldBy layers := by
  rw [heldBy,List.map_cons,List.sum_cons,heldBy]

theorem heldBy_nonneg (layers : List (PurchaseLine × Nat)) : 0 ≤ heldBy layers := by
  refine List.sum_nonneg fun value member => ?_
  obtain ⟨entry,-,rfl⟩ := List.mem_map.mp member
  exact entry.1.2.remaining

/-- Layers as they are on record, each once, all of a position. -/
structure Listed (s : Store) (position : Position) (layers : List (PurchaseLine × Nat)) : Prop where
  found : ∀ entry ∈ layers, s.layers[entry.2]? = some entry.1
  placed : ∀ entry ∈ layers, entry.1.val.position = position
  distinct : (layers.map Prod.snd).Nodup

/-- The slices have been taken from layers of the position, and nothing else has changed. -/
structure Drains (position : Position) (slices : List FifoLayerConsumption) (s t : Store) : Prop where
  shifts : Shifts (fun id => -drawn slices id) [] s t
  known : ∀ id, s.layers.length ≤ id → drawn slices id = 0
  held : ∀ place, t.held place = s.held place - if place = position then (slices.map fun slice => round4 slice.qty).sum else 0

theorem drains_refl (position : Position) (s : Store) : Drains position [] s s where
  shifts := (Shifts.same rfl).congr fun id => by simp [drawn]
  known _ _ := rfl
  held place := by simp

theorem Listed.tail {entry : PurchaseLine × Nat} {rest : List (PurchaseLine × Nat)} (listed : Listed s position (entry :: rest)) :
    Listed { s with layers := s.layers.set entry.2 stored } position rest where
  found other member := by
    have apart : entry.2 ≠ other.2 := by
      intro same
      exact (List.nodup_cons.mp listed.distinct).1 (List.mem_map.mpr ⟨other,member,same.symm⟩)
    rw [List.getElem?_set_ne apart]
    exact listed.found other (List.mem_cons_of_mem _ member)
  placed other member := listed.placed other (List.mem_cons_of_mem _ member)
  distinct := (List.nodup_cons.mp listed.distinct).2

theorem Drains.cons {cost : ℚ} {slices : List FifoLayerConsumption} (found : s.layers[id]? = some layer) (placed : layer.val.position = position)
    (stays : stored.val.position = layer.val.position) (received : stored.val.receivedQty = layer.val.receivedQty)
    (left : stored.val.qtyRemaining = layer.val.qtyRemaining - round4 qty)
    (drains : Drains position slices { s with layers := s.layers.set id stored } t) : Drains position (⟨some id,qty,cost⟩ :: slices) s t := by
  have inside := (List.getElem?_eq_some_iff.mp found).1
  have length : (s.layers.set id stored).length = s.layers.length := List.length_set
  have known : ∀ other, s.layers.length ≤ other → drawn slices other = 0 := fun other beyond => drains.known other (length.trans_le beyond)
  refine ⟨?_,fun other beyond => ?_,fun place => ?_⟩
  · have first := shifts_set found stays received
    refine (first.trans drains.shifts fun other beyond => by rw [known other beyond,neg_zero]).congr fun other => ?_
    simp only [drawn_cons,left,Option.some.injEq,eq_comm (a := id)]
    split <;> ring
  · have apart : id ≠ other := (inside.trans_le beyond).ne
    rw [drawn_cons,if_neg (by simpa using apart),known other beyond,add_zero]
  · rw [drains.held,held_set found stays,placed,left,List.map_cons,List.sum_cons]
    simp only [eq_comm (a := position)]
    split <;> ring

theorem drains_takeFromLayers (layers : List (PurchaseLine × Nat)) : ∀ {s : Store} {qty : ℚ}, Listed s position layers → 0 ≤ qty →
    (¬ Decimal.Tie 4 qty ∨ heldBy layers < qty) → Ends (takeFromLayers layers qty) s fun r t => Drains position r.1 s t := by
  induction layers with
  | nil =>
    intro s qty _ _ _
    exact ends_pure (drains_refl position s)
  | cons entry rest induction =>
    intro s qty listed nonneg whole
    rw [heldBy_cons] at whole
    have others := heldBy_nonneg rest
    rw [takeFromLayers_cons]
    split
    · exact ends_pure (drains_refl position s)
    refine .bind (ends_updateLayer_stored.mono fun _ t updated => ?_)
    obtain ⟨stored,same,rfl⟩ := updated
    have less : 0 ≤ qty - min qty entry.1.val.qtyRemaining := sub_nonneg.mpr (min_le_left _ _)
    have enough : ¬ Decimal.Tie 4 qty ∨ entry.1.val.qtyRemaining ≤ qty := whole.imp_right fun beyond => by linarith
    have later : ¬ Decimal.Tie 4 (qty - min qty entry.1.val.qtyRemaining) ∨ heldBy rest < qty - min qty entry.1.val.qtyRemaining := by
      refine whole.imp (fun untied => (round4_take untied entry.1.2.remainingScaled nonneg entry.1.2.remaining).2.1) fun beyond => ?_
      rw [min_eq_right (by linarith)]
      linarith
    have received : round4 entry.1.val.receivedQty = entry.1.val.receivedQty := Decimal.quantize_of_mem_grid entry.1.2.receivedScaled
    refine .bind ((induction listed.tail less later).mono fun r u drains => ends_pure ?_)
    refine drains.cons (listed.found entry List.mem_cons_self) (listed.placed entry List.mem_cons_self) ?_ ?_ ?_
    · rw [same]
      rfl
    · rw [same]
      exact received
    · rw [same]
      exact round4_rest enough nonneg

theorem fifoLayers_listed (s : Store) (position : Position) : Listed s position (s.fifoLayers position) where
  found entry member := (fifoLayers_stocked s position entry member).1
  placed _ member := (mem_fifoLayers.mp member).2.1
  distinct := fifoLayers_distinct s position

theorem heldBy_fifoLayers (s : Store) (position : Position) : heldBy (s.fifoLayers position) = s.held position := by
  have filled (layers : List PurchaseLine) : ((layers.filter fun layer => layer.val.position = position && 0 < layer.val.qtyRemaining).map
      fun layer => layer.val.qtyRemaining).sum =
        tally (fun layer : PurchaseLine => layer.val.position) (fun layer => layer.val.qtyRemaining) position layers := by
    induction layers with
    | nil => rfl
    | cons layer rest induction =>
      rw [tally_cons,← induction,List.filter_cons]
      rcases layer.2.remaining.eq_or_lt with none | some_
      · simp [← none]
      · by_cases here : layer.val.position = position <;> simp [here,some_]
  have sorted := ((List.perm_insertionSort (fun a b : PurchaseLine × Nat => a.1.val.createdAt ≤ b.1.val.createdAt)
    (s.layers.zipIdx.filter fun entry => entry.1.val.position = position && 0 < entry.1.val.qtyRemaining)).map
      fun entry => entry.1.val.qtyRemaining).sum_eq
  rw [heldBy,Store.fifoLayers,Store.held,← filled]
  refine sorted.trans ?_
  conv_rhs => rw [← List.zipIdx_map_fst (i := 0) (l := s.layers),List.filter_map,List.map_map]
  rfl

theorem held_mem_grid (s : Store) (position : Position) : s.held position ∈ Decimal.grid 4 :=
  tally_mem fun layer _ => layer.2.remainingScaled

theorem held_nonneg (s : Store) (position : Position) : 0 ≤ s.held position := tally_nonneg fun layer _ => layer.2.remaining

theorem cover_short (layers : List (PurchaseLine × Nat)) : ∀ {qty : ℚ}, 0 ≤ qty → (cover layers qty).2 = max (qty - heldBy layers) 0 := by
  induction layers with
  | nil =>
    intro qty nonneg
    simp [cover,heldBy,nonneg]
  | cons entry rest induction =>
    intro qty nonneg
    have others := heldBy_nonneg rest
    have held := entry.1.2.remaining
    rw [cover,heldBy_cons]
    split
    · next none =>
      obtain rfl : qty = 0 := none.antisymm nonneg
      exact (max_eq_right (by linarith)).symm
    · dsimp only
      rw [induction (sub_nonneg.mpr (min_le_left _ _))]
      rcases le_total qty entry.1.val.qtyRemaining with within_ | beyond
      · rw [min_eq_left within_,max_eq_right (by linarith),max_eq_right (by linarith)]
      · rw [min_eq_right beyond,sub_sub]

theorem cover_taken (s : Store) (position : Position) (nonneg : 0 ≤ qty) :
    s.held position - ((cover (s.fifoLayers position) qty).1.map fun slice => round4 slice.qty).sum = max (s.held position - round4 qty) 0 := by
  have sum := cover_rounded (s.fifoLayers position) qty
  rw [cover_short _ nonneg,heldBy_fifoLayers] at sum
  have inside := held_mem_grid s position
  have held := held_nonneg s position
  have same : round4 (s.held position) = s.held position := Decimal.quantize_of_mem_grid inside
  have mono : Monotone round4 := fun _ _ le => Decimal.quantize_mono le
  rcases le_total qty (s.held position) with within_ | beyond
  · have zero : round4 0 = 0 := Decimal.quantize_of_mem_grid (zero_mem _)
    have bound := mono within_
    rw [max_eq_right (by linarith),zero] at sum
    rw [max_eq_left (by linarith)]
    linarith
  · have rest : round4 (qty - s.held position) + s.held position = round4 qty := Decimal.quantize_sub_add inside held beyond
    have bound := mono beyond
    rw [max_eq_left (by linarith)] at sum
    rw [max_eq_right (by linarith)]
    linarith

/-- What an allocation for an item has done to the layers. -/
structure Takes (item : Item) (slices : List FifoLayerConsumption) (s t : Store) : Prop where
  shifts : Shifts (fun id => -drawn slices id) [] s t
  known : ∀ id, s.layers.length ≤ id → drawn slices id = 0
  held : t.held = takeHeld s.held item

theorem Drains.takes {slices : List FifoLayerConsumption} (drains : Drains position slices s t)
    (taken : s.held position - (slices.map fun slice => round4 slice.qty).sum = max (s.held position - round4 qty) 0) :
    Takes ⟨position,qty⟩ slices s t := by
  refine ⟨drains.shifts,drains.known,funext fun place => ?_⟩
  rw [drains.held,takeHeld]
  by_cases here : place = position
  · subst here
    rw [if_pos rfl,if_pos rfl,taken]
  · rw [if_neg here,if_neg here,sub_zero]

theorem drains_consumeFifoLayers (nonneg : 0 ≤ qty) (whole : ¬ Decimal.Tie 4 qty ∨ s.held position < qty) :
    Ends (consumeFifoLayers position qty) s fun r t => Takes ⟨position,qty⟩ r.1 s t := by
  rw [consumeFifoLayers_eq]
  split
  · next none =>
    obtain rfl : qty = 0 := none.antisymm nonneg
    have zero : round4 0 = 0 := Decimal.quantize_of_mem_grid (zero_mem _)
    refine ends_pure ((drains_refl position s).takes ?_)
    rw [zero,sub_zero,max_eq_left (held_nonneg s position)]
    simp
  · refine .bind (ends_get ?_)
    rw [← heldBy_fifoLayers] at whole
    refine ((ends_takeFromLayers_cover _).and (drains_takeFromLayers _ (fifoLayers_listed s position) nonneg whole)).mono fun r t took => ?_
    obtain ⟨⟨rfl,-⟩,drains⟩ := took
    exact drains.takes (cover_taken s position nonneg)

theorem Takes.short {item : Item} {slices : List FifoLayerConsumption} (takes : Takes item slices s t) (short cost : ℚ) :
    Takes item (slices ++ [⟨none,short,cost⟩]) s t := by
  have same (id : Nat) : drawn (slices ++ [⟨none,short,cost⟩]) id = drawn slices id := by
    rw [drawn,tally_append,tally_singleton,if_neg (by simp),add_zero,drawn]
  exact ⟨takes.shifts.congr fun id => by rw [same],fun id beyond => (same id).trans (takes.known id beyond),takes.held⟩

theorem takes_allocateSaleLineFifo (nonneg : 0 ≤ qty) (whole : ¬ Decimal.Tie 4 qty ∨ s.held position < qty) :
    Ends (allocateSaleLineFifo position qty) s fun allocation t => Takes ⟨position,qty⟩ allocation.slices s t := by
  refine .bind ((drains_consumeFifoLayers nonneg whole).mono fun r t takes => ?_)
  obtain ⟨slices,short⟩ := r
  dsimp only
  split
  · refine .bind (ends_getFallbackCostPerUnit.mono fun fallback u same => ends_pure ?_)
    subst same
    exact takes.short short fallback
  · exact ends_pure takes

/-- What rows have moved of a layer. -/
def drawnBy (rows : List StockMovement) (id : Nat) : ℚ :=
  tally (fun m : StockMovement => m.val.purchaseLineId) (fun m => |m.val.qty|) (some id) rows

theorem drawnBy_append (rows others : List StockMovement) (id : Nat) : drawnBy (rows ++ others) id = drawnBy rows id + drawnBy others id :=
  tally_append rows others

/-- These rows say what the layers have lost. -/
structure Loses (rows : List StockMovement) (s t : Store) : Prop where
  shifts : Shifts (fun id => -drawnBy rows id) [] s t
  known : ∀ id, s.layers.length ≤ id → drawnBy rows id = 0

theorem loses_refl (layers : t.layers = s.layers) : Loses [] s t :=
  ⟨(Shifts.same layers).congr fun id => by simp [drawnBy],fun _ _ => rfl⟩

theorem Loses.trans {others : List StockMovement} (first : Loses rows s t) (second : Loses others t u) : Loses (rows ++ others) s u := by
  have length : t.layers.length = s.layers.length := first.shifts.length
  have known : ∀ id, s.layers.length ≤ id → drawnBy others id = 0 := fun id beyond => second.known id (length.trans_le beyond)
  refine ⟨(first.shifts.trans second.shifts fun id beyond => by rw [known id beyond,neg_zero]).congr fun id => ?_,fun id beyond => ?_⟩
  · rw [drawnBy_append]
    ring
  · rw [drawnBy_append,first.known id beyond,known id beyond,add_zero]

theorem ends_drawnRows {position : Position} {movementType : MovementType} {reference : Reference} {movementAt : Int}
    {slices : List FifoLayerConsumption} (positive : ∀ slice ∈ slices, 0 < slice.qty) :
    Ends (createSliceMovements position movementType reference movementAt slices) s fun _ t => ∃ rows,
      t = { s with movements := s.movements ++ rows } ∧ ∀ id, drawnBy rows id = drawn slices id := by
  refine (ends_rows _ _).mono fun _ t wrote => ?_
  obtain ⟨rows,each,rfl⟩ := wrote
  refine ⟨rows,rfl,fun id => ?_⟩
  have amount (slice : FifoLayerConsumption × Nat) (member : slice ∈ slices.zipIdx) :
      |(sliceMovement position movementType reference movementAt slice).stored.qty| = round4 slice.1.qty := by
    have stored : (sliceMovement position movementType reference movementAt slice).stored.qty = -round4 slice.1.qty := Decimal.quantize_neg
    have nonneg : 0 ≤ round4 slice.1.qty := Decimal.quantize_nonneg (positive slice.1 (List.fst_mem_of_mem_zipIdx member)).le
    rw [stored,abs_neg,abs_of_nonneg nonneg]
  calc drawnBy rows id
      = tally MovementRow.purchaseLineId (fun row => |row.qty|) (some id) (rows.map Subtype.val) := by rw [tally_map]; rfl
    _ = tally (fun slice : FifoLayerConsumption × Nat => slice.1.purchaseLineId) (fun slice => round4 slice.1.qty) (some id) slices.zipIdx := by
      rw [each,tally_map]
      exact tally_congr amount
    _ = drawn (slices.zipIdx.map Prod.fst) id := by rw [drawn,tally_map]; rfl
    _ = drawn slices id := by rw [List.zipIdx_map_fst]

theorem exactly_cons {held : Position → ℚ} {item : Item} {rest : List Item} (exact_ : exactly held (item :: rest) = true) :
    (¬ Decimal.Tie 4 item.qty ∨ held item.position < item.qty) ∧ exactly (takeHeld held item) rest = true := by
  rw [exactly,Bool.and_eq_true,Bool.or_eq_true,Bool.not_eq_true',decide_eq_false_iff_not,decide_eq_true_eq] at exact_
  exact exact_

theorem shifts_allocations (items : List Item) : ∀ {s : Store}, (∀ item ∈ items, 0 ≤ item.qty) → exactly s.held items = true →
    Ends (items.mapM fun item => allocateSaleLineFifo item.position item.qty) s fun allocations t =>
      Shifts (fun id => -drawnAll allocations id) [] s t ∧ ∀ id, s.layers.length ≤ id → drawnAll allocations id = 0 := by
  induction items with
  | nil =>
    intro s _ _
    rw [List.mapM_nil]
    exact ends_pure ⟨(Shifts.same rfl).congr fun id => by simp [drawnAll],fun _ _ => rfl⟩
  | cons item items induction =>
    intro s asked exact_
    obtain ⟨nonneg,asked⟩ := List.forall_mem_cons.mp asked
    obtain ⟨whole,exact_⟩ := exactly_cons exact_
    rw [List.mapM_cons]
    refine .bind ((takes_allocateSaleLineFifo nonneg whole).mono fun allocation t takes => .bind ?_)
    rw [← takes.held] at exact_
    refine (induction asked exact_).mono fun allocations u rest => ends_pure ?_
    obtain ⟨shifts,known⟩ := rest
    have length : t.layers.length = s.layers.length := takes.shifts.length
    have later : ∀ id, s.layers.length ≤ id → drawnAll allocations id = 0 := fun id beyond => known id (length.trans_le beyond)
    refine ⟨(takes.shifts.trans shifts fun id beyond => by rw [later id beyond,neg_zero]).congr fun id => ?_,fun id beyond => ?_⟩
    · rw [drawnAll_cons]
      ring
    · rw [drawnAll_cons,takes.known id beyond,later id beyond,add_zero]

theorem ends_drawnSales (saleId : Nat) (soldAt : Int) (entries : List ((Item × Allocation) × Nat)) : ∀ {s : Store},
    (∀ entry ∈ entries, ∀ slice ∈ entry.1.2.slices, 0 < slice.qty) →
    Ends (forM entries fun entry => createSaleLineStockMovements entry.1.1.position ⟨saleId,entry.2⟩ entry.1.2.slices soldAt) s
      fun _ t => ∃ rows, t = { s with movements := s.movements ++ rows } ∧ ∀ id, drawnBy rows id = drawnAll (entries.map (·.1.2)) id := by
  induction entries with
  | nil =>
    intro s _
    exact ends_pure ⟨[],by simp,fun _ => rfl⟩
  | cons entry entries induction =>
    intro s positive
    obtain ⟨here,positive⟩ := List.forall_mem_cons.mp positive
    rw [List.forM_cons]
    refine .bind ((ends_drawnRows here).mono fun _ t wrote => ?_)
    obtain ⟨rows,rfl,drawn⟩ := wrote
    refine (induction positive).mono fun _ u more => ?_
    obtain ⟨rest,rfl,others⟩ := more
    refine ⟨rows ++ rest,by simp,fun id => ?_⟩
    rw [drawnBy_append,drawn,others,List.map_cons,drawnAll_cons]

/-- The rows of a new sale say what the layers lose to it. -/
theorem loses_createSale (data : CreateSale) (exact_ : exactly s.held (data.bill.lines.map (lineItem data.bill.branchId)) = true) :
    Ends (createSale data) s fun _ t => ∃ rows, t.movements = s.movements ++ rows ∧ Loses rows s t := by
  refine .bind (ends_get (.bind (ends_ofExcept fun sale billed => .bind ((ends_locks _).mono fun _ t same => ?_))))
  subst same
  have asked : ∀ item ∈ data.bill.lines.map (lineItem data.bill.branchId), 0 ≤ item.qty :=
    List.forall_mem_map.mpr fun line inside => ((billed_sale billed).1 line inside).le
  apply ends_unless
  refine .bind (((ends_allocateAll _ asked).and (shifts_allocations _ asked exact_)).mono fun allocations u given => ?_)
  obtain ⟨⟨moved,covers⟩,shifts,known⟩ := given
  refine .bind (ends_ofExcept fun lines stored => .bind (ends_get (.bind (ends_put ?_))))
  generalize data.bill.lines.map (lineItem data.bill.branchId) = items at *
  have positive : ∀ entry ∈ (items.zip allocations).zipIdx, ∀ slice ∈ entry.1.2.slices, 0 < slice.qty := fun entry member =>
    ((List.forall₂_iff_zip.mp covers).2 (List.fst_mem_of_mem_zipIdx member)).1
  have all : (items.zip allocations).zipIdx.map (·.1.2) = allocations := by
    have second : (items.zip allocations).map Prod.snd = allocations := List.map_snd_zip covers.length_eq.ge
    rw [← Function.comp_def Prod.snd Prod.fst,← List.map_map,List.zipIdx_map_fst,second]
  refine (ends_drawnSales u.sales.length data.soldAt _ positive).mono fun _ v wrote => ?_
  obtain ⟨rows,rfl,drawn⟩ := wrote
  rw [all] at drawn
  have movements := moved.parts.1
  rw [List.append_nil] at movements
  refine ⟨rows,by rw [← movements],?_,fun id beyond => (drawn id).trans (known id beyond)⟩
  refine Shifts.congr ⟨shifts.items,shifts.received⟩ fun id => by rw [drawn]

theorem loses_tabRows (saleId : Nat) (soldAt : Int) (entries : List (Item × Nat)) : ∀ {s : Store},
    (∀ entry ∈ entries, 0 ≤ entry.1.qty ∧ ¬ Decimal.Tie 4 entry.1.qty) →
    Ends (forM entries fun entry => do
      let allocation ← allocateSaleLineFifo entry.1.position entry.1.qty
      put (setLineCost ⟨saleId,entry.2⟩ allocation.costPerUnit)
      createSaleLineStockMovements entry.1.position ⟨saleId,entry.2⟩ allocation.slices soldAt) s
      fun _ t => ∃ rows, t.movements = s.movements ++ rows ∧ Loses rows s t := by
  induction entries with
  | nil => exact fun _ => ends_pure ⟨[],by simp,loses_refl rfl⟩
  | cons entry entries induction =>
    intro s asked
    obtain ⟨⟨nonneg,untied⟩,asked⟩ := List.forall_mem_cons.mp asked
    rw [List.forM_cons]
    refine .bind (.bind (((ends_allocateCovers nonneg).and (takes_allocateSaleLineFifo nonneg (.inl untied))).mono
      fun allocation t took => .bind (ends_put ?_)))
    obtain ⟨⟨moved,covers⟩,takes⟩ := took
    refine (ends_drawnRows covers.1).mono fun _ u wrote => ?_
    obtain ⟨rows,rfl,drawn⟩ := wrote
    have movements := moved.parts.1
    rw [List.append_nil] at movements
    have first : Loses rows s { setLineCost ⟨saleId,entry.2⟩ allocation.costPerUnit t with movements := t.movements ++ rows } :=
      ⟨Shifts.congr ⟨takes.shifts.items,takes.shifts.received⟩ fun id => by rw [drawn],fun id beyond => (drawn id).trans (takes.known id beyond)⟩
    refine (induction asked).mono fun _ v more => ?_
    obtain ⟨rest,wrote,others⟩ := more
    refine ⟨rows ++ rest,?_,first.trans others⟩
    rw [wrote,← List.append_assoc,← movements]
    rfl

theorem loses_completeTab (saleId : Nat) (payments : List Pricing.Payment) (soldAt : Int) :
    Ends (completeTab saleId payments soldAt) s fun _ t => ∃ rows, t.movements = s.movements ++ rows ∧ Loses rows s t := by
  refine .bind (ends_get (.bind ((ends_mutableTab saleId).mono fun sale t tab => ?_)))
  obtain ⟨rfl,-⟩ := tab
  refine .bind (ends_require fun _ => .bind (ends_ofExcept fun settlement _ => .bind (ends_require fun _ => ?_)))
  refine .bind ((ends_locks _).mono fun _ u same => ?_)
  subst same
  apply ends_unless
  refine .bind ((loses_tabRows saleId soldAt sale.entries sale.entries_whole).mono fun _ v wrote => ends_put ?_)
  obtain ⟨rows,movements,loses⟩ := wrote
  exact ⟨rows,movements,⟨loses.shifts.items,loses.shifts.received⟩,loses.known⟩

end Stock
