import SasBackend.FifoCost
import SasBackend.Library.Slots
import SasBackend.Oversell
import SasBackend.Semantics.LayerConservation

/-! The cost layers and the movements while a request works: `due` is what it has moved into a layer and not written as a movement
yet, `spare` is how far it has raised the received quantity of a layer it still has to fill. A layer has room for all that sale
lines have taken from it and not got back (`owed`), which is why putting back never reaches its received quantity.
-/
namespace Stock
open SasBackend Tally Program Transition
open Refunds (LineId SaleLineRequest ReturnLineRequest CreateSaleReturnRequest)

variable {s t : Store} {due spare : Nat → ℚ} {id : Nat} {layer : PurchaseLine} {qty : ℚ} {position : Position} {line : LineId}

/-- What the line has taken from a layer and not got back. -/
def Store.owed (s : Store) (line : LineId) (layer : Nat) : ℚ := max (s.takenFrom line layer - s.givenBack line layer) 0

structure Kept (s : Store) (due spare : Nat → ℚ) : Prop where
  known : ∀ m ∈ s.movements, ∀ id, m.val.purchaseLineId = some id → id < s.layers.length
  reported : ∀ m ∈ s.movements, ∀ saleReturn index, m.val.reference = .saleReturnLine saleReturn index → saleReturn < s.returns.length
  gave : ∀ m ∈ s.movements, m.val.movementType = .saleReturn → 0 ≤ m.val.qty
  returned : ∀ line id, 0 < s.takenFrom line id → s.givenBack line id ≤ s.takenFrom line id
  fresh : ∀ id, s.layers.length ≤ id → due id = 0 ∧ spare id ≤ 0
  balanced : ∀ (id : Nat) layer, s.layers[id]? = some layer → layer.val.qtyRemaining = s.layerSum id + due id
  room : ∀ (id : Nat) layer, s.layers[id]? = some layer → ∀ lines : Finset LineId,
    s.layerSum id + ∑ line ∈ lines, s.owed line id + spare id ≤ layer.val.receivedQty

def Store.record (s : Store) (m : StockMovement) : Store := { s with movements := s.movements ++ [m] }

theorem tally_filter_snoc (selected : StockMovement → Bool) (weight : StockMovement → ℚ) (rows : List StockMovement)
    (m : StockMovement) (id : Nat) :
    tally (fun m : StockMovement => m.val.purchaseLineId) weight (some id) ((rows ++ [m]).filter selected) =
      tally (fun m : StockMovement => m.val.purchaseLineId) weight (some id) (rows.filter selected) +
        if selected m ∧ m.val.purchaseLineId = some id then weight m else 0 := by
  rw [List.filter_append,tally_append]
  by_cases chosen : selected m
  · simp [chosen,tally_singleton]
  · simp [chosen]

theorem layerSum_movement (s : Store) (m : StockMovement) (id : Nat) :
    (s.record m).layerSum id =
      s.layerSum id + if m.val.purchaseLineId = some id then m.val.qty else 0 := by
  rw [Store.layerSum,Store.record,tally_append,tally_singleton,Store.layerSum]

theorem takenFrom_movement (s : Store) (m : StockMovement) (line : LineId) (id : Nat) :
    (s.record m).takenFrom line id = s.takenFrom line id +
      if (m.val.movementType = .sale ∧ m.val.reference = .saleLine line) ∧ m.val.purchaseLineId = some id then |m.val.qty| else 0 := by
  rw [Store.takenFrom,Store.saleMovements,Store.record,tally_filter_snoc]
  simp only [Bool.and_eq_true,decide_eq_true_eq]
  rfl

theorem givenBack_movement (s : Store) (m : StockMovement) (line : LineId) (id : Nat) :
    (s.record m).givenBack line id = s.givenBack line id +
      if s.givesBack line m ∧ m.val.purchaseLineId = some id then m.val.qty else 0 :=
  tally_filter_snoc (s.givesBack line) (fun m => m.val.qty) s.movements m id

theorem takenFrom_nonneg (s : Store) (line : LineId) (id : Nat) : 0 ≤ s.takenFrom line id :=
  tally_nonneg fun _ _ => abs_nonneg _

theorem owed_nonneg (s : Store) (line : LineId) (id : Nat) : 0 ≤ s.owed line id := le_max_right _ _

theorem Kept.unknown (kept : Kept s due spare) (beyond : s.layers.length ≤ id) :
    s.layerSum id = 0 ∧ ∀ line, s.takenFrom line id = 0 ∧ s.givenBack line id = 0 := by
  have apart : ∀ m ∈ s.movements, m.val.purchaseLineId ≠ some id := fun m member named =>
    absurd (kept.known m member id named) (Nat.not_lt.mpr beyond)
  refine ⟨tally_eq_zero apart,fun line => ⟨?_,?_⟩⟩
  · exact tally_eq_zero fun m member => apart m (List.mem_of_mem_filter member)
  · exact tally_eq_zero fun m member => apart m (List.mem_of_mem_filter member)

theorem Kept.unowed (kept : Kept s due spare) (beyond : s.layers.length ≤ id) (line : LineId) : s.owed line id = 0 := by
  obtain ⟨-,none⟩ := kept.unknown beyond
  rw [Store.owed,(none line).1,(none line).2,sub_self,max_self]

theorem givesBack_saleReturn {m : StockMovement} (gives : s.givesBack line m = true) : m.val.movementType = .saleReturn := by
  simp only [Store.givesBack,Bool.and_eq_true,decide_eq_true_eq] at gives
  exact gives.1

theorem Kept.congr (kept : Kept s due spare) {owing more : Nat → ℚ} (first : ∀ id, owing id = due id) (second : ∀ id, more id = spare id) :
    Kept s owing more := by
  obtain rfl : owing = due := funext first
  obtain rfl : more = spare := funext second
  exact kept

theorem Kept.weaken (kept : Kept s due spare) (less : Nat → ℚ) (below : ∀ id, less id ≤ spare id) : Kept s due less where
  known := kept.known
  reported := kept.reported
  gave := kept.gave
  returned := kept.returned
  fresh id beyond := ⟨(kept.fresh id beyond).1,(below id).trans (kept.fresh id beyond).2⟩
  balanced := kept.balanced
  room id layer found lines := by linarith [kept.room id layer found lines,below id]

/-- The function with more at one layer. -/
def bump (f : Nat → ℚ) (id : Nat) (amount : ℚ) (other : Nat) : ℚ := f other + if other = id then amount else 0

theorem Kept.setLayer {stored : PurchaseLine} (kept : Kept s due spare) (found : s.layers[id]? = some layer) (moved received : ℚ)
    (left : stored.val.qtyRemaining = layer.val.qtyRemaining + moved)
    (into : stored.val.receivedQty = layer.val.receivedQty + received) :
    Kept { s with layers := s.layers.set id stored } (bump due id moved) (bump spare id received) where
  known m member other named := by
    rw [List.length_set]
    exact kept.known m member other named
  reported := kept.reported
  gave := kept.gave
  returned := kept.returned
  fresh other beyond := by
    rw [List.length_set] at beyond
    have inside := (List.getElem?_eq_some_iff.mp found).1
    have apart : other ≠ id := by omega
    simpa [bump,apart] using kept.fresh other beyond
  balanced other row there := by
    rcases Slots.set_cases there with ⟨rfl,rfl⟩ | ⟨apart,old⟩
    · have before := kept.balanced other layer found
      change row.val.qtyRemaining = s.layerSum other + _
      rw [bump,if_pos rfl,left,before]
      ring
    · change row.val.qtyRemaining = s.layerSum other + _
      rw [bump,if_neg apart,add_zero]
      exact kept.balanced other row old
  room other row there lines := by
    rcases Slots.set_cases there with ⟨rfl,rfl⟩ | ⟨apart,old⟩
    · have before := kept.room other layer found lines
      change s.layerSum other + ∑ line ∈ lines, s.owed line other + _ ≤ _
      rw [bump,if_pos rfl,into]
      linarith
    · change s.layerSum other + ∑ line ∈ lines, s.owed line other + _ ≤ _
      rw [bump,if_neg apart,add_zero]
      exact kept.room other row old lines

theorem Kept.addLayer {new : PurchaseLine} (kept : Kept s due spare) (full : new.val.qtyRemaining = new.val.receivedQty) :
    Kept { s with layers := s.layers ++ [new] } (bump due s.layers.length new.val.receivedQty)
      (bump spare s.layers.length new.val.receivedQty) where
  known m member other named := by
    rw [List.length_append]
    exact Nat.lt_add_right _ (kept.known m member other named)
  reported := kept.reported
  gave := kept.gave
  returned := kept.returned
  fresh other beyond := by
    rw [List.length_append,List.length_singleton] at beyond
    have apart : other ≠ s.layers.length := by omega
    simpa [bump,apart] using kept.fresh other (by omega)
  balanced other row there := by
    rcases Slots.append_cases there with ⟨rfl,rfl⟩ | ⟨apart,old⟩
    · have none := (kept.unknown (Nat.le_refl _)).1
      have nothing := (kept.fresh _ (Nat.le_refl _)).1
      change row.val.qtyRemaining = s.layerSum s.layers.length + _
      rw [bump,if_pos rfl,none,nothing,full]
      ring
    · change row.val.qtyRemaining = s.layerSum other + _
      rw [bump,if_neg apart,add_zero]
      exact kept.balanced other row old
  room other row there lines := by
    rcases Slots.append_cases there with ⟨rfl,rfl⟩ | ⟨apart,old⟩
    · have none := (kept.unknown (Nat.le_refl _)).1
      have nothing := (kept.fresh _ (Nat.le_refl _)).2
      have unowed : ∑ line ∈ lines, s.owed line s.layers.length = 0 := Finset.sum_eq_zero fun line _ => kept.unowed (Nat.le_refl _) line
      change s.layerSum s.layers.length + ∑ line ∈ lines, s.owed line s.layers.length + _ ≤ _
      rw [bump,if_pos rfl,none,unowed]
      linarith
    · change s.layerSum other + ∑ line ∈ lines, s.owed line other + _ ≤ _
      rw [bump,if_neg apart,add_zero]
      exact kept.room other row old lines

/-- A new row keeps the layers if what it adds to a layer had been left room for. -/
theorem Kept.record {m : StockMovement} {less : Nat → ℚ} (kept : Kept s due spare)
    (known : ∀ id, m.val.purchaseLineId = some id → id < s.layers.length)
    (reported : ∀ saleReturn index, m.val.reference = .saleReturnLine saleReturn index → saleReturn < s.returns.length)
    (gave : m.val.movementType = .saleReturn → 0 ≤ m.val.qty)
    (returned : ∀ line id, 0 < (s.record m).takenFrom line id → (s.record m).givenBack line id ≤ (s.record m).takenFrom line id)
    (fewer : ∀ id, less id ≤ spare id)
    (room : ∀ id (lines : Finset LineId), ∃ more : Finset LineId, (s.record m).layerSum id + ∑ line ∈ lines, (s.record m).owed line id + less id ≤
      s.layerSum id + ∑ line ∈ more, s.owed line id + spare id) :
    Kept (s.record m) (fun id => due id - if m.val.purchaseLineId = some id then m.val.qty else 0) less where
  known := List.forall_mem_append.mpr ⟨kept.known,List.forall_mem_singleton.mpr known⟩
  reported := List.forall_mem_append.mpr ⟨kept.reported,List.forall_mem_singleton.mpr reported⟩
  gave := List.forall_mem_append.mpr ⟨kept.gave,List.forall_mem_singleton.mpr gave⟩
  returned := returned
  fresh other beyond := by
    have apart : m.val.purchaseLineId ≠ some other := fun named => absurd (known other named) (Nat.not_lt.mpr beyond)
    obtain ⟨nothing,none⟩ := kept.fresh other beyond
    rw [if_neg apart,sub_zero]
    exact ⟨nothing,(fewer other).trans none⟩
  balanced other row there := by
    rw [layerSum_movement,kept.balanced other row there]
    ring
  room other row there lines := by
    obtain ⟨more,enough⟩ := room other lines
    exact enough.trans (kept.room other row there more)

theorem untouched_givenBack (untouched : s.untouched line) (id : Nat) : s.givenBack line id = 0 := by
  have none : s.movements.filter (s.givesBack line) = [] := by
    rw [List.filter_eq_nil_iff]
    simpa [Store.untouched] using untouched
  rw [Store.givenBack,none,tally_nil]

theorem recorded_givenBack_le {m : StockMovement} (gave : m.val.movementType = .saleReturn → 0 ≤ m.val.qty) (line : LineId) (id : Nat) :
    s.givenBack line id ≤ (s.record m).givenBack line id := by
  rw [givenBack_movement]
  split
  · next given => exact le_add_of_nonneg_right (gave (givesBack_saleReturn given.1))
  · exact (add_zero _).ge

theorem recorded_takenFrom {m : StockMovement} (typed : m.val.movementType ≠ .sale) (line : LineId) (id : Nat) :
    (s.record m).takenFrom line id = s.takenFrom line id := by
  rw [takenFrom_movement,if_neg fun counted => typed counted.1.1,add_zero]

/-- What a line is owed of a layer grows by no more than what is taken from it. -/
theorem recorded_owed {m : StockMovement} (takes : m.val.qty ≤ 0) (typed : m.val.movementType ≠ .saleReturn) (id : Nat)
    (lines : Finset LineId) : (s.record m).layerSum id + ∑ line ∈ lines, (s.record m).owed line id ≤
      s.layerSum id + ∑ line ∈ lines, s.owed line id := by
  have same (line : LineId) : (s.record m).givenBack line id = s.givenBack line id := by
    rw [givenBack_movement,if_neg fun given => typed (givesBack_saleReturn given.1),add_zero]
  rw [layerSum_movement]
  split
  · next here =>
    let mine (line : LineId) : ℚ := if m.val.movementType = .sale ∧ m.val.reference = .saleLine line then -m.val.qty else 0
    have each (line : LineId) : (s.record m).owed line id ≤ s.owed line id + mine line := by
      have more : (s.record m).takenFrom line id = s.takenFrom line id + mine line := by
        rw [takenFrom_movement,abs_of_nonpos takes]
        simp only [here,and_true,mine]
      have nonneg : 0 ≤ mine line := by
        simp only [mine]
        split <;> linarith
      rw [Store.owed,Store.owed,same,more,add_sub_right_comm]
      exact max_le (add_le_add_left (le_max_left _ _) _) (add_nonneg (le_max_right _ _) nonneg)
    have once : ∑ line ∈ lines, mine line ≤ -m.val.qty := by
      by_cases sold : ∃ of_, m.val.movementType = .sale ∧ m.val.reference = .saleLine of_
      · obtain ⟨of_,sale,named⟩ := sold
        simp only [mine,sale,named,true_and,Reference.saleLine.injEq,Finset.sum_ite_eq]
        split <;> linarith
      · have none (line : LineId) : mine line = 0 := if_neg fun mentions => sold ⟨line,mentions⟩
        simp only [none,Finset.sum_const_zero]
        linarith
    have all := Finset.sum_le_sum fun line (_ : line ∈ lines) => each line
    rw [Finset.sum_add_distrib] at all
    linarith
  · next elsewhere =>
    have each (line : LineId) : (s.record m).owed line id = s.owed line id := by
      rw [Store.owed,Store.owed,same,takenFrom_movement,if_neg fun counted => elsewhere counted.2,add_zero]
    simp only [each,add_zero,le_refl]

theorem Kept.recordTaken {m : StockMovement} (kept : Kept s due spare)
    (known : ∀ id, m.val.purchaseLineId = some id → id < s.layers.length)
    (reported : ∀ saleReturn index, m.val.reference = .saleReturnLine saleReturn index → saleReturn < s.returns.length)
    (takes : m.val.qty ≤ 0) (typed : m.val.movementType ≠ .saleReturn)
    (untouched : m.val.movementType = .sale → ∀ line, m.val.reference = .saleLine line → s.untouched line) :
    Kept (s.record m) (fun id => due id - if m.val.purchaseLineId = some id then m.val.qty else 0) spare := by
  refine kept.record known reported (fun given => absurd given typed) (fun line id some_ => ?_) (fun _ => le_rfl) fun id lines => ⟨lines,?_⟩
  · rw [givenBack_movement,if_neg fun given => typed (givesBack_saleReturn given.1),add_zero]
    rw [takenFrom_movement] at some_ ⊢
    split at some_
    · next counted =>
      rw [if_pos counted,untouched_givenBack (untouched counted.1.1 line counted.1.2)]
      exact some_.le
    · next other => 
      rw [if_neg other,add_zero]
      exact kept.returned line id (by rwa [add_zero] at some_)
  · exact add_le_add_left (recorded_owed takes typed id lines) _

/-- A row that brings in what a layer has been raised by; what it gives back, it gives into a layer the line took nothing from. -/
theorem Kept.recordReceived {m : StockMovement} (kept : Kept s due spare)
    (known : ∀ id, m.val.purchaseLineId = some id → id < s.layers.length)
    (reported : ∀ saleReturn index, m.val.reference = .saleReturnLine saleReturn index → saleReturn < s.returns.length)
    (brings : 0 ≤ m.val.qty) (typed : m.val.movementType ≠ .sale)
    (apart : ∀ id, m.val.purchaseLineId = some id → ∀ line, s.givesBack line m → s.takenFrom line id = 0) :
    Kept (s.record m) (fun id => due id - if m.val.purchaseLineId = some id then m.val.qty else 0)
      (fun id => spare id - if m.val.purchaseLineId = some id then m.val.qty else 0) := by
  refine kept.record known reported (fun _ => brings) (fun line id some_ => ?_) (fun id => ?_) fun id lines => ⟨lines,?_⟩
  · rw [recorded_takenFrom typed] at some_ ⊢
    rw [givenBack_movement,if_neg,add_zero]
    · exact kept.returned line id some_
    · rintro ⟨gives,here⟩
      exact some_.ne' (apart id here line gives)
  · refine sub_le_self _ ?_
    split
    · exact brings
    · exact le_rfl
  · have each : ∑ line ∈ lines, (s.record m).owed line id ≤ ∑ line ∈ lines, s.owed line id := by
      refine Finset.sum_le_sum fun line _ => ?_
      rw [Store.owed,Store.owed,recorded_takenFrom typed]
      exact max_le_max (sub_le_sub_left (recorded_givenBack_le (fun _ => brings) line id) _) le_rfl
    rw [layerSum_movement]
    linarith

/-- A row that gives back to a layer some of what the line took from it. -/
theorem Kept.recordRestored {m : StockMovement} (kept : Kept s due spare)
    (known : ∀ id, m.val.purchaseLineId = some id → id < s.layers.length)
    (reported : ∀ saleReturn index, m.val.reference = .saleReturnLine saleReturn index → saleReturn < s.returns.length)
    (brings : 0 ≤ m.val.qty) (typed : m.val.movementType ≠ .sale) (gives : ∀ other, s.givesBack other m ↔ other = line)
    (within_ : ∀ id, m.val.purchaseLineId = some id → s.givenBack line id + m.val.qty ≤ s.takenFrom line id) :
    Kept (s.record m) (fun id => due id - if m.val.purchaseLineId = some id then m.val.qty else 0) spare := by
  refine kept.record known reported (fun _ => brings) (fun other id some_ => ?_) (fun _ => le_rfl) fun id lines => ⟨insert line lines,?_⟩
  · rw [recorded_takenFrom typed] at some_ ⊢
    rw [givenBack_movement]
    split
    · next given =>
      obtain rfl := (gives other).mp given.1
      exact within_ id given.2
    · rw [add_zero]
      exact kept.returned other id some_
  · have fewer (other : LineId) : (s.record m).owed other id ≤ s.owed other id := by
      rw [Store.owed,Store.owed,recorded_takenFrom typed]
      exact max_le_max (sub_le_sub_left (recorded_givenBack_le (fun _ => brings) other id) _) le_rfl
    have less : (if m.val.purchaseLineId = some id then m.val.qty else 0) + (s.record m).owed line id ≤ s.owed line id := by
      rw [Store.owed,Store.owed,recorded_takenFrom typed,givenBack_movement]
      split
      · next here =>
        have enough := within_ id here
        rw [if_pos ⟨(gives line).mpr rfl,here⟩,max_eq_left (by linarith),max_eq_left (by linarith)]
        linarith
      · next elsewhere =>
        rw [if_neg fun given => elsewhere given.2,add_zero,zero_add]
    rw [layerSum_movement]
    by_cases inside : line ∈ lines
    · rw [Finset.insert_eq_of_mem inside,← Finset.add_sum_erase _ _ inside,← Finset.add_sum_erase _ _ inside]
      have rest := Finset.sum_le_sum fun other (_ : other ∈ lines.erase line) => fewer other
      linarith
    · rw [Finset.sum_insert inside]
      have rest := Finset.sum_le_sum fun other (_ : other ∈ lines) => fewer other
      have nonneg := owed_nonneg (s.record m) line id
      linarith

/-- Layers have changed, and these rows have been written. -/
def Moved (s t : Store) (rows : List StockMovement) : Prop := ∃ layers : List PurchaseLine, s.layers.length ≤ layers.length ∧
  t = { s with layers := layers, movements := s.movements ++ rows }

theorem moved_refl (s : Store) : Moved s s [] := ⟨s.layers,le_rfl,by simp⟩

theorem Moved.trans {u : Store} {rows more : List StockMovement} (first : Moved s t rows) (second : Moved t u more) :
    Moved s u (rows ++ more) := by
  obtain ⟨one,longer,rfl⟩ := first
  obtain ⟨two,again,rfl⟩ := second
  exact ⟨two,longer.trans again,by simp⟩

theorem Moved.longer {rows : List StockMovement} (moved : Moved s t rows) : s.layers.length ≤ t.layers.length := by
  obtain ⟨layers,longer,rfl⟩ := moved
  exact longer

theorem Moved.parts {rows : List StockMovement} (moved : Moved s t rows) :
    t.movements = s.movements ++ rows ∧ t.sales = s.sales ∧ t.returns = s.returns := by
  obtain ⟨layers,-,rfl⟩ := moved
  exact ⟨rfl,rfl,rfl⟩

theorem Moved.returns {rows : List StockMovement} (moved : Moved s t rows) : t.returns = s.returns := by
  obtain ⟨layers,-,rfl⟩ := moved
  rfl

theorem Moved.takenFrom (moved : Moved s t []) (line : LineId) (id : Nat) : t.takenFrom line id = s.takenFrom line id := by
  obtain ⟨layers,-,rfl⟩ := moved
  simp [Store.takenFrom,Store.saleMovements]

/-- The row as its columns hold it. -/
def LayerRow.stored (row : LayerRow) : LayerRow :=
  { row with
    orderedQty := round4 row.orderedQty
    receivedQty := round4 row.receivedQty
    qtyRemaining := round4 row.qtyRemaining
    costPerUnit := round4 row.costPerUnit }

theorem LayerRow.store_stored {row : LayerRow} {stored : PurchaseLine} (ok : row.store = .ok stored) : stored.val = row.stored := by
  rw [LayerRow.store] at ok
  split at ok
  · cases ok
    rfl
  · cases ok

theorem ends_updateLayer_stored {row : LayerRow} : Ends (updateLayer id row) s fun _ t => ∃ stored : PurchaseLine,
    stored.val = row.stored ∧ t = { s with layers := s.layers.set id stored } :=
  .bind (ends_ofExcept fun stored ok => ends_put ⟨stored,LayerRow.store_stored ok,rfl⟩)

theorem ends_updateLayer {row : LayerRow} : Ends (updateLayer id row) s fun _ t => ∃ stored : PurchaseLine,
    stored.val.qtyRemaining = round4 row.qtyRemaining ∧ stored.val.receivedQty = round4 row.receivedQty ∧
      t = { s with layers := s.layers.set id stored } := by
  refine ends_updateLayer_stored.mono fun _ t updated => ?_
  obtain ⟨stored,same,rfl⟩ := updated
  exact ⟨stored,by rw [same,LayerRow.stored],by rw [same,LayerRow.stored],rfl⟩

/-- What slices take from a layer. -/
def drawn (slices : List FifoLayerConsumption) (id : Nat) : ℚ :=
  tally FifoLayerConsumption.purchaseLineId (fun slice => round4 slice.qty) (some id) slices

/-- Slices of layers there are. -/
def Slices (s : Store) (slices : List FifoLayerConsumption) : Prop :=
  ∀ slice ∈ slices, 0 < slice.qty ∧ ∃ id, slice.purchaseLineId = some id ∧ id < s.layers.length

theorem round4_take {remaining : ℚ} (untied : ¬ Decimal.Tie 4 qty) (inside : remaining ∈ Decimal.grid 4) (nonneg : 0 ≤ qty)
    (held : 0 ≤ remaining) : round4 (remaining - min qty remaining) = remaining - round4 (min qty remaining) ∧
      ¬ Decimal.Tie 4 (qty - min qty remaining) ∧
        round4 (min qty remaining) + round4 (qty - min qty remaining) = round4 qty := by
  rcases le_total qty remaining with within | beyond
  · rw [min_eq_left within,sub_self]
    refine ⟨Decimal.quantize_sub_of_untied inside nonneg untied,Decimal.not_tie_of_mem_grid (zero_mem _),?_⟩
    have zero : round4 0 = 0 := Decimal.quantize_of_mem_grid (zero_mem _)
    rw [zero,add_zero]
  · rw [min_eq_right beyond,sub_self]
    have same : round4 remaining = remaining := Decimal.quantize_of_mem_grid inside
    have zero : round4 0 = 0 := Decimal.quantize_of_mem_grid (zero_mem _)
    refine ⟨by rw [zero,same,sub_self],fun tie => untied ((Decimal.tie_sub inside).mp tie),?_⟩
    rw [same,add_comm]
    exact Decimal.quantize_sub_add inside held beyond

theorem drawn_cons (slice : FifoLayerConsumption) (slices : List FifoLayerConsumption) (id : Nat) :
    drawn (slice :: slices) id = (if slice.purchaseLineId = some id then round4 slice.qty else 0) + drawn slices id :=
  tally_cons slice slices

/-- The row at hand has the position and the quantities of the stored one. -/
structure LikeStored (row : LayerRow) (layer : PurchaseLine) : Prop where
  position : row.position = layer.val.position
  remaining : row.qtyRemaining = layer.val.qtyRemaining
  received : row.receivedQty = layer.val.receivedQty

/-- What taking from a layer leaves alone. -/
def PurchaseLine.shape (layer : PurchaseLine) : Position × ℚ := (layer.val.position,layer.val.receivedQty)

/-- What taking a quantity from the layers has done. -/
structure Took (s t : Store) (due spare : Nat → ℚ) (qty : ℚ) (slices : List FifoLayerConsumption) (short : ℚ) : Prop where
  frame : Moved s t []
  kept : Kept t (fun id => due id - drawn slices id) spare
  shapes : t.layers.map PurchaseLine.shape = s.layers.map PurchaseLine.shape
  listed : Slices s slices
  whole : (slices.map fun slice => round4 slice.qty).sum + round4 short = round4 qty
  scaled : qty ∈ Decimal.grid 4 → ∀ slice ∈ slices, slice.qty ∈ Decimal.grid 4
  nonneg : 0 ≤ short

theorem took_nothing (kept : Kept s due spare) (nonneg : 0 ≤ qty) : Took s s due spare qty [] qty where
  frame := moved_refl s
  kept := kept.congr (fun id => by simp [drawn]) fun _ => rfl
  shapes := rfl
  listed := List.forall_mem_nil _
  whole := by simp
  scaled _ := List.forall_mem_nil _
  nonneg := nonneg

theorem ends_takeFromHeld {hand : Held} (layers : List (PurchaseLine × Nat)) : ∀ {s : Store} {due spare : Nat → ℚ} {qty : ℚ},
    Kept s due spare → 0 ≤ qty → ¬ Decimal.Tie 4 qty → (layers.map Prod.snd).Nodup →
    (∀ entry ∈ layers, s.layers[entry.2]? = some entry.1 ∧ 0 < entry.1.val.qtyRemaining) →
    (∀ entry ∈ layers, LikeStored (hand.read entry) entry.1) →
    Ends (takeFromHeld hand layers qty) s fun r t => Took s t due spare qty r.1 r.2 := by
  induction layers with
  | nil =>
    intro s due spare qty kept nonneg _ _ _ _
    exact ends_pure (took_nothing kept nonneg)
  | cons entry rest induction =>
    obtain ⟨layer,id⟩ := entry
    intro s due spare qty kept nonneg untied distinct stocked agrees
    obtain ⟨⟨here,held⟩,others⟩ := List.forall_mem_cons.mp stocked
    obtain ⟨⟨placed,same,alike⟩,agrees⟩ := List.forall_mem_cons.mp agrees
    obtain ⟨fresh,distinct⟩ := List.nodup_cons.mp distinct
    rw [takeFromHeld]
    dsimp only at placed same alike ⊢
    rw [same]
    split
    · exact ends_pure (took_nothing kept nonneg)
    · next some_ =>
      obtain ⟨left,later,whole⟩ := round4_take untied layer.2.remainingScaled nonneg held.le
      have received : round4 layer.val.receivedQty = layer.val.receivedQty := Decimal.quantize_of_mem_grid layer.2.receivedScaled
      refine .bind (ends_updateLayer_stored.mono fun _ t updated => ?_)
      obtain ⟨stored,written,rfl⟩ := updated
      have remains : stored.val.qtyRemaining = round4 (layer.val.qtyRemaining - min qty layer.val.qtyRemaining) := by
        rw [written,LayerRow.stored]
      have into : stored.val.receivedQty = layer.val.receivedQty := by rw [written,LayerRow.stored,alike,received]
      have where_ : stored.val.position = layer.val.position := by rw [written,LayerRow.stored,placed]
      have moved := kept.setLayer here (-round4 (min qty layer.val.qtyRemaining)) 0
        (by rw [remains,left]; ring) (by rw [into,add_zero])
      have untouched : ∀ other ∈ rest, (s.layers.set id stored)[other.2]? = some other.1 ∧ 0 < other.1.val.qtyRemaining := by
        intro other member
        have apart : id ≠ other.2 := by
          intro same
          exact fresh (List.mem_map.mpr ⟨other,member,same.symm⟩)
        rw [List.getElem?_set_ne apart]
        exact others other member
      have less : 0 ≤ qty - min qty layer.val.qtyRemaining := sub_nonneg.mpr (min_le_left _ _)
      refine .bind ((induction moved less later distinct untouched agrees).mono fun r u took => ends_pure ?_)
      have positive : 0 < min qty layer.val.qtyRemaining := lt_min (not_le.mp some_) held
      have inside := (List.getElem?_eq_some_iff.mp here).1
      constructor
      · have first : Moved s { s with layers := s.layers.set id stored } [] := ⟨s.layers.set id stored,List.length_set.ge,by simp⟩
        exact first.trans took.frame
      · refine took.kept.congr (fun other => ?_) fun other => ?_
        · simp only [drawn_cons,bump,Option.some.injEq,eq_comm (a := id)]
          split <;> ring
        · simp [bump]
      · have same : stored.shape = layer.shape := by rw [PurchaseLine.shape,where_,into,PurchaseLine.shape]
        rw [took.shapes,List.map_set,same]
        exact Slots.set_same (by rw [List.getElem?_map,here]; rfl)
      · refine List.forall_mem_cons.mpr ⟨⟨positive,id,rfl,inside⟩,fun slice member => ?_⟩
        obtain ⟨some_,other,named,before⟩ := took.listed slice member
        exact ⟨some_,other,named,by simpa using before⟩
      · rw [List.map_cons,List.sum_cons,add_assoc,took.whole]
        exact whole
      · intro scaled
        have part : min qty layer.val.qtyRemaining ∈ Decimal.grid 4 :=
          min_rec' (· ∈ Decimal.grid 4) scaled layer.2.remainingScaled
        exact List.forall_mem_cons.mpr ⟨part,took.scaled (sub_mem scaled part)⟩
      · exact took.nonneg

theorem fifoLayers_stocked (s : Store) (position : Position) :
    ∀ entry ∈ s.fifoLayers position, s.layers[entry.2]? = some entry.1 ∧ 0 < entry.1.val.qtyRemaining := by
  intro entry member
  obtain ⟨found,-,held⟩ := mem_fifoLayers.mp member
  exact ⟨found,held⟩

theorem ends_takeFromHeld_named {hand : Held} (layers : List (PurchaseLine × Nat)) : ∀ {s : Store} {qty : ℚ},
    Ends (takeFromHeld hand layers qty) s fun r _ => ∀ slice ∈ r.1, ∃ entry ∈ layers, slice.purchaseLineId = some entry.2 := by
  induction layers with
  | nil => exact ends_pure (List.forall_mem_nil _)
  | cons entry rest induction =>
    intro s qty
    rw [takeFromHeld]
    split
    · exact ends_pure (List.forall_mem_nil _)
    · refine .bind (ends_updateLayer.mono fun _ t _ => .bind (induction.mono fun r u named => ends_pure ?_))
      refine List.forall_mem_cons.mpr ⟨⟨entry,List.mem_cons_self,rfl⟩,fun slice member => ?_⟩
      obtain ⟨other,inside,same⟩ := named slice member
      exact ⟨other,List.mem_cons_of_mem _ inside,same⟩

theorem ends_consumeHeldLayers {hand : Held} (kept : Kept s due spare) (nonneg : 0 ≤ qty) (untied : ¬ Decimal.Tie 4 qty)
    (agrees : ∀ entry ∈ s.fifoLayers position, LikeStored ((hand.at position).read entry) entry.1) :
    Ends (consumeHeldLayers hand position qty) s fun r t => Took s t due spare qty r.1 r.2 := by
  rw [consumeHeldLayers]
  split
  · next none =>
    obtain rfl : qty = 0 := none.antisymm nonneg
    exact ends_pure (took_nothing kept nonneg)
  · refine .bind (ends_get ?_)
    exact ends_takeFromHeld _ kept nonneg untied (fifoLayers_distinct s position) (fifoLayers_stocked s position) agrees

theorem ends_getFallbackCostPerUnit : Ends (getFallbackCostPerUnit position) s fun _ t => t = s := by
  refine .bind (ends_get ?_)
  split
  · exact ends_pure rfl
  · refine .bind (ends_get ?_)
    split <;> exact ends_pure rfl

/-- Slices that make up a quantity; one without a layer is what the layers do not cover. -/
structure Portions (s : Store) (qty : ℚ) (slices : List FifoLayerConsumption) : Prop where
  positive : ∀ slice ∈ slices, 0 < slice.qty
  known : ∀ slice ∈ slices, ∀ id, slice.purchaseLineId = some id → id < s.layers.length
  whole : (slices.map fun slice => round4 slice.qty).sum = round4 qty

/-- What an allocation has done. -/
structure Allocated (s t : Store) (due spare : Nat → ℚ) (qty : ℚ) (slices : List FifoLayerConsumption) : Prop where
  frame : Moved s t []
  kept : Kept t (fun id => due id - drawn slices id) spare
  shapes : t.layers.map PurchaseLine.shape = s.layers.map PurchaseLine.shape
  scaled : qty ∈ Decimal.grid 4 → ∀ id, tally FifoLayerConsumption.purchaseLineId FifoLayerConsumption.qty (some id) slices = drawn slices id
  portions : Portions s qty slices

theorem Took.allocated {slices : List FifoLayerConsumption} {short : ℚ} (took : Took s t due spare qty slices short) (fallback : ℚ) :
    Allocated s t due spare qty (if 0 < short then slices ++ [⟨none,short,fallback⟩] else slices) := by
  have positive : ∀ slice ∈ slices, 0 < slice.qty := fun slice member => (took.listed slice member).1
  have known : ∀ slice ∈ slices, ∀ id, slice.purchaseLineId = some id → id < s.layers.length := by
    intro slice member id named
    obtain ⟨-,other,same,before⟩ := took.listed slice member
    rw [named,Option.some.injEq] at same
    exact same ▸ before
  have exact_ (scaled : qty ∈ Decimal.grid 4) (id : Nat) :
      tally FifoLayerConsumption.purchaseLineId FifoLayerConsumption.qty (some id) slices = drawn slices id :=
    tally_congr fun slice member => (Decimal.quantize_of_mem_grid (took.scaled scaled slice member)).symm
  split
  · next some_ =>
    have same (id : Nat) : drawn (slices ++ [⟨none,short,fallback⟩]) id = drawn slices id := by
      simp [drawn,tally_append,tally_singleton]
    constructor
    · exact took.frame
    · exact took.kept.congr (fun id => by rw [same]) fun _ => rfl
    · exact took.shapes
    · intro scaled id
      rw [same,← exact_ scaled id,tally_append,tally_singleton]
      simp
    · constructor
      · exact List.forall_mem_append.mpr ⟨positive,List.forall_mem_singleton.mpr some_⟩
      · refine List.forall_mem_append.mpr ⟨known,List.forall_mem_singleton.mpr fun id named => ?_⟩
        cases named
      · simpa using took.whole
  · next none =>
    have zero : short = 0 := (not_lt.mp none).antisymm took.nonneg
    have rounded : round4 0 = 0 := Decimal.quantize_of_mem_grid (zero_mem _)
    have whole := took.whole
    rw [zero,rounded,add_zero] at whole
    exact ⟨took.frame,took.kept,took.shapes,exact_,positive,known,whole⟩

theorem ends_allocateHeldLayers {hand : Held} (kept : Kept s due spare) (nonneg : 0 ≤ qty) (untied : ¬ Decimal.Tie 4 qty)
    (agrees : ∀ entry ∈ s.fifoLayers position, LikeStored ((hand.at position).read entry) entry.1) :
    Ends (allocateHeldLayers hand position qty) s fun allocation t => Allocated s t due spare qty allocation.slices := by
  refine .bind ((ends_consumeHeldLayers kept nonneg untied agrees).mono fun r t took => ?_)
  obtain ⟨slices,short⟩ := r
  dsimp only
  split
  · next some_ =>
    refine .bind (ends_getFallbackCostPerUnit.mono fun fallback u same => ends_pure ?_)
    subst same
    simpa only [if_pos some_] using took.allocated fallback
  · next none =>
    refine ends_pure ?_
    simpa only [if_neg none] using took.allocated 0

theorem ends_allocateHeldLayers_named {hand : Held} : Ends (allocateHeldLayers hand position qty) s fun allocation _ =>
    ∀ slice ∈ allocation.slices, ∀ id, slice.purchaseLineId = some id → ∃ layer, (layer,id) ∈ s.fifoLayers position := by
  have consumed : Ends (consumeHeldLayers hand position qty) s fun r _ =>
      ∀ slice ∈ r.1, ∀ id, slice.purchaseLineId = some id → ∃ layer, (layer,id) ∈ s.fifoLayers position := by
    rw [consumeHeldLayers]
    split
    · exact ends_pure (List.forall_mem_nil _)
    · refine .bind (ends_get ((ends_takeFromHeld_named _).mono fun r t named slice member id same => ?_))
      obtain ⟨⟨layer,other⟩,inside,given⟩ := named slice member
      obtain rfl := Option.some.inj (given.symm.trans same)
      exact ⟨layer,inside⟩
  refine .bind (consumed.mono fun r t named => ?_)
  obtain ⟨slices,short⟩ := r
  dsimp only
  split
  · refine .bind (ends_getFallbackCostPerUnit.mono fun fallback u _ => ends_pure ?_)
    refine List.forall_mem_append.mpr ⟨named,List.forall_mem_singleton.mpr fun id given => ?_⟩
    cases given
  · exact ends_pure named

theorem ends_allocateSaleLineFifo (kept : Kept s due spare) (nonneg : 0 ≤ qty) (untied : ¬ Decimal.Tie 4 qty) :
    Ends (allocateSaleLineFifo position qty) s fun allocation t => Allocated s t due spare qty allocation.slices :=
  ends_allocateHeldLayers kept nonneg untied fun _ _ => ⟨rfl,rfl,rfl⟩

/-- The row as its columns hold it. -/
def MovementRow.stored (row : MovementRow) : MovementRow := { row with qty := round4 row.qty, costPerUnit := round4 row.costPerUnit }

theorem ends_createStockMovement {row : MovementRow} : Ends (createStockMovement row) s fun _ t =>
    ∃ m : StockMovement, m.val = row.stored ∧ t = s.record m := by
  refine .bind (ends_ofExcept fun m ok => ends_put ⟨m,?_,rfl⟩)
  rw [MovementRow.store] at ok
  split at ok
  · cases ok
    rfl
  · cases ok

theorem moved_record (s : Store) (m : StockMovement) : Moved s (s.record m) [m] := ⟨s.layers,le_rfl,rfl⟩

theorem Portions.moved {slices : List FifoLayerConsumption} {rows : List StockMovement} (portions : Portions s qty slices) (moved : Moved s t rows) :
    Portions t qty slices where
  positive := portions.positive
  known slice member id named := (portions.known slice member id named).trans_le moved.longer
  whole := portions.whole

theorem Moved.untouched {rows : List StockMovement} (moved : Moved s t rows) (typed : ∀ m ∈ rows, m.val.movementType ≠ .saleReturn)
    (untouched : s.untouched line) : t.untouched line := by
  obtain ⟨layers,-,rfl⟩ := moved
  simp only [Store.untouched,List.all_append,Bool.and_eq_true]
  refine ⟨untouched,List.all_eq_true.mpr fun m member => ?_⟩
  rw [Bool.not_eq_true',Bool.eq_false_iff]
  exact fun gives => typed m member (givesBack_saleReturn gives)

/-- Rows of one kind that take a quantity from a position. -/
structure Outgoing (rows : List StockMovement) (item : Item) (movementType : MovementType) (reference : Reference) : Prop where
  each : ∀ m ∈ rows, m.val.position = item.position ∧ m.val.movementType = movementType ∧ m.val.reference = reference ∧ m.val.qty ≤ 0
  total : (rows.map (·.val.qty)).sum = -round4 item.qty

theorem ends_createSliceMovements {movementType : MovementType} {reference : Reference} {movementAt : Int} {slices : List FifoLayerConsumption}
    (typed : movementType ≠ .saleReturn) (own : ∀ saleReturn index, reference ≠ .saleReturnLine saleReturn index) : ∀ {s due n},
    Kept s due spare → (∀ slice ∈ slices, 0 < slice.qty) → (∀ slice ∈ slices, ∀ id, slice.purchaseLineId = some id → id < s.layers.length) →
    (movementType = .sale → ∀ line, reference = .saleLine line → s.untouched line) →
    Ends (forM (slices.zipIdx n) fun slice => createStockMovement (sliceMovement position movementType reference movementAt slice)) s
      fun _ t => Kept t (fun id => due id + drawn slices id) spare ∧
        ∃ rows, Moved s t rows ∧ (∀ m ∈ rows, m.val.position = position ∧ m.val.movementType = movementType ∧
          m.val.reference = reference ∧ m.val.qty ≤ 0) ∧ (rows.map (·.val.qty)).sum = -(slices.map fun slice => round4 slice.qty).sum := by
  induction slices with
  | nil =>
    intro s due n kept _ _ _
    refine ends_pure ⟨kept.congr (fun id => by simp [drawn]) fun _ => rfl,[],moved_refl s,by simp,by simp⟩
  | cons slice slices induction =>
    intro s due n kept positive known untouched
    obtain ⟨some_,positive⟩ := List.forall_mem_cons.mp positive
    obtain ⟨here,known⟩ := List.forall_mem_cons.mp known
    rw [List.zipIdx_cons,List.forM_cons]
    refine .bind (ends_createStockMovement.mono fun _ t wrote => ?_)
    obtain ⟨m,same,rfl⟩ := wrote
    have amount : m.val.qty = -round4 slice.qty := by
      rw [same]
      exact Decimal.quantize_neg
    have nonneg : 0 ≤ round4 slice.qty := Decimal.quantize_nonneg some_.le
    have takes : m.val.qty ≤ 0 := by linarith
    have layered : m.val.purchaseLineId = slice.purchaseLineId := by rw [same]; rfl
    have kind : m.val.position = position ∧ m.val.movementType = movementType ∧ m.val.reference = reference := by simp [same,MovementRow.stored,sliceMovement]
    obtain ⟨placed,ofType,about⟩ := kind
    have next_ := kept.recordTaken (by rwa [layered]) (fun saleReturn index named => absurd (about.symm.trans named) (own saleReturn index)) takes
      (by rwa [ofType]) (by rwa [ofType,about])
    have still : movementType = .sale → ∀ line, reference = .saleLine line → (s.record m).untouched line := by
      intro sale line named
      exact (moved_record s m).untouched (List.forall_mem_singleton.mpr (ofType.trans_ne typed)) (untouched sale line named)
    refine (induction next_ positive known still).mono fun _ u more => ?_
    obtain ⟨later,rows,moved,each,total⟩ := more
    refine ⟨later.congr (fun id => ?_) fun _ => rfl,m :: rows,(moved_record s m).trans moved,?_,?_⟩
    · rw [drawn_cons,layered,amount]
      split <;> ring
    · exact List.forall_mem_cons.mpr ⟨⟨placed,ofType,about,takes⟩,each⟩
    · rw [List.map_cons,List.sum_cons,total,amount,List.map_cons,List.sum_cons]
      ring

theorem ends_createSliceRows {item : Item} {movementType : MovementType} {reference : Reference} {movementAt : Int}
    {slices : List FifoLayerConsumption} (typed : movementType ≠ .saleReturn)
    (own : ∀ saleReturn index, reference ≠ .saleReturnLine saleReturn index) (kept : Kept s due spare) (portions : Portions s item.qty slices)
    (untouched : movementType = .sale → ∀ line, reference = .saleLine line → s.untouched line) :
    Ends (createSliceMovements item.position movementType reference movementAt slices) s fun _ t =>
      Kept t (fun id => due id + drawn slices id) spare ∧ ∃ rows, Moved s t rows ∧ Outgoing rows item movementType reference := by
  refine (ends_createSliceMovements typed own kept portions.positive portions.known untouched).mono fun _ t wrote => ?_
  obtain ⟨kept,rows,moved,each,total⟩ := wrote
  exact ⟨kept,rows,moved,each,by rw [total,portions.whole]⟩

theorem Allocated.lowered {slices : List FifoLayerConsumption} {after : PurchaseLine} (allocated : Allocated s t due spare qty slices)
    (kept : Kept s due spare) (there : t.layers[id]? = some after) : ∃ before, s.layers[id]? = some before ∧
      before.shape = after.shape ∧ after.val.qtyRemaining = before.val.qtyRemaining - drawn slices id := by
  have same := congrArg (·[id]?) allocated.shapes
  simp only [List.getElem?_map,there,Option.map_some] at same
  obtain ⟨before,here,shape⟩ := Option.map_eq_some_iff.mp same.symm
  refine ⟨before,here,shape,?_⟩
  obtain ⟨layers,-,rfl⟩ := allocated.frame
  have sums : Store.layerSum { s with layers := layers, movements := s.movements ++ [] } id = s.layerSum id := by simp [Store.layerSum]
  rw [allocated.kept.balanced id after there,kept.balanced id before here,sums]
  ring

theorem ends_consumeHeldToMovements {hand : Held} {item : Item} {movementType : MovementType} {reference : Reference} {movementAt : Int}
    (typed : movementType ≠ .saleReturn ∧ movementType ≠ .sale) (own : ∀ saleReturn index, reference ≠ .saleReturnLine saleReturn index)
    (kept : Kept s due spare) (nonneg : 0 ≤ item.qty) (untied : ¬ Decimal.Tie 4 item.qty)
    (agrees : ∀ entry ∈ s.fifoLayers item.position, LikeStored ((hand.at item.position).read entry) entry.1) :
    Ends (consumeHeldToMovements hand item movementType reference movementAt) s fun allocation t =>
      (Kept t due spare ∧ ∃ rows, Moved s t rows ∧ Outgoing rows item movementType reference) ∧
        (∃ u, Allocated s u due spare item.qty allocation.slices ∧ t.layers = u.layers) ∧
          ∀ slice ∈ allocation.slices, ∀ id, slice.purchaseLineId = some id → ∃ layer, (layer,id) ∈ s.fifoLayers item.position := by
  refine .bind (((ends_allocateHeldLayers kept nonneg untied agrees).and ends_allocateHeldLayers_named).mono
    fun allocation t given => ?_)
  obtain ⟨allocated,named⟩ := given
  have known : Portions t item.qty allocation.slices := allocated.portions.moved allocated.frame
  have layers : Ends (createSliceMovements item.position movementType reference movementAt allocation.slices) t
      fun _ u => u.layers = t.layers := by
    refine (ends_forM (fun _ u => u.layers = t.layers) (fun _ _ u same => ?_) rfl).mono fun _ _ same => same
    refine ends_createStockMovement.mono fun _ v wrote => ?_
    obtain ⟨m,-,rfl⟩ := wrote
    exact same
  refine .bind (((ends_createSliceRows typed.1 own allocated.kept known fun sale => absurd sale typed.2).and layers).mono
    fun _ u wrote => ?_)
  obtain ⟨⟨kept,rows,moved,outgoing⟩,same⟩ := wrote
  exact ends_pure ⟨⟨kept.congr (fun id => by ring) fun _ => rfl,rows,allocated.frame.trans moved,outgoing⟩,⟨t,allocated,same⟩,named⟩

theorem ends_consumeToMovements {item : Item} {movementType : MovementType} {reference : Reference} {movementAt : Int}
    (typed : movementType ≠ .saleReturn ∧ movementType ≠ .sale) (own : ∀ saleReturn index, reference ≠ .saleReturnLine saleReturn index)
    (kept : Kept s due spare) (nonneg : 0 ≤ item.qty) (untied : ¬ Decimal.Tie 4 item.qty) :
    Ends (consumeToMovements item movementType reference movementAt) s fun _ t =>
      Kept t due spare ∧ ∃ rows, Moved s t rows ∧ Outgoing rows item movementType reference :=
  (ends_consumeHeldToMovements typed own kept nonneg untied fun _ _ => ⟨rfl,rfl,rfl⟩).mono fun _ _ consumed => consumed.1

theorem LayerRow.store_ok {row : LayerRow} {stored : PurchaseLine} (ok : row.store = .ok stored) :
    stored.val.qtyRemaining = round4 row.qtyRemaining ∧ stored.val.receivedQty = round4 row.receivedQty := by
  rw [LayerRow.store_stored ok]
  exact ⟨rfl,rfl⟩

theorem ends_createFifoLayer {item : Item} {cost : ℚ} {createdAt : Int} (kept : Kept s due spare) :
    Ends (createFifoLayer item cost createdAt) s fun id t => id = s.layers.length ∧ s.layers.length < t.layers.length ∧ Moved s t [] ∧
      Kept t (bump due s.layers.length (round4 item.qty)) (bump spare s.layers.length (round4 item.qty)) := by
  refine .bind (ends_ofExcept fun stored ok => .bind (ends_get (.bind (ends_put (ends_pure ?_)))))
  obtain ⟨remains,received⟩ := LayerRow.store_ok ok
  refine ⟨rfl,by simp,⟨s.layers ++ [stored],by simp,by simp⟩,?_⟩
  have added := kept.addLayer (remains.trans received.symm)
  rwa [received] at added

/-- The movement that fills a new layer. -/
theorem ends_fillLayer {item : Item} {row : MovementRow} (typed : row.movementType ≠ .sale)
    (reported : ∀ saleReturn index, row.reference = .saleReturnLine saleReturn index → saleReturn < s.returns.length)
    (kept : Kept s due spare) (nonneg : 0 ≤ item.qty) (into : row.qty = item.qty)
    (layered : row.purchaseLineId = some s.layers.length) (longer : s.layers.length < t.layers.length) (moved : Moved s t [])
    (filled : Kept t (bump due s.layers.length (round4 item.qty)) (bump spare s.layers.length (round4 item.qty))) :
    Ends (createStockMovement row) t fun _ u => Kept u due spare ∧ ∃ m : StockMovement, m.val = row.stored ∧ u = t.record m := by
  refine ends_createStockMovement.mono fun _ u wrote => ?_
  obtain ⟨m,same,rfl⟩ := wrote
  have brings : m.val.qty = round4 item.qty := by rw [same,MovementRow.stored,into]
  have layered : m.val.purchaseLineId = some s.layers.length := by rw [same]; exact layered
  have into : ∀ id, m.val.purchaseLineId = some id → id = s.layers.length := by
    intro id named
    exact (Option.some.inj (layered.symm.trans named)).symm
  have none (line : LineId) : t.takenFrom line s.layers.length = 0 := by
    rw [moved.takenFrom]
    exact ((kept.unknown (Nat.le_refl _)).2 line).1
  refine ⟨?_,m,same,rfl⟩
  have received := filled.recordReceived (m := m) (fun id named => into id named ▸ longer) (fun saleReturn index named => ?_)
    (brings ▸ Decimal.quantize_nonneg nonneg) (by rw [same]; exact typed) (fun id named line _ => into id named ▸ none line)
  · refine received.congr (fun id => ?_) fun id => ?_
    · simp only [bump,layered,brings,Option.some.injEq,eq_comm (a := id)]
      split <;> ring
    · simp only [bump,layered,brings,Option.some.injEq,eq_comm (a := id)]
      split <;> ring
  · rw [moved.returns]
    exact reported saleReturn index (by rw [← named,same]; rfl)

theorem ends_receiveIntoNewLayer (item : Item) {cost : ℚ} {movementType : MovementType} {reference : Reference} {createdAt movementAt : Int}
    {movementSequence : Option Nat} (typed : movementType ≠ .sale)
    (reported : ∀ saleReturn index, reference = .saleReturnLine saleReturn index → saleReturn < s.returns.length)
    (kept : Kept s due spare) (nonneg : 0 ≤ item.qty) :
    Ends (receiveIntoNewLayer item cost movementType reference createdAt movementAt movementSequence) s fun _ t =>
      Kept t due spare ∧ ∃ m : StockMovement, Moved s t [m] ∧ m.val.position = item.position ∧ m.val.movementType = movementType ∧
        m.val.reference = reference ∧ m.val.qty = round4 item.qty ∧ m.val.purchaseLineId = some s.layers.length := by
  refine .bind ((ends_createFifoLayer kept).mono fun id t made => ?_)
  obtain ⟨rfl,longer,moved,filled⟩ := made
  refine (ends_fillLayer typed reported kept nonneg rfl rfl longer moved filled).mono fun _ u wrote => ?_
  obtain ⟨kept,m,same,rfl⟩ := wrote
  refine ⟨kept,m,moved.trans (moved_record t m),?_⟩
  rw [same]
  exact ⟨rfl,rfl,rfl,rfl,rfl⟩

end Stock
