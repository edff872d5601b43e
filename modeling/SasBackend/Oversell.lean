import Mathlib.Algebra.Group.Submonoid.BigOperators
import SasBackend.FifoCost
import SasBackend.Library.Interleaving
import SasBackend.Library.Outcome

/-! No stock position is sold below zero by requests that run among each other.
A request that takes stock has locked the positions and seen that there is enough of each for all its lines; what it
still has to take is at most what it has seen there.
-/
namespace Oversell
open SasBackend Stock Program Interleaving Tally Transition
open Refunds (ReturnLineRequest CreateSaleReturnRequest)

variable {α β γ : Type} {items rest : List Item} {held : Set Position} {floor : Position → ℚ} {position : Position}

def Strict (s : Store) : Prop := s.allowNegativeStock = false

/-- What a request takes from a position for the items: each is rounded to the column on its own. -/
def need (items : List Item) (position : Position) : ℚ :=
  tally Item.position (fun item => round4 item.qty) position items

/-- The positions of all items are locked, and there is enough for them. -/
def Enough (items : List Item) (held : Set Position) (floor : Position → ℚ) : Prop :=
  ∀ item ∈ items, 0 ≤ item.qty ∧ item.position ∈ held ∧ need items item.position ≤ floor item.position

/-- A quantity with more than four decimals is alone at its position. -/
def Fits (items : List Item) : Prop :=
  ∀ item ∈ items, item.qty ∈ Decimal.grid 4 ∨ (items.filter (·.position = item.position)).length = 1

instance (items : List Item) : Decidable (Fits items) := inferInstanceAs (Decidable (∀ item ∈ items, _ ∨ _))

abbrev Takes (p : Tx α) (held : Set Position) (floor : Position → ℚ)
    (post : α → Set Position → (Position → ℚ) → Prop) : Prop :=
  Safe Store.balance Strict p held floor post

/-- The program takes nothing and locks nothing. -/
def Gives (p : Tx α) (post : α → Prop) : Prop :=
  ∀ items held floor, Enough items held floor → Takes p held floor fun a held floor => post a ∧ Enough items held floor

theorem round4_nonneg {qty : ℚ} (nonneg : 0 ≤ qty) : 0 ≤ round4 qty := Decimal.quantize_nonneg nonneg

theorem round4_neg (qty : ℚ) : round4 (-qty) = -round4 qty := Decimal.quantize_neg

theorem need_nonneg (nonneg : ∀ item ∈ items, 0 ≤ item.qty) : 0 ≤ need items position :=
  tally_nonneg fun item member => round4_nonneg (nonneg item member)

theorem need_cons (item : Item) :
    need (item :: rest) position = (if item.position = position then round4 item.qty else 0) + need rest position :=
  tally_cons item rest

theorem balance_mem_grid (s : Store) (position : Position) : s.balance position ∈ Decimal.grid 4 := by
  refine list_sum_mem fun value member => ?_
  obtain ⟨movement,_,rfl⟩ := List.mem_map.mp member
  exact movement.2.scaled

theorem balance_movement (s : Store) (movement : StockMovement) (position : Position) :
    Store.balance { s with movements := s.movements ++ [movement] } position =
      s.balance position + if movement.val.position = position then movement.val.qty else 0 := by
  rw [Store.balance,tally_append,tally_singleton,Store.balance]

theorem tally_rounded_le {ε κ : Type} [DecidableEq κ] {key : ε → κ} {qty : ε → ℚ} {k : κ} {entries : List ε} {bound : ℚ}
    (fits : ∀ entry ∈ entries, key entry = k → qty entry ∈ Decimal.grid 4 ∨ (entries.filter (key · = k)).length = 1)
    (scaled : bound ∈ Decimal.grid 4) (enough : tally key qty k entries ≤ bound) :
    tally key (fun entry => round4 (qty entry)) k entries ≤ bound := by
  by_cases exact : ∀ entry ∈ entries, key entry = k → qty entry ∈ Decimal.grid 4
  · have same : tally key (fun entry => round4 (qty entry)) k entries = tally key qty k entries := by
      unfold tally
      congr 1
      refine List.map_congr_left fun entry member => ?_
      simp only [List.mem_filter,decide_eq_true_eq] at member
      exact Decimal.quantize_of_mem_grid (exact entry member.1 member.2)
    exact same.trans_le enough
  · push Not at exact
    obtain ⟨entry,member,here,fine⟩ := exact
    obtain ⟨only,filtered⟩ := List.length_eq_one_iff.mp ((fits entry member here).resolve_left fine)
    rw [tally,filtered] at enough ⊢
    simp only [List.map_cons,List.map_nil,List.sum_cons,List.sum_nil,add_zero] at enough ⊢
    exact (Decimal.quantize_mono enough).trans_eq (Decimal.quantize_of_mem_grid scaled)

theorem Fits.covered (fits : Fits items) {available : ℚ} (scaled : available ∈ Decimal.grid 4)
    (enough : tally Item.position Item.qty position items ≤ available) : need items position ≤ available := by
  refine tally_rounded_le (fun item member here => ?_) scaled enough
  subst here
  exact fits item member

/-- What the slices take is what the quantity takes. -/
def Covers (qty : ℚ) (slices : List FifoLayerConsumption) : Prop :=
  (∀ slice ∈ slices, 0 < slice.qty) ∧ (slices.map fun slice => round4 slice.qty).sum = round4 qty

def sliceItem (position : Position) (slice : FifoLayerConsumption) : Item := ⟨position,slice.qty⟩

theorem need_slices (position other : Position) (slices : List FifoLayerConsumption) :
    need (slices.map (sliceItem position)) other =
      if position = other then (slices.map fun slice => round4 slice.qty).sum else 0 := by
  induction slices with
  | nil => simp [need]
  | cons slice rest induction =>
    rw [List.map_cons,need_cons,induction]
    by_cases here : position = other <;> simp [sliceItem,here]

theorem Enough.trade {others : List Item} (enough : Enough items held floor) (nonneg : ∀ item ∈ others, 0 ≤ item.qty)
    (known : ∀ item ∈ others, item.position ∈ items.map Item.position)
    (less : ∀ item ∈ others, need others item.position ≤ need items item.position) : Enough others held floor := by
  intro item member
  obtain ⟨other,inside,same⟩ := List.mem_map.mp (known item member)
  obtain ⟨_,locked,covered⟩ := enough other inside
  rw [same] at locked covered
  exact ⟨nonneg item member,locked,(less item member).trans covered⟩

theorem need_append (items rest : List Item) (position : Position) :
    need (items ++ rest) position = need items position + need rest position := tally_append _ _

theorem Enough.split {item : Item} {slices : List FifoLayerConsumption} (enough : Enough (item :: rest) held floor)
    (covers : Covers item.qty slices) : Enough (slices.map (sliceItem item.position) ++ rest) held floor := by
  refine enough.trade (fun other member => ?_) (fun other member => ?_) fun other _ => ?_
  · rcases List.mem_append.mp member with sliced | later
    · obtain ⟨slice,inside,rfl⟩ := List.mem_map.mp sliced
      exact (covers.1 slice inside).le
    · exact (enough other (List.mem_cons_of_mem _ later)).1
  · rcases List.mem_append.mp member with sliced | later
    · obtain ⟨slice,inside,rfl⟩ := List.mem_map.mp sliced
      exact List.mem_cons_self
    · exact List.mem_cons_of_mem _ (List.mem_map_of_mem later)
  · rw [need_append,need_slices,need_cons,covers.2]

theorem Enough.grow (enough : Enough items held floor) {higher : Position → ℚ}
    (above : ∀ key ∈ held, floor key ≤ higher key) : Enough items held higher := by
  intro item member
  obtain ⟨nonneg,locked,covered⟩ := enough item member
  exact ⟨nonneg,locked,covered.trans (above _ locked)⟩

theorem Enough.take {item : Item} (enough : Enough (item :: rest) held floor) :
    Enough rest held fun key => floor key + if item.position = key then -round4 item.qty else 0 := by
  intro other member
  obtain ⟨nonneg,locked,covered⟩ := enough other (List.mem_cons_of_mem _ member)
  rw [need_cons] at covered
  refine ⟨nonneg,locked,?_⟩
  by_cases here : item.position = other.position
  · simp only [if_pos here] at covered ⊢
    linarith
  · simp only [if_neg here] at covered ⊢
    linarith

theorem Gives.bind {p : Tx α} {f : α → Tx β} {post : α → Prop} {after : β → Prop} (first : Gives p post)
    (later : ∀ a, post a → Gives (f a) after) : Gives (p >>= f) after := by
  intro items held floor enough
  refine .bind ((first items held floor enough).mono fun a held floor given => ?_)
  exact later a given.1 items held floor given.2

theorem Gives.mono {p : Tx α} {post weaker : α → Prop} (gives : Gives p post) (implied : ∀ a, post a → weaker a) :
    Gives p weaker := by
  intro items held floor enough
  exact (gives items held floor enough).mono fun a _ _ given => ⟨implied a given.1,given.2⟩

theorem Gives.takes {p : Tx α} {post : α → Prop} (gives : Gives p post) :
    Takes p held floor fun a _ _ => post a := by
  refine (gives [] held floor fun item member => ?_).mono fun a _ _ given => given.1
  cases member

theorem Gives.andThen {p : Tx α} {f : α → Tx β} {post : α → Prop} {after : β → Set Position → (Position → ℚ) → Prop}
    (first : Gives p post) (later : ∀ a held floor, post a → Takes (f a) held floor after) :
    Takes (p >>= f) held floor after :=
  .bind (first.takes.mono fun a held floor given => later a held floor given)

theorem Gives.keeping {p : Tx α} {f : α → Tx β} {post : α → Prop} {after : β → Set Position → (Position → ℚ) → Prop}
    (first : Gives p post) (enough : Enough items held floor)
    (later : ∀ a held floor, post a → Enough items held floor → Takes (f a) held floor after) :
    Takes (p >>= f) held floor after :=
  .bind ((first items held floor enough).mono fun a held floor given => later a held floor given.1 given.2)

theorem gives_pure {post : α → Prop} {a : α} (holds : post a) : Gives (pure a) post :=
  fun _ _ _ enough => safe_pure ⟨holds,enough⟩

theorem gives_fail (refusal : Refusal) {post : α → Prop} : Gives (.fail refusal) post := fun _ _ _ _ => trivial

theorem gives_ofExcept {outcome : Except Refusal α} (post : α → Prop) (holds : ∀ a, outcome = .ok a → post a) :
    Gives (.ofExcept outcome) post :=
  fun _ _ _ enough => safe_ofExcept fun a same => ⟨holds a same,enough⟩

theorem gives_require {condition : Bool} {refusal : Refusal} :
    Gives (.require condition refusal) fun _ => condition = true :=
  fun _ _ _ enough => safe_require fun holds => ⟨holds,enough⟩

theorem gives_get {query : Store → α} (post : α → Prop) (holds : ∀ view, post (query view)) : Gives (get query) post :=
  fun _ _ _ enough => safe_get fun view _ above => ⟨holds view,enough.grow above⟩

theorem gives_read (query : Store → α) : Gives (get query) fun _ => True := gives_get _ fun _ => trivial

theorem gives_put {change : Store → Store}
    (setting : ∀ s, (change s).allowNegativeStock = s.allowNegativeStock)
    (same : ∀ s, (change s).movements = s.movements) : Gives (put change) fun _ => True := by
  intro items held floor enough
  refine safe_put (fun s strict => (setting s).trans strict) (fun s => ?_) ⟨trivial,enough⟩
  funext position
  rw [Store.balance,same,Store.balance]

theorem gives_forM {f : γ → Tx PUnit} {xs : List γ} (each : ∀ x ∈ xs, Gives (f x) fun _ => True) :
    Gives (forM xs f) fun _ => True := by
  induction xs with
  | nil => exact gives_pure trivial
  | cons x xs induction =>
    rw [List.forM_cons]
    refine (each x List.mem_cons_self).bind fun _ _ => ?_
    exact induction fun other member => each other (List.mem_cons_of_mem _ member)

theorem gives_foldlM {f : β → γ → Tx β} {xs : List γ} (each : ∀ b, ∀ x ∈ xs, Gives (f b x) fun _ => True) (b : β) :
    Gives (xs.foldlM f b) fun _ => True := by
  induction xs generalizing b with
  | nil => exact gives_pure trivial
  | cons x xs induction =>
    rw [List.foldlM_cons]
    refine (each b x List.mem_cons_self).bind fun b _ => ?_
    exact induction (fun b other member => each b other (List.mem_cons_of_mem _ member)) b

theorem gives_found {query : Store → Option α} {post : α → Prop} (holds : ∀ view a, query view = some a → post a) :
    Gives (found query) post := by
  refine (gives_get (fun outcome => ∃ view, query view = outcome) fun view => ⟨view,rfl⟩).bind ?_
  intro outcome seen
  obtain ⟨view,rfl⟩ := seen
  cases same : query view with
  | none => exact gives_fail .notFound
  | some a => exact gives_pure (holds view a same)

theorem gives_row (query : Store → Option α) : Gives (found query) fun _ => True :=
  gives_found fun _ _ _ => trivial

theorem gives_movement {row : MovementRow} (into : 0 ≤ row.qty) : Gives (createStockMovement row) fun _ => True := by
  refine (gives_ofExcept (fun movement => 0 ≤ movement.val.qty) fun movement stored => ?_).bind ?_
  · rw [MovementRow.store] at stored
    split at stored
    · cases stored
      exact round4_nonneg into
    · cases stored
  intro movement positive items held floor enough
  have added (key : Position) : 0 ≤ if movement.val.position = key then movement.val.qty else 0 := by
    split
    · exact positive
    · exact le_rfl
  refine ⟨_,⟨fun _ strict => strict,fun s key => balance_movement s movement key⟩,fun key => .inl (added key),?_⟩
  exact ⟨trivial,enough.grow fun key _ => le_add_of_nonneg_right (added key)⟩

theorem gives_updateLayer {id : Nat} {row : LayerRow} : Gives (updateLayer id row) fun _ => True :=
  (gives_ofExcept (fun _ => True) fun _ _ => trivial).bind fun _ _ => gives_put (fun _ => rfl) fun _ => rfl

theorem gives_fallbackCost {position : Position} : Gives (getFallbackCostPerUnit position) fun _ => True := by
  refine (gives_read _).bind fun layerCost _ => ?_
  cases layerCost with
  | some cost => exact gives_pure trivial
  | none =>
    refine (gives_read _).bind fun movementCost _ => ?_
    cases movementCost <;> exact gives_pure trivial

/-- Of layers that are not at hand. -/
theorem gives_takeFromHeld {hand : Held} {layers : List (PurchaseLine × Nat)} {qty : ℚ} (nonneg : 0 ≤ qty)
    (filled : ∀ entry ∈ layers, 0 < entry.1.val.qtyRemaining) (absent : ∀ entry ∈ layers, hand.row entry.2 = none) :
    Gives (takeFromHeld hand layers qty) fun taken => 0 ≤ taken.2 ∧
      (∀ slice ∈ taken.1, 0 < slice.qty ∧ ∃ entry ∈ layers, slice.purchaseLineId = some entry.2) ∧
      (taken.1.map fun slice => round4 slice.qty).sum + round4 taken.2 = round4 qty := by
  induction layers generalizing qty with
  | nil => exact gives_pure ⟨nonneg,by simp,by simp⟩
  | cons entry rest induction =>
    obtain ⟨layer,id⟩ := entry
    obtain ⟨stored,absent⟩ := List.forall_mem_cons.mp absent
    have read : hand.read (layer,id) = layer.val := by rw [Held.read,stored,Option.getD_none]
    rw [takeFromHeld,read]
    split
    · exact gives_pure ⟨nonneg,by simp,by simp⟩
    next some_ =>
      have positive : 0 < layer.val.qtyRemaining := filled _ List.mem_cons_self
      have left : 0 ≤ qty - min qty layer.val.qtyRemaining := sub_nonneg.mpr (min_le_left _ _)
      -- a layer emptied leaves the decimals of the rest as they are
      have rounded : round4 (min qty layer.val.qtyRemaining) + round4 (qty - min qty layer.val.qtyRemaining) =
          round4 qty := by
        rcases le_total qty layer.val.qtyRemaining with within | beyond
        · rw [min_eq_left within,sub_self,round4,round4,Decimal.quantize_of_mem_grid (zero_mem _),add_zero]
        · rw [min_eq_right beyond,round4,Decimal.quantize_of_mem_grid layer.2.remainingScaled,add_comm]
          exact Decimal.quantize_sub_add layer.2.remainingScaled positive.le beyond
      refine gives_updateLayer.bind fun _ _ => ?_
      refine (induction left (fun other member => filled other (List.mem_cons_of_mem _ member)) absent).bind
        fun taken given => ?_
      obtain ⟨short,slices,sum⟩ := given
      refine gives_pure ⟨short,?_,?_⟩
      · refine List.forall_mem_cons.mpr ⟨⟨lt_min (not_le.mp some_) positive,_,List.mem_cons_self,rfl⟩,fun slice member => ?_⟩
        obtain ⟨some_,other,inside,named⟩ := slices slice member
        exact ⟨some_,other,List.mem_cons_of_mem _ inside,named⟩
      · rw [List.map_cons,List.sum_cons,add_assoc,sum]
        exact rounded

theorem fifoLayers_filled (view : Store) (position : Position) :
    ∀ entry ∈ view.fifoLayers position, 0 < entry.1.val.qtyRemaining := by
  intro entry member
  rw [Store.fifoLayers,List.mem_insertionSort,List.mem_filter] at member
  simp only [Bool.and_eq_true,decide_eq_true_eq] at member
  exact member.2.2

/-- At a position of which no layer is at hand. -/
theorem gives_allocateHeld {hand : Held} {position : Position} {qty : ℚ} (nonneg : 0 ≤ qty) (away : hand.at position = []) :
    Gives (allocateHeldLayers hand position qty) fun allocation => Covers qty allocation.slices := by
  have consumed : Gives (consumeHeldLayers hand position qty) fun taken => 0 ≤ taken.2 ∧ (∀ slice ∈ taken.1, 0 < slice.qty) ∧
      (taken.1.map fun slice => round4 slice.qty).sum + round4 taken.2 = round4 qty := by
    rw [consumeHeldLayers,away]
    split
    next nothing =>
      have zero : qty = 0 := nothing.antisymm nonneg
      exact gives_pure ⟨le_rfl,by simp,by simp [zero]⟩
    · refine (gives_get (fun layers => ∀ entry ∈ layers, 0 < entry.1.val.qtyRemaining)
        fun view => fifoLayers_filled view position).bind fun layers filled => ?_
      refine (gives_takeFromHeld nonneg filled fun _ _ => rfl).mono fun taken given => ?_
      exact ⟨given.1,fun slice member => (given.2.1 slice member).1,given.2.2⟩
  refine consumed.bind fun taken given => ?_
  obtain ⟨slices,short⟩ := taken
  obtain ⟨nonneg,positive,sum⟩ := given
  dsimp only
  split
  next some_ =>
    refine gives_fallbackCost.bind fun fallback _ => gives_pure ⟨?_,?_⟩
    · simp only [List.mem_append,List.mem_singleton]
      rintro slice (inside | rfl)
      · exact positive slice inside
      · exact some_
    · rw [List.map_append,List.sum_append,List.map_singleton,List.sum_singleton]
      exact sum
  next covered =>
    have zero : short = 0 := le_antisymm (not_lt.mp covered) nonneg
    refine gives_pure ⟨positive,?_⟩
    have nothing : round4 short = 0 := by rw [zero,round4,Decimal.quantize_of_mem_grid (zero_mem _)]
    rw [← sum]
    simp [nothing]

theorem gives_allocate {position : Position} {qty : ℚ} (nonneg : 0 ≤ qty) :
    Gives (allocateSaleLineFifo position qty) fun allocation => Covers qty allocation.slices :=
  gives_allocateHeld nonneg rfl

theorem gives_newLayerRow (item : Item) (cost : ℚ) (createdAt : Int) :
    Gives (createFifoLayer item cost createdAt) fun _ => True := by
  refine (gives_ofExcept (fun _ => True) fun _ _ => trivial).bind fun _ _ => (gives_read _).bind fun _ _ => ?_
  refine Gives.bind (gives_put (fun _ => rfl) fun _ => rfl) fun _ _ => ?_
  exact gives_pure trivial

theorem gives_newLayer {item : Item} {cost : ℚ} {movementType : MovementType} {reference : Reference}
    {createdAt movementAt : Int} {movementSequence : Option Nat} (into : 0 ≤ item.qty) :
    Gives (receiveIntoNewLayer item cost movementType reference createdAt movementAt movementSequence) fun _ => True := by
  exact (gives_newLayerRow item cost createdAt).bind fun _ _ => gives_movement into

theorem takes_movement {row : MovementRow} (enough : Enough (⟨row.position,-row.qty⟩ :: rest) held floor) :
    Takes (createStockMovement row) held floor fun _ held floor => Enough rest held floor := by
  obtain ⟨_,locked,covered⟩ := enough _ List.mem_cons_self
  have later : 0 ≤ need rest row.position :=
    need_nonneg fun item member => (enough item (List.mem_cons_of_mem _ member)).1
  rw [need_cons,if_pos rfl] at covered
  dsimp only at locked covered
  refine .bind (safe_ofExcept fun movement stored => ?_)
  have columns : movement.val.position = row.position ∧ movement.val.qty = -round4 (-row.qty) := by
    rw [MovementRow.store] at stored
    split at stored
    · cases stored
      exact ⟨rfl,by rw [round4_neg,neg_neg]⟩
    · cases stored
  refine ⟨_,⟨fun _ strict => strict,fun s key => balance_movement s movement key⟩,fun key => ?_,?_⟩
  · by_cases here : movement.val.position = key
    · rw [if_pos here,← here,columns.1,columns.2]
      exact .inr ⟨locked,by linarith⟩
    · rw [if_neg here]
      exact .inl le_rfl
  · rw [columns.1,columns.2]
    exact enough.take

theorem takes_slices {position : Position} {movementType : MovementType} {reference : Reference} {movementAt : Int}
    {slices : List FifoLayerConsumption} (enough : Enough (slices.map (sliceItem position) ++ rest) held floor) :
    Takes (createSliceMovements position movementType reference movementAt slices) held floor
      fun _ held floor => Enough rest held floor := by
  refine (safe_forM (fun entries held floor => Enough (entries.map (fun entry => sliceItem position entry.1) ++ rest)
    held floor) ?_ ?_).mono fun _ _ _ kept => kept
  · intro entry entries held floor kept
    refine takes_movement ?_
    simpa [sliceMovement,sliceItem] using kept
  · have same : slices.zipIdx.map (fun entry => sliceItem position entry.1) = slices.map (sliceItem position) := by
      conv_rhs => rw [← List.zipIdx_map_fst 0 slices,List.map_map]
      rfl
    rw [same]
    exact enough

theorem takes_item {item : Item} {movementType : MovementType} {reference : Reference} {movementAt : Int}
    (enough : Enough (item :: rest) held floor) :
    Takes (consumeToMovements item movementType reference movementAt) held floor
      fun _ held floor => Enough rest held floor := by
  have nonneg : 0 ≤ item.qty := (enough item List.mem_cons_self).1
  refine .bind ((gives_allocate nonneg _ _ _ enough).mono fun allocation held floor given => .bind ?_)
  exact (takes_slices (given.2.split given.1)).mono fun _ _ _ kept => safe_pure kept

theorem takes_locks (positions : List Position) :
    Takes (lockStockPositions positions) held floor fun _ held _ => ∀ position ∈ positions, position ∈ held := by
  refine (safe_forM (fun (later : List Position) held _ => ∀ position ∈ positions, position ∈ later ∨ position ∈ held)
    ?_ ?_).mono fun _ _ _ kept position member => (kept position member).resolve_left List.not_mem_nil
  · intro next later held floor kept
    refine safe_acquire fun position member => ?_
    rcases kept position member with waiting | locked
    · rcases List.mem_cons.mp waiting with rfl | waiting
      · exact .inr (Set.mem_insert _ _)
      · exact .inl waiting
    · exact .inr (Set.mem_insert_of_mem _ locked)
  · intro position member
    exact .inl ((List.mem_insertionSort _).mpr (List.mem_dedup.mpr member))

/-- Sees that there is as much as the item asks for. -/
def Checks (check : Item → Tx Unit) : Prop := ∀ item held floor, Takes (check item) held floor fun _ held' floor' =>
  held' = held ∧ (∀ key ∈ held, floor key ≤ floor' key) ∧ (∀ key, floor' key ∈ Decimal.grid 4) ∧
    item.qty ≤ floor' item.position

/-- Positions that are locked and checked for all items together have enough for each. -/
theorem takes_checks {check : Item → Tx Unit} (checks : Checks check) (fits : Fits items)
    (positive : ∀ item ∈ items, 0 < item.qty) (locked : ∀ position ∈ items.map Item.position, position ∈ held) :
    Takes (forM (demand items) check) held floor fun _ held floor => Enough items held floor := by
  refine (safe_forM (fun later held floor => ∀ item ∈ items, item.position ∈ held ∧
    (⟨item.position,tally Item.position Item.qty item.position items⟩ ∈ later ∨
      need items item.position ≤ floor item.position)) ?_ ?_).mono fun _ held floor kept item member => ?_
  · intro next later held floor kept
    refine (checks next held floor).mono fun _ held' floor' seen item member => ?_
    obtain ⟨rfl,above,scaled,checked⟩ := seen
    obtain ⟨locked,state⟩ := kept item member
    refine ⟨locked,?_⟩
    rcases state with waiting | enough
    · rcases List.mem_cons.mp waiting with rfl | waiting
      · exact .inr (fits.covered (scaled _) checked)
      · exact .inl waiting
    · exact .inr (enough.trans (above _ locked))
  · intro item member
    have named : item.position ∈ items.map Item.position := List.mem_map_of_mem member
    exact ⟨locked _ named,.inl (List.mem_map.mpr ⟨_,List.mem_eraseDups.mpr named,rfl⟩)⟩
  · obtain ⟨locked,state⟩ := kept item member
    exact ⟨(positive item member).le,locked,state.resolve_left List.not_mem_nil⟩

theorem takes_sufficient {item : Item} {post : Bool → Set Position → (Position → ℚ) → Prop}
    (holds : ∀ view : Store, (∀ key ∈ held, floor key ≤ view.balance key) →
      post (decide (item.qty ≤ view.balance item.position)) held view.balance) :
    Takes (checkSufficientStock item) held floor post :=
  .bind (safe_get fun view _ above => safe_pure (holds view above))

theorem checks_stock : Checks (fun item => do
    let sufficient ← checkSufficientStock item
    require sufficient (.insufficientStock item.position.productId)) := by
  intro item held floor
  refine .bind (takes_sufficient fun view above => safe_require fun holds => ?_)
  exact ⟨rfl,above,balance_mem_grid view,by simpa using holds⟩

theorem checks_source : Checks (fun item => do
    let available ← get (·.balance item.position)
    require (item.qty ≤ available) (.insufficientAtSource item.position.productId available item.qty)) := by
  intro item held floor
  refine .bind (safe_get fun view _ above => safe_require fun holds => ?_)
  exact ⟨rfl,above,balance_mem_grid view,by simpa using holds⟩

theorem takes_setting : Takes (get Store.allowNegativeStock) held floor fun allowNegative _ _ => allowNegative = false :=
  safe_get fun _ strict _ => strict

theorem unwind_nonneg {slices : List FifoLayerConsumption} (nonneg : ∀ slice ∈ slices, 0 ≤ slice.qty) (qty : ℚ) :
    ∀ slice ∈ unwind slices qty, 0 ≤ slice.qty := by
  induction slices generalizing qty with
  | nil => simp [unwind]
  | cons slice rest induction =>
    rw [unwind]
    split
    · simp
    next some_ =>
      simp only [List.mem_cons,forall_eq_or_imp]
      refine ⟨le_min (not_le.mp some_).le (nonneg slice List.mem_cons_self),?_⟩
      exact induction (fun other member => nonneg other (List.mem_cons_of_mem _ member)) _

theorem gives_restoreFifoLayers (slices : List FifoLayerConsumption) : Gives (restoreFifoLayers slices) fun _ => True := by
  refine gives_forM fun slice _ => ?_
  split
  · exact gives_pure trivial
  · refine (gives_read _).bind fun layer _ => ?_
    cases layer with
    | none => exact gives_pure trivial
    | some layer => exact gives_updateLayer

theorem gives_restoration {r : Restoration} (nonneg : 0 ≤ r.qtyToRestore) :
    Gives (restoreSaleLineInventory r) fun _ => True := by
  have read : Gives (get (·.tracedConsumptions r.saleLineId)) fun traced => ∀ slice ∈ traced, 0 ≤ slice.qty := by
    refine gives_get _ fun view slice member => ?_
    obtain ⟨movement,_,rfl⟩ := List.mem_map.mp member
    exact abs_nonneg _
  refine read.bind fun traced given => ?_
  split
  · exact gives_newLayer nonneg
  refine (gives_read _).bind fun untraced _ => ?_
  have planned : ∀ slice ∈ planLifoRestoration traced (min r.qtyToRestore (totalQty traced)), 0 ≤ slice.qty :=
    unwind_nonneg (fun slice member => given slice (List.mem_reverse.mp member)) _
  refine (gives_restoreFifoLayers _).bind fun _ _ => (gives_forM fun slice member => ?_).bind fun _ _ => ?_
  · exact gives_movement (planned slice member)
  dsimp only
  generalize (if totalQty traced + untraced = r.saleLineQty then untraced else _) = loose
  split
  next more => exact gives_newLayer (le_min more.1.le more.2.le)
  · exact gives_pure trivial

theorem gives_restoreAll (saleId : Nat) (sale : Sale) (movementAt : Int) :
    Gives (restoreAllSaleLineInventory saleId sale movementAt) fun _ => True :=
  gives_forM fun entry _ => gives_restoration entry.1.stored.qtyPositive.le

theorem gives_voidSale (saleId : Nat) (now : Int) : Gives (voidSale saleId now) fun _ => True := by
  refine (gives_row _).bind fun sale _ => gives_require.bind fun _ _ => ?_
  refine (gives_read _).bind fun _ _ => gives_require.bind fun _ _ => ?_
  exact (gives_restoreAll saleId sale now).bind fun _ _ => gives_put (fun _ => rfl) fun _ => rfl

theorem gives_cancelSale (saleId : Nat) (now : Int) : Gives (cancelSale saleId now) fun _ => True := by
  refine (gives_row _).bind fun sale _ => gives_require.bind fun _ _ => ?_
  refine (gives_read _).bind fun _ _ => gives_require.bind fun _ _ => ?_
  dsimp only
  split
  · exact gives_put (fun _ => rfl) fun _ => rfl
  · exact (gives_restoreAll saleId sale now).bind fun _ _ => gives_put (fun _ => rfl) fun _ => rfl

theorem gives_checkReturnedSale (branchId : Nat) (saleId : Option Nat) :
    Gives (checkReturnedSale branchId saleId) fun _ => True := by
  cases saleId with
  | none => exact gives_pure trivial
  | some saleId =>
    refine (gives_row _).bind fun sale _ => gives_require.bind fun _ _ => ?_
    exact gives_require.mono fun _ _ => trivial

theorem gives_prepareLine (branchId : Nat) (pending : List ReturnLineRequest) (line : ReturnLineRequest) :
    Gives (prepareLine branchId pending line) fun prepared => prepared.request = line := by
  rw [prepareLine]
  split
  · exact gives_pure rfl
  · refine (gives_row _).bind fun original _ => gives_require.bind fun _ _ => gives_require.bind fun _ _ => ?_
    exact (gives_read _).bind fun returned _ => gives_require.bind fun _ _ => gives_pure rfl

theorem gives_prepareLines (branchId : Nat) (pending lines : List ReturnLineRequest) :
    Gives (prepareLines branchId pending lines) fun prepared => prepared.map Prepared.request = lines := by
  induction lines generalizing pending with
  | nil => exact gives_pure rfl
  | cons line rest induction =>
    refine (gives_prepareLine branchId pending line).bind fun prepared first => ?_
    refine (induction _).bind fun items others => gives_pure ?_
    rw [List.map_cons,first,others]

theorem gives_returnRestock {saleReturn : Nat} {returnedAt : Int} {entry : Prepared × Nat}
    (positive : 0 < entry.1.request.qty) : Gives (returnRestock saleReturn returnedAt entry) fun _ => True := by
  rw [returnRestock]
  split
  · exact gives_restoration positive.le
  · exact gives_fallbackCost.bind fun _ _ => gives_newLayer positive.le

theorem takes_createSaleReturn (data : CreateSaleReturnRequest) (returnedAt : Int) :
    Takes (createSaleReturn data returnedAt) held floor fun _ _ _ => True := by
  refine gives_require.andThen fun _ held floor valid => ?_
  refine (gives_read _).andThen fun existing held floor _ => gives_require.andThen fun _ held floor _ => ?_
  refine gives_require.andThen fun _ held floor _ => (gives_checkReturnedSale _ _).andThen fun _ held floor _ => ?_
  refine (gives_prepareLines _ _ _).andThen fun prepared held floor same => ?_
  have positive : ∀ item ∈ prepared, 0 < item.request.qty := by
    intro item member
    have requested : item.request ∈ data.lines := same ▸ List.mem_map_of_mem member
    simp only [CreateSaleReturnRequest.valid,ReturnLineRequest.valid,Bool.and_eq_true,List.all_eq_true,
      decide_eq_true_eq] at valid
    exact (valid.1.2 item.request requested).1.1.1
  refine .bind ((takes_locks _).mono fun _ held floor _ => gives_require.andThen fun _ held floor _ => ?_)
  refine (gives_read _).andThen fun saleReturn held floor _ => ?_
  refine Gives.andThen (gives_put (fun _ => rfl) fun _ => rfl) fun _ held floor _ => ?_
  refine (gives_forM fun entry member => gives_returnRestock (positive entry.1 ?_)).takes
  exact (List.mem_zipIdx' member).2 ▸ List.getElem_mem _

theorem gives_createPurchaseOrder (branchId : Nat) (lines : List PurchaseLineRequest) (now : Int) :
    Gives (createPurchaseOrder branchId lines now) fun _ => True := by
  refine gives_require.bind fun _ _ => (gives_read _).bind fun id _ => ?_
  refine Gives.bind (gives_put (fun _ => rfl) fun _ => rfl) fun _ _ => gives_forM fun line _ => ?_
  refine (gives_ofExcept (fun _ => True) fun _ _ => trivial).bind fun layer _ => ?_
  exact gives_put (fun _ => rfl) fun _ => rfl

theorem gives_lockOrderLines (data : CreatePurchaseReceiptRequest) : Gives (lockOrderLines data) fun _ => True :=
  gives_require.bind fun _ _ => (gives_read _).bind fun _ _ => gives_require.bind fun _ _ => gives_pure trivial

theorem gives_checkReceiptLine (hand : Held) (pending : List ReceiptLineRequest) (line : ReceiptLineRequest) :
    Gives (checkReceiptLine hand pending line) fun _ => True := by
  rw [checkReceiptLine]
  split
  · exact gives_pure trivial
  · split
    · exact gives_fail _
    · exact gives_require.bind fun _ _ => gives_require.mono fun _ _ => trivial

theorem gives_checkReceiptLines (hand : Held) (pending lines : List ReceiptLineRequest) :
    Gives (checkReceiptLines hand pending lines) fun _ => True := by
  induction lines generalizing pending with
  | nil => exact gives_pure trivial
  | cons line rest induction =>
    exact (gives_checkReceiptLine hand pending line).bind fun _ _ => induction _

theorem gives_receiveLine {data : CreatePurchaseReceiptRequest} {hand : Held} {line : ReceiptLineRequest}
    (positive : 0 < line.qtyReceived) : Gives (receiveLine data hand line) fun _ => True := by
  rw [receiveLine]
  split
  · exact (gives_newLayer positive.le).bind fun _ _ => gives_pure trivial
  · split
    · exact gives_fail _
    · dsimp only
      split
      · exact gives_updateLayer.bind fun _ _ => (gives_movement positive.le).bind fun _ _ => gives_pure trivial
      · exact gives_updateLayer.bind fun _ _ => (gives_newLayer positive.le).bind fun _ _ => gives_pure trivial

theorem gives_createPurchaseReceipt (data : CreatePurchaseReceiptRequest) :
    Gives (createPurchaseReceipt data) fun _ => True := by
  have order : Gives (checkReceivedOrder data.branchId data.purchaseOrderId) fun _ => True := by
    cases data.purchaseOrderId with
    | none => exact gives_pure trivial
    | some id =>
      refine (gives_row _).bind fun order _ => gives_require.bind fun _ _ => ?_
      exact gives_require.mono fun _ _ => trivial
  refine gives_require.bind fun _ valid => order.bind fun _ _ => (gives_lockOrderLines data).bind fun locked _ => ?_
  refine (gives_checkReceiptLines _ _ _).bind fun _ _ => ?_
  refine (gives_foldlM (fun hand line member => gives_receiveLine ?_) _).bind fun hand _ => ?_
  · simp only [CreatePurchaseReceiptRequest.valid,Bool.and_eq_true,List.all_eq_true,decide_eq_true_eq] at valid
    exact (valid.2 line member).1
  split
  · exact gives_pure trivial
  · refine (gives_read _).bind fun lines _ => ?_
    split
    · exact gives_pure trivial
    · exact gives_put (fun _ => rfl) fun _ => rfl

theorem gives_receiveStockTransfer (id : Nat) (now : Int) : Gives (receiveStockTransfer id now) fun _ => True := by
  refine (gives_row _).bind fun transfer _ => gives_require.bind fun _ _ => ?_
  refine (gives_forM fun entry _ => ?_).bind fun _ _ => gives_put (fun _ => rfl) fun _ => rfl
  refine (gives_read _).bind fun slices _ => gives_forM fun slice _ => ?_
  exact gives_newLayer (abs_nonneg _)

theorem gives_setOrder (id : Nat) (change : ProductionOrder → ProductionOrder) :
    Gives (put (setOrder id change)) fun _ => True :=
  gives_put (fun _ => rfl) fun _ => rfl

theorem takes_items {f : γ → Tx PUnit} {entries : List γ} (item : γ → Item) (known : γ → Prop)
    (round : ∀ entry rest held floor, known entry → Enough (item entry :: rest) held floor →
      Takes (f entry) held floor fun _ held floor => Enough rest held floor)
    (all : ∀ entry ∈ entries, known entry) (enough : Enough (entries.map item) held floor) :
    Takes (forM entries f) held floor fun _ _ _ => True := by
  refine (safe_forM (fun entries held floor => (∀ entry ∈ entries, known entry) ∧ Enough (entries.map item) held floor)
    ?_ ⟨all,enough⟩).mono fun _ _ _ _ => trivial
  intro entry later held floor kept
  refine (round entry _ held floor (kept.1 entry List.mem_cons_self) kept.2).mono fun _ held floor rest => ?_
  exact ⟨fun other member => kept.1 other (List.mem_cons_of_mem _ member),rest⟩

theorem takes_allocations (enough : Enough items held floor) :
    Takes (items.mapM fun item => allocateSaleLineFifo item.position item.qty) held floor fun allocations held floor =>
      List.Forall₂ (fun item allocation => Covers item.qty allocation.slices) items allocations ∧
        Enough items held floor := by
  let kept (later : List Item) (allocations : List Allocation) (held : Set Position) (floor : Position → ℚ) : Prop :=
    (∃ done, items = done ++ later ∧
      List.Forall₂ (fun item allocation => Covers item.qty allocation.slices) done allocations) ∧ Enough items held floor
  have start : kept items [] held floor := ⟨⟨[],rfl,.nil⟩,enough⟩
  refine (safe_mapM kept ?_ [] start).mono fun allocations held floor last => ?_
  · rintro item later allocations held floor ⟨⟨done,rfl,covered⟩,enough⟩
    have nonneg : 0 ≤ item.qty := (enough item (by simp)).1
    refine (gives_allocate nonneg _ _ _ enough).mono fun allocation held floor given => ⟨⟨done ++ [item],?_,?_⟩,given.2⟩
    · simp
    · exact List.rel_append covered (.cons given.1 .nil)
  · obtain ⟨⟨done,rfl,covered⟩,enough⟩ := last
    rw [List.append_nil] at enough ⊢
    exact ⟨covered,enough⟩

theorem createSale_positive {data : Refunds.CreateSaleRequest} {sale : Refunds.Sale}
    (ok : Refunds.createSale data = .ok sale) : ∀ line ∈ data.lines, 0 < line.qty := by
  intro line member
  have valid : data.valid = true := by
    obtain ⟨_,required,_⟩ := Outcome.bind_ok_iff.mp ok
    by_contra invalid
    simp [Outcome.require,invalid] at required
  simp only [Refunds.CreateSaleRequest.valid,Refunds.SaleLineRequest.valid,Bool.and_eq_true,List.all_eq_true,
    decide_eq_true_eq] at valid
  exact (valid.1.2 line member).1.1.1.1.1.1

theorem takes_createSale {data : CreateSale} (fits : Fits (data.bill.lines.map (lineItem data.bill.branchId))) :
    Takes (createSale data) held floor fun _ _ _ => True := by
  refine .bind (takes_setting.mono fun allowNegative held floor off => ?_)
  refine .bind (safe_ofExcept fun sale ok => ?_)
  have positive : ∀ item ∈ data.bill.lines.map (lineItem data.bill.branchId), 0 < item.qty := by
    intro item member
    obtain ⟨line,inside,rfl⟩ := List.mem_map.mp member
    cases billed : Refunds.createSale data.bill with
    | error refusal => simp [billed,Except.mapError] at ok
    | ok _ => exact createSale_positive billed line inside
  refine .bind ((takes_locks _).mono fun _ held floor locked => ?_)
  subst off
  refine .bind ((takes_checks checks_stock fits positive locked).mono fun _ held floor enough => ?_)
  refine .bind ((takes_allocations enough).mono fun allocations held floor given => ?_)
  obtain ⟨covered,enough⟩ := given
  refine (gives_ofExcept (fun _ => True) fun _ _ => trivial).keeping enough fun lines held floor _ enough => ?_
  refine (gives_read _).keeping enough fun saleId held floor _ enough => ?_
  refine Gives.keeping (gives_put (fun _ => rfl) fun _ => rfl) enough fun _ held floor _ enough => ?_
  refine takes_items (fun entry : (Item × Allocation) × Nat => entry.1.1)
    (fun entry => Covers entry.1.1.qty entry.1.2.slices) ?_ ?_ ?_
  · intro entry rest held floor covers enough
    exact takes_slices (enough.split covers)
  · intro entry member
    have paired := List.mem_map_of_mem (f := Prod.fst) member
    rw [List.zipIdx_map_fst] at paired
    exact (List.forall₂_iff_zip.mp covered).2 paired
  · rw [← Function.comp_def Prod.fst Prod.fst,← List.map_map,List.zipIdx_map_fst,List.map_fst_zip covered.length_eq.le]
    exact enough

theorem fits_of_stored {entries : List Item} (stored : ∀ item ∈ entries, item.qty ∈ Decimal.grid 4) : Fits entries :=
  fun item member => .inl (stored item member)

theorem gives_mutableTab (saleId : Nat) : Gives (mutableTab saleId) fun _ => True := by
  refine (gives_row _).bind fun sale _ => gives_require.bind fun _ _ => gives_require.bind fun _ _ => ?_
  exact gives_pure trivial

theorem gives_addLinesToTab (saleId : Nat) (lines : List Refunds.SaleLineRequest) :
    Gives (addLinesToTab saleId lines) fun _ => True := by
  refine gives_require.bind fun _ _ => (gives_mutableTab saleId).bind fun sale _ => ?_
  exact (gives_ofExcept (fun _ => True) fun _ _ => trivial).bind fun stored _ => gives_put (fun _ => rfl) fun _ => rfl

theorem takes_completeTab (saleId : Nat) (payments : List Pricing.Payment) (soldAt : Int) :
    Takes (completeTab saleId payments soldAt) held floor fun _ _ _ => True := by
  refine .bind (takes_setting.mono fun allowNegative held floor off => ?_)
  refine (gives_mutableTab saleId).andThen fun sale held floor _ => gives_require.andThen fun _ held floor _ => ?_
  refine (gives_ofExcept (fun _ => True) fun _ _ => trivial).andThen fun settlement held floor _ => ?_
  refine gives_require.andThen fun _ held floor _ => .bind ((takes_locks _).mono fun _ held floor locked => ?_)
  have fits : Fits (sale.lines.map (·.item sale.branchId)) := by
    refine fits_of_stored fun item member => ?_
    obtain ⟨line,_,rfl⟩ := List.mem_map.mp member
    exact line.qtyScaled
  have positive : ∀ item ∈ sale.lines.map (·.item sale.branchId), 0 < item.qty := by
    intro item member
    obtain ⟨line,_,rfl⟩ := List.mem_map.mp member
    exact line.stored.qtyPositive
  subst off
  refine .bind ((takes_checks checks_stock fits positive locked).mono fun _ held floor enough => ?_)
  refine .bind ((takes_items Prod.fst (fun _ => True) ?_ (fun _ _ => trivial) ?_).mono fun _ held floor _ => ?_)
  · intro entry rest held floor _ enough
    have nonneg : 0 ≤ entry.1.qty := (enough _ List.mem_cons_self).1
    refine .bind ((gives_allocate nonneg _ _ _ enough).mono fun allocation held floor given => ?_)
    refine Gives.keeping (gives_put (fun _ => rfl) fun _ => rfl) given.2 fun _ held floor _ enough => ?_
    exact takes_slices (enough.split given.1)
  · rw [List.zipIdx_map_fst]
    exact enough
  · exact Gives.takes (gives_put (fun _ => rfl) fun _ => rfl)

/-- What a layer that holds more decimals than its columns may cost on top when it is emptied. -/
def slack (left : ℚ) : ℚ := if left ∈ Decimal.grid 4 then 0 else Decimal.unit 4

theorem slack_nonneg (left : ℚ) : 0 ≤ slack left := by
  unfold slack
  split
  · exact le_rfl
  · exact (Decimal.unit_pos 4).le

theorem take_slack {qty left : ℚ} (holds : 0 ≤ left) :
    round4 (min qty left) + round4 (qty - min qty left) ≤ round4 qty + slack left ∧
      (qty ∈ Decimal.grid 4 →
        round4 (min qty left) + round4 (qty - min qty left) + slack (left - min qty left) ≤ round4 qty + slack left) := by
  have zero : round4 0 = 0 := Decimal.quantize_of_mem_grid (zero_mem _)
  rcases le_total qty left with within | beyond
  · rw [min_eq_left within,sub_self,zero,add_zero]
    refine ⟨le_add_of_nonneg_right (slack_nonneg left),fun scaled => ?_⟩
    have same : left - qty ∈ Decimal.grid 4 ↔ left ∈ Decimal.grid 4 :=
      ⟨fun inside => by simpa using add_mem inside scaled,fun inside => sub_mem inside scaled⟩
    simp only [slack,same,le_refl]
  · have parts : round4 left + round4 (qty - left) ≤ round4 qty + slack left := by
      unfold slack
      split
      next inside =>
        have whole : round4 (qty - left) + left = round4 qty := Decimal.quantize_sub_add inside holds beyond
        have exact_ : round4 left = left := Decimal.quantize_of_mem_grid inside
        linarith
      · have sum := Decimal.quantize_add_le (p := 4) holds (sub_nonneg.mpr beyond)
        rwa [add_sub_cancel] at sum
    have nothing : slack 0 = 0 := if_pos (zero_mem _)
    rw [min_eq_right beyond,sub_self,nothing,add_zero]
    exact ⟨parts,fun _ => parts⟩

def drawnFrom (id : Nat) (slices : List FifoLayerConsumption) : ℚ :=
  tally FifoLayerConsumption.purchaseLineId FifoLayerConsumption.qty (some id) slices

/-- What is taken in slices while a layer that holds so much is at hand. -/
structure Spends (id : Nat) (left qty : ℚ) (slices : List FifoLayerConsumption) (short : ℚ) : Prop where
  least : 0 ≤ short
  nonneg : ∀ slice ∈ slices, 0 ≤ slice.qty
  within : drawnFrom id slices ≤ left
  covers : (slices.map fun slice => round4 slice.qty).sum + round4 short ≤ round4 qty + slack left
  kept : qty ∈ Decimal.grid 4 →
    (slices.map fun slice => round4 slice.qty).sum + round4 short + slack (left - drawnFrom id slices) ≤ round4 qty + slack left

theorem Spends.nothing {id : Nat} {left qty : ℚ} (holds : 0 ≤ left) (nonneg : 0 ≤ qty) : Spends id left qty [] qty := by
  refine ⟨nonneg,by simp,by simpa [drawnFrom] using holds,?_,fun _ => ?_⟩
  · simpa using slack_nonneg left
  · simp [drawnFrom]

theorem Spends.own {id : Nat} {left qty short cost : ℚ} {slices : List FifoLayerConsumption} (holds : 0 ≤ left) (nonneg : 0 ≤ qty)
    (least : 0 ≤ short) (later : ∀ slice ∈ slices, 0 ≤ slice.qty) (elsewhere : drawnFrom id slices = 0)
    (sum : (slices.map fun slice => round4 slice.qty).sum + round4 short = round4 (qty - min qty left)) :
    Spends id left qty (⟨some id,min qty left,cost⟩ :: slices) short := by
  have drawn : drawnFrom id (⟨some id,min qty left,cost⟩ :: slices) = min qty left := by
    rw [drawnFrom,tally_cons,if_pos rfl,← drawnFrom,elsewhere,add_zero]
  obtain ⟨covers,kept⟩ := @take_slack qty left holds
  refine ⟨least,List.forall_mem_cons.mpr ⟨le_min nonneg holds,later⟩,?_,?_,fun scaled => ?_⟩
  · rw [drawn]
    exact min_le_right _ _
  · rw [List.map_cons,List.sum_cons,add_assoc,sum]
    exact covers
  · rw [List.map_cons,List.sum_cons,drawn]
    linarith only [kept scaled,sum]

theorem Spends.other {id other : Nat} {left qty short cost stock : ℚ} {slices : List FifoLayerConsumption} (apart : id ≠ other)
    (nonneg : 0 ≤ qty) (filled : 0 < stock) (scaled : stock ∈ Decimal.grid 4)
    (spends : Spends id left (qty - min qty stock) slices short) : Spends id left qty (⟨some other,min qty stock,cost⟩ :: slices) short := by
  have stored : slack stock = 0 := if_pos scaled
  have rounded := (@take_slack qty stock filled.le).1
  rw [stored,add_zero] at rounded
  have drawn : drawnFrom id (⟨some other,min qty stock,cost⟩ :: slices) = drawnFrom id slices := by
    rw [drawnFrom,tally_cons,if_neg fun named => apart (Option.some.inj named).symm,zero_add,drawnFrom]
  refine ⟨spends.least,List.forall_mem_cons.mpr ⟨le_min nonneg filled.le,spends.nonneg⟩,?_,?_,fun inside => ?_⟩
  · rw [drawn]
    exact spends.within
  · rw [List.map_cons,List.sum_cons]
    linarith only [spends.covers,rounded]
  · have part : qty - min qty stock ∈ Decimal.grid 4 := by
      rcases min_choice qty stock with whole | whole
      · rw [whole,sub_self]
        exact zero_mem _
      · rw [whole]
        exact sub_mem inside scaled
    rw [List.map_cons,List.sum_cons,drawn]
    linarith only [spends.kept part,rounded]

theorem gives_takeAtHand {id : Nat} {row : LayerRow} {layers : List (PurchaseLine × Nat)} (holds : 0 ≤ row.qtyRemaining)
    {qty : ℚ} (nonneg : 0 ≤ qty) (filled : ∀ entry ∈ layers, 0 < entry.1.val.qtyRemaining) (distinct : (layers.map Prod.snd).Nodup) :
    Gives (takeFromHeld [(id,row)] layers qty) fun taken => Spends id row.qtyRemaining qty taken.1 taken.2 := by
  induction layers generalizing qty with
  | nil => exact gives_pure (.nothing holds nonneg)
  | cons entry rest induction =>
    obtain ⟨layer,other⟩ := entry
    obtain ⟨fresh,distinct⟩ := List.nodup_cons.mp distinct
    obtain ⟨positive,stocked⟩ := List.forall_mem_cons.mp filled
    rw [takeFromHeld]
    split
    · exact gives_pure (.nothing holds nonneg)
    refine gives_updateLayer.bind fun _ _ => ?_
    have left (stock : ℚ) : 0 ≤ qty - min qty stock := sub_nonneg.mpr (min_le_left _ _)
    by_cases same : id = other
    · subst same
      have read : Held.read [(id,row)] (layer,id) = row := by simp [Held.read,Held.row]
      rw [read]
      -- the layers after it are read from the database
      have absent : ∀ entry ∈ rest, Held.row [(id,row)] entry.2 = none := by
        intro entry member
        have apart : id ≠ entry.2 := fun same => fresh (List.mem_map.mpr ⟨entry,member,same.symm⟩)
        simp [Held.row,apart]
      refine (@gives_takeFromHeld _ rest _ (left _) stocked absent).bind fun taken given => ?_
      obtain ⟨short,slices,sum⟩ := given
      have elsewhere : drawnFrom id taken.1 = 0 := by
        refine tally_eq_zero fun slice member => ?_
        obtain ⟨_,entry,inside,named⟩ := slices slice member
        rw [named]
        exact fun same => fresh (List.mem_map.mpr ⟨entry,inside,Option.some.inj same⟩)
      exact gives_pure (.own holds nonneg short (fun slice member => (slices slice member).1.le) elsewhere sum)
    · have read : Held.read [(id,row)] (layer,other) = layer.val := by simp [Held.read,Held.row,same]
      rw [read]
      refine (induction (left _) stocked distinct).bind fun taken spends => ?_
      exact gives_pure (.other same nonneg positive layer.2.remainingScaled spends)

theorem gives_allocateAtHand {id : Nat} {row : LayerRow} {qty : ℚ} (holds : 0 ≤ row.qtyRemaining) (nonneg : 0 ≤ qty) :
    Gives (allocateHeldLayers [(id,row)] row.position qty) fun allocation =>
      Spends id row.qtyRemaining qty allocation.slices 0 := by
  have near : Held.at [(id,row)] row.position = [(id,row)] := by simp [Held.at]
  have consumed : Gives (consumeHeldLayers [(id,row)] row.position qty) fun taken =>
      Spends id row.qtyRemaining qty taken.1 taken.2 := by
    rw [consumeHeldLayers,near]
    split
    next nothing =>
      have zero : qty = 0 := nothing.antisymm nonneg
      subst zero
      exact gives_pure (.nothing holds le_rfl)
    · refine (gives_get (fun layers : List (PurchaseLine × Nat) => (∀ entry ∈ layers, 0 < entry.1.val.qtyRemaining) ∧
        (layers.map Prod.snd).Nodup) fun view => ⟨fifoLayers_filled view _,?_⟩).bind
        fun layers given => gives_takeAtHand holds nonneg given.1 given.2
      exact fifoLayers_distinct view _
  refine consumed.bind fun taken spends => ?_
  obtain ⟨slices,short⟩ := taken
  have zero : round4 0 = 0 := Decimal.quantize_of_mem_grid (zero_mem _)
  dsimp only at spends ⊢
  split
  next some_ =>
    refine gives_fallbackCost.bind fun fallback _ => gives_pure ?_
    have drawn : drawnFrom id (slices ++ [⟨none,short,fallback⟩]) = drawnFrom id slices := by
      rw [drawnFrom,tally_append,tally_singleton,if_neg (by simp),add_zero,drawnFrom]
    refine ⟨le_rfl,List.forall_mem_append.mpr ⟨spends.nonneg,List.forall_mem_singleton.mpr some_.le⟩,?_,?_,fun scaled => ?_⟩
    · rw [drawn]
      exact spends.within
    · rw [List.map_append,List.sum_append,List.map_singleton,List.sum_singleton,zero,add_zero]
      exact spends.covers
    · rw [List.map_append,List.sum_append,List.map_singleton,List.sum_singleton,zero,add_zero,drawn]
      exact spends.kept scaled
  next covered =>
    have nothing : short = 0 := le_antisymm (not_lt.mp covered) spends.least
    subst nothing
    exact gives_pure spends

/-- What the layer at hand may cost on top is put aside while it may still be emptied. -/
def aside (row : LayerRow) (items : List Item) : List Item :=
  if ∃ item ∈ items, item.position = row.position then [⟨row.position,slack row.qtyRemaining⟩] else []

def taken (branchId : Nat) (lines : List AdjustmentLineRequest) : List Item :=
  (lines.filter (·.qtyDelta < 0)).map (·.item branchId)

theorem Fits.later {item : Item} (fits : Fits (item :: rest)) : Fits rest := by
  intro other member
  refine (fits other (List.mem_cons_of_mem _ member)).imp_right fun alone => ?_
  have inside : other ∈ rest.filter (·.position = other.position) := List.mem_filter.mpr ⟨member,by simp⟩
  have some_ : 0 < (rest.filter (·.position = other.position)).length := List.length_pos_of_mem inside
  have fewer := ((List.sublist_cons_self item rest).filter (·.position = other.position)).length_le
  omega

theorem Fits.scaled {item other : Item} (fits : Fits (item :: rest)) (later : other ∈ rest)
    (same : other.position = item.position) : item.qty ∈ Decimal.grid 4 := by
  refine (fits item List.mem_cons_self).resolve_right fun alone => ?_
  have inside : other ∈ rest.filter (·.position = item.position) := List.mem_filter.mpr ⟨later,by simpa using same⟩
  have some_ : 0 < (rest.filter (·.position = item.position)).length := List.length_pos_of_mem inside
  rw [List.filter_cons_of_pos (by simp)] at alone
  simp only [List.length_cons] at alone
  omega

theorem slack_mem_grid (left : ℚ) : slack left ∈ Decimal.grid 4 := by
  unfold slack
  split
  · exact zero_mem _
  · exact Decimal.unit_mem_grid 4

theorem mem_aside {row : LayerRow} {item : Item} (member : item ∈ aside row items) :
    item = ⟨row.position,slack row.qtyRemaining⟩ ∧ ∃ other ∈ items, other.position = row.position := by
  unfold aside at member
  split at member
  next some_ => exact ⟨List.mem_singleton.mp member,some_⟩
  next => cases member

theorem need_aside (row : LayerRow) (items : List Item) (position : Position) :
    need (aside row items) position =
      if row.position = position ∧ ∃ item ∈ items, item.position = row.position then slack row.qtyRemaining else 0 := by
  unfold aside
  by_cases some_ : ∃ item ∈ items, item.position = row.position
  · rw [if_pos some_,need,tally_singleton]
    by_cases here : row.position = position
    · rw [if_pos here,if_pos ⟨here,some_⟩]
      exact Decimal.quantize_of_mem_grid (slack_mem_grid _)
    · rw [if_neg here,if_neg fun both => here both.1]
  · rw [if_neg some_,if_neg fun both => some_ both.2]
    rfl

/-- There is enough for the items and for what the layer at hand may cost on top. -/
def Keeps (hand : Held) (items : List Item) (held : Set Position) (floor : Position → ℚ) : Prop :=
  (hand = [] ∧ Enough items held floor) ∨
    ∃ id row, hand = [(id,row)] ∧ 0 ≤ row.qtyRemaining ∧ Enough (aside row items ++ items) held floor

theorem Keeps.enough {hand : Held} (keeps : Keeps hand items held floor) : Enough items held floor := by
  obtain ⟨_,enough⟩ | ⟨id,row,_,_,enough⟩ := keeps
  · exact enough
  · refine enough.trade (fun item member => (enough item (List.mem_append_right _ member)).1)
      (fun item member => List.mem_map_of_mem (List.mem_append_right _ member)) fun item member => ?_
    rw [need_append,need_aside]
    split
    · exact le_add_of_nonneg_left (slack_nonneg _)
    · exact (zero_add _).ge

/-- A layer that was stored fills at least what it may cost on top. -/
theorem Keeps.opened {id : Nat} {row : LayerRow} {higher : Position → ℚ} (enough : Enough items held floor)
    (holds : 0 ≤ row.qtyRemaining) (stored : round4 row.qtyRemaining ≠ 0)
    (filled : ∀ key ∈ held, floor key + (if row.position = key then round4 row.qtyRemaining else 0) ≤ higher key) :
    Keeps [(id,row)] items held higher := by
  have covered : slack row.qtyRemaining ≤ round4 row.qtyRemaining := by
    unfold slack
    split
    · exact round4_nonneg holds
    · exact Decimal.unit_le (Decimal.quantize_mem_grid 4 _) (lt_of_le_of_ne (round4_nonneg holds) (Ne.symm stored))
  refine .inr ⟨id,row,rfl,holds,fun item member => ?_⟩
  have known : 0 ≤ item.qty ∧ ∃ other ∈ items, other.position = item.position := by
    rcases List.mem_append.mp member with extra | inside
    · obtain ⟨rfl,some_⟩ := mem_aside extra
      exact ⟨slack_nonneg _,some_⟩
    · exact ⟨(enough item inside).1,item,inside,rfl⟩
  obtain ⟨nonneg,other,inside,same⟩ := known
  obtain ⟨_,locked,least⟩ := enough other inside
  rw [same] at locked least
  refine ⟨nonneg,locked,le_trans ?_ (filled _ locked)⟩
  rw [need_append,need_aside]
  by_cases here : row.position = item.position
  · have positive : 0 ≤ round4 row.qtyRemaining := round4_nonneg holds
    rw [if_pos here]
    split <;> linarith
  · rw [if_neg here,if_neg fun both => here both.1]
    linarith

theorem takes_opened {id : Nat} {item : Item} {cost : ℚ} {createdAt : Int} {row : MovementRow}
    (enough : Enough items held floor) (positive : 0 < item.qty) (same : row.position = item.position)
    (into : row.qty = item.qty) :
    Takes (createStockMovement row) held floor fun _ held floor => Keeps [(id,newLayer item cost createdAt)] items held floor := by
  refine .bind (safe_ofExcept fun movement stored => ?_)
  have columns : movement.val.position = item.position ∧ movement.val.qty = round4 item.qty := by
    rw [MovementRow.store] at stored
    split at stored
    · cases stored
      exact ⟨same,congrArg round4 into⟩
    · cases stored
  have nonneg : 0 ≤ round4 item.qty := round4_nonneg positive.le
  refine ⟨_,⟨fun _ strict => strict,fun s key => balance_movement s movement key⟩,fun key => .inl ?_,?_⟩
  · split
    · exact columns.2 ▸ nonneg
    · exact le_rfl
  · refine Keeps.opened enough positive.le (columns.2 ▸ movement.2.nonzero) fun key _ => ?_
    rw [columns.1,columns.2]
    exact le_rfl

theorem Keeps.drawn {item : Item} {id : Nat} {row : LayerRow} {slices : List FifoLayerConsumption} (fits : Fits (item :: rest))
    (here : row.position = item.position) (enough : Enough (aside row (item :: rest) ++ item :: rest) held floor)
    (spends : Spends id row.qtyRemaining item.qty slices 0) :
    Enough (slices.map (sliceItem item.position) ++
      (aside { row with qtyRemaining := row.qtyRemaining - drawnFrom id slices } rest ++ rest)) held floor := by
  have zero : round4 0 = 0 := Decimal.quantize_of_mem_grid (zero_mem _)
  have first : ∃ other ∈ item :: rest, other.position = row.position := ⟨item,List.mem_cons_self,here.symm⟩
  refine enough.trade (fun other member => ?_) (fun other member => ?_) fun other _ => ?_
  · simp only [List.mem_append,List.mem_map] at member
    obtain ⟨slice,inside,rfl⟩ | extra | later := member
    · exact spends.nonneg slice inside
    · exact (mem_aside extra).1 ▸ slack_nonneg _
    · exact (enough other (List.mem_append_right _ (List.mem_cons_of_mem _ later))).1
  · rw [List.map_append,List.mem_append]
    simp only [List.mem_append,List.mem_map] at member
    obtain ⟨slice,inside,rfl⟩ | extra | later := member
    · exact .inr List.mem_cons_self
    · rw [(mem_aside extra).1]
      exact .inr (List.mem_map.mpr ⟨item,List.mem_cons_self,here.symm⟩)
    · exact .inr (List.mem_map_of_mem (List.mem_cons_of_mem _ later))
  · rw [need_append,need_append,need_append,need_slices,need_cons,need_aside,need_aside row]
    by_cases at_ : item.position = other.position
    · rw [if_pos at_,if_pos at_,@if_pos (row.position = other.position ∧ _) _ ⟨here.trans at_,first⟩]
      split
      next again =>
        obtain ⟨_,later,inside,same⟩ := again
        have kept := spends.kept (fits.scaled inside (same.trans here))
        rw [zero] at kept
        dsimp only
        linarith
      · have covers := spends.covers
        rw [zero] at covers
        linarith
    · have apart : row.position ≠ other.position := fun same => at_ (here.symm.trans same)
      rw [if_neg at_,if_neg at_,if_neg fun both => apart both.1,if_neg fun both => apart both.1]

theorem Keeps.elsewhere {item : Item} {row : LayerRow} {slices : List FifoLayerConsumption}
    (away : row.position ≠ item.position) (enough : Enough (aside row (item :: rest) ++ item :: rest) held floor)
    (covers : Covers item.qty slices) : Enough (slices.map (sliceItem item.position) ++ (aside row rest ++ rest)) held floor := by
  have same : aside row (item :: rest) = aside row rest := by
    have apart : ¬ item.position = row.position := fun same => away same.symm
    simp only [aside,List.exists_mem_cons_iff,apart,false_or]
  rw [same] at enough
  have moved : Enough (item :: (aside row rest ++ rest)) held floor := by
    intro other member
    have known : other ∈ aside row rest ++ item :: rest := by
      simp only [List.mem_append,List.mem_cons] at member ⊢
      tauto
    obtain ⟨nonneg,locked,covered⟩ := enough other known
    refine ⟨nonneg,locked,?_⟩
    rw [need_append,need_cons] at covered
    rw [need_cons,need_append]
    linarith
  exact moved.split covers

theorem takes_outgoing {item : Item} {hand : Held} {adjustedAt : Int} (fits : Fits (item :: rest))
    (keeps : Keeps hand (item :: rest) held floor) :
    Takes (consumeHeldToMovements hand item .adjustmentOut .stockAdjustmentLine adjustedAt) held floor
      fun allocation held floor => Keeps (hand.without item.position allocation.slices) rest held floor := by
  obtain ⟨rfl,enough⟩ | ⟨id,row,rfl,holds,enough⟩ := keeps
  · exact (takes_item enough).mono fun _ _ _ later => .inl ⟨rfl,later⟩
  have nonneg : 0 ≤ item.qty := (enough item (by simp)).1
  by_cases here : row.position = item.position
  · have first : Gives (allocateHeldLayers [(id,row)] item.position item.qty) fun allocation =>
        Spends id row.qtyRemaining item.qty allocation.slices 0 := here ▸ gives_allocateAtHand holds nonneg
    refine .bind ((first _ _ _ enough).mono fun allocation held floor given => .bind ?_)
    refine (takes_slices (Keeps.drawn fits here given.2 given.1)).mono fun _ _ _ later => safe_pure (.inr ?_)
    refine ⟨id,{ row with qtyRemaining := row.qtyRemaining - drawnFrom id allocation.slices },?_,?_,later⟩
    · simp [Held.without,here,drawnFrom]
    · exact sub_nonneg.mpr given.1.within
  · have away : Held.at [(id,row)] item.position = [] := by simp [Held.at,here]
    refine .bind ((gives_allocateHeld nonneg away _ _ _ enough).mono fun allocation held floor given => .bind ?_)
    refine (takes_slices (Keeps.elsewhere here given.2 given.1)).mono fun _ _ _ later => safe_pure (.inr ?_)
    exact ⟨id,row,by simp [Held.without,here],holds,later⟩

theorem takes_adjustLine {branchId : Nat} {openingBalance : Bool} {adjustedAt : Int} {hand : Held}
    {line : AdjustmentLineRequest} {later : List AdjustmentLineRequest} (nonzero : line.qtyDelta ≠ 0)
    (fits : Fits (taken branchId (line :: later))) (keeps : Keeps hand (taken branchId (line :: later)) held floor) :
    Takes (adjustLine branchId openingBalance adjustedAt hand line) held floor
      fun hand held floor => Keeps hand (taken branchId later) held floor := by
  rw [adjustLine]
  split
  next into =>
    have same : taken branchId (line :: later) = taken branchId later := by simp [taken,not_lt.mpr into.le]
    rw [same] at keeps
    have cost : Gives (adjustmentCost openingBalance line (line.item branchId).position) fun _ => True := by
      unfold adjustmentCost
      split
      · exact gives_pure trivial
      · exact gives_fallbackCost
    refine cost.keeping keeps.enough fun cost held floor _ enough => ?_
    refine (gives_newLayerRow _ _ _).keeping enough fun id held floor _ enough => ?_
    refine .bind ((takes_opened enough (abs_pos.mpr nonzero) rfl rfl).mono fun _ _ _ given => safe_pure given)
  next out =>
    have negative : line.qtyDelta < 0 := lt_of_le_of_ne (not_lt.mp out) nonzero
    have same : taken branchId (line :: later) = line.item branchId :: taken branchId later := by simp [taken,negative]
    rw [same] at keeps fits
    exact .bind ((takes_outgoing fits keeps).mono fun _ _ _ rest => safe_pure rest)

theorem takes_createStockAdjustment {branchId : Nat} {openingBalance : Bool} {lines : List AdjustmentLineRequest}
    {adjustedAt : Int} (fits : Fits (taken branchId lines)) :
    Takes (createStockAdjustment branchId openingBalance lines adjustedAt) held floor fun _ _ _ => True := by
  refine gives_require.andThen fun _ held floor valid => .bind (takes_setting.mono fun allowNegative held floor off => ?_)
  refine .bind ((takes_locks _).mono fun _ held floor locked => ?_)
  subst off
  have positive : ∀ item ∈ taken branchId lines, 0 < item.qty := by
    intro item member
    obtain ⟨line,inside,rfl⟩ := List.mem_map.mp member
    have negative : line.qtyDelta < 0 := by simpa using (List.mem_filter.mp inside).2
    exact abs_pos.mpr negative.ne
  have all : ∀ position ∈ (taken branchId lines).map Item.position, position ∈ held := by
    intro position member
    obtain ⟨item,inside,rfl⟩ := List.mem_map.mp member
    obtain ⟨line,filtered,rfl⟩ := List.mem_map.mp inside
    exact locked _ (List.mem_map.mpr ⟨line,(List.mem_filter.mp filtered).1,rfl⟩)
  refine .bind ((takes_checks checks_stock fits positive all).mono fun _ held floor enough => ?_)
  have nonzero : ∀ line ∈ lines, line.qtyDelta ≠ 0 := by
    intro line member
    simp only [Bool.and_eq_true,List.all_eq_true,decide_eq_true_eq] at valid
    exact (valid.2 line member).1
  refine .bind ((safe_foldlM (fun lines hand held floor => ((∀ line ∈ lines, line.qtyDelta ≠ 0) ∧ Fits (taken branchId lines)) ∧
    Keeps hand (taken branchId lines) held floor) ?_ ⟨⟨nonzero,fits⟩,.inl ⟨rfl,enough⟩⟩).mono fun _ _ _ _ => safe_pure trivial)
  intro line later hand held floor kept
  obtain ⟨⟨nonzero,fits⟩,keeps⟩ := kept
  refine (takes_adjustLine (nonzero line List.mem_cons_self) fits keeps).mono fun _ _ _ rest => ⟨⟨?_,?_⟩,rest⟩
  · exact fun other member => nonzero other (List.mem_cons_of_mem _ member)
  · by_cases out : line.qtyDelta < 0
    · rw [taken,List.filter_cons_of_pos (by simpa using out)] at fits
      exact fits.later
    · rwa [taken,List.filter_cons_of_neg (by simpa using out)] at fits

theorem positive_items {lines : List ItemRequest} (positive : lines.all (0 < ·.qty) = true) (branchId : Nat) :
    ∀ item ∈ lines.map (·.item branchId), 0 < item.qty := by
  intro item member
  obtain ⟨line,inside,rfl⟩ := List.mem_map.mp member
  have asked : 0 < line.qty := by simpa using List.all_eq_true.mp positive line inside
  exact asked

theorem takes_createWasteEntry {branchId : Nat} {lines : List ItemRequest} {wastedAt : Int}
    (fits : Fits (lines.map (·.item branchId))) :
    Takes (createWasteEntry branchId lines wastedAt) held floor fun _ _ _ => True := by
  refine gives_require.andThen fun _ held floor valid => .bind (takes_setting.mono fun allowNegative held floor off => ?_)
  rw [Bool.and_eq_true] at valid
  refine .bind ((takes_locks _).mono fun _ held floor locked => ?_)
  subst off
  refine .bind ((takes_checks checks_stock fits (positive_items valid.2 branchId) locked).mono
    fun _ held floor enough => ?_)
  refine takes_items id (fun _ => True) ?_ (fun _ _ => trivial) ?_
  · intro item rest held floor _ enough
    exact .bind ((takes_item enough).mono fun _ _ _ rest => safe_pure rest)
  · rw [List.map_id]
    exact enough

theorem takes_createStockTransfer {source dest : Nat} {lines : List ItemRequest} {now : Int}
    (fits : Fits (lines.map (·.item source))) :
    Takes (createStockTransfer source dest lines now) held floor fun _ _ _ => True := by
  refine gives_require.andThen fun _ held floor valid => ?_
  rw [Bool.and_eq_true] at valid
  refine .bind ((takes_locks _).mono fun _ held floor locked => ?_)
  refine .bind ((takes_checks checks_source fits (positive_items valid.2 source) locked).mono
    fun _ held floor enough => ?_)
  refine (gives_ofExcept (fun _ => True) fun _ _ => trivial).keeping enough fun stored held floor _ enough => ?_
  refine (gives_read _).keeping enough fun id held floor _ enough => ?_
  refine Gives.keeping (gives_put (fun _ => rfl) fun _ => rfl) enough fun _ held floor _ enough => ?_
  refine takes_items Prod.fst (fun _ => True) ?_ (fun _ _ => trivial) ?_
  · intro entry rest held floor _ enough
    exact .bind ((takes_item enough).mono fun _ _ _ rest => safe_pure rest)
  · rw [List.zipIdx_map_fst]
    exact enough

theorem takes_ingredient {item : Item} {allowNegative : Bool} {movementAt : Int} (off : allowNegative = false)
    (positive : 0 < item.qty) :
    Takes (consumeIngredientFifo item allowNegative movementAt) held floor fun _ _ _ => True := by
  refine .bind ((takes_locks _).mono fun _ held floor locked => ?_)
  subst off
  refine .bind (takes_sufficient fun view above => ?_)
  refine .bind (safe_require fun sufficient => ?_)
  have alone : tally Item.position Item.qty item.position [item] ≤ view.balance item.position := by
    rw [tally_singleton,if_pos rfl]
    simpa using sufficient
  have enough : Enough [item] held view.balance := by
    simp only [Enough,List.mem_singleton,forall_eq]
    refine ⟨positive.le,locked _ (List.mem_singleton.mpr rfl),?_⟩
    exact Fits.covered (by simp [Fits]) (balance_mem_grid view _) alone
  exact .bind ((takes_item enough).mono fun _ _ _ _ => safe_pure trivial)

theorem takes_completeProductionOrder (id : Nat) (qtyProduced : ℚ) (now : Int) :
    Takes (completeProductionOrder id qtyProduced now) held floor fun _ _ _ => True := by
  refine gives_require.andThen fun _ held floor valid => (gives_row _).andThen fun order held floor _ => ?_
  refine gives_require.andThen fun _ held floor _ => gives_require.andThen fun _ held floor _ => ?_
  refine (gives_row _).andThen fun bom held floor _ => gives_require.andThen fun _ held floor _ => ?_
  refine .bind (takes_setting.mono fun allowNegative held floor off => ?_)
  let kept (_ : List BomLine) (_ : List ℚ) (_ : Set Position) (_ : Position → ℚ) : Prop := True
  have start : kept bom.lines [] held floor := trivial
  refine .bind ((safe_mapM kept ?_ [] start).mono fun costs held floor _ => ?_)
  · intro line later costs held floor _
    dsimp only
    split
    · exact safe_pure trivial
    next some_ => exact takes_ingredient off (not_le.mp some_)
  have produced : 0 ≤ qtyProduced := by
    simp only [decide_eq_true_eq] at valid
    exact valid.le
  exact ((gives_newLayer produced).bind fun _ _ => gives_setOrder _ _).takes

/-- Of a request that takes stock: a quantity with more than four decimals is alone at its position. -/
def WithinColumns : Request → Prop
  | .createSale data => Fits (data.bill.lines.map (lineItem data.bill.branchId))
  | .createStockAdjustment branchId _ lines _ => Fits (taken branchId lines)
  | .createWasteEntry branchId lines _ => Fits (lines.map (·.item branchId))
  | .createStockTransfer source _ lines _ => Fits (lines.map (·.item source))
  | _ => True

theorem request_takes {request : Request} (within : WithinColumns request) :
    Takes request.program ∅ (fun _ => 0) fun _ _ _ => True := by
  cases request with
  | createSale data => exact takes_createSale within
  | openTab branchId => exact Gives.takes (gives_put (fun _ => rfl) fun _ => rfl)
  | addLinesToTab saleId lines => exact (gives_addLinesToTab saleId lines).takes
  | completeTab saleId payments soldAt => exact takes_completeTab saleId payments soldAt
  | createSaleReturn data returnedAt => exact takes_createSaleReturn data returnedAt
  | voidSale saleId now => exact (gives_voidSale saleId now).takes
  | cancelSale saleId now => exact (gives_cancelSale saleId now).takes
  | createPurchaseOrder branchId lines now => exact (gives_createPurchaseOrder branchId lines now).takes
  | updatePurchaseOrderStatus id target =>
    refine ((gives_row _).bind fun _ _ => gives_require.bind fun _ _ => ?_).takes
    exact gives_put (fun _ => rfl) fun _ => rfl
  | createPurchaseReceipt data => exact (gives_createPurchaseReceipt data).takes
  | createStockAdjustment branchId openingBalance lines adjustedAt => exact takes_createStockAdjustment within
  | createWasteEntry branchId lines wastedAt => exact takes_createWasteEntry within
  | createStockTransfer source dest lines now => exact takes_createStockTransfer within
  | receiveStockTransfer id now => exact (gives_receiveStockTransfer id now).takes
  | createProductionOrder branchId bom qty =>
    refine (gives_require.bind fun _ _ => (gives_row _).bind fun _ _ => ?_).takes
    exact gives_put (fun _ => rfl) fun _ => rfl
  | startProductionOrder id =>
    exact ((gives_row _).bind fun _ _ => gives_require.bind fun _ _ => gives_setOrder _ _).takes
  | cancelProductionOrder id =>
    exact ((gives_row _).bind fun _ _ => gives_require.bind fun _ _ => gives_setOrder _ _).takes
  | completeProductionOrder id qtyProduced now => exact takes_completeProductionOrder id qtyProduced now

/-- What a statement sees: the movements and the setting as they are. Other rows may be older or newer: the locks on
rows are not followed here. -/
def Sees (exact_ view : Store) : Prop :=
  view.movements = exact_.movements ∧ view.allowNegativeStock = exact_.allowNegativeStock

abbrev World := State Store Position Refusal

def Step : World → Label Store Request → World → Prop := Interleaving.Step Sees Request.program

/-- Requests that are started keep within the columns. -/
def Admitted (_ : World) : Label Store Request → Prop
  | .start _ request => WithinColumns request
  | _ => True

theorem invariant_step {s s' : World} {label : Label Store Request} (invariant : Invariant Store.balance Strict s)
    (taken : Restricted Admitted Step s label s') : Invariant Store.balance Strict s' := by
  obtain ⟨admitted,taken⟩ := taken
  refine Invariant.step (fun exact_ view strict seen => ⟨seen.2.trans strict,fun position => ?_⟩) ?_ invariant taken
  · rw [Store.balance,seen.1,Store.balance]
  · intro t request same
    subst same
    exact request_takes admitted

theorem never_oversold {s s' : World} {labels : List (Label Store Request)} (fresh : Fresh s)
    (strict : s.committed.allowNegativeStock = false) (stocked : ∀ position, 0 ≤ s.committed.balance position)
    (run : Run (Restricted Admitted Step) s labels s') (position : Position) : 0 ≤ s'.committed.balance position := by
  have kept : Invariant Store.balance Strict s' :=
    run.invariant (fun _ _ _ kept taken => invariant_step kept taken) (.initial fresh strict stocked)
  exact kept.nonneg position

private def shelf : Position := ⟨1,5,none⟩

/-- One unit on the shelf, in one layer. -/
private def stocked : World where
  committed :=
    { allowNegativeStock := false
      layers := [⟨⟨none,shelf,1,1,1,1,0⟩,by decide +kernel⟩]
      movements := [⟨⟨shelf,.purchase,1,1,.purchaseReceiptLine,some 0,0,none⟩,by decide +kernel⟩]
      sales := []
      returns := []
      transfers := []
      boms := []
      productionOrders := []
      purchaseOrders := [] }
  locks := []
  sessions := fun _ => none

private theorem stocked_fresh : Fresh stocked := ⟨rfl,fun _ => rfl⟩

private theorem stocked_nonneg (position : Position) : 0 ≤ stocked.committed.balance position := by
  refine tally_nonneg fun movement member => ?_
  rw [List.mem_singleton.mp member]
  decide +kernel

private theorem served {β : Type} (allowed : World → Label Store Request → Prop) (request : Request) (view : Store → β)
    (b : β) (going : ∀ s t view, allowed s (.advance t view)) (admitted : allowed stocked (.start 0 request))
    (computed : (request.program.run stocked.committed).toOption.map (fun outcome => view outcome.2) = some b) :
    ∃ labels d, Run (Restricted allowed Step) stocked labels ⟨d,[],fun _ => none⟩ ∧ view d = b := by
  obtain ⟨⟨_,d⟩,ran,seen⟩ := Option.map_eq_some_iff.mp computed
  have ended : request.program.run stocked.committed = .ok ((),d) := Outcome.toOption_eq_some.mp ran
  have exact_ (d : Store) : Sees d d := ⟨rfl,rfl⟩
  obtain ⟨labels,run⟩ := runs_alone exact_ going stocked_fresh admitted ended
  exact ⟨labels,d,run,seen⟩

/-- The unit wasted on two lines. -/
private def wasted : Request := .createWasteEntry 1 [⟨5,none,2/5⟩,⟨5,none,3/5⟩] 1

theorem never_oversold_wasted : ∃ labels d, Run (Restricted Admitted Step) stocked labels ⟨d,[],fun _ => none⟩ ∧
    d.movements.length = 3 ∧ ∀ position, 0 ≤ d.balance position := by
  have within : Admitted stocked (.start 0 wasted) := by
    unfold Admitted WithinColumns wasted
    decide +kernel
  obtain ⟨labels,d,run,length⟩ :=
    served Admitted wasted (·.movements.length) 3 (fun _ _ _ => trivial) within (by decide +kernel)
  have kept := never_oversold stocked_fresh rfl stocked_nonneg run
  exact ⟨labels,d,run,length,kept⟩

private def halves : CreateSale :=
  ⟨⟨1,none,[⟨5,none,49995/100000,1,0,0,0⟩,⟨5,none,50005/100000,1,0,0,0⟩],[⟨.cash,1⟩]⟩,.pos,1⟩

/-- The lines ask for one unit together; each is rounded up on its own. -/
theorem oversold_by_rounding : ∃ labels d, Run Step stocked labels ⟨d,[],fun _ => none⟩ ∧ d.balance shelf < 0 := by
  let anything (_ : World) (_ : Label Store Request) : Prop := True
  obtain ⟨labels,d,run,balance⟩ := served anything (.createSale halves) (·.balance shelf) (-1/10000)
    (fun _ _ _ => trivial) trivial (by decide +kernel)
  refine ⟨labels,d,run.mono fun _ _ _ taken => taken.2,?_⟩
  rw [balance]
  decide +kernel

end Oversell
