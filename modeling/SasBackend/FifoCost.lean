import Mathlib.Tactic.Ring
import SasBackend.Semantics.FifoCost

/-! Taking stock oldest first, by the service and by the database function.
Both walk the same rows, so they take the same units; the quotient of the database function is rounded twice.
-/
namespace Stock
open SasBackend Program

/-- Of two layers the one created first is older, and of those created together the one with the lesser id. -/
def Older (a b : PurchaseLine × Nat) : Prop :=
  a.1.val.createdAt < b.1.val.createdAt ∨ a.1.val.createdAt = b.1.val.createdAt ∧ a.2 < b.2

theorem insert_older {entry : PurchaseLine × Nat} {layers : List (PurchaseLine × Nat)} (first : ∀ other ∈ layers, entry.2 < other.2)
    (sorted : layers.Pairwise Older) :
    (layers.orderedInsert (fun a b => a.1.val.createdAt ≤ b.1.val.createdAt) entry).Pairwise Older := by
  induction layers with
  | nil => simp
  | cons head rest induction =>
    obtain ⟨before,later⟩ := List.pairwise_cons.mp sorted
    obtain ⟨least,others⟩ := List.forall_mem_cons.mp first
    rw [List.orderedInsert]
    split
    case isTrue le =>
      refine List.pairwise_cons.mpr ⟨List.forall_mem_cons.mpr ⟨?_,fun other member => ?_⟩,sorted⟩
      · exact le.lt_or_eq.imp id fun same => ⟨same,least⟩
      · have next : head.1.val.createdAt ≤ other.1.val.createdAt := (before other member).elim le_of_lt fun tie => tie.1.le
        exact (le.trans next).lt_or_eq.imp id fun same => ⟨same,others other member⟩
    case isFalse gt =>
      refine List.pairwise_cons.mpr ⟨fun other member => ?_,induction others later⟩
      obtain rfl | member := List.mem_orderedInsert _ |>.mp member
      · exact .inl (not_le.mp gt)
      · exact before other member

theorem sort_older {layers : List (PurchaseLine × Nat)} (indexed : layers.Pairwise fun a b => a.2 < b.2) :
    (layers.insertionSort fun a b => a.1.val.createdAt ≤ b.1.val.createdAt).Pairwise Older := by
  induction layers with
  | nil => simp
  | cons head rest induction =>
    obtain ⟨first,later⟩ := List.pairwise_cons.mp indexed
    rw [List.insertionSort_cons]
    exact insert_older (fun other member => first other ((List.mem_insertionSort _).mp member)) (induction later)

variable {s t : Store} {position : Position}

theorem fifoLayers_older (s : Store) (position : Position) : (s.fifoLayers position).Pairwise Older := by
  refine sort_older (.filter _ ?_)
  have ids : (s.layers.zipIdx.map Prod.snd).Pairwise (· < ·) := by
    rw [List.zipIdx_map_snd]
    exact List.pairwise_lt_range'
  exact List.pairwise_map.mp ids

theorem mem_fifoLayers {entry : PurchaseLine × Nat} : entry ∈ s.fifoLayers position ↔
    s.layers[entry.2]? = some entry.1 ∧ entry.1.val.position = position ∧ 0 < entry.1.val.qtyRemaining := by
  rw [Store.fifoLayers,List.mem_insertionSort,List.mem_filter,List.mem_zipIdx_iff_getElem?]
  simp

theorem fifoLayers_distinct (s : Store) (position : Position) : ((s.fifoLayers position).map Prod.snd).Nodup := by
  rw [Store.fifoLayers,((List.perm_insertionSort _ _).map Prod.snd).nodup_iff]
  have ids : (s.layers.zipIdx.map Prod.snd).Nodup := by
    rw [List.zipIdx_map_snd]
    exact List.nodup_range'
  exact ids.sublist (List.filter_sublist.map Prod.snd)

theorem fifoCostRows_eq : s.fifoCostRows (some position.branchId) position.productId position.variationId =
    (s.fifoLayers position).map (·.1.val) := by
  have same (entry : PurchaseLine × Nat) : ((some position.branchId).all (entry.1.val.position.branchId = ·) &&
      entry.1.val.position.productId = position.productId && entry.1.val.position.variationId = position.variationId &&
        (0 < entry.1.val.qtyRemaining : Bool)) = (entry.1.val.position = position && (0 < entry.1.val.qtyRemaining : Bool)) := by
    obtain ⟨branchId,productId,variationId⟩ := position
    cases stored : entry.1.val.position
    simp [Bool.and_assoc]
  rw [Store.fifoCostRows,Store.fifoLayers]
  simp only [same]

/-- The cost of a quantity of the rows' oldest units. -/
def oldestCost : List LayerRow → ℚ → ℚ
  | [],_ => 0
  | row :: rest,qty =>
    let take := min qty row.qtyRemaining
    take * row.costPerUnit + oldestCost rest (qty - take)

def available (rows : List LayerRow) : ℚ := (rows.map LayerRow.qtyRemaining).sum

def shortOf (rows : List LayerRow) (qty : ℚ) : ℚ := max (qty - available rows) 0

theorem oldestCost_zero {rows : List LayerRow} (filled : ∀ row ∈ rows, 0 ≤ row.qtyRemaining) : oldestCost rows 0 = 0 := by
  induction rows with
  | nil => rfl
  | cons row rest induction =>
    obtain ⟨here,later⟩ := List.forall_mem_cons.mp filled
    rw [oldestCost,min_eq_left here,zero_mul,sub_zero,induction later,zero_add]

theorem available_nonneg {rows : List LayerRow} (filled : ∀ row ∈ rows, 0 ≤ row.qtyRemaining) : 0 ≤ available rows := by
  refine List.sum_nonneg fun qty member => ?_
  obtain ⟨row,inside,rfl⟩ := List.mem_map.mp member
  exact filled row inside

theorem shortOf_zero {rows : List LayerRow} (filled : ∀ row ∈ rows, 0 ≤ row.qtyRemaining) : shortOf rows 0 = 0 :=
  max_eq_right (by linarith [available_nonneg filled])

theorem shortOf_cons (row : LayerRow) {rest : List LayerRow} (qty : ℚ) (filled : ∀ row ∈ rest, 0 ≤ row.qtyRemaining) :
    shortOf rest (qty - min qty row.qtyRemaining) = shortOf (row :: rest) qty := by
  have nonneg := available_nonneg filled
  have opened : available (row :: rest) = row.qtyRemaining + available rest := by simp [available]
  rw [shortOf,shortOf,opened]
  rcases le_total qty row.qtyRemaining with within | beyond
  · rw [min_eq_left within,max_eq_right (by linarith),max_eq_right (by linarith)]
  · rw [min_eq_right beyond,sub_sub]

/-- A stored row takes a lesser remainder. -/
theorem run_updateLayer (s : Store) (id : Nat) {layer : PurchaseLine} {left : ℚ} (ordered : layer.val.orderedQty ∈ Decimal.grid 4)
    (nonneg : 0 ≤ left) (less : left ≤ layer.val.qtyRemaining) :
    ∃ stored : PurchaseLine, (stored.val.position = layer.val.position ∧ stored.val.createdAt = layer.val.createdAt ∧
        stored.val.qtyRemaining = round4 left) ∧
      (updateLayer id { layer.val with qtyRemaining := left }).run s = .ok ((),{ s with layers := s.layers.set id stored }) := by
  have received : round4 layer.val.receivedQty = layer.val.receivedQty := Decimal.quantize_of_mem_grid layer.2.receivedScaled
  have asked : round4 layer.val.orderedQty = layer.val.orderedQty := Decimal.quantize_of_mem_grid ordered
  let row : LayerRow :=
    { layer.val with
      orderedQty := round4 layer.val.orderedQty
      receivedQty := round4 layer.val.receivedQty
      qtyRemaining := round4 left
      costPerUnit := round4 layer.val.costPerUnit }
  have checked : row.Checked :=
    { ordered := layer.2.ordered.trans_eq asked.symm
      remaining := Decimal.quantize_nonneg nonneg
      received := Decimal.quantize_mono (less.trans layer.2.received)
      cost := Decimal.quantize_nonneg layer.2.cost
      receivedScaled := Decimal.quantize_mem_grid 4 _
      remainingScaled := Decimal.quantize_mem_grid 4 _ }
  have stored : LayerRow.store { layer.val with qtyRemaining := left } = .ok ⟨row,checked⟩ := dif_pos checked
  refine ⟨⟨row,checked⟩,⟨rfl,rfl,rfl⟩,?_⟩
  rw [updateLayer,stored]
  rfl

def Emptied (t : Store) (entry : PurchaseLine × Nat) : Prop :=
  ∃ row, t.layers[entry.2]? = some row ∧ row.val.qtyRemaining = 0

/-- What the loop over the layers does, the oldest first. -/
structure Taken (s : Store) (layers : List (PurchaseLine × Nat)) (qty : ℚ) (slices : List FifoLayerConsumption) (t : Store) :
    Prop where
  sum : (slices.map FifoLayerConsumption.qty).sum + shortOf (layers.map (·.1.val)) qty = qty
  cost : (slices.map fun slice => slice.qty * slice.costPerUnit).sum = oldestCost (layers.map (·.1.val)) qty
  kept : ∀ id, id ∉ layers.map Prod.snd → t.layers[id]? = s.layers[id]?
  rows : ∀ (id : Nat) (row : PurchaseLine), t.layers[id]? = some row → ∃ before : PurchaseLine, s.layers[id]? = some before ∧
    row.val.position = before.val.position ∧ row.val.createdAt = before.val.createdAt
  exhausted : 0 < shortOf (layers.map (·.1.val)) qty → ∀ entry ∈ layers, Emptied t entry
  oldest : ∀ slice ∈ slices, 0 < slice.qty ∧ ∃ earlier entry later, layers = earlier ++ entry :: later ∧
    slice.purchaseLineId = some entry.2 ∧ ∀ other ∈ earlier, Emptied t other

theorem Taken.nothing {layers : List (PurchaseLine × Nat)} {qty : ℚ} (short : shortOf (layers.map (·.1.val)) qty = qty)
    (free : oldestCost (layers.map (·.1.val)) qty = 0) (last : 0 < qty → layers = []) : Taken s layers qty [] s where
  sum := by simp [short]
  cost := by simp [free]
  kept _ _ := rfl
  rows _ row stored := ⟨row,stored,rfl,rfl⟩
  exhausted some_ := by
    rw [last (short ▸ some_)]
    exact List.forall_mem_nil _
  oldest := List.forall_mem_nil _

/-- One more layer in front: it is taken from first, and emptied where more is wanted than it holds. -/
theorem Taken.cons {layer stored : PurchaseLine} {id : Nat} {rest : List (PurchaseLine × Nat)} {qty : ℚ}
    {slices : List FifoLayerConsumption} (here : s.layers[id]? = some layer) (fresh : id ∉ rest.map Prod.snd)
    (filled : ∀ row ∈ rest.map (·.1.val), 0 ≤ row.qtyRemaining) (some_ : 0 < qty) (held : 0 < layer.val.qtyRemaining)
    (position : stored.val.position = layer.val.position) (created : stored.val.createdAt = layer.val.createdAt)
    (left : stored.val.qtyRemaining = round4 (layer.val.qtyRemaining - min qty layer.val.qtyRemaining))
    (taken : Taken { s with layers := s.layers.set id stored } rest (qty - min qty layer.val.qtyRemaining) slices t) :
    Taken s ((layer,id) :: rest) qty
      (⟨some id,min qty layer.val.qtyRemaining,layer.val.costPerUnit⟩ :: slices) t := by
  have short := shortOf_cons layer.val qty filled
  obtain ⟨inside,_⟩ := List.getElem?_eq_some_iff.mp here
  have first : t.layers[id]? = some stored := by
    rw [taken.kept id fresh]
    exact List.getElem?_set_self inside
  -- whatever is left for the others, the first layer is empty
  have emptied (more : 0 < qty - min qty layer.val.qtyRemaining) : Emptied t (layer,id) := by
    have all : min qty layer.val.qtyRemaining = layer.val.qtyRemaining := by
      rcases min_choice qty layer.val.qtyRemaining with same | same
      · rw [same,sub_self] at more
        exact absurd more (lt_irrefl 0)
      · exact same
    refine ⟨stored,first,?_⟩
    rw [left,all,sub_self]
    exact Decimal.quantize_of_mem_grid (zero_mem _)
  constructor
  case sum =>
    have later := taken.sum
    rw [short] at later
    rw [List.map_cons,List.map_cons,List.sum_cons,add_assoc,later]
    ring
  case cost =>
    rw [List.map_cons,List.sum_cons,taken.cost]
    rfl
  case kept =>
    intro other absent
    rw [List.map_cons,List.mem_cons,not_or] at absent
    rw [taken.kept other absent.2]
    exact List.getElem?_set_ne (Ne.symm absent.1)
  case rows =>
    intro other row found
    obtain ⟨before,there,same⟩ := taken.rows other row found
    by_cases equal : id = other
    · subst equal
      rw [List.getElem?_set_self inside,Option.some.injEq] at there
      subst there
      exact ⟨layer,here,same.1.trans position,same.2.trans created⟩
    · rw [List.getElem?_set_ne equal] at there
      exact ⟨before,there,same⟩
  case exhausted =>
    intro missing
    rw [List.map_cons,← short] at missing
    have more : 0 < qty - min qty layer.val.qtyRemaining := by
      have nonneg := available_nonneg filled
      have beyond := (lt_max_iff.mp missing).resolve_right (lt_irrefl 0)
      linarith
    exact List.forall_mem_cons.mpr ⟨emptied more,taken.exhausted missing⟩
  case oldest =>
    refine List.forall_mem_cons.mpr ⟨⟨lt_min some_ held,[],(layer,id),rest,rfl,rfl,List.forall_mem_nil _⟩,fun slice member => ?_⟩
    obtain ⟨positive,earlier,entry,later,parts,named,older⟩ := taken.oldest slice member
    have more : 0 < qty - min qty layer.val.qtyRemaining := by
      have part : slice.qty ≤ (slices.map FifoLayerConsumption.qty).sum :=
        List.single_le_sum (List.forall_mem_map.mpr fun other member => (taken.oldest other member).1.le) _
          (List.mem_map_of_mem member)
      have nonneg : 0 ≤ shortOf (rest.map (·.1.val)) (qty - min qty layer.val.qtyRemaining) := le_max_right _ _
      linarith [taken.sum]
    refine ⟨positive,(layer,id) :: earlier,entry,later,by rw [parts,List.cons_append],named,?_⟩
    exact List.forall_mem_cons.mpr ⟨emptied more,older⟩

theorem run_takeFromLayers (layers : List (PurchaseLine × Nat)) : ∀ (qty : ℚ) (s : Store), 0 ≤ qty →
    (layers.map Prod.snd).Nodup → (∀ entry ∈ layers, s.layers[entry.2]? = some entry.1 ∧ 0 < entry.1.val.qtyRemaining ∧
      entry.1.val.orderedQty ∈ Decimal.grid 4) →
    ∃ slices t, (takeFromLayers layers qty).run s = .ok ((slices,shortOf (layers.map (·.1.val)) qty),t) ∧
      Taken s layers qty slices t := by
  induction layers with
  | nil =>
    intro qty s nonneg _ _
    have short : shortOf [] qty = qty := by simp [shortOf,available,nonneg]
    exact ⟨[],s,by rw [List.map_nil,short]; rfl,.nothing short rfl fun _ => rfl⟩
  | cons entry rest induction =>
    obtain ⟨layer,id⟩ := entry
    intro qty s nonneg distinct stocked
    obtain ⟨⟨here,held,ordered⟩,others⟩ := List.forall_mem_cons.mp stocked
    obtain ⟨fresh,distinct⟩ := List.nodup_cons.mp distinct
    have filled : ∀ row ∈ rest.map (·.1.val), 0 ≤ row.qtyRemaining :=
      List.forall_mem_map.mpr fun other member => (others other member).2.1.le
    rcases nonneg.eq_or_lt with rfl | some_
    · have all : ∀ row ∈ ((layer,id) :: rest).map (·.1.val), 0 ≤ row.qtyRemaining :=
        List.forall_mem_cons.mpr ⟨held.le,filled⟩
      refine ⟨[],s,?_,.nothing (shortOf_zero all) (oldestCost_zero all) fun absurd_ => absurd absurd_ (lt_irrefl 0)⟩
      rw [shortOf_zero all,takeFromLayers_cons,if_pos le_rfl]
      rfl
    · have least : 0 ≤ layer.val.qtyRemaining - min qty layer.val.qtyRemaining := sub_nonneg.mpr (min_le_right _ _)
      have less : layer.val.qtyRemaining - min qty layer.val.qtyRemaining ≤ layer.val.qtyRemaining :=
        sub_le_self _ (le_min nonneg held.le)
      obtain ⟨stored,⟨position,created,left⟩,updated⟩ := run_updateLayer s id ordered least less
      have untouched : ∀ other ∈ rest, (s.layers.set id stored)[other.2]? = some other.1 ∧ 0 < other.1.val.qtyRemaining ∧
          other.1.val.orderedQty ∈ Decimal.grid 4 := by
        intro other member
        have apart : id ≠ other.2 := by
          intro same
          exact fresh (List.mem_map.mpr ⟨other,member,same.symm⟩)
        rw [List.getElem?_set_ne apart]
        exact others other member
      obtain ⟨slices,t,ran,taken⟩ := induction _ { s with layers := s.layers.set id stored }
        (sub_nonneg.mpr (min_le_left qty layer.val.qtyRemaining)) distinct untouched
      refine ⟨_,t,?_,taken.cons here fresh filled some_ held position created left⟩
      rw [takeFromLayers_cons,if_neg some_.not_ge,run_bind,updated]
      refine (run_bind (takeFromLayers rest _) _ { s with layers := s.layers.set id stored }).trans ?_
      rw [ran,shortOf_cons _ _ filled]
      rfl

variable {row : LayerRow} {rest rows : List LayerRow} {remaining total qty : Numeric}

theorem available_cons : available (row :: rest) = row.qtyRemaining + available rest := by
  simp [available]

theorem fifoCostLoop_last (enough : remaining.value ≤ row.qtyRemaining) : fifoCostLoop (row :: rest) remaining total =
    (remaining.sub remaining,total.add (remaining.mul (.column row.costPerUnit))) := by
  have take : remaining.least (.column row.qtyRemaining) = remaining := if_neg (not_lt.mpr enough)
  have nothing : (remaining.sub remaining).value ≤ 0 := (sub_self remaining.value).le
  rw [fifoCostLoop,take,if_pos nothing]

theorem fifoCostLoop_next (less : row.qtyRemaining < remaining.value) : fifoCostLoop (row :: rest) remaining total =
    fifoCostLoop rest (remaining.sub (.column row.qtyRemaining))
      (total.add ((Numeric.column row.qtyRemaining).mul (.column row.costPerUnit))) := by
  have take : remaining.least (.column row.qtyRemaining) = .column row.qtyRemaining := if_pos less
  have more : ¬ (remaining.sub (.column row.qtyRemaining)).value ≤ 0 := (sub_pos.mpr less).not_ge
  rw [fifoCostLoop,take,if_neg more]

theorem fifoCostLoop_value (rows : List LayerRow) : ∀ remaining total : Numeric, 0 < remaining.value →
    (∀ row ∈ rows, 0 ≤ row.qtyRemaining) → (fifoCostLoop rows remaining total).1.value = shortOf rows remaining.value ∧
      (fifoCostLoop rows remaining total).2.value = total.value + oldestCost rows remaining.value := by
  induction rows with
  | nil =>
    intro remaining total some_ _
    simp [fifoCostLoop,shortOf,available,oldestCost,some_.le]
  | cons row rest induction =>
    intro remaining total some_ filled
    obtain ⟨here,later⟩ := List.forall_mem_cons.mp filled
    rw [← shortOf_cons _ _ later,oldestCost]
    rcases le_or_gt remaining.value row.qtyRemaining with enough | less
    · rw [fifoCostLoop_last enough,min_eq_left enough,sub_self,shortOf_zero later,oldestCost_zero later,add_zero]
      exact ⟨sub_self _,rfl⟩
    · obtain ⟨short,cost⟩ := induction (remaining.sub (.column row.qtyRemaining))
        (total.add ((Numeric.column row.qtyRemaining).mul (.column row.costPerUnit))) (sub_pos.mpr less) later
      rw [fifoCostLoop_next less,min_eq_right less.le,short,cost]
      exact ⟨rfl,add_assoc ..⟩

/-- The places the total cost is shown with: four more than the last quantity taken. -/
def costScale (rows : List LayerRow) (qty : Numeric) : Nat :=
  (if rows.head?.any (qty.value ≤ ·.qtyRemaining) then qty.scale else max qty.scale 4) + 4

theorem fifoCostLoop_scale_later (rows : List LayerRow) : ∀ remaining total : Numeric, 4 ≤ remaining.scale →
    total.scale ≤ remaining.scale + 4 → 0 < remaining.value → remaining.value ≤ available rows →
    (fifoCostLoop rows remaining total).2.scale = remaining.scale + 4 := by
  induction rows with
  | nil => exact fun remaining total _ _ some_ covered => absurd some_ (not_lt.mpr covered)
  | cons row rest induction =>
    intro remaining total places shown some_ covered
    rw [available_cons] at covered
    rcases le_or_gt remaining.value row.qtyRemaining with enough | less
    · rw [fifoCostLoop_last enough]
      exact max_eq_right shown
    · have scale : (remaining.sub (.column row.qtyRemaining)).scale = remaining.scale := max_eq_left places
      have spent : (total.add ((Numeric.column row.qtyRemaining).mul (.column row.costPerUnit))).scale ≤ remaining.scale + 4 :=
        max_le shown (Nat.add_le_add_right places 4)
      have left : (remaining.sub (.column row.qtyRemaining)).value ≤ available rest := sub_le_iff_le_add'.mpr covered
      rw [fifoCostLoop_next less,induction _ _ (places.trans_eq scale.symm) (scale ▸ spent) (sub_pos.mpr less) left,scale]

theorem fifoCostLoop_scale (some_ : 0 < qty.value) (covered : qty.value ≤ available rows) :
    (fifoCostLoop rows qty ⟨0,0⟩).2.scale = costScale rows qty := by
  cases rows with
  | nil => exact absurd some_ (not_lt.mpr covered)
  | cons row rest =>
    rw [available_cons] at covered
    rw [costScale,List.head?_cons,Option.any_some]
    rcases le_or_gt qty.value row.qtyRemaining with enough | less
    · rw [fifoCostLoop_last enough,if_pos (decide_eq_true enough)]
      exact max_eq_right (Nat.zero_le _)
    · have left : (qty.sub (.column row.qtyRemaining)).value ≤ available rest := sub_le_iff_le_add'.mpr covered
      rw [fifoCostLoop_next less,fifoCostLoop_scale_later rest _ _ (le_max_right _ _) ?_ (sub_pos.mpr less) left,
        if_neg (by simpa using less)]
      · rfl
      · exact max_le (Nat.zero_le _) (Nat.add_le_add_right (le_max_right _ _) 4)

/-- Taken oldest first, exactly and no more than there is. -/
structure OldestFirst (s t : Store) (position : Position) (qty : ℚ) (slices : List FifoLayerConsumption) (short : ℚ) : Prop where
  sum : (slices.map FifoLayerConsumption.qty).sum + short = qty
  nonneg : 0 ≤ short ∧ ∀ layer ∈ t.layers, 0 ≤ layer.val.qtyRemaining
  exhausted : 0 < short → ∀ layer ∈ t.layers, layer.val.position = position → layer.val.qtyRemaining = 0
  oldest : ∀ slice ∈ slices, 0 < slice.qty ∧ ∃ entry : PurchaseLine × Nat, slice.purchaseLineId = some entry.2 ∧
    s.layers[entry.2]? = some entry.1 ∧ entry.1.val.position = position ∧
    ∀ other : PurchaseLine × Nat, s.layers[other.2]? = some other.1 → other.1.val.position = position → Older other entry →
      Emptied t other

theorem Older.asymm {a b : PurchaseLine × Nat} (first : Older a b) : ¬ Older b a := by
  unfold Older at first ⊢
  omega

theorem Taken.unlisted {slices : List FifoLayerConsumption} {qty : ℚ} (taken : Taken s (s.fifoLayers position) qty slices t)
    {entry : PurchaseLine × Nat} (found : s.layers[entry.2]? = some entry.1) (same : entry.1.val.position = position)
    (absent : entry ∉ s.fifoLayers position) : Emptied t entry := by
  have empty : entry.1.val.qtyRemaining = 0 :=
    (not_lt.mp fun held => absent (mem_fifoLayers.mpr ⟨found,same,held⟩)).antisymm entry.1.2.remaining
  refine ⟨entry.1,?_,empty⟩
  rw [taken.kept entry.2,found]
  intro listed
  obtain ⟨other,member,id⟩ := List.mem_map.mp listed
  have there := (mem_fifoLayers.mp member).1
  rw [id,found,Option.some.injEq] at there
  exact absent (Prod.ext there id.symm ▸ member)

theorem Taken.oldestFirst {slices : List FifoLayerConsumption} {qty : ℚ} (taken : Taken s (s.fifoLayers position) qty slices t) :
    OldestFirst s t position qty slices (shortOf ((s.fifoLayers position).map (·.1.val)) qty) where
  sum := taken.sum
  nonneg := ⟨le_max_right _ _,fun layer _ => layer.2.remaining⟩
  exhausted missing layer member same := by
    obtain ⟨id,found⟩ := List.mem_iff_getElem?.mp member
    obtain ⟨before,there,position_,-⟩ := taken.rows id layer found
    obtain ⟨row,stored,empty⟩ : Emptied t (before,id) := by
      by_cases listed : (before,id) ∈ s.fifoLayers position
      · exact taken.exhausted missing _ listed
      · exact taken.unlisted there (position_.symm.trans same) listed
    rw [Option.some.inj (found.symm.trans stored)]
    exact empty
  oldest slice member := by
    obtain ⟨positive,earlier,entry,later,parts,named,older⟩ := taken.oldest slice member
    have listed : entry ∈ s.fifoLayers position := by rw [parts]; simp
    obtain ⟨here,at_,-⟩ := mem_fifoLayers.mp listed
    refine ⟨positive,entry,named,here,at_,fun other there same before => ?_⟩
    by_cases listed : other ∈ s.fifoLayers position
    · have sorted := fifoLayers_older s position
      rw [parts] at listed sorted
      have after := (List.pairwise_cons.mp (List.pairwise_append.mp sorted).2.1).1
      rcases List.mem_append.mp listed with first | last
      · exact older other first
      · rcases List.mem_cons.mp last with rfl | last
        · exact absurd before before.asymm
        · exact absurd (after other last) before.asymm
    · exact taken.unlisted there same listed

section Cost

variable (divScale : Numeric → Numeric → Nat)

/-- The database function returns the service's unit cost where nothing is short, and fails where something is. -/
structure Agrees (s : Store) (position : Position) (qty : Numeric) (slices : List FifoLayerConsumption) (short : ℚ) : Prop where
  cost : short = 0 → getFifoCost divScale s (some position.branchId) position.productId position.variationId qty =
    .ok (computeWeightedCostPerUnit qty.value slices)
  raises : 0 < short ↔
    ∃ e, getFifoCost divScale s (some position.branchId) position.productId position.variationId qty = .error e

/-- Rounding the quotient to its own scale lifts it to a half of the fourth place, which is then rounded up. -/
def DoublyRounded (rows : List LayerRow) (qty : Numeric) : Prop :=
  let quotient := oldestCost rows qty.value / qty.value
  let rounded := Decimal.quantize (divScale ⟨oldestCost rows qty.value,costScale rows qty⟩ qty) quotient
  quotient < rounded ∧ Decimal.Tie 4 rounded

instance (rows : List LayerRow) (qty : Numeric) : Decidable (DoublyRounded divScale rows qty) :=
  inferInstanceAs (Decidable (_ ∧ _))

theorem oldestCost_nonneg {rows : List LayerRow} (filled : ∀ row ∈ rows, 0 ≤ row.qtyRemaining ∧ 0 ≤ row.costPerUnit) :
    ∀ {qty : ℚ}, 0 ≤ qty → 0 ≤ oldestCost rows qty := by
  induction rows with
  | nil => exact fun _ => le_rfl
  | cons row rest induction =>
    intro qty nonneg
    obtain ⟨⟨held,cost⟩,others⟩ := List.forall_mem_cons.mp filled
    exact add_nonneg (mul_nonneg (le_min nonneg held) cost) (induction others (sub_nonneg.mpr (min_le_left _ _)))

theorem getFifoCost_eq {rows : List LayerRow} {qty : Numeric} (positive : 0 < qty.value)
    (listed : s.fifoCostRows (some position.branchId) position.productId position.variationId = rows)
    (filled : ∀ row ∈ rows, 0 ≤ row.qtyRemaining) :
    getFifoCost divScale s (some position.branchId) position.productId position.variationId qty =
      if 0 < shortOf rows qty.value then .error (.insufficientStock qty.value (shortOf rows qty.value))
      else .ok (round4 (Decimal.quantize (divScale (fifoCostLoop rows qty ⟨0,0⟩).2 qty) (oldestCost rows qty.value / qty.value))) := by
  obtain ⟨short,cost⟩ := fifoCostLoop_value rows qty ⟨0,0⟩ positive filled
  rw [zero_add] at cost
  rw [getFifoCost,listed,if_neg positive.not_ge]
  simp only [gt_iff_lt,short,Numeric.div,Numeric.round,cost]
  rfl

theorem shortOf_eq_zero_iff {rows : List LayerRow} {qty : ℚ} : shortOf rows qty = 0 ↔ qty ≤ available rows := by
  rw [shortOf,max_eq_right_iff,sub_nonpos]

/-- The two costs are the same unless the database's is rounded twice. -/
theorem agrees_iff {rows : List LayerRow} {qty : Numeric} {slices : List FifoLayerConsumption}
    (keeps : ∀ a b : Numeric, 4 ≤ a.scale → 4 ≤ divScale a b) (positive : 0 < qty.value)
    (listed : s.fifoCostRows (some position.branchId) position.productId position.variationId = rows)
    (filled : ∀ row ∈ rows, 0 ≤ row.qtyRemaining ∧ 0 ≤ row.costPerUnit)
    (cost : (slices.map fun slice => slice.qty * slice.costPerUnit).sum = oldestCost rows qty.value) :
    Agrees divScale s position qty slices (shortOf rows qty.value) ↔
      (qty.value ≤ available rows → ¬ DoublyRounded divScale rows qty) := by
  have called := getFifoCost_eq divScale positive listed fun row member => (filled row member).1
  have unit : computeWeightedCostPerUnit qty.value slices = round4 (oldestCost rows qty.value / qty.value) := by
    rw [computeWeightedCostPerUnit,if_neg positive.not_ge,cost]
  have nonneg : 0 ≤ shortOf rows qty.value := le_max_right _ _
  rcases nonneg.lt_or_eq with missing | none
  · rw [if_pos missing] at called
    have uncovered : ¬ qty.value ≤ available rows := fun covered => missing.ne' (shortOf_eq_zero_iff.mpr covered)
    exact iff_of_true ⟨fun same => absurd same missing.ne',fun _ => ⟨_,called⟩,fun _ => missing⟩ fun covered => absurd covered uncovered
  · have covered : qty.value ≤ available rows := shortOf_eq_zero_iff.mp none.symm
    have total : (fifoCostLoop rows qty ⟨0,0⟩).2 = ⟨oldestCost rows qty.value,costScale rows qty⟩ := by
      have value := (fifoCostLoop_value rows qty ⟨0,0⟩ positive fun row member => (filled row member).1).2
      have scale := fifoCostLoop_scale positive covered
      rw [zero_add] at value
      rw [← value,← scale]
    rw [← none,if_neg (lt_irrefl 0),total] at called
    have quotient : 0 ≤ oldestCost rows qty.value / qty.value := div_nonneg (oldestCost_nonneg filled positive.le) positive.le
    have places : 4 ≤ divScale ⟨oldestCost rows qty.value,costScale rows qty⟩ qty := keeps _ _ (Nat.le_add_left 4 _)
    have once := Decimal.quantize_quantize_iff quotient places
    have returns : getFifoCost divScale s (some position.branchId) position.productId position.variationId qty =
        .ok (computeWeightedCostPerUnit qty.value slices) ↔ ¬ DoublyRounded divScale rows qty := by
      rw [called,unit,Except.ok.injEq]
      exact once
    rw [← none]
    constructor
    · exact fun agrees _ => returns.mp (agrees.cost rfl)
    · intro once
      refine ⟨fun _ => returns.mpr (once covered),fun absurd_ => absurd absurd_ (lt_irrefl 0),fun ⟨_,failed⟩ => ?_⟩
      rw [called] at failed
      cases failed

theorem run_consumeFifoLayers (position : Position) {qty : ℚ} (positive : 0 < qty) (columns : ∀ layer ∈ s.layers, layer.val.orderedQty ∈ Decimal.grid 4) :
    ∃ slices t, (consumeFifoLayers position qty).run s = .ok ((slices,shortOf ((s.fifoLayers position).map (·.1.val)) qty),t) ∧
      Taken s (s.fifoLayers position) qty slices t := by
  have stocked : ∀ entry ∈ s.fifoLayers position, s.layers[entry.2]? = some entry.1 ∧ 0 < entry.1.val.qtyRemaining ∧
      entry.1.val.orderedQty ∈ Decimal.grid 4 := by
    intro entry member
    obtain ⟨found,-,held⟩ := mem_fifoLayers.mp member
    exact ⟨found,held,columns entry.1 (List.mem_of_getElem? found)⟩
  obtain ⟨slices,t,ran,taken⟩ := run_takeFromLayers (s.fifoLayers position) qty s positive.le (fifoLayers_distinct s position) stocked
  refine ⟨slices,t,?_,taken⟩
  rw [consumeFifoLayers_eq,if_neg positive.not_ge]
  exact ran

end Cost

private def layer (qty costPerUnit : ℚ) (checked : LayerRow.Checked ⟨none,⟨1,1,none⟩,qty,qty,qty,costPerUnit,0⟩) : PurchaseLine :=
  ⟨⟨none,⟨1,1,none⟩,qty,qty,qty,costPerUnit,0⟩,checked⟩

private def holding (layers : List PurchaseLine) : Store := ⟨false,layers,[],[],[],[],[],[],[]⟩

private theorem selectDivScale_keeps (a b : Numeric) (places : 4 ≤ a.scale) : 4 ≤ selectDivScale a b :=
  le_min (by norm_num) (places.trans ((le_max_left _ _).trans (le_max_right _ _)))

private def fiveAndThree : Store := holding [layer 5 100 (by decide +kernel),layer 3 120 (by decide +kernel)]

private def almostTie : Store := holding [layer 10000.0001 20000 (by decide +kernel),layer 10000 20000.0001 (by decide +kernel)]

end Stock
