import SasBackend.Library.Queue
import SasBackend.Semantics.Transfers
import SasBackend.StockFrame

/-! The rows a transfer writes at the source, line by line, and the layers it opens for them at the destination.
-/
namespace Stock
open SasBackend Program

variable {s t u : Store} {position : Position} {qty : ℚ} {item : Item} {reference : Reference} {rows : List StockMovement} {id : Nat} {now : Int}

/-- Layers of the position are lowered, the oldest by as much as it holds or is asked for. -/
structure Drained (s t : Store) (position : Position) (qty : ℚ) : Prop where
  lowered : ∀ (id : Nat) later, t.layers[id]? = some later → ∃ layer, s.layers[id]? = some layer ∧ later.val.position = layer.val.position ∧
    later.val.createdAt = layer.val.createdAt ∧ later.val.qtyRemaining ≤ layer.val.qtyRemaining
  elsewhere : ∀ (id : Nat) layer, s.layers[id]? = some layer → layer.val.position ≠ position → t.layers[id]? = some layer
  oldest : ∀ entry, (s.fifoLayers position).head? = some entry → 0 < qty → ∃ later, t.layers[entry.2]? = some later ∧
    later.val.qtyRemaining = round4 (entry.1.val.qtyRemaining - min qty entry.1.val.qtyRemaining)

theorem round4_sub_le {held : ℚ} (inside : held ∈ Decimal.grid 4) (nonneg : 0 ≤ qty) : round4 (held - qty) ≤ held := by
  have same : round4 held = held := Decimal.quantize_of_mem_grid inside
  exact (Decimal.quantize_mono (sub_le_self held nonneg)).trans_eq same

/-- The layers of the list are lowered, its first by as much as it holds or is asked for. -/
theorem ends_takeFromLayers_lowered (layers : List (PurchaseLine × Nat)) : ∀ {s : Store} {qty : ℚ}, (layers.map Prod.snd).Nodup →
    (∀ entry ∈ layers, s.layers[entry.2]? = some entry.1 ∧ 0 < entry.1.val.qtyRemaining) →
    Ends (takeFromLayers layers qty) s fun _ t =>
      (∀ (id : Nat) later, t.layers[id]? = some later → ∃ layer, s.layers[id]? = some layer ∧ later.val.position = layer.val.position ∧
        later.val.createdAt = layer.val.createdAt ∧ later.val.qtyRemaining ≤ layer.val.qtyRemaining) ∧
      (∀ id, id ∉ layers.map Prod.snd → t.layers[id]? = s.layers[id]?) ∧
      ∀ entry, layers.head? = some entry → 0 < qty → ∃ later, t.layers[entry.2]? = some later ∧
        later.val.qtyRemaining = round4 (entry.1.val.qtyRemaining - min qty entry.1.val.qtyRemaining) := by
  induction layers with
  | nil =>
    intro s qty _ _
    exact ends_pure ⟨fun id later here => ⟨later,here,rfl,rfl,le_rfl⟩,fun _ _ => rfl,fun _ none => by cases none⟩
  | cons entry rest induction =>
    intro s qty distinct stocked
    obtain ⟨layer,id⟩ := entry
    obtain ⟨⟨here,held⟩,others⟩ := List.forall_mem_cons.mp stocked
    obtain ⟨fresh,distinct⟩ := List.nodup_cons.mp distinct
    rw [takeFromLayers_cons]
    split
    · next none =>
      refine ends_pure ⟨fun id later here => ⟨later,here,rfl,rfl,le_rfl⟩,fun _ _ => rfl,fun _ _ some_ => absurd some_ none.not_gt⟩
    · next some_ =>
      have some_ : 0 < qty := not_le.mp some_
      refine .bind (ends_updateLayer_stored.mono fun _ t updated => ?_)
      obtain ⟨stored,row,rfl⟩ := updated
      have inside := (List.getElem?_eq_some_iff.mp here).1
      have set : (s.layers.set id stored)[id]? = some stored := List.getElem?_set_self inside
      have untouched : ∀ other ∈ rest, (s.layers.set id stored)[other.2]? = some other.1 ∧ 0 < other.1.val.qtyRemaining := by
        intro other member
        have apart : id ≠ other.2 := fun same => fresh (List.mem_map.mpr ⟨other,member,same.symm⟩)
        rw [List.getElem?_set_ne apart]
        exact others other member
      refine .bind ((induction distinct untouched).mono fun r u took => ends_pure ?_)
      obtain ⟨lowered,kept,-⟩ := took
      have left : stored.val.qtyRemaining = round4 (layer.val.qtyRemaining - min qty layer.val.qtyRemaining) := by rw [row]; rfl
      refine ⟨fun other later found => ?_,fun other absent => ?_,fun first same _ => ?_⟩
      · obtain ⟨middle,there,placed,age,less⟩ := lowered other later found
        by_cases same : other = id
        · subst same
          obtain rfl := Option.some.inj (there.symm.trans set)
          refine ⟨layer,here,placed.trans (by rw [row]; rfl),age.trans (by rw [row]; rfl),less.trans ?_⟩
          rw [left]
          exact round4_sub_le layer.2.remainingScaled (le_min some_.le held.le)
        · rw [List.getElem?_set_ne (Ne.symm same)] at there
          exact ⟨middle,there,placed,age,less⟩
      · rw [List.map_cons,List.mem_cons,not_or] at absent
        rw [kept other absent.2,List.getElem?_set_ne (Ne.symm absent.1)]
      · cases same
        exact ⟨stored,(kept id fresh).trans set,left⟩

theorem ends_consumeFifoLayers_drained : Ends (consumeFifoLayers position qty) s fun _ t => Drained s t position qty := by
  rw [consumeFifoLayers_eq]
  split
  · next none =>
    refine ends_pure ⟨fun id later here => ⟨later,here,rfl,rfl,le_rfl⟩,fun _ _ here _ => here,fun _ _ some_ => absurd some_ none.not_gt⟩
  · refine .bind (ends_get ((ends_takeFromLayers_lowered _ (fifoLayers_distinct s position) (fifoLayers_stocked s position)).mono
      fun r t took => ⟨took.1,fun id layer here apart => ?_,took.2.2⟩))
    rw [took.2.1 id,here]
    intro listed
    obtain ⟨⟨other,_⟩,member,rfl⟩ := List.mem_map.mp listed
    obtain ⟨there,placed,-⟩ := mem_fifoLayers.mp member
    exact apart (Option.some.inj (here.symm.trans there) ▸ placed)

theorem Drained.of_layers (drained : Drained s t position qty) (same : u.layers = t.layers) : Drained s u position qty := by
  obtain ⟨lowered,elsewhere,oldest⟩ := drained
  exact ⟨by rwa [same],by rwa [same],by rwa [same]⟩

/-- What is consumed for a line of a transfer. -/
structure Consumed (s t : Store) (item : Item) (reference : Reference) (now : Int) (rows : List StockMovement) : Prop where
  moved : Moved s t rows
  sliced : ∃ fallback, rows.map Subtype.val = sliceRows item.position .transferOut reference now (s.slices item.position item.qty fallback)
  drained : Drained s t item.position item.qty

theorem ends_consumeToMovements_consumed : Ends (consumeToMovements item .transferOut reference now) s fun _ t =>
    ∃ rows, Consumed s t item reference now rows := by
  have allocated : Ends (allocateSaleLineFifo item.position item.qty) s fun _ t => Drained s t item.position item.qty := by
    refine .bind (ends_consumeFifoLayers_drained.mono fun r t drained => ?_)
    dsimp only
    split
    · refine .bind (ends_getFallbackCostPerUnit.mono fun fallback u same => ends_pure ?_)
      exact drained.of_layers (congrArg Store.layers same)
    · exact ends_pure drained
  intro allocation u ran
  obtain ⟨fallback,rows,moved,sliced⟩ := ends_consumeToMovements_rows allocation u ran
  refine ⟨rows,moved,⟨fallback,sliced⟩,?_⟩
  have drained : Ends (consumeToMovements item .transferOut reference now) s fun _ t => Drained s t item.position item.qty := by
    refine .bind (allocated.mono fun allocation t drained => .bind ((ends_rows _ _).mono fun _ v wrote => ends_pure ?_))
    obtain ⟨rows,-,rfl⟩ := wrote
    exact drained.of_layers rfl
  exact drained allocation u ran

theorem head_iff {entry : PurchaseLine × Nat} : (s.fifoLayers position).head? = some entry ↔
    entry ∈ s.fifoLayers position ∧ ∀ other ∈ s.fifoLayers position, other ≠ entry → Older entry other := by
  have sorted := fifoLayers_older s position
  cases listed : s.fifoLayers position with
  | nil => simp
  | cons first rest =>
    rw [listed] at sorted
    obtain ⟨before,-⟩ := List.pairwise_cons.mp sorted
    rw [List.head?_cons,Option.some.injEq]
    constructor
    · rintro rfl
      refine ⟨List.mem_cons_self,fun other member apart => ?_⟩
      exact before other ((List.mem_cons.mp member).resolve_left apart)
    · rintro ⟨member,least⟩
      rcases List.mem_cons.mp member with same | later
      · exact same.symm
      · by_contra apart
        exact (before entry later).asymm (least first List.mem_cons_self apart)

theorem Drained.members (drained : Drained s t position qty) {entry : PurchaseLine × Nat} {at_ : Position} (member : entry ∈ t.fifoLayers at_) :
    ∃ before, (before,entry.2) ∈ s.fifoLayers at_ ∧ entry.1.val.createdAt = before.val.createdAt := by
  obtain ⟨here,placed,held⟩ := mem_fifoLayers.mp member
  obtain ⟨before,there,same,age,less⟩ := drained.lowered entry.2 entry.1 here
  exact ⟨before,mem_fifoLayers.mpr ⟨there,same.symm.trans placed,held.trans_le less⟩,age⟩

theorem Drained.away (drained : Drained s t position qty) {at_ : Position} (apart : at_ ≠ position) :
    (t.fifoLayers at_).head? = (s.fifoLayers at_).head? := by
  have same (entry : PurchaseLine × Nat) : entry ∈ t.fifoLayers at_ ↔ entry ∈ s.fifoLayers at_ := by
    constructor
    · intro member
      obtain ⟨before,there,-⟩ := drained.members member
      obtain ⟨found,placed,-⟩ := mem_fifoLayers.mp there
      have kept := drained.elsewhere entry.2 before found (placed.trans_ne apart)
      have here := (mem_fifoLayers.mp member).1
      rwa [Option.some.inj (kept.symm.trans here)] at there
    · intro member
      obtain ⟨found,placed,held⟩ := mem_fifoLayers.mp member
      exact mem_fifoLayers.mpr ⟨drained.elsewhere entry.2 entry.1 found (placed.trans_ne apart),placed,held⟩
  ext entry
  rw [head_iff,head_iff]
  simp only [same]

theorem Drained.none (drained : Drained s t position qty) (empty : (s.fifoLayers position).head? = none) :
    (t.fifoLayers position).head? = none := by
  rw [List.head?_eq_none_iff] at empty ⊢
  apply List.eq_nil_iff_forall_not_mem.mpr
  intro entry member
  obtain ⟨before,there,-⟩ := drained.members member
  rw [empty] at there
  cases there

/-- The oldest layer stays the oldest while it holds something. -/
theorem Drained.stays (drained : Drained s t position qty) {entry : PurchaseLine × Nat} (oldest : (s.fifoLayers position).head? = some entry)
    (some_ : 0 < qty) (left : 0 < round4 (entry.1.val.qtyRemaining - qty)) :
    ∃ later, (t.fifoLayers position).head? = some (later,entry.2) ∧ later.val.qtyRemaining = round4 (entry.1.val.qtyRemaining - qty) := by
  obtain ⟨later,here,remains⟩ := drained.oldest entry oldest some_
  obtain ⟨member,least⟩ := head_iff.mp oldest
  obtain ⟨found,placed,held⟩ := mem_fifoLayers.mp member
  have less : qty < entry.1.val.qtyRemaining := by
    by_contra more
    exact left.not_ge (round4_nonpos (sub_nonpos.mpr (not_lt.mp more)))
  rw [min_eq_left less.le] at remains
  obtain ⟨before,there,same,age,-⟩ := drained.lowered entry.2 later here
  obtain rfl := Option.some.inj (there.symm.trans found)
  refine ⟨later,head_iff.mpr ⟨mem_fifoLayers.mpr ⟨here,same.trans placed,remains ▸ left⟩,fun other listed apart => ?_⟩,remains⟩
  obtain ⟨earlier,before_,ageSame⟩ := drained.members listed
  have different : (earlier,other.2) ≠ entry := by
    intro same
    have id : other.2 = entry.2 := by rw [← same]
    have there := (mem_fifoLayers.mp listed).1
    rw [id,here,Option.some.injEq] at there
    exact apart (Prod.ext there.symm id)
  have older := least _ before_ different
  rw [Older] at older ⊢
  rwa [age,ageSame]

theorem Drained.gone (drained : Drained s t position qty) {entry : PurchaseLine × Nat} (oldest : (s.fifoLayers position).head? = some entry)
    (some_ : 0 < qty) (nothing : ¬ 0 < round4 (entry.1.val.qtyRemaining - qty)) :
    ∀ other ∈ t.fifoLayers position, other.2 ≠ entry.2 := by
  intro other member same
  obtain ⟨later,here,remains⟩ := drained.oldest entry oldest some_
  obtain ⟨there,-,held⟩ := mem_fifoLayers.mp member
  rw [same,here,Option.some.injEq] at there
  rw [← there,remains] at held
  rcases min_choice qty entry.1.val.qtyRemaining with less | all
  · exact nothing (less ▸ held)
  · rw [all,sub_self] at held
    exact held.not_ge (round4_nonpos le_rfl)

theorem slices_head (some_ : 0 < qty) (fallback : ℚ) :
    (s.slices position qty fallback).head?.map FifoLayerConsumption.purchaseLineId = some ((s.fifoLayers position).head?.map Prod.snd) := by
  rw [Store.slices,if_neg some_.not_ge]
  cases s.fifoLayers position with
  | nil => simp [cover,some_]
  | cons entry rest =>
    obtain ⟨layer,id⟩ := entry
    dsimp only
    rw [cover,if_neg some_.not_ge]
    split <;> rfl

theorem slices_within {entry : PurchaseLine × Nat} (oldest : (s.fifoLayers position).head? = some entry) (some_ : 0 < qty)
    (less : qty < entry.1.val.qtyRemaining) (fallback : ℚ) :
    s.slices position qty fallback = [⟨some entry.2,qty,entry.1.val.costPerUnit⟩] := by
  have nothing (layers : List (PurchaseLine × Nat)) : cover layers 0 = ([],0) := by
    cases layers with
    | nil => rfl
    | cons entry rest => rw [cover,if_pos le_rfl]
  rw [Store.slices,if_neg some_.not_ge]
  cases listed : s.fifoLayers position with
  | nil => simp [listed] at oldest
  | cons first rest =>
    rw [listed,List.head?_cons,Option.some.injEq] at oldest
    subst oldest
    rw [cover,if_neg some_.not_ge]
    simp [min_eq_left less.le,nothing]

theorem slices_unlayered (empty : (s.fifoLayers position).head? = none) (fallback : ℚ) :
    ∀ slice ∈ s.slices position qty fallback, slice.purchaseLineId = none := by
  rw [Store.slices,List.head?_eq_none_iff.mp empty]
  dsimp only [cover]
  split
  · exact List.forall_mem_nil _
  · split <;> simp

def StockMovement.sequence (m : StockMovement) : Nat := m.val.movementSequence.getD 0

theorem Consumed.layered (consumed : Consumed s t item reference now rows) : ∃ fallback,
    rows.map (·.val.purchaseLineId) = (s.slices item.position item.qty fallback).map FifoLayerConsumption.purchaseLineId := by
  obtain ⟨fallback,sliced⟩ := consumed.sliced
  refine ⟨fallback,?_⟩
  have same := congrArg (List.map MovementRow.purchaseLineId) sliced
  rw [sliceRows,List.map_map,List.map_map] at same
  have slices : (s.slices item.position item.qty fallback).zipIdx.map Prod.fst = s.slices item.position item.qty fallback :=
    List.zipIdx_map_fst 0 _
  rw [← slices,List.map_map]
  exact same

theorem Consumed.sequences (consumed : Consumed s t item reference now rows) : rows.map StockMovement.sequence = List.range rows.length := by
  obtain ⟨fallback,sliced⟩ := consumed.sliced
  have same := congrArg (List.map fun row => row.movementSequence.getD 0) sliced
  have length := congrArg List.length sliced
  rw [sliceRows,List.map_map,List.map_map] at same
  rw [sliceRows,List.length_map,List.length_map,List.length_zipIdx] at length
  rw [length,List.range_eq_range',← List.zipIdx_map_snd]
  exact same

/-- A row of a line of a transfer. -/
structure SentRow (item : Item) (reference : Reference) (m : StockMovement) : Prop where
  position : m.val.position = item.position
  kind : m.val.movementType = .transferOut
  reference : m.val.reference = reference
  numbered : m.val.movementSequence = some m.sequence
  taken : m.val.qty ≤ 0
  cost : m.val.costPerUnit ∈ Decimal.grid 4

theorem Consumed.each (consumed : Consumed s t item reference now rows) (some_ : 0 < item.qty) : ∀ m ∈ rows, SentRow item reference m := by
  obtain ⟨fallback,sliced⟩ := consumed.sliced
  intro m member
  have row : m.val ∈ rows.map Subtype.val := List.mem_map.mpr ⟨m,member,rfl⟩
  rw [sliced] at row
  obtain ⟨⟨slice,sequence⟩,inside,same⟩ := List.mem_map.mp row
  have positive : 0 < slice.qty := (slices_sum some_.le fallback).2 slice (List.fst_mem_of_mem_zipIdx inside)
  have qty : m.val.qty = round4 (-slice.qty) := by rw [← same]; rfl
  have cost : m.val.costPerUnit = round4 slice.costPerUnit := by rw [← same]; rfl
  refine ⟨by rw [← same]; rfl,by rw [← same]; rfl,by rw [← same]; rfl,?_,?_,?_⟩
  · rw [StockMovement.sequence,← same]
    rfl
  · rw [qty]
    exact round4_nonpos (neg_nonpos.mpr positive.le)
  · rw [cost]
    exact Decimal.quantize_mem_grid 4 _

theorem Consumed.increasing (consumed : Consumed s t item reference now rows) : rows.Pairwise fun a b => a.sequence < b.sequence := by
  have ordered := List.pairwise_lt_range (n := rows.length)
  rw [← consumed.sequences] at ordered
  exact List.pairwise_map.mp ordered

theorem Consumed.first (consumed : Consumed s t item reference now rows) (some_ : 0 < item.qty) : ∃ m rest, rows = m :: rest ∧
    m.sequence = 0 ∧ m.val.purchaseLineId = (s.fifoLayers item.position).head?.map Prod.snd := by
  obtain ⟨fallback,layered⟩ := consumed.layered
  have head : (s.slices item.position item.qty fallback).head?.map FifoLayerConsumption.purchaseLineId = some ((s.fifoLayers item.position).head?.map Prod.snd) :=
    slices_head some_ fallback
  have sequences := consumed.sequences
  rw [← List.head?_map,← layered] at head
  cases rows with
  | nil => cases head
  | cons m rest =>
    refine ⟨m,rest,rfl,?_,?_⟩
    · rw [List.map_cons,List.length_cons,List.range_succ_eq_map] at sequences
      exact (List.cons.inj sequences).1
    · simpa using head

/-- Lines consumed one after the other, each with the rows it wrote. -/
inductive Dispatch (id : Nat) (now : Int) : Store → List (Item × Nat) → List (List StockMovement) → Store → Prop
  | nil (s : Store) : Dispatch id now s [] [] s
  | cons {s t u : Store} {entry : Item × Nat} {entries : List (Item × Nat)} {rows : List StockMovement} {groups : List (List StockMovement)} :
      Consumed s t entry.1 (.stockTransferLine id entry.2) now rows → Dispatch id now t entries groups u →
        Dispatch id now s (entry :: entries) (rows :: groups) u

variable {entries : List (Item × Nat)} {groups : List (List StockMovement)}

theorem ends_dispatch (id : Nat) (now : Int) (entries : List (Item × Nat)) : ∀ {s : Store},
    Ends (forM entries fun entry => do
      let _allocation ← consumeToMovements entry.1 .transferOut (.stockTransferLine id entry.2) now
      pure () : Tx Unit) s fun _ t => ∃ groups, Dispatch id now s entries groups t := by
  induction entries with
  | nil =>
    intro s
    exact ends_pure ⟨[],.nil s⟩
  | cons entry rest induction =>
    intro s
    rw [List.forM_cons]
    refine .bind (.bind (ends_consumeToMovements_consumed.mono fun _ t consumed => ends_pure ?_))
    obtain ⟨rows,consumed⟩ := consumed
    refine induction.mono fun _ u later => ?_
    obtain ⟨groups,later⟩ := later
    exact ⟨rows :: groups,.cons consumed later⟩

theorem Dispatch.moved (dispatch : Dispatch id now s entries groups t) : Moved s t groups.flatten := by
  induction dispatch with
  | nil s => exact moved_refl s
  | cons consumed later induction => exact consumed.moved.trans induction

theorem Dispatch.lines (dispatch : Dispatch id now s entries groups t) (positive : ∀ entry ∈ entries, 0 < entry.1.qty) :
    List.Forall₂ (fun entry rows => (∀ m ∈ rows, SentRow entry.1 (.stockTransferLine id entry.2) m) ∧
      rows.map StockMovement.sequence = List.range rows.length) entries groups := by
  induction dispatch with
  | nil s => exact .nil
  | cons consumed later induction =>
    obtain ⟨some_,positive⟩ := List.forall_mem_cons.mp positive
    exact .cons ⟨consumed.each some_,consumed.sequences⟩ (induction positive)

/-- The rows at a position. -/
def rowsAt (position : Position) (rows : List StockMovement) : List StockMovement := rows.filter fun m => m.val.position = position

theorem Consumed.placed (consumed : Consumed s t item reference now rows) : ∀ m ∈ rows, m.val.position = item.position := by
  obtain ⟨fallback,sliced⟩ := consumed.sliced
  intro m member
  have row : m.val ∈ rows.map Subtype.val := List.mem_map.mpr ⟨m,member,rfl⟩
  rw [sliced] at row
  obtain ⟨slice,-,same⟩ := List.mem_map.mp row
  rw [← same]
  rfl

theorem Consumed.rowsAt (consumed : Consumed s t item reference now rows) (later : List StockMovement) :
    Stock.rowsAt position (rows ++ later) = (if item.position = position then rows else []) ++ Stock.rowsAt position later := by
  rw [Stock.rowsAt,List.filter_append]
  congr 1
  split
  · next here => exact List.filter_eq_self.mpr fun m member => decide_eq_true ((consumed.placed m member).trans here)
  · next apart =>
    apply List.filter_eq_nil_iff.mpr
    intro m member
    simpa [consumed.placed m member] using apart

theorem Dispatch.unlayered (dispatch : Dispatch id now s entries groups t) (empty : (s.fifoLayers position).head? = none) :
    ∀ m ∈ rowsAt position groups.flatten, m.val.purchaseLineId = none := by
  induction dispatch with
  | nil s => exact List.forall_mem_nil _
  | @cons s t u entry entries rows groups consumed later induction =>
    rw [List.flatten_cons,consumed.rowsAt]
    split
    · next here =>
      subst here
      refine List.forall_mem_append.mpr ⟨fun m member => ?_,induction (consumed.drained.none empty)⟩
      obtain ⟨fallback,layered⟩ := consumed.layered
      have listed : m.val.purchaseLineId ∈ rows.map (·.val.purchaseLineId) := List.mem_map.mpr ⟨m,member,rfl⟩
      rw [layered] at listed
      obtain ⟨slice,inside,same⟩ := List.mem_map.mp listed
      exact same.symm.trans (slices_unlayered empty fallback slice inside)
    · next apart => exact induction ((consumed.drained.away (Ne.symm apart)).trans empty)

theorem Dispatch.nowhere (dispatch : Dispatch id now s entries groups t) (absent : ∀ entry ∈ entries, entry.1.position ≠ position) :
    rowsAt position groups.flatten = [] := by
  induction dispatch with
  | nil s => rfl
  | @cons s t u entry entries rows groups consumed later induction =>
    obtain ⟨here,others⟩ := List.forall_mem_cons.mp absent
    rw [List.flatten_cons,consumed.rowsAt,if_neg here,induction others]
    rfl

theorem Dispatch.first (dispatch : Dispatch id now s entries groups t) (positive : ∀ entry ∈ entries, 0 < entry.1.qty)
    (some_ : ∃ entry ∈ entries, entry.1.position = position) : ∃ m rest, rowsAt position groups.flatten = m :: rest ∧
      m.sequence = 0 ∧ m.val.purchaseLineId = (s.fifoLayers position).head?.map Prod.snd := by
  induction dispatch with
  | nil s =>
    obtain ⟨entry,member,-⟩ := some_
    cases member
  | @cons s t u entry entries rows groups consumed later induction =>
    obtain ⟨more,positive⟩ := List.forall_mem_cons.mp positive
    rw [List.flatten_cons,consumed.rowsAt]
    split
    · next here =>
      subst here
      obtain ⟨m,rest,rfl,sequence,layer⟩ := consumed.first more
      exact ⟨m,rest ++ rowsAt entry.1.position groups.flatten,rfl,sequence,layer⟩
    · next apart =>
      obtain ⟨other,member,there⟩ := some_
      have inside : other ∈ entries := (List.mem_cons.mp member).resolve_left fun same => apart (same ▸ there)
      obtain ⟨m,rest,listed,sequence,layer⟩ := induction positive ⟨other,inside,there⟩
      exact ⟨m,rest,by rw [listed,List.nil_append],sequence,layer.trans (by rw [consumed.drained.away (Ne.symm apart)])⟩

/-- Goods of other layers get a later sequence. -/
def After (a b : StockMovement) : Prop := a.val.purchaseLineId ≠ b.val.purchaseLineId → a.sequence < b.sequence

/-- Sequences keep the order of a position's goods exactly when its oldest layer lasts until the last line. -/
theorem Dispatch.after_iff (dispatch : Dispatch id now s entries groups t) (positive : ∀ entry ∈ entries, 0 < entry.1.qty) :
    (rowsAt position groups.flatten).Pairwise After ↔ s.oldestLasts (entries.map Prod.fst) position = true := by
  induction dispatch with
  | nil s =>
    refine iff_of_true .nil ?_
    rw [Store.oldestLasts]
    cases (s.fifoLayers position).head? <;> simp [lasts]
  | @cons s t u entry entries rows groups consumed later induction =>
    obtain ⟨some_,positive⟩ := List.forall_mem_cons.mp positive
    have next_ := induction positive
    rw [List.flatten_cons,consumed.rowsAt,Store.oldestLasts,List.map_cons]
    by_cases here : entry.1.position = position
    case neg =>
      have away := consumed.drained.away (Ne.symm here)
      rw [if_neg here,List.nil_append,List.filter_cons_of_neg (by simpa using here),next_,Store.oldestLasts,away]
    subst here
    rw [if_pos rfl,List.filter_cons_of_pos (by simp),List.map_cons]
    have increasing : rows.Pairwise After := by
      refine consumed.increasing.imp ?_
      intro a b less _
      exact less
    cases oldest : (s.fifoLayers entry.1.position).head? with
    | none =>
      refine iff_of_true (List.pairwise_of_forall_mem_list ?_) rfl
      have bare : ∀ m ∈ rows ++ rowsAt entry.1.position groups.flatten, m.val.purchaseLineId = none := by
        have whole := Dispatch.unlayered (.cons consumed later) oldest
        rwa [List.flatten_cons,consumed.rowsAt,if_pos rfl] at whole
      intro a first b second apart
      exact absurd ((bare a first).trans (bare b second).symm) apart
    | some head =>
      rw [Option.all_some]
      by_cases last : ∀ other ∈ entries, other.1.position ≠ entry.1.position
      · have none : (entries.map Prod.fst).filter (fun other : Item => other.position = entry.1.position) = [] := by
          simpa [List.filter_eq_nil_iff] using last
        rw [later.nowhere last,List.append_nil,none]
        exact iff_of_true increasing rfl
      · simp only [not_forall,not_not] at last
        obtain ⟨other,member,there⟩ := last
        obtain ⟨m,rest,listed,sequence,layer⟩ := later.first positive ⟨other,member,there⟩
        obtain ⟨next,more,others⟩ : ∃ next more, (entries.map Prod.fst).filter (fun other : Item => other.position = entry.1.position) = next :: more := by
          apply List.exists_cons_of_ne_nil
          exact List.ne_nil_of_mem (List.mem_filter.mpr ⟨List.mem_map.mpr ⟨other,member,rfl⟩,decide_eq_true there⟩)
        rw [Store.oldestLasts,others] at next_
        rw [others,List.map_cons,lasts,← List.map_cons]
        by_cases left : 0 < round4 (head.1.val.qtyRemaining - entry.1.qty)
        · obtain ⟨remaining,stays,remains⟩ := consumed.drained.stays oldest some_ left
          rw [stays,Option.all_some,remains] at next_
          rw [stays,Option.map_some] at layer
          have less : entry.1.qty < head.1.val.qtyRemaining := by
            by_contra more
            exact left.not_ge (round4_nonpos (sub_nonpos.mpr (not_lt.mp more)))
          obtain ⟨x,xs,rfl,start,taken⟩ := consumed.first some_
          obtain ⟨fallback,layered⟩ := consumed.layered
          rw [slices_within oldest some_ less,List.map_cons,List.map_singleton] at layered
          obtain rfl : xs = [] := List.map_eq_nil_iff.mp (List.cons.inj layered).2
          rw [oldest,Option.map_some] at taken
          rw [decide_eq_true left,Bool.true_and,← next_,List.singleton_append,List.pairwise_cons]
          refine ⟨fun both => both.2,fun ordered => ⟨fun y inside => ?_,ordered⟩⟩
          rw [listed] at inside ordered
          intro apart
          rcases List.mem_cons.mp inside with rfl | behind
          · exact absurd (taken.trans layer.symm) apart
          · rw [taken,← layer] at apart
            rw [start,← sequence]
            exact (List.pairwise_cons.mp ordered).1 y behind apart
        · rw [decide_eq_false left,Bool.false_and]
          refine iff_of_false (fun ordered => ?_) Bool.false_ne_true
          obtain ⟨x,xs,rfl,start,taken⟩ := consumed.first some_
          rw [oldest,Option.map_some] at taken
          have gone : x.val.purchaseLineId ≠ m.val.purchaseLineId := by
            rw [taken,layer]
            intro same
            obtain ⟨front,there,same⟩ := Option.map_eq_some_iff.mp same.symm
            exact consumed.drained.gone oldest some_ left front (List.mem_of_head? there) same
          rw [List.cons_append,List.pairwise_cons,listed] at ordered
          have before := ordered.1 m (List.mem_append_right _ List.mem_cons_self) gone
          rw [start,sequence] at before
          exact absurd before (lt_irrefl 0)

theorem ends_createStockTransfer {source dest : Nat} {lines : List ItemRequest} : Ends (createStockTransfer source dest lines now) s fun _ t =>
    source ≠ dest ∧ (∀ line ∈ lines, 0 < line.qty) ∧ ∃ stored groups, lines.mapM storeTransferLine = .ok stored ∧
      Dispatch s.transfers.length now { s with transfers := s.transfers ++ [⟨source,dest,.inTransit,stored⟩] }
        (lines.map (·.item source)).zipIdx groups t := by
  refine .bind (ends_require fun valid => .bind ((ends_locks _).mono fun _ t same => ?_))
  subst same
  refine .bind ((ends_assertAvailableAtSource _).mono fun _ u same => ?_)
  subst same
  refine .bind (ends_ofExcept fun stored ok => .bind (ends_get (.bind (ends_put ?_))))
  simp only [Bool.and_eq_true,List.all_eq_true,decide_eq_true_eq] at valid
  refine (ends_dispatch _ now _).mono fun _ v dispatched => ?_
  obtain ⟨groups,dispatch⟩ := dispatched
  exact ⟨valid.1.1,valid.2,stored,groups,ok,dispatch⟩

/-- Layers opened with a movement each. -/
def Landed (s t : Store) (layers : List LayerRow) : Prop := ∃ (new : List PurchaseLine) (rows : List StockMovement),
  new.map Subtype.val = layers ∧ rows.map (fun m => (m.val.position,m.val.qty)) = layers.map (fun row => (row.position,row.receivedQty)) ∧
    (∀ m ∈ rows, m.val.movementType = .transferIn) ∧ t = { s with layers := s.layers ++ new, movements := s.movements ++ rows }

theorem Landed.trans {layers more : List LayerRow} (first : Landed s t layers) (second : Landed t u more) : Landed s u (layers ++ more) := by
  obtain ⟨new,rows,opened,moved,kinds,rfl⟩ := first
  obtain ⟨later,others,opens,moves,kindsAlso,rfl⟩ := second
  refine ⟨new ++ later,rows ++ others,by rw [List.map_append,opened,opens],by rw [List.map_append,moved,moves,List.map_append],?_,by simp⟩
  exact List.forall_mem_append.mpr ⟨kinds,kindsAlso⟩

theorem ends_landed {γ : Type} {f : γ → Tx PUnit} (opens : γ → List LayerRow) (xs : List γ) : ∀ {s : Store} {layers : List LayerRow},
    Landed s t layers → (∀ x ∈ xs, ∀ u layers, Landed s u layers → Ends (f x) u fun _ v => Landed u v (opens x)) →
    Ends (forM xs f) t fun _ u => Landed s u (layers ++ xs.flatMap opens) := by
  induction xs generalizing t with
  | nil =>
    intro s layers landed _
    exact ends_pure (by simpa using landed)
  | cons x xs induction =>
    intro s layers landed each
    obtain ⟨here,others⟩ := List.forall_mem_cons.mp each
    rw [List.forM_cons]
    refine .bind ((here t layers landed).mono fun _ u opened => ?_)
    have so_far := landed.trans opened
    exact (induction so_far others).mono fun _ v last => by rwa [List.flatMap_cons,← List.append_assoc]

/-- The layer a dispatched slice is received into. -/
def arrival (dest : Nat) (line : TransferLine) (now : Int) (slice : StockMovement × Nat) : LayerRow :=
  ⟨none,⟨dest,line.productId,line.variationId⟩,round4 |slice.1.val.qty|,round4 |slice.1.val.qty|,round4 |slice.1.val.qty|,
    round4 (round4 slice.1.val.costPerUnit),now + slice.2⟩

theorem Landed.dispatched {layers : List LayerRow} (landed : Landed s t layers) (transfer index : Nat) :
    t.dispatched transfer index = s.dispatched transfer index := by
  obtain ⟨new,rows,-,-,kinds,rfl⟩ := landed
  have none : rows.filter (fun m => m.val.movementType = .transferOut && m.val.reference = .stockTransferLine transfer index) = [] := by
    apply List.filter_eq_nil_iff.mpr
    intro m member
    simp [kinds m member]
  rw [Store.dispatched,List.filter_append,none,List.append_nil]
  rfl

theorem ends_receiveTransferLine {transfer : StockTransfer} (entry : TransferLine × Nat) :
    Ends (receiveTransferLine id transfer now entry) s fun _ t =>
      Landed s t ((s.dispatched id entry.2).zipIdx.map (arrival transfer.destBranchId entry.1 now)) := by
  refine .bind (ends_get ?_)
  have start : Landed s s [] := ⟨[],[],rfl,rfl,List.forall_mem_nil _,by simp⟩
  rw [List.map_eq_flatMap,← List.nil_append (List.flatMap _ _)]
  refine ends_landed _ _ start fun slice _ u layers _ => ?_
  refine (ends_receiveIntoNewLayer_row _).mono fun _ v received => ?_
  obtain ⟨layer,m,opened,row,rfl⟩ := received
  refine ⟨[layer],[m],by rw [List.map_singleton,opened]; rfl,by rw [List.map_singleton,row]; rfl,?_,rfl⟩
  exact List.forall_mem_singleton.mpr (by rw [row])

theorem ends_receiveStockTransfer {transfer : StockTransfer} (here : s.transfers[id]? = some transfer) :
    Ends (receiveStockTransfer id now) s fun _ t => ∃ u, Landed s u (transfer.lines.zipIdx.flatMap fun entry =>
      (s.dispatched id entry.2).zipIdx.map (arrival transfer.destBranchId entry.1 now)) ∧ t.layers = u.layers ∧ t.movements = u.movements := by
  refine .bind (ends_found fun found there => .bind (ends_require fun _ => .bind ?_))
  obtain rfl := Option.some.inj (here.symm.trans there)
  have start : Landed s s [] := ⟨[],[],rfl,rfl,List.forall_mem_nil _,by simp⟩
  refine (ends_landed _ _ start fun entry _ t layers landed => ?_).mono fun _ u opened => ends_put ⟨u,opened,rfl,rfl⟩
  rw [← landed.dispatched]
  exact ends_receiveTransferLine entry

end Stock
