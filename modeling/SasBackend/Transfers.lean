import Mathlib.Logic.Equiv.Basic
import SasBackend.TransferRows

/-! A transfer keeps quantities and costs; it keeps the order of the goods as long as no line but the last of a product
reaches beyond the oldest layer of the source.
-/
namespace Stock
open SasBackend Tally Program Transition

variable {s t u : Store} {position : Position} {rows : List StockMovement} {id : Nat} {now : Int} {entries : List (Item × Nat)}
  {groups : List (List StockMovement)} {source dest : Nat} {lines : List ItemRequest}

/-- Transfers keep their lines, and what is sent is sent for new ones. -/
structure Sends (s t : Store) : Prop where
  rows : ∃ rows, t.movements = s.movements ++ rows ∧ ∀ m ∈ rows, m.val.movementType = .transferOut →
    ∀ transfer index, m.val.reference = .stockTransferLine transfer index → s.transfers.length ≤ transfer ∧ transfer < t.transfers.length
  transfers : ∀ (id : Nat) transfer, s.transfers[id]? = some transfer → ∃ later, t.transfers[id]? = some later ∧
    later.destBranchId = transfer.destBranchId ∧ later.lines = transfer.lines

theorem Sends.longer (sends : Sends s t) : s.transfers.length ≤ t.transfers.length := by
  by_contra shorter
  obtain ⟨later,found,-⟩ := sends.transfers t.transfers.length _ (List.getElem?_eq_getElem (not_le.mp shorter))
  simp at found

theorem Sends.refl (s : Store) : Sends s s := ⟨⟨[],by simp⟩,fun _ transfer here => ⟨transfer,here,rfl,rfl⟩⟩

theorem Sends.trans (first : Sends s t) (second : Sends t u) : Sends s u := by
  obtain ⟨rows,wrote,each⟩ := first.rows
  obtain ⟨more,again,others⟩ := second.rows
  refine ⟨⟨rows ++ more,by rw [again,wrote,List.append_assoc],?_⟩,fun id transfer here => ?_⟩
  · refine List.forall_mem_append.mpr ⟨fun m member kind transfer index named => ?_,fun m member kind transfer index named => ?_⟩
    · have bounds := each m member kind transfer index named
      exact ⟨bounds.1,bounds.2.trans_le second.longer⟩
    · have bounds := others m member kind transfer index named
      exact ⟨first.longer.trans bounds.1,bounds.2⟩
  · obtain ⟨later,there,branch,lines⟩ := first.transfers id transfer here
    obtain ⟨last,found,branchSame,linesSame⟩ := second.transfers id later there
    exact ⟨last,found,branchSame.trans branch,linesSame.trans lines⟩

theorem Writes.sends {kinds : MovementType → Prop} (writes : Writes kinds s t) (others : ∀ kind, kinds kind → kind ≠ .transferOut) : Sends s t := by
  obtain ⟨rows,wrote,each⟩ := writes.rows
  exact ⟨⟨rows,wrote,fun m member kind => absurd kind (others _ (each m member))⟩,writes.transfers⟩

theorem Dispatch.rows_of (dispatch : Dispatch id now s entries groups t) (positive : ∀ entry ∈ entries, 0 < entry.1.qty) :
    ∀ m ∈ groups.flatten, ∃ entry ∈ entries, SentRow entry.1 (.stockTransferLine id entry.2) m := by
  intro m member
  obtain ⟨rows,listed,inside⟩ := List.mem_flatten.mp member
  have lines := dispatch.lines positive
  rw [← List.map_snd_zip lines.length_eq.ge] at listed
  obtain ⟨⟨entry,_⟩,paired,rfl⟩ := List.mem_map.mp listed
  exact ⟨entry,(List.of_mem_zip paired).1,((List.forall₂_iff_zip.mp lines).2 paired).1 m inside⟩

theorem positive_items (positive : ∀ line ∈ lines, 0 < line.qty) : ∀ entry ∈ (lines.map (·.item source)).zipIdx, 0 < entry.1.qty := by
  intro entry member
  obtain ⟨line,inside,same⟩ := List.mem_map.mp (List.fst_mem_of_mem_zipIdx member)
  rw [← same]
  exact positive line inside

theorem sends_createStockTransfer : Ends (createStockTransfer source dest lines now) s fun _ => Sends s := by
  refine ends_createStockTransfer.mono fun _ t sent => ?_
  obtain ⟨-,positive,stored,groups,-,dispatch⟩ := sent
  obtain ⟨layers,-,rfl⟩ := dispatch.moved
  refine ⟨⟨groups.flatten,rfl,fun m member _ transfer index named => ?_⟩,fun other transfer here => ⟨transfer,?_,rfl,rfl⟩⟩
  · obtain ⟨entry,-,row⟩ := dispatch.rows_of (positive_items positive) m member
    cases named.symm.trans row.reference
    exact ⟨le_rfl,by simp⟩
  · exact List.getElem?_append_left (List.getElem?_eq_some_iff.mp here).1 |>.trans here

theorem serve_sends {request : Request} (served : serve s request = some t) : Sends s t := by
  cases other : request.other with
  | true => exact (serve_relates (frame_program other) served).toWrites.sends fun kind kept => kept.2
  | false =>
    obtain ⟨v,ran⟩ := serve_eq_some served
    cases request with
    | createPurchaseReceipt data =>
      refine (writes_createPurchaseReceipt data s v t ran).sends fun kind purchase => ?_
      rw [purchase]
      decide
    | createStockTransfer source dest lines now => exact sends_createStockTransfer v t ran
    | _ => cases other

theorem run_sends {requests : List Request} (run : Run (OfNext serve) s requests t) : Sends s t := by
  apply run.invariant
  · intro u request v sent served
    exact sent.trans (serve_sends served)
  · exact .refl s

def StockMovement.reference (m : StockMovement) : Reference := m.val.reference

/-- The layer a row is received into. -/
def opened (dest : Nat) (now : Int) (m : StockMovement) : LayerRow :=
  ⟨none,{ m.val.position with branchId := dest },|m.val.qty|,|m.val.qty|,|m.val.qty|,m.val.costPerUnit,now + m.sequence⟩

theorem arrivals_of_line {item : Item} {reference : Reference} (each : ∀ m ∈ rows, SentRow item reference m)
    (sequences : rows.map StockMovement.sequence = List.range rows.length) {line : TransferLine}
    (product : line.productId = item.position.productId) (variation : line.variationId = item.position.variationId) :
    rows.zipIdx.map (arrival dest line now) = rows.map (opened dest now) := by
  have numbered : rows.zipIdx = rows.map fun m => (m,m.sequence) := by
    rw [List.zipIdx_eq_zip_range',← List.range_eq_range',← sequences,List.map_prod_left_eq_zip]
  rw [numbered,List.map_map]
  apply List.map_congr_left
  intro m member
  have row := each m member
  have qty : round4 |m.val.qty| = |m.val.qty| := Decimal.quantize_of_mem_grid (Decimal.abs_mem_grid m.2.scaled)
  have cost : round4 m.val.costPerUnit = m.val.costPerUnit := Decimal.quantize_of_mem_grid row.cost
  simp only [Function.comp,arrival,opened,qty,cost,product,variation,row.position]

theorem sorted_rows {item : Item} {reference : Reference} (each : ∀ m ∈ rows, SentRow item reference m)
    (sequences : rows.map StockMovement.sequence = List.range rows.length) : rows.insertionSort (·.earlier ·) = rows := by
  apply List.Pairwise.insertionSort_eq
  have increasing := List.pairwise_lt_range (n := rows.length)
  rw [← sequences] at increasing
  refine (List.pairwise_map.mp increasing).imp_of_mem fun {a b} first second less => ?_
  simp [StockMovement.earlier,(each a first).numbered,(each b second).numbered,less]

/-- The receipt finds the rows of each line in their order. -/
theorem dispatched_lines {first : Store} {transfers : List StockTransfer} {later : Store}
    (earlier : ∀ m ∈ first.movements, m.val.movementType = .transferOut → ∀ index, m.val.reference ≠ .stockTransferLine id index)
    (dispatch : Dispatch id now { first with transfers := transfers } entries groups s) (positive : ∀ entry ∈ entries, 0 < entry.1.qty)
    (distinct : (entries.map Prod.snd).Nodup) (known : id < s.transfers.length) (sends : Sends s later) :
    List.Forall₂ (fun entry rows => later.dispatched id entry.2 = rows) entries groups := by
  obtain ⟨layers,-,movements⟩ := dispatch.moved
  obtain ⟨others,wrote,each⟩ := sends.rows
  have lines := dispatch.lines positive
  have keys : (entries.map fun entry => Reference.stockTransferLine id entry.2).Nodup := by
    have injective : Function.Injective fun index => Reference.stockTransferLine id index := fun i j same => by injection same
    have listed := distinct.map injective
    rwa [List.map_map] at listed
  have keyed : List.Forall₂ (fun reference rows => ∀ m ∈ rows, StockMovement.reference m = reference)
      (entries.map fun entry => Reference.stockTransferLine id entry.2) groups :=
    List.forall₂_map_left_iff.mpr (lines.imp fun entry rows line m member => (line.1 m member).reference)
  have found := List.forall₂_map_left_iff.mp (Queue.filter_flatten keys keyed)
  refine List.forall₂_iff_zip.mpr ⟨found.length_eq,fun {entry rows} paired => ?_⟩
  have whole : later.movements = first.movements ++ groups.flatten ++ others := by rw [wrote,movements]
  have none : first.movements.filter (fun m => m.val.movementType = .transferOut && m.val.reference = .stockTransferLine id entry.2) = [] := by
    apply List.filter_eq_nil_iff.mpr
    intro m member named
    simp only [Bool.and_eq_true,decide_eq_true_eq] at named
    exact earlier m member named.1 entry.2 named.2
  have no_more : others.filter (fun m => m.val.movementType = .transferOut && m.val.reference = .stockTransferLine id entry.2) = [] := by
    apply List.filter_eq_nil_iff.mpr
    intro m member named
    simp only [Bool.and_eq_true,decide_eq_true_eq] at named
    exact ((each m member named.1 id entry.2 named.2).1.trans_lt known).false
  have sent : groups.flatten.filter (fun m => m.val.movementType = .transferOut && m.val.reference = .stockTransferLine id entry.2) = rows := by
    refine Eq.trans ?_ ((List.forall₂_iff_zip.mp found).2 paired)
    apply List.filter_congr
    intro m member
    obtain ⟨line,-,row⟩ := dispatch.rows_of positive m member
    rw [decide_eq_true row.kind,Bool.true_and]
    rfl
  obtain ⟨each,sequences⟩ := (List.forall₂_iff_zip.mp lines).2 paired
  rw [Store.dispatched,whole,List.filter_append,List.filter_append,none,no_more,sent,List.nil_append,List.append_nil]
  exact sorted_rows each sequences

theorem stored_lines {stored : List TransferLine} (ok : lines.mapM storeTransferLine = .ok stored) :
    stored.zipIdx.map (fun entry => (entry.1.productId,entry.1.variationId,entry.2)) =
      (lines.map (·.item source)).zipIdx.map fun entry => (entry.1.position.productId,entry.1.position.variationId,entry.2) := by
  have each : stored.map (fun line => (line.productId,line.variationId)) = lines.map fun line => (line.productId,line.variationId) := by
    refine Outcome.mapM_map (fun line kept ok => ?_) ok
    rw [storeTransferLine] at ok
    split at ok
    · cases ok
      rfl
    · cases ok
  have left : stored.zipIdx.map (fun entry => (entry.1.productId,entry.1.variationId,entry.2)) =
      (stored.map fun line => (line.productId,line.variationId)).zipIdx.map fun entry => (entry.1.1,entry.1.2,entry.2) := by
    rw [List.zipIdx_map,List.map_map]
    rfl
  have right : (lines.map (·.item source)).zipIdx.map (fun entry => (entry.1.position.productId,entry.1.position.variationId,entry.2)) =
      (lines.map fun line => (line.productId,line.variationId)).zipIdx.map fun entry => (entry.1.1,entry.1.2,entry.2) := by
    rw [List.zipIdx_map,List.zipIdx_map,List.map_map,List.map_map]
    rfl
  rw [left,right,each]

/-- A layer is opened for each row, in the order of the rows. -/
theorem opened_rows {stored : List TransferLine} {later : Store} {at_ : Int} (ok : lines.mapM storeTransferLine = .ok stored)
    (found : List.Forall₂ (fun entry rows => later.dispatched id entry.2 = rows) (lines.map (·.item source)).zipIdx groups)
    (sent : List.Forall₂ (fun entry rows => (∀ m ∈ rows, SentRow entry.1 (.stockTransferLine id entry.2) m) ∧
      rows.map StockMovement.sequence = List.range rows.length) (lines.map (·.item source)).zipIdx groups) :
    (stored.zipIdx.flatMap fun entry => (later.dispatched id entry.2).zipIdx.map (arrival dest entry.1 at_)) =
      groups.flatten.map (opened dest at_) := by
  -- a line is received by its product, its variation and its number
  have by_key : List.Forall₂ (fun key rows => (later.dispatched id key.2.2).zipIdx.map (arrival dest ⟨key.1,key.2.1,0⟩ at_) =
      rows.map (opened dest at_)) (stored.zipIdx.map fun entry => (entry.1.productId,entry.1.variationId,entry.2)) groups := by
    rw [stored_lines ok]
    refine List.forall₂_map_left_iff.mpr (List.forall₂_iff_zip.mpr ⟨found.length_eq,fun {entry rows} paired => ?_⟩)
    obtain ⟨each,sequences⟩ := (List.forall₂_iff_zip.mp sent).2 paired
    dsimp only
    rw [(List.forall₂_iff_zip.mp found).2 paired]
    exact arrivals_of_line each sequences rfl rfl
  have matched : List.Forall₂ (fun (entry : TransferLine × Nat) rows => (later.dispatched id entry.2).zipIdx.map (arrival dest entry.1 at_) =
      rows.map (opened dest at_)) stored.zipIdx groups := List.forall₂_map_left_iff.mp by_key
  rw [List.flatMap_def,List.map_flatten]
  congr 1
  rw [← List.forall₂_eq_eq_eq]
  exact List.forall₂_map_left_iff.mpr (List.forall₂_map_right_iff.mpr matched)

/-- Older, or as old with a lesser id. -/
def Ahead (rank : Nat → Nat) (a b : PurchaseLine × Nat) : Prop :=
  a.1.val.createdAt < b.1.val.createdAt ∨ a.1.val.createdAt = b.1.val.createdAt ∧ rank a.2 ≤ rank b.2

instance (rank : Nat → Nat) : DecidableRel (Ahead rank) := fun _ _ => inferInstanceAs (Decidable (_ ∨ _))

instance (rank : Nat → Nat) : Std.Total (Ahead rank) where
  total a b := by
    unfold Ahead
    omega

instance (rank : Nat → Nat) : IsTrans (PurchaseLine × Nat) (Ahead rank) where
  trans a b c := by
    unfold Ahead
    omega

theorem fifoLayersBy_sorted (rank : Nat → Nat) (s : Store) (position : Position) : (s.fifoLayersBy rank position).Pairwise (Ahead rank) :=
  List.pairwise_insertionSort (Ahead rank) _

theorem mem_fifoLayersBy {rank : Nat → Nat} {entry : PurchaseLine × Nat} : entry ∈ s.fifoLayersBy rank position ↔
    entry ∈ s.fifoLayers position := by
  rw [Store.fifoLayersBy,Store.fifoLayers,List.mem_insertionSort,List.mem_insertionSort]

theorem fifoLayersBy_id (s : Store) (position : Position) : s.fifoLayersBy (fun id => id) position = s.fifoLayers position := by
  have perm : (s.fifoLayersBy (fun id => id) position).Perm (s.fifoLayers position) :=
    (List.perm_insertionSort _ _).trans (List.perm_insertionSort _ _).symm
  have sorted : (s.fifoLayers position).Pairwise (Ahead (fun id => id)) := by
    refine (fifoLayers_older s position).imp fun {a b} older => ?_
    unfold Older at older
    unfold Ahead
    dsimp only
    omega
  refine perm.eq_of_pairwise ?_ (fifoLayersBy_sorted (fun id => id) s position) sorted
  intro a b first second ahead behind
  have same : a.2 = b.2 := by
    unfold Ahead at ahead behind
    dsimp only at ahead behind
    omega
  have here := (mem_fifoLayers.mp (mem_fifoLayersBy.mp first)).1
  have there := (mem_fifoLayers.mp second).1
  rw [same,there,Option.some.injEq] at here
  exact Prod.ext here.symm same

variable {a b : PurchaseLine × Nat}

/-- Whatever the ids, a layer is taken first exactly when it is older. -/
theorem taken_first_iff (first : a ∈ s.fifoLayers position) (second : b ∈ s.fifoLayers position) (apart : a.2 ≠ b.2) :
    (∀ rank : Nat → Nat, rank.Injective → [a,b].Sublist (s.fifoLayersBy rank position)) ↔ a.1.val.createdAt < b.1.val.createdAt := by
  constructor
  · intro always
    by_contra late
    by_cases tie : a.1.val.createdAt = b.1.val.createdAt
    · -- the ids the other way round
      have ordered (rank : Nat → Nat) (injective : rank.Injective) : rank a.2 ≤ rank b.2 := by
        have ahead : Ahead rank a b := List.pairwise_iff_forall_sublist.mp (fifoLayersBy_sorted rank s position) (always rank injective)
        unfold Ahead at ahead
        omega
      have straight := ordered (fun id => id) Function.injective_id
      have swapped := ordered (Equiv.swap a.2 b.2) (Equiv.injective _)
      rw [Equiv.swap_apply_left,Equiv.swap_apply_right] at swapped
      exact apart (le_antisymm straight swapped)
    · have ahead : Ahead (fun id => id) a b :=
        List.pairwise_iff_forall_sublist.mp (fifoLayersBy_sorted (fun id => id) s position) (always (fun id => id) Function.injective_id)
      unfold Ahead at ahead
      omega
  · intro older rank _
    refine Queue.pair_sublist_of_pairwise (fifoLayersBy_sorted rank s position) (mem_fifoLayersBy.mpr first) (mem_fifoLayersBy.mpr second)
      (fun same => apart (congrArg Prod.snd same)) fun behind => ?_
    unfold Ahead at behind
    omega

/-- What is known of a transfer between the four states it goes through. -/
structure Transfer (source dest : Nat) (now : Int) (before sent arriving arrived : Store) (rows : List StockMovement) : Prop where
  sent : sent.movements = before.movements ++ rows
  each : ∀ m ∈ rows, m.val.position.branchId = source ∧ m.val.movementType = .transferOut ∧ m.val.qty ≤ 0
  landed : ∃ u, Landed arriving u (rows.map (opened dest now)) ∧ arrived.layers = u.layers ∧ arrived.movements = u.movements

theorem transfer_of_served {s0 s1 s2 s3 : Store} {requests : List Request} {sentAt : Int} (reached : Reachable Empty (OfNext serve) s0)
    (sent : serve s0 (.createStockTransfer source dest lines sentAt) = some s1) (run : Run (OfNext serve) s1 requests s2)
    (received : serve s2 (.receiveStockTransfer s0.transfers.length now) = some s3) :
    ∃ rows, Transfer source dest now s0 s1 s2 s3 rows ∧
      ((∀ position, (rowsAt position rows).Pairwise After) ↔ ∀ position, s0.oldestLasts (lines.map (·.item source)) position = true) := by
  obtain ⟨start,labels,⟨-,movements,-⟩,before⟩ := reached
  obtain ⟨v,ran⟩ := serve_eq_some sent
  obtain ⟨-,positive,stored,groups,ok,dispatch⟩ := ends_createStockTransfer v s1 ran
  obtain ⟨layers,-,wrote⟩ := dispatch.moved
  have positive : ∀ entry ∈ (lines.map (·.item source)).zipIdx, 0 < entry.1.qty := positive_items positive
  have earlier : ∀ m ∈ s0.movements, m.val.movementType = .transferOut → ∀ index, m.val.reference ≠ .stockTransferLine s0.transfers.length index := by
    obtain ⟨rows,all,known⟩ := (run_sends before).rows
    rw [movements,List.nil_append] at all
    rw [all]
    intro m member kind index named
    exact (known m member kind _ index named).2.false
  have transfers : s1.transfers = s0.transfers ++ [⟨source,dest,.inTransit,stored⟩] := by rw [wrote]
  have sends := run_sends run
  obtain ⟨later,here,destSame,linesSame⟩ := sends.transfers s0.transfers.length _ (by rw [transfers,List.getElem?_concat_length])
  have known : s0.transfers.length < s1.transfers.length := by simp [transfers]
  have distinct : ((lines.map (·.item source)).zipIdx.map Prod.snd).Nodup := by
    rw [List.zipIdx_map_snd]
    exact List.nodup_range'
  have found := dispatched_lines earlier dispatch positive distinct known sends
  obtain ⟨w,last⟩ := serve_eq_some received
  obtain ⟨u,landed,layersSame,movementsSame⟩ := ends_receiveStockTransfer here w s3 last
  rw [destSame,linesSame,opened_rows ok found (dispatch.lines positive)] at landed
  refine ⟨groups.flatten,⟨by rw [wrote],fun m member => ?_,u,landed,layersSame,movementsSame⟩,?_⟩
  · obtain ⟨entry,inside,row⟩ := dispatch.rows_of positive m member
    obtain ⟨line,-,same⟩ := List.mem_map.mp (List.fst_mem_of_mem_zipIdx inside)
    refine ⟨?_,row.kind,row.taken⟩
    rw [row.position,← same]
    rfl
  · have items : (lines.map (·.item source)).zipIdx.map Prod.fst = lines.map (·.item source) := List.zipIdx_map_fst 0 _
    refine forall_congr' fun position => ?_
    rw [dispatch.after_iff positive,items]
    rfl

section Whole
variable {before sent arriving arrived : Store}

theorem Transfer.rows_eq (transfer : Transfer source dest now before sent arriving arrived rows) : before.rowsSince sent = rows := by
  rw [Store.rowsSince,transfer.sent,List.drop_left]

theorem Transfer.layers (transfer : Transfer source dest now before sent arriving arrived rows) :
    (arriving.layersSince arrived).map (·.1.val) = rows.map (opened dest now) ∧
      (arriving.layersSince arrived).map Prod.snd = List.range' arriving.layers.length rows.length := by
  obtain ⟨u,⟨new,moved,each,-,-,same⟩,layers,-⟩ := transfer.landed
  have since : arriving.layersSince arrived = new.zipIdx arriving.layers.length := by
    rw [Store.layersSince,layers,same,List.zipIdx_append,Nat.zero_add]
    exact List.drop_left' List.length_zipIdx
  have length : new.length = rows.length := by
    have lengths := congrArg List.length each
    rwa [List.length_map,List.length_map] at lengths
  rw [since,List.zipIdx_map_snd,length,← each]
  refine ⟨?_,rfl⟩
  have first : (new.zipIdx arriving.layers.length).map Prod.fst = new := List.zipIdx_map_fst _ _
  conv_rhs => rw [← first,List.map_map]
  rfl

theorem layersSince_found {entry : PurchaseLine × Nat} (member : entry ∈ s.layersSince t) : t.layers[entry.2]? = some entry.1 :=
  List.mem_zipIdx_iff_getElem?.mp (List.mem_of_mem_drop member)

theorem Transfer.goods (transfer : Transfer source dest now before sent arriving arrived rows) :
    List.Forall₂ (Opens dest) rows (arriving.layersSince arrived) := by
  have same : List.Forall₂ (fun m entry => opened dest now m = entry.1.val) rows (arriving.layersSince arrived) := by
    have listed := transfer.layers.1.symm
    rw [← List.forall₂_eq_eq_eq] at listed
    exact List.forall₂_map_right_iff.mp (List.forall₂_map_left_iff.mp listed)
  refine same.imp fun m entry row => ?_
  rw [Opens,← row]
  exact ⟨rfl,rfl,rfl,rfl⟩

theorem Position.eq_iff {position : Position} {branchId productId : Nat} {variationId : Option Nat} :
    position = ⟨branchId,productId,variationId⟩ ↔ position.branchId = branchId ∧ position.productId = productId ∧ position.variationId = variationId := by
  cases position
  simp

theorem Transfer.tally (transfer : Transfer source dest now before sent arriving arrived rows) (weight : StockMovement → ℚ)
    (productId : Nat) (variationId : Option Nat) :
    Tally.tally (fun m => { m.val.position with branchId := dest }) weight ⟨dest,productId,variationId⟩ rows =
      Tally.tally (fun m => m.val.position) weight ⟨source,productId,variationId⟩ rows := by
  unfold Tally.tally
  congr 2
  apply List.filter_congr
  intro m member
  have branch := (transfer.each m member).1
  apply decide_eq_decide.mpr
  rw [Position.mk.injEq,Position.eq_iff,branch]
  simp

theorem Transfer.quantity (transfer : Transfer source dest now before sent arriving arrived rows) (productId : Nat) (variationId : Option Nat) :
    arrived.balance ⟨dest,productId,variationId⟩ - arriving.balance ⟨dest,productId,variationId⟩ =
      before.balance ⟨source,productId,variationId⟩ - sent.balance ⟨source,productId,variationId⟩ := by
  obtain ⟨u,⟨new,moved,-,amounts,-,same⟩,-,movements⟩ := transfer.landed
  have received : Tally.tally (fun m : StockMovement => m.val.position) (fun m => m.val.qty) ⟨dest,productId,variationId⟩ moved =
      Tally.tally (fun m => { m.val.position with branchId := dest }) (fun m => |m.val.qty|) ⟨dest,productId,variationId⟩ rows := by
    have mapped := congrArg (Tally.tally Prod.fst Prod.snd (⟨dest,productId,variationId⟩ : Position)) amounts
    rwa [tally_map,List.map_map,tally_map] at mapped
  have taken : Tally.tally (fun m : StockMovement => m.val.position) (fun m => |m.val.qty|) ⟨source,productId,variationId⟩ rows =
      -Tally.tally (fun m : StockMovement => m.val.position) (fun m => m.val.qty) ⟨source,productId,variationId⟩ rows := by
    rw [tally_congr fun m member => abs_of_nonpos (transfer.each m member).2.2]
    simp only [Tally.tally,List.sum_neg,List.map_map]
    rfl
  unfold Store.balance
  rw [movements,same,transfer.sent,tally_append,tally_append,received,transfer.tally,taken]
  ring

theorem Transfer.cost (transfer : Transfer source dest now before sent arriving arrived rows) (productId : Nat) (variationId : Option Nat) :
    Tally.tally (fun entry => entry.1.val.position) (fun entry => PurchaseLine.cost entry.1) ⟨dest,productId,variationId⟩ (arriving.layersSince arrived) =
      Tally.tally (fun m => m.val.position) StockMovement.cost ⟨source,productId,variationId⟩ rows := by
  rw [← transfer.tally]
  have mapped := congrArg (Tally.tally LayerRow.position (fun row => row.receivedQty * row.costPerUnit) (⟨dest,productId,variationId⟩ : Position)) transfer.layers.1
  rwa [tally_map,tally_map] at mapped

/-- The order of two rows' layers is that of their sequences. -/
theorem Transfer.pair (transfer : Transfer source dest now before sent arriving arrived rows) {i j : Nat} {x y : StockMovement}
    {a b : PurchaseLine × Nat} (earlier : i < j) (first : rows[i]? = some x) (second : rows[j]? = some y)
    (firstLayer : (arriving.layersSince arrived)[i]? = some a) (secondLayer : (arriving.layersSince arrived)[j]? = some b)
    (same : x.val.position = y.val.position) :
    (∀ rank : Nat → Nat, rank.Injective → [a,b].Sublist (arrived.fifoLayersBy rank a.1.val.position)) ↔ x.sequence < y.sequence := by
  obtain ⟨rows_,ids⟩ := transfer.layers
  have row {k : Nat} {m : StockMovement} {entry : PurchaseLine × Nat} (here : rows[k]? = some m)
      (there : (arriving.layersSince arrived)[k]? = some entry) : entry.1.val = opened dest now m ∧ entry.2 = arriving.layers.length + k := by
    have inside := (List.getElem?_eq_some_iff.mp here).1
    have layer := congrArg (·[k]?) rows_
    have number := congrArg (·[k]?) ids
    simp only [List.getElem?_map,here,there,Option.map_some,Option.some.injEq] at layer number
    rw [List.getElem?_range' inside,Option.some.injEq,Nat.one_mul] at number
    exact ⟨layer,number⟩
  obtain ⟨rowA,idA⟩ := row first firstLayer
  obtain ⟨rowB,idB⟩ := row second secondLayer
  have member {m : StockMovement} {entry : PurchaseLine × Nat} (inside : entry ∈ arriving.layersSince arrived) (opens : entry.1.val = opened dest now m)
      (placed : m.val.position = x.val.position) : entry ∈ arrived.fifoLayers a.1.val.position := by
    refine mem_fifoLayers.mpr ⟨layersSince_found inside,?_,?_⟩
    · rw [opens,rowA,opened,opened,placed]
    · rw [opens]
      exact abs_pos.mpr m.2.nonzero
  rw [taken_first_iff (member (List.mem_of_getElem? firstLayer) rowA rfl) (member (List.mem_of_getElem? secondLayer) rowB same.symm) (by omega),
    rowA,rowB,opened,opened]
  dsimp only
  omega

theorem Transfer.order_iff (transfer : Transfer source dest now before sent arriving arrived rows) :
    (∀ rank : Nat → Nat, rank.Injective → ∀ (i j : Nat) x y a b, i < j → rows[i]? = some x → rows[j]? = some y →
        (arriving.layersSince arrived)[i]? = some a → (arriving.layersSince arrived)[j]? = some b →
        x.val.position = y.val.position → x.val.purchaseLineId ≠ y.val.purchaseLineId →
        [a,b].Sublist (arrived.fifoLayersBy rank a.1.val.position)) ↔ ∀ position, (rowsAt position rows).Pairwise After := by
  have pairs : (∀ position, (rowsAt position rows).Pairwise After) ↔
      rows.Pairwise fun x y => x.val.position = y.val.position → After x y := by
    simp only [rowsAt,List.pairwise_filter,decide_eq_true_eq]
    simp only [List.pairwise_iff_forall_sublist]
    constructor
    · intro each x y listed same
      exact each x.val.position listed rfl same.symm
    · intro each position x y listed here there
      exact each listed (here.trans there.symm)
  have length : (arriving.layersSince arrived).length = rows.length := transfer.goods.length_eq.symm
  rw [pairs,List.pairwise_iff_getElem]
  constructor
  · intro order i j inside last earlier same apart
    have firstLayer := List.getElem?_eq_getElem (length ▸ inside)
    have secondLayer := List.getElem?_eq_getElem (length ▸ last)
    have first := List.getElem?_eq_getElem inside
    have second := List.getElem?_eq_getElem last
    apply (transfer.pair earlier first second firstLayer secondLayer same).mp
    intro rank injective
    exact order rank injective i j _ _ _ _ earlier first second firstLayer secondLayer same apart
  · intro after rank injective i j x y a b earlier first second firstLayer secondLayer same apart
    obtain ⟨inside,rfl⟩ := List.getElem?_eq_some_iff.mp first
    obtain ⟨last,rfl⟩ := List.getElem?_eq_some_iff.mp second
    exact (transfer.pair earlier first second firstLayer secondLayer same).mpr (after i j inside last earlier same apart) rank injective

/-- A transfer is kept exactly when at every position the oldest layer of the source lasts until the last line. -/
theorem transfer_kept_iff {requests : List Request} {sentAt : Int} (reached : Reachable Empty (OfNext serve) before)
    (dispatched : serve before (.createStockTransfer source dest lines sentAt) = some sent) (run : Run (OfNext serve) sent requests arriving)
    (received : serve arriving (.receiveStockTransfer before.transfers.length now) = some arrived) :
    TransferKept source dest before sent arriving arrived ↔
      ∀ position, before.oldestLasts (lines.map (·.item source)) position = true := by
  obtain ⟨rows,transfer,lasting⟩ := transfer_of_served reached dispatched run received
  rw [← lasting,← transfer.order_iff,← transfer.rows_eq]
  refine ⟨fun kept => kept.order,fun order => ⟨?_,transfer.quantity,?_,order⟩⟩
  · rw [transfer.rows_eq]
    exact transfer.goods
  · rw [transfer.rows_eq]
    exact transfer.cost

end Whole

theorem oldestLasts_iff {items : List Item} : (∀ position, s.oldestLasts items position = true) ↔
    (items.all fun item => s.oldestLasts items item.position) = true := by
  rw [List.all_eq_true]
  refine ⟨fun all item _ => all item.position,fun listed position => ?_⟩
  by_cases some_ : ∃ item ∈ items, item.position = position
  · obtain ⟨item,member,rfl⟩ := some_
    exact listed item member
  · have none : items.filter (·.position = position) = [] := by simpa [List.filter_eq_nil_iff] using some_
    rw [Store.oldestLasts,none]
    cases (s.fifoLayers position).head? <;> rfl

private def delivery (branchId : Nat) (qty cost : ℚ) (receivedAt : Int) : Request :=
  .createPurchaseReceipt ⟨branchId,none,[⟨5,none,none,qty,cost⟩],receivedAt⟩

/-- Layers of two, two and six units. -/
private def depot : Store := (execute serve .init [delivery 1 2 5 10,delivery 1 2 6 20,delivery 1 6 7 30]).getD .init

private theorem depot_reached : Reachable Empty (OfNext serve) depot :=
  ⟨.init,_,empty_init,run_of_isSome Store.init (by decide +kernel)⟩

/-- Two lines for one product. -/
private def dispatchOf (first second : ℚ) : Request := .createStockTransfer 1 2 [⟨5,none,first⟩,⟨5,none,second⟩] 40

private def after (s : Store) (request : Request) : Store := (serve s request).getD s

private theorem served_after {request : Request} (ok : (serve s request).isSome = true) : serve s request = some (after s request) := by
  obtain ⟨t,served⟩ := Option.isSome_iff_exists.mp ok
  rw [after,served,Option.getD_some]

private theorem depot_transfers : depot.transfers.length = 0 := by decide +kernel

/-- A unit, then four of all three layers, and another delivery to the destination in between. -/
theorem transfer_kept_of_three : ∃ before sent arriving arrived, Reachable Empty (OfNext serve) before ∧
    serve before (dispatchOf 1 4) = some sent ∧ serve arriving (.receiveStockTransfer 0 60) = some arrived ∧
    (before.rowsSince sent).length = 4 ∧ TransferKept 1 2 before sent arriving arrived := by
  have first : serve depot (dispatchOf 1 4) = some (after depot (dispatchOf 1 4)) := served_after (by decide +kernel)
  have second : serve (after depot (dispatchOf 1 4)) (delivery 2 3 4 50) = some (after (after depot (dispatchOf 1 4)) (delivery 2 3 4 50)) :=
    served_after (by decide +kernel)
  have third : serve (after (after depot (dispatchOf 1 4)) (delivery 2 3 4 50)) (.receiveStockTransfer 0 60) =
      some (after (after (after depot (dispatchOf 1 4)) (delivery 2 3 4 50)) (.receiveStockTransfer 0 60)) := served_after (by decide +kernel)
  refine ⟨depot,_,_,_,depot_reached,first,third,by decide +kernel,?_⟩
  have asked := third
  rw [← depot_transfers] at asked
  have kept := (transfer_kept_iff depot_reached first (.cons second (.nil _)) asked).mpr (oldestLasts_iff.mpr (by decide +kernel))
  rwa [depot_transfers] at kept

/-- Four of the first two layers, then five of the last: what was taken last is taken before the rest of the first line. -/
theorem transfer_reordered : ∃ before sent arrived, Reachable Empty (OfNext serve) before ∧
    serve before (dispatchOf 4 5) = some sent ∧ serve sent (.receiveStockTransfer 0 60) = some arrived ∧
    ¬ TransferKept 1 2 before sent sent arrived := by
  have first : serve depot (dispatchOf 4 5) = some (after depot (dispatchOf 4 5)) := served_after (by decide +kernel)
  have second : serve (after depot (dispatchOf 4 5)) (.receiveStockTransfer 0 60) =
      some (after (after depot (dispatchOf 4 5)) (.receiveStockTransfer 0 60)) := served_after (by decide +kernel)
  refine ⟨depot,_,_,depot_reached,first,second,fun kept => ?_⟩
  have rows : (depot.rowsSince (after depot (dispatchOf 4 5))).map (fun m => (m.val.position,m.val.purchaseLineId)) =
      [(⟨1,5,none⟩,some 0),(⟨1,5,none⟩,some 1),(⟨1,5,none⟩,some 2)] := by decide +kernel
  have layers : ((after depot (dispatchOf 4 5)).layersSince (after (after depot (dispatchOf 4 5)) (.receiveStockTransfer 0 60))).map
      (fun entry => (entry.1.val.position,entry.2)) = [(⟨2,5,none⟩,3),(⟨2,5,none⟩,4),(⟨2,5,none⟩,5)] := by decide +kernel
  have queue : ((after (after depot (dispatchOf 4 5)) (.receiveStockTransfer 0 60)).fifoLayersBy (fun id => id) ⟨2,5,none⟩).map Prod.snd = [3,5,4] := by
    decide +kernel
  have at_ {α β : Type} {f : α → β} {xs : List α} {ys : List β} (same : xs.map f = ys) (k : Nat) {y : β} (there : ys[k]? = some y) :
      ∃ x, xs[k]? = some x ∧ f x = y := by
    rw [← same,List.getElem?_map] at there
    exact Option.map_eq_some_iff.mp there
  obtain ⟨x,atX,rowX⟩ := at_ rows 1 rfl
  obtain ⟨y,atY,rowY⟩ := at_ rows 2 rfl
  obtain ⟨a,atA,layerA⟩ := at_ layers 1 rfl
  obtain ⟨b,atB,layerB⟩ := at_ layers 2 rfl
  obtain ⟨placeX,fromX⟩ := Prod.mk.inj rowX
  obtain ⟨placeY,fromY⟩ := Prod.mk.inj rowY
  obtain ⟨placeA,idA⟩ := Prod.mk.inj layerA
  obtain ⟨-,idB⟩ := Prod.mk.inj layerB
  have order := kept.order (fun id => id) Function.injective_id 1 2 x y a b (by decide) atX atY atA atB (placeX.trans placeY.symm)
    (by rw [fromX,fromY]; decide)
  have ids := order.map Prod.snd
  rw [placeA,queue,List.map_cons,List.map_singleton,idA,idB] at ids
  revert ids
  decide

end Stock
