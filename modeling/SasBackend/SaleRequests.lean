import SasBackend.Consumption

/-! Sales, tabs, returns, void and cancel keep the layers: what they write for a sale line, and that nothing of a line has come back
while its sale stands and has no returns.
-/
namespace Stock
open SasBackend Tally Program Transition
open Oversell (Covers)
open Refunds (LineId SaleLineRequest ReturnLineRequest CreateSaleReturnRequest)

variable {s t : Store} {drift due spare : Nat → ℚ} {id saleId : Nat} {qty : ℚ} {position : Position} {line : LineId} {rows : List StockMovement}

def Store.closedSale (s : Store) (saleId : Nat) : Bool :=
  s.sales[saleId]?.any fun sale => sale.status = .voided || sale.status = .cancelled

theorem closedSale_iff : s.closedSale saleId = true ↔ ∃ sale, s.sales[saleId]? = some sale ∧ (sale.status = .voided ∨ sale.status = .cancelled) := by
  rw [Store.closedSale]
  cases s.sales[saleId]? with
  | none => simp
  | some sale => simp

/-- Rows and returns are about sales there are, and a line comes back by itself only with its sale. -/
structure Papers (s : Store) : Prop where
  sold : ∀ m ∈ s.movements, ∀ line, m.val.reference = .saleLine line → line.saleId < s.sales.length
  closed : ∀ m ∈ s.movements, m.val.movementType = .saleReturn → ∀ line, m.val.reference = .saleLine line → s.closedSale line.saleId
  linked : ∀ r ∈ s.returns, ∀ line ∈ r.lines, ∀ id, line.saleLineId = some id → r.saleId = some id.saleId ∧ id.saleId < s.sales.length

theorem linkedLine_found {saleReturn index : Nat} (linked : s.linkedLine saleReturn index = some line) :
    ∃ r ∈ s.returns, ∃ item ∈ r.lines, item.saleLineId = some line := by
  obtain ⟨item,found,named⟩ := Option.bind_eq_some_iff.mp linked
  obtain ⟨r,there,inside⟩ := Option.bind_eq_some_iff.mp found
  exact ⟨r,List.mem_of_getElem? there,item,List.mem_of_getElem? inside,named⟩

theorem about_eq_some {reference : Reference} : s.about reference = some line ↔
    reference = .saleLine line ∨ ∃ saleReturn index, reference = .saleReturnLine saleReturn index ∧ s.linkedLine saleReturn index = some line := by
  cases reference <;> simp [Store.about]

theorem about_later {more : List SaleReturn} (returns : t.returns = s.returns ++ more) {reference : Reference}
    (reported : ∀ saleReturn index, reference = .saleReturnLine saleReturn index → saleReturn < s.returns.length) :
    t.about reference = s.about reference := by
  cases reference with
  | saleReturnLine saleReturn index =>
    have before := reported saleReturn index rfl
    change t.linkedLine _ _ = s.linkedLine _ _
    rw [Store.linkedLine,returns,List.getElem?_append_left before,Store.linkedLine]
  | _ => rfl

theorem givesBack_cases {m : StockMovement} (gives : s.givesBack line m = true) : m.val.movementType = .saleReturn ∧
    (m.val.reference = .saleLine line ∨ ∃ r ∈ s.returns, ∃ item ∈ r.lines, item.saleLineId = some line) := by
  simp only [Store.givesBack,Bool.and_eq_true,decide_eq_true_eq] at gives
  refine ⟨gives.1,(about_eq_some.mp gives.2).imp_right ?_⟩
  rintro ⟨saleReturn,index,-,linked⟩
  exact linkedLine_found linked

theorem untouched_iff : s.untouched line = true ↔ ∀ m ∈ s.movements, s.givesBack line m = false := by
  simp [Store.untouched]

theorem untouched_same (movements : t.movements = s.movements) (returns : t.returns = s.returns) (untouched : s.untouched line) :
    t.untouched line := by
  obtain ⟨_,_,_,_,_,_,_,_,_⟩ := t
  obtain rfl := movements
  obtain rfl := returns
  exact untouched

theorem Papers.untouched (papers : Papers s) (stands : s.closedSale saleId = false) (unreturned : s.hasReturnLines saleId = false)
    (index : Nat) : s.untouched ⟨saleId,index⟩ := by
  refine untouched_iff.mpr fun m member => Bool.eq_false_iff.mpr fun gives => ?_
  obtain ⟨typed,named | ⟨r,listed,item,inside,linked⟩⟩ := givesBack_cases gives
  · have closed := papers.closed m member typed _ named
    rw [stands] at closed
    cases closed
  · have same := (papers.linked r listed item inside _ linked).1
    simp only [Store.hasReturnLines,List.any_eq_false] at unreturned
    have nonempty : r.lines ≠ [] := List.ne_nil_of_mem inside
    exact unreturned r listed (by simp [same,nonempty])

theorem Papers.unheard (papers : Papers s) (index : Nat) : s.untouched ⟨s.sales.length,index⟩ := by
  refine untouched_iff.mpr fun m member => Bool.eq_false_iff.mpr fun gives => ?_
  obtain ⟨-,named | ⟨r,listed,item,inside,linked⟩⟩ := givesBack_cases gives
  · exact lt_irrefl _ (papers.sold m member _ named)
  · exact lt_irrefl _ (papers.linked r listed item inside _ linked).2

theorem Papers.grow (papers : Papers s) (rows : List StockMovement) (movements : t.movements = s.movements ++ rows) (returns : t.returns = s.returns)
    (longer : s.sales.length ≤ t.sales.length) (remains : ∀ saleId, s.closedSale saleId → t.closedSale saleId)
    (sold : ∀ m ∈ rows, ∀ line, m.val.reference = .saleLine line → line.saleId < t.sales.length)
    (closed : ∀ m ∈ rows, m.val.movementType = .saleReturn → ∀ line, m.val.reference = .saleLine line → t.closedSale line.saleId) :
    Papers t := by
  constructor
  · rw [movements]
    exact List.forall_mem_append.mpr ⟨fun m member line named => (papers.sold m member line named).trans_le longer,sold⟩
  · rw [movements]
    exact List.forall_mem_append.mpr ⟨fun m member typed line named => remains _ (papers.closed m member typed line named),closed⟩
  · rw [returns]
    intro r listed item inside id linked
    obtain ⟨same,before⟩ := papers.linked r listed item inside id linked
    exact ⟨same,before.trans_le longer⟩

theorem Papers.aside (papers : Papers s) (aside : Aside s t) : Papers t := by
  obtain ⟨rows,wrote,plain⟩ := aside.rows
  have same (saleId : Nat) : t.closedSale saleId = s.closedSale saleId := by rw [Store.closedSale,aside.sales,Store.closedSale]
  refine papers.grow rows wrote aside.returns (by rw [aside.sales]) (fun saleId closed => (same saleId).trans closed) ?_ ?_
  · exact fun m member line named => absurd named ((plain m member).2.2 line)
  · exact fun m member typed => absurd typed (plain m member).2.1

/-- Between requests the layers are accounted for and the papers are in order. -/
structure Conserved (drift : Nat → ℚ) (s : Store) : Prop where
  settled : Settled drift s
  papers : Papers s

theorem Conserved.steady (conserved : Conserved drift s) (steady : Steady drift s t) : Conserved drift t := ⟨steady.1,conserved.papers.aside steady.2⟩

/-- What has been written for the lines of a sale. -/
structure SoldRows (saleId : Nat) (entries : List (Item × Nat)) (rows : List StockMovement) : Prop where
  sold : ∀ m ∈ rows, m.val.movementType = .sale ∧ ∃ entry ∈ entries, m.val.reference = .saleLine ⟨saleId,entry.2⟩
  lines : ∀ entry ∈ entries,
    Outgoing (rows.filter (·.val.reference = .saleLine ⟨saleId,entry.2⟩)) entry.1 .sale (.saleLine ⟨saleId,entry.2⟩)
  placed : ∀ position, tally (fun m : StockMovement => m.val.position) (fun m => m.val.qty) position rows =
    -tally (fun entry : Item × Nat => entry.1.position) (fun entry => round4 entry.1.qty) position entries

theorem soldRows_nil (saleId : Nat) : SoldRows saleId [] [] := ⟨List.forall_mem_nil _,List.forall_mem_nil _,fun _ => by simp⟩

theorem tally_placed {place : Position} (placed : ∀ m ∈ rows, m.val.position = place) (position : Position) :
    tally (fun m : StockMovement => m.val.position) (fun m => m.val.qty) position rows =
      if place = position then (rows.map (·.val.qty)).sum else 0 := by
  split
  · next same =>
    rw [tally,List.filter_eq_self.mpr fun m member => decide_eq_true ((placed m member).trans same)]
  · next apart => exact tally_eq_zero fun m member here => apart ((placed m member).symm.trans here)

theorem SoldRows.cons {entry : Item × Nat} {entries : List (Item × Nat)} {own rest : List StockMovement}
    (outgoing : Outgoing own entry.1 .sale (.saleLine ⟨saleId,entry.2⟩)) (soldRows : SoldRows saleId entries rest)
    (fresh : entry.2 ∉ entries.map Prod.snd) : SoldRows saleId (entry :: entries) (own ++ rest) where
  sold := by
    refine List.forall_mem_append.mpr ⟨fun m member => ?_,fun m member => ?_⟩
    · obtain ⟨-,typed,about,-⟩ := outgoing.each m member
      exact ⟨typed,entry,List.mem_cons_self,about⟩
    · obtain ⟨typed,other,inside,about⟩ := soldRows.sold m member
      exact ⟨typed,other,List.mem_cons_of_mem _ inside,about⟩
  lines := by
    refine List.forall_mem_cons.mpr ⟨?_,fun other inside => ?_⟩
    · have mine : own.filter (·.val.reference = .saleLine ⟨saleId,entry.2⟩) = own :=
        List.filter_eq_self.mpr fun m member => decide_eq_true (outgoing.each m member).2.2.1
      have none : rest.filter (·.val.reference = .saleLine ⟨saleId,entry.2⟩) = [] := by
        refine List.filter_eq_nil_iff.mpr fun m member here => ?_
        obtain ⟨-,other,inside,about⟩ := soldRows.sold m member
        have same := about.symm.trans (of_decide_eq_true here)
        simp only [Reference.saleLine.injEq,LineId.mk.injEq,true_and] at same
        exact fresh (same ▸ List.mem_map_of_mem inside)
      rw [List.filter_append,mine,none,List.append_nil]
      exact outgoing
    · have none : own.filter (·.val.reference = .saleLine ⟨saleId,other.2⟩) = [] := by
        refine List.filter_eq_nil_iff.mpr fun m member here => ?_
        have same := (outgoing.each m member).2.2.1.symm.trans (of_decide_eq_true here)
        simp only [Reference.saleLine.injEq,LineId.mk.injEq,true_and] at same
        exact fresh (same ▸ List.mem_map_of_mem inside)
      rw [List.filter_append,none,List.nil_append]
      exact soldRows.lines other inside
  placed position := by
    rw [tally_append,soldRows.placed,tally_placed (fun m member => (outgoing.each m member).1) position,outgoing.total,tally_cons]
    split <;> ring

theorem SoldRows.typed {entries : List (Item × Nat)} (soldRows : SoldRows saleId entries rows) :
    ∀ m ∈ rows, m.val.movementType ≠ .saleReturn := fun m member => (soldRows.sold m member).1.trans_ne (by decide)

def Sale.entries (sale : Sale) : List (Item × Nat) := (sale.lines.map (·.item sale.branchId)).zipIdx

theorem Sale.entries_whole (sale : Sale) : ∀ entry ∈ sale.entries, 0 ≤ entry.1.qty ∧ ¬ Decimal.Tie 4 entry.1.qty := by
  intro entry member
  obtain ⟨line,-,same⟩ := List.mem_map.mp (List.fst_mem_of_mem_zipIdx member)
  rw [← same]
  exact ⟨line.stored.qtyPositive.le,Decimal.not_tie_of_mem_grid line.qtyScaled⟩

/-- The stock of all lines of a sale has been taken. -/
structure Sells (s t : Store) (saleId : Nat) : Prop where
  wrote : ∃ rows sale, t.movements = s.movements ++ rows ∧ t.sales[saleId]? = some sale ∧ SoldRows saleId sale.entries rows
  returns : t.returns = s.returns
  others : ∀ other : Nat, other ≠ saleId → t.sales[other]? = s.sales[other]?

theorem Sells.longer (sells : Sells s t saleId) : s.sales.length ≤ t.sales.length := by
  obtain ⟨rows,sale,-,found,-⟩ := sells.wrote
  by_contra shorter
  have last := sells.others t.sales.length (List.getElem?_eq_some_iff.mp found).1.ne'
  rw [List.getElem?_eq_none le_rfl,List.getElem?_eq_getElem (not_le.mp shorter)] at last
  cases last

theorem ends_allocateAll (items : List Item) : ∀ {s}, (∀ item ∈ items, 0 ≤ item.qty) →
    Ends (items.mapM fun item => allocateSaleLineFifo item.position item.qty) s fun allocations t => Moved s t [] ∧
      List.Forall₂ (fun item allocation => Covers item.qty allocation.slices) items allocations := by
  induction items with
  | nil =>
    intro s _
    rw [List.mapM_nil]
    exact ends_pure ⟨moved_refl s,.nil⟩
  | cons item items induction =>
    intro s asked
    obtain ⟨nonneg,asked⟩ := List.forall_mem_cons.mp asked
    rw [List.mapM_cons]
    refine .bind ((ends_allocateCovers nonneg).mono fun allocation t took => .bind ?_)
    refine (induction asked).mono fun allocations u more => ends_pure ?_
    exact ⟨took.1.trans more.1,.cons took.2 more.2⟩

theorem ends_saleRows (saleId : Nat) (soldAt : Int) (entries : List ((Item × Allocation) × Nat)) : ∀ {s},
    (∀ entry ∈ entries, Covers entry.1.1.qty entry.1.2.slices) → (entries.map Prod.snd).Nodup →
    Ends (forM entries fun entry => createSaleLineStockMovements entry.1.1.position ⟨saleId,entry.2⟩ entry.1.2.slices soldAt) s
      fun _ t => ∃ rows, Moved s t rows ∧ SoldRows saleId (entries.map fun entry => (entry.1.1,entry.2)) rows := by
  induction entries with
  | nil =>
    intro s _ _
    exact ends_pure ⟨[],moved_refl s,soldRows_nil saleId⟩
  | cons entry entries induction =>
    intro s covers distinct
    obtain ⟨here,covers⟩ := List.forall_mem_cons.mp covers
    obtain ⟨fresh,distinct⟩ := List.nodup_cons.mp distinct
    rw [List.forM_cons]
    refine .bind ((ends_sliceRows here).mono fun _ t wrote => ?_)
    obtain ⟨rows,moved,outgoing⟩ := wrote
    refine (induction covers distinct).mono fun _ u more => ?_
    obtain ⟨rest,further,soldRows⟩ := more
    refine ⟨rows ++ rest,moved.trans further,SoldRows.cons outgoing soldRows ?_⟩
    simpa [Function.comp_def] using fresh

theorem storeLine_ok {request : SaleLineRequest} {cost : ℚ} {stored : SaleLine} (ok : storeLine request cost = .ok stored) :
    stored.stored.productId = request.productId ∧ stored.stored.variationId = request.variationId ∧ stored.stored.qty = round4 request.qty := by
  rw [storeLine] at ok
  split at ok
  · next line outcome =>
    cases ok
    rw [SaleLineRequest.store] at outcome
    split at outcome
    · cases outcome
      exact ⟨rfl,rfl,rfl⟩
    · cases outcome
  · cases ok

/-- The item as the columns of a sale line hold it. -/
def Item.stored (item : Item) : Item := ⟨item.position,round4 item.qty⟩

theorem Outgoing.stored {item : Item} {movementType : MovementType} {reference : Reference}
    (outgoing : Outgoing rows item movementType reference) : Outgoing rows item.stored movementType reference where
  each := outgoing.each
  total := by
    have same : round4 (round4 item.qty) = round4 item.qty := Decimal.quantize_of_mem_grid (Decimal.quantize_mem_grid 4 _)
    rw [Item.stored,same]
    exact outgoing.total

theorem SoldRows.stored {entries : List (Item × Nat)} (soldRows : SoldRows saleId entries rows) :
    SoldRows saleId (entries.map fun entry => (entry.1.stored,entry.2)) rows where
  sold m member := by
    obtain ⟨typed,entry,inside,about⟩ := soldRows.sold m member
    exact ⟨typed,_,List.mem_map_of_mem inside,about⟩
  lines := by
    refine List.forall_mem_map.mpr fun entry inside => ?_
    exact (soldRows.lines entry inside).stored
  placed position := by
    have same (entry : Item × Nat) : round4 (round4 entry.1.qty) = round4 entry.1.qty :=
      Decimal.quantize_of_mem_grid (Decimal.quantize_mem_grid 4 _)
    rw [soldRows.placed,tally_map]
    simp only [Function.comp_def,Item.stored,same]

/-- The statuses of a sale that has been billed. -/
def billedStatus : SaleStatus → Bool
  | .draft | .partiallyPaid | .completed => true
  | .held | .cancelled | .voided => false

theorem determineSaleStatus_billed (totalAmount totalPaid : ℚ) : billedStatus (Pricing.determineSaleStatus totalAmount totalPaid) = true := by
  unfold Pricing.determineSaleStatus
  split_ifs <;> rfl

theorem billed_sale {data : Refunds.CreateSaleRequest} {sale : Refunds.Sale} (billed : (Refunds.createSale data).mapError Refusal.bill = .ok sale) :
    (∀ line ∈ data.lines, 0 < line.qty) ∧ billedStatus sale.status = true := by
  have ok : Refunds.createSale data = .ok sale := by
    cases outcome : Refunds.createSale data with
    | error refusal => simp [outcome,Except.mapError] at billed
    | ok made => simpa [outcome,Except.mapError] using billed
  refine ⟨Oversell.createSale_positive ok,?_⟩
  simp only [Refunds.createSale,Outcome.bind_ok_iff] at ok
  obtain ⟨-,-,settlement,-,-,-,lines,-,payments,-,made⟩ := ok
  cases made
  exact determineSaleStatus_billed _ _

theorem stored_items (branchId : Nat) {requests : List SaleLineRequest} {allocations : List Allocation} {lines : List SaleLine}
    (made : requests.length = allocations.length)
    (stored : (requests.zip allocations).mapM (fun entry => storeLine entry.1 entry.2.costPerUnit) = .ok lines) :
    lines.map (·.item branchId) = (requests.map (lineItem branchId)).map Item.stored := by
  have each (entry : SaleLineRequest × Allocation) (line : SaleLine) (ok : storeLine entry.1 entry.2.costPerUnit = .ok line) :
      line.item branchId = (lineItem branchId entry.1).stored := by
    obtain ⟨product,variation,qty⟩ := storeLine_ok ok
    rw [SaleLine.item,SaleLine.position,product,variation,qty]
    rfl
  have left : (requests.zip allocations).map Prod.fst = requests := List.map_fst_zip made.le
  calc lines.map (·.item branchId)
      = (requests.zip allocations).map fun entry => (lineItem branchId entry.1).stored := Outcome.mapM_map each stored
    _ = (((requests.zip allocations).map Prod.fst).map (lineItem branchId)).map Item.stored := by simp [Function.comp_def]
    _ = _ := by rw [left]

theorem zipped_entries {items : List Item} {allocations : List Allocation} (made : items.length = allocations.length) :
    ((items.zip allocations).zipIdx.map fun entry => (entry.1.1,entry.2)) = items.zipIdx := by
  have first : (items.zip allocations).map Prod.fst = items := List.map_fst_zip made.le
  conv_rhs => rw [← first,List.zipIdx_map]
  rfl

theorem zipped_distinct {α : Type} (xs : List α) : (xs.zipIdx.map Prod.snd).Nodup := by
  rw [List.zipIdx_map_snd]
  exact List.nodup_range'

/-- A new sale takes the quantity of each of its lines. -/
theorem sells_createSale (data : CreateSale) : Ends (createSale data) s fun _ t =>
    Sells s t s.sales.length ∧ ∀ sale, t.sales[s.sales.length]? = some sale → billedStatus sale.status = true := by
  refine .bind (ends_get (.bind (ends_ofExcept fun sale billed => .bind ((ends_locks _).mono fun _ t same => ?_))))
  subst same
  obtain ⟨positive,status⟩ := billed_sale billed
  have asked : ∀ item ∈ data.bill.lines.map (lineItem data.bill.branchId), 0 ≤ item.qty := by
    intro item member
    obtain ⟨line,inside,rfl⟩ := List.mem_map.mp member
    exact (positive line inside).le
  apply ends_unless
  refine .bind ((ends_allocateAll _ asked).mono fun allocations u given => ?_)
  obtain ⟨moved,covers⟩ := given
  refine .bind (ends_ofExcept fun lines stored => .bind (ends_get (.bind (ends_put ?_))))
  obtain ⟨movements,sales,returns⟩ := moved.parts
  rw [List.append_nil] at movements
  have made := covers.length_eq
  have asStored := stored_items data.bill.branchId (by simpa using made) stored
  generalize data.bill.lines.map (lineItem data.bill.branchId) = items at *
  generalize new_ : ({ branchId := data.bill.branchId, saleType := data.saleType, status := sale.status, lines := lines } : Sale) = new
  have covered : ∀ entry ∈ (items.zip allocations).zipIdx, Covers entry.1.1.qty entry.1.2.slices := fun entry member =>
    (List.forall₂_iff_zip.mp covers).2 (List.fst_mem_of_mem_zipIdx member)
  refine (ends_saleRows u.sales.length data.soldAt _ covered (zipped_distinct _)).mono fun _ v wrote => ?_
  obtain ⟨rows,further,soldRows⟩ := wrote
  obtain ⟨movements',sales',returns'⟩ := further.parts
  rw [zipped_entries made] at soldRows
  have here : v.sales[t.sales.length]? = some new := by
    rw [sales',← sales]
    simp
  refine ⟨⟨⟨rows,new,by rw [movements',movements],here,?_⟩,by rw [returns',returns],fun other apart => ?_⟩,?_⟩
  · have same : new.entries = items.zipIdx.map fun entry => (entry.1.stored,entry.2) := by
      rw [← new_,Sale.entries]
      dsimp only
      rw [asStored,List.zipIdx_map]
      rfl
    rw [same,← sales]
    exact soldRows.stored
  · rw [sales',← sales]
    rw [← sales] at apart
    exact Slots.append_apart apart
  · intro other found
    obtain rfl := Option.some.inj (here.symm.trans found)
    rwa [← new_]

theorem Papers.sells (papers : Papers s) (sells : Sells s t saleId) (stands : s.closedSale saleId = false) : Papers t := by
  have longer := sells.longer
  obtain ⟨⟨rows,sale,movements,found,soldRows⟩,returns,others⟩ := sells
  have inside := (List.getElem?_eq_some_iff.mp found).1
  refine papers.grow rows movements returns longer (fun other closed => ?_) (fun m member line named => ?_) fun m member typed =>
    absurd typed (soldRows.typed m member)
  · have apart : other ≠ saleId := by
      rintro rfl
      rw [stands] at closed
      cases closed
    rwa [Store.closedSale,others other apart]
  · obtain ⟨-,entry,-,about⟩ := soldRows.sold m member
    obtain rfl := Reference.saleLine.inj (about.symm.trans named)
    exact inside

/-- What the allocations have taken from a layer. -/
def drawnAll (allocations : List Allocation) (id : Nat) : ℚ := (allocations.map fun allocation => drawn allocation.slices id).sum

theorem drawnAll_cons (allocation : Allocation) (allocations : List Allocation) (id : Nat) :
    drawnAll (allocation :: allocations) id = drawn allocation.slices id + drawnAll allocations id := by
  rw [drawnAll,List.map_cons,List.sum_cons,drawnAll]

theorem ends_allocations (items : List Item) : ∀ {s due}, Kept s due spare → (∀ item ∈ items, 0 ≤ item.qty ∧ ¬ Decimal.Tie 4 item.qty) →
    Ends (items.mapM fun item => allocateSaleLineFifo item.position item.qty) s fun allocations t => Moved s t [] ∧
      Kept t (fun id => due id - drawnAll allocations id) spare ∧
        List.Forall₂ (fun item allocation => Portions t item.qty allocation.slices) items allocations := by
  induction items with
  | nil =>
    intro s due kept _
    rw [List.mapM_nil]
    exact ends_pure ⟨moved_refl s,kept.congr (fun id => by simp [drawnAll]) fun _ => rfl,.nil⟩
  | cons item items induction =>
    intro s due kept asked
    obtain ⟨⟨nonneg,untied⟩,asked⟩ := List.forall_mem_cons.mp asked
    rw [List.mapM_cons]
    refine .bind ((ends_allocateSaleLineFifo kept nonneg untied).mono fun allocation t allocated => .bind ?_)
    refine (induction allocated.kept asked).mono fun allocations u more => ends_pure ?_
    obtain ⟨moved,kept,portions⟩ := more
    refine ⟨allocated.frame.trans moved,kept.congr (fun id => ?_) fun _ => rfl,?_⟩
    · rw [drawnAll_cons]
      ring
    · exact .cons ((allocated.portions.moved allocated.frame).moved moved) portions

theorem ends_soldRows (saleId : Nat) (soldAt : Int) (entries : List ((Item × Allocation) × Nat)) : ∀ {s due}, Kept s due drift →
    (∀ entry ∈ entries, Portions s entry.1.1.qty entry.1.2.slices) → (∀ index, s.untouched ⟨saleId,index⟩) →
    Ends (forM entries fun entry => createSaleLineStockMovements entry.1.1.position ⟨saleId,entry.2⟩ entry.1.2.slices soldAt) s
      fun _ t => Kept t (fun id => due id + drawnAll (entries.map (·.1.2)) id) drift := by
  induction entries with
  | nil =>
    intro s due kept _ _
    exact ends_pure (kept.congr (fun id => by simp [drawnAll]) fun _ => rfl)
  | cons entry entries induction =>
    intro s due kept portions untouched
    obtain ⟨here,portions⟩ := List.forall_mem_cons.mp portions
    rw [List.forM_cons]
    have own : MovementType.sale = .sale → ∀ line, Reference.saleLine ⟨saleId,entry.2⟩ = .saleLine line → s.untouched line := by
      rintro - line named
      exact Reference.saleLine.inj named ▸ untouched entry.2
    have apart : ∀ saleReturn index, Reference.saleLine ⟨saleId,entry.2⟩ ≠ .saleReturnLine saleReturn index := by simp
    refine .bind ((ends_createSliceRows (by decide) apart kept here own).mono fun _ t wrote => ?_)
    obtain ⟨kept,rows,moved,outgoing⟩ := wrote
    have typed : ∀ m ∈ rows, m.val.movementType ≠ .saleReturn := fun m member => (outgoing.each m member).2.1.trans_ne (by decide)
    refine (induction kept (fun other member => (portions other member).moved moved)
      fun index => moved.untouched typed (untouched index)).mono fun _ u kept => kept.congr (fun id => ?_) fun _ => rfl
    rw [List.map_cons,drawnAll_cons]
    ring

theorem settled_createSale (data : CreateSale) (conserved : Conserved drift s) (allowed : orderly s (.createSale data) = true) :
    Ends (createSale data) s fun _ => Settled drift := by
  refine .bind (ends_get (.bind (ends_ofExcept fun sale billed => .bind ((ends_locks _).mono fun _ t same => ?_))))
  subst same
  have asked : ∀ item ∈ data.bill.lines.map (lineItem data.bill.branchId), 0 ≤ item.qty ∧ ¬ Decimal.Tie 4 item.qty := by
    intro item member
    obtain ⟨line,inside,rfl⟩ := List.mem_map.mp member
    exact ⟨((billed_sale billed).1 line inside).le,untied_all allowed _ (List.mem_map_of_mem inside)⟩
  apply ends_unless
  refine .bind ((ends_allocations _ conserved.settled asked).mono fun allocations u given => ?_)
  obtain ⟨moved,kept,portions⟩ := given
  refine .bind (ends_ofExcept fun lines stored => .bind (ends_get (.bind (ends_put ?_))))
  obtain ⟨movements,sales,returns⟩ := moved.parts
  rw [List.append_nil] at movements
  generalize data.bill.lines.map (lineItem data.bill.branchId) = items at *
  generalize ({ branchId := data.bill.branchId, saleType := data.saleType, status := sale.status, lines := lines } : Sale) = new
  have all : (items.zip allocations).zipIdx.map (·.1.2) = allocations := by
    have second : (items.zip allocations).map Prod.snd = allocations := List.map_snd_zip portions.length_eq.ge
    rw [← Function.comp_def Prod.snd Prod.fst,← List.map_map,List.zipIdx_map_fst,second]
  have sold := Kept.same (t := { u with sales := u.sales ++ [new] }) kept rfl rfl rfl
  have untouched (index : Nat) : Store.untouched { u with sales := u.sales ++ [new] } ⟨u.sales.length,index⟩ := by
    rw [sales]
    exact untouched_same movements returns (conserved.papers.unheard index)
  have portioned : ∀ entry ∈ (items.zip allocations).zipIdx, Portions { u with sales := u.sales ++ [new] } entry.1.1.qty entry.1.2.slices := by
    intro entry member
    have covered := (List.forall₂_iff_zip.mp portions).2 (List.fst_mem_of_mem_zipIdx member)
    exact ⟨covered.positive,covered.known,covered.whole⟩
  refine (ends_soldRows u.sales.length data.soldAt _ sold portioned untouched).mono fun _ v kept => ?_
  rw [all] at kept
  exact kept.congr (fun id => by ring) fun _ => rfl

theorem ends_createSale (data : CreateSale) (conserved : Conserved drift s) (allowed : orderly s (.createSale data) = true) :
    Ends (createSale data) s fun _ => Conserved drift := by
  refine ((settled_createSale data conserved allowed).and (sells_createSale data)).mono fun _ t after => ?_
  have unknown : s.closedSale s.sales.length = false := by simp [Store.closedSale]
  exact ⟨after.1,conserved.papers.sells after.2.1 unknown⟩

theorem Conserved.modify (conserved : Conserved drift s) (saleId : Nat) {change : Sale → Sale} (status : ∀ sale, s.sales[saleId]? = some sale →
    (sale.status = .voided ∨ sale.status = .cancelled) → (change sale).status = sale.status) :
    Conserved drift { s with sales := s.sales.modify saleId change } := by
  refine ⟨Kept.same conserved.settled rfl rfl rfl,?_⟩
  refine conserved.papers.grow [] (by simp) rfl (by simp) (fun other closed => ?_) (List.forall_mem_nil _) (List.forall_mem_nil _)
  obtain ⟨sale,found,voided⟩ := closedSale_iff.mp closed
  rw [closedSale_iff,List.getElem?_modify,found]
  split
  · next same =>
    subst same
    exact ⟨change sale,rfl,by rwa [status sale found voided]⟩
  · exact ⟨sale,rfl,voided⟩

theorem ends_mutableTab (saleId : Nat) : Ends (mutableTab saleId) s fun sale t =>
    t = s ∧ s.sales[saleId]? = some sale ∧ sale.saleType = .dineIn ∧ activeTab sale.status = true := by
  refine .bind (ends_found fun sale found => .bind (ends_require fun dineIn => .bind (ends_require fun active => ends_pure ?_)))
  exact ⟨rfl,found,of_decide_eq_true dineIn,active⟩

theorem activeTab_stands {status : SaleStatus} (active : activeTab status = true) : ¬ (status = .voided ∨ status = .cancelled) := by
  cases status <;> simp_all [activeTab]

theorem standing_tab {sale : Sale} (found : s.sales[saleId]? = some sale) (active : activeTab sale.status = true) : s.closedSale saleId = false := by
  refine Bool.eq_false_iff.mpr fun closed => ?_
  obtain ⟨other,there,closed⟩ := closedSale_iff.mp closed
  obtain rfl := Option.some.inj (found.symm.trans there)
  exact activeTab_stands active closed

theorem ends_openTab (branchId : Nat) (conserved : Conserved drift s) : Ends (openTab branchId) s fun _ t => Conserved drift t ∧
    t = { s with sales := s.sales ++ [⟨branchId,.dineIn,.held,[]⟩] } := by
  refine ends_put ⟨⟨Kept.same conserved.settled rfl rfl rfl,?_⟩,rfl⟩
  refine conserved.papers.grow [] (by simp) rfl (by simp) (fun saleId closed => ?_) (List.forall_mem_nil _) (List.forall_mem_nil _)
  obtain ⟨old,found,status⟩ := closedSale_iff.mp closed
  refine closedSale_iff.mpr ⟨old,?_,status⟩
  exact (List.getElem?_append_left (List.getElem?_eq_some_iff.mp found).1).trans found

theorem ends_addLinesToTab (saleId : Nat) (lines : List SaleLineRequest) (conserved : Conserved drift s) :
    Ends (addLinesToTab saleId lines) s fun _ t => Conserved drift t ∧ ∃ sale more, s.sales[saleId]? = some sale ∧ activeTab sale.status = true ∧
      t = { s with sales := s.sales.modify saleId fun sale => { sale with lines := sale.lines ++ more } } := by
  refine .bind (ends_require fun _ => .bind ((ends_mutableTab saleId).mono fun sale t tab => ?_))
  obtain ⟨rfl,found,-,active⟩ := tab
  refine .bind (ends_ofExcept fun more _ => ends_put ⟨conserved.modify saleId fun _ _ _ => rfl,sale,more,found,active,rfl⟩)

def Sale.outline (sale : Sale) : Nat × SaleType × SaleStatus × List Refunds.SaleLine :=
  (sale.branchId,sale.saleType,sale.status,sale.lines.map SaleLine.stored)

theorem entries_same {a b : Sale} (branch : a.branchId = b.branchId) (lines : a.lines.map SaleLine.stored = b.lines.map SaleLine.stored) :
    a.entries = b.entries := by
  let item (line : Refunds.SaleLine) : Item := ⟨⟨b.branchId,line.productId,line.variationId⟩,line.qty⟩
  have each (sale : Sale) (here : sale.branchId = b.branchId) : sale.lines.map (·.item sale.branchId) = (sale.lines.map SaleLine.stored).map item := by
    rw [List.map_map,here]
    rfl
  rw [Sale.entries,Sale.entries,each a branch,each b rfl,lines]

/-- Of the sales only costs of lines of this one have changed. -/
structure Costed (saleId : Nat) (s t : Store) : Prop where
  outlines : ∀ other : Nat, t.sales[other]?.map Sale.outline = s.sales[other]?.map Sale.outline
  others : ∀ other : Nat, other ≠ saleId → t.sales[other]? = s.sales[other]?

theorem costed_refl (saleId : Nat) (same : t.sales = s.sales) : Costed saleId s t := ⟨by simp [same],by simp [same]⟩

theorem Costed.trans {u : Store} (first : Costed saleId s t) (second : Costed saleId t u) : Costed saleId s u :=
  ⟨fun other => (second.outlines other).trans (first.outlines other),fun other apart => (second.others other apart).trans (first.others other apart)⟩

theorem costed_setLineCost (saleId index : Nat) (cost : ℚ) (s : Store) : Costed saleId s (setLineCost ⟨saleId,index⟩ cost s) where
  outlines other := by
    rw [setLineCost,List.getElem?_modify]
    split
    · cases s.sales[other]? with
      | none => rfl
      | some sale =>
        have same : (sale.lines.modify index fun line => { line with costPerUnit := round4 cost }).map SaleLine.stored =
            sale.lines.map SaleLine.stored := by
          apply List.ext_getElem?
          intro i
          rw [List.getElem?_map,List.getElem?_modify,List.getElem?_map]
          split
          · cases sale.lines[i]? <;> rfl
          · simp
        simp [Sale.outline,same]
    · simp
  others other apart := by
    simp [setLineCost,Ne.symm apart]

theorem ends_tabRows (saleId : Nat) (soldAt : Int) (entries : List (Item × Nat)) : ∀ {s : Store}, (∀ entry ∈ entries, 0 ≤ entry.1.qty) →
    (entries.map Prod.snd).Nodup →
    Ends (forM entries fun entry => do
      let allocation ← allocateSaleLineFifo entry.1.position entry.1.qty
      put (setLineCost ⟨saleId,entry.2⟩ allocation.costPerUnit)
      createSaleLineStockMovements entry.1.position ⟨saleId,entry.2⟩ allocation.slices soldAt) s
      fun _ t => ∃ rows, SoldRows saleId entries rows ∧ t.movements = s.movements ++ rows ∧ t.returns = s.returns ∧ Costed saleId s t := by
  induction entries with
  | nil =>
    intro s _ _
    exact ends_pure ⟨[],soldRows_nil saleId,by simp,rfl,costed_refl saleId rfl⟩
  | cons entry entries induction =>
    intro s asked distinct
    obtain ⟨nonneg,asked⟩ := List.forall_mem_cons.mp asked
    obtain ⟨fresh,distinct⟩ := List.nodup_cons.mp distinct
    rw [List.forM_cons]
    refine .bind (.bind ((ends_allocateCovers nonneg).mono fun allocation t took => .bind (ends_put ?_)))
    obtain ⟨moved,covers⟩ := took
    obtain ⟨movements,sales,returns⟩ := moved.parts
    rw [List.append_nil] at movements
    have cost := costed_setLineCost saleId entry.2 allocation.costPerUnit t
    refine (ends_sliceRows covers).mono fun _ v wrote => ?_
    obtain ⟨rows,further,outgoing⟩ := wrote
    obtain ⟨movements',sales',returns'⟩ := further.parts
    refine (induction asked distinct).mono fun _ w more => ?_
    obtain ⟨rest,soldRows,wrote,returnsAfter,costed⟩ := more
    refine ⟨rows ++ rest,SoldRows.cons outgoing soldRows fresh,?_,?_,?_⟩
    · rw [wrote,movements',← List.append_assoc,← movements]
      rfl
    · rw [returnsAfter,returns',← returns]
      rfl
    · exact (((costed_refl saleId sales).trans cost).trans (costed_refl saleId sales')).trans costed

/-- A tab that is completed takes the quantity of each of its lines. -/
theorem sells_completeTab (saleId : Nat) (payments : List Pricing.Payment) (soldAt : Int) :
    Ends (completeTab saleId payments soldAt) s fun _ t => (∃ sale, s.sales[saleId]? = some sale ∧ activeTab sale.status = true) ∧
      Sells s t saleId ∧ ∀ sale, t.sales[saleId]? = some sale → billedStatus sale.status = true := by
  refine .bind (ends_get (.bind ((ends_mutableTab saleId).mono fun sale t tab => ?_)))
  obtain ⟨rfl,found,-,active⟩ := tab
  refine .bind (ends_require fun _ => .bind (ends_ofExcept fun settlement _ => .bind (ends_require fun _ => ?_)))
  refine .bind ((ends_locks _).mono fun _ u same => ?_)
  subst same
  apply ends_unless
  have asked : ∀ entry ∈ sale.entries, 0 ≤ entry.1.qty := fun entry member => (sale.entries_whole entry member).1
  refine .bind ((ends_tabRows saleId soldAt sale.entries asked (zipped_distinct _)).mono fun _ v wrote => ends_put ?_)
  obtain ⟨rows,soldRows,movements,returns,costed⟩ := wrote
  have billed := determineSaleStatus_billed (tabInvoiceTotal sale) settlement.totalApplied
  generalize Pricing.determineSaleStatus (tabInvoiceTotal sale) settlement.totalApplied = status at *
  have same := costed.outlines saleId
  rw [found] at same
  obtain ⟨other,there,outline⟩ := Option.map_eq_some_iff.mp same
  simp only [Sale.outline,Prod.mk.injEq] at outline
  have here : (setStatus saleId status v).sales[saleId]? = some { other with status := status } := by
    simp [setStatus,there]
  refine ⟨⟨sale,found,active⟩,⟨⟨rows,{ other with status := status },movements,here,?_⟩,returns,fun apart different => ?_⟩,?_⟩
  · have entered : Sale.entries { other with status := status } = sale.entries := entries_same outline.1 outline.2.2.2
    rw [entered]
    exact soldRows
  · rw [setStatus,List.getElem?_modify,← costed.others apart different]
    simp [Ne.symm different]
  · intro last found
    obtain rfl := Option.some.inj (here.symm.trans found)
    exact billed

theorem settled_tabRows (saleId : Nat) (soldAt : Int) (entries : List (Item × Nat)) : ∀ {s}, Settled drift s →
    (∀ entry ∈ entries, 0 ≤ entry.1.qty ∧ ¬ Decimal.Tie 4 entry.1.qty) → (∀ index, s.untouched ⟨saleId,index⟩) →
    Ends (forM entries fun entry => do
      let allocation ← allocateSaleLineFifo entry.1.position entry.1.qty
      put (setLineCost ⟨saleId,entry.2⟩ allocation.costPerUnit)
      createSaleLineStockMovements entry.1.position ⟨saleId,entry.2⟩ allocation.slices soldAt) s fun _ => Settled drift := by
  induction entries with
  | nil => exact fun settled _ _ => ends_pure settled
  | cons entry entries induction =>
    intro s settled asked untouched
    obtain ⟨⟨nonneg,untied⟩,asked⟩ := List.forall_mem_cons.mp asked
    rw [List.forM_cons]
    refine .bind (.bind ((ends_allocateSaleLineFifo settled nonneg untied).mono fun allocation t allocated => .bind (ends_put ?_)))
    obtain ⟨movements,sales,returns⟩ := allocated.frame.parts
    rw [List.append_nil] at movements
    generalize changed : setLineCost ⟨saleId,entry.2⟩ allocation.costPerUnit t = u at *
    have kept : Kept u (fun id => drift id - drawn allocation.slices id) drift := by
      rw [← changed]
      exact Kept.same allocated.kept rfl rfl rfl
    have portions : Portions u entry.1.qty allocation.slices := by
      rw [← changed]
      have there := allocated.portions.moved allocated.frame
      exact ⟨there.positive,there.known,there.whole⟩
    have same : u.movements = s.movements ∧ u.returns = s.returns := by
      rw [← changed]
      exact ⟨movements,returns⟩
    have still (index : Nat) : u.untouched ⟨saleId,index⟩ := untouched_same same.1 same.2 (untouched index)
    have apart : ∀ saleReturn index, Reference.saleLine ⟨saleId,entry.2⟩ ≠ .saleReturnLine saleReturn index := by simp
    have own : MovementType.sale = .sale → ∀ line, Reference.saleLine ⟨saleId,entry.2⟩ = .saleLine line → u.untouched line := by
      rintro - line named
      exact Reference.saleLine.inj named ▸ still entry.2
    refine (ends_createSliceRows (by decide) apart kept portions own).mono fun _ v wrote => ?_
    obtain ⟨kept,rows,moved,outgoing⟩ := wrote
    have typed : ∀ m ∈ rows, m.val.movementType ≠ .saleReturn := fun m member => (outgoing.each m member).2.1.trans_ne (by decide)
    have settled : Settled drift v := kept.congr (fun id => by ring) fun _ => rfl
    exact induction settled asked fun index => moved.untouched typed (still index)

theorem settled_completeTab (saleId : Nat) (payments : List Pricing.Payment) (soldAt : Int) (conserved : Conserved drift s)
    (allowed : orderly s (.completeTab saleId payments soldAt) = true) : Ends (completeTab saleId payments soldAt) s fun _ => Settled drift := by
  refine .bind (ends_get (.bind ((ends_mutableTab saleId).mono fun sale t tab => ?_)))
  obtain ⟨rfl,found,-,active⟩ := tab
  refine .bind (ends_require fun _ => .bind (ends_ofExcept fun settlement _ => .bind (ends_require fun _ => ?_)))
  refine .bind ((ends_locks _).mono fun _ u same => ?_)
  subst same
  apply ends_unless
  have unreturned : u.hasReturnLines saleId = false := by simpa [orderly] using allowed
  have untouched := conserved.papers.untouched (standing_tab found active) unreturned
  refine .bind ((settled_tabRows saleId soldAt sale.entries conserved.settled sale.entries_whole untouched).mono fun _ v settled => ends_put ?_)
  exact Kept.same settled rfl rfl rfl

theorem ends_completeTab (saleId : Nat) (payments : List Pricing.Payment) (soldAt : Int) (conserved : Conserved drift s)
    (allowed : orderly s (.completeTab saleId payments soldAt) = true) : Ends (completeTab saleId payments soldAt) s fun _ => Conserved drift := by
  refine ((settled_completeTab saleId payments soldAt conserved allowed).and (sells_completeTab saleId payments soldAt)).mono fun _ t after => ?_
  obtain ⟨settled,⟨sale,found,active⟩,sells,-⟩ := after
  exact ⟨settled,conserved.papers.sells sells (standing_tab found active)⟩

end Stock
