import SasBackend.SaleRequests

/-! Returns, void and cancel keep the layers while a line comes back in one go, or within what it took from its last layer.
-/
namespace Stock
open SasBackend Tally Program Transition
open Refunds (LineId SaleLineRequest ReturnLineRequest CreateSaleReturnRequest)

variable {s t : Store} {drift : Nat → ℚ} {id saleId : Nat} {qty : ℚ} {position : Position} {line : LineId} {rows : List StockMovement} {r : Restoration}

theorem saleMovements_same (movements : t.movements = s.movements ++ rows) (unsold : ∀ m ∈ rows, m.val.movementType ≠ .sale)
    (line : LineId) : t.saleMovements line = s.saleMovements line := by
  have none : rows.filter (fun m => m.val.movementType = .sale && m.val.reference = .saleLine line) = [] := by
    refine List.filter_eq_nil_iff.mpr fun m member sold => ?_
    simp only [Bool.and_eq_true,decide_eq_true_eq] at sold
    exact unsold m member sold.1
  rw [Store.saleMovements,movements,List.filter_append,none,List.append_nil,Store.saleMovements]

theorem Incoming.unsold (incoming : Incoming r rows) : ∀ m ∈ rows, m.val.movementType ≠ .sale := fun m member =>
  (incoming m member).2.1.trans_ne (by decide)

theorem traced_same (same : t.saleMovements line = s.saleMovements line) :
    t.tracedConsumptions line = s.tracedConsumptions line ∧ t.untracedQty line = s.untracedQty line ∧
      t.lastTaken line = s.lastTaken line ∧ ∀ id, t.takenFrom line id = s.takenFrom line id := by
  simp only [Store.lastTaken,Store.tracedConsumptions,Store.untracedQty,Store.takenFrom,same,and_self,implies_true]

theorem givesBack_same (returns : t.returns = s.returns) (m : StockMovement) : t.givesBack line m = s.givesBack line m := by
  have about : t.about m.val.reference = s.about m.val.reference := by
    cases m.val.reference <;> simp [Store.about,Store.linkedLine,returns]
  rw [Store.givesBack,about,Store.givesBack]

theorem restoredQty_append (movements : t.movements = s.movements ++ rows) (returns : t.returns = s.returns) (line : LineId) :
    t.restoredQty line = s.restoredQty line + ((rows.filter (s.givesBack line)).map (·.val.qty)).sum := by
  have same : t.givesBack line = s.givesBack line := funext (givesBack_same returns)
  rw [Store.restoredQty,same,movements,List.filter_append,List.map_append,List.sum_append,Store.restoredQty]

theorem Incoming.givesBack (incoming : Incoming r rows) {m : StockMovement} (member : m ∈ rows) :
    s.givesBack line m = decide (s.about r.reference = some line) := by
  obtain ⟨-,typed,about,-⟩ := incoming m member
  rw [Store.givesBack,typed,about]
  simp

theorem Moved.untouchedBy (moved : Moved s t rows) (incoming : Incoming r rows) (apart : s.about r.reference ≠ some line)
    (untouched : s.untouched line) : t.untouched line := by
  obtain ⟨movements,-,returns⟩ := moved.parts
  refine untouched_iff.mpr fun m member => ?_
  rw [givesBack_same returns]
  rw [movements,List.mem_append] at member
  rcases member with old | new
  · exact untouched_iff.mp untouched m old
  · rw [incoming.givesBack new]
    exact decide_eq_false apart

def Store.soldQty (s : Store) (line : LineId) : ℚ := totalQty (s.tracedConsumptions line) + s.untracedQty line

/-- What has been written for the lines of a sale that come back, and that it is all they took if that is what they sold. -/
structure BackRows (s : Store) (saleId branchId : Nat) (entries : List (SaleLine × Nat)) (rows : List StockMovement) : Prop where
  back : ∀ m ∈ rows, m.val.movementType = .saleReturn ∧ ∃ entry ∈ entries, m.val.reference = .saleLine ⟨saleId,entry.2⟩
  placed : (∀ entry ∈ entries, s.soldQty ⟨saleId,entry.2⟩ = entry.1.stored.qty) → ∀ position,
    tally (fun m : StockMovement => m.val.position) (fun m => m.val.qty) position rows =
      tally (fun entry : SaleLine × Nat => entry.1.position branchId) (fun entry => entry.1.stored.qty) position entries
  layered : (∀ entry ∈ entries, s.soldQty ⟨saleId,entry.2⟩ = entry.1.stored.qty) → ∀ id < s.layers.length,
    tally (fun m : StockMovement => m.val.purchaseLineId) (fun m => m.val.qty) (some id) rows =
      (entries.map fun entry => s.takenFrom ⟨saleId,entry.2⟩ id).sum

def lineRestoration (saleId branchId : Nat) (movementAt : Int) (entry : SaleLine × Nat) : Restoration where
  position := entry.1.position branchId
  saleLineId := ⟨saleId,entry.2⟩
  saleLineQty := entry.1.stored.qty
  saleLineCostPerUnit := entry.1.costPerUnit
  qtyToRestore := entry.1.stored.qty
  reference := .saleLine ⟨saleId,entry.2⟩
  movementAt := movementAt

theorem ends_restoreLines (saleId branchId : Nat) (movementAt : Int) (entries : List (SaleLine × Nat)) : ∀ {s}, Settled drift s →
    (∀ entry ∈ entries, s.tracedConsumptions ⟨saleId,entry.2⟩ = [] ∨ s.untouched ⟨saleId,entry.2⟩) → (entries.map Prod.snd).Nodup →
    Ends (forM entries fun entry => restoreSaleLineInventory (lineRestoration saleId branchId movementAt entry)) s fun _ t =>
      Settled drift t ∧ ∃ rows, Moved s t rows ∧ BackRows s saleId branchId entries rows := by
  induction entries with
  | nil =>
    intro s settled _ _
    refine ends_pure ⟨settled,[],moved_refl s,List.forall_mem_nil _,fun _ position => ?_,fun _ id _ => ?_⟩
    · simp
    · simp
  | cons entry entries induction =>
    intro s settled restorable distinct
    obtain ⟨here,restorable⟩ := List.forall_mem_cons.mp restorable
    obtain ⟨fresh,distinct⟩ := List.nodup_cons.mp distinct
    rw [List.forM_cons]
    have able : Restorable s ⟨saleId,entry.2⟩ entry.1.stored.qty := here.imp_right .inl
    have apart : ∀ saleReturn index, Reference.saleLine ⟨saleId,entry.2⟩ = .saleReturnLine saleReturn index → saleReturn < s.returns.length := by simp
    have restored := ends_restoreSaleLineInventory (r := lineRestoration saleId branchId movementAt entry) settled
      entry.1.stored.qtyPositive.le apart rfl able
    refine .bind (restored.mono fun _ t back => ?_)
    obtain ⟨own,back⟩ := back
    have same (index : Nat) := traced_same (saleMovements_same back.moved.parts.1 back.incoming.unsold ⟨saleId,index⟩)
    have later : ∀ other ∈ entries, t.tracedConsumptions ⟨saleId,other.2⟩ = [] ∨ t.untouched ⟨saleId,other.2⟩ := by
      intro other inside
      rw [(same other.2).1]
      refine (restorable other inside).imp_right fun untouched => back.moved.untouchedBy back.incoming (fun named => ?_) untouched
      have index := congrArg LineId.index (Option.some.inj named)
      exact fresh (List.mem_map.mpr ⟨other,inside,index.symm⟩)
    refine (induction back.settled later distinct).mono fun _ u more => ?_
    obtain ⟨settled,rest,moved,others⟩ := more
    have sold (index : Nat) : t.soldQty ⟨saleId,index⟩ = s.soldQty ⟨saleId,index⟩ := by
      rw [Store.soldQty,Store.soldQty,(same index).1,(same index).2.1]
    refine ⟨settled,own ++ rest,back.moved.trans moved,?_,fun whole position => ?_,fun whole id inside => ?_⟩
    · refine List.forall_mem_append.mpr ⟨fun m member => ?_,fun m member => ?_⟩
      · exact ⟨(back.incoming m member).2.1,entry,List.mem_cons_self,(back.incoming m member).2.2.1⟩
      · obtain ⟨typed,other,there,about⟩ := others.back m member
        exact ⟨typed,other,List.mem_cons_of_mem _ there,about⟩
    · obtain ⟨mine,whole⟩ := List.forall_mem_cons.mp whole
      have all := (back.whole mine rfl).1
      rw [tally_append,others.placed (fun other there => (sold other.2).trans (whole other there)),tally_cons,
        tally_placed (fun m member => (back.incoming m member).1) position,all]
      rfl
    · obtain ⟨mine,whole⟩ := List.forall_mem_cons.mp whole
      have all := (back.whole mine rfl).2 id inside
      rw [tally_append,all,others.layered (fun other there => (sold other.2).trans (whole other there)) id (inside.trans_le back.moved.longer)]
      simp only [(same _).2.2.2,List.map_cons,List.sum_cons]
      rfl

theorem ends_restoreAll {sale : Sale} (movementAt : Int) (settled : Settled drift s)
    (restorable : ∀ index < sale.lines.length, s.tracedConsumptions ⟨saleId,index⟩ = [] ∨ s.untouched ⟨saleId,index⟩) :
    Ends (restoreAllSaleLineInventory saleId sale movementAt) s fun _ t =>
      Settled drift t ∧ ∃ rows, Moved s t rows ∧ BackRows s saleId sale.branchId sale.lines.zipIdx rows := by
  refine ends_restoreLines saleId sale.branchId movementAt sale.lines.zipIdx settled (fun entry member => ?_) ?_
  · have found := List.mem_zipIdx_iff_getElem?.mp member
    exact restorable entry.2 (List.getElem?_eq_some_iff.mp found).1
  · rw [List.zipIdx_map_snd]
    exact List.nodup_range'

theorem BackRows.about {branchId : Nat} {entries : List (SaleLine × Nat)} (back : BackRows s saleId branchId entries rows) :
    ∀ m ∈ rows, m.val.movementType = .saleReturn ∧ ∃ index, m.val.reference = .saleLine ⟨saleId,index⟩ := by
  intro m member
  obtain ⟨typed,entry,-,about⟩ := back.back m member
  exact ⟨typed,entry.2,about⟩

/-- A sale that comes back as it is closed. -/
structure Closes (s t : Store) (saleId : Nat) (status : SaleStatus) : Prop where
  wrote : ∃ rows sale, t.movements = s.movements ++ rows ∧ s.sales[saleId]? = some sale ∧
    BackRows s saleId sale.branchId sale.lines.zipIdx rows
  returns : t.returns = s.returns
  sales : t.sales = s.sales.modify saleId fun sale => { sale with status := status }

/-- Closing a sale whose lines have come back. -/
theorem Conserved.close {sale : Sale} {status : SaleStatus} (conserved : Conserved drift s) (settled : Settled drift t) (moved : Moved s t rows)
    (back : ∀ m ∈ rows, m.val.movementType = .saleReturn ∧ ∃ index, m.val.reference = .saleLine ⟨saleId,index⟩) (found : s.sales[saleId]? = some sale)
    (closed : status = .voided ∨ status = .cancelled) : Conserved drift (setStatus saleId status t) := by
  obtain ⟨movements,sales,returns⟩ := moved.parts
  refine ⟨Kept.same settled rfl rfl rfl,?_⟩
  have here : (setStatus saleId status t).closedSale saleId := by
    refine closedSale_iff.mpr ⟨{ sale with status := status },?_,closed⟩
    rw [setStatus,List.getElem?_modify,sales,found]
    simp
  have inside := (List.getElem?_eq_some_iff.mp found).1
  have about : ∀ m ∈ rows, ∀ line, m.val.reference = .saleLine line → line.saleId = saleId := by
    intro m member line named
    obtain ⟨-,index,ref⟩ := back m member
    rw [← Reference.saleLine.inj (ref.symm.trans named)]
  refine conserved.papers.grow rows movements returns ?_ (fun other was => ?_) (fun m member line named => ?_) fun m member typed line named => ?_
  · simp [setStatus,sales]
  · by_cases same : other = saleId
    · exact same ▸ here
    · obtain ⟨old,there,was⟩ := closedSale_iff.mp was
      refine closedSale_iff.mpr ⟨old,?_,was⟩
      rw [setStatus,List.getElem?_modify,sales,there]
      simp [Ne.symm same]
  · rw [about m member line named]
    simpa [setStatus,sales] using inside
  · rw [about m member line named]
    exact here

theorem ends_voidSale (saleId : Nat) (now : Int) (conserved : Conserved drift s) : Ends (voidSale saleId now) s fun _ t => Conserved drift t ∧
    (∃ sale, s.sales[saleId]? = some sale ∧ sale.status = .completed) ∧ s.hasReturnLines saleId = false ∧ Closes s t saleId .voided := by
  refine .bind (ends_found fun sale found => .bind (ends_require fun completed => .bind (ends_get (.bind (ends_require fun unreturned => ?_)))))
  have completed : sale.status = .completed := of_decide_eq_true completed
  have unreturned : s.hasReturnLines saleId = false := by simpa using unreturned
  have stands : s.closedSale saleId = false := by
    rw [Store.closedSale,found]
    simp [completed]
  have restorable : ∀ index < sale.lines.length, s.tracedConsumptions ⟨saleId,index⟩ = [] ∨ s.untouched ⟨saleId,index⟩ :=
    fun index _ => .inr (conserved.papers.untouched stands unreturned index)
  refine .bind ((ends_restoreAll now conserved.settled restorable).mono fun _ t restored => ends_put ?_)
  obtain ⟨settled,rows,moved,back⟩ := restored
  obtain ⟨movements,sales,returns⟩ := moved.parts
  refine ⟨conserved.close settled moved back.about found (.inl rfl),⟨sale,found,completed⟩,unreturned,⟨rows,sale,movements,found,back⟩,returns,?_⟩
  rw [setStatus,sales]

theorem ends_cancelSale (saleId : Nat) (now : Int) (conserved : Conserved drift s) (allowed : orderly s (.cancelSale saleId now) = true) :
    Ends (cancelSale saleId now) s fun _ t => Conserved drift t ∧ ∃ rows, t.movements = s.movements ++ rows ∧ t.returns = s.returns ∧
      t.sales = s.sales.modify saleId (fun sale => { sale with status := .cancelled }) ∧
        ∀ m ∈ rows, m.val.movementType = .saleReturn ∧ ∃ index, m.val.reference = .saleLine ⟨saleId,index⟩ := by
  refine .bind (ends_found fun sale found => .bind (ends_require fun open_ => .bind (ends_get (.bind (ends_require fun unreturned => ?_)))))
  have unreturned : s.hasReturnLines saleId = false := by simpa using unreturned
  have restorable : ∀ index < sale.lines.length, s.tracedConsumptions ⟨saleId,index⟩ = [] ∨ s.untouched ⟨saleId,index⟩ := by
    intro index inside
    simp only [orderly,found,Option.all_some,Bool.or_eq_true,List.all_eq_true,List.mem_range,decide_eq_true_eq] at allowed
    rcases allowed with uncancelled | none
    · simp only [Bool.and_eq_true,decide_eq_true_eq] at open_
      have stands : s.closedSale saleId = false := by
        rw [Store.closedSale,found]
        simp [open_.2,uncancelled]
      exact .inr (conserved.papers.untouched stands unreturned index)
    · exact .inl (none index inside)
  dsimp only
  split
  · refine ends_put ⟨conserved.close conserved.settled (moved_refl s) (List.forall_mem_nil _) found (.inr rfl),[],?_,rfl,rfl,List.forall_mem_nil _⟩
    exact (List.append_nil _).symm
  · refine .bind ((ends_restoreAll now conserved.settled restorable).mono fun _ t restored => ends_put ?_)
    obtain ⟨settled,rows,moved,back⟩ := restored
    obtain ⟨movements,sales,returns⟩ := moved.parts
    refine ⟨conserved.close settled moved back.about found (.inr rfl),rows,movements,returns,?_,back.about⟩
    rw [setStatus,sales]

theorem restorable_iff {lines : List ReturnLineRequest} : s.restorable lines line = true ↔ s.tracedConsumptions line = [] ∨
    (s.untouched line ∧ (lines.filterMap ReturnLineRequest.saleLineId).count line ≤ 1) ∨
      s.restoredQty line + tally ReturnLineRequest.saleLineId (fun line => round4 line.qty) (some line) lines ≤ s.lastTaken line := by
  simp only [Store.restorable,Bool.or_eq_true,Bool.and_eq_true,decide_eq_true_eq,or_assoc]

theorem restorable_first {first : ReturnLineRequest} {lines : List ReturnLineRequest} (nonneg : ∀ other ∈ lines, 0 ≤ other.qty)
    (named : first.saleLineId = some line) (restorable : s.restorable (first :: lines) line = true) : Restorable s line first.qty := by
  rcases restorable_iff.mp restorable with none | ⟨untouched,-⟩ | within_
  · exact .inl none
  · exact .inr (.inl untouched)
  · have rest : 0 ≤ tally ReturnLineRequest.saleLineId (fun line => round4 line.qty) (some line) lines :=
      tally_nonneg fun other member => Decimal.quantize_nonneg (nonneg other member)
    rw [tally_cons,if_pos named] at within_
    exact .inr (.inr (by linarith))

/-- What remains of a request can still be given back after its first line was. -/
theorem restorable_rest {first : ReturnLineRequest} {lines : List ReturnLineRequest} (movements : t.movements = s.movements ++ rows)
    (returns : t.returns = s.returns) (typed : ∀ m ∈ rows, m.val.movementType = .saleReturn)
    (gives : ∀ m ∈ rows, ∀ line, s.givesBack line m = decide (first.saleLineId = some line))
    (bounded : (rows.map (·.val.qty)).sum ≤ round4 first.qty) (listed : line ∈ lines.filterMap ReturnLineRequest.saleLineId)
    (restorable : s.restorable (first :: lines) line = true) : t.restorable lines line = true := by
  have unsold : ∀ m ∈ rows, m.val.movementType ≠ .sale := fun m member => (typed m member).trans_ne (by decide)
  obtain ⟨traced,-,last,-⟩ := traced_same (saleMovements_same movements unsold line)
  rw [restorable_iff,traced,last]
  refine (restorable_iff.mp restorable).imp_right (Or.imp ?_ ?_)
  · rintro ⟨untouched,once⟩
    have apart : first.saleLineId ≠ some line := by
      intro named
      rw [List.filterMap_cons_some named,List.count_cons_self] at once
      have again := List.count_pos_iff.mpr listed
      omega
    refine ⟨untouched_iff.mpr fun m member => ?_,le_trans ?_ once⟩
    · rw [givesBack_same returns]
      rw [movements,List.mem_append] at member
      rcases member with old | new
      · exact untouched_iff.mp untouched m old
      · rw [gives m new]
        exact decide_eq_false apart
    · exact (List.Sublist.filterMap _ (List.sublist_cons_self first lines)).count_le line
  · intro within_
    rw [tally_cons] at within_
    rw [restoredQty_append movements returns]
    by_cases named : first.saleLineId = some line
    · have all : rows.filter (s.givesBack line) = rows := List.filter_eq_self.mpr fun m member => by
        rw [gives m member]
        exact decide_eq_true named
      rw [if_pos named] at within_
      rw [all]
      linarith
    · have none : rows.filter (s.givesBack line) = [] := List.filter_eq_nil_iff.mpr fun m member => by
        rw [gives m member]
        simpa using named
      rw [if_neg named] at within_
      rw [none,List.map_nil,List.sum_nil,add_zero]
      linarith

/-- Lines of a request as the return has prepared them. -/
def Faithful (s : Store) (saleReturn : Nat) (entry : Prepared × Nat) : Prop := 0 < entry.1.request.qty ∧
  entry.1.original.map Prod.fst = entry.1.request.saleLineId ∧ s.linkedLine saleReturn entry.2 = entry.1.request.saleLineId

theorem ends_returnRestock {saleReturn : Nat} {returnedAt : Int} {entry : Prepared × Nat} (settled : Settled drift s)
    (known : saleReturn < s.returns.length) (faithful : Faithful s saleReturn entry)
    (able : ∀ line, entry.1.request.saleLineId = some line → Restorable s line entry.1.request.qty) :
    Ends (returnRestock saleReturn returnedAt entry) s fun _ t => Settled drift t ∧ ∃ rows, Moved s t rows ∧
      (∀ m ∈ rows, m.val.movementType = .saleReturn ∧ m.val.reference = .saleReturnLine saleReturn entry.2) ∧
        (rows.map (·.val.qty)).sum ≤ round4 entry.1.request.qty := by
  obtain ⟨positive,original,linked⟩ := faithful
  have reported : ∀ other index, Reference.saleReturnLine saleReturn entry.2 = .saleReturnLine other index → other < s.returns.length := by
    intro other index same
    obtain ⟨rfl,-⟩ := Reference.saleReturnLine.inj same
    exact known
  rw [returnRestock]
  split
  · next id line found =>
    rw [found] at original
    have named : entry.1.request.saleLineId = some id := original.symm
    have about : s.about (.saleReturnLine saleReturn entry.2) = some id := linked.trans named
    refine (ends_restoreSaleLineInventory settled positive.le reported about (able id named)).mono fun _ t back => ?_
    obtain ⟨rows,back⟩ := back
    exact ⟨back.settled,rows,back.moved,fun m member => ⟨(back.incoming m member).2.1,(back.incoming m member).2.2.1⟩,back.bounded⟩
  · refine .bind (ends_getFallbackCostPerUnit.mono fun cost t same => ?_)
    subst same
    refine (ends_receiveIntoNewLayer _ (by decide) reported settled positive.le).mono fun _ u received => ?_
    obtain ⟨kept,m,moved,-,typed,about,brings,-⟩ := received
    exact ⟨kept,[m],moved,List.forall_mem_singleton.mpr ⟨typed,about⟩,by simp [brings]⟩

theorem ends_restock (saleReturn : Nat) (returnedAt : Int) (entries : List (Prepared × Nat)) : ∀ {s}, Settled drift s →
    saleReturn < s.returns.length → (∀ entry ∈ entries, Faithful s saleReturn entry) →
    (∀ line ∈ (entries.map (·.1.request)).filterMap ReturnLineRequest.saleLineId, s.restorable (entries.map (·.1.request)) line = true) →
    Ends (forM entries (returnRestock saleReturn returnedAt)) s fun _ t => Settled drift t ∧ ∃ rows, Moved s t rows ∧
      ∀ m ∈ rows, m.val.movementType = .saleReturn ∧ ∃ index, m.val.reference = .saleReturnLine saleReturn index := by
  induction entries with
  | nil =>
    intro s settled _ _ _
    exact ends_pure ⟨settled,[],moved_refl s,List.forall_mem_nil _⟩
  | cons entry entries induction =>
    intro s settled known faithful restorable
    obtain ⟨here,faithful⟩ := List.forall_mem_cons.mp faithful
    rw [List.map_cons] at restorable
    rw [List.forM_cons]
    have nonneg : ∀ other ∈ entries.map (·.1.request), 0 ≤ other.qty := by
      intro other member
      obtain ⟨from_,inside,rfl⟩ := List.mem_map.mp member
      exact (faithful from_ inside).1.le
    have able (line : LineId) (named : entry.1.request.saleLineId = some line) : Restorable s line entry.1.request.qty := by
      refine restorable_first nonneg named (restorable line ?_)
      rw [List.filterMap_cons_some named]
      exact List.mem_cons_self
    refine .bind ((ends_returnRestock settled known here able).mono fun _ t back => ?_)
    obtain ⟨settled,rows,moved,about,bounded⟩ := back
    obtain ⟨movements,-,returns⟩ := moved.parts
    have linked (other : Nat) : t.linkedLine saleReturn other = s.linkedLine saleReturn other := by
      rw [Store.linkedLine,returns,Store.linkedLine]
    have gives (m : StockMovement) (member : m ∈ rows) (line : LineId) : s.givesBack line m = decide (entry.1.request.saleLineId = some line) := by
      rw [Store.givesBack,(about m member).1,(about m member).2,Store.about,here.2.2]
      simp
    have later : ∀ line ∈ (entries.map (·.1.request)).filterMap ReturnLineRequest.saleLineId,
        t.restorable (entries.map (·.1.request)) line = true := by
      intro line listed
      refine restorable_rest movements returns (fun m member => (about m member).1) gives bounded listed (restorable line ?_)
      exact (List.Sublist.filterMap _ (List.sublist_cons_self _ _)).subset listed
    have still : ∀ other ∈ entries, Faithful t saleReturn other := fun other member => by
      obtain ⟨positive,original,same⟩ := faithful other member
      exact ⟨positive,original,(linked other.2).trans same⟩
    rw [← returns] at known
    refine (induction settled known still later).mono fun _ u more => ?_
    obtain ⟨settled,rest,further,others⟩ := more
    refine ⟨settled,rows ++ rest,moved.trans further,List.forall_mem_append.mpr ⟨fun m member => ?_,others⟩⟩
    exact ⟨(about m member).1,entry.2,(about m member).2⟩

theorem ends_prepareLine (branchId : Nat) (pending : List ReturnLineRequest) (line : ReturnLineRequest) :
    Ends (prepareLine branchId pending line) s fun item t => t = s ∧ item.request = line ∧ item.original.map Prod.fst = line.saleLineId := by
  rw [prepareLine]
  split
  · next none => exact ends_pure ⟨rfl,rfl,none.symm⟩
  · next id named =>
    refine .bind (ends_found fun original _ => .bind (ends_require fun _ => .bind (ends_require fun _ => .bind (ends_get ?_))))
    exact .bind (ends_require fun _ => ends_pure ⟨rfl,rfl,named.symm⟩)

theorem ends_prepareLines (branchId : Nat) (lines : List ReturnLineRequest) : ∀ pending,
    Ends (prepareLines branchId pending lines) s fun items t => t = s ∧ items.map Prepared.request = lines ∧
      ∀ item ∈ items, item.original.map Prod.fst = item.request.saleLineId := by
  induction lines with
  | nil => exact fun _ => ends_pure ⟨rfl,rfl,List.forall_mem_nil _⟩
  | cons line lines induction =>
    intro pending
    refine .bind ((ends_prepareLine branchId pending line).mono fun item t first => ?_)
    obtain ⟨rfl,requested,original⟩ := first
    refine .bind ((induction _).mono fun items u rest => ends_pure ?_)
    obtain ⟨rfl,requests,originals⟩ := rest
    exact ⟨rfl,by rw [List.map_cons,requested,requests],List.forall_mem_cons.mpr ⟨by rw [original,requested],originals⟩⟩

theorem givesBack_later (settled : Settled drift s) (r : SaleReturn) {m : StockMovement} (member : m ∈ s.movements) (line : LineId) :
    Store.givesBack { s with returns := s.returns ++ [r] } line m = s.givesBack line m := by
  have about : Store.about { s with returns := s.returns ++ [r] } m.val.reference = s.about m.val.reference :=
    about_later rfl (settled.reported m member)
  rw [Store.givesBack,about,Store.givesBack]

theorem givenRows_later (settled : Settled drift s) (r : SaleReturn) (line : LineId) :
    s.movements.filter (Store.givesBack { s with returns := s.returns ++ [r] } line) = s.movements.filter (s.givesBack line) :=
  List.filter_congr fun _ member => givesBack_later settled r member line

theorem Settled.addReturn (settled : Settled drift s) (r : SaleReturn) : Settled drift { s with returns := s.returns ++ [r] } := by
  have given (line : LineId) (id : Nat) : Store.givenBack { s with returns := s.returns ++ [r] } line id = s.givenBack line id := by
    rw [Store.givenBack,givenRows_later settled r,Store.givenBack]
  have owed (line : LineId) (id : Nat) : Store.owed { s with returns := s.returns ++ [r] } line id = s.owed line id := by
    rw [Store.owed,given,Store.owed]
    rfl
  refine ⟨settled.known,fun m member saleReturn index named => ?_,settled.gave,fun line id some_ => ?_,settled.fresh,settled.balanced,
    fun id layer found lines => ?_⟩
  · rw [List.length_append]
    exact Nat.lt_add_right _ (settled.reported m member saleReturn index named)
  · rw [given]
    exact settled.returned line id some_
  · simp only [owed]
    exact settled.room id layer found lines

theorem restorable_later (settled : Settled drift s) (r : SaleReturn) (lines : List ReturnLineRequest) (line : LineId) :
    Store.restorable { s with returns := s.returns ++ [r] } lines line = s.restorable lines line := by
  have restored : Store.restoredQty { s with returns := s.returns ++ [r] } line = s.restoredQty line := by
    rw [Store.restoredQty,givenRows_later settled r,Store.restoredQty]
  have untouched : Store.untouched { s with returns := s.returns ++ [r] } line = s.untouched line := by
    rw [Bool.eq_iff_iff,untouched_iff,untouched_iff]
    exact forall₂_congr fun m member => by rw [givesBack_later settled r member]
  rw [Store.restorable,restored,untouched,Store.restorable]
  rfl

theorem ends_checkReturnedSale (branchId : Nat) (saleId : Option Nat) : Ends (checkReturnedSale branchId saleId) s fun _ t =>
    t = s ∧ ∀ id, saleId = some id → id < s.sales.length := by
  cases saleId with
  | none => exact ends_pure ⟨rfl,nofun⟩
  | some id =>
    refine .bind (ends_found fun sale found => .bind (ends_require fun _ => ends_require fun _ => ⟨rfl,fun other same => ?_⟩))
    obtain rfl := Option.some.inj same
    exact (List.getElem?_eq_some_iff.mp found).1

theorem ends_createSaleReturn (data : CreateSaleReturnRequest) (returnedAt : Int) (conserved : Conserved drift s)
    (allowed : orderly s (.createSaleReturn data returnedAt) = true) :
    Ends (createSaleReturn data returnedAt) s fun _ t => Conserved drift t ∧ t.sales = s.sales ∧
      (∃ r, t.returns = s.returns ++ [r] ∧ r.lines ≠ []) ∧ ∃ rows, t.movements = s.movements ++ rows ∧
        ∀ m ∈ rows, m.val.movementType = .saleReturn ∧ ∃ index, m.val.reference = .saleReturnLine s.returns.length index := by
  refine .bind (ends_require fun valid => .bind (ends_get (.bind (ends_require fun existing => .bind (ends_require fun own => ?_)))))
  refine .bind ((ends_checkReturnedSale _ _).mono fun _ t checked => ?_)
  obtain ⟨rfl,known⟩ := checked
  refine .bind ((ends_prepareLines _ _ _).mono fun prepared u made => ?_)
  obtain ⟨rfl,requests,originals⟩ := made
  refine .bind ((ends_locks _).mono fun _ v same => .bind (ends_require fun positive => .bind (ends_get (.bind (ends_put ?_)))))
  subst same
  generalize saleIs : data.saleId.or _ = saleId at *
  generalize written : ({ saleId := saleId, lines := data.lines.map fun line => ⟨line.saleLineId,round4 line.qty⟩ } : SaleReturn) = r
  have settled := conserved.settled.addReturn r
  have lined : r.lines = data.lines.map fun line => ⟨line.saleLineId,round4 line.qty⟩ := by rw [← written]
  have papers : Papers { v with returns := v.returns ++ [r] } := by
    refine ⟨conserved.papers.sold,conserved.papers.closed,List.forall_mem_append.mpr ⟨conserved.papers.linked,?_⟩⟩
    refine List.forall_mem_singleton.mpr fun item member id named => ?_
    rw [lined] at member
    obtain ⟨line,inside,rfl⟩ := List.mem_map.mp member
    have mine : some id.saleId = saleId := by
      simp only [List.all_eq_true,decide_eq_true_eq] at own
      exact own id (List.mem_filterMap.mpr ⟨line,inside,named⟩)
    exact ⟨by rw [← written,mine],known id.saleId mine.symm⟩
  have requested : prepared.zipIdx.map (·.1.request) = data.lines := by
    rw [← Function.comp_def Prepared.request Prod.fst,← List.map_map,List.zipIdx_map_fst,requests]
  have faithful : ∀ entry ∈ prepared.zipIdx, Faithful { v with returns := v.returns ++ [r] } v.returns.length entry := by
    intro entry member
    have inside := List.fst_mem_of_mem_zipIdx member
    refine ⟨?_,originals entry.1 inside,?_⟩
    · have listed : entry.1.request ∈ data.lines := requests ▸ List.mem_map_of_mem inside
      simp only [CreateSaleReturnRequest.valid,ReturnLineRequest.valid,Bool.and_eq_true,List.all_eq_true,decide_eq_true_eq] at valid
      exact (valid.1.2 _ listed).1.1.1
    · have there : data.lines[entry.2]? = some entry.1.request := by
        rw [← requests,List.getElem?_map,List.mem_zipIdx_iff_getElem?.mp member]
        rfl
      simp [Store.linkedLine,lined,there]
  have restorable : ∀ line ∈ (prepared.zipIdx.map (·.1.request)).filterMap ReturnLineRequest.saleLineId,
      Store.restorable { v with returns := v.returns ++ [r] } (prepared.zipIdx.map (·.1.request)) line = true := by
    rw [requested]
    intro line listed
    rw [restorable_later conserved.settled]
    exact List.all_eq_true.mp allowed line listed
  have inside : v.returns.length < (v.returns ++ [r]).length := by simp
  refine (ends_restock v.returns.length returnedAt _ settled inside faithful restorable).mono fun _ w wrote => ?_
  obtain ⟨settled,rows,moved,about⟩ := wrote
  obtain ⟨movements,sales,returns⟩ := moved.parts
  refine ⟨⟨settled,?_⟩,sales,⟨r,returns,?_⟩,rows,movements,about⟩
  · refine papers.grow rows movements returns (by rw [sales]) (fun saleId closed => by rwa [Store.closedSale,sales])
      (fun m member line named => ?_) fun m member _ line named => ?_
    · obtain ⟨-,index,ref⟩ := about m member
      exact absurd (ref.symm.trans named) (by simp)
    · obtain ⟨-,index,ref⟩ := about m member
      exact absurd (ref.symm.trans named) (by simp)
  · have nonempty : data.lines ≠ [] := by
      simp only [CreateSaleReturnRequest.valid,Bool.and_eq_true,decide_eq_true_eq] at valid
      exact valid.1.1
    rw [lined]
    simpa using nonempty

end Stock
