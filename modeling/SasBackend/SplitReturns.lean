import SasBackend.ReturnRequests
import SasBackend.SplitAmounts
import SasBackend.StockFrame

/-! Return lines submitted together or each in a request of its own.
Of the layers they leave the same, since both restore from what the sale took; of the amounts exactly where no line is given what
an earlier line of its request got.
-/
namespace Stock
open SasBackend Program Transition
open Refunds (LineId ReturnLineRequest CreateSaleReturnRequest)

variable {base s t u : Store}

/-- The layers and the rows of sales are the same, and no sale has changed. -/
structure SameStock (base s t : Store) : Prop where
  left : s.sales = base.sales
  right : t.sales = base.sales
  layers : t.layers = s.layers
  taken : ∀ id, t.saleMovements id = s.saleMovements id

/-- Layers, sales and what sales took are as they were. -/
structure Stays (s t : Store) : Prop where
  layers : t.layers = s.layers
  sales : t.sales = s.sales
  taken : ∀ id, t.saleMovements id = s.saleMovements id

theorem SameStock.stays (same : SameStock base s t) {v : Store} (left : Stays s u) (right : Stays t v) : SameStock base u v where
  left := left.sales.trans same.left
  right := right.sales.trans same.right
  layers := by rw [right.layers,same.layers,left.layers]
  taken := fun id => by rw [right.taken,same.taken,left.taken]

theorem stays_createStockMovement {row : MovementRow} (unsold : row.movementType ≠ .sale) : Relates Stays (createStockMovement row) := by
  intro s
  refine ends_createStockMovement.mono fun _ t wrote => ?_
  obtain ⟨m,same,rfl⟩ := wrote
  refine ⟨rfl,rfl,saleMovements_same rfl (List.forall_mem_singleton.mpr ?_)⟩
  rw [same]
  exact unsold

theorem matches_createStockMovement {row other : MovementRow} (unsold : row.movementType ≠ .sale) (unsoldOther : other.movementType ≠ .sale) :
    Matches (SameStock base) (createStockMovement row) (createStockMovement other) :=
  .of_relates (stays_createStockMovement unsold) (stays_createStockMovement unsoldOther) fun _ _ same _ _ => same.stays

theorem matches_updateLayer (id : Nat) (row : LayerRow) : Matches (SameStock base) (updateLayer id row) (updateLayer id row) :=
  (matches_ofExcept _).bind fun layer => matches_put fun _ _ same =>
    ⟨same.left,same.right,congrArg (·.set id layer) same.layers,same.taken⟩

theorem matches_createFifoLayer (item : Item) (cost : ℚ) (createdAt : Int) :
    Matches (SameStock base) (createFifoLayer item cost createdAt) (createFifoLayer item cost createdAt) := by
  refine (matches_ofExcept _).bind fun layer => (matches_get fun s t same => ?_).bind fun id => (matches_put fun s t same => ?_).bind fun _ => matches_pure _
  · rw [same.layers]
  · exact ⟨same.left,same.right,congrArg (· ++ [layer]) same.layers,same.taken⟩

theorem matches_restoreUntraced (r : Restoration) (reference : Reference) (qty : ℚ) :
    Matches (SameStock base) (restoreUntraced r qty) (restoreUntraced { r with reference := reference } qty) :=
  (matches_createFifoLayer _ _ _).bind fun _ => matches_createStockMovement (by simp) (by simp)

theorem matches_restoreFifoLayers (slices : List FifoLayerConsumption) :
    Matches (SameStock base) (restoreFifoLayers slices) (restoreFifoLayers slices) := by
  refine matches_forM (fun slice => ?_) slices
  cases slice.purchaseLineId with
  | none => exact matches_pure _
  | some id =>
    refine (matches_get fun s t same => by rw [same.layers]).bind fun found => ?_
    cases found with
    | none => exact matches_pure _
    | some layer => exact matches_updateLayer id _

theorem matches_restoreSaleLineInventory (r : Restoration) (reference : Reference) :
    Matches (SameStock base) (restoreSaleLineInventory r) (restoreSaleLineInventory { r with reference := reference }) := by
  refine (matches_get fun s t same => ?_).bind fun traced => matches_ite (matches_restoreUntraced r reference _) ?_
  · simp only [Store.tracedConsumptions,same.taken]
  · refine (matches_get fun s t same => ?_).bind fun untraced => (matches_restoreFifoLayers _).bind fun _ => ?_
    · simp only [Store.untracedQty,same.taken]
    · refine (matches_forM (fun slice => matches_createStockMovement (by simp) (by simp)) _).bind fun _ => ?_
      exact matches_ite (matches_restoreUntraced r reference _) (matches_pure _)

/-- A line with its sale line as the sales have it. -/
def Store.prepared (s : Store) (branchId : Nat) (line : ReturnLineRequest) : Prepared :=
  match line.saleLineId.bind fun id => (s.line id).map fun original => (id,original) with
  | none => ⟨line,none,⟨branchId,line.productId.getD 0,line.variationId⟩⟩
  | some (id,original) => ⟨line,some (id,original),original.position branchId⟩

theorem ends_prepareLine_prepared (branchId : Nat) (pending : List ReturnLineRequest) (line : ReturnLineRequest) :
    Ends (prepareLine branchId pending line) s fun item t => t = s ∧ item = s.prepared branchId line := by
  rw [prepareLine]
  split
  · next none => exact ends_pure ⟨rfl,by simp [Store.prepared,none]⟩
  · next id named =>
    refine .bind (ends_found fun original found => .bind (ends_require fun _ => .bind (ends_require fun _ => .bind (ends_get ?_))))
    exact .bind (ends_require fun _ => ends_pure ⟨rfl,by simp [Store.prepared,named,found]⟩)

theorem ends_prepareLines_prepared (branchId : Nat) (lines : List ReturnLineRequest) : ∀ pending,
    Ends (prepareLines branchId pending lines) s fun items t => t = s ∧ items = lines.map (s.prepared branchId) := by
  induction lines with
  | nil => exact fun _ => ends_pure ⟨rfl,rfl⟩
  | cons line lines induction =>
    intro pending
    refine .bind ((ends_prepareLine_prepared branchId pending line).mono fun item t first => ?_)
    obtain ⟨rfl,rfl⟩ := first
    refine .bind ((induction _).mono fun items u rest => ends_pure ?_)
    obtain ⟨rfl,rfl⟩ := rest
    exact ⟨rfl,rfl⟩

theorem ends_createSaleReturn_restocks (data : CreateSaleReturnRequest) (returnedAt : Int) : Ends (createSaleReturn data returnedAt) s fun _ t =>
    (∀ line ∈ data.lines, ∀ id, line.saleLineId = some id → (s.line id).isSome) ∧ ∃ r : SaleReturn,
      run (forM ((data.lines.map (s.prepared data.branchId)).zipIdx) (returnRestock s.returns.length returnedAt))
        { s with returns := s.returns ++ [r] } = .ok ((),t) := by
  refine .bind (ends_require fun valid => .bind (ends_get (.bind (ends_require fun existing => .bind (ends_require fun own => ?_)))))
  refine .bind ((ends_checkReturnedSale _ _).mono fun _ t checked => ?_)
  obtain ⟨rfl,-⟩ := checked
  refine .bind ((ends_prepareLines_prepared _ _ _).mono fun prepared u made => ?_)
  obtain ⟨rfl,rfl⟩ := made
  refine .bind ((ends_locks _).mono fun _ v same => .bind (ends_require fun positive => .bind (ends_get (.bind (ends_put ?_)))))
  subst same
  intro _ w ran
  refine ⟨fun line member id named => ?_,_,ran⟩
  exact List.all_eq_true.mp existing id (List.mem_filterMap.mpr ⟨line,member,named⟩)

theorem matches_returnRestock {item : Prepared} {entry : LineId × SaleLine} (linked : item.original = some entry) (first second i j : Nat)
    (returnedAt : Int) : Matches (SameStock base) (returnRestock first returnedAt (item,i)) (returnRestock second returnedAt (item,j)) := by
  simp only [returnRestock,linked]
  exact matches_restoreSaleLineInventory _ _

theorem serve_restocks {data : CreateSaleReturnRequest} {returnedAt : Int} (served : serve s (.createSaleReturn data returnedAt) = some t) :
    (∀ line ∈ data.lines, ∀ id, line.saleLineId = some id → (s.line id).isSome) ∧ ∃ r : SaleReturn,
      run (forM ((data.lines.map (s.prepared data.branchId)).zipIdx) (returnRestock s.returns.length returnedAt))
        { s with returns := s.returns ++ [r] } = .ok ((),t) := by
  obtain ⟨_,ran⟩ := serve_eq_some served
  exact ends_createSaleReturn_restocks data returnedAt _ _ ran

theorem serve_single {data : CreateSaleReturnRequest} {line : ReturnLineRequest} {returnedAt : Int} {saleReturn index : Nat} {v : Store}
    (same : SameStock base s t) (linked : line.saleLineId.isSome)
    (round : run (returnRestock saleReturn returnedAt (base.prepared data.branchId line,index)) s = .ok ((),u))
    (served : serve t (.createSaleReturn { data with lines := [line] } returnedAt) = some v) : SameStock base u v := by
  obtain ⟨existing,r,ran⟩ := serve_restocks served
  obtain ⟨id,named⟩ := Option.isSome_iff_exists.mp linked
  have found := existing line List.mem_cons_self id named
  have prepared : t.prepared data.branchId line = base.prepared data.branchId line := by
    simp only [Store.prepared,Store.line,same.right]
  rw [Store.line,same.right] at found
  obtain ⟨original,there⟩ := Option.isSome_iff_exists.mp found
  have entry : (base.prepared data.branchId line).original = some (id,original) := by
    have here : base.line id = some original := there
    simp [Store.prepared,named,here]
  rw [List.map_singleton,List.zipIdx_singleton,List.forM_cons,prepared] at ran
  obtain ⟨_,w,ran,rest⟩ := run_bind_ok_iff.mp ran
  cases rest
  have filed : SameStock base s { t with returns := t.returns ++ [r] } := ⟨same.left,same.right,same.layers,same.taken⟩
  exact (matches_returnRestock entry _ _ _ _ _ _ _ filed _ _ _ _ round ran).2

theorem run_singles {data : CreateSaleReturnRequest} {returnedAt : Int} {saleReturn : Nat} (lines : List ReturnLineRequest) :
    ∀ {s t s' t' : Store} {start : Nat}, SameStock base s t → (∀ line ∈ lines, line.saleLineId.isSome) →
      run (forM ((lines.map (base.prepared data.branchId)).zipIdx start) (returnRestock saleReturn returnedAt)) s = .ok ((),s') →
        Run (OfNext serve) t (lines.map fun line => .createSaleReturn { data with lines := [line] } returnedAt) t' → SameStock base s' t' := by
  induction lines with
  | nil =>
    intro s t s' t' start same _ whole singles
    cases whole
    cases singles
    exact same
  | cons line lines induction =>
    intro s t s' t' start same linked whole singles
    obtain ⟨here,linked⟩ := List.forall_mem_cons.mp linked
    rw [List.map_cons,List.zipIdx_cons,List.forM_cons] at whole
    obtain ⟨_,u,round,whole⟩ := run_bind_ok_iff.mp whole
    cases singles with
    | cons served singles => exact induction (serve_single same here round served) linked whole singles

theorem layers_alike {data : CreateSaleReturnRequest} {returnedAt : Int} (linked : ∀ line ∈ data.lines, line.saleLineId.isSome)
    (together : serve s (.createSaleReturn data returnedAt) = some t)
    (apart : Run (OfNext serve) s (data.lines.map fun line => .createSaleReturn { data with lines := [line] } returnedAt) u) :
    u.layers = t.layers := by
  obtain ⟨-,r,ran⟩ := serve_restocks together
  have same : SameStock s { s with returns := s.returns ++ [r] } s := ⟨rfl,rfl,rfl,fun _ => rfl⟩
  exact (run_singles data.lines same linked ran apart).layers

end Stock

namespace Refunds
open SasBackend Tally Transition

variable {s : State} {data : CreateSaleReturnRequest}

section Cases

/-- Three units at ten each with three of tax. -/
private def taxed (qty unitPrice taxAmount : ℚ) (bounds : 0 < qty ∧ 0 ≤ unitPrice ∧ 0 ≤ taxAmount)
    (scaled : unitPrice ∈ Decimal.grid 2 ∧ (0 : ℚ) ∈ Decimal.grid 2 ∧ taxAmount ∈ Decimal.grid 2) : SaleLine :=
  ⟨5,none,qty,unitPrice,0,taxAmount,bounds.1,bounds.2.1,le_rfl,bounds.2.2,scaled.1,scaled.2.1,scaled.2.2⟩

private def threeTaxed : SaleLine := taxed 3 10 3 (by norm_num) (by decide +kernel)

private def oneSale : State := ⟨[⟨1,none,.completed,[threeTaxed],[]⟩],[]⟩

private def soldStore : Stock.Store :=
  (execute Stock.serve ⟨false,[],[],[],[],[],[],[],[]⟩ [.createPurchaseReceipt ⟨1,none,[⟨5,none,none,9,1⟩],0⟩,
    .createSale ⟨⟨1,none,[⟨5,none,3,10,0,0,10⟩],[⟨.cash,33⟩]⟩,.pos,1⟩]).getD ⟨false,[],[],[],[],[],[],[],[]⟩

private def unitsBack (quantities : List ℚ) : CreateSaleReturnRequest :=
  ⟨1,some 0,none,quantities.map fun qty => ⟨some ⟨0,0⟩,none,none,qty,none,none⟩,[]⟩

private theorem oneSale_sold : ∀ id original, oneSale.line id = some original → original.qty ∈ Decimal.grid 4 := by
  intro id original found
  obtain ⟨sale,there,inside⟩ := Option.bind_eq_some_iff.mp found
  obtain rfl := List.mem_singleton.mp (List.mem_of_getElem? there)
  obtain rfl := List.mem_singleton.mp (List.mem_of_getElem? inside)
  decide +kernel

private theorem unitsBack_linked (quantities : List ℚ) : Linked oneSale (unitsBack quantities).lines := by
  refine List.forall_mem_map.mpr fun qty _ => ⟨⟨0,0⟩,threeTaxed,rfl,rfl⟩

end Cases

end Refunds
