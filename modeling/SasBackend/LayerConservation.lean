import SasBackend.ReturnRequests

/-! In a run whose requests are orderly every cost layer holds what its movements add up to, within what it received.
-/
namespace Stock
open SasBackend Tally Program Transition
open Refunds (LineId SaleLineRequest ReturnLineRequest CreateSaleReturnRequest)

variable {s t : Store} {drift : Nat → ℚ}

theorem Conserved.layersKept (conserved : Conserved (fun _ => 0) s) : LayersKept s where
  bounds layer _ := ⟨layer.2.remaining,layer.2.received⟩
  conserved id layer found := (conserved.settled.balanced id layer found).trans (add_zero _)
  returned := conserved.settled.returned

theorem conserved_empty (empty : Empty s) : Conserved (fun _ => 0) s := by
  obtain ⟨layers,movements,sales,returns,-⟩ := empty
  have none (line : LineId) (id : Nat) : s.takenFrom line id = 0 := by simp [Store.takenFrom,Store.saleMovements,movements]
  refine ⟨⟨?_,?_,?_,fun line id some_ => absurd some_ (none line id).not_gt,fun _ _ => ⟨rfl,le_rfl⟩,?_,?_⟩,?_,?_,?_⟩
  · simp [movements]
  · simp [movements]
  · simp [movements]
  · simp [layers]
  · simp [layers]
  · simp [movements]
  · simp [movements]
  · simp [returns]

theorem conserved_program {request : Request} (conserved : Conserved drift s) (allowed : orderly s request = true) :
    Ends request.program s fun _ => Conserved drift := by
  have steady {p : Tx Unit} (ends : Ends p s fun _ => Steady drift s) : Ends p s fun _ => Conserved drift := ends.mono fun _ _ => conserved.steady
  have settled := conserved.settled
  cases request with
  | createSale data => exact ends_createSale data conserved allowed
  | openTab branchId => exact (ends_openTab branchId conserved).mono fun _ _ kept => kept.1
  | addLinesToTab saleId lines => exact (ends_addLinesToTab saleId lines conserved).mono fun _ _ kept => kept.1
  | completeTab saleId payments soldAt => exact ends_completeTab saleId payments soldAt conserved allowed
  | createSaleReturn data returnedAt => exact (ends_createSaleReturn data returnedAt conserved allowed).mono fun _ _ kept => kept.1
  | voidSale saleId now => exact (ends_voidSale saleId now conserved).mono fun _ _ kept => kept.1
  | cancelSale saleId now => exact (ends_cancelSale saleId now conserved allowed).mono fun _ _ kept => kept.1
  | createPurchaseOrder branchId lines now => exact steady (steady_createPurchaseOrder branchId lines now settled)
  | updatePurchaseOrderStatus id target => exact steady (steady_updatePurchaseOrderStatus id target settled)
  | createPurchaseReceipt data => exact steady (steady_createPurchaseReceipt data settled allowed)
  | createStockAdjustment branchId openingBalance lines adjustedAt =>
    exact steady (steady_createStockAdjustment branchId openingBalance lines adjustedAt settled allowed)
  | createWasteEntry branchId lines wastedAt => exact steady (steady_createWasteEntry branchId lines wastedAt settled allowed)
  | createStockTransfer source dest lines now => exact steady (steady_createStockTransfer source dest lines now settled allowed)
  | receiveStockTransfer id now => exact steady (steady_receiveStockTransfer id now settled)
  | createProductionOrder branchId bomHeaderId qty => exact steady (steady_createProductionOrder branchId bomHeaderId qty settled)
  | startProductionOrder id => exact steady (steady_startProductionOrder id settled)
  | cancelProductionOrder id => exact steady (steady_cancelProductionOrder id settled)
  | completeProductionOrder id qtyProduced now => exact steady (steady_completeProductionOrder id qtyProduced now settled)

theorem conserved_serve {request : Request} (conserved : Conserved drift s) (allowed : orderly s request = true) (served : serve s request = some t) :
    Conserved drift t := by
  obtain ⟨⟨_,u⟩,ran,rfl⟩ := Option.map_eq_some_iff.mp served
  exact conserved_program conserved allowed _ _ (Outcome.toOption_eq_some.mp ran)

private def receipt (qty : ℚ) (receivedAt : Int) : Request := .createPurchaseReceipt ⟨1,none,[⟨5,none,none,qty,1⟩],receivedAt⟩

private def sold (qty paid : ℚ) (soldAt : Int) : Request := .createSale ⟨⟨1,none,[⟨5,none,qty,1,0,0,0⟩],[⟨.cash,paid⟩]⟩,.pos,soldAt⟩

private def returned (qty : ℚ) (returnedAt : Int) : Request :=
  .createSaleReturn ⟨1,some 0,none,[⟨some ⟨0,0⟩,none,none,qty,none,none⟩],[]⟩ returnedAt

/-- What each layer holds, and what its movements add up to. -/
private def layerSums (s : Store) : List (ℚ × ℚ) := s.layers.zipIdx.map fun entry => (entry.1.val.qtyRemaining,s.layerSum entry.2)

private theorem layerSums_same (kept : LayersKept s) : ∀ pair ∈ layerSums s, pair.1 = pair.2 := by
  intro pair member
  obtain ⟨entry,inside,rfl⟩ := List.mem_map.mp member
  exact kept.conserved entry.2 entry.1 (List.mem_zipIdx_iff_getElem?.mp inside)

/-- One order of ten units, and two lines of a receipt on its only line. -/
private def fineReceipt (qty : ℚ) : List Request :=
  [.createPurchaseOrder 1 [⟨5,none,10,1⟩] 0,.updatePurchaseOrderStatus 0 .ordered,
    .createPurchaseReceipt ⟨1,some 0,[⟨5,none,some 0,qty,1⟩,⟨5,none,some 0,qty,1⟩],1⟩]

/-- Returned twice, cancelled twice, a waste of half of the last decimal, or decimals that one line of a request leaves at hand
to the next. -/
private def driftingRuns : List (List Request × List (ℚ × ℚ)) :=
  [([receipt 10 0,receipt 10 1,sold 15 15 2,returned 5 3,returned 5 4],[(0,0),(10,15)]),
    ([receipt 10 0,sold 4 1 1,.cancelSale 0 2,.cancelSale 0 3],[(10,14)]),
    ([receipt 1 0,.createWasteEntry 1 [⟨5,none,5/100000⟩] 1],[(1,9999/10000)]),
    (fineReceipt (100004/100000),[(20001/10000,2)]),
    ([receipt 1 1,.createStockAdjustment 1 false [⟨5,none,100004/100000,none⟩,⟨5,none,-60006/100000,none⟩] 0],
      [(1,1),(2/5,3999/10000)])]

/-- The run leads to these sums, which do not agree. -/
private def Drifts (run : List Request × List (ℚ × ℚ)) : Prop :=
  ∃ s, Reachable Empty (OfNext serve) s ∧ layerSums s = run.2 ∧ ¬ LayersKept s

end Stock
