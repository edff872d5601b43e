import SasBackend.LayerRefill
import SasBackend.SaleStock

/-! What is on record of a sale between the request that takes its stock and its void: no other request writes a movement of its lines,
and a sale that is completed as a tab was opened as one.
-/
namespace Stock
open SasBackend Tally Program
open Refunds (LineId SaleLineRequest ReturnLineRequest CreateSaleReturnRequest)

variable {s t : Store} {saleId : Nat} {sale : Sale} {position : Position} {rows : List StockMovement} {change : Position → ℚ}

theorem saleOf_eq_some {reference : Reference} : reference.saleOf = some saleId ↔ ∃ index, reference = .saleLine ⟨saleId,index⟩ := by
  cases reference with
  | saleLine line =>
    rw [Reference.saleOf,Option.some.injEq]
    constructor
    · intro same
      exact ⟨line.index,by rw [← same]⟩
    · intro about
      obtain ⟨index,same⟩ := about
      rw [Reference.saleLine.inj same]
  | _ => simp [Reference.saleOf]

theorem salesOf_append (movements : t.movements = s.movements ++ rows) (saleId : Nat) : t.salesOf saleId =
    s.salesOf saleId ++ rows.filter fun m => m.val.movementType = .sale && m.val.reference.saleOf = some saleId := by
  rw [Store.salesOf,movements,List.filter_append,Store.salesOf]

theorem salesOf_same (movements : t.movements = s.movements ++ rows)
    (apart : ∀ m ∈ rows, m.val.movementType = .sale → m.val.reference.saleOf ≠ some saleId) : t.salesOf saleId = s.salesOf saleId := by
  rw [salesOf_append movements,List.filter_eq_nil_iff.mpr,List.append_nil]
  intro m member named
  simp only [Bool.and_eq_true,decide_eq_true_eq] at named
  exact apart m member named.1 named.2

theorem Filed.salesOf_unknown (filed : Filed s) (beyond : s.sales.length ≤ saleId) : s.salesOf saleId = [] := by
  refine List.filter_eq_nil_iff.mpr fun m member named => ?_
  simp only [Bool.and_eq_true,decide_eq_true_eq] at named
  obtain ⟨index,about⟩ := saleOf_eq_some.mp named.2
  exact absurd beyond (not_le.mpr (filed.sold m member ⟨saleId,index⟩ about))

theorem SoldRows.salesOf {entries : List (Item × Nat)} (soldRows : SoldRows saleId entries rows) (movements : t.movements = s.movements ++ rows)
    (other : Nat) : t.salesOf other = s.salesOf other ++ if other = saleId then rows else [] := by
  rw [salesOf_append movements]
  congr 1
  split
  · next same =>
    refine List.filter_eq_self.mpr fun m member => ?_
    obtain ⟨typed,entry,-,about⟩ := soldRows.sold m member
    simp [typed,about,Reference.saleOf,same]
  · next apart =>
    refine List.filter_eq_nil_iff.mpr fun m member named => apart ?_
    obtain ⟨typed,entry,-,about⟩ := soldRows.sold m member
    simp only [typed,about,Reference.saleOf,Bool.and_eq_true,decide_eq_true_eq,Option.some.injEq,true_and] at named
    exact named.symm

theorem soldQty_rows (s : Store) (line : LineId) : s.soldQty line = ((s.saleMovements line).map fun m => |m.val.qty|).sum := by
  have sorted := ((List.perm_insertionSort (fun a b : StockMovement => a.earlier b)
    ((s.saleMovements line).filter (·.val.purchaseLineId.isSome))).map fun m => |m.val.qty|).sum_eq
  have traced : totalQty (s.tracedConsumptions line) = (((s.saleMovements line).filter (·.val.purchaseLineId.isSome)).map fun m => |m.val.qty|).sum := by
    rw [totalQty,Store.tracedConsumptions,List.map_map]
    exact sorted
  have each := ((List.filter_append_perm (fun m : StockMovement => m.val.purchaseLineId.isSome) (s.saleMovements line)).map fun m => |m.val.qty|).sum_eq
  rw [List.map_append,List.sum_append] at each
  rw [Store.soldQty,traced,Store.untracedQty,← each]
  simp only [Option.not_isSome]

theorem SoldRows.whole (soldRows : SoldRows saleId sale.entries rows) (written : s.salesOf saleId = rows) : Whole s saleId sale where
  lines entry member := by
    have listed : (entry.1.item sale.branchId,entry.2) ∈ sale.entries := by
      rw [Sale.entries,List.zipIdx_map]
      exact List.mem_map.mpr ⟨entry,member,rfl⟩
    have outgoing := soldRows.lines _ listed
    have each : ∀ m ∈ rows.filter fun m => m.val.reference = .saleLine ⟨saleId,entry.2⟩, |m.val.qty| = -m.val.qty := fun m inside =>
      abs_of_nonpos (outgoing.each m inside).2.2.2
    have exact_ : round4 entry.1.stored.qty = entry.1.stored.qty := Decimal.quantize_of_mem_grid entry.1.qtyScaled
    rw [soldQty_rows,saleMovements_salesOf,written,List.map_congr_left each]
    have total := outgoing.total
    change _ = -round4 entry.1.stored.qty at total
    rw [exact_] at total
    have negated := List.sum_neg ((rows.filter fun m => m.val.reference = .saleLine ⟨saleId,entry.2⟩).map (·.val.qty))
    rw [List.map_map] at negated
    exact negated.symm.trans (by rw [total,neg_neg])
  rows m member := by
    rw [written] at member
    obtain ⟨-,entry,inside,about⟩ := soldRows.sold m member
    rw [Sale.entries,List.zipIdx_map] at inside
    obtain ⟨line,there,rfl⟩ := List.mem_map.mp inside
    exact ⟨line,there,about⟩

def Longer (s t : Store) : Prop := s.layers.length ≤ t.layers.length

instance : Std.Refl Longer where
  refl _ := le_rfl

instance : IsTrans Store Longer where
  trans _ _ _ first second := Nat.le_trans first second

theorem longer_createPurchaseReceipt (data : CreatePurchaseReceiptRequest) : Relates Longer (createPurchaseReceipt data) := by
  have framed {α : Type} {p : Tx α} (frame : Relates (Frame fun _ => True) p) : Relates Longer p := frame.mono fun _ _ frame => frame.longer
  refine relates_createPurchaseReceipt data ?_ (fun line => framed (frame_receiveIntoNewLayer trivial)) ?_ ?_
  · exact fun id row => (relates_ofExcept _).bind fun _ => relates_put fun _ => List.length_set.ge
  · exact fun row _ _ => framed (frame_createStockMovement trivial)
  · exact fun id status => relates_put fun _ => le_rfl

theorem longer_program (request : Request) : Relates Longer request.program := by
  by_cases other : request.other = true
  · exact (frame_program other).mono fun _ _ frame => frame.longer
  · cases request with
    | createPurchaseReceipt data => exact longer_createPurchaseReceipt data
    | createStockTransfer source dest lines now =>
      exact (frame_createStockTransfer source dest lines now).mono fun _ _ frame => frame.longer
    | _ => exact absurd rfl other

/-- Nothing of a tab is out or has come back, and a completed sale without returns is out as it was sold. -/
structure RecordedSale (s : Store) (saleId : Nat) (sale : Sale) : Prop where
  held : sale.status = .held → s.salesOf saleId = [] ∧ ∀ position, s.saleNet saleId position = 0
  kept : sale.status = .held → s.hasReturnLines saleId = false
  whole : sale.status = .completed → Whole s saleId sale
  out : sale.status = .completed → s.hasReturnLines saleId = false → ∀ position, s.saleNet saleId position = -sale.qtyAt position

structure Recorded (s : Store) : Prop where
  filed : Filed s
  sales : ∀ (saleId : Nat) sale, s.sales[saleId]? = some sale → RecordedSale s saleId sale

theorem Whole.same (whole : Whole s saleId sale) (same : t.salesOf saleId = s.salesOf saleId) : Whole t saleId sale where
  lines entry member := by
    rw [soldQty_rows,saleMovements_salesOf,same,← saleMovements_salesOf,← soldQty_rows]
    exact whole.lines entry member
  rows := by
    rw [same]
    exact whole.rows

theorem Recorded.touch (recorded : Recorded s) (touches : Touches saleId s t change)
    (sold : ∀ other, other ≠ saleId → t.salesOf other = s.salesOf other)
    (here : ∀ sale, t.sales[saleId]? = some sale → RecordedSale t saleId sale) : Recorded t := by
  refine ⟨touches.filed,fun other sale found => ?_⟩
  by_cases same : other = saleId
  · subst same
    exact here sale found
  · obtain ⟨sales,returned,net⟩ := touches.others other same
    have before := recorded.sales other sale (sales ▸ found)
    refine ⟨fun held => ?_,fun held => returned.trans (before.kept held),fun completed => (before.whole completed).same (sold other same),
      fun completed unreturned position => ?_⟩
    · rw [sold other same]
      exact ⟨(before.held held).1,fun position => (net position).trans ((before.held held).2 position)⟩
    · rw [net]
      exact before.out completed (returned ▸ unreturned) position

theorem recorded_shut {status : SaleStatus} (shut : status = .voided ∨ status = .cancelled) :
    RecordedSale s saleId { sale with status := status } := by
  constructor <;> rcases shut with rfl | rfl <;> intro same <;> cases same

/-- The sale that a request bills, opens or closes, how it leaves it, and whether it takes its stock. -/
def Request.subject (s : Store) : Request → Option Nat
  | .createSale _ | .openTab _ => some s.sales.length
  | .completeTab saleId _ _ | .voidSale saleId _ | .cancelSale saleId _ => some saleId
  | _ => none

def Request.leaves : Request → SaleStatus → Bool
  | .createSale _ | .completeTab _ _ _ => billedStatus
  | .openTab _ => (· = .held)
  | .voidSale _ _ => (· = .voided)
  | .cancelSale _ _ => (· = .cancelled)
  | _ => fun _ => true

def Request.takes : Request → Bool
  | .createSale _ | .completeTab _ _ _ => true
  | _ => false

/-- Only a tab that was opened as one is completed. -/
def Request.tabbed (s : Store) : Request → Bool
  | .completeTab saleId _ _ => s.sales[saleId]?.all (·.status = .held)
  | _ => true

/-- What a request does to the sales. -/
structure Step (request : Request) (s t : Store) : Prop where
  recorded : Recorded t
  sold : ∀ other, request.subject s ≠ some other ∨ request.takes = false → t.salesOf other = s.salesOf other
  others : ∀ other, request.subject s ≠ some other → t.sales[other]?.map Sale.status = s.sales[other]?.map Sale.status
  settled : ∀ saleId, request.subject s = some saleId → ∃ sale, t.sales[saleId]? = some sale ∧ request.leaves sale.status = true

variable {request : Request}

theorem Recorded.settles (recorded : Recorded s) (touches : Touches saleId s t change) (subject : request.subject s = some saleId)
    (sold : ∀ other, request.subject s ≠ some other ∨ request.takes = false → t.salesOf other = s.salesOf other)
    (found : t.sales[saleId]? = some sale) (leaves : request.leaves sale.status = true) (here : RecordedSale t saleId sale) : Step request s t where
  recorded := by
    refine recorded.touch touches (fun other apart => sold other (.inl ?_)) fun other same => ?_
    · rw [subject]
      exact fun same => apart (Option.some.inj same).symm
    · obtain rfl := Option.some.inj (found.symm.trans same)
      exact here
  sold := sold
  others other apart := by
    rw [(touches.others other fun same => apart (same ▸ subject)).1]
  settled other same := by
    obtain rfl := Option.some.inj (subject.symm.trans same)
    exact ⟨sale,found,leaves⟩

theorem Recorded.passes (recorded : Recorded s) (touches : Touches saleId s t change) (subject : request.subject s = none)
    (sold : ∀ other, t.salesOf other = s.salesOf other) (status : t.sales[saleId]?.map Sale.status = s.sales[saleId]?.map Sale.status)
    (here : ∀ sale, t.sales[saleId]? = some sale → RecordedSale t saleId sale) : Step request s t where
  recorded := recorded.touch touches (fun other _ => sold other) here
  sold other _ := sold other
  others other _ := by
    by_cases same : other = saleId
    · rw [same,status]
    · rw [(touches.others other same).1]
  settled other same := by
    rw [subject] at same
    cases same

theorem Recorded.takes (recorded : Recorded s) (sells : Sells s t saleId)
    (billed : ∀ sale, t.sales[saleId]? = some sale → billedStatus sale.status = true) (none : s.salesOf saleId = [])
    (nothing : ∀ position, s.saleNet saleId position = 0) (subject : request.subject s = some saleId) (takes : request.takes = true)
    (leaves : request.leaves = billedStatus) : Step request s t := by
  obtain ⟨rows,sale,movements,found,soldRows,touches⟩ := recorded.filed.takes sells
  have wrote := soldRows.salesOf movements
  have billed := billed sale found
  have unheld : sale.status ≠ .held := by
    intro held
    rw [held] at billed
    cases billed
  refine recorded.settles touches subject (fun other apart => ?_) found (by rw [leaves,billed])
    ⟨fun held => absurd held unheld,fun held => absurd held unheld,fun _ => ?_,fun _ _ position => ?_⟩
  · have apart : other ≠ saleId := by
      rintro rfl
      simp [subject,takes] at apart
    rw [wrote,if_neg apart,List.append_nil]
  · refine soldRows.whole ?_
    rw [wrote,if_pos rfl,none,List.nil_append]
  · rw [touches.net,nothing,zero_add]

theorem step_createSale (data : CreateSale) (recorded : Recorded s) : Ends (createSale data) s fun _ => Step (.createSale data) s := by
  refine (sells_createSale data).mono fun _ t sold => ?_
  exact recorded.takes sold.1 sold.2 (recorded.filed.salesOf_unknown le_rfl) (recorded.filed.saleNet_unknown le_rfl) rfl rfl rfl

theorem step_completeTab (saleId : Nat) (payments : List Pricing.Payment) (soldAt : Int) (recorded : Recorded s)
    (tabbed : Request.tabbed s (.completeTab saleId payments soldAt) = true) :
    Ends (completeTab saleId payments soldAt) s fun _ => Step (.completeTab saleId payments soldAt) s := by
  refine (sells_completeTab saleId payments soldAt).mono fun _ t completed => ?_
  obtain ⟨⟨old,there,-⟩,sells,billed⟩ := completed
  rw [Request.tabbed,there,Option.all_some,decide_eq_true_eq] at tabbed
  obtain ⟨none,nothing⟩ := (recorded.sales saleId old there).held tabbed
  exact recorded.takes sells billed none nothing rfl rfl rfl

theorem step_openTab (branchId : Nat) (recorded : Recorded s) : Ends (openTab branchId) s fun _ => Step (.openTab branchId) s := by
  refine ends_put ?_
  have touches := recorded.filed.opens branchId
  refine recorded.settles touches rfl (fun _ _ => rfl) List.getElem?_concat_length rfl
    ⟨fun _ => ⟨?_,fun position => ?_⟩,fun _ => recorded.filed.unreturned le_rfl,fun completed => ?_,fun completed => ?_⟩
  · exact recorded.filed.salesOf_unknown le_rfl
  · rw [touches.net,recorded.filed.saleNet_unknown le_rfl,add_zero]
  · cases completed
  · cases completed

theorem step_addLinesToTab (saleId : Nat) (lines : List SaleLineRequest) (recorded : Recorded s) :
    Ends (addLinesToTab saleId lines) s fun _ => Step (.addLinesToTab saleId lines) s := by
  refine (ends_addedLines saleId lines).mono fun _ t added => ?_
  obtain ⟨sale,more,found,⟨-,active⟩,rfl⟩ := added
  have movements : s.movements = s.movements ++ [] := (List.append_nil _).symm
  have modified := recorded.filed.modifies (t := { s with sales := s.sales.modify saleId fun sale => { sale with lines := sale.lines ++ more } })
    movements rfl rfl found (List.forall_mem_nil _)
  obtain ⟨now,touches⟩ := modified
  have before := recorded.sales saleId sale found
  refine recorded.passes touches rfl (fun _ => rfl) (by rw [now,found]; rfl) fun other same => ?_
  obtain rfl := Option.some.inj (now.symm.trans same)
  refine ⟨fun held => ⟨(before.held held).1,fun position => ?_⟩,before.kept,fun completed => ?_,fun completed => ?_⟩
  · exact ((touches.net position).trans (add_zero _)).trans ((before.held held).2 position)
  · rw [show sale.status = .completed from completed] at active
    cases active
  · rw [show sale.status = .completed from completed] at active
    cases active

theorem salesOf_frame (frame : Frame (Eq .saleReturn) s t) (saleId : Nat) : t.salesOf saleId = s.salesOf saleId := by
  obtain ⟨rows,movements,typed⟩ := frame.rows
  exact salesOf_same movements fun m member sold => absurd ((typed m member).trans sold) (by decide)

theorem step_shut {status : SaleStatus} (recorded : Recorded s) (there : s.sales[saleId]? = some sale) (shut : Shut status saleId rows s t)
    (own : ∀ m ∈ rows, ∃ index, m.val.reference = .saleLine ⟨saleId,index⟩) (frame : Frame (Eq .saleReturn) s t)
    (closed : status = .voided ∨ status = .cancelled) (subject : request.subject s = some saleId) (leaves : request.leaves status = true) :
    Step request s t := by
  obtain ⟨found,touches⟩ := recorded.filed.modifies shut.movements shut.returns shut.sales there own
  exact recorded.settles touches subject (fun other _ => salesOf_frame frame other) found leaves (recorded_shut closed)

theorem step_voidSale (saleId : Nat) (now : Int) (recorded : Recorded s) : Ends (voidSale saleId now) s fun _ => Step (.voidSale saleId now) s := by
  refine ((shuts_voidSale saleId now).and (frame_voidSale saleId now rfl s)).mono fun _ t voided => ?_
  obtain ⟨⟨sale,rows,there,-,-,brings,shut⟩,frame⟩ := voided
  exact step_shut recorded there shut brings.back frame (.inl rfl) rfl rfl

theorem step_cancelSale (saleId : Nat) (now : Int) (recorded : Recorded s) :
    Ends (cancelSale saleId now) s fun _ => Step (.cancelSale saleId now) s := by
  refine ((shuts_cancelSale saleId now).and (frame_cancelSale saleId now rfl s)).mono fun _ t cancelled => ?_
  obtain ⟨⟨sale,rows,there,-,-,wrote,shut⟩,frame⟩ := cancelled
  refine step_shut recorded there shut ?_ frame (.inr rfl) rfl rfl
  split at wrote
  · rw [wrote]
    exact List.forall_mem_nil _
  · exact wrote.back

theorem step_createSaleReturn (data : CreateSaleReturnRequest) (returnedAt : Int) (recorded : Recorded s) :
    Ends (createSaleReturn data returnedAt) s fun _ => Step (.createSaleReturn data returnedAt) s := by
  refine ((returned_createSaleReturn data returnedAt recorded.filed.counted).and (frame_createSaleReturn data returnedAt rfl s)).mono
    fun _ t returned => ?_
  obtain ⟨returned,frame⟩ := returned
  have sales := returned.sales
  obtain ⟨sold,change,touches,-,here⟩ := recorded.filed.returned returned
  refine recorded.passes touches rfl (salesOf_frame frame) (by rw [sales]) fun sale found => ?_
  rw [sales] at found
  obtain ⟨able,listed,-⟩ := here sale found
  have unheld : sale.status ≠ .held := by
    intro held
    rw [held] at able
    cases able
  refine ⟨fun held => absurd held unheld,fun held => absurd held unheld,
    fun completed => ((recorded.sales sold sale found).whole completed).same (salesOf_frame frame sold),fun _ unreturned => ?_⟩
  · rw [listed] at unreturned
    cases unreturned

theorem step_beside (recorded : Recorded s) (beside : Beside s t) (subject : request.subject s = none) : Step request s t := by
  obtain ⟨rows,movements,foreign⟩ := beside.rows
  refine recorded.passes (recorded.filed.beside beside) subject (fun other => ?_) (by rw [beside.sales]) fun sale found => ?_
  · refine salesOf_same movements fun m member _ named => ?_
    obtain ⟨index,about⟩ := saleOf_eq_some.mp named
    exact (Reference.plain_apart (foreign m member).plain).1 _ about
  · rw [beside.sales,List.getElem?_eq_none le_rfl] at found
    cases found

theorem step_program (request : Request) (recorded : Recorded s) (tabbed : request.tabbed s = true) :
    Ends request.program s fun _ => Step request s := by
  have aside (other : request.selling = false) (subject : request.subject s = none) : Ends request.program s fun _ => Step request s :=
    (beside_program other s).mono fun _ t beside => step_beside recorded beside subject
  cases request with
  | createSale data => exact step_createSale data recorded
  | openTab branchId => exact step_openTab branchId recorded
  | addLinesToTab saleId lines => exact step_addLinesToTab saleId lines recorded
  | completeTab saleId payments soldAt => exact step_completeTab saleId payments soldAt recorded tabbed
  | createSaleReturn data returnedAt => exact step_createSaleReturn data returnedAt recorded
  | voidSale saleId now => exact step_voidSale saleId now recorded
  | cancelSale saleId now => exact step_cancelSale saleId now recorded
  | createPurchaseOrder branchId lines now => exact aside rfl rfl
  | updatePurchaseOrderStatus id target => exact aside rfl rfl
  | createPurchaseReceipt data => exact aside rfl rfl
  | createStockAdjustment branchId openingBalance lines adjustedAt => exact aside rfl rfl
  | createWasteEntry branchId lines wastedAt => exact aside rfl rfl
  | createStockTransfer source dest lines now => exact aside rfl rfl
  | receiveStockTransfer id now => exact aside rfl rfl
  | createProductionOrder branchId bomHeaderId qty => exact aside rfl rfl
  | startProductionOrder id => exact aside rfl rfl
  | cancelProductionOrder id => exact aside rfl rfl
  | completeProductionOrder id qtyProduced now => exact aside rfl rfl

theorem recorded_empty (empty : Empty s) : Recorded s := by
  have accounted := accounted_empty empty
  obtain ⟨-,-,sales,-,-⟩ := empty
  refine ⟨accounted.filed,fun saleId sale found => ?_⟩
  simp [sales] at found

theorem Step.there {other : Nat} (step : Step request s t) (apart : request.subject s ≠ some other) :
    other < t.sales.length ↔ other < s.sales.length := by
  rw [← not_le,← not_le,← List.getElem?_eq_none_iff,← List.getElem?_eq_none_iff,← Option.map_eq_none_iff (f := Sale.status),
    step.others other apart,Option.map_eq_none_iff]

/-- What the lines of a sale have on record is what the layers lost from `before` to `made`, and the sale is not a tab to be completed. -/
structure Outstanding (saleId : Nat) (before made s : Store) : Prop where
  layers : before.layers.length ≤ s.layers.length
  counted : made.layers.length = before.layers.length
  consumed : ∀ id, s.consumed saleId id = before.remaining id - made.remaining id
  stands : ∃ sale, s.sales[saleId]? = some sale ∧ sale.status ≠ .held

theorem Loses.outstanding (loses : Loses rows s t) (written : t.salesOf saleId = rows) (found : t.sales[saleId]? = some sale)
    (billed : billedStatus sale.status = true) : Outstanding saleId s t t := by
  have length : t.layers.length = s.layers.length := loses.shifts.length
  refine ⟨length.ge,length,fun id => ?_,sale,found,fun held => ?_⟩
  · rw [Store.consumed,written]
    change drawnBy rows id = _
    rcases Nat.lt_or_ge id s.layers.length with inside | beyond
    · rw [loses.shifts.remaining inside]
      ring
    · rw [loses.known id beyond,remaining_beyond beyond,remaining_beyond (length.trans_le beyond),sub_zero]
  · rw [held] at billed
    cases billed

theorem Recorded.outstanding (recorded : Recorded s) (sells : Sells s t saleId)
    (billed : ∀ sale, t.sales[saleId]? = some sale → billedStatus sale.status = true) (none : s.salesOf saleId = [])
    (lost : ∃ rows, t.movements = s.movements ++ rows ∧ Loses rows s t) : Outstanding saleId s t t := by
  obtain ⟨rows,sale,movements,found,soldRows,-⟩ := recorded.filed.takes sells
  obtain ⟨others,again,loses⟩ := lost
  obtain rfl := List.append_cancel_left (movements.symm.trans again)
  refine loses.outstanding ?_ found (billed sale found)
  rw [soldRows.salesOf movements,if_pos rfl,none,List.nil_append]

theorem outstanding_createSale (data : CreateSale) (recorded : Recorded s)
    (exact_ : exactly s.held (data.bill.lines.map (lineItem data.bill.branchId)) = true) :
    Ends (createSale data) s fun _ t => Outstanding s.sales.length s t t := by
  refine ((sells_createSale data).and (loses_createSale data exact_)).mono fun _ t sold => ?_
  exact recorded.outstanding sold.1.1 sold.1.2 (recorded.filed.salesOf_unknown le_rfl) sold.2

theorem outstanding_completeTab (saleId : Nat) (payments : List Pricing.Payment) (soldAt : Int) (recorded : Recorded s)
    (tabbed : Request.tabbed s (.completeTab saleId payments soldAt) = true) :
    Ends (completeTab saleId payments soldAt) s fun _ t => Outstanding saleId s t t := by
  refine ((sells_completeTab saleId payments soldAt).and (loses_completeTab saleId payments soldAt)).mono fun _ t completed => ?_
  obtain ⟨⟨⟨old,there,-⟩,sells,billed⟩,lost⟩ := completed
  rw [Request.tabbed,there,Option.all_some,decide_eq_true_eq] at tabbed
  exact recorded.outstanding sells billed ((recorded.sales saleId old there).held tabbed).1 lost

theorem Outstanding.subject {before made : Store} (outstanding : Outstanding saleId before made s) (tabbed : request.tabbed s = true)
    (subject : request.subject s = some saleId) : (∃ now, request = .voidSale saleId now) ∨ ∃ now, request = .cancelSale saleId now := by
  obtain ⟨sale,found,unheld⟩ := outstanding.stands
  have inside := (List.getElem?_eq_some_iff.mp found).1
  cases request with
  | voidSale other now => exact .inl ⟨now,congrArg (Request.voidSale · now) (Option.some.inj subject)⟩
  | cancelSale other now => exact .inr ⟨now,congrArg (Request.cancelSale · now) (Option.some.inj subject)⟩
  | createSale data => exact absurd (Option.some.inj subject) inside.ne'
  | openTab branchId => exact absurd (Option.some.inj subject) inside.ne'
  | completeTab other payments soldAt =>
    obtain rfl := Option.some.inj subject
    rw [Request.tabbed,found,Option.all_some,decide_eq_true_eq] at tabbed
    exact absurd tabbed unheld
  | _ => cases subject

theorem Outstanding.step {before made : Store} (outstanding : Outstanding saleId before made s) (tabbed : request.tabbed s = true) (step : Step request s t)
    (longer : Longer s t) : Outstanding saleId before made t := by
  have untaken : request.subject s ≠ some saleId ∨ request.takes = false := by
    by_cases subject : request.subject s = some saleId
    · right
      obtain ⟨now,rfl⟩ | ⟨now,rfl⟩ := outstanding.subject tabbed subject <;> rfl
    · exact .inl subject
  refine ⟨outstanding.layers.trans longer,outstanding.counted,fun id => ?_,?_⟩
  · rw [Store.consumed,step.sold saleId untaken]
    exact outstanding.consumed id
  · by_cases subject : request.subject s = some saleId
    · obtain ⟨sale,found,leaves⟩ := step.settled saleId subject
      refine ⟨sale,found,fun held => ?_⟩
      obtain ⟨now,rfl⟩ | ⟨now,rfl⟩ := outstanding.subject tabbed subject <;> simp [Request.leaves,held] at leaves
    · obtain ⟨old,there,unheld⟩ := outstanding.stands
      have same := step.others saleId subject
      rw [there] at same
      obtain ⟨sale,found,status⟩ := Option.map_eq_some_iff.mp same
      exact ⟨sale,found,status ▸ unheld⟩

theorem Outstanding.voided {before made : Store} {now : Int} (outstanding : Outstanding saleId before made s) (recorded : Recorded s)
    (room : ∀ (id : Nat) layer, s.layers[id]? = some layer → layer.val.qtyRemaining + s.consumed saleId id ≤ layer.val.receivedQty) :
    Ends (voidSale saleId now) s fun _ t =>
      (∃ sale, s.sales[saleId]? = some sale ∧ Shifts (fun id => before.remaining id - made.remaining id) (s.shorts saleId sale) s t) ∧
        ∀ position, t.saleNet saleId position = 0 := by
  have known (id : Nat) (beyond : s.layers.length ≤ id) : s.consumed saleId id = 0 := by
    have outside := outstanding.layers.trans beyond
    rw [outstanding.consumed,remaining_beyond outside,remaining_beyond (outstanding.counted.trans_le outside),sub_zero]
  have whole (sale : Sale) (found : s.sales[saleId]? = some sale) (completed : sale.status = .completed) : Whole s saleId sale :=
    (recorded.sales saleId sale found).whole completed
  refine ((shifts_voidSale room known whole).and (shuts_voidSale saleId now)).mono fun _ t voided => ?_
  obtain ⟨⟨sale,found,shifts⟩,other,rows,there,completed,unreturned,brings,shut⟩ := voided
  refine ⟨⟨sale,found,shifts.congr fun id => (outstanding.consumed id).symm⟩,fun position => ?_⟩
  obtain ⟨-,touches⟩ := recorded.filed.modifies shut.movements shut.returns shut.sales there brings.back
  rw [touches.net,brings.placed,(recorded.sales saleId other there).out completed unreturned,neg_add_cancel]

end Stock
