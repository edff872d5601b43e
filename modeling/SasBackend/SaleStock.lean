import SasBackend.SaleMovements
import SasBackend.StockFrame

/-! A request that takes or gives back a sale's stock once leaves every sale with at most what its lines sold out, and with nothing
once it is voided or cancelled; a request that does so twice ends that.
-/
namespace Stock
open SasBackend Tally Program Transition
open Refunds (LineId SaleLineRequest ReturnLineRequest CreateSaleReturnRequest)

variable {s t : Store} {saleId : Nat} {sale : Sale} {position : Position} {rows : List StockMovement} {change : Position → ℚ}

theorem qtyAt_nonneg (sale : Sale) (position : Position) : 0 ≤ sale.qtyAt position :=
  tally_nonneg fun line _ => line.stored.qtyPositive.le

theorem qtyAt_pos {line : SaleLine} (member : line ∈ sale.lines) : 0 < sale.qtyAt (line.position sale.branchId) := by
  refine lt_of_lt_of_le line.stored.qtyPositive ?_
  rw [Sale.qtyAt,tally]
  refine List.single_le_sum (fun qty inside => ?_) _ (List.mem_map_of_mem (List.mem_filter.mpr ⟨member,decide_eq_true rfl⟩))
  obtain ⟨other,-,rfl⟩ := List.mem_map.mp inside
  exact other.stored.qtyPositive.le

theorem qtyAt_eq_zero (elsewhere : ∀ line ∈ sale.lines, line.position sale.branchId ≠ position) : sale.qtyAt position = 0 :=
  tally_eq_zero elsewhere

theorem SoldRows.qtyAt (soldRows : SoldRows saleId sale.entries rows) (position : Position) :
    tally (fun m : StockMovement => m.val.position) (fun m => m.val.qty) position rows = -sale.qtyAt position := by
  have exact_ (line : SaleLine) : round4 line.stored.qty = line.stored.qty := Decimal.quantize_of_mem_grid line.qtyScaled
  have each : tally (fun entry : Item × Nat => entry.1.position) (fun entry => round4 entry.1.qty) position sale.entries =
      tally Item.position (fun item => round4 item.qty) position (sale.entries.map Prod.fst) := by
    rw [tally_map]
    rfl
  rw [soldRows.placed,each,Sale.entries,List.zipIdx_map_fst,tally_map,Sale.qtyAt]
  exact congrArg Neg.neg (tally_congr fun line _ => exact_ line)

theorem SaleKept.nothingOut_iff (kept : SaleKept s saleId sale) :
    s.nothingOut saleId sale = true ↔ ∀ position, s.saleNet saleId position = 0 := by
  simp only [Store.nothingOut,List.all_eq_true,decide_eq_true_eq]
  refine ⟨fun none position => ?_,fun none line _ => none _⟩
  by_cases here : ∃ line ∈ sale.lines, line.position sale.branchId = position
  · obtain ⟨line,member,rfl⟩ := here
    exact none line member
  · have zero := qtyAt_eq_zero fun line member same => here ⟨line,member,same⟩
    have least := kept.covered position
    rw [zero,neg_zero] at least
    exact (kept.nonpos position).antisymm least

/-- Movements and returns are about sales and returns there are. -/
structure Filed (s : Store) : Prop where
  sold : ∀ m ∈ s.movements, ∀ line, m.val.reference = .saleLine line → line.saleId < s.sales.length
  reported : ∀ m ∈ s.movements, ∀ saleReturn index, m.val.reference = .saleReturnLine saleReturn index → saleReturn < s.returns.length
  linked : ∀ r ∈ s.returns, ∀ line ∈ r.lines, ∀ id, line.saleLineId = some id → id.saleId < s.sales.length
  addressed : ∀ r ∈ s.returns, ∀ id, r.saleId = some id → id < s.sales.length
  counted : Counted s

theorem Filed.unreturned (filed : Filed s) (beyond : s.sales.length ≤ saleId) : s.hasReturnLines saleId = false := by
  refine List.any_eq_false.mpr fun r listed named => ?_
  simp only [Bool.and_eq_true,decide_eq_true_eq] at named
  exact absurd (filed.addressed r listed saleId named.1) (not_lt.mpr beyond)

theorem ofSale_iff {m : StockMovement} : s.ofSale saleId m = true ↔ ∃ id, s.about m.val.reference = some id ∧ id.saleId = saleId := by
  simp [Store.ofSale,Option.map_eq_some_iff]

theorem about_plain {reference : Reference} (plain : reference.plain = true) : s.about reference = none := by
  cases reference <;> first | rfl | cases plain

theorem about_saleLine {m : StockMovement} {index : Nat} (named : m.val.reference = .saleLine ⟨saleId,index⟩) : s.ofSale saleId m = true :=
  ofSale_iff.mpr ⟨⟨saleId,index⟩,by rw [named]; rfl,rfl⟩

theorem Filed.saleNet_unknown (filed : Filed s) (beyond : s.sales.length ≤ saleId) (position : Position) : s.saleNet saleId position = 0 := by
  have none : s.movements.filter (s.ofSale saleId) = [] := by
    refine List.filter_eq_nil_iff.mpr fun m member own => ?_
    obtain ⟨id,about,rfl⟩ := ofSale_iff.mp own
    refine absurd beyond (not_le.mpr ?_)
    rcases about_eq_some.mp about with named | ⟨saleReturn,index,-,linked⟩
    · exact filed.sold m member id named
    · obtain ⟨r,listed,item,inside,linked⟩ := linkedLine_found linked
      exact filed.linked r listed item inside id linked
  rw [Store.saleNet,none,tally_nil]

/-- A step that changes what is out for one sale only, by so much at each position. -/
structure Touches (saleId : Nat) (s t : Store) (change : Position → ℚ) : Prop where
  filed : Filed t
  net : ∀ position, t.saleNet saleId position = s.saleNet saleId position + change position
  others : ∀ other, other ≠ saleId → t.sales[other]? = s.sales[other]? ∧ t.hasReturnLines other = s.hasReturnLines other ∧
    ∀ position, t.saleNet other position = s.saleNet other position

/-- Rows about one sale, and returns of it. -/
theorem Filed.touches (saleId : Nat) (filed : Filed s) (after : Filed t) (movements : t.movements = s.movements ++ rows)
    (returns : ∃ more, t.returns = s.returns ++ more ∧ ∀ r ∈ more, ∀ other, r.saleId = some other → other = saleId)
    (others : ∀ other, other ≠ saleId → t.sales[other]? = s.sales[other]?)
    (own : ∀ m ∈ rows, ∀ id, t.about m.val.reference = some id → id.saleId = saleId) :
    Touches saleId s t fun position =>
      tally (fun m : StockMovement => m.val.position) (fun m => m.val.qty) position (rows.filter (t.ofSale saleId)) := by
  obtain ⟨more,returns,mine⟩ := returns
  have about : ∀ m ∈ s.movements, t.about m.val.reference = s.about m.val.reference := fun m member =>
    about_later returns (filed.reported m member)
  have net (other : Nat) (position : Position) : t.saleNet other position = s.saleNet other position +
      tally (fun m : StockMovement => m.val.position) (fun m => m.val.qty) position (rows.filter (t.ofSale other)) := by
    have old : s.movements.filter (t.ofSale other) = s.movements.filter (s.ofSale other) :=
      List.filter_congr fun m member => by rw [Store.ofSale,about m member,Store.ofSale]
    rw [Store.saleNet,movements,List.filter_append,tally_append,old,Store.saleNet]
  refine ⟨after,net saleId,fun other apart => ⟨others other apart,?_,fun position => ?_⟩⟩
  · have none : (more.any fun r => r.saleId = some other && !r.lines.isEmpty) = false := by
      refine List.any_eq_false.mpr fun r member named => apart ?_
      simp only [Bool.and_eq_true,decide_eq_true_eq] at named
      exact mine r member other named.1
    rw [Store.hasReturnLines,returns,List.any_append,none,Bool.or_false,Store.hasReturnLines]
  · have none : rows.filter (t.ofSale other) = [] := by
      refine List.filter_eq_nil_iff.mpr fun m member named => apart ?_
      obtain ⟨id,about,rfl⟩ := ofSale_iff.mp named
      exact own m member id about
    rw [net,none,tally_nil,add_zero]

/-- New rows about lines of one sale, and no return. -/
theorem Filed.sells (filed : Filed s) (movements : t.movements = s.movements ++ rows) (returns : t.returns = s.returns)
    (longer : s.sales.length ≤ t.sales.length) (others : ∀ other, other ≠ saleId → t.sales[other]? = s.sales[other]?)
    (inside : saleId < t.sales.length) (own : ∀ m ∈ rows, ∃ index, m.val.reference = .saleLine ⟨saleId,index⟩) :
    Touches saleId s t fun position => tally (fun m : StockMovement => m.val.position) (fun m => m.val.qty) position rows := by
  have after : Filed t := by
    refine ⟨?_,?_,?_,?_,?_⟩
    · rw [movements]
      refine List.forall_mem_append.mpr ⟨fun m member line named => (filed.sold m member line named).trans_le longer,fun m member line named => ?_⟩
      obtain ⟨index,about⟩ := own m member
      obtain rfl := Reference.saleLine.inj (about.symm.trans named)
      exact inside
    · rw [movements,returns]
      refine List.forall_mem_append.mpr ⟨filed.reported,fun m member saleReturn index named => ?_⟩
      obtain ⟨index,about⟩ := own m member
      rw [about] at named
      cases named
    · rw [returns]
      exact fun r listed line member id linked => (filed.linked r listed line member id linked).trans_le longer
    · rw [returns]
      exact fun r listed id named => (filed.addressed r listed id named).trans_le longer
    · rw [Counted,returns]
      exact filed.counted
  have touches := filed.touches saleId after movements ⟨[],by simp [returns],by simp⟩ others fun m member id about => by
    obtain ⟨index,named⟩ := own m member
    rw [named] at about
    obtain rfl := Option.some.inj about
    rfl
  have all : rows.filter (t.ofSale saleId) = rows := List.filter_eq_self.mpr fun m member => about_saleLine (own m member).choose_spec
  rwa [all] at touches

theorem Filed.takes (filed : Filed s) (sells : Sells s t saleId) : ∃ rows sale, t.movements = s.movements ++ rows ∧
    t.sales[saleId]? = some sale ∧ SoldRows saleId sale.entries rows ∧ Touches saleId s t fun position => -sale.qtyAt position := by
  have longer := sells.longer
  obtain ⟨⟨rows,sale,movements,found,soldRows⟩,returns,others⟩ := sells
  have inside := (List.getElem?_eq_some_iff.mp found).1
  have touches := filed.sells movements returns longer others inside fun m member => by
    obtain ⟨-,entry,-,about⟩ := soldRows.sold m member
    exact ⟨entry.2,about⟩
  exact ⟨rows,sale,movements,found,soldRows,funext soldRows.qtyAt ▸ touches⟩

/-- A request for other things touches no sale. -/
theorem Filed.beside (filed : Filed s) (beside : Beside s t) : Touches s.sales.length s t fun _ => 0 := by
  obtain ⟨⟨rows,movements,foreign⟩,sales,returns,-⟩ := beside
  have after : Filed t := by
    refine ⟨?_,?_,?_,?_,?_⟩
    · rw [movements,sales]
      exact List.forall_mem_append.mpr ⟨filed.sold,fun m member line named => absurd named ((Reference.plain_apart (foreign m member).plain).1 line)⟩
    · rw [movements,returns]
      exact List.forall_mem_append.mpr ⟨filed.reported,fun m member saleReturn index named =>
        absurd named ((Reference.plain_apart (foreign m member).plain).2 saleReturn index)⟩
    · rw [returns,sales]
      exact filed.linked
    · rw [returns,sales]
      exact filed.addressed
    · rw [Counted,returns]
      exact filed.counted
  have none (m : StockMovement) (member : m ∈ rows) : t.about m.val.reference = none := about_plain (foreign m member).plain
  have touches := filed.touches s.sales.length after movements ⟨[],by simp [returns],by simp⟩ (fun other _ => by rw [sales])
    fun m member id about => by rw [none m member] at about; cases about
  have nothing : rows.filter (t.ofSale s.sales.length) = [] := by
    refine List.filter_eq_nil_iff.mpr fun m member named => ?_
    obtain ⟨id,about,-⟩ := ofSale_iff.mp named
    rw [none m member] at about
    cases about
  rw [nothing] at touches
  exact touches

/-- The stock of the sale has been taken, however it was made. -/
def Sale.taken (sale : Sale) : Bool := sale.status = .completed || sale.saleType ≠ .dineIn && activeTab sale.status

structure Standing (s : Store) (saleId : Nat) (sale : Sale) : Prop extends SaleKept s saleId sale where
  whole : s.hasReturnLines saleId = false → sale.taken = true → ∀ position, s.saleNet saleId position = -sale.qtyAt position

structure Accounted (s : Store) : Prop where
  filed : Filed s
  standing : ∀ (saleId : Nat) sale, s.sales[saleId]? = some sale → Standing s saleId sale

theorem Accounted.kept (accounted : Accounted s) : SalesKept s := fun saleId sale found => (accounted.standing saleId sale found).toSaleKept

theorem Accounted.touch (accounted : Accounted s) (touches : Touches saleId s t change)
    (here : ∀ sale, t.sales[saleId]? = some sale → Standing t saleId sale) : Accounted t := by
  refine ⟨touches.filed,fun other sale found => ?_⟩
  by_cases same : other = saleId
  · subst same
    exact here sale found
  · obtain ⟨sales,returned,net⟩ := touches.others other same
    have before := accounted.standing other sale (sales ▸ found)
    refine ⟨⟨fun position => ?_,fun position => ?_,fun closed position => ?_⟩,fun unreturned taken position => ?_⟩
    · exact (net position).trans_le (before.nonpos position)
    · exact (before.covered position).trans_eq (net position).symm
    · exact (net position).trans (before.closed closed position)
    · exact (net position).trans (before.whole (returned ▸ unreturned) taken position)

theorem standing_out (out : ∀ position, s.saleNet saleId position = -sale.qtyAt position) (open_ : sale.closed = false) :
    Standing s saleId sale := by
  refine ⟨⟨fun position => ?_,fun position => (out position).ge,fun closed => ?_⟩,fun _ _ => out⟩
  · rw [out]
    exact neg_nonpos.mpr (qtyAt_nonneg sale position)
  · rw [open_] at closed
    cases closed

theorem standing_in (nothing : ∀ position, s.saleNet saleId position = 0) (untaken : sale.taken = false) : Standing s saleId sale := by
  refine ⟨⟨fun position => (nothing position).le,fun position => ?_,fun _ => nothing⟩,fun _ taken => ?_⟩
  · rw [nothing]
    exact neg_nonpos.mpr (qtyAt_nonneg sale position)
  · rw [untaken] at taken
    cases taken

theorem closed_of_billed (billed : billedStatus sale.status = true) : sale.closed = false := by
  cases status : sale.status <;> simp_all [billedStatus,Sale.closed]

/-- What a step does to the sales if it is one of the steps that take and give back once, and if it is not. -/
def Decides (request : Request) (s t : Store) : Prop :=
  (s.balances request = true → Accounted t) ∧ (s.balances request = false → ¬ SalesKept t)

theorem decides_of {request : Request} (always : s.balances request = true) (accounted : Accounted t) : Decides request s t :=
  ⟨fun _ => accounted,fun never => by rw [always] at never; cases never⟩

theorem decides_createSale (data : CreateSale) (accounted : Accounted s) : Ends (createSale data) s fun _ => Decides (.createSale data) s := by
  refine (sells_createSale data).mono fun _ t sold => decides_of rfl ?_
  obtain ⟨sells,billed⟩ := sold
  obtain ⟨rows,sale,-,found,-,touches⟩ := accounted.filed.takes sells
  refine accounted.touch touches fun other same => ?_
  obtain rfl := Option.some.inj (found.symm.trans same)
  refine standing_out (fun position => ?_) (closed_of_billed (billed sale found))
  rw [touches.net,accounted.filed.saleNet_unknown le_rfl,zero_add]

theorem Filed.opens (filed : Filed s) (branchId : Nat) :
    Touches s.sales.length s { s with sales := s.sales ++ [⟨branchId,.dineIn,.held,[]⟩] } fun _ => 0 := by
  have movements : s.movements = s.movements ++ [] := (List.append_nil _).symm
  exact filed.sells (t := { s with sales := s.sales ++ [⟨branchId,.dineIn,.held,[]⟩] }) movements rfl (by simp)
    (fun _ apart => Slots.append_apart apart) (by simp) (List.forall_mem_nil _)

theorem decides_openTab (branchId : Nat) (accounted : Accounted s) : Ends (openTab branchId) s fun _ => Decides (.openTab branchId) s := by
  refine ends_put (decides_of rfl ?_)
  have touches := accounted.filed.opens branchId
  refine accounted.touch touches fun sale found => standing_in (fun position => ?_) ?_
  · rw [touches.net,accounted.filed.saleNet_unknown le_rfl,add_zero]
  · have same : (⟨branchId,.dineIn,.held,[]⟩ : Sale) = sale := by simpa using found
    rw [← same]
    rfl

theorem ends_addedLines (saleId : Nat) (lines : List SaleLineRequest) : Ends (addLinesToTab saleId lines) s fun _ t => ∃ sale more,
    s.sales[saleId]? = some sale ∧ (sale.saleType = .dineIn ∧ activeTab sale.status = true) ∧
      t = { s with sales := s.sales.modify saleId fun sale => { sale with lines := sale.lines ++ more } } := by
  refine .bind (ends_require fun _ => .bind ((ends_mutableTab saleId).mono fun sale t tab => ?_))
  obtain ⟨rfl,found,dineIn,active⟩ := tab
  exact .bind (ends_ofExcept fun more _ => ends_put ⟨sale,more,found,⟨dineIn,active⟩,rfl⟩)

theorem taken_of_tab (dineIn : sale.saleType = .dineIn) (active : activeTab sale.status = true) : sale.taken = false := by
  have incomplete : sale.status ≠ .completed := by
    intro completed
    rw [completed] at active
    cases active
  simp [Sale.taken,dineIn,incomplete]

theorem closed_of_active (active : activeTab sale.status = true) : sale.closed = false := by
  have stands := activeTab_stands active
  simpa [Sale.closed] using stands

theorem Filed.modifies (filed : Filed s) {f : Sale → Sale} (movements : t.movements = s.movements ++ rows) (returns : t.returns = s.returns)
    (sales : t.sales = s.sales.modify saleId f) (found : s.sales[saleId]? = some sale)
    (own : ∀ m ∈ rows, ∃ index, m.val.reference = .saleLine ⟨saleId,index⟩) :
    t.sales[saleId]? = some (f sale) ∧ Touches saleId s t fun position =>
      tally (fun m : StockMovement => m.val.position) (fun m => m.val.qty) position rows := by
  have length : t.sales.length = s.sales.length := by rw [sales,List.length_modify]
  have inside := (List.getElem?_eq_some_iff.mp found).1
  refine ⟨by simp [sales,found],filed.sells movements returns length.ge (fun other apart => ?_) (length ▸ inside) own⟩
  simp [sales,Ne.symm apart]

theorem decides_addLinesToTab (saleId : Nat) (lines : List SaleLineRequest) (accounted : Accounted s) :
    Ends (addLinesToTab saleId lines) s fun _ => Decides (.addLinesToTab saleId lines) s := by
  refine (ends_addedLines saleId lines).mono fun _ t added => decides_of rfl ?_
  obtain ⟨sale,more,found,⟨dineIn,active⟩,rfl⟩ := added
  have movements : s.movements = s.movements ++ [] := (List.append_nil _).symm
  have modified := accounted.filed.modifies (t := { s with sales := s.sales.modify saleId fun sale => { sale with lines := sale.lines ++ more } })
    movements rfl rfl found (List.forall_mem_nil _)
  obtain ⟨now,touches⟩ := modified
  have before := accounted.standing saleId sale found
  refine accounted.touch touches fun other same => ?_
  obtain rfl := Option.some.inj (now.symm.trans same)
  have net (position : Position) := (touches.net position).trans (add_zero _)
  refine ⟨⟨fun position => (net position).trans_le (before.nonpos position),fun position => ?_,fun closed => ?_⟩,fun _ taken => ?_⟩
  · have larger : sale.qtyAt position ≤ Sale.qtyAt { sale with lines := sale.lines ++ more } position := by
      rw [Sale.qtyAt,Sale.qtyAt,tally_append]
      exact le_add_of_nonneg_right (tally_nonneg fun line _ => line.stored.qtyPositive.le)
    rw [net]
    exact (neg_le_neg larger).trans (before.covered position)
  · have open_ : Sale.closed { sale with lines := sale.lines ++ more } = false := closed_of_active active
    rw [open_] at closed
    cases closed
  · have untaken : Sale.taken { sale with lines := sale.lines ++ more } = false := taken_of_tab dineIn active
    rw [untaken] at taken
    cases taken

theorem decides_completeTab (saleId : Nat) (payments : List Pricing.Payment) (soldAt : Int) (accounted : Accounted s) :
    Ends (completeTab saleId payments soldAt) s fun _ => Decides (.completeTab saleId payments soldAt) s := by
  refine (sells_completeTab saleId payments soldAt).mono fun _ t completed => ?_
  obtain ⟨⟨old,there,-⟩,sells,billed⟩ := completed
  have before := accounted.standing saleId old there
  obtain ⟨rows,sale,-,found,-,touches⟩ := accounted.filed.takes sells
  have same : s.balances (.completeTab saleId payments soldAt) = s.nothingOut saleId old := by rw [Store.balances,there,Option.all_some]
  rw [Decides,same]
  refine ⟨fun nothing => ?_,fun something kept => ?_⟩
  · have nothing := before.nothingOut_iff.mp nothing
    refine accounted.touch touches fun other same => ?_
    obtain rfl := Option.some.inj (found.symm.trans same)
    refine standing_out (fun position => ?_) (closed_of_billed (billed sale found))
    rw [touches.net,nothing,zero_add]
  · -- what was out already, and all of it again
    refine Bool.eq_false_iff.mp something (before.nothingOut_iff.mpr fun position => ?_)
    have least := (kept saleId sale found).covered position
    rw [touches.net] at least
    exact (before.nonpos position).antisymm (by linarith)

theorem standing_shut {status : SaleStatus} (shut : status = .voided ∨ status = .cancelled) (nothing : ∀ position, s.saleNet saleId position = 0) :
    Standing s saleId { sale with status := status } := by
  refine standing_in nothing ?_
  rcases shut with rfl | rfl <;> simp [Sale.taken,activeTab]

theorem decides_voidSale (saleId : Nat) (now : Int) (accounted : Accounted s) :
    Ends (voidSale saleId now) s fun _ => Decides (.voidSale saleId now) s := by
  refine (shuts_voidSale saleId now).mono fun _ t voided => decides_of rfl ?_
  obtain ⟨sale,rows,there,completed,unreturned,brings,shut⟩ := voided
  obtain ⟨found,touches⟩ := accounted.filed.modifies shut.movements shut.returns shut.sales there brings.back
  refine accounted.touch touches fun other same => ?_
  obtain rfl := Option.some.inj (found.symm.trans same)
  refine standing_shut (.inl rfl) fun position => ?_
  have out := (accounted.standing saleId sale there).whole unreturned (by simp [Sale.taken,completed]) position
  rw [touches.net,brings.placed,out,neg_add_cancel]

theorem decides_cancelSale (saleId : Nat) (now : Int) (accounted : Accounted s) :
    Ends (cancelSale saleId now) s fun _ => Decides (.cancelSale saleId now) s := by
  refine (shuts_cancelSale saleId now).mono fun _ t cancelled => ?_
  obtain ⟨sale,rows,there,⟨incomplete,unvoided⟩,unreturned,wrote,shut⟩ := cancelled
  have before := accounted.standing saleId sale there
  have same : s.balances (.cancelSale saleId now) =
      if skipInventoryRestore sale then s.nothingOut saleId sale else sale.status ≠ .cancelled || sale.lines.isEmpty := by
    rw [Store.balances,there,Option.all_some]
  rw [Decides,same]
  by_cases skip : skipInventoryRestore sale = true
  · rw [if_pos skip] at wrote ⊢
    subst wrote
    obtain ⟨found,touches⟩ := accounted.filed.modifies shut.movements shut.returns shut.sales there (List.forall_mem_nil _)
    have net (position : Position) := (touches.net position).trans (add_zero _)
    refine ⟨fun nothing => ?_,fun something kept => ?_⟩
    · refine accounted.touch touches fun other same => ?_
      obtain rfl := Option.some.inj (found.symm.trans same)
      exact standing_shut (.inr rfl) fun position => (net position).trans (before.nothingOut_iff.mp nothing position)
    · refine Bool.eq_false_iff.mp something (before.nothingOut_iff.mpr fun position => ?_)
      exact (net position).symm.trans ((kept saleId _ found).closed rfl position)
  · rw [if_neg skip] at wrote ⊢
    obtain ⟨found,touches⟩ := accounted.filed.modifies shut.movements shut.returns shut.sales there wrote.back
    have net (position : Position) : t.saleNet saleId position = s.saleNet saleId position + sale.qtyAt position := by
      rw [touches.net,wrote.placed]
    refine ⟨fun fresh => ?_,fun again kept => ?_⟩
    · refine accounted.touch touches fun other same => ?_
      obtain rfl := Option.some.inj (found.symm.trans same)
      refine standing_shut (.inr rfl) fun position => ?_
      have out : s.saleNet saleId position = -sale.qtyAt position := by
        rcases Bool.or_eq_true_iff.mp fresh with standing | empty
        · have standing : sale.status ≠ .cancelled := of_decide_eq_true standing
          refine before.whole unreturned ?_ position
          cases status : sale.status <;> simp_all [Sale.taken,activeTab,skipInventoryRestore]
        · have lines : sale.lines = [] := List.isEmpty_iff.mp empty
          have zero : sale.qtyAt position = 0 := qtyAt_eq_zero (by simp [lines])
          have least := before.covered position
          rw [zero,neg_zero] at least ⊢
          exact (before.nonpos position).antisymm least
      rw [net,out,neg_add_cancel]
    · simp only [Bool.or_eq_false_iff,decide_eq_false_iff_not,not_not,List.isEmpty_eq_false_iff] at again
      obtain ⟨line,member⟩ := List.exists_mem_of_ne_nil _ again.2
      have none := before.closed (by simp [Sale.closed,again.1]) (line.position sale.branchId)
      have more := (kept saleId _ found).nonpos (line.position sale.branchId)
      rw [net,none,zero_add] at more
      exact absurd (qtyAt_pos member) more.not_gt

theorem brought_nonneg {lines : List ReturnLineRequest} (positive : ∀ line ∈ lines, 0 < line.qty) (position : Position) :
    0 ≤ s.brought lines position :=
  tally_nonneg fun line member => Decimal.quantize_nonneg (positive line member).le

theorem brought_eq_zero {lines : List ReturnLineRequest}
    (elsewhere : ∀ id ∈ lines.filterMap ReturnLineRequest.saleLineId, s.soldFrom id ≠ some position) : s.brought lines position = 0 := by
  refine tally_eq_zero fun line member same => ?_
  obtain ⟨id,named,from_⟩ := Option.bind_eq_some_iff.mp same
  exact elsewhere id (List.mem_filterMap.mpr ⟨line,member,named⟩) from_

/-- A return that is put on record with rows of its own. -/
theorem Filed.returns (filed : Filed s) (saleId : Nat) {r : SaleReturn} (sales : t.sales = s.sales) (returns : t.returns = s.returns ++ [r])
    (movements : t.movements = s.movements ++ rows) (about : ∀ m ∈ rows, ∃ index, m.val.reference = .saleReturnLine s.returns.length index)
    (counted : ∀ line ∈ r.lines, 0 ≤ line.qty) (own : ∀ line ∈ r.lines, ∀ id, line.saleLineId = some id → r.saleId = some id.saleId)
    (mine : ∀ other, r.saleId = some other → other = saleId ∧ other < s.sales.length) :
    Touches saleId s t fun position =>
      tally (fun m : StockMovement => m.val.position) (fun m => m.val.qty) position (rows.filter (t.ofSale saleId)) := by
  have after : Filed t := by
    refine ⟨?_,?_,?_,?_,?_⟩
    · rw [movements,sales]
      refine List.forall_mem_append.mpr ⟨filed.sold,fun m member line named => ?_⟩
      obtain ⟨index,same⟩ := about m member
      rw [same] at named
      cases named
    · rw [movements,returns,List.length_append]
      refine List.forall_mem_append.mpr ⟨fun m member saleReturn index named => ?_,fun m member saleReturn index named => ?_⟩
      · exact Nat.lt_add_right _ (filed.reported m member saleReturn index named)
      · obtain ⟨other,same⟩ := about m member
        obtain ⟨rfl,-⟩ := Reference.saleReturnLine.inj (same.symm.trans named)
        exact Nat.lt_succ_self _
    · rw [returns,sales]
      refine List.forall_mem_append.mpr ⟨filed.linked,List.forall_mem_singleton.mpr fun line member id linked => ?_⟩
      exact (mine _ (own line member id linked)).2
    · rw [returns,sales]
      exact List.forall_mem_append.mpr ⟨filed.addressed,List.forall_mem_singleton.mpr fun id named => (mine id named).2⟩
    · rw [Counted,returns]
      exact List.forall_mem_append.mpr ⟨filed.counted,List.forall_mem_singleton.mpr counted⟩
  refine filed.touches saleId after movements ⟨[r],returns,List.forall_mem_singleton.mpr fun other named => (mine other named).1⟩
    (fun other _ => by rw [sales]) fun m member id named => ?_
  obtain ⟨index,same⟩ := about m member
  rw [same] at named
  have listed : t.returns[s.returns.length]? = some r := by simp [returns]
  rw [Store.about,Store.linkedLine,listed,Option.bind_some] at named
  obtain ⟨line,found,linked⟩ := Option.bind_eq_some_iff.mp named
  exact (mine _ (own line (List.mem_of_getElem? found) id linked)).1

/-- What a return leaves: of the sale it is for, which takes returns, what its lines bring comes back. -/
theorem Filed.returned (filed : Filed s) {data : CreateSaleReturnRequest} (returned : Returned data s t) : ∃ saleId change,
    Touches saleId s t change ∧ (∀ line ∈ data.lines, ∀ id, line.saleLineId = some id → id.saleId = saleId) ∧
      ∀ sale, s.sales[saleId]? = some sale → SaleExclusion.returnable sale.status = true ∧ t.hasReturnLines saleId = true ∧
        ∀ position, change position = s.brought data.lines position := by
  obtain ⟨sales,⟨nonempty,positive⟩,saleId,rows,returns,movements,about,linked,brings⟩ := returned
  generalize recorded : ({ saleId := saleId, lines := data.lines.map fun line => ⟨line.saleLineId,round4 line.qty⟩ } : SaleReturn) = r at returns
  have each : ∀ line ∈ r.lines, 0 ≤ line.qty ∧ ∀ id, line.saleLineId = some id → saleId = some id.saleId := by
    rw [← recorded]
    refine List.forall_mem_map.mpr fun line member => ⟨Decimal.quantize_nonneg (positive line member).le,fun id named => ?_⟩
    exact linked line member id named
  have named : r.saleId = saleId := by rw [← recorded]
  cases saleId with
  | none =>
    have touches := filed.returns s.sales.length sales returns movements about (fun line member => (each line member).1)
      (fun line member id same => by cases (each line member).2 id same) fun other same => by cases named.symm.trans same
    refine ⟨s.sales.length,_,touches,fun line member id same => ?_,fun sale found => ?_⟩
    · cases linked line member id same
    · rw [List.getElem?_eq_none le_rfl] at found
      cases found
  | some sold =>
    obtain ⟨⟨sale,there,able⟩,placed⟩ := brings sold rfl
    have inside := (List.getElem?_eq_some_iff.mp there).1
    have touches := filed.returns sold sales returns movements about (fun line member => (each line member).1)
      (fun line member id same => named.trans ((each line member).2 id same)) fun other same => by
        obtain rfl := Option.some.inj (same.symm.trans named)
        exact ⟨rfl,inside⟩
    refine ⟨sold,_,touches,fun line member id same => (Option.some.inj (linked line member id same)).symm,fun other found => ?_⟩
    obtain rfl := Option.some.inj (there.symm.trans found)
    have lines : r.lines ≠ [] := by simpa [← recorded] using nonempty
    exact ⟨able,by simp [Store.hasReturnLines,returns,named,lines],placed⟩

theorem decides_createSaleReturn (data : CreateSaleReturnRequest) (returnedAt : Int) (accounted : Accounted s) :
    Ends (createSaleReturn data returnedAt) s fun _ => Decides (.createSaleReturn data returnedAt) s := by
  refine (returned_createSaleReturn data returnedAt accounted.filed.counted).mono fun _ t returned => ?_
  have sales := returned.sales
  have positive := returned.lines.2
  obtain ⟨sold,change,touches,mine,here⟩ := accounted.filed.returned returned
  cases there : s.sales[sold]? with
  | none =>
    refine decides_of (List.all_eq_true.mpr fun id member => ?_) (accounted.touch touches fun sale found => ?_)
    · obtain ⟨line,listed,same⟩ := List.mem_filterMap.mp member
      rw [Store.soldFrom,mine line listed id same,there]
      rfl
    · rw [sales,there] at found
      cases found
  | some sale =>
    obtain ⟨able,listed,brings⟩ := here sale there
    have net (position : Position) : t.saleNet sold position = s.saleNet sold position + s.brought data.lines position := by
      rw [touches.net,brings]
    have before := accounted.standing sold sale there
    refine ⟨fun within_ => accounted.touch touches fun other found => ?_,fun beyond kept => ?_⟩
    · rw [sales] at found
      obtain rfl := Option.some.inj (there.symm.trans found)
      have least (position : Position) : s.saleNet sold position ≤ t.saleNet sold position := by
        rw [net]
        exact le_add_of_nonneg_right (brought_nonneg positive position)
      refine ⟨⟨fun position => ?_,fun position => (before.covered position).trans (least position),fun closed => ?_⟩,fun unreturned => ?_⟩
      · rw [net]
        by_cases from_ : ∃ id ∈ data.lines.filterMap ReturnLineRequest.saleLineId, s.soldFrom id = some position
        · obtain ⟨id,member,from_⟩ := from_
          obtain ⟨line,listed,same⟩ := List.mem_filterMap.mp member
          have bound := List.all_eq_true.mp within_ id member
          rw [from_,Option.all_some,decide_eq_true_eq,mine line listed id same] at bound
          exact bound
        · rw [brought_eq_zero fun id member same => from_ ⟨id,member,same⟩,add_zero]
          exact before.nonpos position
      · cases status : sale.status <;> simp_all [Sale.closed,SaleExclusion.returnable]
      · rw [listed] at unreturned
        cases unreturned
    · simp only [Store.balances,List.all_eq_false,Bool.not_eq_true] at beyond
      obtain ⟨id,member,past⟩ := beyond
      obtain ⟨line,listed,same⟩ := List.mem_filterMap.mp member
      cases from_ : s.soldFrom id with
      | none => simp [from_] at past
      | some position =>
        rw [from_,Option.all_some,decide_eq_false_iff_not,mine line listed id same] at past
        have most := (kept sold sale (sales ▸ there)).nonpos position
        rw [net] at most
        exact past most

theorem decides_program (request : Request) (accounted : Accounted s) : Ends request.program s fun _ => Decides request s := by
  have aside (other : request.selling = false) (always : s.balances request = true) : Ends request.program s fun _ => Decides request s := by
    refine (beside_program other s).mono fun _ t beside => decides_of always ?_
    refine accounted.touch (accounted.filed.beside beside) fun sale found => ?_
    rw [beside.sales,List.getElem?_eq_none le_rfl] at found
    cases found
  cases request with
  | createSale data => exact decides_createSale data accounted
  | openTab branchId => exact decides_openTab branchId accounted
  | addLinesToTab saleId lines => exact decides_addLinesToTab saleId lines accounted
  | completeTab saleId payments soldAt => exact decides_completeTab saleId payments soldAt accounted
  | createSaleReturn data returnedAt => exact decides_createSaleReturn data returnedAt accounted
  | voidSale saleId now => exact decides_voidSale saleId now accounted
  | cancelSale saleId now => exact decides_cancelSale saleId now accounted
  | createPurchaseOrder branchId lines now => exact aside rfl rfl
  | updatePurchaseOrderStatus id target => exact aside rfl rfl
  | createPurchaseReceipt data => exact aside rfl rfl
  | createStockAdjustment branchId openingBalance lines adjustedAt => exact aside rfl rfl
  | createWasteEntry branchId lines wastedAt => exact aside rfl rfl
  | createStockTransfer source dest lines now => exact aside rfl rfl
  | receiveStockTransfer id now => exact aside rfl rfl
  | createProductionOrder branchId bomHeaderId qty => exact aside rfl rfl
  | startProductionOrder id => exact aside rfl rfl
  | cancelProductionOrder id => exact aside rfl rfl
  | completeProductionOrder id qtyProduced now => exact aside rfl rfl

theorem accounted_empty (empty : Empty s) : Accounted s := by
  obtain ⟨-,movements,sales,returns,-⟩ := empty
  refine ⟨⟨?_,?_,?_,?_,?_⟩,fun saleId sale found => ?_⟩
  · simp [movements]
  · simp [movements]
  · simp [returns]
  · simp [returns]
  · simp [Counted,returns]
  · simp [sales] at found

theorem accounted_serve {request : Request} (accounted : Accounted s) (served : serve s request = some t) : Decides request s t := by
  obtain ⟨u,ran⟩ := serve_eq_some served
  exact decides_program request accounted u t ran

end Stock
