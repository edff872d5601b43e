import SasBackend.Library.Outcome
import SasBackend.Library.Slots
import SasBackend.Semantics.DiningTabs

/-! One active tab on a table. The lock on a sale keeps it as its request has read it, and no request makes a sale an active tab
that was none; what is left is what another `open_tab` commits between the count and the insert.
-/
namespace DiningTabs
open RowLocks SasBackend Slots Transition
open Outcome (require_ok)

variable {config : Config} {s t : State} {p q : Nat} {process after : Process} {sales : List Sale} {i : Nat}

/-- The sale is no active tab where it was none. -/
def Calms (sale after : Sale) : Prop := ∀ tableId, after.activeOn tableId = true → sale.activeOn tableId = true

theorem calms_refl (sale : Sale) : Calms sale sale := fun _ active => active

/-- Later sales of a system: every sale there was is there still, and none has become an active tab. -/
structure Fades (sales later : List Sale) : Prop where
  longer : sales.length ≤ later.length
  calms : ∀ (i : Nat) sale after, sales[i]? = some sale → later[i]? = some after → Calms sale after

theorem fades_refl (sales : List Sale) : Fades sales sales := by
  refine ⟨Nat.le_refl _,fun i sale after found there => ?_⟩
  rw [found,Option.some.injEq] at there
  subst there
  exact calms_refl sale

theorem fades_set {sale after : Sale} (found : sales[i]? = some sale) (calms : Calms sale after) :
    Fades sales (sales.set i after) := by
  refine ⟨by simp,fun j other changed there found' => ?_⟩
  rcases set_cases found' with ⟨rfl,rfl⟩ | ⟨-,same⟩
  · rw [found,Option.some.injEq] at there
    subst there
    exact calms
  · rw [there,Option.some.injEq] at same
    subst same
    exact calms_refl other

theorem fades_append (new : Sale) : Fades sales (sales ++ [new]) := by
  refine ⟨by simp,fun j sale after found there => ?_⟩
  have inside := (List.getElem?_eq_some_iff.mp found).1
  rw [List.getElem?_append_left inside,found,Option.some.injEq] at there
  subst there
  exact calms_refl sale

theorem count_set_le {sale after : Sale} (found : sales[i]? = some sale) (calms : Calms sale after) (tableId : Nat) :
    countActiveTabsOnTable (sales.set i after) tableId ≤ countActiveTabsOnTable sales tableId := by
  induction sales generalizing i with
  | nil => cases found
  | cons first rest induction =>
    cases i with
    | zero =>
      cases found
      have fewer := calms tableId
      simp only [countActiveTabsOnTable,List.set_cons_zero,List.countP_cons]
      split <;> simp_all
    | succ i =>
      have fewer := induction (i := i) found
      simp only [countActiveTabsOnTable,List.set_cons_succ,List.countP_cons] at fewer ⊢
      exact Nat.add_le_add_right fewer _

/-- No sale among the first `seen` is an active tab on the table. -/
def Unoccupied (s : State) (tableId seen : Nat) : Prop :=
  seen ≤ s.sales.length ∧ ∀ i sale, i < seen → s.sales[i]? = some sale → sale.activeOn tableId = false

/-- The request has the sale locked as it is. -/
def Reads (s : State) (p saleId : Nat) (sale : Sale) : Prop := Owns s.locks p (.sale saleId) ∧ s.sales[saleId]? = some sale

/-- What a request relies on at each point of its run. -/
def Position (s : State) (p : Nat) : Process → Prop
  | .numbering data _ seen => Unoccupied s data.tableId seen
  | .inserting data _ seen => Unoccupied s data.tableId seen
  | .committingOpen data seen => Unoccupied s data.tableId seen
  | .billing saleId sale _ => Reads s p saleId sale
  | .releasing saleId sale after _ => Reads s p saleId sale ∧ Calms sale after
  | .countingRemaining saleId sale after _ => Reads s p saleId sale ∧ Calms sale after
  | .freeing saleId sale after _ => Reads s p saleId sale ∧ Calms sale after
  | .transitioning saleId sale after _ _ => Reads s p saleId sale ∧ Calms sale after
  | .committingSale saleId sale after _ => Reads s p saleId sale ∧ Calms sale after
  | _ => True

structure Invariant (s : State) : Prop where
  oneTab : OneTab s
  compatible : Compatible s.locks
  position : ∀ p process, s.processes[p]? = some process → Position s p process

/-- What a step of another request leaves to `p`. -/
structure Keeps (p : Nat) (s t : State) : Prop where
  locks : ∀ row, Owns s.locks p row → Owns t.locks p row
  sale : ∀ id sale, Owns s.locks p (.sale id) → s.sales[id]? = some sale → t.sales[id]? = some sale
  fades : Fades s.sales t.sales

theorem Unoccupied.keep {tableId seen : Nat} (free : Unoccupied s tableId seen) (fades : Fades s.sales t.sales) :
    Unoccupied t tableId seen := by
  obtain ⟨bound,inactive⟩ := free
  refine ⟨Nat.le_trans bound fades.longer,fun i after before there => ?_⟩
  obtain ⟨sale,found⟩ : ∃ sale, s.sales[i]? = some sale :=
    ⟨_,List.getElem?_eq_getElem (Nat.lt_of_lt_of_le before bound)⟩
  have none := inactive i sale before found
  by_contra active
  rw [Bool.not_eq_false] at active
  rw [fades.calms i sale after found there tableId active] at none
  cases none

theorem Reads.keep {saleId : Nat} {sale : Sale} (reads : Reads s p saleId sale) (keeps : Keeps p s t) : Reads t p saleId sale := by
  obtain ⟨owns,found⟩ := reads
  exact ⟨keeps.locks _ owns,keeps.sale saleId sale owns found⟩

theorem Position.keep (position : Position s p process) (keeps : Keeps p s t) : Position t p process := by
  cases process with
  | numbering | inserting | committingOpen => exact Unoccupied.keep position keeps.fades
  | billing => exact Reads.keep position keeps
  | releasing | countingRemaining | freeing | transitioning | committingSale => exact ⟨position.1.keep keeps,position.2⟩
  | requested | countingTabs | ended => trivial

theorem Invariant.change (invariant : Invariant s) (moved : t.processes = s.processes.set p after) (one : OneTab t)
    (compatible : Compatible t.locks) (keeps : ∀ q, q ≠ p → Keeps q s t) (position : Position t p after) : Invariant t := by
  refine ⟨one,compatible,fun q process there => ?_⟩
  rw [moved] at there
  rcases set_cases there with ⟨rfl,rfl⟩ | ⟨apart,old⟩
  · exact position
  · exact (invariant.position q process old).keep (keeps q apart)

theorem Invariant.goto (invariant : Invariant s) (position : Position s p after) : Invariant (s.goto p after) := by
  have same (q : Nat) : Keeps q s (s.goto p after) := ⟨fun _ owns => owns,fun _ _ _ found => found,fades_refl _⟩
  have here : Position (s.goto p after) p after := position.keep (same p)
  exact invariant.change rfl invariant.oneTab invariant.compatible (fun q _ => same q) here

theorem Invariant.finish {refusal : Option Refusal} (invariant : Invariant s) : Invariant (s.finish p refusal) := by
  refine invariant.change rfl invariant.oneTab (invariant.compatible.releaseAll p) (fun q apart => ?_) trivial
  exact ⟨fun row owns => (owns_releaseAll apart).mpr owns,fun _ _ _ found => found,fades_refl _⟩

theorem Invariant.lock {row : Row} (invariant : Invariant s) (locked : s.lock p row after = some t)
    (position : ∀ u : State, u.sales = s.sales → Owns u.locks p row → (∀ other, Owns s.locks p other → Owns u.locks p other) →
      Position u p after) : Invariant t := by
  simp only [State.lock,Option.ite_none_right_eq_some,Option.some.injEq] at locked
  obtain ⟨granted,rfl⟩ := locked
  have more (q : Nat) (other : Row) (owns : Owns s.locks q other) : Owns (acquire s.locks p row .update) q other :=
    (owns_acquire granted).mpr (.inl owns)
  have mine : Owns (acquire s.locks p row .update) p row := (owns_acquire granted).mpr (.inr ⟨rfl,rfl,rfl⟩)
  refine invariant.change rfl invariant.oneTab (invariant.compatible.acquire p row .update) (fun q _ => ?_) ?_
  · exact ⟨more q,fun _ _ _ found => found,fades_refl _⟩
  · exact position _ rfl mine (more p)

theorem Invariant.lockSale {saleId : Nat} {continue_ : Sale → Except Refusal Process} (invariant : Invariant s)
    (taken : DiningTabs.lockSale s p saleId continue_ = some t)
    (position : ∀ sale process, continue_ sale = .ok process → ∀ u, Reads u p saleId sale → Position u p process) :
    Invariant t := by
  unfold DiningTabs.lockSale at taken
  split at taken
  · cases taken
    exact invariant.finish
  · next sale found =>
    split at taken
    · next process same =>
      refine invariant.lock taken fun u sales owns _ => position sale process same u ⟨owns,?_⟩
      rw [sales]
      exact found
    · split at taken
      · cases taken
        exact invariant.finish
      · cases taken

variable {saleId : Nat} {sale changed : Sale}

theorem calms_of_active (active : CreditSales.activeTab sale.status = true) (same : changed.tableId = sale.tableId) :
    Calms sale changed := by
  intro tableId there
  simp only [Sale.activeOn,Bool.and_eq_true,decide_eq_true_eq] at there ⊢
  exact ⟨same.symm.trans there.1,active⟩

theorem calms_of_inactive (inactive : CreditSales.activeTab changed.status = false) : Calms sale changed := by
  intro tableId there
  simp [Sale.activeOn,inactive] at there

theorem assertTabMutable_ok {done : Unit} (passed : assertTabMutable sale = .ok done) :
    CreditSales.activeTab sale.status = true := by
  obtain ⟨_,-,rest⟩ := Outcome.bind_ok_iff.mp passed
  exact require_ok.mp rest

theorem addLinesToTab_position {lines : List Refunds.SaleLine} (same : addLinesToTab saleId lines sale = .ok process)
    (reads : Reads s p saleId sale) : Position s p process := by
  obtain ⟨_,passed,rest⟩ := Outcome.bind_ok_iff.mp same
  cases rest
  exact ⟨reads,calms_of_active (assertTabMutable_ok passed) rfl⟩

theorem requestTabBill_position (same : requestTabBill saleId sale = .ok process) (reads : Reads s p saleId sale) :
    Position s p process := by
  obtain ⟨_,-,rest⟩ := Outcome.bind_ok_iff.mp same
  split at rest
  · cases rest
  · cases rest
    exact reads

theorem completeTab_position {payments : List Pricing.Payment} {shift : Nat}
    (same : completeTab saleId payments shift sale = .ok process) (reads : Reads s p saleId sale) : Position s p process := by
  obtain ⟨_,passed,rest⟩ := Outcome.bind_ok_iff.mp same
  have active := assertTabMutable_ok passed
  obtain ⟨_,-,rest⟩ := Outcome.bind_ok_iff.mp rest
  obtain ⟨settlement,-,rest⟩ := Outcome.bind_ok_iff.mp rest
  obtain ⟨_,-,rest⟩ := Outcome.bind_ok_iff.mp rest
  obtain ⟨stored,-,rest⟩ := Outcome.bind_ok_iff.mp rest
  dsimp only at rest
  split at rest
  · cases rest
    exact ⟨reads,calms_of_active active rfl⟩
  · cases rest
    exact ⟨reads,calms_of_active active rfl⟩

theorem cancelSale_position (same : cancelSale config saleId sale = .ok process) (reads : Reads s p saleId sale) :
    Position s p process := by
  obtain ⟨_,-,rest⟩ := Outcome.bind_ok_iff.mp same
  dsimp only at rest
  split at rest
  · cases rest
    exact ⟨reads,calms_of_inactive rfl⟩
  · split at rest
    · cases rest
      exact ⟨reads,calms_of_inactive rfl⟩
    · cases rest
      exact ⟨reads,calms_of_inactive rfl⟩

theorem Invariant.begin_ {request : Request} (invariant : Invariant s) (taken : DiningTabs.begin_ config s p request = some t) :
    Invariant t := by
  cases request with
  | openTab data =>
    simp only [DiningTabs.begin_,openTab] at taken
    split at taken
    · cases taken
      split
      · exact invariant.finish
      · split
        · exact invariant.goto trivial
        · exact invariant.finish
    · cases taken
      exact invariant.finish
  | addLinesToTab saleId lines =>
    simp only [DiningTabs.begin_] at taken
    split at taken
    · exact invariant.lockSale taken fun sale process same u reads => addLinesToTab_position same reads
    · cases taken
      exact invariant.finish
  | requestTabBill saleId =>
    simp only [DiningTabs.begin_] at taken
    split at taken
    · exact invariant.lockSale taken fun sale process same u reads => requestTabBill_position same reads
    · cases taken
      exact invariant.finish
  | completeTab saleId payments shift =>
    simp only [DiningTabs.begin_] at taken
    split at taken
    · exact invariant.lockSale taken fun sale process same u reads => completeTab_position same reads
    · cases taken
      exact invariant.finish
  | cancelSale saleId => exact invariant.lockSale taken fun sale process same u reads => cancelSale_position same reads

theorem Invariant.commitSale {tables : List DiningTable} (invariant : Invariant s) (reads : Reads s p saleId sale)
    (calms : Calms sale changed) :
    Invariant ({ s with sales := s.sales.set saleId changed, tables := tables }.finish p none) := by
  obtain ⟨owns,found⟩ := reads
  have fades := fades_set found calms
  refine invariant.change rfl (fun tableId => ?_) (invariant.compatible.releaseAll p) (fun q apart => ?_) trivial
  · exact Nat.le_trans (count_set_le found calms tableId) (invariant.oneTab tableId)
  · refine ⟨fun row mine => (owns_releaseAll apart).mpr mine,fun id sale mine there => ?_,fades⟩
    have other : saleId ≠ id := by
      rintro rfl
      exact apart (mine.same_tx invariant.compatible owns)
    exact (List.getElem?_set_ne other).trans there

/-- A new tab on a table where the count still finds none. -/
theorem Invariant.commitOpen {tables : List DiningTable} {data : OpenTabRequest} {seen : Nat} (invariant : Invariant s)
    (free : Unoccupied s data.tableId seen) (later : (s.sales.drop seen).all fun sale => !sale.activeOn data.tableId) :
    Invariant ({ s with sales := s.sales ++ [data.sale], tables := tables }.finish p none) := by
  have new (tableId : Nat) : data.sale.activeOn tableId = decide (data.tableId = tableId) := by
    simp [Sale.activeOn,OpenTabRequest.sale,CreditSales.activeTab]
  refine invariant.change rfl (fun tableId => ?_) (invariant.compatible.releaseAll p) (fun q apart => ?_) trivial
  · change countActiveTabsOnTable (s.sales ++ [data.sale]) tableId ≤ 1
    have before := invariant.oneTab tableId
    simp only [countActiveTabsOnTable,List.countP_append,List.countP_singleton,new,decide_eq_true_eq] at before ⊢
    split
    · next here =>
      subst here
      have none : s.sales.countP (Sale.activeOn data.tableId) = 0 := by
        rw [← List.take_append_drop seen s.sales,List.countP_append,Nat.add_eq_zero_iff,List.countP_eq_zero,List.countP_eq_zero]
        constructor
        · intro sale member
          obtain ⟨i,before,found⟩ := List.mem_iff_getElem.mp member
          rw [List.length_take,Nat.lt_min] at before
          rw [List.getElem_take] at found
          simp [free.2 i sale before.1 (List.getElem?_eq_some_iff.mpr ⟨before.2,found⟩)]
        · intro sale member
          simpa using List.all_eq_true.mp later sale member
      rw [none]
    · exact before
  · have fades : Fades s.sales (s.sales ++ [data.sale]) := fades_append data.sale
    refine ⟨fun row mine => (owns_releaseAll apart).mpr mine,fun id sale _ there => ?_,fades⟩
    exact (List.getElem?_append_left (List.getElem?_eq_some_iff.mp there).1).trans there

theorem Invariant.advance (invariant : Invariant s) (found : s.processes[p]? = some process)
    (allowed : undisturbed s (.advance p) = true) (taken : advance config s p process = some t) : Invariant t := by
  have position := invariant.position p process found
  simp only [undisturbed,found] at allowed
  cases process with
  | requested request => exact invariant.begin_ taken
  | countingTabs data table =>
    simp only [DiningTabs.advance] at taken
    split at taken
    · cases taken
      exact invariant.finish
    · next none =>
      cases taken
      refine invariant.goto ⟨Nat.le_refl _,fun i sale _ there => ?_⟩
      have zero : s.sales.countP (Sale.activeOn data.tableId) = 0 := Nat.eq_zero_of_not_pos none
      simpa using List.countP_eq_zero.mp zero sale (List.mem_of_getElem? there)
  | numbering data table seen =>
    refine invariant.lock taken fun u sales _ _ => Unoccupied.keep position ?_
    rw [sales]
    exact fades_refl s.sales
  | inserting data table seen =>
    simp only [DiningTabs.advance] at taken
    split at taken
    · refine invariant.lock taken fun u sales _ _ => Unoccupied.keep position ?_
      rw [sales]
      exact fades_refl s.sales
    · cases taken
      exact invariant.finish
  | committingOpen data seen =>
    cases taken
    exact invariant.commitOpen position allowed
  | billing saleId sale tableId =>
    simp only [DiningTabs.advance] at taken
    split at taken
    · cases taken
      exact invariant.finish
    · split at taken
      · cases taken
        exact invariant.goto ⟨position,calms_refl sale⟩
      · cases taken
        exact invariant.finish
  | releasing saleId sale after tableId =>
    simp only [DiningTabs.advance] at taken
    split at taken
    · cases taken
      exact invariant.finish
    · split at taken
      · cases taken
        exact invariant.goto position
      · cases taken
        exact invariant.goto position
  | countingRemaining saleId sale after tableId =>
    simp only [DiningTabs.advance] at taken
    split at taken
    · cases taken
      exact invariant.goto position
    · cases taken
      exact invariant.goto position
  | freeing saleId sale after tableId =>
    simp only [DiningTabs.advance] at taken
    split at taken
    · cases taken
      exact invariant.finish
    · cases taken
      exact invariant.goto position
  | transitioning saleId sale after tableId status =>
    obtain ⟨⟨owns,there⟩,calms⟩ := position
    refine invariant.lock taken fun u sales _ more => ⟨⟨more _ owns,?_⟩,calms⟩
    rw [sales]
    exact there
  | committingSale saleId sale after moved =>
    cases taken
    exact invariant.commitSale position.1 position.2
  | ended => cases taken

theorem Invariant.step {action : Action} (invariant : Invariant s) (allowed : undisturbed s action = true)
    (taken : next config s action = some t) : Invariant t := by
  cases action with
  | begin request =>
    cases taken
    refine ⟨invariant.oneTab,invariant.compatible,fun q process there => ?_⟩
    rcases append_cases there with ⟨-,rfl⟩ | ⟨-,old⟩
    · trivial
    · have keeps : Keeps q s { s with processes := s.processes ++ [.requested request] } :=
        ⟨fun _ owns => owns,fun _ _ _ found => found,fades_refl _⟩
      exact (invariant.position q process old).keep keeps
  | advance p =>
    obtain ⟨process,found,moved⟩ := Option.bind_eq_some_iff.mp taken
    exact invariant.advance found allowed moved
  | abort p =>
    simp only [next,Option.ite_none_right_eq_some,Option.some.injEq] at taken
    obtain ⟨-,rfl⟩ := taken
    exact invariant.finish

/-- While no tab that was opened on its table since its count is active when an `open_tab` commits, every table has at most one
active tab. -/
theorem one_active_tab (reached : Reachable Initial (OfNext (within undisturbed (next config))) s) : OneTab s := by
  have invariant : Invariant s := by
    refine reached.invariant ?_ fun u action w kept taken => ?_
    · rintro u ⟨one,unlocked,idle⟩
      constructor
      · exact one
      · rw [unlocked]
        exact compatible_nil
      · simp [idle]
    · obtain ⟨allowed,stepped⟩ := within_eq_some.mp taken
      exact kept.step allowed stepped
  exact invariant.oneTab

private def flags : Config := ⟨true,true⟩

private def floor : State := ⟨[⟨0,.available⟩],[],[],[]⟩

private theorem floor_initial : Initial floor := ⟨fun _ => Nat.zero_le _,rfl,rfl⟩

private def opening : Request := .openTab ⟨0,0,none,none⟩

private def run (p steps : Nat) : List Action := .replicate steps (.advance p)

/-- The active tabs on the first table, and its status. -/
private def outcome (s : State) : Nat × Option TableStatus := (countActiveTabsOnTable s.sales 0,s.tables[0]?.map (·.status))

/-- A tab is opened and cancelled, and the next one opened. -/
theorem one_active_tab_again : ∃ s, outcome s = (1,some .occupied) ∧ OneTab s := by
  obtain ⟨s,reached,view⟩ := reachable_of_execute (within undisturbed (next flags)) outcome
    ([.begin opening,.begin (.cancelSale 0),.begin opening] ++ run 0 5 ++ run 1 5 ++ run 2 5) floor_initial
    (b := (1,some .occupied)) (by decide +kernel)
  exact ⟨s,view,one_active_tab reached⟩

/-- Two requests count before either commits. -/
theorem two_active_tabs : ∃ s, Reachable Initial (OfNext (next flags)) s ∧ outcome s = (2,some .occupied) ∧ ¬ OneTab s := by
  obtain ⟨s,reached,view⟩ := reachable_of_execute (next flags) outcome
    ([.begin opening,.begin opening] ++ run 0 2 ++ run 1 2 ++ run 0 3 ++ run 1 3) floor_initial
    (b := (2,some .occupied)) (by decide +kernel)
  refine ⟨s,reached,view,fun one => ?_⟩
  have atMost := one 0
  simp only [outcome,Prod.mk.injEq] at view
  rw [view.1] at atMost
  exact absurd atMost (by decide)

end DiningTabs
