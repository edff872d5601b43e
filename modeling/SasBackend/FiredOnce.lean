import SasBackend.KotLines
import SasBackend.Semantics.FiredOnce

/-! A sale line is on one live ticket at most, unless a stale update brings a cancelled ticket back.
-/
namespace KitchenTickets
open RowLocks Transition
open Outcome (refuseIf_ok)

variable {s t : State} {u v : Nat} {x y : Transaction} {loaded order row changed : KotOrder} {request : KotRequest} {now : Int}
  {target : KotStatus}

theorem statuses_getElem? (order : KotOrder) (k : Nat) : order.statuses[k]? = order.lines[k]?.map (·.status) :=
  List.getElem?_map

/-- An update leaves cancelled lines as they are, and cancels the header only with all lines. -/
structure Settles (loaded order : KotOrder) : Prop where
  size : order.statuses.length = loaded.statuses.length
  stays : ∀ k : Nat, loaded.statuses[k]? = some .cancelled → order.statuses[k]? = some .cancelled
  closes : order.status = .cancelled → ∀ status ∈ order.statuses, status = .cancelled

theorem apply_settles (done : request.apply loaded now = .ok order) : Settles loaded order := by
  unfold KotRequest.apply at done
  split at done
  · obtain ⟨status,statuses⟩ := header_pushed done
    constructor
    · simp [statuses]
    · intro k dead
      rw [statuses,List.getElem?_map,dead]
      simp [pushed]
    · intro cancelled status' member
      rw [statuses,← status,cancelled] at member
      obtain ⟨_,_,rfl⟩ := List.mem_map.mp member
      simp [pushed]
  · next index _ =>
    obtain ⟨line,there,valid,lines,derived⟩ := line_set done
    constructor
    · simp [KotOrder.statuses,lines]
    · intro k dead
      rw [statuses_getElem?,lines,List.getElem?_set]
      split
      · next same =>
        subst same
        rw [statuses_getElem?,there,Option.map_some,Option.some.injEq] at dead
        have kept : request.newStatus = .cancelled := by
          simpa [isValidKotStatusTransition,kotLineStatusTransitions,dead,eq_comm] using valid
        simp [(List.getElem?_eq_some_iff.mp there).1,kept]
      · rwa [statuses_getElem?] at dead
    · intro cancelled
      exact derive_eq_cancelled.mp (derived.symm.trans cancelled)

theorem apply_line {index k : Nat} (named : request.line = some index) (done : request.apply loaded now = .ok order)
    (different : loaded.statuses[k]? ≠ order.statuses[k]?) : k = index := by
  simp only [KotRequest.apply,named] at done
  obtain ⟨line,there,_,lines,_⟩ := line_set done
  by_contra apart
  rw [statuses_getElem?,statuses_getElem?,lines,List.getElem?_set_ne (Ne.symm apart)] at different
  exact different rfl

/-- What an update knows of the ticket as it is now: lines it has read as cancelled still are, and those it changes are as read. -/
structure Abreast (row loaded order : KotOrder) : Prop where
  settles : Settles loaded order
  size : loaded.statuses.length = row.statuses.length
  cancelled : ∀ k : Nat, loaded.statuses[k]? = some .cancelled → row.statuses[k]? = some .cancelled
  current : ∀ k : Nat, loaded.statuses[k]? ≠ order.statuses[k]? → row.statuses[k]? = loaded.statuses[k]?

/-- How a ticket changes at a commit. -/
structure Follows (row changed : KotOrder) : Prop where
  businessId : changed.businessId = row.businessId
  saleId : changed.saleId = row.saleId
  deletedAt : changed.deletedAt = row.deletedAt
  saleLines : changed.lines.map (·.saleLineId) = row.lines.map (·.saleLineId)
  cancelled : ∀ k : Nat, row.statuses[k]? = some .cancelled → changed.statuses[k]? = some .cancelled

theorem Follows.refl (row : KotOrder) : Follows row row := ⟨rfl,rfl,rfl,rfl,fun _ dead => dead⟩

theorem Follows.size (follows : Follows row changed) : changed.statuses.length = row.statuses.length := by
  have lengths := congrArg List.length follows.saleLines
  simpa [KotOrder.statuses] using lengths

theorem Follows.shares {other : KotOrder} (follows : Follows row changed) : changed.Shares other ↔ row.Shares other := by
  unfold KotOrder.Shares
  rw [follows.saleId,follows.saleLines]

theorem shares_comm {first second : KotOrder} : first.Shares second ↔ second.Shares first := by
  unfold KotOrder.Shares
  constructor
  · rintro ⟨sale,id,one,two⟩
    exact ⟨sale.symm,id,two,one⟩
  · rintro ⟨sale,id,one,two⟩
    exact ⟨sale.symm,id,two,one⟩

theorem all_cancelled_iff : (∀ status ∈ order.statuses, status = .cancelled) ↔
    ∀ k < order.statuses.length, order.statuses[k]? = some .cancelled := by
  constructor
  · intro all k inside
    rw [List.getElem?_eq_getElem inside,all _ (List.getElem_mem inside)]
  · intro each status member
    obtain ⟨k,inside,rfl⟩ := List.mem_iff_getElem.mp member
    simpa [List.getElem?_eq_getElem inside] using each k inside

theorem Follows.all_cancelled (follows : Follows row changed) (all : ∀ status ∈ row.statuses, status = .cancelled) :
    ∀ status ∈ changed.statuses, status = .cancelled := by
  rw [all_cancelled_iff] at all ⊢
  intro k inside
  exact follows.cancelled k (all k (follows.size ▸ inside))

theorem writeLine_status (index : Nat) (line : KotOrderLine) : (writeLine loaded order index line).status =
    match loaded.statuses[index]?,order.statuses[index]? with
    | some old,some new => column old new line.status
    | _,_ => line.status := by
  rw [statuses_getElem?,statuses_getElem?,writeLine]
  cases loaded.lines[index]? <;> cases order.lines[index]? <;> rfl

theorem writeLine_saleLineId (index : Nat) (line : KotOrderLine) :
    (writeLine loaded order index line).saleLineId = line.saleLineId := by
  unfold writeLine
  split <;> rfl

theorem write_statuses (k : Nat) : (write loaded order row).statuses[k]? = row.statuses[k]?.map fun stored =>
    match loaded.statuses[k]?,order.statuses[k]? with
    | some old,some new => column old new stored
    | _,_ => stored := by
  rw [statuses_getElem? (write loaded order row),statuses_getElem? row,write,List.getElem?_mapIdx,Option.map_map,Option.map_map]
  apply congrArg (fun f => Option.map f row.lines[k]?)
  funext line
  exact writeLine_status k line

theorem write_same {k : Nat} (same : loaded.statuses[k]? = order.statuses[k]?) :
    (write loaded order row).statuses[k]? = row.statuses[k]? := by
  rw [write_statuses,same]
  cases order.statuses[k]? with
  | none => simp
  | some new => simp [column]

theorem write_changed {k : Nat} (abreast : Abreast row loaded order) (different : loaded.statuses[k]? ≠ order.statuses[k]?) :
    (write loaded order row).statuses[k]? = order.statuses[k]? := by
  rw [write_statuses,abreast.current k different]
  cases old : loaded.statuses[k]? with
  | none =>
    have outside : order.statuses.length ≤ k := abreast.settles.size ▸ List.getElem?_eq_none_iff.mp old
    rw [List.getElem?_eq_none outside,Option.map_none]
  | some before =>
    have inside : k < order.statuses.length := abreast.settles.size ▸ (List.getElem?_eq_some_iff.mp old).1
    rw [List.getElem?_eq_getElem inside,Option.map_some]
    simp [column_loaded]

theorem Abreast.follows (abreast : Abreast row loaded order) : Follows row (write loaded order row) := by
  refine ⟨rfl,rfl,rfl,?_,fun k dead => ?_⟩
  · apply List.ext_getElem?
    intro k
    simp only [write,List.getElem?_map,List.getElem?_mapIdx,Option.map_map]
    apply congrArg (fun f => Option.map f row.lines[k]?)
    funext line
    exact writeLine_saleLineId k line
  · by_cases same : loaded.statuses[k]? = order.statuses[k]?
    · rw [write_same same,dead]
    · rw [write_changed abreast same]
      exact abreast.settles.stays k ((abreast.current k same).symm.trans dead)

theorem Abreast.closes (abreast : Abreast row loaded order) (written : order.status = .cancelled) :
    ∀ status ∈ (write loaded order row).statuses, status = .cancelled := by
  have all := all_cancelled_iff.mp (abreast.settles.closes written)
  rw [all_cancelled_iff,abreast.follows.size,← abreast.size,← abreast.settles.size]
  intro k inside
  by_cases same : loaded.statuses[k]? = order.statuses[k]?
  · rw [write_same same]
    exact abreast.cancelled k (same.trans (all k inside))
  · rw [write_changed abreast same]
    exact all k inside

/-- The rows that keep the ticket's line for the update. -/
def Covers (s : State) (u : Nat) (request : KotRequest) : Prop :=
  match request.line with
  | none => Owns s.locks u (.order request.orderId)
  | some index => Owns s.locks u (.line request.orderId index)

/-- The update has computed the ticket, and holds what it will change of its lines. -/
structure Ready (s : State) (u : Nat) (request : KotRequest) (loaded order : KotOrder) : Prop where
  abreast : ∃ row, s.orders[request.orderId]? = some row ∧ Abreast row loaded order
  covered : ∀ k : Nat, loaded.statuses[k]? ≠ order.statuses[k]? →
    Owns s.locks u (.order request.orderId) ∨ Owns s.locks u (.line request.orderId k)

/-- The ticket is of the sale, and its lines are on no ticket that is not spent. -/
structure Firing (s : State) (request : FireRequest) (ticket : KotOrder) : Prop where
  businessId : ticket.businessId = request.businessId
  saleId : ticket.saleId = request.saleId
  filled : ticket.lines ≠ []
  alive : ticket.deletedAt = none
  pending : ticket.status = .pending
  apart : ∀ (id : Nat) (row : KotOrder), s.orders[id]? = some row → row.Shares ticket → row.Spent

def Standing (s : State) (u : Nat) : Transaction → Prop
  | .updating request todo loaded order => Covers s u request ∧ (match todo with
    | .readOrder :: rest => rest = [.readLines,.updateOrder,.updateLines]
    | .readLines :: rest => rest = [.updateOrder,.updateLines]
    | .updateOrder :: rest => rest = [.updateLines] ∧ Ready s u request loaded order
    | .updateLines :: rest => rest = [] ∧ Ready s u request loaded order ∧ Owns s.locks u (.order request.orderId)
    | [] => Ready s u request loaded order ∧ Owns s.locks u (.order request.orderId) ∧
        ∀ row ∈ changedLines request.orderId loaded order, Owns s.locks u row)
  | .firing request sale ticket => Owns s.locks u (.sale request.saleId) ∧ s.sales[request.saleId]? = some sale ∧
      activeTabStatuses.contains sale.status = true ∧ sale.businessId = request.businessId ∧
      ∀ order ∈ ticket, Firing s request order
  | .cancelling request found written => Owns s.locks u (.sale request.saleId) ∧
      (∃ sale, s.sales[request.saleId]? = some sale) ∧
      (∀ id ∈ found.getD [] ++ written, ∃ order, s.orders[id]? = some order ∧ order.saleId = request.saleId) ∧
      ∀ id ∈ written, Owns s.locks u (.order id)

/-- Of two tickets that share a line one is spent, and a cancelled ticket is spent unless its sale is cancelled. -/
structure Tables (sales : List Sale) (orders : List KotOrder) : Prop where
  once : ∀ (i j : Nat) (first second : KotOrder), i ≠ j → orders[i]? = some first → orders[j]? = some second →
    first.Shares second → first.Spent ∨ second.Spent
  dead : ∀ order ∈ orders, order.status = .cancelled → (∀ status ∈ order.statuses, status = .cancelled) ∨
    ∃ sale, sales[order.saleId]? = some sale ∧ sale.status = .cancelled
  filled : ∀ order ∈ orders, order.lines ≠ []
  alive : ∀ order ∈ orders, order.deletedAt = none
  owned : ∀ order ∈ orders, ∃ sale, sales[order.saleId]? = some sale ∧ sale.businessId = order.businessId

structure Apart (s : State) : Prop extends Tables s.sales s.orders where
  compatible : Compatible s.locks
  standing : ∀ u x, s.transactions u = some x → Standing s u x

/-- What a transaction leaves to the others: rows that they own stay, and tickets that share lines with one that is fired stay
spent. -/
structure Leaves (s t : State) (v : Nat) : Prop where
  owns : ∀ row, Owns s.locks v row → Owns t.locks v row
  sales : ∀ id, Owns s.locks v (.sale id) → t.sales[id]? = s.sales[id]?
  orders : ∀ (id : Nat) (row : KotOrder), s.orders[id]? = some row → ∃ changed, t.orders[id]? = some changed ∧ Follows row changed ∧
    (Owns s.locks v (.order id) → changed = row) ∧
      ∀ k, Owns s.locks v (.line id k) → changed.statuses[k]? = row.statuses[k]?
  spent : ∀ request sale ticket, s.transactions v = some (.firing request sale (some ticket)) → Owns s.locks v (.sale request.saleId) →
    ticket.saleId = request.saleId →
    ∀ (id : Nat) (row : KotOrder), t.orders[id]? = some row → row.Shares ticket →
      ∃ old, s.orders[id]? = some old ∧ old.Shares ticket ∧ (old.Spent → row.Spent)

theorem Covers.leave {request : KotRequest} (covers : Covers s v request) (leaves : Leaves s t v) : Covers t v request := by
  unfold Covers at covers ⊢
  split at covers <;> exact leaves.owns _ covers

theorem Ready.leave {request : KotRequest} (ready : Ready s v request loaded order) (leaves : Leaves s t v) :
    Ready t v request loaded order := by
  obtain ⟨⟨row,there,abreast⟩,covered⟩ := ready
  obtain ⟨changed,now,follows,mine,own⟩ := leaves.orders _ row there
  refine ⟨⟨changed,now,abreast.settles,?_,fun k dead => ?_,fun k different => ?_⟩,fun k different => ?_⟩
  · rw [follows.size,abreast.size]
  · exact follows.cancelled k (abreast.cancelled k dead)
  · rcases covered k different with whole | line
    · rw [mine whole,abreast.current k different]
    · rw [own k line,abreast.current k different]
  · exact (covered k different).imp (leaves.owns _) (leaves.owns _)

theorem Standing.leave (standing : Standing s v x) (running : s.transactions v = some x) (leaves : Leaves s t v) :
    Standing t v x := by
  cases x with
  | updating request todo loaded order =>
    obtain ⟨covers,phase⟩ := standing
    refine ⟨covers.leave leaves,?_⟩
    match todo with
    | .readOrder :: _ => exact phase
    | .readLines :: _ => exact phase
    | .updateOrder :: _ => exact ⟨phase.1,phase.2.leave leaves⟩
    | .updateLines :: _ => exact ⟨phase.1,phase.2.1.leave leaves,leaves.owns _ phase.2.2⟩
    | [] => exact ⟨phase.1.leave leaves,leaves.owns _ phase.2.1,fun row member => leaves.owns _ (phase.2.2 row member)⟩
  | firing request sale ticket =>
    obtain ⟨locked,there,active,business,each⟩ := standing
    refine ⟨leaves.owns _ locked,(leaves.sales _ locked).trans there,active,business,fun order member => ?_⟩
    cases member
    have firing := each _ rfl
    refine { firing with apart := fun id row now shares => ?_ }
    obtain ⟨old,before,shared,kept⟩ := leaves.spent request sale _ running locked firing.saleId id row now shares
    exact kept (firing.apart id old before shared)
  | cancelling request found written =>
    obtain ⟨locked,sale,named,owned⟩ := standing
    refine ⟨leaves.owns _ locked,(leaves.sales _ locked) ▸ sale,fun id member => ?_,fun id member => leaves.owns _ (owned id member)⟩
    obtain ⟨order,there,same⟩ := named id member
    obtain ⟨changed,now,follows,_,_⟩ := leaves.orders id order there
    exact ⟨changed,now,follows.saleId.trans same⟩

theorem Apart.put {rows : List Row} {locks : List (Held Row)} {mode : Mode} (holds : Apart s)
    (locked : acquireAll s.locks u rows mode = some locks)
    (stands : Standing ⟨s.sales,s.orders,locks,Function.update s.transactions u (some x)⟩ u x) :
    Apart ⟨s.sales,s.orders,locks,Function.update s.transactions u (some x)⟩ := by
  refine ⟨holds.toTables,holds.compatible.acquireAll locked,fun v y found => ?_⟩
  by_cases mine : v = u
  · subst mine
    simp only [Function.update_self,Option.some.injEq] at found
    exact found ▸ stands
  · simp only [Function.update_of_ne mine] at found
    refine (holds.standing v y found).leave found ⟨fun row held => ?_,fun _ _ => rfl,fun id row there => ?_,?_⟩
    · exact (owns_acquireAll locked).mpr (.inl held)
    · exact ⟨row,there,.refl row,fun _ => rfl,fun _ _ => rfl⟩
    · exact fun _ _ _ _ _ _ id row there shares => ⟨row,there,shares,fun spent => spent⟩

theorem getTabSaleForUpdate_ok {fired : FireRequest} {sale : Sale} (found : getTabSaleForUpdate s fired = .ok sale) :
    s.sales[fired.saleId]? = some sale ∧ sale.businessId = fired.businessId := by
  obtain ⟨read,there,rest⟩ := Outcome.bind_ok_iff.mp found
  obtain ⟨_,_,result⟩ := Outcome.bind_ok_iff.mp rest
  cases result
  obtain ⟨placed,met⟩ := Option.filter_eq_some_iff.mp (getOr_ok.mp there)
  simp only [Bool.and_eq_true,decide_eq_true_eq] at met
  exact ⟨placed,met.1⟩

theorem getSaleForCancel_ok {cancelled : CancelRequest} {sale : Sale} (found : getSaleForCancel s cancelled = .ok sale) :
    s.sales[cancelled.saleId]? = some sale := by
  obtain ⟨read,there,rest⟩ := Outcome.bind_ok_iff.mp found
  obtain ⟨_,_,result⟩ := Outcome.bind_ok_iff.mp rest
  cases result
  exact (Option.filter_eq_some_iff.mp (getOr_ok.mp there)).1

theorem start_standing {request : Request} {row : Row} {locks : List (Held Row)} {transactions : Nat → Option Transaction}
    (started : start s request = .ok (row,x)) (locked : acquireAll s.locks u [row] .update = some locks) :
    Standing ⟨s.sales,s.orders,locks,transactions⟩ u x := by
  have own : Owns locks u row := (owns_acquireAll locked).mpr (.inr ⟨rfl,List.mem_singleton_self row,rfl⟩)
  cases request with
  | kot request =>
    obtain ⟨order,_,rest⟩ := Outcome.bind_ok_iff.mp started
    cases named : request.line with
    | none =>
      rw [named] at rest
      obtain ⟨_,_,result⟩ := Outcome.bind_ok_iff.mp rest
      cases result
      exact ⟨by simpa [Covers,named] using own,rfl⟩
    | some index =>
      rw [named] at rest
      obtain ⟨_,_,result⟩ := Outcome.bind_ok_iff.mp rest
      cases result
      exact ⟨by simpa [Covers,named] using own,rfl⟩
  | fire request =>
    obtain ⟨sale,found,rest⟩ := Outcome.bind_ok_iff.mp started
    obtain ⟨_,mutable,result⟩ := Outcome.bind_ok_iff.mp rest
    cases result
    obtain ⟨there,business⟩ := getTabSaleForUpdate_ok found
    exact ⟨own,there,by simpa using refuseIf_ok.mp mutable,business,nofun⟩
  | cancelSale request =>
    obtain ⟨sale,found,result⟩ := Outcome.bind_ok_iff.mp started
    cases result
    refine ⟨own,⟨sale,getSaleForCancel_ok found⟩,fun id member => ?_,by simp⟩
    split at member <;> simp at member

/-- The lines of a new ticket are on no ticket that is not spent. -/
theorem fireTabToKitchen_firing {fired : FireRequest} {sale : Sale} {ticket : KotOrder} (holds : Apart s)
    (there : s.sales[fired.saleId]? = some sale) (active : activeTabStatuses.contains sale.status = true)
    (business : sale.businessId = fired.businessId) (done : fireTabToKitchen s.orders sale fired = .ok ticket) :
    Firing s fired ticket := by
  obtain ⟨_,_,rest⟩ := Outcome.bind_ok_iff.mp done
  obtain ⟨_,some_line,result⟩ := Outcome.bind_ok_iff.mp rest
  have chosen := List.isEmpty_eq_false_iff.mp (refuseIf_ok.mp some_line)
  cases result
  refine ⟨rfl,rfl,by simpa using chosen,rfl,rfl,fun id row placed shares => ?_⟩
  obtain ⟨same,line,old,new⟩ := shares
  have member := List.mem_of_getElem? placed
  have fresh : line ∉ getFiredSaleLineIds s.orders fired.businessId fired.saleId := by
    simp only [List.map_map,List.mem_map,List.mem_filter,Function.comp_apply,Option.some.injEq] at new
    obtain ⟨saleLine,⟨⟨_,unfired⟩,_⟩,rfl⟩ := new
    simpa using (Bool.and_eq_true_iff.mp unfired).2
  have cancelled : row.status = .cancelled := by
    by_contra live
    apply fresh
    obtain ⟨owner,found,owns⟩ := holds.owned row member
    have mine : row.saleId = fired.saleId := same
    rw [mine,there,Option.some.injEq] at found
    have met : row.businessId = fired.businessId := owns.symm.trans (found ▸ business)
    obtain ⟨kept,inside,named⟩ := List.mem_map.mp old
    refine List.mem_flatMap.mpr ⟨row,List.mem_filter.mpr ⟨member,?_⟩,List.mem_filterMap.mpr ⟨kept,inside,named⟩⟩
    simp [met,mine,holds.alive row member,live]
  refine ⟨cancelled,(holds.dead row member cancelled).resolve_right ?_⟩
  rintro ⟨owner,found,gone⟩
  have mine : row.saleId = fired.saleId := same
  rw [mine,there,Option.some.injEq] at found
  rw [found,gone] at active
  cases active

theorem mem_changedLines {id k : Nat} : Row.line id k ∈ changedLines id loaded order ↔
    k < loaded.lines.length ∧ loaded.statuses[k]? ≠ order.statuses[k]? := by
  simp [changedLines,statuses_getElem?]

theorem perform_standing {rows : List Row} {locks : List (Held Row)} {transactions : Nat → Option Transaction} (holds : Apart s)
    (stands : Standing s u x) (done : perform s.orders now x = .ok (rows,y))
    (locked : acquireAll s.locks u rows .noKeyUpdate = some locks) : Standing ⟨s.sales,s.orders,locks,transactions⟩ u y := by
  have owns (row : Row) : Owns locks u row ↔ Owns s.locks u row ∨ row ∈ rows := by
    rw [owns_acquireAll locked]
    simp [Mode.exclusive]
  have keeps {row : Row} (held : Owns s.locks u row) : Owns locks u row := (owns row).mpr (.inl held)
  have covers {request : KotRequest} (held : Covers s u request) : Covers ⟨s.sales,s.orders,locks,transactions⟩ u request := by
    unfold Covers at held ⊢
    split at held <;> exact keeps held
  have ready {request : KotRequest} {loaded order : KotOrder} (held : Ready s u request loaded order) :
      Ready ⟨s.sales,s.orders,locks,transactions⟩ u request loaded order :=
    ⟨held.abreast,fun k different => (held.covered k different).imp keeps keeps⟩
  unfold perform at done
  split at done
  · next request statement todo loaded order =>
    obtain ⟨row,there,rest⟩ := Outcome.bind_ok_iff.mp done
    obtain ⟨held,phase⟩ := stands
    cases statement with
    | readOrder =>
      cases rest
      simp only at phase
      subst phase
      exact ⟨covers held,rfl⟩
    | readLines =>
      obtain ⟨changed,applied,result⟩ := Outcome.bind_ok_iff.mp rest
      cases result
      simp only at phase
      subst phase
      have same : ({ loaded with lines := row.lines } : KotOrder).statuses = row.statuses := rfl
      refine ⟨covers held,rfl,⟨row,getOr_ok.mp there,apply_settles applied,?_,?_,?_⟩,fun k different => ?_⟩
      · rw [same]
      · exact fun k dead => same ▸ dead
      · exact fun k _ => by rw [same]
      · have mine := covers held
        cases named : request.line with
        | none => exact .inl (by simpa [Covers,named] using mine)
        | some index =>
          have own := apply_line named applied different
          exact .inr (by simpa [Covers,named,own] using mine)
    | updateOrder =>
      cases rest
      obtain ⟨rfl,known⟩ := phase
      exact ⟨covers held,rfl,ready known,(owns _).mpr (.inr (by simp))⟩
    | updateLines =>
      cases rest
      obtain ⟨rfl,known,whole⟩ := phase
      exact ⟨covers held,ready known,keeps whole,fun row member => (owns row).mpr (.inr member)⟩
  · next request sale =>
    obtain ⟨ticket,fired,result⟩ := Outcome.bind_ok_iff.mp done
    cases result
    obtain ⟨own,there,active,business,_⟩ := stands
    refine ⟨keeps own,there,active,business,fun order member => ?_⟩
    cases member
    have firing := fireTabToKitchen_firing holds there active business fired
    exact ⟨firing.businessId,firing.saleId,firing.filled,firing.alive,firing.pending,firing.apart⟩
  · next request written =>
    cases done
    obtain ⟨own,sale,named,owned⟩ := stands
    refine ⟨keeps own,sale,fun id member => ?_,fun id member => keeps (owned id member)⟩
    rcases List.mem_append.mp member with found | old
    · have listed := (List.mem_filter.mp found).2
      obtain ⟨order,placed,met⟩ := (Option.any_eq_true _ _).mp listed
      simp only [Bool.and_eq_true,decide_eq_true_eq] at met
      exact ⟨order,placed,met.1.1.2⟩
    · exact named id (List.mem_append_right _ old)
  · next request id rest written =>
    cases done
    obtain ⟨own,sale,named,owned⟩ := stands
    refine ⟨keeps own,sale,fun other member => named other ?_,fun other member => ?_⟩
    · simp only [Option.getD_some,List.mem_append,List.mem_cons] at member ⊢
      tauto
    · rcases List.mem_cons.mp member with rfl | old
      · exact (owns _).mpr (.inr (by simp))
      · exact keeps (owned other old)
  · cases done

theorem Apart.finish {sales : List Sale} {orders : List KotOrder} (holds : Apart s) (tables : Tables sales orders)
    (leaves : ∀ v, v ≠ u → Leaves s ⟨sales,orders,releaseAll s.locks u,Function.update s.transactions u none⟩ v) :
    Apart ⟨sales,orders,releaseAll s.locks u,Function.update s.transactions u none⟩ := by
  refine ⟨tables,holds.compatible.releaseAll u,fun v y found => ?_⟩
  by_cases mine : v = u
  · subst mine
    simp at found
  · simp only [Function.update_of_ne mine] at found
    exact (holds.standing v y found).leave found (leaves v mine)

theorem Apart.abort (holds : Apart s) : Apart ⟨s.sales,s.orders,releaseAll s.locks u,Function.update s.transactions u none⟩ := by
  refine holds.finish holds.toTables fun v mine => ⟨fun row held => (owns_releaseAll mine).mpr held,fun _ _ => rfl,?_,?_⟩
  · exact fun id row there => ⟨row,there,.refl row,fun _ => rfl,fun _ _ => rfl⟩
  · exact fun _ _ _ _ _ _ id row there shares => ⟨row,there,shares,fun spent => spent⟩

/-- What a commit makes of a ticket that is there: it is spent still, or it is unclaimed. -/
structure Turns (s : State) (id : Nat) (row changed : KotOrder) : Prop where
  follows : Follows row changed
  spent : row.Spent → changed.Spent ∨ Unclaimed s id row
  dead : changed.status = .cancelled → row.status = .cancelled ∨ ∀ status ∈ changed.statuses, status = .cancelled

theorem Turns.refl (id : Nat) (row : KotOrder) : Turns s id row row := ⟨.refl row,.inl,.inl⟩

theorem Follows.lines_ne (follows : Follows row changed) (filled : row.lines ≠ []) : changed.lines ≠ [] := by
  intro empty
  have lengths := congrArg List.length follows.saleLines
  rw [empty] at lengths
  simp only [List.map_nil,List.length_nil,List.length_map] at lengths
  exact filled (List.length_eq_zero_iff.mp lengths.symm)

/-- Tickets that turn, one at a time, keep the tables in order. -/
theorem Tables.turn {orders : List KotOrder} (tables : Tables s.sales s.orders)
    (turns : ∀ (id : Nat) (changed : KotOrder), orders[id]? = some changed →
      ∃ row, s.orders[id]? = some row ∧ Turns s id row changed)
    (single : ∀ (i j : Nat) (first second : KotOrder), i ≠ j → orders[i]? = some first → orders[j]? = some second →
      s.orders[i]? = some first ∨ s.orders[j]? = some second) : Tables s.sales orders := by
  have each {changed : KotOrder} (member : changed ∈ orders) : ∃ id row, s.orders[id]? = some row ∧ Turns s id row changed := by
    obtain ⟨id,there⟩ := List.mem_iff_getElem?.mp member
    exact ⟨id,turns id changed there⟩
  constructor
  · intro i j first second different one two shares
    obtain ⟨old,before,turned⟩ := turns i first one
    obtain ⟨other,beside,moved⟩ := turns j second two
    have shared : old.Shares other :=
      shares_comm.mp (moved.follows.shares.mp (shares_comm.mp (turned.follows.shares.mp shares)))
    rcases tables.once i j old other different before beside shared with spent | spent
    · rcases turned.spent spent with kept | unclaimed
      · exact .inl kept
      · have gone := unclaimed.1 j other (Ne.symm different) beside (shares_comm.mp shared)
        rcases single i j first second different one two with same | same
        · cases before.symm.trans same
          exact .inl spent
        · cases beside.symm.trans same
          exact .inr gone
    · rcases moved.spent spent with kept | unclaimed
      · exact .inr kept
      · have gone := unclaimed.1 i old different before shared
        rcases single i j first second different one two with same | same
        · cases before.symm.trans same
          exact .inl gone
        · cases beside.symm.trans same
          exact .inr spent
  · intro order member cancelled
    obtain ⟨id,row,there,turned⟩ := each member
    rcases turned.dead cancelled with old | all
    · rcases tables.dead row (List.mem_of_getElem? there) old with all | gone
      · exact .inl (turned.follows.all_cancelled all)
      · exact .inr (turned.follows.saleId ▸ gone)
    · exact .inl all
  · intro order member
    obtain ⟨id,row,there,turned⟩ := each member
    exact turned.follows.lines_ne (tables.filled row (List.mem_of_getElem? there))
  · intro order member
    obtain ⟨id,row,there,turned⟩ := each member
    exact turned.follows.deletedAt.trans (tables.alive row (List.mem_of_getElem? there))
  · intro order member
    obtain ⟨id,row,there,turned⟩ := each member
    rw [turned.follows.saleId,turned.follows.businessId]
    exact tables.owned row (List.mem_of_getElem? there)

theorem write_turns (guarded : Guarded s (.commit u))
    (running : s.transactions u = some (.updating request [] loaded order)) (there : s.orders[request.orderId]? = some row) (abreast : Abreast row loaded order) :
    Turns s request.orderId row (write loaded order row) := by
  refine ⟨abreast.follows,fun spent => ?_,fun cancelled => ?_⟩
  · by_cases same : order.status = loaded.status
    · left
      refine ⟨?_,abreast.follows.all_cancelled spent.2⟩
      simp [write,column,same,spent.1]
    · by_cases written : order.status = .cancelled
      · left
        refine ⟨?_,abreast.closes written⟩
        simp [write,column,written,spent.1]
      · exact .inr (guarded request loaded order row running there spent same written)
  · by_cases same : order.status = loaded.status
    · left
      simpa [write,column,same] using cancelled
    · right
      apply abreast.closes
      simpa [write,column,same] using cancelled

theorem commit_update (holds : Apart s) (guarded : Guarded s (.commit u))
    (running : s.transactions u = some (.updating request [] loaded order)) :
    Apart ⟨s.sales,s.orders.modify request.orderId (write loaded order),releaseAll s.locks u,
      Function.update s.transactions u none⟩ := by
  obtain ⟨_,⟨⟨row,there,abreast⟩,_⟩,whole,changes⟩ := holds.standing u _ running
  have turned := write_turns guarded running there abreast
  have found (id : Nat) : (s.orders.modify request.orderId (write loaded order))[id]? =
      if request.orderId = id then some (write loaded order row) else s.orders[id]? := by
    rw [List.getElem?_modify]
    split
    · next same =>
      subst same
      simp [there]
    · simp
  have turns (id : Nat) (changed : KotOrder) (now : (s.orders.modify request.orderId (write loaded order))[id]? = some changed) :
      ∃ row, s.orders[id]? = some row ∧ Turns s id row changed := by
    rw [found] at now
    split at now
    · next same =>
      subst same
      cases now
      exact ⟨row,there,turned⟩
    · exact ⟨changed,now,.refl id changed⟩
  refine holds.finish (holds.toTables.turn turns fun i j first second different one two => ?_) fun v mine => ?_
  · rw [found] at one two
    by_cases here : request.orderId = i
    · rw [if_neg (here ▸ different)] at two
      exact .inr two
    · rw [if_neg here] at one
      exact .inl one
  · refine ⟨fun row held => (owns_releaseAll mine).mpr held,fun _ _ => rfl,fun id old before => ?_,?_⟩
    · rw [found]
      split
      · next same =>
        subst same
        cases there.symm.trans before
        refine ⟨_,rfl,abreast.follows,fun held => absurd (held.same_tx holds.compatible whole) mine,fun k held => ?_⟩
        apply write_same
        by_contra different
        have inside : k < loaded.lines.length := by
          by_contra outside
          have past : loaded.statuses.length ≤ k := by simpa [KotOrder.statuses] using outside
          apply different
          rw [List.getElem?_eq_none past,List.getElem?_eq_none (abreast.settles.size ▸ past)]
        exact mine (held.same_tx holds.compatible (changes _ (mem_changedLines.mpr ⟨inside,different⟩)))
      · exact ⟨old,before,.refl old,fun _ => rfl,fun _ _ => rfl⟩
    · intro fired sale ticket open_ _ _ id changed now shares
      obtain ⟨old,before,moved⟩ := turns id changed now
      have shared := moved.follows.shares.mp shares
      refine ⟨old,before,shared,fun spent => (moved.spent spent).resolve_right fun unclaimed => ?_⟩
      exact unclaimed.2 v fired sale ticket open_ (shares_comm.mp shared)

theorem commit_fire {fired : FireRequest} {sale : Sale} {ticket : KotOrder} (holds : Apart s)
    (running : s.transactions u = some (.firing fired sale (some ticket))) :
    Apart ⟨s.sales,s.orders ++ [ticket],releaseAll s.locks u,Function.update s.transactions u none⟩ := by
  obtain ⟨own,there,_,business,each⟩ := holds.standing u _ running
  have firing := each ticket rfl
  have cases_of {id : Nat} {row : KotOrder} (now : (s.orders ++ [ticket])[id]? = some row) :
      s.orders[id]? = some row ∨ id = s.orders.length ∧ row = ticket := by
    rw [List.getElem?_append] at now
    grind
  have member {row : KotOrder} (now : row ∈ s.orders ++ [ticket]) : row ∈ s.orders ∨ row = ticket := by
    simpa using now
  refine holds.finish ⟨?_,?_,?_,?_,?_⟩ fun v mine => ⟨fun row held => (owns_releaseAll mine).mpr held,fun _ _ => rfl,?_,?_⟩
  · intro i j first second different one two shares
    rcases cases_of one with old | ⟨rfl,rfl⟩
    · rcases cases_of two with other | ⟨rfl,rfl⟩
      · exact holds.once i j first second different old other shares
      · exact .inl (firing.apart i first old shares)
    · rcases cases_of two with other | ⟨rfl,rfl⟩
      · exact .inr (firing.apart j second other (shares_comm.mp shares))
      · exact absurd rfl different
  · intro order inside cancelled
    rcases member inside with old | rfl
    · exact holds.dead order old cancelled
    · rw [firing.pending] at cancelled
      cases cancelled
  · intro order inside
    rcases member inside with old | rfl
    · exact holds.filled order old
    · exact firing.filled
  · intro order inside
    rcases member inside with old | rfl
    · exact holds.alive order old
    · exact firing.alive
  · intro order inside
    rcases member inside with old | rfl
    · exact holds.owned order old
    · exact ⟨sale,firing.saleId ▸ there,business.trans firing.businessId.symm⟩
  · intro id row before
    refine ⟨row,?_,.refl row,fun _ => rfl,fun _ _ => rfl⟩
    rw [List.getElem?_append_left (List.getElem?_eq_some_iff.mp before).1,before]
  · intro other sale' second open_ held named id row now shares
    rcases cases_of now with old | ⟨rfl,rfl⟩
    · exact ⟨row,old,shares,fun spent => spent⟩
    · have same : fired.saleId = other.saleId := firing.saleId.symm.trans (shares.1.trans named)
      exact absurd ((same ▸ held).same_tx holds.compatible own) mine

/-- The tickets and the sales after a cancellation. -/
def cancelOrders (orders : List KotOrder) (written : List Nat) : List KotOrder :=
  orders.mapIdx fun id order => if written.contains id then { order with status := .cancelled } else order

def cancelSales (sales : List Sale) (saleId : Nat) : List Sale := sales.modify saleId ({ · with status := .cancelled })

theorem cancelSales_getElem? (sales : List Sale) (saleId id : Nat) : (cancelSales sales saleId)[id]? =
    sales[id]?.map fun sale => if saleId = id then { sale with status := .cancelled } else sale := by
  rw [cancelSales,List.getElem?_modify]
  split <;> simp

theorem cancelSales_kept {sales : List Sale} {saleId id : Nat} {old : Sale} (before : sales[id]? = some old) :
    ∃ new, (cancelSales sales saleId)[id]? = some new ∧ new.businessId = old.businessId ∧
      (old.status = .cancelled → new.status = .cancelled) := by
  rw [cancelSales_getElem?,before]
  refine ⟨_,rfl,?_,fun gone => ?_⟩
  · split <;> rfl
  · split
    · rfl
    · exact gone

/-- How a cancellation leaves a ticket. -/
structure Marks (written : List Nat) (id : Nat) (row changed : KotOrder) : Prop where
  follows : Follows row changed
  spent : row.Spent → changed.Spent
  statuses : changed.statuses = row.statuses
  cancelled : changed.status = .cancelled → row.status = .cancelled ∨ id ∈ written
  others : id ∉ written → changed = row

theorem cancelOrders_marks {orders : List KotOrder} {written : List Nat} {id : Nat} (before : orders[id]? = some row) :
    ∃ changed, (cancelOrders orders written)[id]? = some changed ∧ Marks written id row changed := by
  rw [cancelOrders,List.getElem?_mapIdx,before]
  refine ⟨_,rfl,?_⟩
  split
  · next inside =>
    have marked : id ∈ written := by simpa using inside
    exact ⟨⟨rfl,rfl,rfl,rfl,fun _ dead => dead⟩,fun spent => ⟨rfl,spent.2⟩,rfl,fun _ => .inr marked,
      fun outside => absurd marked outside⟩
  · exact ⟨.refl row,fun spent => spent,rfl,.inl,fun _ => rfl⟩

theorem marks_of_cancelOrders {orders : List KotOrder} {written : List Nat} {id : Nat}
    (now : (cancelOrders orders written)[id]? = some changed) : ∃ row, orders[id]? = some row ∧ Marks written id row changed := by
  have inside : id < orders.length := by
    simpa [cancelOrders] using (List.getElem?_eq_some_iff.mp now).1
  obtain ⟨other,there,marks⟩ : ∃ other, (cancelOrders orders written)[id]? = some other ∧ Marks written id orders[id] other :=
    cancelOrders_marks (List.getElem?_eq_getElem inside)
  cases there.symm.trans now
  exact ⟨_,List.getElem?_eq_getElem inside,marks⟩

theorem commit_cancel {cancelled : CancelRequest} {written : List Nat} (holds : Apart s)
    (running : s.transactions u = some (.cancelling cancelled (some []) written)) :
    Apart ⟨cancelSales s.sales cancelled.saleId,cancelOrders s.orders written,releaseAll s.locks u,
      Function.update s.transactions u none⟩ := by
  obtain ⟨own,⟨sale,there⟩,named,owned⟩ := holds.standing u _ running
  have each {changed : KotOrder} (member : changed ∈ cancelOrders s.orders written) :
      ∃ id row, s.orders[id]? = some row ∧ Marks written id row changed := by
    obtain ⟨id,now⟩ := List.mem_iff_getElem?.mp member
    exact ⟨id,marks_of_cancelOrders now⟩
  refine holds.finish ⟨?_,?_,?_,?_,?_⟩ fun v mine => ⟨fun row held => (owns_releaseAll mine).mpr held,?_,?_,?_⟩
  · intro i j first second different one two shares
    obtain ⟨old,before,marks⟩ := marks_of_cancelOrders one
    obtain ⟨other,beside,marked⟩ := marks_of_cancelOrders two
    have shared := shares_comm.mp (marked.follows.shares.mp (shares_comm.mp (marks.follows.shares.mp shares)))
    exact (holds.once i j old other different before beside shared).imp marks.spent marked.spent
  · intro order inside gone
    obtain ⟨id,row,before,marks⟩ := each inside
    rw [marks.statuses,marks.follows.saleId]
    rcases marks.cancelled gone with was | marked
    · refine (holds.dead row (List.mem_of_getElem? before) was).imp_right ?_
      rintro ⟨sale,found,closed⟩
      obtain ⟨new,placed,_,stays⟩ := cancelSales_kept found
      exact ⟨new,placed,stays closed⟩
    · obtain ⟨order,placed,same⟩ := named id (by simpa using marked)
      cases placed.symm.trans before
      rw [same,cancelSales_getElem?,there]
      exact .inr ⟨_,rfl,by simp⟩
  · intro order inside
    obtain ⟨id,row,before,marks⟩ := each inside
    exact marks.follows.lines_ne (holds.filled row (List.mem_of_getElem? before))
  · intro order inside
    obtain ⟨id,row,before,marks⟩ := each inside
    exact marks.follows.deletedAt.trans (holds.alive row (List.mem_of_getElem? before))
  · intro order inside
    obtain ⟨id,row,before,marks⟩ := each inside
    obtain ⟨sale,found,business⟩ := holds.owned row (List.mem_of_getElem? before)
    obtain ⟨new,placed,same,_⟩ := cancelSales_kept found
    rw [marks.follows.saleId,marks.follows.businessId]
    exact ⟨new,placed,same.trans business⟩
  · intro id held
    have different : cancelled.saleId ≠ id := fun same => mine ((same ▸ held).same_tx holds.compatible own)
    simp [cancelSales_getElem?,different]
  · intro id row before
    obtain ⟨changed,now,marks⟩ := cancelOrders_marks before
    refine ⟨changed,now,marks.follows,fun held => marks.others fun marked => ?_,fun k _ => by rw [marks.statuses]⟩
    exact mine (held.same_tx holds.compatible (owned id marked))
  · intro fired sale' ticket _ _ _ id row now shares
    obtain ⟨old,before,marks⟩ := marks_of_cancelOrders now
    exact ⟨old,before,marks.follows.shares.mp shares,marks.spent⟩

theorem set_sale {id : Nat} {old sale : Sale} (holds : Apart s) (there : s.sales[id]? = some old) (served : old.Served sale)
    (free : ∀ held ∈ s.locks, held.row ≠ .sale id) : Apart { s with sales := s.sales.set id sale } := by
  have kept {place : Nat} {before : Sale} (found : s.sales[place]? = some before) :
      ∃ new, (s.sales.set id sale)[place]? = some new ∧ new.businessId = before.businessId ∧
        (before.status = .cancelled → new.status = .cancelled) := by
    rw [List.getElem?_set]
    split
    · next same =>
      subst same
      cases found.symm.trans there
      refine ⟨sale,by simp [(List.getElem?_eq_some_iff.mp found).1],?_,fun gone => ?_⟩
      · cases served <;> rfl
      · cases served with
        | addLines _ _ => exact gone
        | complete active =>
          rw [gone] at active
          cases active
    · exact ⟨before,found,rfl,fun gone => gone⟩
  refine ⟨⟨holds.once,fun order member gone => ?_,holds.filled,holds.alive,fun order member => ?_⟩,holds.compatible,fun v y found => ?_⟩
  · refine (holds.dead order member gone).imp_right ?_
    rintro ⟨before,placed,closed⟩
    obtain ⟨new,now,_,stays⟩ := kept placed
    exact ⟨new,now,stays closed⟩
  · obtain ⟨before,placed,business⟩ := holds.owned order member
    obtain ⟨new,now,same,_⟩ := kept placed
    exact ⟨new,now,same.trans business⟩
  · refine (holds.standing v y found).leave found ⟨fun _ held => held,fun place held => ?_,fun place row before => ?_,?_⟩
    · have different : id ≠ place := by
        rintro rfl
        obtain ⟨mode,_,member⟩ := held
        exact free _ member rfl
      simp [different]
    · exact ⟨row,before,.refl row,fun _ => rfl,fun _ _ => rfl⟩
    · exact fun _ _ _ _ _ _ place row before shares => ⟨row,before,shares,fun spent => spent⟩

theorem Apart.commit (holds : Apart s) (guarded : Guarded s (.commit u)) (taken : next s (.commit u) = some t) : Apart t := by
  simp only [next,Option.bind_eq_bind,Option.bind_eq_some_iff,Option.some.injEq] at taken
  obtain ⟨x,running,⟨sales,orders⟩,ended,rfl⟩ := taken
  unfold committed at ended
  split at ended
  · cases ended
    exact commit_update holds guarded running
  · cases ended
    exact commit_fire holds running
  · cases ended
    exact commit_cancel holds running
  · cases ended

/-- Every step that is guarded keeps the tickets apart. -/
theorem Apart.step {a : Action} (holds : Apart s) (served : OfTab s a) (guarded : Guarded s a) (taken : next s a = some t) :
    Apart t := by
  cases a with
  | setSale id sale =>
    simp only [next,Option.ite_none_right_eq_some,Option.some.injEq] at taken
    obtain ⟨free,rfl⟩ := taken
    obtain ⟨old,there,moved⟩ := served
    exact set_sale holds there moved (by simpa using free)
  | start u request =>
    simp only [next,Option.bind_eq_bind,Option.ite_none_right_eq_some,Option.bind_eq_some_iff,Outcome.toOption_eq_some,
      Option.some.injEq] at taken
    obtain ⟨_,⟨row,x⟩,started,locks,locked,rfl⟩ := taken
    exact holds.put locked (start_standing started locked)
  | execute u now =>
    simp only [next,Option.bind_eq_bind,Option.bind_eq_some_iff,Outcome.toOption_eq_some,Option.some.injEq] at taken
    obtain ⟨x,running,⟨rows,y⟩,done,locks,locked,rfl⟩ := taken
    exact holds.put locked (perform_standing holds (holds.standing u x running) done locked)
  | commit u => exact holds.commit guarded taken
  | abort u =>
    simp only [next,Option.bind_eq_bind,Option.bind_eq_some_iff,Option.some.injEq] at taken
    obtain ⟨x,_,rfl⟩ := taken
    exact holds.abort

theorem Initial.apart (initial : Initial s) : Apart s := by
  obtain ⟨orders,locks,transactions⟩ := initial
  refine ⟨⟨?_,?_,?_,?_,?_⟩,?_,?_⟩
  all_goals simp [orders,locks,transactions,compatible_nil]

theorem Apart.firedOnce (holds : Apart s) : FiredOnce s where
  once := by
    intro i j first second different one two live alive shares
    rcases holds.once i j first second different one two shares with spent | spent
    · exact live.2 spent.1
    · exact alive.2 spent.1
  filled := holds.filled

/-- Every line of a tab is on one live ticket at most, and no ticket is empty. -/
theorem fired_once (reached : Reachable Initial (Restricted (fun s a => OfTab s a ∧ Guarded s a) (OfNext next)) s) :
    FiredOnce s := by
  have holds : Apart s := reached.invariant (fun _ initial => initial.apart) fun _ _ _ holds taken =>
    holds.step taken.1.1 taken.1.2 taken.2
  exact holds.firedOnce

/-- A check of `Guarded` that looks at the lines of the ticket alone. -/
def quiet (s : State) : Action → Bool
  | .setSale _ _ => false
  | .commit t => match s.transactions t with
    | some (.updating request [] _ _) => s.orders[request.orderId]?.any fun row => row.statuses.any (· ≠ .cancelled)
    | _ => true
  | _ => true

theorem quiet_guarded {a : Action} (checked : quiet s a = true) : OfTab s a ∧ Guarded s a := by
  cases a with
  | setSale id sale => cases checked
  | commit t =>
    refine ⟨trivial,fun request loaded order row running there spent => ?_⟩
    simp only [quiet,running,there,Option.any_some,List.any_eq_true,decide_eq_true_eq] at checked
    obtain ⟨status,member,active⟩ := checked
    exact absurd (spent.2 status member) active
  | start | execute | abort => exact ⟨trivial,trivial⟩

/-- The two lines are fired one by one, the first ticket is cancelled and its line fired again. -/
def refireRun : List Action :=
  [.start 0 (.fire ⟨0,7,some [1]⟩),.execute 0 0,.commit 0,.start 0 (.fire ⟨0,7,none⟩),.execute 0 1,.commit 0,
    .start 0 (.kot ⟨0,7,none,.cancelled⟩),.execute 0 2,.execute 0 2,.execute 0 2,.commit 0,
    .start 0 (.fire ⟨0,7,none⟩),.execute 0 3,.commit 0]

def refired : State := (execute (within quiet next) openTab refireRun).getD openTab

theorem fired_once_refired : FiredOnce refired ∧
    refired.orders.map (fun order => (order.status,order.lines.map (·.saleLineId))) =
      [(.cancelled,[some 1]),(.pending,[some 2]),(.pending,[some 1])] := by
  have run : Run (OfNext (within quiet next)) openTab refireRun refired := run_of_isSome openTab (by decide +kernel)
  have guarded : Run (Restricted (fun s a => OfTab s a ∧ Guarded s a) (OfNext next)) openTab refireRun refired :=
    run.mono fun _ _ _ taken => ⟨quiet_guarded (within_eq_some.mp taken).1,(within_eq_some.mp taken).2⟩
  exact ⟨fired_once ⟨openTab,refireRun,openTab_initial,guarded⟩,by decide +kernel⟩

/-- An update of a line that is cancelled already reads the header, then what another update has made of the lines; it writes its
header once the ticket has been cancelled and its lines have been fired again. -/
def reviveRun : List Action :=
  firing ++ [.start 0 (.kot ⟨0,7,some 0,.cancelled⟩),.execute 0 1,.execute 0 1,.execute 0 1,.execute 0 1,.commit 0,
    .start 1 (.kot ⟨0,7,some 0,.cancelled⟩),.execute 1 2,
    .start 2 (.kot ⟨0,7,some 1,.preparing⟩),.execute 2 3,.execute 2 3,.execute 2 3,.execute 2 3,.commit 2,
    .execute 1 4,
    .start 3 (.kot ⟨0,7,none,.cancelled⟩),.execute 3 5,.execute 3 5,.execute 3 5,.commit 3] ++ firing ++
    [.execute 1 6,.execute 1 6,.commit 1]

def Action.setsSale : Action → Bool
  | .setSale _ _ => true
  | _ => false

def twice : State := (execute next openTab reviveRun).getD openTab

/-- Both lines are then on two live tickets. -/
theorem line_fired_twice : ¬∀ s, Reachable Initial (Restricted OfTab (OfNext next)) s → FiredOnce s := by
  intro claim
  have run : Run (OfNext next) openTab reviveRun twice := run_of_isSome openTab (by decide +kernel)
  have tab : ∀ a ∈ reviveRun, ∀ s, OfTab s a := by
    have checked : reviveRun.all (fun a => !a.setsSale) = true := by decide
    intro a member s
    have other := List.all_eq_true.mp checked a member
    cases a with
    | setSale id sale => simp [Action.setsSale] at other
    | start | execute | commit | abort => trivial
  have once := (claim twice ⟨openTab,reviveRun,openTab_initial,run.restrict tab⟩).once
  have shown : twice.orders.map (fun order => (order.saleId,order.status,order.deletedAt,order.lines.map (·.saleLineId))) =
      [(0,.preparing,none,[some 1,some 2]),(0,.pending,none,[some 1,some 2])] := by decide +kernel
  obtain ⟨first,rest,listed,one,others⟩ := List.map_eq_cons_iff.mp shown
  obtain ⟨second,rest,more,two,_⟩ := List.map_eq_cons_iff.mp others
  simp only [Prod.mk.injEq] at one two
  obtain ⟨sale,status,alive,lines⟩ := one
  obtain ⟨sale',status',alive',lines'⟩ := two
  refine once 0 1 first second (by decide) (by simp [listed]) (by simp [listed,more]) ⟨alive,?_⟩ ⟨alive',?_⟩ ⟨?_,1,?_,?_⟩
  · simp [status]
  · simp [status']
  · rw [sale,sale']
  · simp [lines]
  · simp [lines']

end KitchenTickets
