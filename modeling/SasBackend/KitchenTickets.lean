import SasBackend.Library.Outcome
import SasBackend.Semantics.KitchenTickets

/-! A ticket's header agrees with its lines, and stays cancelled, while updates write what they have read and a tab
cancellation meets no active line.
-/
namespace KitchenTickets
open RowLocks Transition
open Outcome (refuseIf_ok)
open Service (HTTPException)

variable {s t : State} {u v : Nat} {x y : Transaction} {loaded order row : KotOrder} {statuses : List KotStatus}
  {header target : KotStatus} {now : Int} {request : KotRequest}

theorem slowest_spec (first : KotStatus) (rest : List KotStatus) :
    slowest first rest ∈ first :: rest ∧
      ∀ status ∈ first :: rest, kotStatusPriority (slowest first rest) ≤ kotStatusPriority status := by
  induction rest generalizing first with
  | nil => simp [slowest]
  | cons second rest induction =>
    have unfolded : slowest first (second :: rest) =
        slowest (if kotStatusPriority second < kotStatusPriority first then second else first) rest := rfl
    rw [unfolded]
    split
    · next less =>
      obtain ⟨member,least⟩ := induction second
      refine ⟨List.mem_cons_of_mem _ member,fun status inside => ?_⟩
      rcases List.mem_cons.mp inside with rfl | inside
      · exact Nat.le_trans (least second List.mem_cons_self) (Nat.le_of_lt less)
      · exact least status inside
    · next notLess =>
      obtain ⟨member,least⟩ := induction first
      refine ⟨by grind,fun status inside => ?_⟩
      have here := least first List.mem_cons_self
      rcases List.mem_cons.mp inside with rfl | inside
      · exact here
      · rcases List.mem_cons.mp inside with rfl | inside
        · omega
        · exact least status (List.mem_cons_of_mem _ inside)

structure Slowest (statuses : List KotStatus) (header : KotStatus) : Prop where
  member : header ∈ statuses
  active : header ≠ .cancelled
  least : ∀ status ∈ statuses, status ≠ .cancelled → kotStatusPriority header ≤ kotStatusPriority status

theorem kotStatusPriority_injective {first second : KotStatus}
    (same : kotStatusPriority first = kotStatusPriority second) : first = second := by
  cases first <;> cases second <;> simp [kotStatusPriority] at same <;> rfl

theorem Slowest.unique {other : KotStatus} (first : Slowest statuses header) (second : Slowest statuses other) :
    header = other := by
  apply kotStatusPriority_injective
  exact Nat.le_antisymm (first.least other second.member second.active) (second.least header first.member first.active)

theorem derive_cases (statuses : List KotStatus) :
    (deriveKotHeaderStatus statuses = .cancelled ∧ ∀ status ∈ statuses, status = .cancelled) ∨
      Slowest statuses (deriveKotHeaderStatus statuses) := by
  unfold deriveKotHeaderStatus
  split
  · next none =>
    left
    refine ⟨rfl,fun status member => ?_⟩
    simpa using List.filter_eq_nil_iff.mp none status member
  · next first rest active =>
    right
    obtain ⟨member,least⟩ := slowest_spec first rest
    rw [← active] at member least
    obtain ⟨inside,alive⟩ := List.mem_filter.mp member
    refine ⟨inside,by simpa using alive,fun status there living => least status ?_⟩
    exact List.mem_filter.mpr ⟨there,by simpa using living⟩

theorem derive_eq_cancelled : deriveKotHeaderStatus statuses = .cancelled ↔ ∀ status ∈ statuses, status = .cancelled := by
  constructor
  · intro derived
    rcases derive_cases statuses with ⟨_,all⟩ | found
    · exact all
    · exact absurd derived found.active
  · intro all
    rcases derive_cases statuses with ⟨derived,_⟩ | found
    · exact derived
    · exact absurd (all _ found.member) found.active

theorem derive_eq_of_slowest (found : Slowest statuses header) : deriveKotHeaderStatus statuses = header := by
  rcases derive_cases statuses with ⟨_,all⟩ | derived
  · exact absurd (all header found.member) found.active
  · exact derived.unique found

theorem slowest_of_derive (derived : deriveKotHeaderStatus statuses = header) (active : header ≠ .cancelled) :
    Slowest statuses header := by
  rcases derive_cases statuses with ⟨cancelled,_⟩ | found
  · exact absurd (derived.symm.trans cancelled) active
  · exact derived ▸ found

theorem getOr_ok {α : Type} {value : Option α} {a : α} {error : HTTPException} :
    getOr value error = .ok a ↔ value = some a := by
  cases value <;> simp [getOr]

@[simp] theorem applyHeaderTimestamps_status : (applyHeaderTimestamps order header now).status = order.status := rfl

@[simp] theorem applyHeaderTimestamps_statuses : (applyHeaderTimestamps order header now).statuses = order.statuses := rfl

theorem pushDown_statuses : (pushDown order target).statuses =
    if target = .cancelled then order.statuses.map fun _ => .cancelled
    else if target ≠ .pending then order.statuses.map fun status =>
      if status ≠ .cancelled ∧ kotStatusPriority status < kotStatusPriority target then target else status
    else order.statuses := by
  unfold pushDown
  split
  · simp [KotOrder.statuses]
  · split
    · simp only [KotOrder.statuses,promoteLinesToStatus,List.map_map]
      apply List.map_congr_left
      intro line _
      simp only [Function.comp_apply,promoteLine]
      grind
    · rfl

theorem pushDown_status : (pushDown order target).status = order.status := by
  unfold pushDown
  split
  · rfl
  · split <;> rfl

theorem transition_le (valid : isValidKotStatusTransition header target kotHeaderStatusTransitions = true)
    (active : target ≠ .cancelled) : header ≠ .cancelled ∧ kotStatusPriority header ≤ kotStatusPriority target ∧
      (target = .pending → header = .pending) := by
  cases header <;> cases target <;>
    simp_all [isValidKotStatusTransition,kotHeaderStatusTransitions,kotStatusPriority]

theorem Slowest.promote (found : Slowest statuses header) (active : target ≠ .cancelled)
    (further : kotStatusPriority header ≤ kotStatusPriority target) :
    Slowest (statuses.map fun status =>
      if status ≠ .cancelled ∧ kotStatusPriority status < kotStatusPriority target then target else status) target := by
  refine ⟨List.mem_map.mpr ⟨header,found.member,?_⟩,active,?_⟩
  · split
    · rfl
    · next same =>
      apply kotStatusPriority_injective
      have reached : ¬kotStatusPriority header < kotStatusPriority target := fun less => same ⟨found.active,less⟩
      omega
  · intro status member living
    obtain ⟨old,_,rfl⟩ := List.mem_map.mp member
    split
    · exact Nat.le_refl _
    · next same =>
      simp only [if_neg same] at living
      exact Nat.not_lt.mp fun less => same ⟨living,less⟩

theorem updateKotOrderStatus_agrees (agrees : loaded.Agrees) (done : updateKotOrderStatus loaded target now = .ok order) :
    order.Agrees ∧ (loaded.status = .cancelled → order.status = .cancelled) := by
  obtain ⟨_,checked,result⟩ := Outcome.bind_ok_iff.mp done
  have valid : isValidKotStatusTransition loaded.status target kotHeaderStatusTransitions = true := by
    simpa using refuseIf_ok.mp checked
  cases result
  simp only [KotOrder.Agrees,applyHeaderTimestamps_status,applyHeaderTimestamps_statuses,pushDown_status,pushDown_statuses]
  have lines : ({ loaded with status := target } : KotOrder).statuses = loaded.statuses := rfl
  rw [lines]
  by_cases cancelled : target = .cancelled
  · simp only [cancelled,if_true]
    refine ⟨(derive_eq_cancelled.mpr fun status member => ?_).symm,fun _ => trivial⟩
    obtain ⟨_,_,rfl⟩ := List.mem_map.mp member
    rfl
  · obtain ⟨living,further,back⟩ := transition_le valid cancelled
    have found := slowest_of_derive agrees.symm living
    refine ⟨Eq.symm ?_,fun dead => absurd dead living⟩
    rw [if_neg cancelled]
    by_cases first : target = .pending
    · rw [if_neg (not_not.mpr first),first]
      exact derive_eq_of_slowest (back first ▸ found)
    · rw [if_pos first]
      exact derive_eq_of_slowest (found.promote cancelled further)

theorem updateKotOrderLineStatus_agrees {index : Nat} (agrees : loaded.Agrees)
    (done : updateKotOrderLineStatus loaded index target now = .ok order) :
    order.Agrees ∧ (loaded.status = .cancelled → order.status = .cancelled) := by
  obtain ⟨line,found,rest⟩ := Outcome.bind_ok_iff.mp done
  obtain ⟨_,_,rest⟩ := Outcome.bind_ok_iff.mp rest
  obtain ⟨_,checked,result⟩ := Outcome.bind_ok_iff.mp rest
  have valid : isValidKotStatusTransition line.status target kotLineStatusTransitions = true := by
    simpa using refuseIf_ok.mp checked
  cases result
  refine ⟨rfl,fun cancelled => derive_eq_cancelled.mpr fun status member => ?_⟩
  have all := derive_eq_cancelled.mp (agrees.symm.trans cancelled)
  have here : line.status = .cancelled := by
    unfold findLine at found
    split at found
    · next there =>
      cases found
      exact all _ (List.mem_map_of_mem (List.mem_of_getElem? there))
    · cases found
  have stays : target = .cancelled := by
    simpa [isValidKotStatusTransition,kotLineStatusTransitions,here,eq_comm] using valid
  obtain ⟨changed,inside,rfl⟩ := List.mem_map.mp member
  rcases List.mem_or_eq_of_mem_set inside with old | new
  · exact all _ (List.mem_map_of_mem old)
  · rw [new]
    exact stays

theorem apply_agrees (agrees : loaded.Agrees) (done : request.apply loaded now = .ok order) :
    order.Agrees ∧ (loaded.status = .cancelled → order.status = .cancelled) := by
  unfold KotRequest.apply at done
  split at done
  · exact updateKotOrderStatus_agrees agrees done
  · exact updateKotOrderLineStatus_agrees agrees done

/-- The update changes statuses and times alone. -/
structure Revises (loaded order : KotOrder) : Prop where
  businessId : order.businessId = loaded.businessId
  saleId : order.saleId = loaded.saleId
  deletedAt : order.deletedAt = loaded.deletedAt
  lines : order.lines.map (·.saleLineId) = loaded.lines.map (·.saleLineId)

theorem pushDown_revises : Revises order (pushDown order target) := by
  unfold pushDown
  split
  · exact ⟨rfl,rfl,rfl,by simp⟩
  · split
    · refine ⟨rfl,rfl,rfl,?_⟩
      simp only [promoteLinesToStatus,List.map_map]
      apply List.map_congr_left
      intro line _
      simp only [Function.comp_apply,promoteLine]
      grind
    · exact ⟨rfl,rfl,rfl,rfl⟩

theorem apply_revises (done : request.apply loaded now = .ok order) : Revises loaded order := by
  unfold KotRequest.apply at done
  split at done
  · obtain ⟨_,_,result⟩ := Outcome.bind_ok_iff.mp done
    cases result
    have revised : Revises { loaded with status := request.newStatus }
        (pushDown { loaded with status := request.newStatus } request.newStatus) := pushDown_revises
    exact ⟨revised.businessId,revised.saleId,revised.deletedAt,revised.lines⟩
  · next index _ =>
    obtain ⟨line,found,rest⟩ := Outcome.bind_ok_iff.mp done
    obtain ⟨_,_,rest⟩ := Outcome.bind_ok_iff.mp rest
    obtain ⟨_,_,result⟩ := Outcome.bind_ok_iff.mp rest
    cases result
    refine ⟨rfl,rfl,rfl,?_⟩
    unfold findLine at found
    split at found
    · next there =>
      cases found
      simp only [syncKotOrderStatusFromLines,applyHeaderTimestamps,List.map_set]
      apply List.ext_getElem?
      intro place
      rw [List.getElem?_set]
      grind
    · cases found

theorem column_loaded {α : Type} [DecidableEq α] (old new : α) : column old new old = new := by
  unfold column
  split
  · next same => exact same.symm
  · rfl

theorem write_loaded (revises : Revises loaded order) : write loaded order loaded = order := by
  have lines : loaded.lines.mapIdx (writeLine loaded order) = order.lines := by
    apply List.ext_getElem?
    intro index
    have sources := congrArg (·[index]?) revises.lines
    simp only [List.getElem?_map] at sources
    rw [List.getElem?_mapIdx]
    cases old : loaded.lines[index]? with
    | none =>
      rw [old,Option.map_none] at sources
      exact (Option.map_eq_none_iff.mp sources).symm
    | some before =>
      cases new : order.lines[index]? with
      | none => simp [old,new] at sources
      | some after =>
        simp only [old,new,Option.map_some,Option.some.injEq] at sources
        simp only [Option.map_some,writeLine,old,new,column_loaded,← sources]
  obtain ⟨business,sale,deleted,_⟩ := revises
  cases order
  simp_all [write,column_loaded]

def Applied (request : KotRequest) (loaded order : KotOrder) : Prop := ∃ now, request.apply loaded now = .ok order

/-- The transaction has the ticket's lock, and the ticket is as it was read. -/
structure Current (s : State) (u : Nat) (request : KotRequest) (loaded order : KotOrder) : Prop where
  applied : Applied request loaded order
  owns : Owns s.locks u (.order request.orderId)
  there : s.orders[request.orderId]? = some loaded

def Sound (s : State) (u : Nat) : Transaction → Prop
  | .updating _ (.readOrder :: rest) _ _ => rest = [.readLines,.updateOrder,.updateLines]
  | .updating _ (.readLines :: rest) _ _ => rest = [.updateOrder,.updateLines]
  | .updating request (.updateOrder :: rest) loaded order => rest = [.updateLines] ∧ Applied request loaded order
  | .updating request (.updateLines :: rest) loaded order => rest = [] ∧ Current s u request loaded order
  | .updating request [] loaded order => Current s u request loaded order
  | .firing _ _ ticket => ∀ order ∈ ticket, order.Agrees
  | .cancelling _ _ written => ∀ id ∈ written, Owns s.locks u (.order id) ∧
      ∃ order, s.orders[id]? = some order ∧ ∀ status ∈ order.statuses, status = .cancelled

structure Invariant (s : State) : Prop where
  compatible : Compatible s.locks
  agrees : ∀ order ∈ s.orders, order.Agrees
  sound : ∀ u x, s.transactions u = some x → Sound s u x

theorem Sound.frame (sound : Sound s u x) (owns : ∀ row, Owns s.locks u row → Owns t.locks u row)
    (orders : ∀ id order, Owns s.locks u (.order id) → s.orders[id]? = some order → t.orders[id]? = some order) :
    Sound t u x := by
  have current {request : KotRequest} {loaded order : KotOrder} (now : Current s u request loaded order) :
      Current t u request loaded order := ⟨now.applied,owns _ now.owns,orders _ _ now.owns now.there⟩
  cases x with
  | updating request todo loaded order =>
    cases todo with
    | nil => exact current sound
    | cons statement rest =>
      cases statement with
      | readOrder | readLines | updateOrder => exact sound
      | updateLines => exact ⟨sound.1,current sound.2⟩
  | firing request sale ticket => exact sound
  | cancelling request found written =>
    intro id member
    obtain ⟨held,order,there,dead⟩ := sound id member
    exact ⟨owns _ held,order,orders _ _ held there,dead⟩

theorem fireTabToKitchen_agrees {orders : List KotOrder} {sale : Sale} {fired : FireRequest}
    (done : fireTabToKitchen orders sale fired = .ok order) : order.Agrees := by
  obtain ⟨_,_,rest⟩ := Outcome.bind_ok_iff.mp done
  obtain ⟨_,chosen,result⟩ := Outcome.bind_ok_iff.mp rest
  have some_line := refuseIf_ok.mp chosen
  cases result
  refine (derive_eq_of_slowest ⟨?_,by simp,fun status _ _ => by simp [kotStatusPriority]⟩).symm
  simp only [KotOrder.statuses,List.map_map,List.mem_map]
  obtain ⟨line,member⟩ := List.exists_mem_of_ne_nil _ (List.isEmpty_eq_false_iff.mp some_line)
  exact ⟨line,member,rfl⟩

theorem start_sound {request : Request} {row : Row} (started : start s request = .ok (row,x)) : Sound s u x := by
  unfold start at started
  split at started
  · next request =>
    obtain ⟨order,_,rest⟩ := Outcome.bind_ok_iff.mp started
    split at rest
    · obtain ⟨_,_,result⟩ := Outcome.bind_ok_iff.mp rest
      cases result
      rfl
    · obtain ⟨_,_,result⟩ := Outcome.bind_ok_iff.mp rest
      cases result
      rfl
  · obtain ⟨_,_,rest⟩ := Outcome.bind_ok_iff.mp started
    obtain ⟨_,_,result⟩ := Outcome.bind_ok_iff.mp rest
    cases result
    simp [Sound]
  · obtain ⟨_,_,result⟩ := Outcome.bind_ok_iff.mp started
    cases result
    simp [Sound]

/-- What a statement makes of the transaction, with the locks it takes. -/
theorem perform_sound {rows : List Row} {locks : List (Held Row)} (sound : Sound s u x)
    (allowed : ∀ request rest loaded order, x = .updating request (.updateOrder :: rest) loaded order →
      s.orders[request.orderId]? = some loaded)
    (dead : ∀ request id rest written, x = .cancelling request (some (id :: rest)) written →
      ∃ order, s.orders[id]? = some order ∧ ∀ status ∈ order.statuses, status = .cancelled)
    (done : perform s.orders now x = .ok (rows,y)) (locked : acquireAll s.locks u rows .noKeyUpdate = some locks)
    {transactions : Nat → Option Transaction} : Sound ⟨s.sales,s.orders,locks,transactions⟩ u y := by
  have owns (row : Row) : Owns locks u row ↔ Owns s.locks u row ∨ row ∈ rows := by
    rw [owns_acquireAll locked]
    simp [Mode.exclusive]
  unfold perform at done
  split at done
  · next request statement todo loaded order =>
    obtain ⟨row,there,rest⟩ := Outcome.bind_ok_iff.mp done
    cases statement with
    | readOrder =>
      cases rest
      simp only [Sound] at sound
      subst sound
      rfl
    | readLines =>
      obtain ⟨changed,applied,result⟩ := Outcome.bind_ok_iff.mp rest
      cases result
      simp only [Sound] at sound
      subst sound
      exact ⟨rfl,now,applied⟩
    | updateOrder =>
      cases rest
      obtain ⟨rfl,applied⟩ := sound
      exact ⟨rfl,applied,(owns _).mpr (.inr (by simp)),allowed _ _ _ _ rfl⟩
    | updateLines =>
      cases rest
      obtain ⟨rfl,applied,held,kept⟩ := sound
      exact ⟨applied,(owns _).mpr (.inl held),kept⟩
  · obtain ⟨ticket,fired,result⟩ := Outcome.bind_ok_iff.mp done
    cases result
    simpa [Sound] using fireTabToKitchen_agrees fired
  · cases done
    intro id member
    obtain ⟨held,rest⟩ := sound id member
    exact ⟨(owns _).mpr (.inl held),rest⟩
  · next id rest written =>
    cases done
    intro other member
    rcases List.mem_cons.mp member with rfl | old
    · exact ⟨(owns _).mpr (.inr (by simp)),dead _ _ _ _ rfl⟩
    · obtain ⟨held,rest⟩ := sound other old
      exact ⟨(owns _).mpr (.inl held),rest⟩
  · cases done

/-- No ticket goes, and none that was cancelled becomes active. -/
def Lasting (before after : List KotOrder) : Prop :=
  ∀ (id : Nat) (order : KotOrder), before[id]? = some order →
    ∃ later, after[id]? = some later ∧ (order.status = .cancelled → later.status = .cancelled)

/-- The committed tickets: those the transaction does not own stay. -/
structure Keeps (s : State) (u : Nat) (orders : List KotOrder) : Prop where
  agrees : ∀ order ∈ orders, order.Agrees
  cancelled : Lasting s.orders orders
  others : ∀ (id : Nat) (order : KotOrder), ¬Owns s.locks u (.order id) → s.orders[id]? = some order →
    orders[id]? = some order

theorem commit_keeps {sales : List Sale} {orders : List KotOrder} (holds : Invariant s) (sound : Sound s u x)
    (ended : committed s x = some (sales,orders)) : Keeps s u orders := by
  unfold committed at ended
  split at ended
  · next request loaded order =>
    cases ended
    obtain ⟨⟨now,applied⟩,held,there⟩ := sound
    have written : write loaded order loaded = order := write_loaded (apply_revises applied)
    obtain ⟨agrees,stays⟩ := apply_agrees (holds.agrees loaded (List.mem_of_getElem? there)) applied
    have found (id : Nat) (row : KotOrder) (here : s.orders[id]? = some row) :
        (s.orders.modify request.orderId (write loaded order))[id]? =
          some (if request.orderId = id then order else row) := by
      rw [List.getElem?_modify,here]
      split
      · next same =>
        subst same
        cases there.symm.trans here
        simp [written]
      · rfl
    refine ⟨fun later member => ?_,fun id row here => ⟨_,found id row here,fun dead => ?_⟩,fun id row free here => ?_⟩
    · obtain ⟨id,placed⟩ := List.mem_iff_getElem?.mp member
      have inside : id < s.orders.length := by
        simpa using (List.getElem?_eq_some_iff.mp placed).1
      have here := found id _ (List.getElem?_eq_getElem inside)
      cases placed.symm.trans here
      split
      · exact agrees
      · exact holds.agrees _ (List.getElem_mem inside)
    · split
      · next same =>
        subst same
        cases there.symm.trans here
        exact stays dead
      · exact dead
    · rw [found id row here,if_neg]
      intro same
      exact free (same ▸ held)
  · next request sale ticket =>
    cases ended
    have kept (id : Nat) (row : KotOrder) (here : s.orders[id]? = some row) : (s.orders ++ [ticket])[id]? = some row := by
      rw [List.getElem?_append_left (List.getElem?_eq_some_iff.mp here).1,here]
    refine ⟨fun later member => ?_,fun id row here => ⟨row,kept id row here,fun dead => dead⟩,fun id row _ here => kept id row here⟩
    rcases List.mem_append.mp member with old | new
    · exact holds.agrees later old
    · rw [List.mem_singleton.mp new]
      exact sound ticket rfl
  · next request written =>
    cases ended
    refine ⟨fun later member => ?_,fun id row here => ⟨_,by rw [List.getElem?_mapIdx,here]; rfl,fun dead => ?_⟩,
      fun id row free here => ?_⟩
    · obtain ⟨id,inside,rfl⟩ := List.mem_mapIdx.mp member
      split
      · next marked =>
        obtain ⟨_,order,there,dead⟩ := sound id (by simpa using marked)
        rw [List.getElem?_eq_getElem inside,Option.some.injEq] at there
        exact (derive_eq_cancelled.mpr (there ▸ dead)).symm
      · exact holds.agrees _ (List.getElem_mem inside)
    · split
      · rfl
      · exact dead
    · rw [List.getElem?_mapIdx,here,Option.map_some,if_neg]
      intro marked
      exact free (sound id (by simpa using marked)).1
  · cases ended

theorem Invariant.put {rows : List Row} {locks : List (Held Row)} {mode : Mode} (holds : Invariant s)
    (locked : acquireAll s.locks u rows mode = some locks)
    (sound : Sound ⟨s.sales,s.orders,locks,Function.update s.transactions u (some x)⟩ u x) :
    Invariant ⟨s.sales,s.orders,locks,Function.update s.transactions u (some x)⟩ := by
  refine ⟨holds.compatible.acquireAll locked,holds.agrees,fun w y found => ?_⟩
  by_cases mine : w = u
  · subst mine
    simp only [Function.update_self,Option.some.injEq] at found
    exact found ▸ sound
  · simp only [Function.update_of_ne mine] at found
    refine (holds.sound w y found).frame (fun row held => ?_) fun _ _ _ there => there
    exact (owns_acquireAll locked).mpr (.inl held)

theorem Invariant.finish {sales : List Sale} {orders : List KotOrder} (holds : Invariant s) (keeps : Keeps s u orders) :
    Invariant ⟨sales,orders,releaseAll s.locks u,Function.update s.transactions u none⟩ := by
  refine ⟨holds.compatible.releaseAll u,keeps.agrees,fun w y found => ?_⟩
  by_cases mine : w = u
  · subst mine
    simp at found
  · simp only [Function.update_of_ne mine] at found
    refine (holds.sound w y found).frame (fun row held => (owns_releaseAll mine).mpr held) ?_
    intro id order held there
    refine keeps.others id order (fun theirs => mine ?_) there
    exact held.same_tx holds.compatible theirs

/-- Every step keeps the invariant, and no ticket becomes active again. -/
theorem Invariant.step {a : Action} (holds : Invariant s) (allowed : careful s a = true) (taken : next s a = some t) :
    Invariant t ∧ Lasting s.orders t.orders := by
  have still : Lasting s.orders s.orders := fun _ order there => ⟨order,there,fun dead => dead⟩
  cases a with
  | setSale id sale =>
    simp only [next,Option.ite_none_right_eq_some,Option.some.injEq] at taken
    obtain ⟨_,rfl⟩ := taken
    refine ⟨⟨holds.compatible,holds.agrees,fun w y found => ?_⟩,still⟩
    exact (holds.sound w y found).frame (fun _ held => held) fun _ _ _ there => there
  | start u request =>
    simp only [next,Option.bind_eq_bind,Option.ite_none_right_eq_some,Option.bind_eq_some_iff,Outcome.toOption_eq_some,
      Option.some.injEq] at taken
    obtain ⟨_,⟨row,x⟩,started,locks,locked,rfl⟩ := taken
    have sound : Sound s u x := start_sound started
    refine ⟨holds.put locked (sound.frame (fun row held => ?_) fun _ _ _ there => there),still⟩
    exact (owns_acquireAll locked).mpr (.inl held)
  | execute u now =>
    simp only [next,Option.bind_eq_bind,Option.bind_eq_some_iff,Outcome.toOption_eq_some,Option.some.injEq] at taken
    obtain ⟨x,running,⟨rows,y⟩,done,locks,locked,rfl⟩ := taken
    refine ⟨holds.put locked (perform_sound (holds.sound u x running) ?_ ?_ done locked),still⟩
    · rintro request rest loaded order rfl
      simpa [careful,running] using allowed
    · rintro request id rest written rfl
      simpa [careful,running,Option.any_eq_true] using allowed
  | commit u =>
    simp only [next,Option.bind_eq_bind,Option.bind_eq_some_iff,Option.some.injEq] at taken
    obtain ⟨x,running,⟨sales,orders⟩,ended,rfl⟩ := taken
    have keeps := commit_keeps holds (holds.sound u x running) ended
    exact ⟨holds.finish keeps,keeps.cancelled⟩
  | abort u =>
    simp only [next,Option.bind_eq_bind,Option.bind_eq_some_iff,Option.some.injEq] at taken
    obtain ⟨x,_,rfl⟩ := taken
    exact ⟨holds.finish ⟨holds.agrees,still,fun _ _ _ there => there⟩,still⟩

theorem Initial.invariant (initial : Initial s) : Invariant s := by
  obtain ⟨orders,locks,transactions⟩ := initial
  refine ⟨?_,?_,?_⟩
  · rw [locks]
    exact compatible_nil
  · simp [orders]
  · simp [transactions]

theorem Invariant.run {labels : List Action} (run : Run (OfNext (within careful next)) s labels t) (holds : Invariant s) :
    Lasting s.orders t.orders := by
  induction run with
  | nil s => exact fun _ order there => ⟨order,there,fun dead => dead⟩
  | cons taken _ induction =>
    obtain ⟨allowed,moved⟩ := within_eq_some.mp taken
    obtain ⟨kept,first⟩ := holds.step allowed moved
    intro id order there
    obtain ⟨middle,found,dead⟩ := first id order there
    obtain ⟨later,last,gone⟩ := induction kept id middle found
    exact ⟨later,last,fun cancelled => gone (dead cancelled)⟩

/-- Every header agrees with its lines, and a cancelled ticket stays cancelled. -/
theorem kot_headers_agree {labels : List Action} (reached : Reachable Initial (OfNext (within careful next)) s)
    (run : Run (OfNext (within careful next)) s labels t) :
    (∀ order ∈ s.orders, order.Agrees) ∧
      ∀ (id : Nat) (order : KotOrder), s.orders[id]? = some order → order.status = .cancelled →
        ∃ later, t.orders[id]? = some later ∧ later.status = .cancelled := by
  have holds : Invariant s := reached.invariant (fun s initial => initial.invariant) fun s a t kept taken =>
    (kept.step (within_eq_some.mp taken).1 (within_eq_some.mp taken).2).1
  refine ⟨holds.agrees,fun id order there dead => ?_⟩
  obtain ⟨later,last,gone⟩ := holds.run run id order there
  exact ⟨later,last,gone dead⟩

def firstTab : Sale := ⟨7,.dineIn,.held,none,[⟨1,none⟩,⟨2,none⟩]⟩

def firing : List Action := [.start 0 (.fire ⟨0,7,none⟩),.execute 0 0,.commit 0]

def openTab : State := ⟨[firstTab],[],[],fun _ => none⟩

theorem openTab_initial : Initial openTab := ⟨rfl,rfl,rfl⟩

/-- The first line is cancelled, then by header the ticket. -/
def cancelRun : List Action :=
  firing ++ [.start 0 (.kot ⟨0,7,some 0,.cancelled⟩),.execute 0 1,.execute 0 1,.execute 0 1,.execute 0 1,.commit 0,
    .start 0 (.kot ⟨0,7,none,.cancelled⟩),.execute 0 2,.execute 0 2,.execute 0 2,.commit 0]

def headers (s : State) : List (KotStatus × List KotStatus) := s.orders.map fun order => (order.status,order.statuses)

def cancelledTicket : State := (execute (within careful next) openTab cancelRun).getD openTab

def closeRun : List Action := [.start 0 (.cancelSale ⟨0,7,true⟩),.execute 0 3,.commit 0]

def closedTab : State := (execute (within careful next) cancelledTicket closeRun).getD openTab

/-- The ticket stays cancelled while its tab is cancelled. -/
theorem kot_headers_agree_cancelled :
    (∀ order ∈ cancelledTicket.orders, order.Agrees) ∧ headers cancelledTicket = [(.cancelled,[.cancelled,.cancelled])] ∧
      ∃ later, closedTab.orders[0]? = some later ∧ later.status = .cancelled := by
  have reached : Reachable Initial (OfNext (within careful next)) cancelledTicket :=
    ⟨openTab,cancelRun,openTab_initial,run_of_isSome openTab (by decide +kernel)⟩
  have run : Run (OfNext (within careful next)) cancelledTicket closeRun closedTab :=
    run_of_isSome openTab (by decide +kernel)
  have shown : headers cancelledTicket = [(.cancelled,[.cancelled,.cancelled])] := by decide +kernel
  obtain ⟨order,rest,listed,status,_⟩ := List.map_eq_cons_iff.mp shown
  obtain ⟨agrees,stays⟩ := kot_headers_agree reached run
  exact ⟨agrees,shown,stays 0 order (by simp [listed]) (Prod.ext_iff.mp status).1⟩

/-- The tab is cancelled while its ticket is pending. -/
def abandonRun : List Action := firing ++ [.start 0 (.cancelSale ⟨0,7,true⟩),.execute 0 1,.execute 0 1,.commit 0]

def prepareRun : List Action :=
  [.start 0 (.kot ⟨0,7,some 0,.preparing⟩),.execute 0 2,.execute 0 2,.execute 0 2,.execute 0 2,.commit 0]

def abandoned : State := (execute next openTab abandonRun).getD openTab

def revived : State := (execute next abandoned prepareRun).getD openTab

/-- The header then disagrees with the lines, and a line that is prepared makes the ticket active again. -/
theorem abandoned_ticket_revived :
    (¬∀ s, Reachable Initial (OfNext next) s → ∀ order ∈ s.orders, order.Agrees) ∧
      ¬∀ s t labels, Reachable Initial (OfNext next) s → Run (OfNext next) s labels t →
        ∀ (id : Nat) (order : KotOrder), s.orders[id]? = some order → order.status = .cancelled →
          ∃ later, t.orders[id]? = some later ∧ later.status = .cancelled := by
  have reached : Reachable Initial (OfNext next) abandoned :=
    ⟨openTab,abandonRun,openTab_initial,run_of_isSome openTab (by decide +kernel)⟩
  have before : headers abandoned = [(.cancelled,[.pending,.pending])] := by decide +kernel
  obtain ⟨order,rest,listed,status,_⟩ := List.map_eq_cons_iff.mp before
  have dead : order.status = .cancelled := (Prod.ext_iff.mp status).1
  have waiting : order.statuses = [.pending,.pending] := (Prod.ext_iff.mp status).2
  constructor
  · intro claim
    have agrees := claim abandoned reached order (by simp [listed])
    rw [KotOrder.Agrees,dead,waiting] at agrees
    revert agrees
    decide
  · intro claim
    have run : Run (OfNext next) abandoned prepareRun revived := run_of_isSome openTab (by decide +kernel)
    have after : headers revived = [(.pending,[.preparing,.pending])] := by decide +kernel
    obtain ⟨later,found,gone⟩ := claim abandoned revived prepareRun reached run 0 order (by simp [listed]) dead
    have alive := congrArg (·[0]?) after
    simp [headers,found,gone] at alive

end KitchenTickets
