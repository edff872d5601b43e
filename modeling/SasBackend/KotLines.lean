import SasBackend.KitchenTickets
import SasBackend.Semantics.KotLines

/-! A line of a kitchen ticket takes one allowed step at a time, unless its ticket is cancelled after it has been served.
-/
namespace KitchenTickets
open Transition
open Outcome (refuseIf refuseIf_ok)
open Service (HTTPException)

variable {order changed : KotOrder} {call : Call} {calls : List Call} {target : KotStatus} {line : KotOrderLine}
  {index : Nat} {now : Int}

/-- No active line is behind the header. -/
def Ahead (header : KotStatus) (statuses : List KotStatus) : Prop :=
  ∀ status ∈ statuses, status ≠ .cancelled → header ≠ .cancelled ∧ kotStatusPriority header ≤ kotStatusPriority status

theorem Fresh.ahead (fresh : Fresh order) : Ahead order.status order.statuses := by
  intro status member _
  obtain ⟨line,inside,rfl⟩ := List.mem_map.mp member
  simp [fresh.status,fresh.lines line inside]

theorem derived_ahead (statuses : List KotStatus) : Ahead (deriveKotHeaderStatus statuses) statuses := by
  intro status member living
  rcases derive_cases statuses with ⟨_,all⟩ | found
  · exact absurd (all status member) living
  · exact ⟨found.active,found.least status member living⟩

theorem updateKotOrderStatus_ok : updateKotOrderStatus order target now = .ok changed ↔
    isValidKotStatusTransition order.status target kotHeaderStatusTransitions = true ∧
      changed = applyHeaderTimestamps (pushDown { order with status := target } target) target now := by
  unfold updateKotOrderStatus
  rw [Outcome.bind_ok_iff]
  constructor
  · rintro ⟨_,checked,result⟩
    cases result
    exact ⟨by simpa using refuseIf_ok.mp checked,rfl⟩
  · rintro ⟨valid,rfl⟩
    exact ⟨(),by simp [refuseIf,valid],rfl⟩

/-- What becomes of a line when the header is set. -/
def pushed (target status : KotStatus) : KotStatus :=
  if target = .cancelled then .cancelled
  else if target ≠ .pending ∧ status ≠ .cancelled ∧ kotStatusPriority status < kotStatusPriority target then target
  else status

theorem pushDown_pushed : (pushDown order target).statuses = order.statuses.map (pushed target) := by
  rw [pushDown_statuses]
  split
  · next cancelled =>
    apply List.map_congr_left
    intro status _
    simp [pushed,cancelled]
  · next active =>
    split
    · next moved =>
      apply List.map_congr_left
      intro status _
      simp [pushed,active,moved]
    · next same =>
      simp only [not_not] at same
      have stays : pushed target = id := by
        funext status
        simp [pushed,same]
      rw [stays,List.map_id]

theorem header_pushed (done : updateKotOrderStatus order target now = .ok changed) :
    changed.status = target ∧ changed.statuses = order.statuses.map (pushed target) := by
  obtain ⟨_,rfl⟩ := updateKotOrderStatus_ok.mp done
  constructor
  · exact pushDown_status
  · exact pushDown_pushed

theorem pushed_ahead {statuses : List KotStatus} : Ahead target (statuses.map (pushed target)) := by
  intro status member living
  obtain ⟨old,_,rfl⟩ := List.mem_map.mp member
  revert living
  cases target <;> cases old <;> simp [pushed,kotStatusPriority]

theorem pushed_step {header status : KotStatus}
    (valid : isValidKotStatusTransition header target kotHeaderStatusTransitions = true)
    (ahead : status ≠ .cancelled → header ≠ .cancelled ∧ kotStatusPriority header ≤ kotStatusPriority status) :
    (pushed target status = status ∨ (kotLineStatusTransitions status).contains (pushed target status)) ↔
      ¬(target = .cancelled ∧ status = .served) := by
  cases header <;> cases target <;> cases status <;>
    simp_all [isValidKotStatusTransition,kotHeaderStatusTransitions,kotLineStatusTransitions,kotStatusPriority,pushed]

theorem cancels_served {header : KotStatus}
    (valid : isValidKotStatusTransition header .cancelled kotHeaderStatusTransitions = true)
    (active : header ≠ .cancelled) : [KotStatus.pending,.preparing,.ready].contains header = true := by
  cases header <;> simp_all [isValidKotStatusTransition,kotHeaderStatusTransitions]

theorem cancels_valid {header : KotStatus} (active : [KotStatus.pending,.preparing,.ready].contains header = true) :
    isValidKotStatusTransition header .cancelled kotHeaderStatusTransitions = true := by
  cases header <;> simp_all [isValidKotStatusTransition,kotHeaderStatusTransitions]

theorem findLine_ok : findLine order index = .ok line ↔ order.lines[index]? = some line := by
  unfold findLine
  split <;> simp_all

theorem line_set (done : updateKotOrderLineStatus order index target now = .ok changed) :
    ∃ line, order.lines[index]? = some line ∧
      isValidKotStatusTransition line.status target kotLineStatusTransitions = true ∧
      changed.lines = order.lines.set index { line with status := target } ∧
      changed.status = deriveKotHeaderStatus changed.statuses := by
  obtain ⟨line,found,rest⟩ := Outcome.bind_ok_iff.mp done
  obtain ⟨_,_,rest⟩ := Outcome.bind_ok_iff.mp rest
  obtain ⟨_,checked,result⟩ := Outcome.bind_ok_iff.mp rest
  cases result
  exact ⟨line,findLine_ok.mp found,by simpa using refuseIf_ok.mp checked,rfl,rfl⟩

theorem answer_ok : answer order call = .ok changed ↔ order.businessId = call.request.businessId ∧
    order.deletedAt = none ∧ call.request.apply order call.now = .ok changed := by
  unfold answer
  simp only [Outcome.bind_ok_iff,refuseIf_ok]
  simp

theorem served_ahead (ahead : Ahead order.status order.statuses) :
    Ahead (served order call).status (served order call).statuses := by
  unfold served
  split
  · next done =>
    obtain ⟨_,_,applied⟩ := answer_ok.mp done
    unfold KotRequest.apply at applied
    split at applied
    · obtain ⟨status,statuses⟩ := header_pushed applied
      rw [status,statuses]
      exact pushed_ahead
    · obtain ⟨_,_,_,_,derived⟩ := line_set applied
      rw [derived]
      exact derived_ahead _
  · exact ahead

theorem stepsOnce_refused {error : HTTPException} (refused : answer order call = .error error) : StepsOnce order call := by
  intro index line there
  exact ⟨line,by simp [served,refused,there],.inl rfl⟩

theorem stepsOnce_line (done : answer order call = .ok changed) (named : call.request.line = some index) :
    StepsOnce order call := by
  obtain ⟨_,_,applied⟩ := answer_ok.mp done
  simp only [KotRequest.apply,named] at applied
  obtain ⟨old,found,valid,lines,_⟩ := line_set applied
  intro place line there
  have after : (served order call).lines = order.lines.set index { old with status := call.request.newStatus } := by
    simp [served,done,lines]
  rw [after,List.getElem?_set]
  have inside : place < order.lines.length := (List.getElem?_eq_some_iff.mp there).1
  by_cases same : index = place
  · subst same
    cases found.symm.trans there
    refine ⟨{ old with status := call.request.newStatus },by simp [inside],?_⟩
    rw [isValidKotStatusTransition,Bool.or_eq_true,decide_eq_true_eq] at valid
    exact valid.imp_left Eq.symm
  · exact ⟨line,by simp [same,there],.inl rfl⟩

theorem stepsOnce_header (ahead : Ahead order.status order.statuses) (done : answer order call = .ok changed)
    (named : call.request.line = none) :
    StepsOnce order call ↔ ¬(call.request.newStatus = .cancelled ∧ .served ∈ order.statuses) := by
  obtain ⟨_,_,applied⟩ := answer_ok.mp done
  simp only [KotRequest.apply,named] at applied
  have valid := (updateKotOrderStatus_ok.mp applied).1
  have after : (served order call).statuses = order.statuses.map (pushed call.request.newStatus) := by
    simp [served,done,(header_pushed applied).2]
  have moved {place : Nat} {line : KotOrderLine} (there : order.lines[place]? = some line) :
      ∃ later, (served order call).lines[place]? = some later ∧ later.status = pushed call.request.newStatus line.status := by
    have here := congrArg (·[place]?) after
    simp only [KotOrder.statuses,List.getElem?_map,there,Option.map_some,Option.map_eq_some_iff] at here
    exact here
  have once {place : Nat} {line : KotOrderLine} (there : order.lines[place]? = some line) :=
    pushed_step valid (ahead line.status (List.mem_map_of_mem (List.mem_of_getElem? there)))
  constructor
  · rintro steps ⟨cancelled,inside⟩
    obtain ⟨line,member,status⟩ := List.mem_map.mp inside
    obtain ⟨place,there⟩ := List.mem_iff_getElem?.mp member
    obtain ⟨later,found,stepped⟩ := steps place line there
    obtain ⟨same,here,becomes⟩ := moved there
    cases found.symm.trans here
    exact (once there).mp (becomes ▸ stepped) ⟨cancelled,status⟩
  · intro spared place line there
    obtain ⟨later,here,becomes⟩ := moved there
    refine ⟨later,here,becomes ▸ (once there).mpr fun both => spared ⟨both.1,?_⟩⟩
    exact both.2 ▸ List.mem_map_of_mem (List.mem_of_getElem? there)

theorem stepsOnce_iff (ahead : Ahead order.status order.statuses) : StepsOnce order call ↔ spares order call = true := by
  cases done : answer order call with
  | error refusal =>
    refine iff_of_true (stepsOnce_refused done) ?_
    by_contra harmed
    simp only [spares,Bool.not_eq_true',Bool.not_eq_false,Bool.and_eq_true,decide_eq_true_eq,Option.isNone_iff_eq_none]
      at harmed
    obtain ⟨⟨⟨⟨⟨business,alive⟩,named⟩,cancelled⟩,active⟩,_⟩ := harmed
    obtain ⟨later,accepted⟩ : ∃ later, updateKotOrderStatus order .cancelled call.now = .ok later :=
      ⟨_,updateKotOrderStatus_ok.mpr ⟨cancels_valid active,rfl⟩⟩
    have applied : call.request.apply order call.now = .ok later := by
      simp only [KotRequest.apply,named,cancelled]
      exact accepted
    cases done.symm.trans (answer_ok.mpr ⟨business,alive,applied⟩)
  | ok changed =>
    obtain ⟨business,alive,applied⟩ := answer_ok.mp done
    cases named : call.request.line with
    | some index => exact iff_of_true (stepsOnce_line done named) (by simp [spares,named])
    | none =>
      rw [stepsOnce_header ahead done named]
      simp only [KotRequest.apply,named] at applied
      have valid := (updateKotOrderStatus_ok.mp applied).1
      rw [spares]
      simp only [business,alive,named,Option.isNone_none,decide_true,Bool.true_and,Bool.not_eq_true',
        Bool.and_eq_false_iff,decide_eq_false_iff_not,not_and]
      constructor
      · intro spared
        by_cases cancelled : call.request.newStatus = .cancelled
        · right
          simpa using spared cancelled
        · exact .inl (.inl cancelled)
      · rintro spared cancelled inside
        rcases spared with (other | closed) | none
        · exact other cancelled
        · have active := (ahead .served inside (by simp)).1
          have cancellable := cancels_served (cancelled ▸ valid) active
          rw [closed] at cancellable
          cases cancellable
        · simp [inside] at none

/-- From a fired ticket on, the lines step once at a time exactly along the calls that cancel no header over a served line. -/
theorem kot_lines_step_once (order : KotOrder) (calls : List Call) (fresh : Fresh order) :
    Along served StepsOnce order calls ↔ Along served (fun order call => spares order call = true) order calls := by
  have same (order : KotOrder) (call : Call) (ahead : Ahead order.status order.statuses) :
      StepsOnce order call ↔ spares order call = true := stepsOnce_iff ahead
  have preserved (order : KotOrder) (call : Call) (ahead : Ahead order.status order.statuses) (_ : StepsOnce order call) :
      Ahead (served order call).status (served order call).statuses := served_ahead ahead
  exact along_congr same preserved fresh.ahead

def twoLines : KotOrder := ⟨7,0,.pending,none,none,none,[⟨some 1,.pending⟩,⟨some 2,.pending⟩]⟩

theorem twoLines_fresh : Fresh twoLines where
  status := rfl
  lines := by simp [twoLines]

def headerTo (target : KotStatus) : Call := ⟨⟨0,7,none,target⟩,0⟩

def lineTo (index : Nat) (target : KotStatus) : Call := ⟨⟨0,7,some index,target⟩,0⟩

/-- The ticket is prepared by header, a line is cancelled, the other served. -/
theorem kot_lines_step_once_prepared :
    Along served StepsOnce twoLines [headerTo .preparing,lineTo 0 .cancelled,headerTo .ready,lineTo 1 .served] :=
  (kot_lines_step_once _ _ twoLines_fresh).mpr (by simp only [Along]; decide)

/-- The second line is served, then the header, still at the first line, is cancelled. -/
def cancelledLate : List Call := [lineTo 1 .preparing,lineTo 1 .ready,lineTo 1 .served,headerTo .cancelled]

theorem served_line_cancelled :
    ¬∀ (order : KotOrder) (calls : List Call), Fresh order → Along served StepsOnce order calls := by
  intro claim
  have last := (claim twoLines cancelledLate twoLines_fresh).2.2.2.1
  obtain ⟨later,found,stepped⟩ := last 1 ⟨some 2,.served⟩ (by decide)
  have after : (served (served (served (served twoLines (lineTo 1 .preparing)) (lineTo 1 .ready)) (lineTo 1 .served))
      (headerTo .cancelled)).lines[1]? = some ⟨some 2,.cancelled⟩ := by decide
  cases after.symm.trans found
  revert stepped
  decide

end KitchenTickets
