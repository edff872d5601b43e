import SasBackend.Library.Dependency
import SasBackend.SyncMirror

/-! The order in which a push runs its ops.
The first op in the request among those whose dependencies are answered is next; when there is none, the first
one left is answered as a cycle, whether it lies on one or only leads into one.
-/
namespace SyncPush
open Relation Dependency

variable {σ π η : Type} [DecidableEq η] {server : Server π η} {world : World σ π} {op : OpEnvelope π}
  {s t : State σ η} {inBatch : List Nat} {table : List (Processed σ π η)} {round : Processed σ π η}
  {remaining : List (Nat × OpEnvelope π)} {entries : List (Nat × OpEnvelope π)} {start : State σ η}
  {raws : List (RawOp π)} {raw : RawOp π}

def After (entries : List (Nat × OpEnvelope π)) (place : Nat) (opId : Nat) : Prop :=
  ∃ entry ∈ entries, entry.2.opId = opId ∧ place < entry.1

/-- Only an op on a cycle leads into a cycle through ops that all stand after it in the request. -/
def CyclesFirst (entries : List (Nat × OpEnvelope π)) : Prop :=
  ∀ entry ∈ entries, Entangled (Into (Waits entries) (After entries entry.1)) entry.2.opId →
    OnCycle (Waits entries) entry.2.opId

/-- No op on a cycle has been applied by an earlier push. -/
def CyclesUnapplied (entries : List (Nat × OpEnvelope π)) (ops : Nat → Option (SyncOp η)) : Prop :=
  ∀ opId, OnCycle (Waits entries) opId → ∀ row, ops opId = some row → row.status ≠ .applied

open Classical in
/-- The request without the ops on cycles. -/
noncomputable def withoutCycles (server : Server π η) (raws : List (RawOp π)) : List (RawOp π) :=
  raws.filter fun raw => !decide (∃ op, parseOp server raw = .ok op ∧
    OnCycle (Waits (firstOps server 0 [] raws)) op.opId)

/-- Two rounds run one op in the same way. -/
def RunAlike (round other : Processed σ π η) : Prop :=
  round.op = other.op ∧ round.cyclic = other.cyclic ∧ round.before = other.before ∧ round.after = other.after ∧
    round.result = other.result ∧ round.committed = other.committed

open Classical in
/-- The rounds of the ops that no cycle keeps waiting. -/
noncomputable def freeRounds (entries : List (Nat × OpEnvelope π)) (table : List (Processed σ π η)) :
    List (Processed σ π η) :=
  table.filter fun round => !decide (Entangled (Waits entries) round.op.opId)

/-- The rounds and the answers of a push. -/
structure Scheduled (server : Server π η) (world : World σ π) (raws : List (RawOp π)) (s : State σ η) : Prop where
  terminates : ∀ fuel, (firstOps server 0 [] raws).length ≤ fuel →
    processOps server world (opIds (firstOps server 0 [] raws)) fuel (firstOps server 0 [] raws) [] s =
      ((processPush server world raws s).table,(processPush server world raws s).state)
  once : ((processPush server world raws s).table.map entryOf).Perm (firstOps server 0 [] raws)
  distinct : (opIds (firstOps server 0 [] raws)).Nodup
  inOrder : (processPush server world raws s).answers.map Answer.raw = raws
  answered : ∀ answer ∈ (processPush server world raws s).answers, match parseOp server answer.raw with
    | .error result => answer.result = result
    | .ok op => ∃ round ∈ (processPush server world raws s).table, round.op.opId = op.opId ∧
      (answer.result = round.result ∨ answer.result = copyOf round.result)
  dependenciesFirst : ∀ earlier round later, (processPush server world raws s).table = earlier ++ round :: later →
    round.cyclic = false → ∀ dep, Waits (firstOps server 0 [] raws) round.op.opId dep →
      dep ∈ earlier.map (·.op.opId)
  onlyCycles : ∀ round ∈ (processPush server world raws s).table, round.cyclic = true →
    OnCycle (Waits (firstOps server 0 [] raws)) round.op.opId
  undisturbed : List.Forall₂ RunAlike
    (freeRounds (firstOps server 0 [] raws) (processPush server world raws s).table)
    (freeRounds (firstOps server 0 [] raws) (processPush server world (withoutCycles server raws) s).table)

/-- The batch when a round begins: what is left is in request order. -/
structure Moment (server : Server π η) (world : World σ π) (entries : List (Nat × OpEnvelope π)) (start : State σ η)
    (table : List (Processed σ π η)) (round : Processed σ π η) where
  first : Nat × OpEnvelope π
  rest : List (Nat × OpEnvelope π)
  state : State σ η
  batch : Batch server world entries start (first :: rest) table state
  ordered : (first :: rest).Sublist entries
  made : round = processRound server world (opIds entries) first (first :: rest) table state

theorem processOps_moment (fuel : Nat) : ∀ {remaining : List (Nat × OpEnvelope π)} {table : List (Processed σ π η)}
    {s : State σ η}, Batch server world entries start remaining table s → remaining.Sublist entries →
      ∀ place round, table.length ≤ place →
        (processOps server world (opIds entries) fuel remaining table s).1[place]? = some round →
          Nonempty (Moment server world entries start
            ((processOps server world (opIds entries) fuel remaining table s).1.take place) round) := by
  induction fuel with
  | zero =>
    intro remaining table s _ _ place round beyond found
    rw [processOps_zero,List.getElem?_eq_none beyond] at found
    cases found
  | succ fuel induction =>
    intro remaining table s batch ordered place round beyond found
    cases remaining with
    | nil =>
      rw [processOps_nil,List.getElem?_eq_none beyond] at found
      cases found
    | cons first rest =>
      rw [processOps] at found ⊢
      generalize made : processRound server world (opIds entries) first (first :: rest) table s = new at found ⊢
      rcases Nat.eq_or_lt_of_le beyond with rfl | beyond
      · obtain ⟨rounds,split,-⟩ := processOps_chain server world (opIds entries) fuel
          ((first :: rest).eraseP (·.1 = new.index)) (table ++ [new]) new.after
        rw [split,List.append_assoc] at found ⊢
        rw [List.getElem?_append_right (Nat.le_refl _),Nat.sub_self] at found
        cases found
        rw [List.take_left]
        exact ⟨⟨first,rest,s,batch,ordered,made.symm⟩⟩
      · have member := processRound_mem server world (opIds entries) table s (List.mem_cons_self : first ∈ first :: rest)
        rw [made] at member
        have answered : Answered server world new := made ▸ processRound_answered
        have found_ : new.before.ops = s.ops := made ▸ processRound_start.1
        refine induction (batch.step answered found_ member) (List.eraseP_sublist.trans ordered) place round ?_ found
        rw [List.length_append]
        exact beyond

theorem Moment.cases (moment : Moment server world entries start table round) :
    round.cyclic = true ∧ entryOf round = moment.first ∧
        (∀ entry ∈ moment.first :: moment.rest, ∃ dep, Waits entries entry.2.opId dep ∧
          dep ∉ table.map (·.op.opId)) ∨
      round.cyclic = false ∧ entryOf round ∈ moment.first :: moment.rest ∧ Ready entries table (entryOf round) := by
  obtain ⟨first,rest,state,batch,ordered,rfl⟩ := moment
  have within_ : ∀ entry ∈ first :: rest, entry ∈ entries := fun _ member => ordered.subset member
  dsimp only
  unfold processRound
  split
  · next stuck => exact .inl ⟨rfl,rfl,pick_none batch.opIds within_ stuck⟩
  · next picked =>
    have chosen := pick_ready batch.opIds within_ picked
    split <;> exact .inr ⟨rfl,chosen⟩

theorem Moment.left (moment : Moment server world entries start table round) {entry : Nat × OpEnvelope π}
    (member : entry ∈ entries) (unanswered : entry.2.opId ∉ table.map (·.op.opId)) :
    entry ∈ moment.first :: moment.rest := by
  rcases List.mem_append.mp (moment.batch.split.symm.subset member) with done | left
  · obtain ⟨other,answered,rfl⟩ := List.mem_map.mp done
    exact absurd (List.mem_map_of_mem answered) unanswered
  · exact left

omit [DecidableEq η] in
theorem firstOps_ordered (server : Server π η) (raws : List (RawOp π)) : ∀ (index : Nat) (seen : List Nat),
    (firstOps server index seen raws).Pairwise (·.1 < ·.1) := by
  induction raws with
  | nil => exact fun _ _ => .nil
  | cons raw rest induction =>
    intro index seen
    rw [firstOps]
    split
    · exact induction (index + 1) seen
    · split
      · exact induction (index + 1) seen
      · exact .cons (fun entry member => (mem_firstOps member).1) (induction (index + 1) _)

/-- What is answered as a cycle lies on one, or leads into one that stands after it. -/
theorem Moment.entangled (moment : Moment server world entries start table round) (cyclic : round.cyclic = true)
    (ordered : entries.Pairwise (·.1 < ·.1)) (open_ : ¬OnCycle (Waits entries) round.op.opId) :
    Entangled (Into (Waits entries) (After entries round.index)) round.op.opId := by
  rcases moment.cases with ⟨-,same,waiting⟩ | ⟨acyclic,-⟩
  · let left : Finset Nat := (opIds (moment.first :: moment.rest)).toFinset
    have next : ∀ opId ∈ left, ∃ dep ∈ left, Waits entries opId dep := by
      intro opId member
      obtain ⟨entry,there,rfl⟩ := List.mem_map.mp (List.mem_toFinset.mp member)
      obtain ⟨dep,waits,unanswered⟩ := waiting entry there
      have inside : dep ∈ opIds entries := waits.choose_spec.2.2.2.1
      obtain ⟨other,listed,rfl⟩ := List.mem_map.mp inside
      exact ⟨_,List.mem_toFinset.mpr (List.mem_map_of_mem (moment.left listed unanswered)),waits⟩
    have opId : round.op.opId = moment.first.2.opId := congrArg (·.2.opId) same
    have index : round.index = moment.first.1 := congrArg Prod.fst same
    have head : round.op.opId ∈ left := by
      rw [opId]
      exact List.mem_toFinset.mpr List.mem_cons_self
    refine (entangled_of_forall_exists left next head).avoid open_ fun dep member other => ?_
    obtain ⟨entry,there,rfl⟩ := List.mem_map.mp (List.mem_toFinset.mp member)
    rcases List.mem_cons.mp there with rfl | later
    · exact absurd opId.symm other
    · refine ⟨entry,moment.ordered.subset there,rfl,?_⟩
      rw [index]
      exact List.rel_of_pairwise_cons (ordered.sublist moment.ordered) later
  · rw [acyclic] at cyclic
    cases cyclic

/-- An op that leads into a cycle standing after it is answered as a cycle. -/
theorem entangled_cyclic (moments : ∀ place round, table[place]? = some round →
    Nonempty (Moment server world entries start (table.take place) round)) (ordered : entries.Pairwise (·.1 < ·.1))
    (distinct : (opIds entries).Nodup) {entry : Nat × OpEnvelope π} (member : entry ∈ entries)
    (entangled : Entangled (Into (Waits entries) (After entries entry.1)) entry.2.opId) (place : Nat) :
    ∀ round, table[place]? = some round → (round.op.opId = entry.2.opId ∨ After entries entry.1 round.op.opId) →
      Entangled (Into (Waits entries) (After entries entry.1)) round.op.opId →
        ∃ round ∈ table, round.op.opId = entry.2.opId ∧ round.cyclic = true := by
  induction place using Nat.strongRecOn with
  | ind place induction =>
    intro round found stands entangled'
    have earlier {opId : Nat} (answered : opId ∈ (table.take place).map (·.op.opId))
        (stands : opId = entry.2.opId ∨ After entries entry.1 opId)
        (entangled : Entangled (Into (Waits entries) (After entries entry.1)) opId) :
        ∃ round ∈ table, round.op.opId = entry.2.opId ∧ round.cyclic = true := by
      obtain ⟨other,inside,rfl⟩ := List.mem_map.mp answered
      obtain ⟨before,at_⟩ := List.mem_iff_getElem?.mp inside
      have bound : before < place := by
        by_contra beyond
        rw [List.getElem?_take_eq_none (Nat.le_of_not_lt beyond)] at at_
        cases at_
      rw [List.getElem?_take_of_lt bound] at at_
      exact induction before bound other at_ stands entangled
    obtain ⟨moment⟩ := moments place round found
    rcases moment.cases with ⟨cyclic,same,-⟩ | ⟨-,-,free⟩
    · by_cases itself : round.op.opId = entry.2.opId
      · exact ⟨round,List.mem_of_getElem? found,itself,cyclic⟩
      · by_cases answered : entry.2.opId ∈ (table.take place).map (·.op.opId)
        · exact earlier answered (.inl rfl) entangled
        · obtain ⟨other,listed,named,after⟩ := stands.resolve_left itself
          have first : other = moment.first := by
            refine List.inj_on_of_nodup_map distinct listed (moment.ordered.subset List.mem_cons_self) ?_
            rw [named,← same]
            rfl
          rcases List.mem_cons.mp (moment.left member answered) with here | later
          · rw [first,here] at after
            exact absurd after (Nat.lt_irrefl _)
          · have before := List.rel_of_pairwise_cons (ordered.sublist moment.ordered) later
            rw [first] at after
            omega
    · obtain ⟨dep,edge,later⟩ := entangled'.next
      exact earlier (free dep edge.1) (.inr edge.2) later

omit [DecidableEq η] in
theorem apart_entangled (distinct : (opIds entries).Nodup) (ops : Nat → Option (SyncOp η)) :
    Apart entries ops (Entangled (Waits entries)) fun _ => False where
  refused := by
    intro entry member entangled
    obtain ⟨dep,waits,entangled'⟩ := entangled.next
    exact .inr ⟨dep,((waits_iff distinct member).mp waits).1,.inl ⟨waits,entangled'⟩⟩
  closed := fun _ _ good _ waits entangled => good (entangled.head waits)
  unread := fun _ _ _ _ _ => id
  within_ := fun _ => False.elim

omit [DecidableEq η] in
/-- Without the ops on cycles, what depended on one waits for an op never applied. -/
theorem apart_withoutCycles {ops : Nat → Option (SyncOp η)} (unapplied : CyclesUnapplied (firstOps server 0 [] raws) ops) :
    Apart (firstOps server 0 [] (withoutCycles server raws)) ops (Entangled (Waits (firstOps server 0 [] raws)))
      fun _ => False := by
  have distinct : (opIds (firsts server raws)).Nodup := (firstOps_nodup server raws 0 []).2
  have distinct' : (opIds (firsts server (withoutCycles server raws))).Nodup := (firstOps_nodup server _ 0 []).2
  have named (opId : Nat) : opId ∈ opIds (firsts server (withoutCycles server raws)) ↔
      opId ∈ opIds (firsts server raws) ∧ ¬OnCycle (Waits (firsts server raws)) opId := mem_without_opIds opId
  refine ⟨fun entry member entangled => .inr ?_,fun entry member good dep waits entangled => ?_,fun _ _ _ _ _ => id,
    fun _ => False.elim⟩
  · obtain ⟨other,listed,same⟩ : ∃ other ∈ firsts server raws, other.2 = entry.2 := without_original member
    obtain ⟨dep,waits,entangled'⟩ := entangled.next
    have depends := ((waits_iff distinct listed).mp (same ▸ waits)).1
    rw [same] at depends
    refine ⟨dep,depends,?_⟩
    by_cases cycle : OnCycle (Waits (firsts server raws)) dep
    · exact .inr ⟨fun inside => ((named dep).mp inside).2 cycle,unapplied dep cycle⟩
    · have inside : dep ∈ opIds (firsts server raws) := waits.choose_spec.2.2.2.1
      have itself : dep ≠ entry.2.opId := waits.choose_spec.2.2.2.2
      exact .inl ⟨(waits_iff distinct' member).mpr ⟨depends,(named dep).mpr ⟨inside,cycle⟩,itself⟩,entangled'⟩
  · have lifted : Waits (firsts server raws) entry.2.opId dep := without_waits waits
    exact good (entangled.head lifted)

omit [DecidableEq η] in
private theorem runAlike {first second : List (Processed σ π η)} (alike : List.Forall₂ (Alike fun _ => False) first second) :
    List.Forall₂ RunAlike first second := by
  have whole {s t : State σ η} (agree : Agree (fun _ => False) s t) : s = t := by
    obtain ⟨rows,ops⟩ := s
    obtain ⟨rows',ops'⟩ := t
    obtain rfl : rows = rows' := agree.rows
    obtain rfl : ops = ops' := funext fun opId => agree.ops opId id
    rfl
  exact alike.imp fun round other same =>
    ⟨same.op,same.cyclic,whole same.before,whole same.after,same.result,same.committed⟩

open Classical in
theorem free_undisturbed (server : Server π η) (world : World σ π) (raws : List (RawOp π)) (s : State σ η)
    (unapplied : CyclesUnapplied (firstOps server 0 [] raws) s.ops) : List.Forall₂ RunAlike
      (freeRounds (firstOps server 0 [] raws) (processPush server world raws s).table)
      (freeRounds (firstOps server 0 [] raws) (processPush server world (withoutCycles server raws) s).table) := by
  refine runAlike ?_
  exact undisturbed server world raws s (fun _ => OnCycle.entangled) (apart_entangled (firstOps_nodup server raws 0 []).2 s.ops)
    (apart_withoutCycles unapplied) (fun _ _ => False.elim) fun _ _ => False.elim

theorem processOps_fuel (server : Server π η) (world : World σ π) (inBatch : List Nat) (fuel : Nat) :
    ∀ (more : Nat) (remaining : List (Nat × OpEnvelope π)) (table : List (Processed σ π η)) (s : State σ η),
      remaining.length ≤ fuel → fuel ≤ more →
        processOps server world inBatch more remaining table s = processOps server world inBatch fuel remaining table s := by
  induction fuel with
  | zero =>
    intro more remaining table s short _
    obtain rfl := List.length_eq_zero_iff.mp (Nat.le_zero.mp short)
    cases more <;> rfl
  | succ fuel induction =>
    intro more remaining table s short enough
    cases remaining with
    | nil => cases more <;> rfl
    | cons first rest =>
      obtain ⟨more,rfl⟩ := Nat.exists_eq_succ_of_ne_zero (Nat.ne_of_gt (Nat.lt_of_lt_of_le fuel.succ_pos enough))
      rw [processOps,processOps]
      refine induction more _ _ _ ?_ (Nat.le_of_succ_le_succ enough)
      have member := processRound_mem server world inBatch table s (List.mem_cons_self : first ∈ first :: rest)
      rw [List.length_eraseP_of_mem member (by simp)]
      exact Nat.sub_le_of_le_add short

theorem processPush_moment (server : Server π η) (world : World σ π) (raws : List (RawOp π)) (s : State σ η) {place : Nat}
    (found : (processPush server world raws s).table[place]? = some round) :
    Nonempty (Moment server world (firstOps server 0 [] raws) s ((processPush server world raws s).table.take place) round) := by
  obtain ⟨places,distinct⟩ := firstOps_nodup server raws 0 []
  exact processOps_moment _ (.initial places distinct) (List.Sublist.refl _) place round (Nat.zero_le place) found

theorem dependencies_first {earlier later : List (Processed σ π η)}
    (split : (processPush server world raws s).table = earlier ++ round :: later) (acyclic : round.cyclic = false)
    {dep : Nat} (waits : Waits (firstOps server 0 [] raws) round.op.opId dep) : dep ∈ earlier.map (·.op.opId) := by
  have found : (processPush server world raws s).table[earlier.length]? = some round := by
    rw [split,List.getElem?_append_right (Nat.le_refl _),Nat.sub_self]
    rfl
  obtain ⟨moment⟩ := processPush_moment server world raws s found
  rcases moment.cases with ⟨cyclic,-⟩ | ⟨-,-,free⟩
  · rw [acyclic] at cyclic
    cases cyclic
  · have answered := free dep waits
    rw [split,List.take_left] at answered
    exact answered

theorem only_cycles_iff (server : Server π η) (world : World σ π) (raws : List (RawOp π)) (s : State σ η) :
    (∀ round ∈ (processPush server world raws s).table, round.cyclic = true →
      OnCycle (Waits (firstOps server 0 [] raws)) round.op.opId) ↔ CyclesFirst (firstOps server 0 [] raws) := by
  have batch := processPush_batch server world raws s
  have ordered := firstOps_ordered server raws 0 []
  constructor
  · intro only entry member entangled
    have listed := batch.split.symm.subset member
    rw [List.append_nil] at listed
    obtain ⟨own,there,rfl⟩ := List.mem_map.mp listed
    obtain ⟨place,found⟩ := List.mem_iff_getElem?.mp there
    obtain ⟨round,blamed,same,cyclic⟩ := entangled_cyclic (fun _ _ found => processPush_moment server world raws s found)
      ordered batch.opIds member entangled place own found (.inl rfl) entangled
    exact same ▸ only round blamed cyclic
  · intro first round member cyclic
    by_contra open_
    obtain ⟨place,found⟩ := List.mem_iff_getElem?.mp member
    obtain ⟨moment⟩ := processPush_moment server world raws s found
    have listed := batch.split.subset (List.mem_append_left [] (List.mem_map_of_mem (f := entryOf) member))
    exact open_ (first (entryOf round) listed (moment.entangled cyclic ordered open_))

omit [DecidableEq η] in
private theorem answers_inOrder (raws : List (RawOp π)) (table : List (Processed σ π η)) (s : State σ η) :
    (raws.mapIdx (answerOf server table s)).map Answer.raw = raws := by
  refine List.ext_getElem (by simp) fun place _ _ => ?_
  rw [List.getElem_map,List.getElem_mapIdx]
  exact answerOf_raw place

private theorem answers_rounds (batch : Batch server world (firstOps server 0 [] raws) start [] table s)
    {answer : Answer σ π η} (member : answer ∈ raws.mapIdx (answerOf server table s)) :
    match parseOp server answer.raw with
    | .error result => answer.result = result
    | .ok op => ∃ round ∈ table, round.op.opId = op.opId ∧
      (answer.result = round.result ∨ answer.result = copyOf round.result) := by
  obtain ⟨place,found,same⟩ := mem_answers member
  cases parsed : parseOp server answer.raw with
  | error result =>
    rw [same,batch.answerOf_malformed found parsed]
  | ok op =>
    obtain ⟨round,there,opId,⟨-,own⟩ | ⟨-,copy⟩⟩ := batch.answerOf_cases found parsed
    · exact ⟨round,there,opId,.inl (by rw [same,own])⟩
    · exact ⟨round,there,opId,.inr (by rw [same,copy])⟩

/-- A push is scheduled as its rules say exactly when each cycle stands before what leads into it. -/
theorem push_schedule (server : Server π η) (world : World σ π) (raws : List (RawOp π)) (s : State σ η)
    (unapplied : CyclesUnapplied (firstOps server 0 [] raws) s.ops) :
    Scheduled server world raws s ↔ CyclesFirst (firstOps server 0 [] raws) := by
  refine ⟨fun scheduled => (only_cycles_iff server world raws s).mp scheduled.onlyCycles,fun first => ?_⟩
  have batch := processPush_batch server world raws s
  have once := batch.split
  rw [List.append_nil] at once
  exact {
    terminates := fun fuel enough => processOps_fuel server world _ _ fuel _ _ _ (Nat.le_refl _) enough
    once := once
    distinct := batch.opIds
    inOrder := answers_inOrder raws _ _
    answered := fun answer member => answers_rounds batch member
    dependenciesFirst := fun earlier round later split acyclic dep waits => dependencies_first split acyclic waits
    onlyCycles := (only_cycles_iff server world raws s).mpr first
    undisturbed := free_undisturbed server world raws s unapplied }

private def crossed : List (RawOp Unit) := [.valid (saleOp 1 [2]),.valid (saleOp 2 [1]),.valid (saleOp 3 [1])]

/-- Two sales that wait for each other, and a third that waits for the first. -/
theorem push_schedule_crossed : Scheduled settings cashier crossed fresh := by
  have firsts_ : firstOps settings 0 [] crossed = [(0,saleOp 1 [2]),(1,saleOp 2 [1]),(2,saleOp 3 [1])] := by decide
  refine (push_schedule settings cashier crossed fresh fun _ _ row known => nomatch known).mpr ?_
  rw [firsts_]
  have there : Waits [(0,saleOp 1 [2]),(1,saleOp 2 [1]),(2,saleOp 3 [1])] 1 2 := ⟨(0,saleOp 1 [2]),by decide⟩
  have back : Waits [(0,saleOp 1 [2]),(1,saleOp 2 [1]),(2,saleOp 3 [1])] 2 1 := ⟨(1,saleOp 2 [1]),by decide⟩
  intro entry member entangled
  simp only [List.mem_cons,List.not_mem_nil,or_false] at member
  obtain rfl | rfl | rfl := member
  · exact .tail (.single there) back
  · exact .tail (.single back) there
  · obtain ⟨dep,edge,-⟩ := entangled.next
    obtain ⟨other,listed,-,later⟩ := edge.2
    simp only [List.mem_cons,List.not_mem_nil,or_false] at listed
    obtain rfl | rfl | rfl := listed <;> simp at later

private def leading : List (RawOp Unit) := [.valid (saleOp 3 [1]),.valid (saleOp 1 [2]),.valid (saleOp 2 [1])]

/-- A sale that waits for the first of two that wait for each other is answered as a cycle when it stands first. -/
theorem leading_sale_blamed : ¬Scheduled settings cashier leading fresh := by
  intro scheduled
  have firsts_ : firstOps settings 0 [] leading = [(0,saleOp 3 [1]),(1,saleOp 1 [2]),(2,saleOp 2 [1])] := by decide
  have blamed : ∃ round ∈ (processPush settings cashier leading fresh).table, round.op.opId = 3 ∧ round.cyclic = true := by
    refine ⟨_,List.mem_cons_self,?_⟩
    decide
  obtain ⟨round,member,same,cyclic⟩ := blamed
  have cycle := scheduled.onlyCycles round member cyclic
  rw [same,firsts_] at cycle
  obtain ⟨opId,-,entry,listed,-,depends,-⟩ := Relation.TransGen.tail'_iff.mp cycle
  simp only [List.mem_cons,List.not_mem_nil,or_false] at listed
  obtain rfl | rfl | rfl := listed <;> simp [saleOp] at depends

end SyncPush
