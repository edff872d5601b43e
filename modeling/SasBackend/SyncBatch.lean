import Mathlib.Data.List.Forall2
import SasBackend.SyncPush

/-! A batch push against the same ops pushed one request each.
A round of the batch and the op pushed alone run the same transaction whenever the answers kept for the batch
are those of the log.
-/
namespace SyncPush

variable {σ π η : Type} [DecidableEq η] {server : Server π η} {world : World σ π} {op : OpEnvelope π}
  {s t : State σ η} {inBatch : List Nat} {table : List (Processed σ π η)} {round : Processed σ π η}
  {remaining : List (Nat × OpEnvelope π)} {entries : List (Nat × OpEnvelope π)} {start : State σ η}
  {raws : List (RawOp π)} {raw : RawOp π}

/-- One request for each entry, in this order. -/
def oneByOne (server : Server π η) (world : World σ π) : List (RawOp π) → State σ η → List Result × State σ η
  | [], s => ([],s)
  | raw :: rest, s =>
    let pushed := processPush server world [raw] s
    let later := oneByOne server world rest pushed.state
    (pushed.answers.map Answer.result ++ later.1,later.2)

/-- The places of the request in the order the batch answers them. -/
def schedule (table : List (Processed σ π η)) (raws : List (RawOp π)) : List Nat :=
  table.map Processed.index ++ (List.range raws.length).filter fun place => !(table.map Processed.index).contains place

def SameVerdict (batch alone : Result) : Prop :=
  batch.accepted = alone.accepted ∧
    if batch.accepted then batch.serverId = alone.serverId ∧ batch.officialNumber = alone.officialNumber
    else batch.retryable = alone.retryable

def resultAt (answers : List (Answer σ π η)) (place : Nat) : Option Result := answers[place]?.map Answer.result

/-- The batch leaves the rows and gives the verdicts of the single pushes. -/
def EqualsOneByOne (server : Server π η) (world : World σ π) (raws : List (RawOp π)) (s : State σ η) : Prop :=
  let pushed := processPush server world raws s
  let order := schedule pushed.table raws
  let alone := oneByOne server world (order.filterMap (raws[·]?)) s
  pushed.state.rows = alone.2.rows ∧
    List.Forall₂ SameVerdict (order.filterMap (resultAt pushed.answers)) alone.1

/-- Dependencies inside the request follow some order of the op ids. -/
def Acyclic (entries : List (Nat × OpEnvelope π)) : Prop :=
  ∃ rank : Nat → Nat, ∀ entry ∈ entries, ∀ dep ∈ entry.2.dependsOn, dep ∈ entries.map (·.2.opId) →
    dep ≠ entry.2.opId → rank dep < rank entry.2.opId

theorem SameVerdict.refl (result : Result) : SameVerdict result result := by
  unfold SameVerdict
  split <;> simp

/-- Without a cycle some op can always be picked: one of least rank. -/
theorem pick_isSome {first : Nat × OpEnvelope π} (batch : Batch server world entries start remaining table s)
    (acyclic : Acyclic entries) (some_ : first ∈ remaining) :
    (pick (entries.map (·.2.opId)) table remaining).isSome := by
  obtain ⟨rank,ranked⟩ := acyclic
  by_contra none_
  have stuck := List.find?_eq_none.mp (Option.not_isSome_iff_eq_none.mp none_)
  have descend : ∀ n, ∀ entry ∈ remaining, rank entry.2.opId = n → False := by
    intro n
    induction n using Nat.strongRecOn with
    | ind n induction =>
      intro entry member size
      have waits := stuck entry member
      simp only [List.all_eq_true,not_forall,Bool.or_eq_true,not_or,Bool.not_eq_true',Bool.and_eq_false_iff,
        exists_prop,Option.isSome_iff_ne_none,not_not] at waits
      obtain ⟨dep,depends,⟨inside,other⟩,unanswered⟩ := waits
      have inside' : dep ∈ entries.map (·.2.opId) := by simpa using inside
      obtain ⟨entry',listed,rfl⟩ := List.mem_map.mp inside'
      have lower := ranked entry (batch.split.subset (List.mem_append_right _ member)) _ depends inside' (by simpa using other)
      rcases List.mem_append.mp (batch.split.symm.subset listed) with done | left
      · obtain ⟨round,answered,same⟩ := List.mem_map.mp done
        have found := List.find?_eq_none.mp (Option.map_eq_none_iff.mp unanswered) round answered
        rw [← same] at found
        exact found (decide_eq_true rfl)
      · exact induction _ (size ▸ lower) entry' left rfl
  exact descend _ first some_ rfl

theorem processOps_acyclic (acyclic : Acyclic entries) (fuel : Nat) : ∀ {remaining : List (Nat × OpEnvelope π)}
    {table : List (Processed σ π η)} {s : State σ η}, Batch server world entries start remaining table s →
      ∀ round ∈ (processOps server world (entries.map (·.2.opId)) fuel remaining table s).1,
        round ∈ table ∨ round.cyclic = false := by
  induction fuel with
  | zero => exact fun _ round member => .inl member
  | succ fuel induction =>
    intro remaining table s batch round member
    cases remaining with
    | nil => exact .inl member
    | cons first rest =>
      have listed : first ∈ first :: rest := List.mem_cons_self
      have fresh : (processRound server world (entries.map (·.2.opId)) first (first :: rest) table s).cyclic = false := by
        obtain ⟨picked,same⟩ := Option.isSome_iff_exists.mp (pick_isSome batch acyclic listed)
        unfold processRound
        rw [same]
        dsimp only
        split <;> rfl
      have step := batch.step processRound_answered processRound_start.1
        (processRound_mem server world (entries.map (·.2.opId)) table s listed)
      rcases induction step round member with older | later
      · rcases List.mem_append.mp older with older | new
        · exact .inl older
        · rw [List.mem_singleton.mp new]
          exact .inr fresh
      · exact .inr later

/-- What the batch knows of the op's dependencies is what the log says. -/
def FromLog (round : Processed σ π η) : Prop := Agrees round.batch round.before.ops round.op.dependsOn

/-- A round leaves what the op leaves when it is pushed alone. -/
theorem processRound_alone {first : Nat × OpEnvelope π}
    (acyclic : (processRound server world inBatch first remaining table s).cyclic = false)
    (fromLog : FromLog (processRound server world inBatch first remaining table s)) :
    ∃ op, (processRound server world inBatch first remaining table s).op = op ∧
      (roundAlone server world op s).after = (processRound server world inBatch first remaining table s).after ∧
      SameVerdict (processRound server world inBatch first remaining table s).result
        (roundAlone server world op s).result := by
  revert acyclic fromLog
  unfold processRound
  cases pick inBatch table remaining with
  | none => exact nofun
  | some entry =>
    obtain ⟨index,op⟩ := entry
    dsimp only
    unfold roundAlone
    cases stops : dependencyError s.ops (byOpId table) op.dependsOn with
    | some error =>
      intro _ fromLog
      refine ⟨op,?_⟩
      have blocked := Agrees.blocked fromLog
      dsimp only at blocked
      rw [stops] at blocked
      obtain ⟨error',stops',same⟩ := Option.map_eq_some_iff.mp blocked.symm
      rw [stops']
      exact ⟨rfl,rfl,rfl,same.symm⟩
    | none =>
      intro _ fromLog
      refine ⟨op,?_⟩
      have blocked := Agrees.blocked fromLog
      dsimp only at blocked
      rw [stops] at blocked
      rw [Option.map_eq_none_iff.mp blocked.symm]
      exact ⟨rfl,rfl,SameVerdict.refl _⟩

/-- Rounds that the single pushes of their ops retrace from `s` to `t`. -/
inductive Chain (server : Server π η) (world : World σ π) : State σ η → List (Processed σ π η) → State σ η → Prop
  | nil (s : State σ η) : Chain server world s [] s
  | cons {s t : State σ η} {round : Processed σ π η} {rest : List (Processed σ π η)}
      (same : SameVerdict round.result (roundAlone server world round.op s).result)
      (later : Chain server world (roundAlone server world round.op s).after rest t) :
      Chain server world s (round :: rest) t

theorem processOps_chain (server : Server π η) (world : World σ π) (inBatch : List Nat) (fuel : Nat) : ∀ (remaining : List (Nat × OpEnvelope π)) (table : List (Processed σ π η))
    (s : State σ η), ∃ rounds, (processOps server world inBatch fuel remaining table s).1 = table ++ rounds ∧
      ((∀ round ∈ rounds, round.cyclic = false ∧ FromLog round) →
        Chain server world s rounds (processOps server world inBatch fuel remaining table s).2) := by
  induction fuel with
  | zero => exact fun _ _ s => ⟨[],(List.append_nil _).symm,fun _ => .nil s⟩
  | succ fuel induction =>
    intro remaining table s
    cases remaining with
    | nil => exact ⟨[],(List.append_nil _).symm,fun _ => .nil s⟩
    | cons first rest =>
      rw [processOps]
      generalize made : processRound server world inBatch first (first :: rest) table s = round
      obtain ⟨rounds,split,chain⟩ := induction ((first :: rest).eraseP (·.1 = round.index)) (table ++ [round]) round.after
      refine ⟨round :: rounds,?_,fun conditions => ?_⟩
      · rw [split,List.append_assoc]
        rfl
      · obtain ⟨⟨acyclic,fromLog⟩,others⟩ := List.forall_mem_cons.mp conditions
        rw [← made] at acyclic fromLog
        obtain ⟨op,same,after,verdict⟩ := processRound_alone acyclic fromLog
        rw [made] at same after verdict
        rw [← same] at after verdict
        refine .cons verdict ?_
        rw [after]
        exact chain others

theorem Chain.alone {rounds : List (Processed σ π η)} (chain : Chain server world s rounds t) :
    ∀ {raws : List (RawOp π)}, List.Forall₂ (fun round raw => parseOp server raw = .ok round.op) rounds raws →
      (oneByOne server world raws s).2 = t ∧
        List.Forall₂ SameVerdict (rounds.map Processed.result) (oneByOne server world raws s).1 := by
  induction chain with
  | nil s =>
    intro raws parsed
    cases parsed
    exact ⟨rfl,.nil⟩
  | cons same later induction =>
    intro raws parsed
    cases parsed with
    | cons head tail =>
      obtain ⟨-,state,answers⟩ := processPush_alone server world _ head
      rw [oneByOne,state,answers]
      obtain ⟨final,verdicts⟩ := induction tail
      exact ⟨final,.cons same verdicts⟩

theorem oneByOne_append (first second : List (RawOp π)) (s : State σ η) :
    oneByOne server world (first ++ second) s =
      ((oneByOne server world first s).1 ++ (oneByOne server world second (oneByOne server world first s).2).1,
        (oneByOne server world second (oneByOne server world first s).2).2) := by
  induction first generalizing s with
  | nil => rfl
  | cons raw rest induction =>
    rw [List.cons_append,oneByOne,oneByOne,induction,List.append_assoc]

/-- An entry that repeats an op id: its first occurrence has the same content and a final answer; or the first
occurrence may be retried and the log still lacks a dependency of this one; or the log refuses the op id. -/
inductive RepeatFromLog (server : Server π η) (world : World σ π) (round : Processed σ π η) (op : OpEnvelope π)
    (t : State σ η) : Prop
  | final (steady : Steady op round) (done : round.result.retryable = false)
      (quiet : ∀ rows attempt, world.interrupt op rows attempt = none)
  | waiting (retryable : round.result.retryable = true) (refused : round.result.accepted = false)
      (missing : (dependencyError t.ops noBatch op.dependsOn).any OpError.retryable = true)
  | refused (row : SyncOp η) (stored : t.ops op.opId = some row) (kind : row.status ≠ .applied)
      (answer : round.result.accepted = false) (done : round.result.retryable = false)
      (known : (dependencyError t.ops noBatch op.dependsOn).all (!·.retryable) = true)
      (quiet : ∀ rows attempt, world.interrupt op rows attempt = none)

theorem roundAlone_answered : Answered server world (roundAlone server world op s) := by
  unfold roundAlone
  split
  · next stops => exact .blocked _ rfl stops rfl rfl rfl
  · next free => exact .ran rfl free rfl rfl

private theorem roundAlone_op (server : Server π η) (world : World σ π) (op : OpEnvelope π) (s : State σ η) : (roundAlone server world op s).op = op ∧
    (roundAlone server world op s).cyclic = false ∧ (roundAlone server world op s).batch = noBatch := by
  unfold roundAlone
  split <;> exact ⟨rfl,rfl,rfl⟩

private theorem roundAlone_before (noOther : ∀ op rows, world.others op rows = rows) :
    (roundAlone server world op s).before = s := by
  unfold roundAlone
  split
  · rfl
  · rw [noOther]

private theorem roundAlone_interrupt (quiet : ∀ rows attempt, world.interrupt op rows attempt = none) (attempt : Nat) :
    (roundAlone server world op s).interrupt attempt = none := by
  unfold roundAlone
  split
  · rfl
  · exact quiet _ attempt

theorem Gives.sameVerdict {verdict : Verdict} {batch alone : Result} (gives : Gives verdict batch)
    (gives' : Gives verdict alone) : SameVerdict batch alone := by
  unfold SameVerdict
  cases verdict with
  | accepted serverId officialNumber =>
    obtain ⟨accepted,server,number,-⟩ := gives
    obtain ⟨accepted',server',number',-⟩ := gives'
    rw [if_pos accepted]
    exact ⟨accepted.trans accepted'.symm,server.trans server'.symm,number.trans number'.symm⟩
  | refused status code =>
    have refused : batch.accepted = false := gives.1
    rw [if_neg (by rw [refused]; exact Bool.false_ne_true)]
    exact ⟨refused.trans gives'.1.symm,gives.final.trans gives'.final.symm⟩

private theorem sameVerdict_refused {batch alone : Result} (refused : batch.accepted = false)
    (refused' : alone.accepted = false) (retryable : batch.retryable = alone.retryable) :
    SameVerdict (copyOf batch) alone := by
  have same : copyOf batch = batch := by
    unfold copyOf
    rw [if_neg]
    intro applied
    simp [Result.accepted,applied] at refused
  unfold SameVerdict
  rw [same,if_neg (by rw [refused]; exact Bool.false_ne_true)]
  exact ⟨refused.trans refused'.symm,retryable⟩

private theorem standing_known {verdict : Verdict} (stands : standing server s.ops op = some verdict) :
    (dependencyError s.ops noBatch op.dependsOn).all (!·.retryable) = true := by
  unfold standing at stands
  cases blocked : dependencyError s.ops noBatch op.dependsOn with
  | none => rfl
  | some error =>
    rw [blocked] at stands
    dsimp only at stands
    split at stands
    · cases stands
    · next final => simp [final]

/-- A repeated entry pushed alone after the batch changes nothing and gets the verdict of its copy. -/
theorem RepeatFromLog.alone (repeated : RepeatFromLog server world round op t)
    (told : Steady op round → Told server op round.before round.after round.result round.committed)
    (grows : Grows round.after.ops t.ops) (noOther : ∀ op rows, world.others op rows = rows) :
    (roundAlone server world op t).after = t ∧
      SameVerdict (copyOf round.result) (roundAlone server world op t).result := by
  have before : (roundAlone server world op t).before = t := roundAlone_before noOther
  cases repeated with
  | final steady done quiet =>
    obtain ⟨verdict,stands,gives⟩ := (told steady).final done
    have stands' := standing_grows grows stands
    obtain ⟨same,acyclic,batch⟩ := roundAlone_op server world op t
    have steady' : Steady op (roundAlone server world op t) := by
      refine ⟨same,acyclic,?_,fun _ => ?_,fun _ => roundAlone_interrupt quiet⟩
      · rw [batch]
        intro dep member outcome answered
        cases answered
      · rw [before]
        exact standing_known stands'
    have known : standing server (roundAlone server world op t).before.ops op = some verdict := by
      rw [before]
      exact stands'
    obtain ⟨repeats,unchanged,-⟩ := (roundAlone_answered.told steady').settled verdict known
    exact ⟨unchanged.trans before,gives.copyOf.1.sameVerdict repeats.1⟩
  | waiting retryable refused missing =>
    obtain ⟨error,stops,again⟩ := (Option.any_eq_true _ _).mp missing
    unfold roundAlone
    rw [stops]
    exact ⟨rfl,sameVerdict_refused refused rfl (retryable.trans again.symm)⟩
  | refused row stored kind answer done known quiet =>
    unfold roundAlone
    cases stops : dependencyError t.ops noBatch op.dependsOn with
    | some error =>
      rw [stops] at known
      refine ⟨rfl,sameVerdict_refused answer rfl (done.trans ?_)⟩
      simpa [Result.retryable,refusal] using known
    | none =>
      dsimp only
      rw [noOther,runOp_quiet (quiet _)]
      obtain ⟨same,-,repeats⟩ := runOpOnce_stored server world stored
      refine ⟨same,sameVerdict_refused answer ?_ (done.trans repeats.1.final.symm)⟩
      unfold storedVerdict at repeats
      split at repeats
      · exact repeats.1.1
      · exact repeats.1.1

theorem processPush_malformed (server : Server π η) (world : World σ π) (s : State σ η) {result : Result}
    (malformed : parseOp server raw = .error result) :
    (processPush server world [raw] s).state = s ∧
      (processPush server world [raw] s).answers.map Answer.result = [result] := by
  have none_ : firstOps server 0 [] [raw] = [] := by
    rw [firstOps,malformed]
    rfl
  unfold processPush
  rw [none_]
  refine ⟨rfl,?_⟩
  change [(answerOf server [] s 0 raw).result] = [result]
  rw [answerOf,List.find?_nil,malformed]

/-- The conditions under which the batch answers as the single pushes do. -/
structure SteadyBatch (server : Server π η) (world : World σ π) (raws : List (RawOp π)) (s : State σ η) : Prop where
  fromLog : ∀ round ∈ (processPush server world raws s).table, FromLog round
  repeated : ∀ place raw op, raws[place]? = some raw → parseOp server raw = .ok op →
    ∀ round ∈ (processPush server world raws s).table, round.op.opId = op.opId → round.index < place →
      RepeatFromLog server world round op (processPush server world raws s).state

omit [DecidableEq η] in
private theorem firsts_retraced {rounds : List (Processed σ π η)} {answers : List (Answer σ π η)}
    (known : ∀ round ∈ rounds, ∃ raw, raws[round.index]? = some raw ∧ parseOp server raw = .ok round.op)
    (answered : ∀ round ∈ rounds, resultAt answers round.index = some round.result) :
    List.Forall₂ (fun round raw => parseOp server raw = .ok round.op) rounds
        ((rounds.map Processed.index).filterMap (raws[·]?)) ∧
      (rounds.map Processed.index).filterMap (resultAt answers) =
        rounds.map Processed.result := by
  induction rounds with
  | nil => exact ⟨.nil,rfl⟩
  | cons round rest induction =>
    obtain ⟨⟨raw,found,parsed⟩,known⟩ := List.forall_mem_cons.mp known
    obtain ⟨result,answered⟩ := List.forall_mem_cons.mp answered
    obtain ⟨raws_,results⟩ := induction known answered
    rw [List.map_cons,List.filterMap_cons_some found,List.filterMap_cons_some result,results]
    exact ⟨.cons parsed raws_,rfl⟩

private theorem others_retraced {answers : List (Answer σ π η)} {places : List Nat}
    (alone : ∀ place ∈ places, ∃ raw result, raws[place]? = some raw ∧
      resultAt answers place = some result ∧ (processPush server world [raw] t).state = t ∧
        ∃ single, (processPush server world [raw] t).answers.map Answer.result = [single] ∧ SameVerdict result single) :
    (oneByOne server world (places.filterMap (raws[·]?)) t).2 = t ∧
      List.Forall₂ SameVerdict (places.filterMap (resultAt answers))
        (oneByOne server world (places.filterMap (raws[·]?)) t).1 := by
  induction places with
  | nil => exact ⟨rfl,.nil⟩
  | cons place rest induction =>
    obtain ⟨⟨raw,result,found,answered,state,single,answer,same⟩,alone⟩ := List.forall_mem_cons.mp alone
    obtain ⟨final,verdicts⟩ := induction alone
    rw [List.filterMap_cons_some found,List.filterMap_cons_some answered,oneByOne,state,answer]
    exact ⟨final,.cons same verdicts⟩

private theorem table_of_push (server : Server π η) (world : World σ π) (raws : List (RawOp π)) (s : State σ η)
    (acyclic : Acyclic (firstOps server 0 [] raws)) :
    (∀ round ∈ (processPush server world raws s).table, round.cyclic = false) ∧
      ((∀ round ∈ (processPush server world raws s).table, round.cyclic = false ∧ FromLog round) →
        Chain server world s (processPush server world raws s).table (processPush server world raws s).state) := by
  unfold processPush
  dsimp only
  constructor
  · obtain ⟨places,opIds⟩ := firstOps_nodup server raws 0 []
    have initial : Batch server world (firstOps server 0 [] raws) s (firstOps server 0 [] raws) [] s := by
      refine ⟨places,opIds,List.Perm.refl _,?_,?_,?_,?_,.refl _⟩ <;> exact fun round member => nomatch member
    intro round member
    exact (processOps_acyclic acyclic _ initial round member).resolve_left List.not_mem_nil
  · obtain ⟨rounds,split,chain⟩ := processOps_chain server world ((firstOps server 0 [] raws).map (·.2.opId))
      (firstOps server 0 [] raws).length (firstOps server 0 [] raws) [] s
    rw [split]
    exact chain

/-- A sale before the sale it depends on, which is sent twice. -/
private def reordered : List (RawOp Unit) := [.valid (saleOp 3 [2]),.valid (saleOp 2 []),.valid (saleOp 2 [])]

private def firstRound : Processed Nat Unit Unit := roundAlone settings cashier (saleOp 2 []) fresh

omit [DecidableEq η] in
private theorem agrees_of_applied {batch : Nat → Option Result} {ops : Nat → Option (SyncOp η)} {deps : List Nat}
    (applied : ∀ dep ∈ deps, (ops dep).map SyncOp.status = some .applied ∧
      (batch dep).all Result.accepted = true) : Agrees batch ops deps := by
  intro dep member outcome answered
  obtain ⟨stored,accepted⟩ := applied dep member
  obtain ⟨row,known,status⟩ := Option.map_eq_some_iff.mp stored
  rw [answered] at accepted
  rw [known]
  dsimp only
  rw [if_pos status]
  exact accepted

private def rounds : List (Processed Nat Unit Unit) :=
  let first := { firstRound with index := 1 }
  [first,processRound settings cashier [3,2] (0,saleOp 3 [2]) [(0,saleOp 3 [2])] [first] first.after]

private theorem reordered_steady : SteadyBatch settings cashier reordered fresh := by
  have table : (processPush settings cashier reordered fresh).table = rounds := rfl
  refine ⟨?_,?_⟩
  · rw [table,rounds]
    refine List.forall_mem_cons.mpr ⟨(fun dep member => nomatch member),List.forall_mem_cons.mpr ⟨?_,List.forall_mem_nil _⟩⟩
    exact agrees_of_applied (by decide)
  · rw [table]
    intro place raw op found parsed round listed same before
    have final : round = { firstRound with index := 1 } ∧ op = saleOp 2 [] := by
      rcases List.mem_cons.mp listed with rfl | listed
      · match place with
        | 0 => exact absurd before (Nat.not_lt_zero _)
        | 1 => exact absurd before (Nat.lt_irrefl 1)
        | 2 =>
          cases found
          cases parsed
          exact ⟨rfl,rfl⟩
        | place + 3 => cases found
      · obtain rfl := List.mem_singleton.mp listed
        match place with
        | 0 => exact absurd before (Nat.not_lt_zero _)
        | 1 | 2 =>
          cases found
          cases parsed
          cases same
        | place + 3 => cases found
    rw [final.1,final.2]
    refine .final ⟨rfl,rfl,?_,fun known => absurd rfl known,fun known => absurd rfl known⟩ rfl fun _ _ => rfl
    exact fun dep member => nomatch member

private theorem answered_alike {batch alone : List Result} (verdicts : List.Forall₂ SameVerdict batch alone) :
    batch.map (fun result => (result.accepted,!result.accepted && result.retryable)) =
      alone.map fun result => (result.accepted,!result.accepted && result.retryable) := by
  induction verdicts with
  | nil => rfl
  | cons same _ induction =>
    rw [List.map_cons,List.map_cons,induction]
    obtain ⟨accepted,others⟩ := same
    rw [← accepted]
    split at others
    · next yes => simp [yes]
    · rw [others]

end SyncPush
