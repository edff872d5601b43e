import Mathlib.Data.List.Nodup
import SasBackend.Semantics.SyncPush

/-! Retry finality of pushed ops.
What the op log alone says about an op never changes once it says something, so every answer that agrees
with the log is final.
-/
namespace SyncPush

variable {σ π η : Type}

/-- Stored ops are never changed or removed. -/
def Grows (ops later : Nat → Option (SyncOp η)) : Prop := ∀ opId stored, ops opId = some stored → later opId = some stored

theorem Grows.refl (ops : Nat → Option (SyncOp η)) : Grows ops ops := fun _ _ => id

theorem Grows.trans {first second third : Nat → Option (SyncOp η)} (left : Grows first second)
    (right : Grows second third) : Grows first third :=
  fun opId stored known => right opId stored (left opId stored known)

def noBatch : Nat → Option Result := fun _ => none

/-- The answers of the batch to these ops are those of the log. -/
def Agrees (batch : Nat → Option Result) (ops : Nat → Option (SyncOp η)) (deps : List Nat) : Prop :=
  ∀ dep ∈ deps, ∀ outcome, batch dep = some outcome → match ops dep with
    | none => outcome.accepted = false ∧ outcome.retryable = true
    | some row => if row.status = .applied then outcome.accepted = true
      else outcome.accepted = false ∧ outcome.retryable = false

theorem dependencyError_code {ops : Nat → Option (SyncOp η)} {batch : Nat → Option Result} {deps : List Nat}
    {error : OpError} (blocked : dependencyError ops batch deps = some error) (final : error.retryable = false) :
    error.code = .dependencyFailed := by
  induction deps with
  | nil => cases blocked
  | cons dep rest induction =>
    rw [dependencyError] at blocked
    split at blocked
    · split at blocked
      · cases blocked
        cases final
      · split at blocked
        · exact induction blocked
        · cases blocked
          rfl
    · split at blocked
      · exact induction blocked
      · cases blocked
        rfl

/-- A batch whose answers are those of the log blocks an op exactly when the log does, and as finally. -/
theorem Agrees.blocked {batch : Nat → Option Result} {ops : Nat → Option (SyncOp η)} {deps : List Nat}
    (agrees : Agrees batch ops deps) :
    (dependencyError ops batch deps).map OpError.retryable =
      (dependencyError ops noBatch deps).map OpError.retryable := by
  induction deps with
  | nil => rfl
  | cons dep rest induction =>
    have same := induction fun other member => agrees other (List.mem_cons_of_mem dep member)
    rw [dependencyError,dependencyError]
    cases answered : batch dep with
    | none =>
      dsimp only [noBatch]
      cases ops dep with
      | none => rfl
      | some row =>
        dsimp only
        split
        · exact same
        · rfl
    | some outcome =>
      have agree := agrees dep List.mem_cons_self outcome answered
      dsimp only [noBatch]
      cases known : ops dep with
      | none =>
        rw [known] at agree
        rw [if_neg (by rw [agree.1]; exact Bool.false_ne_true)]
        exact congrArg some agree.2
      | some row =>
        rw [known] at agree
        dsimp only at agree ⊢
        split at agree
        · next applied =>
          rw [if_pos agree,if_pos applied]
          exact same
        · next refused =>
          rw [if_neg (by rw [agree.1]; exact Bool.false_ne_true),if_neg refused]
          exact congrArg some agree.2

/-- Blocked for good, or by nothing, an op stays so. -/
theorem dependencyError_grows {ops later : Nat → Option (SyncOp η)} (grows : Grows ops later) {deps : List Nat}
    (final : (dependencyError ops noBatch deps).all (!·.retryable) = true) :
    dependencyError later noBatch deps = dependencyError ops noBatch deps := by
  induction deps with
  | nil => rfl
  | cons dep rest induction =>
    rw [dependencyError] at final
    rw [dependencyError,dependencyError]
    dsimp only [noBatch] at final ⊢
    cases known : ops dep with
    | none =>
      rw [known] at final
      cases final
    | some row =>
      rw [known] at final
      rw [grows dep row known]
      dsimp only at final ⊢
      split at final
      · next applied =>
        rw [if_pos applied,if_pos applied]
        exact induction final
      · next refused => rw [if_neg refused,if_neg refused]

/-- A final answer, up to the texts and flags it carries. -/
inductive Verdict
  | accepted (serverId : Option Nat) (officialNumber : Option String)
  | refused (status : OpStatus) (code : ErrorCode)

def Gives : Verdict → Result → Prop
  | .accepted serverId officialNumber, result =>
    result.accepted = true ∧ result.serverId = serverId ∧ result.officialNumber = officialNumber ∧ result.error = none
  | .refused status code, result =>
    result.accepted = false ∧ result.status = status ∧
      ∃ error, result.error = some error ∧ error.code = code ∧ error.retryable = false

def Repeats (verdict : Verdict) (result : Result) : Prop :=
  Gives verdict result ∧ (result.accepted = true → result.status = .duplicate)

/-- The later answer of two: the same, with an applied op reported as a duplicate. -/
def Same (first later : Result) : Prop :=
  if first.accepted then later.status = .duplicate ∧ later.serverId = first.serverId ∧
    later.officialNumber = first.officialNumber ∧ later.retryable = false
  else later.status = first.status ∧ later.error.map OpError.code = first.error.map OpError.code ∧
    later.retryable = false

theorem Gives.final {verdict : Verdict} {result : Result} (gives : Gives verdict result) : result.retryable = false := by
  unfold Result.retryable
  cases verdict with
  | accepted => rw [gives.2.2.2]; rfl
  | refused =>
    obtain ⟨-,-,error,carried,-,final⟩ := gives
    rw [carried]
    exact final

theorem Gives.same {verdict : Verdict} {first later : Result} (gives : Gives verdict first)
    (repeats : Repeats verdict later) : Same first later := by
  unfold Same
  cases verdict with
  | accepted serverId officialNumber =>
    obtain ⟨accepted,server,number,-⟩ := gives
    rw [if_pos accepted,server,number]
    exact ⟨repeats.2 repeats.1.1,repeats.1.2.1,repeats.1.2.2.1,repeats.1.final⟩
  | refused status code =>
    obtain ⟨accepted,same,error,carried,named,-⟩ := gives
    obtain ⟨-,again,other,carries,names,-⟩ := repeats.1
    rw [if_neg (by rw [accepted]; exact Bool.false_ne_true),same,again,carried,carries]
    exact ⟨rfl,congrArg some (names.trans named.symm),repeats.1.final⟩

theorem Gives.copyOf {verdict : Verdict} {result : Result} (gives : Gives verdict result) :
    Repeats verdict (copyOf result) := by
  unfold SyncPush.copyOf
  split
  · next applied =>
    cases verdict with
    | accepted => exact ⟨⟨rfl,gives.2⟩,fun _ => rfl⟩
    | refused =>
      have refused := gives.1
      simp [Result.accepted,applied] at refused
  · next other =>
    refine ⟨gives,fun accepted => ?_⟩
    simpa [Result.accepted,other] using accepted

theorem copyOf_retryable (result : Result) : (copyOf result).retryable = result.retryable := by
  unfold copyOf
  split <;> rfl

variable [DecidableEq η] {server : Server π η} {world : World σ π} {op : OpEnvelope π} {s : State σ η}

/-- What the stored op of an op id says to an op with that id. -/
def storedVerdict (server : Server π η) (op : OpEnvelope π) (row : SyncOp η) : Verdict :=
  if row.payloadHash ≠ server.payloadHash op then .refused .rejected .idempotencyKeyReused
  else if row.status = .applied then .accepted row.result.serverId row.result.officialNumber
  else .refused row.status ((row.result.error.map OpError.code).getD .internalError)

/-- What the op log says about an op. -/
def standing (server : Server π η) (ops : Nat → Option (SyncOp η)) (op : OpEnvelope π) : Option Verdict :=
  match dependencyError ops noBatch op.dependsOn with
  | some error => if error.retryable then none else some (.refused .rejected .dependencyFailed)
  | none => (ops op.opId).map (storedVerdict server op)

theorem standing_grows {ops later : Nat → Option (SyncOp η)} (grows : Grows ops later) {verdict : Verdict}
    (stands : standing server ops op = some verdict) : standing server later op = some verdict := by
  unfold standing at stands ⊢
  cases blocked : dependencyError ops noBatch op.dependsOn with
  | none =>
    rw [dependencyError_grows grows (by rw [blocked]; rfl),blocked]
    rw [blocked] at stands
    obtain ⟨row,known,same⟩ := Option.map_eq_some_iff.mp stands
    exact Option.map_eq_some_iff.mpr ⟨row,grows _ row known,same⟩
  | some error =>
    rw [blocked] at stands
    dsimp only at stands
    split at stands
    · cases stands
    · next final =>
      rw [dependencyError_grows grows (by simp [blocked,final]),blocked]
      dsimp only
      rw [if_neg final]
      exact stands

theorem runOpOnce_stored (server : Server π η) (world : World σ π) {row : SyncOp η} (known : s.ops op.opId = some row) :
    (runOpOnce server world op s).state = s ∧ (runOpOnce server world op s).committed = false ∧
      Repeats (storedVerdict server op row) (runOpOnce server world op s).result := by
  unfold runOpOnce storedVerdict
  rw [known]
  dsimp only
  obtain ⟨same,kind⟩ := row.terminal
  split
  · exact ⟨rfl,rfl,⟨rfl,rfl,_,rfl,rfl,rfl⟩,nofun⟩
  · split
    · next applied =>
      have clean : row.result.error = none := by
        rcases kind with kind | kind
        · exact kind.2
        · rcases kind.1 with other | other <;> rw [applied] at other <;> cases other
      exact ⟨rfl,rfl,⟨rfl,rfl,rfl,clean⟩,fun _ => rfl⟩
    · next refused =>
      obtain ⟨status,error,carried,final⟩ := kind.resolve_left fun kind => refused kind.1
      have accepted : row.result.accepted = false := by
        rcases status with status | status <;> simp [Result.accepted,same,status]
      refine ⟨rfl,rfl,⟨accepted,same,error,carried,?_,final⟩,fun yes => ?_⟩
      · rw [carried]
        rfl
      · rw [accepted] at yes
        cases yes

theorem runOpOnce_fresh (server : Server π η) (world : World σ π) (absent : s.ops op.opId = none) :
    ((runOpOnce server world op s).result.retryable = true ∧ (runOpOnce server world op s).state = s ∧
      (runOpOnce server world op s).committed = false) ∨
    ∃ row, (runOpOnce server world op s).state.ops = Function.update s.ops op.opId (some row) ∧
      Gives (storedVerdict server op row) (runOpOnce server world op s).result := by
  unfold runOpOnce
  rw [absent]
  dsimp only
  cases evaluate server world op s.rows with
  | error rejection =>
    dsimp only [finishRejected]
    split
    · next final =>
      refine .inr ⟨_,rfl,?_⟩
      have refused : rejection.status ≠ .applied ∧ rejection.status ≠ .duplicate := by
        unfold OpReject.status
        split <;> exact ⟨nofun,nofun⟩
      rw [storedVerdict,if_neg (not_not.mpr rfl),if_neg refused.1]
      refine ⟨?_,rfl,_,rfl,rfl,final⟩
      simp [Result.accepted,refusal,refused]
    · next retryable => exact .inl ⟨by simpa [Result.retryable,refusal] using retryable,rfl,rfl⟩
  | ok effects =>
    obtain ⟨outcome,rows⟩ := effects
    refine .inr ⟨_,rfl,?_⟩
    rw [storedVerdict,if_neg (not_not.mpr rfl),if_pos rfl]
    dsimp only [finishApplied]
    split <;> exact ⟨rfl,rfl,rfl,rfl⟩

theorem runOpOnce_grows (server : Server π η) (world : World σ π) (op : OpEnvelope π) (s : State σ η) :
    Grows s.ops (runOpOnce server world op s).state.ops ∧
    ∀ opId, opId ≠ op.opId → (runOpOnce server world op s).state.ops opId = s.ops opId := by
  cases known : s.ops op.opId with
  | some row =>
    rw [(runOpOnce_stored server world known).1]
    exact ⟨.refl _,fun _ _ => rfl⟩
  | none =>
    rcases runOpOnce_fresh server world known with ⟨-,same,-⟩ | ⟨row,same,-⟩
    · rw [same]
      exact ⟨.refl _,fun _ _ => rfl⟩
    · rw [same]
      refine ⟨fun opId stored there => ?_,fun opId other => Function.update_of_ne other _ _⟩
      have other : opId ≠ op.opId := by
        rintro rfl
        rw [known] at there
        cases there
      rw [Function.update_of_ne other]
      exact there

theorem attempts_cases (server : Server π η) (world : World σ π) (op : OpEnvelope π) (s : State σ η)
    (left : List Nat) : attempts server world op s left = runOpOnce server world op s ∨
    ∃ message, attempts server world op s left = internalError op message s := by
  induction left with
  | nil => exact .inr ⟨_,rfl⟩
  | cons attempt rest induction =>
    rw [attempts]
    cases world.interrupt op s.rows attempt with
    | none => exact .inl rfl
    | some interrupt =>
      cases interrupt with
      | deadlock => exact induction
      | databaseError => exact .inr ⟨_,rfl⟩
      | crash => exact .inr ⟨_,rfl⟩

theorem runOp_quiet (quiet : ∀ attempt, world.interrupt op s.rows attempt = none) :
    runOp server world op s = runOpOnce server world op s := by
  rw [runOp,attempts,quiet]

theorem runOp_grows : Grows s.ops (runOp server world op s).state.ops ∧
    ∀ opId, opId ≠ op.opId → (runOp server world op s).state.ops opId = s.ops opId := by
  rcases attempts_cases server world op s [0,1,2] with same | ⟨message,same⟩
  · rw [runOp,same]
    exact runOpOnce_grows server world op s
  · rw [runOp,same]
    exact ⟨.refl _,fun _ _ => rfl⟩

/-- How a round of the batch came to its answer. -/
inductive Answered (server : Server π η) (world : World σ π) (round : Processed σ π η) : Prop
  | cycle (cyclic : round.cyclic = true) (result : round.result =
      refusal round.op.opId .rejected ⟨.dependencyCycle,"Circular depends_on",false⟩)
      (same : round.after = round.before) (quiet : round.committed = false)
  | blocked (error : OpError) (acyclic : round.cyclic = false)
      (stops : dependencyError round.before.ops round.batch round.op.dependsOn = some error)
      (result : round.result = refusal round.op.opId .rejected error)
      (same : round.after = round.before) (quiet : round.committed = false)
  | ran (acyclic : round.cyclic = false)
      (free : dependencyError round.before.ops round.batch round.op.dependsOn = none)
      (interrupt : round.interrupt = world.interrupt round.op round.before.rows)
      (done : runOp server world round.op round.before = ⟨round.result,round.after,round.committed⟩)

variable {inBatch : List Nat} {first : Nat × OpEnvelope π} {remaining : List (Nat × OpEnvelope π)}
  {table : List (Processed σ π η)} {round : Processed σ π η}

theorem processRound_answered :
    Answered server world (processRound server world inBatch first remaining table s) := by
  unfold processRound
  split
  · exact .cycle rfl rfl rfl rfl
  · split
    · next stops => exact .blocked _ rfl stops rfl rfl rfl
    · next free => exact .ran rfl free rfl rfl

theorem processRound_start : (processRound server world inBatch first remaining table s).before.ops = s.ops ∧
    (processRound server world inBatch first remaining table s).batch = byOpId table := by
  unfold processRound
  split
  · exact ⟨rfl,rfl⟩
  · split <;> exact ⟨rfl,rfl⟩

theorem processOps_zero : processOps server world inBatch 0 remaining table s = (table,s) := by
  cases remaining <;> rfl

theorem processOps_nil (fuel : Nat) : processOps server world inBatch fuel [] table s = (table,s) := by
  cases fuel <;> rfl

theorem processRound_mem (server : Server π η) (world : World σ π) (inBatch : List Nat)
    (table : List (Processed σ π η)) (s : State σ η) (member : first ∈ remaining) :
    ((processRound server world inBatch first remaining table s).index,
      (processRound server world inBatch first remaining table s).op) ∈ remaining := by
  unfold processRound
  split
  · exact member
  · next picked =>
    have listed := List.mem_of_find?_eq_some picked
    split <;> exact listed

theorem Answered.grows (answered : Answered server world round) :
    Grows round.before.ops round.after.ops ∧
      ∀ opId, opId ≠ round.op.opId → round.after.ops opId = round.before.ops opId := by
  cases answered with
  | cycle cyclic result same quiet =>
    rw [same]
    exact ⟨.refl _,fun _ _ => rfl⟩
  | blocked error acyclic stops result same quiet =>
    rw [same]
    exact ⟨.refl _,fun _ _ => rfl⟩
  | ran acyclic free interrupt done =>
    have state : round.after = (runOp server world round.op round.before).state := by rw [done]
    rw [state]
    exact runOp_grows

/-- An op is answered by the log or afresh: its op id carries this content, no cycle is cut at it, the batch
answered its dependencies as the log does, and once its op id is stored no dependency is missing and no
database failure interrupts it. -/
structure Steady (op : OpEnvelope π) (round : Processed σ π η) : Prop where
  same : round.op = op
  acyclic : round.cyclic = false
  agrees : Agrees round.batch round.before.ops op.dependsOn
  known : round.before.ops op.opId ≠ none →
    (dependencyError round.before.ops noBatch op.dependsOn).all (!·.retryable) = true
  undisturbed : round.before.ops op.opId ≠ none → ∀ attempt, round.interrupt attempt = none

/-- An answer against the log before and after it. -/
structure Told (server : Server π η) (op : OpEnvelope π) (before after : State σ η) (result : Result)
    (committed : Bool) : Prop where
  settled : ∀ verdict, standing server before.ops op = some verdict →
    Repeats verdict result ∧ after = before ∧ committed = false
  final : result.retryable = false → ∃ verdict, standing server after.ops op = some verdict ∧ Gives verdict result
  open_ : result.retryable = true → after.ops op.opId = none ∧ committed = false

private theorem told_blocked {error : OpError} (steady : Steady round.op round)
    (stops : dependencyError round.before.ops round.batch round.op.dependsOn = some error) :
    Told server round.op round.before round.before (refusal round.op.opId .rejected error) false := by
  have blocked := steady.agrees.blocked
  rw [stops] at blocked
  obtain ⟨error',stops',same⟩ := Option.map_eq_some_iff.mp blocked.symm
  have gives : error.retryable = false →
      Gives (.refused .rejected .dependencyFailed) (refusal round.op.opId .rejected error) :=
    fun final => ⟨rfl,rfl,error,rfl,dependencyError_code stops final,final⟩
  have stands : standing server round.before.ops round.op =
      if error.retryable then none else some (.refused .rejected .dependencyFailed) := by
    rw [standing,stops',← same]
  refine ⟨fun verdict known => ?_,fun final => ?_,fun retryable => ⟨?_,rfl⟩⟩
  · rw [stands] at known
    split at known
    · cases known
    · next final =>
      cases known
      exact ⟨⟨gives (Bool.eq_false_iff.mpr final),nofun⟩,rfl,rfl⟩
  · have final' : error.retryable = false := final
    rw [stands,final']
    exact ⟨_,rfl,gives final'⟩
  · by_contra there
    have known := steady.known there
    rw [stops',Option.all_some,same] at known
    have retryable' : error.retryable = true := retryable
    simp [retryable'] at known

private theorem told_once (free : dependencyError s.ops noBatch op.dependsOn = none) :
    Told server op s (runOpOnce server world op s).state (runOpOnce server world op s).result
      (runOpOnce server world op s).committed := by
  have stands : standing server s.ops op = (s.ops op.opId).map (storedVerdict server op) := by
    rw [standing,free]
  cases known : s.ops op.opId with
  | some row =>
    obtain ⟨same,quiet,repeats⟩ := runOpOnce_stored server world known
    rw [known] at stands
    rw [same,quiet]
    refine ⟨fun verdict told => ?_,fun _ => ⟨_,stands,repeats.1⟩,fun retryable => ?_⟩
    · rw [stands] at told
      cases told
      exact ⟨repeats,rfl,rfl⟩
    · rw [repeats.1.final] at retryable
      cases retryable
  | none =>
    rw [known] at stands
    have unsettled : ∀ verdict, standing server s.ops op = some verdict → False := by
      intro verdict told
      rw [stands] at told
      cases told
    rcases runOpOnce_fresh server world known with ⟨retryable,same,quiet⟩ | ⟨row,stored,gives⟩
    · refine ⟨fun verdict told => (unsettled verdict told).elim,fun final => ?_,fun _ => ⟨?_,quiet⟩⟩
      · rw [retryable] at final
        cases final
      · rw [same]
        exact known
    · refine ⟨fun verdict told => (unsettled verdict told).elim,fun _ => ⟨_,?_,gives⟩,fun retryable => ?_⟩
      · have grows := (runOpOnce_grows server world op s).1
        rw [standing,dependencyError_grows grows (by rw [free]; rfl),free,stored,Function.update_self]
        rfl
      · rw [gives.final] at retryable
        cases retryable

theorem Answered.told (answered : Answered server world round) (steady : Steady op round) :
    Told server op round.before round.after round.result round.committed := by
  obtain rfl := steady.same
  cases answered with
  | cycle cyclic result same quiet =>
    rw [steady.acyclic] at cyclic
    cases cyclic
  | blocked error acyclic stops result same quiet =>
    rw [result,same,quiet]
    exact told_blocked steady stops
  | ran acyclic free interrupt done =>
    have free' : dependencyError round.before.ops noBatch round.op.dependsOn = none := by
      have blocked := steady.agrees.blocked
      rw [free] at blocked
      exact Option.map_eq_none_iff.mp blocked.symm
    have shape : round.after = (runOp server world round.op round.before).state ∧
        round.result = (runOp server world round.op round.before).result ∧
        round.committed = (runOp server world round.op round.before).committed := by
      rw [done]
      exact ⟨rfl,rfl,rfl⟩
    rw [shape.1,shape.2.1,shape.2.2]
    by_cases absent : round.before.ops round.op.opId = none
    · rcases attempts_cases server world round.op round.before [0,1,2] with same | ⟨message,same⟩
      · rw [runOp,same]
        exact told_once free'
      · rw [runOp,same]
        refine ⟨fun verdict known => ?_,nofun,fun _ => ⟨absent,rfl⟩⟩
        rw [standing,free',absent] at known
        cases known
    · have quiet := steady.undisturbed absent
      rw [interrupt] at quiet
      rw [runOp_quiet quiet]
      exact told_once free'

def entryOf (round : Processed σ π η) : Nat × OpEnvelope π := (round.index,round.op)

/-- A batch under way: what is answered, what is left, and the log since the start. -/
structure Batch (server : Server π η) (world : World σ π) (entries : List (Nat × OpEnvelope π)) (start : State σ η)
    (remaining : List (Nat × OpEnvelope π)) (table : List (Processed σ π η)) (s : State σ η) : Prop where
  places : (entries.map Prod.fst).Nodup
  opIds : (entries.map (·.2.opId)).Nodup
  split : (table.map entryOf ++ remaining).Perm entries
  answered : ∀ round ∈ table, Answered server world round
  since : ∀ round ∈ table, Grows start.ops round.before.ops
  until_ : ∀ round ∈ table, Grows round.after.ops s.ops
  kept : ∀ round ∈ table, s.ops round.op.opId = round.after.ops round.op.opId
  grown : Grows start.ops s.ops

variable {entries : List (Nat × OpEnvelope π)} {start : State σ η}

private theorem perm_eraseP {entry : Nat × OpEnvelope π} (places : (remaining.map Prod.fst).Nodup)
    (member : entry ∈ remaining) : remaining.Perm (entry :: remaining.eraseP (·.1 = entry.1)) := by
  obtain ⟨found,left,right,-,same,split,erased⟩ := List.exists_of_eraseP (p := (·.1 = entry.1)) member (by simp)
  have equal : found = entry := by
    refine List.inj_on_of_nodup_map places ?_ member (of_decide_eq_true same)
    rw [split]
    simp
  rw [erased,split,equal]
  exact List.perm_middle

theorem Batch.remaining_places (batch : Batch server world entries start remaining table s) :
    (remaining.map Prod.fst).Nodup := by
  have all := (batch.split.map Prod.fst).nodup_iff.mpr batch.places
  rw [List.map_append] at all
  exact (List.nodup_append.mp all).2.1

private theorem Batch.other (batch : Batch server world entries start remaining table s)
    {entry : Nat × OpEnvelope π} (left : entry ∈ remaining) (done : round ∈ table) :
    round.op.opId ≠ entry.2.opId := by
  have all := (batch.split.map (·.2.opId)).nodup_iff.mpr batch.opIds
  rw [List.map_append] at all
  exact (List.nodup_append.mp all).2.2 _ (List.mem_map.mpr ⟨entryOf round,List.mem_map_of_mem done,rfl⟩) _
    (List.mem_map.mpr ⟨entry,left,rfl⟩)

theorem Batch.step (batch : Batch server world entries start remaining table s) (answered : Answered server world round)
    (found : round.before.ops = s.ops) (member : entryOf round ∈ remaining) :
    Batch server world entries start (remaining.eraseP (·.1 = round.index)) (table ++ [round]) round.after where
  places := batch.places
  opIds := batch.opIds
  split := by
    refine List.Perm.trans ?_ batch.split
    rw [List.map_append,List.append_assoc]
    exact List.Perm.append_left _ (perm_eraseP batch.remaining_places member).symm
  answered := by
    simp only [List.mem_append,List.mem_singleton]
    rintro other (older | rfl)
    · exact batch.answered other older
    · exact answered
  since := by
    simp only [List.mem_append,List.mem_singleton]
    rintro other (older | rfl)
    · exact batch.since other older
    · rw [found]
      exact batch.grown
  until_ := by
    simp only [List.mem_append,List.mem_singleton]
    rintro other (older | rfl)
    · exact (batch.until_ other older).trans (found ▸ answered.grows.1)
    · exact .refl _
  kept := by
    simp only [List.mem_append,List.mem_singleton]
    rintro other (older | rfl)
    · rw [answered.grows.2 _ (batch.other member older),found]
      exact batch.kept other older
    · rfl
  grown := batch.grown.trans (found ▸ answered.grows.1)

theorem Batch.run {remaining : List (Nat × OpEnvelope π)} {table : List (Processed σ π η)} {s : State σ η}
    (batch : Batch server world entries start remaining table s) (fuel : Nat) (short : remaining.length ≤ fuel) :
      Batch server world entries start [] (processOps server world inBatch fuel remaining table s).1
        (processOps server world inBatch fuel remaining table s).2 := by
  induction fuel generalizing remaining table s with
  | zero =>
    rw [List.length_eq_zero_iff.mp (Nat.le_zero.mp short)] at batch ⊢
    exact batch
  | succ fuel induction =>
    cases remaining with
    | nil => exact batch
    | cons first rest =>
      have member := processRound_mem server world inBatch table s (List.mem_cons_self : first ∈ first :: rest)
      refine induction (batch.step processRound_answered processRound_start.1 member) ?_
      have shorter := (perm_eraseP batch.remaining_places member).length_eq
      exact Nat.le_of_succ_le_succ (Nat.le_trans (Nat.le_of_eq shorter.symm) short)

omit [DecidableEq η] in
theorem mem_firstOps {raws : List (RawOp π)} : ∀ {index : Nat} {seen : List Nat} {entry : Nat × OpEnvelope π},
    entry ∈ firstOps server index seen raws → index ≤ entry.1 ∧ entry.2.opId ∉ seen ∧
      ∃ raw, raws[entry.1 - index]? = some raw ∧ parseOp server raw = .ok entry.2 := by
  induction raws with
  | nil =>
    intro index seen entry member
    cases member
  | cons raw rest induction =>
    intro index seen entry member
    rw [firstOps] at member
    have later : ∀ {seen' : List Nat}, entry ∈ firstOps server (index + 1) seen' rest → (∀ id ∈ seen, id ∈ seen') →
        index ≤ entry.1 ∧ entry.2.opId ∉ seen ∧
          ∃ other, (raw :: rest)[entry.1 - index]? = some other ∧ parseOp server other = .ok entry.2 := by
      intro seen' member inside
      obtain ⟨after,new,other,found,parsed⟩ := induction member
      have place : entry.1 - index = entry.1 - (index + 1) + 1 := by omega
      refine ⟨by omega,fun old => new (inside _ old),other,?_,parsed⟩
      rw [place,List.getElem?_cons_succ]
      exact found
    split at member
    · exact later member fun _ => id
    · next op parsed =>
      split at member
      · exact later member fun _ => id
      · next new =>
        rcases List.mem_cons.mp member with rfl | member
        · refine ⟨Nat.le_refl index,by simpa using new,raw,?_,parsed⟩
          rw [Nat.sub_self]
          rfl
        · exact later member fun _ => List.mem_cons_of_mem _

omit [DecidableEq η] in
theorem firstOps_nodup (server : Server π η) (raws : List (RawOp π)) : ∀ (index : Nat) (seen : List Nat),
    ((firstOps server index seen raws).map Prod.fst).Nodup ∧
      ((firstOps server index seen raws).map (·.2.opId)).Nodup := by
  induction raws with
  | nil => exact fun _ _ => ⟨List.nodup_nil,List.nodup_nil⟩
  | cons raw rest induction =>
    intro index seen
    rw [firstOps]
    split
    · exact induction (index + 1) seen
    · next op parsed =>
      split
      · exact induction (index + 1) seen
      · obtain ⟨places,opIds⟩ := induction (index + 1) (op.opId :: seen)
        rw [List.map_cons,List.map_cons,List.nodup_cons,List.nodup_cons]
        refine ⟨⟨fun again => ?_,places⟩,fun again => ?_,opIds⟩
        · obtain ⟨entry,member,same⟩ := List.mem_map.mp again
          have after := (mem_firstOps member).1
          rw [same] at after
          exact absurd after (Nat.not_succ_le_self index)
        · obtain ⟨entry,member,same⟩ := List.mem_map.mp again
          exact (mem_firstOps member).2.1 (same ▸ List.mem_cons_self)

omit [DecidableEq η] in
/-- Every op id of the request has its first occurrence, at no later place. -/
theorem firstOps_covers {raws : List (RawOp π)} : ∀ {index : Nat} {seen : List Nat} {place : Nat} {raw : RawOp π}
    {op : OpEnvelope π}, raws[place]? = some raw → parseOp server raw = .ok op → op.opId ∉ seen →
      ∃ entry ∈ firstOps server index seen raws, entry.2.opId = op.opId ∧ entry.1 ≤ index + place := by
  induction raws with
  | nil =>
    intro index seen place raw op found
    cases found
  | cons head rest induction =>
    intro index seen place raw op found parsed new
    rw [firstOps]
    cases place with
    | zero =>
      cases found
      rw [parsed]
      dsimp only
      rw [if_neg (by simpa using new)]
      exact ⟨_,List.mem_cons_self,rfl,Nat.le_refl _⟩
    | succ place =>
      rw [List.getElem?_cons_succ] at found
      have later : ∀ seen', op.opId ∉ seen' → ∃ entry ∈ firstOps server (index + 1) seen' rest,
          entry.2.opId = op.opId ∧ entry.1 ≤ index + (place + 1) := by
        intro seen' new'
        obtain ⟨entry,member,same,bound⟩ := @induction (index + 1) seen' place raw op found parsed new'
        exact ⟨entry,member,same,by omega⟩
      split
      · exact later seen new
      · next other _ =>
        split
        · exact later seen new
        · by_cases same : op.opId = other.opId
          · exact ⟨_,List.mem_cons_self,same.symm,Nat.le_add_right _ _⟩
          · obtain ⟨entry,member,rest_⟩ := later (other.opId :: seen) (List.not_mem_cons_of_ne_of_not_mem same new)
            exact ⟨entry,List.mem_cons_of_mem _ member,rest_⟩

theorem Batch.initial (places : (entries.map Prod.fst).Nodup) (opIds : (entries.map (·.2.opId)).Nodup) :
    Batch server world entries start entries [] start := by
  refine ⟨places,opIds,List.Perm.refl _,?_,?_,?_,?_,.refl _⟩ <;> exact fun round member => nomatch member

theorem processPush_batch (server : Server π η) (world : World σ π) (raws : List (RawOp π)) (s : State σ η) :
    Batch server world (firstOps server 0 [] raws) s [] (processPush server world raws s).table
      (processPush server world raws s).state := by
  obtain ⟨places,opIds⟩ := firstOps_nodup server raws 0 []
  unfold processPush
  exact (Batch.initial places opIds).run _ (Nat.le_refl _)

variable {raws : List (RawOp π)} {raw : RawOp π}

theorem Batch.entry (batch : Batch server world (firstOps server 0 [] raws) start [] table s)
    (member : round ∈ table) :
    ∃ raw, raws[round.index]? = some raw ∧ parseOp server raw = .ok round.op := by
  have listed := batch.split.subset (List.mem_append_left [] (List.mem_map_of_mem (f := entryOf) member))
  exact (mem_firstOps listed).2.2

theorem Batch.covers (batch : Batch server world (firstOps server 0 [] raws) start [] table s)
    {place : Nat} (found : raws[place]? = some raw) (parsed : parseOp server raw = .ok op) :
    ∃ round ∈ table, round.op.opId = op.opId ∧ round.index ≤ place := by
  obtain ⟨entry,member,same,bound⟩ : ∃ entry ∈ firstOps server 0 [] raws, entry.2.opId = op.opId ∧
      entry.1 ≤ 0 + place := firstOps_covers found parsed (List.not_mem_nil (a := op.opId))
  have listed := batch.split.symm.subset member
  rw [List.append_nil] at listed
  obtain ⟨round,inside,rfl⟩ := List.mem_map.mp listed
  exact ⟨round,inside,same,by simpa [entryOf] using bound⟩

theorem Batch.unique (batch : Batch server world entries start [] table s) {other : Processed σ π η}
    (member : round ∈ table) (member' : other ∈ table) (same : round.op.opId = other.op.opId) : round = other := by
  have all := (batch.split.map (·.2.opId)).nodup_iff.mpr batch.opIds
  rw [List.append_nil,List.map_map] at all
  exact List.inj_on_of_nodup_map all member member' same

private theorem Batch.byOpId (batch : Batch server world entries start [] table s) (member : round ∈ table) :
    byOpId table round.op.opId = some round.result := by
  have some_ : (table.find? (·.op.opId = round.op.opId)).isSome := List.find?_isSome.mpr ⟨round,member,by simp⟩
  obtain ⟨other,found⟩ := Option.isSome_iff_exists.mp some_
  have same : other.op.opId = round.op.opId := by simpa using List.find?_some found
  rw [SyncPush.byOpId,found,batch.unique (List.mem_of_find?_eq_some found) member same]
  rfl

/-- The first answer to an op in a request comes from its round, every other one is a copy of it. -/
theorem Batch.answerOf_cases (batch : Batch server world (firstOps server 0 [] raws) start [] table s) {place : Nat}
    (found : raws[place]? = some raw) (parsed : parseOp server raw = .ok op) :
    ∃ round ∈ table, round.op.opId = op.opId ∧
      (round.index = place ∧ answerOf server table s place raw =
          ⟨raw,round.result,round.before,round.after,round.committed⟩ ∨
        round.index < place ∧ answerOf server table s place raw = ⟨raw,copyOf round.result,s,s,false⟩) := by
  obtain ⟨round,member,same,bound⟩ := batch.covers found parsed
  refine ⟨round,member,same,?_⟩
  unfold answerOf
  cases at_ : table.find? (·.index = place) with
  | some other =>
    have member' := List.mem_of_find?_eq_some at_
    have place' : other.index = place := by simpa using List.find?_some at_
    obtain ⟨raw',found',parsed'⟩ := batch.entry member'
    rw [place',found] at found'
    cases found'
    rw [parsed] at parsed'
    cases parsed'
    obtain rfl := batch.unique member member' same
    exact .inl ⟨place',rfl⟩
  | none =>
    right
    have other : round.index ≠ place := by
      intro equal
      have absent := List.find?_eq_none.mp at_ round member
      simp [equal] at absent
    rw [parsed]
    dsimp only
    rw [← same,batch.byOpId member]
    exact ⟨Nat.lt_of_le_of_ne bound other,rfl⟩

theorem Batch.answerOf_malformed (batch : Batch server world (firstOps server 0 [] raws) start [] table s) {place : Nat}
    {result : Result} (found : raws[place]? = some raw) (malformed : parseOp server raw = .error result) :
    answerOf server table s place raw = ⟨raw,result,s,s,false⟩ := by
  unfold answerOf
  cases at_ : table.find? (·.index = place) with
  | some round =>
    obtain ⟨raw',found',parsed⟩ := batch.entry (List.mem_of_find?_eq_some at_)
    have place' : round.index = place := by simpa using List.find?_some at_
    rw [place',found] at found'
    cases found'
    rw [malformed] at parsed
    cases parsed
  | none =>
    rw [malformed]

/-- Two answers to one op, in this order. -/
structure Follows (earlier later : Answer σ π η) : Prop where
  final : earlier.result.retryable = false →
    Same earlier.result later.result ∧ later.after.rows = later.before.rows
  once : earlier.committed = true → later.committed = false

/-- Answers to one op against the log before the first and after the last of them. -/
structure Consistent (server : Server π η) (op : OpEnvelope π) (ops later : Nat → Option (SyncOp η))
    (answers : List (Answer σ π η)) : Prop where
  grows : Grows ops later
  settled : ∀ verdict, standing server ops op = some verdict → ∀ answer ∈ answers,
    Repeats verdict answer.result ∧ answer.after.rows = answer.before.rows ∧ answer.committed = false
  given : ∀ answer ∈ answers, answer.result.retryable = false →
    ∃ verdict, standing server later op = some verdict ∧ Gives verdict answer.result
  open_ : ∀ answer ∈ answers, answer.result.retryable = true →
    answer.after.ops op.opId = none ∧ answer.committed = false
  follows : answers.Pairwise Follows

theorem Consistent.nil {ops later : Nat → Option (SyncOp η)} (grows : Grows ops later) :
    Consistent (σ := σ) server op ops later [] := by
  refine ⟨grows,fun _ _ answer member => ?_,fun answer member => ?_,fun answer member => ?_,List.Pairwise.nil⟩
  all_goals cases member

theorem Consistent.append {ops middle later : Nat → Option (SyncOp η)} {first last : List (Answer σ π η)}
    (left : Consistent server op ops middle first) (right : Consistent server op middle later last) :
    Consistent server op ops later (first ++ last) where
  grows := left.grows.trans right.grows
  settled verdict stands answer member := by
    rcases List.mem_append.mp member with member | member
    · exact left.settled verdict stands answer member
    · exact right.settled verdict (standing_grows left.grows stands) answer member
  given answer member final := by
    rcases List.mem_append.mp member with member | member
    · obtain ⟨verdict,stands,gives⟩ := left.given answer member final
      exact ⟨verdict,standing_grows right.grows stands,gives⟩
    · exact right.given answer member final
  open_ answer member := by
    rcases List.mem_append.mp member with member | member
    · exact left.open_ answer member
    · exact right.open_ answer member
  follows := by
    refine List.pairwise_append.mpr ⟨left.follows,right.follows,fun earlier inFirst later inLast => ?_⟩
    have after : earlier.result.retryable = false → Same earlier.result later.result ∧
        later.after.rows = later.before.rows ∧ later.committed = false := by
      intro final
      obtain ⟨verdict,stands,gives⟩ := left.given earlier inFirst final
      obtain ⟨repeats,rows,quiet⟩ := right.settled verdict stands later inLast
      exact ⟨gives.same repeats,rows,quiet⟩
    refine ⟨fun final => ⟨(after final).1,(after final).2.1⟩,fun committed => ?_⟩
    cases retryable : earlier.result.retryable with
    | false => exact (after retryable).2.2
    | true =>
      rw [(left.open_ earlier inFirst retryable).2] at committed
      cases committed

variable [DecidableEq π]

def deliveries (raw : RawOp π) (pushed : Pushed σ π η) : List (Answer σ π η) := pushed.answers.filter (·.raw = raw)

omit [DecidableEq η] [DecidableEq π] in
theorem answerOf_raw (place : Nat) : (answerOf server table s place raw).raw = raw := by
  unfold answerOf
  split
  · rfl
  · split
    · rfl
    · split <;> rfl

omit [DecidableEq η] [DecidableEq π] in
theorem mem_answers {answer : Answer σ π η} (member : answer ∈ raws.mapIdx (answerOf server table s)) :
    ∃ place, raws[place]? = some answer.raw ∧ answer = answerOf server table s place answer.raw := by
  obtain ⟨place,inside,rfl⟩ := List.mem_mapIdx.mp member
  rw [answerOf_raw]
  exact ⟨place,List.getElem?_eq_getElem inside,rfl⟩

private theorem Batch.mem_deliveries (batch : Batch server world (firstOps server 0 [] raws) start [] table s)
    (parsed : parseOp server raw = .ok op) {answer : Answer σ π η}
    (member : answer ∈ (raws.mapIdx (answerOf server table s)).filter (·.raw = raw)) :
    ∃ round ∈ table, round.op.opId = op.opId ∧
      (answer = ⟨raw,round.result,round.before,round.after,round.committed⟩ ∨
        answer = ⟨raw,copyOf round.result,s,s,false⟩) := by
  obtain ⟨inside,named⟩ := List.mem_filter.mp member
  obtain ⟨place,found,same⟩ := mem_answers inside
  rw [of_decide_eq_true named] at found same
  obtain ⟨round,listed,opId,answered | answered⟩ := batch.answerOf_cases found parsed
  · exact ⟨round,listed,opId,.inl (same.trans answered.2)⟩
  · exact ⟨round,listed,opId,.inr (same.trans answered.2)⟩

private theorem Batch.follows (batch : Batch server world (firstOps server 0 [] raws) start [] table s)
    (parsed : parseOp server raw = .ok op)
    (final : ∀ round ∈ table, round.op.opId = op.opId → round.result.retryable = false →
      ∃ verdict, Gives verdict round.result) :
    ((raws.mapIdx (answerOf server table s)).filter (·.raw = raw)).Pairwise Follows := by
  rw [List.pairwise_filter,List.pairwise_iff_getElem]
  intro i j first later order named named'
  simp only [List.getElem_mapIdx,answerOf_raw,decide_eq_true_eq] at named named' ⊢
  have earlier : raws[i]? = some raw := List.getElem?_eq_some_iff.mpr ⟨by simpa using first,named⟩
  have after : raws[j]? = some raw := List.getElem?_eq_some_iff.mpr ⟨by simpa using later,named'⟩
  rw [named,named']
  obtain ⟨round,listed,opId,place⟩ := batch.answerOf_cases earlier parsed
  obtain ⟨other,listed',opId',place'⟩ := batch.answerOf_cases after parsed
  obtain rfl := batch.unique listed listed' (opId.trans opId'.symm)
  -- Only the earliest occurrence is answered by a round.
  have copy : answerOf server table s j raw = ⟨raw,copyOf round.result,s,s,false⟩ := by
    rcases place' with ⟨at_,-⟩ | ⟨-,copy⟩
    · rcases place with ⟨at_',-⟩ | ⟨before,-⟩ <;> omega
    · exact copy
  rw [copy]
  rcases place with ⟨-,same⟩ | ⟨-,same⟩ <;> rw [same]
  · refine ⟨fun retryable => ⟨?_,rfl⟩,fun _ => rfl⟩
    obtain ⟨verdict,gives⟩ := final round listed opId retryable
    exact gives.same gives.copyOf
  · refine ⟨fun retryable => ⟨?_,rfl⟩,fun _ => rfl⟩
    obtain ⟨verdict,gives⟩ := final round listed opId ((copyOf_retryable _).symm.trans retryable)
    exact gives.copyOf.1.same gives.copyOf

private theorem Batch.consistent (batch : Batch server world (firstOps server 0 [] raws) start [] table s)
    (parsed : parseOp server raw = .ok op)
    (steady : ∀ round ∈ table, round.op.opId = op.opId → Steady op round) :
    Consistent server op start.ops s.ops ((raws.mapIdx (answerOf server table s)).filter (·.raw = raw)) := by
  have told : ∀ round ∈ table, round.op.opId = op.opId →
      Told server op round.before round.after round.result round.committed :=
    fun round member same => (batch.answered round member).told (steady round member same)
  have final : ∀ round ∈ table, round.op.opId = op.opId → round.result.retryable = false →
      ∃ verdict, standing server s.ops op = some verdict ∧ Gives verdict round.result := by
    intro round member same final
    obtain ⟨verdict,stands,gives⟩ := (told round member same).final final
    exact ⟨verdict,standing_grows (batch.until_ round member) stands,gives⟩
  refine ⟨batch.grown,fun verdict stands answer member => ?_,fun answer member retryable => ?_,
    fun answer member retryable => ?_,?_⟩
  · obtain ⟨round,listed,same,rfl | rfl⟩ := batch.mem_deliveries parsed member
    · obtain ⟨repeats,unchanged,quiet⟩ :=
        (told round listed same).settled verdict (standing_grows (batch.since round listed) stands)
      exact ⟨repeats,congrArg State.rows unchanged,quiet⟩
    · have repeats := ((told round listed same).settled verdict (standing_grows (batch.since round listed) stands)).1
      exact ⟨repeats.1.copyOf,rfl,rfl⟩
  · obtain ⟨round,listed,same,rfl | rfl⟩ := batch.mem_deliveries parsed member
    · exact final round listed same retryable
    · obtain ⟨verdict,stands,gives⟩ := final round listed same ((copyOf_retryable _).symm.trans retryable)
      exact ⟨verdict,stands,gives.copyOf.1⟩
  · obtain ⟨round,listed,same,rfl | rfl⟩ := batch.mem_deliveries parsed member
    · exact (told round listed same).open_ retryable
    · have absent := ((told round listed same).open_ ((copyOf_retryable _).symm.trans retryable)).1
      rw [← same] at absent ⊢
      exact ⟨(batch.kept round listed).trans absent,rfl⟩
  · refine batch.follows parsed fun round listed same retryable => ?_
    obtain ⟨verdict,-,gives⟩ := final round listed same retryable
    exact ⟨verdict,gives⟩

/-- The pushes of any callers one after the other; between and inside them other clients change rows. -/
def history (server : Server π η) : List (World σ π × List (RawOp π)) → State σ η → List (Pushed σ π η)
  | [], _ => []
  | (world,raws) :: rest, s =>
    let pushed := processPush server world raws s
    pushed :: history server rest pushed.state

/-- Every answer to one entry over a history of pushes. -/
def answersTo (raw : RawOp π) (pushes : List (Pushed σ π η)) : List (Answer σ π η) := pushes.flatMap (deliveries raw)

/-- A final answer is repeated and changes no row, a retryable one leaves no stored op, and the op's effects
are committed once at most. -/
structure RetryFinal (server : Server π η) (raw : RawOp π) (answers : List (Answer σ π η)) : Prop where
  final : answers.Pairwise fun earlier later => earlier.result.retryable = false →
    Same earlier.result later.result ∧ later.after.rows = later.before.rows
  unstored : ∀ answer ∈ answers, answer.result.retryable = true →
    ∀ op, parseOp server raw = .ok op → answer.after.ops op.opId = none
  once : (answers.filter (·.committed)).length ≤ 1

/-- Every push that carries the op keeps to its conditions. -/
def SteadyHistory (server : Server π η) (raw : RawOp π) (pushes : List (Pushed σ π η)) : Prop :=
  ∀ pushed ∈ pushes, deliveries raw pushed ≠ [] → ∀ op, parseOp server raw = .ok op →
    ∀ round ∈ pushed.table, round.op.opId = op.opId → Steady op round

omit [DecidableEq η] [DecidableEq π] in
private theorem at_most_once {answers : List (Answer σ π η)}
    (follows : answers.Pairwise fun earlier later => earlier.committed = true → later.committed = false) :
    (answers.filter (·.committed)).length ≤ 1 := by
  have none_ : (answers.filter (·.committed)).Pairwise fun _ _ => False := by
    rw [List.pairwise_filter]
    refine follows.imp fun once earlier later => ?_
    rw [once earlier] at later
    cases later
  generalize answers.filter (·.committed) = chosen at none_ ⊢
  match chosen, none_ with
  | [], _ => exact Nat.zero_le 1
  | [_], _ => exact Nat.le_refl 1
  | first :: second :: rest, clash => exact ((List.pairwise_cons.mp clash).1 second List.mem_cons_self).elim

theorem history_consistent (parsed : parseOp server raw = .ok op) (pushes : List (World σ π × List (RawOp π))) :
    ∀ s : State σ η, SteadyHistory server raw (history server pushes s) →
      ∃ later, Consistent server op s.ops later (answersTo raw (history server pushes s)) := by
  induction pushes with
  | nil => exact fun s _ => ⟨s.ops,.nil (.refl s.ops)⟩
  | cons push rest induction =>
    intro s steady
    obtain ⟨world,raws⟩ := push
    have batch := processPush_batch server world raws s
    rw [history,SteadyHistory,List.forall_mem_cons] at steady
    obtain ⟨later,consistent⟩ := induction _ steady.2
    rw [history,answersTo,List.flatMap_cons]
    refine ⟨later,Consistent.append ?_ consistent⟩
    by_cases none_ : deliveries raw (processPush server world raws s) = []
    · rw [none_]
      exact .nil batch.grown
    · exact batch.consistent parsed (steady.1 none_ op parsed)

omit [DecidableEq π] in
theorem Consistent.retryFinal {ops later : Nat → Option (SyncOp η)} {answers : List (Answer σ π η)}
    (consistent : Consistent server op ops later answers) (parsed : parseOp server raw = .ok op) :
    RetryFinal server raw answers where
  final := consistent.follows.imp Follows.final
  unstored answer member retryable other parsed' := by
    rw [parsed] at parsed'
    cases parsed'
    exact (consistent.open_ answer member retryable).1
  once := at_most_once (consistent.follows.imp Follows.once)

omit [DecidableEq η] [DecidableEq π] in
theorem parseOp_error {result : Result} (malformed : parseOp server raw = .error result) :
    result.retryable = false ∧ result.accepted = false := by
  unfold parseOp at malformed
  split at malformed
  · cases malformed
    exact ⟨rfl,rfl⟩
  · cases malformed
    exact ⟨rfl,rfl⟩
  · split at malformed
    · cases malformed
      exact ⟨rfl,rfl⟩
    · split at malformed <;> cases malformed
      exact ⟨rfl,rfl⟩

private theorem retryFinal_malformed {result : Result} (malformed : parseOp server raw = .error result)
    (pushes : List (World σ π × List (RawOp π))) (s : State σ η) :
    RetryFinal server raw (answersTo raw (history server pushes s)) := by
  have all : ∀ answer ∈ answersTo raw (history server pushes s),
      answer.result = result ∧ answer.after = answer.before ∧ answer.committed = false := by
    induction pushes generalizing s with
    | nil =>
      intro answer member
      cases member
    | cons push rest induction =>
      obtain ⟨world,raws⟩ := push
      intro answer member
      rw [history,answersTo,List.flatMap_cons,List.mem_append] at member
      rcases member with member | member
      · rw [deliveries,processPush] at member
        obtain ⟨inside,named⟩ := List.mem_filter.mp member
        obtain ⟨place,found,same⟩ := mem_answers inside
        rw [of_decide_eq_true named] at found same
        have batch := processPush_batch server world raws s
        rw [processPush] at batch
        rw [same,batch.answerOf_malformed found malformed]
        exact ⟨rfl,rfl,rfl⟩
      · exact induction _ answer member
  obtain ⟨final,refused⟩ := parseOp_error malformed
  refine ⟨List.pairwise_of_forall_mem_list fun earlier first later last _ => ?_,fun answer member retryable => ?_,?_⟩
  · rw [(all earlier first).1,(all later last).1,(all later last).2.1,Same,
      if_neg (by rw [refused]; exact Bool.false_ne_true)]
    exact ⟨⟨rfl,rfl,final⟩,rfl⟩
  · rw [(all answer member).1,final] at retryable
    cases retryable
  · refine at_most_once (List.pairwise_of_forall_mem_list fun _ _ later last _ => ?_)
    exact (all later last).2.2

/-- Retries of an op are final over every history whose pushes keep to the conditions. -/
theorem retry_final (server : Server π η) (raw : RawOp π) (pushes : List (World σ π × List (RawOp π)))
    (s : State σ η) (steady : SteadyHistory server raw (history server pushes s)) :
    RetryFinal server raw (answersTo raw (history server pushes s)) := by
  cases parsed : parseOp server raw with
  | error result => exact retryFinal_malformed parsed pushes s
  | ok op =>
    obtain ⟨later,consistent⟩ := history_consistent parsed pushes s steady
    exact consistent.retryFinal parsed

/-- The round of an op pushed alone. -/
def roundAlone (server : Server π η) (world : World σ π) (op : OpEnvelope π) (s : State σ η) : Processed σ π η :=
  match dependencyError s.ops noBatch op.dependsOn with
  | some error => ⟨0,op,false,noBatch,fun _ => none,s,s,refusal op.opId .rejected error,false⟩
  | none =>
    let found : State σ η := { s with rows := world.others op s.rows }
    let done := runOp server world op found
    ⟨0,op,false,noBatch,world.interrupt op found.rows,found,done.state,done.result,done.committed⟩

omit [DecidableEq π] in
theorem processPush_alone (server : Server π η) (world : World σ π) (s : State σ η)
    (parsed : parseOp server raw = .ok op) :
    (processPush server world [raw] s).table = [roundAlone server world op s] ∧
      (processPush server world [raw] s).state = (roundAlone server world op s).after ∧
      (processPush server world [raw] s).answers.map Answer.result = [(roundAlone server world op s).result] := by
  have first : firstOps server 0 [] [raw] = [(0,op)] := by
    rw [firstOps,parsed]
    rfl
  have picked : pick [op.opId] ([] : List (Processed σ π η)) [(0,op)] = some (0,op) := by
    rw [pick,List.find?_cons_of_pos]
    simp
  have round : processRound server world [op.opId] (0,op) [(0,op)] [] s = roundAlone server world op s := by
    unfold processRound roundAlone
    rw [picked]
    rfl
  have done : processOps server world [op.opId] 1 [(0,op)] [] s =
      ([roundAlone server world op s],(roundAlone server world op s).after) := by
    rw [← round]
    rfl
  have place : (roundAlone server world op s).index = 0 := by
    unfold roundAlone
    split <;> rfl
  have answered : ∀ t, (answerOf server [roundAlone server world op s] t 0 raw).result =
      (roundAlone server world op s).result := by
    intro t
    rw [answerOf,List.find?_cons_of_pos (by simp [place])]
  unfold processPush
  rw [first]
  change (processOps server world [op.opId] 1 [(0,op)] [] s).1 = _ ∧ (processOps server world [op.opId] 1 [(0,op)] [] s).2 = _ ∧
    [(answerOf server (processOps server world [op.opId] 1 [(0,op)] [] s).1 _ 0 raw).result] = _
  rw [done]
  exact ⟨rfl,rfl,congrArg (fun result => [result]) (answered _)⟩

omit [DecidableEq π] in
theorem steady_alone {world : World σ π} (free : op.dependsOn = []) (quiet : ∀ op rows attempt, world.interrupt op rows attempt = none) :
    Steady op (roundAlone server world op s) := by
  unfold roundAlone
  rw [free]
  refine ⟨rfl,rfl,?_,fun _ => ?_,fun _ => quiet op _⟩
  · rw [free]
    exact nofun
  · rw [free]
    rfl

def settings : Server Unit Unit := ⟨14,65536,fun _ => 0,fun _ _ _ => ()⟩

/-- A cashier who may record sales but no expenses; every accepted op counts one row. -/
def cashier : World Nat Unit where
  ctx := ⟨.active,0,["sales.create"]⟩
  validate _ _ := none
  handler op rows := .done ⟨some op.opId,none,[],false⟩ (rows + 1)
  interrupt _ _ _ := none
  others _ rows := rows

def saleOp (opId : Nat) (dependsOn : List Nat) : OpEnvelope Unit := ⟨opId,"sale.create",0,(),dependsOn⟩

def expenseOp : OpEnvelope Unit := ⟨1,"expense.create",0,(),[]⟩

def fresh : State Nat Unit := ⟨0,fun _ => none⟩

private def pushedTwice : List (World Nat Unit × List (RawOp Unit)) :=
  [(cashier,[.valid (saleOp 2 [])]),(cashier,[.valid (saleOp 2 [])])]

/-- A sale pushed twice is applied once, then reported as a duplicate. -/
theorem retry_final_twice :
    ((answersTo (.valid (saleOp 2 [])) (history settings pushedTwice fresh)).map fun a => (a.result.status,a.after.rows)) =
      [(.applied,1),(.duplicate,1)] ∧
    RetryFinal settings (.valid (saleOp 2 [])) (answersTo (.valid (saleOp 2 [])) (history settings pushedTwice fresh)) := by
  refine ⟨by decide,retry_final settings (.valid (saleOp 2 [])) pushedTwice fresh fun pushed member _ op parsed round listed _ => ?_⟩
  have alone : ∀ s : State Nat Unit, pushed = processPush settings cashier [.valid (saleOp 2 [])] s → Steady op round := by
    rintro s rfl
    rw [(processPush_alone settings cashier s parsed).1] at listed
    rw [List.mem_singleton.mp listed]
    cases parsed
    exact steady_alone rfl fun _ _ _ => rfl
  rw [pushedTwice,history,history,history] at member
  simp only [List.mem_cons,List.not_mem_nil,or_false] at member
  exact member.elim (alone _) (alone _)

def chain : List (RawOp Unit) := [.valid expenseOp,.valid (saleOp 2 [1]),.valid (saleOp 3 [2])]

/-- The third op of a chain whose first is refused gets a final error, and a retryable one when sent again. -/
theorem chain_answer_not_final : ¬RetryFinal settings (.valid (saleOp 3 [2]))
    (answersTo (.valid (saleOp 3 [2])) (history settings [(cashier,chain),(cashier,[.valid (saleOp 3 [2])])] fresh)) := by
  intro final
  have answers : (answersTo (.valid (saleOp 3 [2]))
      (history settings [(cashier,chain),(cashier,[.valid (saleOp 3 [2])])] fresh)).map
        (fun a => (a.result.retryable,a.result.error.map OpError.code)) =
      [(false,some .dependencyFailed),(true,some .dependencyMissing)] := by decide
  obtain ⟨first,rest,split,head,tail⟩ := List.map_eq_cons_iff.mp answers
  obtain ⟨second,rest',split',head',-⟩ := List.map_eq_cons_iff.mp tail
  have pair := final.final
  rw [split,split'] at pair
  have same := ((List.pairwise_cons.mp pair).1 second List.mem_cons_self (congrArg Prod.fst head)).1
  have again : second.result.retryable = false := by
    unfold Same at same
    split at same
    · exact same.2.2.2
    · exact same.2.2
  rw [show second.result.retryable = true from congrArg Prod.fst head'] at again
  cases again

end SyncPush
