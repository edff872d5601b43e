import SasBackend.Semantics.ReplaySession
import SasBackend.SyncSchedule

/-! Atomicity of pushed ops.
What a handler has done on its session is what it does where nothing fails, or it has raised a fault; so a transaction commits
all of it, with the result of the op and its audit entry, or nothing.
-/
namespace SyncPush
open Savepoint

variable {σ π η α β : Type} {strikes : Nat → Option Fault}

theorem raises_faultsOf {failure : Failure} (raises : (faultsOf strikes).Raises failure) : ∃ fault, failure = .fault fault := by
  rcases raises with rfl | ⟨call,struck⟩
  · exact ⟨_,rfl⟩
  · obtain ⟨fault,-,rfl⟩ := Option.map_eq_some_iff.mp struck
    exact ⟨fault,rfl⟩

theorem inside_replay (strikes : Nat → Option Fault) {α : Type} (script : Script σ α) :
    Inside (script.replay (faultsOf strikes) : Tx Failure (OpRows σ η) α) := by
  induction script with
  | done a => exact inside_pure a
  | step first rest induction others => exact induction.bind others
  | statement query change => exact inside_statement _ _
  | commit => exact inside_statement _ _
  | rollback => exact inside_pure ()
  | nested body induction => exact induction.nested
  | raise failure => exact inside_raise failure
  | catchHttp body handler induction others =>
    rw [Script.replay]
    refine induction.attempt.bind fun outcome => ?_
    split
    · exact inside_pure _
    · exact others _ _
    · exact inside_raise _
  | rollingBack body induction =>
    rw [Script.replay]
    refine induction.attempt.bind fun outcome => ?_
    split
    · exact inside_pure _
    · exact inside_raise _

/-- The work raises a fault, or it does to the business rows what it does where nothing fails, and nothing else. -/
def Calmly (p : Tx Failure (OpRows σ η) α) (calm : σ → Except Failure α × σ) : Prop := ∀ s, s.aborted = false →
  (∃ fault, (p s).1 = .error (.fault fault)) ∨ (p s).2.aborted = false ∧ (p s).1 = (calm s.working.rows).1 ∧
    (p s).2.working = { s.working with rows := (calm s.working.rows).2 }

def followed (calm : σ → Except Failure α × σ) (next : Except Failure α → σ → Except Failure β × σ) (rows : σ) :
    Except Failure β × σ := next (calm rows).1 (calm rows).2

theorem Calmly.attempt {p : Tx Failure (OpRows σ η) α} {calm : σ → Except Failure α × σ}
    {f : Except Failure α → Tx Failure (OpRows σ η) β} {next : Except Failure α → σ → Except Failure β × σ}
    (first : Calmly p calm) (passed : ∀ fault, f (.error (.fault fault)) = raise (.fault fault))
    (later : ∀ outcome, Calmly (f outcome) (next outcome)) : Calmly (Savepoint.attempt p >>= f) (followed calm next) := by
  intro s sound
  change (∃ fault, (f (p s).1 (p s).2).1 = _) ∨ (f (p s).1 (p s).2).2.aborted = false ∧ (f (p s).1 (p s).2).1 = _ ∧
    (f (p s).1 (p s).2).2.working = _
  rcases first s sound with ⟨fault,struck⟩ | ⟨sound',outcome,working⟩
  · left
    rw [struck,passed]
    exact ⟨fault,rfl⟩
  · rcases later (p s).1 (p s).2 sound' with struck | ⟨sound'',outcome',working'⟩
    · exact .inl struck
    · right
      rw [working,outcome] at outcome' working'
      exact ⟨sound'',by rw [outcome]; exact outcome',by rw [outcome]; exact working'⟩

theorem calmly_pure (a : α) : Calmly (pure a : Tx Failure (OpRows σ η) α) fun rows => (.ok a,rows) :=
  fun _ sound => .inr ⟨sound,rfl,rfl⟩

theorem calmly_raise (failure : Failure) : Calmly (raise failure : Tx Failure (OpRows σ η) α) fun rows => (.error failure,rows) :=
  fun _ sound => .inr ⟨sound,rfl,rfl⟩

theorem calmly_statement (query : σ → α) (change : σ → σ) : Calmly (statement (faultsOf strikes) (fun l => query l.rows)
    fun l : OpRows σ η => { l with rows := change l.rows }) fun rows => (.ok (query rows),change rows) := by
  intro s sound
  unfold statement
  cases struck : (faultsOf strikes).fault s with
  | some failure =>
    obtain ⟨fault,rfl⟩ := raises_faultsOf (raises_of_fault struck)
    exact .inl ⟨fault,rfl⟩
  | none => exact .inr ⟨sound,rfl,rfl⟩

def continued (next : α → σ → Except Failure β × σ) : Except Failure α → σ → Except Failure β × σ
  | .ok a, rows => next a rows
  | .error failure, rows => (.error failure,rows)

def reraising (f : α → Tx Failure (OpRows σ η) β) : Except Failure α → Tx Failure (OpRows σ η) β
  | .ok a => f a
  | .error failure => raise failure

theorem bind_eq_attempt (p : Tx Failure (OpRows σ η) α) (f : α → Tx Failure (OpRows σ η) β) :
    p >>= f = Savepoint.attempt p >>= reraising f := by
  funext s
  change Tx.bind p f s = reraising f (p s).1 (p s).2
  unfold Tx.bind
  cases p s with
  | mk outcome t => cases outcome <;> rfl

theorem Calmly.bind {p : Tx Failure (OpRows σ η) α} {calm : σ → Except Failure α × σ} {f : α → Tx Failure (OpRows σ η) β}
    {next : α → σ → Except Failure β × σ} (first : Calmly p calm) (later : ∀ a, Calmly (f a) (next a)) :
    Calmly (p >>= f) (followed calm (continued next)) := by
  rw [bind_eq_attempt]
  refine first.attempt (fun _ => rfl) fun outcome => ?_
  cases outcome with
  | ok a => exact later a
  | error failure => exact calmly_raise failure

theorem Calmly.nested {p : Tx Failure (OpRows σ η) α} {calm : σ → Except Failure α × σ} (calmly : Calmly p calm)
    (inside : Inside p) : Calmly (Savepoint.nested (faultsOf strikes) p) fun rows => match calm rows with
      | (.ok a,changed) => (.ok a,changed)
      | (.error failure,_) => (.error failure,rows) := by
  intro s sound
  have body := calmly s.entered sound
  have ended := nested_ended (faultsOf strikes) inside s
  generalize Savepoint.nested (faultsOf strikes) p s = left at ended
  dsimp only
  cases ended with
  | struck raises =>
    obtain ⟨fault,rfl⟩ := raises_faultsOf raises
    exact .inl ⟨fault,rfl⟩
  | raised ran kept sound' none_ =>
    rw [ran] at body
    rcases body with struck | ⟨-,outcome,-⟩
    · exact .inl struck
    · have outcome_ : Except.error _ = (calm s.working.rows).1 := outcome
      right
      split
      · next a changed same =>
        rw [same] at outcome_
        cases outcome_
      · next failure changed same =>
        rw [same] at outcome_
        exact ⟨sound',outcome_,none_⟩
  | returned ran kept sound' alive all =>
    rw [ran] at body
    rcases body with ⟨fault,struck⟩ | ⟨-,outcome,working⟩
    · cases struck
    · have outcome_ : Except.ok _ = (calm s.working.rows).1 := outcome
      have working_ : _ = { s.working with rows := (calm s.working.rows).2 } := working
      right
      split
      · next a changed same =>
        rw [same] at outcome_ working_
        exact ⟨sound',outcome_,all.trans working_⟩
      · next failure changed same =>
        rw [same] at outcome_
        cases outcome_

def caught (handler : Nat → String → Script σ α) : Except Failure α → σ → Except Failure α × σ
  | .error (.httpException statusCode detail), rows => (handler statusCode detail).calm rows
  | other, rows => (other,rows)

/-- Nothing that a script catches is a fault of the database. -/
theorem calmly_replay (strikes : Nat → Option Fault) {α : Type} (script : Script σ α) :
    Calmly (script.replay (faultsOf strikes) : Tx Failure (OpRows σ η) α) script.calm := by
  induction script with
  | done a => exact calmly_pure a
  | step first rest induction others =>
    have same : (Script.step first rest).calm = followed first.calm (continued fun b => (rest b).calm) := by
      funext rows
      rw [Script.calm,followed]
      cases first.calm rows with
      | mk outcome changed => cases outcome <;> rfl
    rw [same]
    exact induction.bind others
  | statement query change => exact calmly_statement query change
  | commit => exact calmly_statement (fun _ => ()) id
  | rollback => exact calmly_pure ()
  | nested body induction => exact induction.nested (inside_replay strikes body)
  | raise failure => exact calmly_raise failure
  | catchHttp body handler induction others =>
    have same : (Script.catchHttp body handler).calm = followed body.calm (caught handler) := by
      funext rows
      rw [Script.calm,followed]
      cases body.calm rows with
      | mk outcome changed => cases outcome with
        | ok a => rfl
        | error failure => cases failure <;> rfl
    rw [same,Script.replay]
    refine induction.attempt (fun _ => rfl) fun outcome => ?_
    cases outcome with
    | ok a => exact calmly_pure a
    | error failure => cases failure with
      | reject rejection => exact calmly_raise _
      | httpException statusCode detail => exact others statusCode detail
      | fault fault => exact calmly_raise _
  | rollingBack body induction =>
    have same : (Script.rollingBack body).calm = followed body.calm fun outcome rows => (outcome,rows) := rfl
    rw [same,Script.replay]
    refine induction.attempt (fun _ => rfl) fun outcome => ?_
    cases outcome with
    | ok a => exact calmly_pure a
    | error failure => exact calmly_raise failure

def refusedBy : Failure → Option OpReject
  | .reject rejection => some rejection
  | .httpException statusCode detail => some (mapHttp statusCode detail)
  | .fault (.integrityError reason) => some ⟨.idConflict,s!"Conflicts with existing data ({reason})",false,true⟩
  | .fault (.databaseError _) | .fault .crash => none

section Op
variable [DecidableEq η] {server : Server π η} {p : Replay σ π} {op : OpEnvelope π} {l : OpRows σ η}

def OpRows.audited (l : OpRows σ η) (op : OpEnvelope π) (outcome : Outcome) (result : Result) : OpRows σ η :=
  if outcome.alreadyApplied then l else { l with audits := l.audits ++ [auditEntry op result] }

/-- What the gate, the validation and the handler come to where nothing fails. -/
def Replay.calm (server : Server π η) (p : Replay σ π) (op : OpEnvelope π) (rows : σ) : Except Failure Outcome × σ :=
  match gate server p.ctx op with
  | some rejection => (.error (.reject rejection),rows)
  | none => match p.validate op.type op.payload with
    | some message => (.error (.reject ⟨.malformedPayload,message,false,false⟩),rows)
    | none => match (p.handlerOf op).calm rows with
      | (.ok outcome,changed) => (.ok outcome,changed)
      | (.error failure,_) => (.error failure,rows)

/-- The session once the op is locked and not found in the log. -/
def OpRows.sought (l : OpRows σ η) : Session (OpRows σ η) := ⟨l,l,[],false,2⟩

/-- An attempt: it fails and leaves nothing, finds the op answered, refuses it, or applies it. -/
inductive Once (server : Server π η) (p : Replay σ π) (op : OpEnvelope π) (faults : Faults Failure) (l : OpRows σ η) :
    Except Failure Result → OpRows σ η → Prop
  | failed (failure : Failure) : Once server p op faults l (.error failure) l
  | known (row : SyncOp η) (stored : l.stored = some row) : Once server p op faults l (.ok (answerStored server op row)) l
  | refused (failure : Failure) (rejection : OpReject) (new : l.stored = none)
      (raised : (evaluateOp server p op faults l.sought).1 = .error failure) (refuses : refusedBy failure = some rejection) :
      Once server p op faults l (.ok (finishRejected server op rejection l.state).result)
        (.ofState op.opId (finishRejected server op rejection l.state).state)
  | applied (outcome : Outcome) (rows : σ) (new : l.stored = none)
      (returned : (evaluateOp server p op faults l.sought).1 = .ok outcome) (calm : p.calm server op l.rows = (.ok outcome,rows)) :
      Once server p op faults l (.ok (finishApplied server p.ctx op outcome { l with rows := rows }.state).result)
        (OpRows.audited (.ofState op.opId (finishApplied server p.ctx op outcome { l with rows := rows }.state).state) op outcome
          (finishApplied server p.ctx op outcome { l with rows := rows }.state).result)

omit [DecidableEq η] in
theorem inside_evaluateOp (server : Server π η) (p : Replay σ π) (op : OpEnvelope π) (strikes : Nat → Option Fault) : Inside (evaluateOp server p op (faultsOf strikes) : Tx Failure (OpRows σ η) Outcome) := by
  unfold evaluateOp
  split
  · exact inside_raise _
  · split
    · exact inside_raise _
    · exact (inside_replay _ _).nested

omit [DecidableEq η] in
theorem evaluateOp_calm {s : Session (OpRows σ η)} (sound : s.aborted = false) {outcome : Except Failure Outcome}
    {t : Session (OpRows σ η)} (ran : evaluateOp server p op (faultsOf strikes) s = (outcome,t)) (alive : t.aborted = false) :
    (∀ failure, outcome = .error failure → t.working = s.working) ∧ ∀ found, outcome = .ok found →
      p.calm server op s.working.rows = (.ok found,t.working.rows) ∧ t.working = { s.working with rows := t.working.rows } := by
  unfold evaluateOp at ran
  unfold Replay.calm
  cases gated : gate server p.ctx op with
  | some rejection =>
    rw [gated] at ran
    cases ran
    exact ⟨fun _ _ => rfl,nofun⟩
  | none => cases valid : p.validate op.type op.payload with
    | some message =>
      rw [gated,valid] at ran
      cases ran
      exact ⟨fun _ _ => rfl,nofun⟩
    | none =>
      rw [gated,valid] at ran
      have ended := nested_ended (faultsOf strikes) (inside_replay strikes (p.handlerOf op)) s
      dsimp only at ran
      rw [ran] at ended
      cases ended with
      | struck raises kept none_ => exact ⟨fun _ _ => none_ alive,nofun⟩
      | raised ran' kept sound' none_ => exact ⟨fun _ _ => none_,nofun⟩
      | @returned found _ u ran' kept sound' alive' all =>
        refine ⟨nofun,fun other same => ?_⟩
        cases same
        have calmly := calmly_replay strikes (p.handlerOf op) s.entered sound
        rw [ran'] at calmly
        obtain ⟨-,outcome,working⟩ := calmly.resolve_left fun ⟨_,struck⟩ => nomatch struck
        have whole : t.working = { s.working with rows := ((p.handlerOf op).calm s.working.rows).2 } := all.trans working
        have calm : (p.handlerOf op).calm s.working.rows = (.ok found,t.working.rows) :=
          Prod.ext outcome.symm (by rw [whole])
        rw [calm] at whole ⊢
        exact ⟨rfl,whole⟩

variable {faults : Faults Failure}

/-- A refusal is stored when it is final, and always committed. -/
def refusing (server : Server π η) (op : OpEnvelope π) (faults : Faults Failure) (rejection : OpReject) :
    Tx Failure (OpRows σ η) Unit :=
  if rejection.retryable = false then execute faults fun l => .ofState op.opId (finishRejected server op rejection l.state).state
  else pure ()

omit [DecidableEq η] in
theorem refusing_inside (rejection : OpReject) : Inside (refusing (σ := σ) server op faults rejection) := by
  unfold refusing
  split
  · exact inside_statement _ _
  · exact inside_pure ()

omit [DecidableEq η] in
theorem refusing_ok {rejection : OpReject} {s t : Session (OpRows σ η)} (ran : refusing server op faults rejection s = (.ok (),t)) :
    t.working = .ofState op.opId (finishRejected server op rejection s.working.state).state := by
  unfold refusing at ran
  split at ran
  · rcases statement_cases faults _ _ s with ⟨failure,struck⟩ | same
    · rw [execute,struck] at ran
      cases ran
    · rw [execute,same] at ran
      cases ran
      rfl
  · next final =>
    cases ran
    rw [finishRejected,dif_neg final]
    rfl

omit [DecidableEq η] in
theorem storeRejected_cases (rejection : OpReject) (s : Session (OpRows σ η)) :
    (∃ failure t, storeRejected server op faults rejection s = (.error failure,t) ∧ t.committed = s.committed) ∨
      ∃ t, storeRejected server op faults rejection s = (.ok (finishRejected server op rejection s.working.state).result,t) ∧
        s.aborted = false ∧ t.committed = .ofState op.opId (finishRejected server op rejection s.working.state).state := by
  have whole : (storeRejected server op faults rejection : Tx Failure (OpRows σ η) Result) =
      committing faults (refusing server op faults rejection) fun _ =>
        refusal op.opId rejection.status ⟨rejection.code,rejection.message,rejection.retryable⟩ := by
    unfold storeRejected committing refusing
    split
    · rfl
    · rfl
  rw [whole]
  rcases committing_cases (refusing_inside rejection) _ s with failed | ⟨_,t,u,sound,ran,done,kept⟩
  · exact .inl failed
  · refine .inr ⟨t,?_,sound,kept.trans (refusing_ok ran)⟩
    rw [done,finishRejected]
    split <;> rfl

/-- An applied result is stored, and audited when it is the first one. -/
def applying (server : Server π η) (p : Replay σ π) (op : OpEnvelope π) (faults : Faults Failure) (outcome : Outcome) :
    Tx Failure (OpRows σ η) Result :=
  statement faults (fun l => (finishApplied server p.ctx op outcome l.state).result)
    (fun l => .ofState op.opId (finishApplied server p.ctx op outcome l.state).state) >>= fun result =>
      (if outcome.alreadyApplied = false then execute faults fun l => { l with audits := l.audits ++ [auditEntry op result] }
        else pure ()) >>= fun _ => pure result

omit [DecidableEq η] in
theorem applying_inside (outcome : Outcome) : Inside (applying server p op faults outcome : Tx Failure (OpRows σ η) Result) := by
  refine (inside_statement _ _).bind fun result => Inside.bind ?_ fun _ => inside_pure result
  split
  · exact inside_statement _ _
  · exact inside_pure ()

omit [DecidableEq η] in
theorem applying_ok {outcome : Outcome} {result : Result} {s t : Session (OpRows σ η)}
    (ran : applying server p op faults outcome s = (.ok result,t)) :
    result = (finishApplied server p.ctx op outcome s.working.state).result ∧ t.working =
      OpRows.audited (.ofState op.opId (finishApplied server p.ctx op outcome s.working.state).state) op outcome result := by
  rw [applying,bind_run] at ran
  rcases statement_cases faults _ _ s with ⟨failure,struck⟩ | same
  · rw [struck] at ran
    cases ran
  · rw [same] at ran
    dsimp only at ran
    unfold OpRows.audited
    split at ran
    · next first =>
      rw [bind_run,execute] at ran
      rcases statement_cases faults _ _ _ with ⟨failure,struck⟩ | same
      · rw [struck] at ran
        cases ran
      · rw [same] at ran
        cases ran
        rw [first]
        exact ⟨rfl,rfl⟩
    · next again =>
      rw [pure_bind] at ran
      cases ran
      rw [if_pos (by simpa using again)]
      exact ⟨rfl,rfl⟩

omit [DecidableEq η] in
theorem storeApplied_cases (outcome : Outcome) (s : Session (OpRows σ η)) :
    (∃ failure t, storeApplied server p op faults outcome s = (.error failure,t) ∧ t.committed = s.committed) ∨
      ∃ t, storeApplied server p op faults outcome s =
          (.ok (finishApplied server p.ctx op outcome s.working.state).result,t) ∧ s.aborted = false ∧
        t.committed = OpRows.audited (.ofState op.opId (finishApplied server p.ctx op outcome s.working.state).state) op outcome
          (finishApplied server p.ctx op outcome s.working.state).result := by
  have whole : (storeApplied server p op faults outcome : Tx Failure (OpRows σ η) Result) =
      committing faults (applying server p op faults outcome) id := by
    unfold storeApplied committing applying
    rw [bind_assoc]
    congr 1
    funext result
    split
    · simp
    · simp
  rw [whole]
  rcases committing_cases (applying_inside outcome) id s with failed | ⟨result,t,u,sound,ran,done,kept⟩
  · exact .inl failed
  · obtain ⟨rfl,working⟩ := applying_ok ran
    exact .inr ⟨t,done,sound,kept.trans working⟩

def finishing (server : Server π η) (p : Replay σ π) (op : OpEnvelope π) (faults : Faults Failure) :
    Except Failure Outcome → Tx Failure (OpRows σ η) Result
  | .ok outcome => storeApplied server p op faults outcome
  | .error failure => match refusedBy failure with
    | some rejection => storeRejected server op faults rejection
    | none => raise failure

theorem replayOpOnce_eq : (replayOpOnce server p op faults : Tx Failure (OpRows σ η) Result) =
    execute faults id >>= fun _ => select faults OpRows.stored >>= fun stored => match stored with
      | some row => committing faults (pure ()) fun _ => answerStored server op row
      | none => attempt (evaluateOp server p op faults) >>= finishing server p op faults := by
  unfold replayOpOnce
  congr 1
  funext _
  congr 1
  funext stored
  cases stored with
  | some row => rfl
  | none =>
    dsimp only
    congr 1
    funext outcome
    cases outcome with
    | ok outcome => rfl
    | error failure => cases failure with
      | fault fault => cases fault <;> rfl
      | _ => rfl

private theorem finishing_once {outcome : Except Failure Outcome} {t : Session (OpRows σ η)} (new : l.stored = none)
    (ran : evaluateOp server p op (faultsOf strikes) l.sought = (outcome,t)) :
    Once server p op (faultsOf strikes) l (finishing server p op (faultsOf strikes) outcome t).1
      (finishing server p op (faultsOf strikes) outcome t).2.committed := by
  have kept : t.committed = l := by
    have inside := (inside_evaluateOp server p op strikes l.sought).1
    rw [ran] at inside
    exact inside
  have result : (evaluateOp server p op (faultsOf strikes) l.sought).1 = outcome := congrArg Prod.fst ran
  cases outcome with
  | ok outcome =>
    rcases storeApplied_cases outcome t with ⟨failure,u,done,same⟩ | ⟨u,done,alive,same⟩
    · rw [finishing,done,same,kept]
      exact .failed failure
    · obtain ⟨calm,working⟩ := (evaluateOp_calm rfl ran alive).2 outcome rfl
      rw [finishing,done,same,working]
      exact .applied outcome t.working.rows new result calm
  | error failure =>
    rw [finishing]
    cases refuses : refusedBy failure with
    | none =>
      dsimp only
      rw [raise,kept]
      exact .failed failure
    | some rejection =>
      dsimp only
      rcases storeRejected_cases rejection t with ⟨failure,u,done,same⟩ | ⟨u,done,alive,same⟩
      · rw [done,same,kept]
        exact .failed failure
      · have working : t.working = l := (evaluateOp_calm rfl ran alive).1 failure rfl
        rw [done,same,working]
        exact .refused failure rejection new result refuses

theorem replayOpOnce_once (strikes : Nat → Option Fault) (l : OpRows σ η) :
    Once server p op (faultsOf strikes) l (replayOpOnce server p op (faultsOf strikes) (.idle l)).1
      (replayOpOnce server p op (faultsOf strikes) (.idle l)).2.committed := by
  rw [replayOpOnce_eq,bind_run,execute]
  rcases statement_cases (faultsOf strikes) (fun _ => ()) id (Session.idle l) with ⟨failure,struck⟩ | locked
  · rw [struck]
    exact .failed failure
  rw [locked]
  dsimp only
  rw [bind_run,select]
  rcases statement_cases (faultsOf strikes) OpRows.stored id _ with ⟨failure,struck⟩ | read
  · rw [struck]
    exact .failed failure
  rw [read]
  have known : (id (Session.idle l).working).stored = l.stored := rfl
  dsimp only
  rw [known]
  cases stored : l.stored with
  | some row =>
    change Once server p op (faultsOf strikes) l (committing (faultsOf strikes) (pure ()) _ l.sought).1
      (committing (faultsOf strikes) (pure ()) _ l.sought).2.committed
    rcases committing_cases (inside_pure ()) (fun _ => answerStored server op row) l.sought with
      ⟨failure,t,done,kept⟩ | ⟨_,t,u,-,ran,done,kept⟩
    · rw [done,kept]
      exact .failed failure
    · cases ran
      rw [done,kept]
      exact .known row stored
  | none => exact finishing_once stored rfl

def Replay.attempt (server : Server π η) (p : Replay σ π) (op : OpEnvelope π) (l : OpRows σ η) (attempt : Nat) :
    Except Failure Result × Session (OpRows σ η) := replayOpOnce server p op (faultsOf (p.faults op l.rows attempt)) (.idle l)

def Replay.completes (server : Server π η) (p : Replay σ π) (op : OpEnvelope π) (l : OpRows σ η) (attempt : Nat) : Bool :=
  (p.attempt server op l attempt).1.isOk

/-- What the handler came to in the attempt that completes. -/
def Replay.handled (server : Server π η) (p : Replay σ π) (op : OpEnvelope π) (l : OpRows σ η) : Except Failure Outcome :=
  match [0,1,2].find? (p.completes server op l) with
  | some attempt => (evaluateOp server p op (faultsOf (p.faults op l.rows attempt)) l.sought).1
  | none => .error (.fault .crash)

/-- The push with whole ops for steps; `ops` is the log it starts with. -/
def replayWorld (server : Server π η) (p : Replay σ π) (ops : Nat → Option (SyncOp η)) : World (σ × List Audit) π where
  ctx := p.ctx
  validate := p.validate
  handler op found := match p.handled server op ⟨found.1,found.2,none⟩ with
    | .ok outcome =>
      let changed : OpRows σ η := ⟨((p.handlerOf op).calm found.1).2,found.2,none⟩
      let audited := changed.audited op outcome (finishApplied server p.ctx op outcome changed.state).result
      .done outcome (audited.rows,audited.audits)
    | .error failure => .reject ((refusedBy failure).getD ⟨.internalError,"",true,false⟩)
  interrupt op found attempt := match (p.attempt server op ⟨found.1,found.2,ops op.opId⟩ attempt).1 with
    | .ok _ => none
    | .error failure => some (interruptOf failure)
  others := p.others

variable {ops : Nat → Option (SyncOp η)} {s : State (σ × List Audit) η}

theorem runOpOnce_known {row : SyncOp η} {world : World (σ × List Audit) π} (stored : s.ops op.opId = some row) :
    runOpOnce server world op s = ⟨answerStored server op row,s,false⟩ := by
  unfold runOpOnce answerStored
  rw [stored]
  dsimp only
  split
  · rfl
  · split
    · rfl
    · rfl

@[simp] theorem replayWorld_ctx : (replayWorld server p ops).ctx = p.ctx := rfl

@[simp] theorem replayWorld_validate : (replayWorld server p ops).validate = p.validate := rfl

/-- A refusal at the gate, in the validation or by the handler is one for the push. -/
theorem evaluate_refused {failure : Failure} {rejection : OpReject} {found : σ × List Audit}
    (handled : p.handled server op ⟨found.1,found.2,none⟩ = .error failure) (refuses : refusedBy failure = some rejection)
    {faults : Faults Failure} {t : Session (OpRows σ η)} (raised : (evaluateOp server p op faults t).1 = .error failure) :
    evaluate server (replayWorld server p ops) op found = .error rejection := by
  unfold evaluateOp at raised
  rw [evaluate,replayWorld_ctx,replayWorld_validate]
  cases gated : gate server p.ctx op with
  | some other =>
    rw [gated] at raised
    cases raised
    cases refuses
    rfl
  | none => cases valid : p.validate op.type op.payload with
    | some message =>
      rw [gated,valid] at raised
      cases raised
      cases refuses
      rfl
    | none =>
      have refusing : (replayWorld server p ops).handler op found = .reject rejection := by
        simp only [replayWorld,handled,refuses,Option.getD_some]
      rw [refusing]

/-- What the push makes of an applied op. -/
theorem evaluate_applied (ops : Nat → Option (SyncOp η)) {outcome : Outcome} {rows : σ}
    (handled : p.handled server op ⟨s.rows.1,s.rows.2,none⟩ = .ok outcome)
    (calm : p.calm server op s.rows.1 = (.ok outcome,rows)) : ∃ changed,
      evaluate server (replayWorld server p ops) op s.rows = .ok (outcome,changed) ∧
        OpRows.audited (.ofState op.opId
            (finishApplied server p.ctx op outcome (OpRows.mk rows s.rows.2 (s.ops op.opId)).state).state) op outcome
          (finishApplied server p.ctx op outcome (OpRows.mk rows s.rows.2 (s.ops op.opId)).state).result =
        .ofState op.opId (finishApplied server p.ctx op outcome { s with rows := changed }).state := by
  unfold Replay.calm at calm
  rw [evaluate,replayWorld_ctx,replayWorld_validate]
  cases gated : gate server p.ctx op with
  | some rejection =>
    rw [gated] at calm
    cases calm
  | none => cases valid : p.validate op.type op.payload with
    | some message =>
      rw [gated,valid] at calm
      cases calm
    | none =>
      rw [gated,valid] at calm
      dsimp only at calm
      have changed : ((p.handlerOf op).calm s.rows.1).2 = rows := by
        split at calm
        · next same =>
          cases calm
          rw [same]
        · cases calm
      simp only [replayWorld,handled,changed]
      refine ⟨_,rfl,?_⟩
      unfold OpRows.audited
      split
      · simp [OpRows.ofState,OpRows.state,finishApplied,storeOp]
      · simp [OpRows.ofState,OpRows.state,finishApplied,storeOp]

/-- The attempt that completes is the one transaction of the op. -/
theorem runOpOnce_replayed (ops : Nat → Option (SyncOp η)) {attempt : Nat} {result : Result} {t : Session (OpRows σ η)}
    (done : p.attempt server op (.ofState op.opId s) attempt = (.ok result,t))
    (first : p.handled server op (.ofState op.opId s) =
      (evaluateOp server p op (faultsOf (p.faults op s.rows.1 attempt)) (OpRows.ofState op.opId s).sought).1) :
    (runOpOnce server (replayWorld server p ops) op s).result = result ∧
      .ofState op.opId (runOpOnce server (replayWorld server p ops) op s).state = t.committed := by
  have once : Once server p op _ (.ofState op.opId s) (p.attempt server op (.ofState op.opId s) attempt).1
    (p.attempt server op (.ofState op.opId s) attempt).2.committed := replayOpOnce_once (p.faults op s.rows.1 attempt) _
  rw [done] at once
  dsimp only at once
  generalize left : t.committed = l at once ⊢
  cases once with
  | known row stored =>
    rw [runOpOnce_known stored]
    exact ⟨rfl,rfl⟩
  | refused failure rejection new raised refuses =>
    have absent : s.ops op.opId = none := new
    have own : OpRows.ofState op.opId s = ⟨s.rows.1,s.rows.2,none⟩ := by rw [OpRows.ofState,absent]
    have handled := first.trans raised
    rw [own] at handled
    have refusing : evaluate server (replayWorld server p ops) op s.rows = .error rejection :=
      evaluate_refused handled refuses raised
    unfold runOpOnce
    rw [absent,refusing]
    unfold finishRejected
    by_cases final : rejection.retryable = false
    · simp [final,OpRows.ofState,OpRows.state,storeOp]
    · simp [final,OpRows.ofState,OpRows.state]
  | applied outcome rows new returned calm =>
    have absent : s.ops op.opId = none := new
    have own : OpRows.ofState op.opId s = ⟨s.rows.1,s.rows.2,none⟩ := by rw [OpRows.ofState,absent]
    have handled := first.trans returned
    rw [own] at handled
    obtain ⟨changed,applies,audited⟩ := evaluate_applied ops handled calm
    unfold runOpOnce
    rw [absent,applies]
    exact ⟨rfl,audited.symm⟩

private theorem attempt_failed {attempt : Nat} {l : OpRows σ η} {failure : Failure} {t : Session (OpRows σ η)}
    (failed : p.attempt server op l attempt = (.error failure,t)) : t.committed = l := by
  have once : Once server p op _ l (p.attempt server op l attempt).1 (p.attempt server op l attempt).2.committed :=
    replayOpOnce_once (p.faults op l.rows attempt) l
  rw [failed] at once
  dsimp only at once
  generalize t.committed = left at once ⊢
  cases once
  rfl

theorem interrupt_replayed (own : ops op.opId = s.ops op.opId) (attempt : Nat) :
    (replayWorld server p ops).interrupt op s.rows attempt =
      match (p.attempt server op (.ofState op.opId s) attempt).1 with
      | .ok _ => none
      | .error failure => some (interruptOf failure) := by
  rw [OpRows.ofState,← own]
  rfl

/-- The attempts of an op are those of the push, as long as none before has completed. -/
theorem replayAttempts_eq (own : ops op.opId = s.ops op.opId) (left : List Nat)
    (none_ : left.find? (p.completes server op (.ofState op.opId s)) = [0,1,2].find? (p.completes server op (.ofState op.opId s))) :
    replayAttempts server p op (.ofState op.opId s) left =
      ((attempts server (replayWorld server p ops) op s left).result,
        .ofState op.opId (attempts server (replayWorld server p ops) op s left).state) := by
  induction left with
  | nil => rfl
  | cons attempt rest induction =>
    have interrupted : (replayWorld server p ops).interrupt op s.rows attempt = _ := interrupt_replayed own attempt
    cases ran : p.attempt server op (.ofState op.opId s) attempt with
    | mk outcome t =>
      have ran_ : replayOpOnce server p op (faultsOf (p.faults op (OpRows.ofState op.opId s).rows attempt))
        (.idle (.ofState op.opId s)) = (outcome,t) := ran
      rw [ran] at interrupted
      rw [replayAttempts,ran_,attempts,interrupted]
      cases outcome with
      | ok result =>
        have completes : p.completes server op (.ofState op.opId s) attempt = true := by
          rw [Replay.completes,ran]
          rfl
        rw [List.find?_cons_of_pos completes] at none_
        have first : p.handled server op (.ofState op.opId s) =
            (evaluateOp server p op (faultsOf (p.faults op s.rows.1 attempt)) (OpRows.ofState op.opId s).sought).1 := by
          rw [Replay.handled,← none_]
          rfl
        obtain ⟨same,state⟩ := runOpOnce_replayed ops ran first
        dsimp only
        rw [same,state]
      | error failure =>
        have kept := attempt_failed ran
        have open_ : ¬p.completes server op (.ofState op.opId s) attempt = true := by
          rw [Replay.completes,ran]
          exact Bool.false_ne_true
        rw [List.find?_cons_of_neg open_] at none_
        dsimp only
        cases interruptOf failure with
        | deadlock =>
          rw [kept]
          exact induction none_
        | databaseError =>
          rw [kept]
          rfl
        | crash =>
          rw [kept]
          rfl

theorem replayOp_eq (server : Server π η) (p : Replay σ π) (own : ops op.opId = s.ops op.opId) : replayOp server p op (.ofState op.opId s) =
    ((runOp server (replayWorld server p ops) op s).result,.ofState op.opId (runOp server (replayWorld server p ops) op s).state) :=
  replayAttempts_eq own [0,1,2] rfl

/-- An op is applied, with its effects, its result and its audit entry, or nothing of the business rows and the audit log
changes. -/
inductive Whole (p : Replay σ π) (op : OpEnvelope π) (l : OpRows σ η) : Result → OpRows σ η → Prop
  | applied (outcome : Outcome) (rows : σ) (row : SyncOp η) (new : l.stored = none) (first : outcome.alreadyApplied = false)
      (calm : (p.handlerOf op).calm l.rows = (.ok outcome,rows)) (status : row.status = .applied) :
      Whole p op l row.result ⟨rows,l.audits ++ [auditEntry op row.result],some row⟩
  | nothing (result : Result) (stored : Option (SyncOp η)) : Whole p op l result ⟨l.rows,l.audits,stored⟩

omit [DecidableEq η] in
theorem handlerOf_again {rows changed : σ} {outcome : Outcome} (calm : (p.handlerOf op).calm rows = (.ok outcome,changed))
    (again : outcome.alreadyApplied = true) : changed = rows := by
  have fresh_ {rows : σ} (calm : (p.fresh op).calm rows = (.ok outcome,changed)) : False := by
    rw [Replay.fresh,Script.calm] at calm
    split at calm
    · cases calm
      cases again
    · cases calm
  unfold Replay.handlerOf at calm
  split at calm
  · rw [Script.calm,Script.calm] at calm
    dsimp only at calm
    split at calm
    · cases calm
      rfl
    · exact (fresh_ calm).elim
  · exact (fresh_ calm).elim

omit [DecidableEq η] in
theorem calm_handler {rows changed : σ} {outcome : Outcome} (calm : p.calm server op rows = (.ok outcome,changed)) :
    (p.handlerOf op).calm rows = (.ok outcome,changed) := by
  unfold Replay.calm at calm
  split at calm
  · cases calm
  · split at calm
    · cases calm
    · split at calm
      · next same =>
        cases calm
        exact same
      · cases calm

omit [DecidableEq η] in
private theorem finishApplied_first {ctx : Ctx} {outcome : Outcome} {σ' : Type} (s : State σ' η)
    (first : outcome.alreadyApplied = false) : ∃ row : SyncOp η,
      (finishApplied server ctx op outcome s).state = storeOp s op.opId row ∧
        (finishApplied server ctx op outcome s).result = row.result ∧ row.status = .applied := by
  refine ⟨_,rfl,?_,rfl⟩
  simp [finishApplied,first]

theorem Once.whole {result : Result} {left : OpRows σ η} (once : Once server p op faults l (.ok result) left) :
    Whole p op l result left := by
  cases once with
  | known row stored => exact .nothing _ _
  | refused failure rejection new raised refuses =>
    unfold finishRejected
    dsimp only
    split
    · exact .nothing _ _
    · exact .nothing _ _
  | applied outcome rows new returned calm =>
    have handler := calm_handler calm
    unfold OpRows.audited
    split
    · next again =>
      rw [handlerOf_again handler again]
      exact .nothing _ _
    · next again =>
      have first : outcome.alreadyApplied = false := by simpa using again
      obtain ⟨row,state,same,status⟩ : ∃ row : SyncOp η, _ ∧ (finishApplied server p.ctx op outcome _).result = row.result ∧ _ :=
        finishApplied_first ({ l with rows := rows } : OpRows σ η).state first
      rw [state,same]
      have left : OpRows.ofState op.opId (storeOp ({ l with rows := rows } : OpRows σ η).state op.opId row) =
          ⟨rows,l.audits,some row⟩ := by simp [OpRows.ofState,OpRows.state,storeOp]
      rw [left]
      exact .applied outcome rows row new first handler status

theorem replayAttempts_whole (server : Server π η) (p : Replay σ π) (op : OpEnvelope π) (l : OpRows σ η) (left : List Nat) :
    Whole p op l (replayAttempts server p op l left).1 (replayAttempts server p op l left).2 := by
  induction left with
  | nil => exact .nothing _ l.stored
  | cons attempt rest induction =>
    rw [replayAttempts]
    have once : Once server p op _ l (p.attempt server op l attempt).1 (p.attempt server op l attempt).2.committed :=
      replayOpOnce_once (p.faults op l.rows attempt) l
    cases ran : p.attempt server op l attempt with
    | mk outcome t =>
      have ran_ : replayOpOnce server p op (faultsOf (p.faults op l.rows attempt)) (.idle l) = (outcome,t) := ran
      rw [ran_]
      rw [ran] at once
      cases outcome with
      | ok result => exact once.whole
      | error failure =>
        dsimp only
        rw [attempt_failed ran]
        cases interruptOf failure with
        | deadlock => exact induction
        | databaseError => exact .nothing _ l.stored
        | crash => exact .nothing _ l.stored

/-- Every op finds the log's answer to its id as the push found it. -/
theorem processOps_own {world : World σ π} {start : State σ η} (inBatch : List Nat) (fuel : Nat) :
    ∀ {remaining : List (Nat × OpEnvelope π)} {table : List (Processed σ π η)} {s : State σ η},
      (remaining.map Prod.fst).Nodup → (opIds remaining).Nodup →
        (∀ entry ∈ remaining, s.ops entry.2.opId = start.ops entry.2.opId) →
          (∀ round ∈ table, round.before.ops round.op.opId = start.ops round.op.opId) →
            ∀ round ∈ (processOps server world inBatch fuel remaining table s).1,
              round.before.ops round.op.opId = start.ops round.op.opId := by
  induction fuel with
  | zero => exact fun _ _ _ done => done
  | succ fuel induction =>
    intro remaining table s places distinct same done
    cases remaining with
    | nil => exact done
    | cons first rest =>
      rw [processOps]
      generalize made : processRound server world inBatch first (first :: rest) table s = new
      have member : entryOf new ∈ first :: rest := made ▸ processRound_mem server world inBatch table s List.mem_cons_self
      have answered : Answered server world new := made ▸ processRound_answered
      have found : new.before.ops = s.ops := made ▸ processRound_start.1
      have erased := eraseP_eq_filter places distinct member
      have kept : ((first :: rest).eraseP (·.1 = new.index)).Sublist (first :: rest) := List.eraseP_sublist
      refine induction (places.sublist (kept.map _)) (distinct.sublist (kept.map _)) (fun entry left => ?_) fun round there => ?_
      · have left_ : entry ∈ (first :: rest).filter (·.2.opId ≠ (entryOf new).2.opId) := erased ▸ left
        obtain ⟨listed,other⟩ := List.mem_filter.mp left_
        rw [answered.grows.2 _ (of_decide_eq_true other),found]
        exact same entry listed
      · rcases List.mem_append.mp there with older | newest
        · exact done round older
        · rw [List.mem_singleton.mp newest,found]
          exact same _ member

/-- A round answers without running its op, or is the transactions of its op. -/
def Replayed (server : Server π η) (p : Replay σ π) (round : Processed (σ × List Audit) π η) : Prop :=
  round.after = round.before ∨ replayOp server p round.op (.ofState round.op.opId round.before) =
      (round.result,.ofState round.op.opId round.after) ∧
    ∀ opId, opId ≠ round.op.opId → round.after.ops opId = round.before.ops opId

/-- An op fails by itself, or depends on one that does. -/
def Behind (entries : List (Nat × OpEnvelope π)) (failing opId : Nat) : Prop :=
  opId = failing ∨ Relation.TransGen (Waits entries) opId failing

open Classical in
/-- The rounds of the ops that do not depend on this one. -/
noncomputable def independent {σ : Type} (entries : List (Nat × OpEnvelope π)) (failing : Nat) (table : List (Processed σ π η)) :
    List (Processed σ π η) := table.filter fun round => !decide (Behind entries failing round.op.opId)

/-- The rounds of independent ops are those of the push without the op. -/
def Undisturbed {σ : Type} (server : Server π η) (world : World σ π) (raws : List (RawOp π)) (s : State σ η) (failing : Nat) : Prop :=
  List.Forall₂ (Alike (· = failing)) (independent (firsts server raws) failing (processPush server world raws s).table)
    (independent (firsts server raws) failing (processPush server world (without server (· = failing) raws) s).table)

/-- Each op of a push is atomic, and one that fails leaves the others as they are without it. -/
structure Atomic (server : Server π η) (p : Replay σ π) (raws : List (RawOp π)) (s : State (σ × List Audit) η) : Prop where
  once : ((processPush server (replayWorld server p s.ops) raws s).table.map (·.op.opId)).Nodup
  replayed : ∀ round ∈ (processPush server (replayWorld server p s.ops) raws s).table, Replayed server p round
  whole : ∀ round ∈ (processPush server (replayWorld server p s.ops) raws s).table,
    Whole p round.op (.ofState round.op.opId round.before) round.result (.ofState round.op.opId round.after)
  undisturbed : ∀ failing ∈ (processPush server (replayWorld server p s.ops) raws s).table,
    Still (replayWorld server p s.ops) failing → (∀ row, s.ops failing.op.opId = some row → row.status ≠ .applied) →
      Undisturbed server (replayWorld server p s.ops) raws s failing.op.opId

section Undisturbed
variable {σ : Type} {raws : List (RawOp π)} {failing : Nat} {ops : Nat → Option (SyncOp η)}

omit [DecidableEq η] in
private theorem Behind.next {entries : List (Nat × OpEnvelope π)} {opId : Nat} (behind : Behind entries failing opId) :
    opId = failing ∨ ∃ dep, Waits entries opId dep ∧ Behind entries failing dep := by
  refine behind.imp_right fun path => ?_
  obtain ⟨dep,edge,rest⟩ := Relation.TransGen.head'_iff.mp path
  exact ⟨dep,edge,(Relation.reflTransGen_iff_eq_or_transGen.mp rest).imp Eq.symm id⟩

omit [DecidableEq η] in
private theorem Behind.head {entries : List (Nat × OpEnvelope π)} {opId dep : Nat} (edge : Waits entries opId dep)
    (behind : Behind entries failing dep) : Behind entries failing opId := by
  rcases behind with rfl | path
  · exact .inr (.single edge)
  · exact .inr (.head edge path)

omit [DecidableEq η] in
theorem apart_behind (member : failing ∈ opIds (firsts server raws)) (ops : Nat → Option (SyncOp η)) :
    Apart (firsts server raws) ops (Behind (firsts server raws) failing) (· = failing) where
  refused := by
    intro entry there behind
    refine behind.next.imp_right fun ⟨dep,waits,behind⟩ => ⟨dep,?_,.inl ⟨waits,behind⟩⟩
    exact ((waits_iff (firstOps_nodup server raws 0 []).2 there).mp waits).1
  closed := fun entry _ good dep waits behind => good (behind.head waits)
  unread := by
    rintro entry there good dep depends rfl
    refine good ?_
    by_cases itself : entry.2.opId = dep
    · exact .inl itself
    · exact .inr (.single ((waits_iff (firstOps_nodup server raws 0 []).2 there).mpr ⟨depends,member,fun same => itself same.symm⟩))
  within_ := fun opId same => .inl same

omit [DecidableEq η] in
/-- Without the op, what depends on it waits for an op never applied. -/
theorem apart_without (member : failing ∈ opIds (firsts server raws)) (unapplied : ∀ row, ops failing = some row → row.status ≠ .applied) :
    Apart (firsts server (without server (· = failing) raws)) ops (Behind (firsts server raws) failing) (· = failing) where
  refused := by
    intro entry there behind
    have kept : entry.2.opId ≠ failing := ((mem_without_opIds entry.2.opId).mp (List.mem_map_of_mem there)).2
    obtain ⟨dep,waits,behind⟩ := behind.next.resolve_left kept
    obtain ⟨other,listed,same⟩ := without_original there
    obtain ⟨depends,inside,itself⟩ := (waits_iff (firstOps_nodup server raws 0 []).2 listed).mp (same ▸ waits)
    rw [same] at depends itself
    refine .inr ⟨dep,depends,?_⟩
    by_cases gone : dep = failing
    · rw [gone]
      exact .inr ⟨fun inside => ((mem_without_opIds failing).mp inside).2 rfl,unapplied⟩
    · refine .inl ⟨(waits_iff (firstOps_nodup server _ 0 []).2 there).mpr ⟨depends,?_,itself⟩,behind⟩
      exact (mem_without_opIds dep).mpr ⟨inside,gone⟩
  closed := fun entry _ good dep waits behind => good (behind.head (without_waits waits))
  unread := by
    rintro entry there good dep depends rfl
    have kept : entry.2.opId ≠ dep := ((mem_without_opIds entry.2.opId).mp (List.mem_map_of_mem there)).2
    obtain ⟨other,listed,same⟩ := without_original there
    rw [← same] at depends kept good
    exact good (.inr (.single ((waits_iff (firstOps_nodup server raws 0 []).2 listed).mpr ⟨depends,member,kept.symm⟩)))
  within_ := fun opId same => .inl same

end Undisturbed

theorem replayed_of_answered {round : Processed (σ × List Audit) π η} (answered : Answered server (replayWorld server p ops) round)
    (own : round.before.ops round.op.opId = ops round.op.opId) : Replayed server p round := by
  have grows := answered.grows.2
  cases answered with
  | cycle cyclic result same quiet => exact .inl same
  | blocked error acyclic stops result same quiet => exact .inl same
  | ran acyclic free interrupt done =>
    have equal := replayOp_eq server p own.symm
    rw [done] at equal
    exact .inr ⟨equal,grows⟩

theorem Replayed.whole {round : Processed (σ × List Audit) π η} (replayed : Replayed server p round) :
    Whole p round.op (.ofState round.op.opId round.before) round.result (.ofState round.op.opId round.after) := by
  rcases replayed with same | ⟨ran,-⟩
  · rw [same]
    exact .nothing _ _
  · have whole := replayAttempts_whole server p round.op (.ofState round.op.opId round.before) [0,1,2]
    rw [replayOp] at ran
    rw [ran] at whole
    exact whole

end Op

/-- Sales of one unit while there are units. -/
private def shelf : Replay Nat Unit where
  ctx := cashier.ctx
  validate := fun _ _ => none
  existing := fun _ _ => none
  handler := fun op => .step (.statement id id) fun left =>
    if left = 0 then .raise (.reject ⟨.other "insufficient_stock","Insufficient stock",false,true⟩)
    else .step (.statement (fun _ => ()) (· - 1)) fun _ => .done ⟨some op.opId,none,[],false⟩
  faults := fun _ _ _ _ => none
  others := fun _ found => found

private def hashing : Server Unit Int := ⟨14,65536,fun _ => 0,fun _ _ occurredAt => occurredAt⟩

/-- Another sale was applied under op id 1, and one unit is left. -/
private def reused : State (Nat × List Audit) Int :=
  ⟨(1,[]),fun opId => if opId = 1 then some ⟨.applied,7,⟨some 1,.applied,some 1,none,[],none,none⟩,rfl,.inl ⟨rfl,rfl⟩⟩ else none⟩

private def last : List (RawOp Unit) := [.valid (saleOp 1 []),.valid (saleOp 2 [1]),.valid (saleOp 3 [])]

private def told (round : Processed (Nat × List Audit) Unit Int) : Nat × OpStatus := (round.op.opId,round.result.status)

private def statuses (raws : List (RawOp Unit)) : List (Nat × OpStatus) :=
  (processPush hashing (replayWorld hashing shelf reused.ops) raws reused).table.map told

private theorem last_without : without hashing (· = 1) last = [.valid (saleOp 2 [1]),.valid (saleOp 3 [])] := by
  have parsed (opId : Nat) (deps : List Nat) : parseOp hashing (.valid (saleOp opId deps)) = .ok (saleOp opId deps) := rfl
  simp only [without,last,List.filter_cons,List.filter_nil,parsed,Except.ok.injEq,exists_eq_left']
  simp [saleOp]

private theorem told_alike {cut : Nat → Prop} {first second : List (Processed (Nat × List Audit) Unit Int)}
    (same : List.Forall₂ (Alike cut) first second) : first.map told = second.map told := by
  induction same with
  | nil => rfl
  | cons head tail induction => rw [List.map_cons,List.map_cons,induction,told,told,head.op,head.result]

private def rush : List (RawOp Unit) := [.valid (saleOp 1 []),.valid (saleOp 2 []),.valid (saleOp 3 [2])]

private def lastUnit : State (Nat × List Audit) Int := ⟨(1,[]),fun _ => none⟩

end SyncPush
