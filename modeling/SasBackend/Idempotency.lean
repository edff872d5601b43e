import Mathlib.Tactic.Common
import SasBackend.Semantics.Idempotency

/-! A key is free, claimed by the one request that may run its handler, or answered for good.
Only a takeover of a live claim, or a result its response model refuses, leaves this cycle.
-/
namespace Idempotency
open Transition

/-- Phases of a request that owns the key. -/
def Phase.holding : Phase → Bool
  | .running | .failed | .committed | .serialized => true
  | _ => false

def Phase.effective : Phase → Bool
  | .committed | .serialized => true
  | _ => false

variable {requests : Nat → Request}

inductive Stage (requests : Nat → Request) (s : State) : Prop
  | free : s.row = none → s.commits = [] → (∀ i, (s.phase i).holding = false) → Stage requests s
  | claimed {row} : s.row = some row → row.response = none → (s.phase row.id).holding = true →
      (∀ i, i ≠ row.id → (s.phase i).holding = false) →
      s.commits = (if (s.phase row.id).effective then [row.id] else []) → Stage requests s
  | answered {row response} : s.row = some row → row.response = some response →
      response.statusCode = (requests response.execution).successStatus →
      s.commits = [response.execution] → s.phase response.execution = .done .returned →
      (∀ i, (s.phase i).holding = false) → Stage requests s

def Stored (s : State) (response : Response) : Prop :=
  ∃ row, s.row = some row ∧ row.response = some response

/-- What a request has read or was answered with agrees with the stored response. -/
def Faithful (s : State) : Phase → Prop
  | .deciding _ (some row) => ∀ response, row.response = some response → Stored s response
  | .done (.replayed response) => Stored s response
  | .unserialized => False
  | _ => True

structure Invariant (requests : Nat → Request) (s : State) : Prop where
  stage : Stage requests s
  faithful : ∀ i, Faithful s (s.phase i)
  returned : ∀ i, s.phase i = .done .returned → s.commits = [i]

@[simp] theorem goto_self (s : State) (i : Nat) (p : Phase) : (s.goto i p).phase i = p := by
  simp [State.goto]
theorem goto_other (s : State) {i j : Nat} (p : Phase) (different : j ≠ i) :
    (s.goto i p).phase j = s.phase j := by
  simp [State.goto,different]

private theorem goto_holding {s : State} {i : Nat} {p : Phase} (idle : (s.phase i).holding = false)
    (still : p.holding = false) (j : Nat) : ((s.goto i p).phase j).holding = (s.phase j).holding := by
  by_cases same : j = i
  · rw [same,goto_self,still,idle]
  · rw [goto_other s p same]

/-- A request that does not own the key moves between phases without owning it. -/
theorem Stage.goto {s : State} {i : Nat} {p : Phase} (stage : Stage requests s)
    (idle : (s.phase i).holding = false) (still : p.holding = false)
    (undone : s.phase i ≠ .done .returned) : Stage requests (s.goto i p) := by
  cases stage with
  | free row commits nobody =>
    exact .free row commits fun j => (goto_holding idle still j).trans (nobody j)
  | @claimed r row response owner alone commits =>
    have other : r.id ≠ i := by
      intro same
      rw [same,idle] at owner
      cases owner
    refine .claimed row response ?_ (fun j different => ?_) ?_
    · rw [goto_holding idle still,owner]
    · rw [goto_holding idle still,alone j different]
    · rw [goto_other s p other]
      exact commits
  | @answered r response row stored code commits done nobody =>
    have other : response.execution ≠ i := by
      intro same
      rw [same] at done
      exact undone done
    refine .answered row stored code commits ?_ fun j => (goto_holding idle still j).trans (nobody j)
    rw [goto_other s p other]
    exact done

private theorem faithful_of_stored {s t : State} {p : Phase} (faithful : Faithful s p)
    (kept : ∀ response, Stored s response → Stored t response) : Faithful t p := by
  cases p with
  | deciding waits row =>
    cases row with
    | none => trivial
    | some row => exact fun response same => kept response (faithful response same)
  | done outcome =>
    cases outcome with
    | replayed response => exact kept response faithful
    | _ => trivial
  | unserialized => exact faithful
  | _ => trivial

private theorem Invariant.idleStep {s : State} {i : Nat} {p : Phase} (invariant : Invariant requests s)
    (idle : (s.phase i).holding = false) (still : p.holding = false) (faithful : Faithful s p)
    (undone : s.phase i ≠ .done .returned) (unreturned : p ≠ .done .returned) :
    Invariant requests (s.goto i p) := by
  refine ⟨invariant.stage.goto idle still undone,fun j => ?_,fun j done => ?_⟩
  · by_cases same : j = i
    · rw [same,goto_self]
      exact faithful_of_stored faithful fun _ => id
    · rw [goto_other s p same]
      exact faithful_of_stored (invariant.faithful j) fun _ => id
  · by_cases same : j = i
    · rw [same,goto_self] at done
      exact absurd done unreturned
    · rw [goto_other s p same] at done
      exact invariant.returned j done

private theorem Stage.owner {s : State} {i : Nat} (stage : Stage requests s)
    (holding : (s.phase i).holding = true) : ∃ row, s.row = some row ∧ row.response = none ∧ row.id = i ∧
      (∀ j, j ≠ i → (s.phase j).holding = false) ∧
      s.commits = (if (s.phase i).effective then [i] else []) := by
  cases stage with
  | free _ _ nobody => simp [nobody i] at holding
  | @claimed row present response owner alone commits =>
    have same : row.id = i := by
      by_contra different
      simp [alone i (Ne.symm different)] at holding
    subst same
    exact ⟨row,present,response,rfl,alone,commits⟩
  | answered _ _ _ _ _ nobody => simp [nobody i] at holding

private theorem no_stored {s : State} {row : Row} (present : s.row = some row) (unanswered : row.response = none)
    (response : Response) : ¬Stored s response := by
  rintro ⟨other,found,answered⟩
  rw [present] at found
  cases found
  rw [unanswered] at answered
  cases answered

/-- Nobody else is affected when the owner of an unanswered key moves on. -/
private theorem Invariant.ownerStep {s t : State} {i : Nat} {p : Phase} {row : Row}
    (invariant : Invariant requests s) (present : s.row = some row) (unanswered : row.response = none)
    (moved : t.phase = (s.goto i p).phase) (stage : Stage requests t)
    (faithful : Faithful t p) (mine : p = .done .returned → t.commits = [i])
    (running : (s.phase i).holding = true) : Invariant requests t := by
  refine ⟨stage,fun j => ?_,fun j done => ?_⟩
  · rw [moved]
    by_cases same : j = i
    · rw [same,goto_self]
      exact faithful
    · rw [goto_other s p same]
      exact faithful_of_stored (invariant.faithful j)
        fun response stored => absurd stored (no_stored present unanswered response)
  · rw [moved] at done
    by_cases same : j = i
    · rw [same,goto_self] at done
      rw [same]
      exact mine done
    · rw [goto_other s p same] at done
      obtain ⟨_,_,_,_,_,commits⟩ := invariant.stage.owner running
      rw [invariant.returned j done] at commits
      split at commits
      · next => exact absurd (by simpa using commits) same
      · simp at commits

private theorem goto_alone {s : State} {i : Nat} (p : Phase)
    (alone : ∀ j, j ≠ i → (s.phase j).holding = false) (j : Nat) (different : j ≠ i) :
    ((s.goto i p).phase j).holding = false := by
  rw [goto_other s p different]
  exact alone j different

private theorem goto_nobody {s : State} {i : Nat} {p : Phase} (still : p.holding = false)
    (alone : ∀ j, j ≠ i → (s.phase j).holding = false) (j : Nat) :
    ((s.goto i p).phase j).holding = false := by
  by_cases same : j = i
  · rw [same,goto_self,still]
  · exact goto_alone p alone j same

private theorem purge_retained {s : State} {i waits now : Nat} (phase : s.phase i = .purging waits now)
    (kept : retained s (.advance i) = true) : purge s.row now = s.row := by
  cases row : s.row with
  | none => rfl
  | some r => simpa [retained,phase,row,purge] using kept

private theorem releaseStale_undisturbed {s : State} {i waits : Nat} (phase : s.phase i = .releasingStale waits)
    (kept : undisturbed s (.advance i) = true) : releaseStale s.row s.clock = s.row := by
  cases row : s.row with
  | none => rfl
  | some r => simpa [undisturbed,phase,row,releaseStale] using kept

private theorem afterClaim_idle (request : Request) (clock waits : Nat) (row : Option Row) :
    (afterClaim request clock waits row).holding = false ∧
      afterClaim request clock waits row ≠ .done .returned := by
  cases row with
  | none => exact ⟨rfl,by simp [afterClaim]⟩
  | some row =>
    simp only [afterClaim]
    split
    · exact ⟨rfl,by simp⟩
    · split
      · exact ⟨rfl,by simp⟩
      · split
        · exact ⟨rfl,by simp⟩
        · split <;> exact ⟨rfl,by simp⟩

private theorem afterClaim_faithful {s : State} {waits : Nat} {row : Option Row} (request : Request) (clock : Nat)
    (faithful : Faithful s (.deciding waits row)) : Faithful s (afterClaim request clock waits row) := by
  cases row with
  | none => trivial
  | some row =>
    simp only [afterClaim]
    split
    · trivial
    · cases answered : row.response with
      | some response => exact faithful response answered
      | none =>
        dsimp only
        split
        · trivial
        · split <;> trivial

theorem Invariant.advance {s t : State} {i : Nat} (invariant : Invariant requests s)
    (inTime : retained s (.advance i) = true) (alone : undisturbed s (.advance i) = true)
    (taken : advance requests s i = some t) : Invariant requests t := by
  have faithful := invariant.faithful i
  cases phase : s.phase i with
  | claiming waits =>
    simp only [Idempotency.advance,phase,Option.some.injEq] at taken
    rw [← taken]
    exact invariant.idleStep (by rw [phase]; rfl) rfl trivial (by simp [phase]) (by simp)
  | purging waits now =>
    simp only [Idempotency.advance,phase,Option.some.injEq,purge_retained phase inTime] at taken
    rw [← taken]
    exact invariant.idleStep (by rw [phase]; rfl) rfl trivial (by simp [phase]) (by simp)
  | inserting waits now startedAt =>
    simp only [Idempotency.advance,phase] at taken
    cases row : s.row with
    | some r =>
      simp only [row,Option.some.injEq] at taken
      rw [← taken]
      exact invariant.idleStep (by rw [phase]; rfl) rfl trivial (by simp [phase]) (by simp)
    | none =>
      simp only [row,Option.some.injEq] at taken
      obtain ⟨_,commits,nobody⟩ : s.row = none ∧ s.commits = [] ∧ ∀ j, (s.phase j).holding = false := by
        cases invariant.stage with
        | free row commits nobody => exact ⟨row,commits,nobody⟩
        | claimed present => simp [row] at present
        | answered present => simp [row] at present
      have empty : ∀ response, ¬Stored s response := by
        rintro response ⟨r,present,_⟩
        simp [row] at present
      rw [← taken]
      refine ⟨.claimed rfl rfl ?_ (fun j different => ?_) ?_,fun j => ?_,fun j done => ?_⟩
      · rw [goto_self]; rfl
      · rw [goto_other _ _ different]
        exact nobody j
      · rw [goto_self]
        exact commits
      · by_cases same : j = i
        · rw [same,goto_self]; trivial
        · rw [goto_other _ _ same]
          exact faithful_of_stored (invariant.faithful j) fun response stored => absurd stored (empty response)
      · by_cases same : j = i
        · rw [same,goto_self] at done; cases done
        · rw [goto_other _ _ same] at done
          exact invariant.returned j done
  | selecting waits =>
    simp only [Idempotency.advance,phase,Option.some.injEq] at taken
    rw [← taken]
    refine invariant.idleStep (by rw [phase]; rfl) rfl ?_ (by simp [phase]) (by simp)
    cases row : s.row with
    | none => trivial
    | some r => exact fun response answered => ⟨r,row,answered⟩
  | deciding waits row =>
    simp only [Idempotency.advance,phase,Option.some.injEq] at taken
    rw [phase] at faithful
    obtain ⟨still,unreturned⟩ := afterClaim_idle (requests i) s.clock waits row
    rw [← taken]
    exact invariant.idleStep (by rw [phase]; rfl) still (afterClaim_faithful _ _ faithful) (by simp [phase]) unreturned
  | releasingStale waits =>
    simp only [Idempotency.advance,phase,Option.some.injEq,
      releaseStale_undisturbed phase alone] at taken
    rw [← taken]
    exact invariant.idleStep (by rw [phase]; rfl) rfl trivial (by simp [phase]) (by simp)
  | sleeping waits wakeAt =>
    simp only [Idempotency.advance,phase,Option.ite_none_right_eq_some,Option.some.injEq] at taken
    rw [← taken.2]
    exact invariant.idleStep (by rw [phase]; rfl) rfl trivial (by simp [phase]) (by simp)
  | failed =>
    obtain ⟨row,present,unanswered,_,alone,commits⟩ := invariant.stage.owner (i := i) (by rw [phase]; rfl)
    simp only [Idempotency.advance,phase,Option.some.injEq] at taken
    rw [phase] at commits
    have released : release s.row = none := by simp [release,present,unanswered]
    rw [← taken]
    exact invariant.ownerStep present unanswered rfl (.free released commits (goto_nobody rfl alone))
      trivial (by simp) (by rw [phase]; rfl)
  | serialized =>
    obtain ⟨row,present,unanswered,_,alone,commits⟩ := invariant.stage.owner (i := i) (by rw [phase]; rfl)
    simp only [Idempotency.advance,phase,Option.some.injEq] at taken
    rw [phase] at commits
    have stored : store s.row ⟨(requests i).successStatus,i⟩ =
        some { row with response := some ⟨(requests i).successStatus,i⟩ } := by simp [store,present]
    rw [← taken]
    exact invariant.ownerStep present unanswered rfl
      (.answered stored rfl rfl commits (goto_self ..) (goto_nobody rfl alone)) trivial
      (fun _ => commits) (by rw [phase]; rfl)
  | unserialized =>
    rw [phase] at faithful
    exact absurd faithful id
  | running | committed | done => simp [Idempotency.advance,phase] at taken

private theorem Invariant.holderStep {s : State} {i : Nat} {p : Phase} {commits : List Nat}
    (invariant : Invariant requests s) (holding : (s.phase i).holding = true) (still : p.holding = true)
    (effect : commits = if p.effective then [i] else []) :
    Invariant requests ({ s with commits := commits }.goto i p) := by
  obtain ⟨row,present,unanswered,rfl,alone,_⟩ := invariant.stage.owner holding
  have quiet : p ≠ .done .returned ∧ Faithful ({ s with commits := commits }.goto row.id p) p := by
    cases p <;> first | exact ⟨by simp,trivial⟩ | cases still
  refine invariant.ownerStep present unanswered rfl
    (.claimed present unanswered ?_ (goto_alone (s := { s with commits := commits }) p alone) ?_)
    quiet.2 (fun returned => absurd returned quiet.1) holding
  · rw [goto_self,still]
  · rw [goto_self]
    exact effect

theorem Invariant.next {s t : State} {a : Action} (invariant : Invariant requests s)
    (inTime : retained s a = true) (alone : undisturbed s a = true) (taken : next requests s a = some t) :
    Invariant requests t := by
  have held {i : Nat} {p : Phase} (phase : s.phase i = p) (holding : p.holding = true) :
      s.commits = (if p.effective then [i] else []) := by
    obtain ⟨_,_,_,_,_,commits⟩ := invariant.stage.owner (phase ▸ holding)
    rw [← phase]
    exact commits
  cases a with
  | pass milliseconds =>
    cases taken
    refine ⟨?_,invariant.faithful,invariant.returned⟩
    cases invariant.stage with
    | free row commits nobody => exact .free row commits nobody
    | claimed row response owner alone commits => exact .claimed row response owner alone commits
    | answered row stored code commits done nobody => exact .answered row stored code commits done nobody
  | advance i => exact invariant.advance inTime alone taken
  | handlerCommits i =>
    simp only [Idempotency.next,Option.ite_none_right_eq_some,Option.some.injEq] at taken
    obtain ⟨phase,rfl⟩ := taken
    have commits := held phase rfl
    exact invariant.holderStep (by rw [phase]; rfl) rfl (by rw [commits]; rfl)
  | handlerRaises i =>
    simp only [Idempotency.next,Option.ite_none_right_eq_some,Option.some.injEq] at taken
    obtain ⟨phase,rfl⟩ := taken
    exact invariant.holderStep (by rw [phase]; rfl) rfl (by rw [held phase rfl]; rfl)
  | resultSerializes i =>
    simp only [Idempotency.next,Option.ite_none_right_eq_some,Option.some.injEq] at taken
    obtain ⟨phase,rfl⟩ := taken
    exact invariant.holderStep (by rw [phase]; rfl) rfl (by rw [held phase rfl]; rfl)
  | resultDoesNotSerialize => cases alone

theorem Invariant.initial {s : State} (initial : Initial s) : Invariant requests s := by
  obtain ⟨row,commits,claiming⟩ := initial
  refine ⟨.free row commits fun i => by rw [claiming]; rfl,fun i => by rw [claiming]; trivial,fun i done => ?_⟩
  rw [claiming] at done
  cases done

theorem Invariant.atMostOnce {s : State} (invariant : Invariant requests s) : AtMostOnce requests s := by
  have mine {i : Nat} {outcome : Outcome} (done : s.phase i = .done outcome) (member : i ∈ s.commits) :
      outcome = .returned := by
    cases invariant.stage with
    | free _ commits _ => simp [commits] at member
    | @claimed row _ _ owner _ commits =>
      rw [commits] at member
      split at member
      · rw [← List.mem_singleton.mp member,done] at owner
        cases owner
      · cases member
    | @answered _ response _ _ _ commits returned _ =>
      rw [commits,List.mem_singleton] at member
      rw [← member,done] at returned
      cases returned
      rfl
  constructor
  · cases invariant.stage with
    | free _ commits _ => simp [commits]
    | claimed _ _ _ _ commits =>
      rw [commits]
      split <;> simp
    | answered _ _ _ commits _ _ => simp [commits]
  · intro i outcome done
    have faithful := invariant.faithful i
    rw [done] at faithful
    cases outcome with
    | returned => exact invariant.returned i done
    | raised => exact fun member => by cases mine done member
    | conflict detail => exact fun member => by cases mine done member
    | replayed response =>
      obtain ⟨row,present,answered⟩ := faithful
      cases invariant.stage with
      | free missing => simp [present] at missing
      | claimed other unanswered =>
        rw [present] at other
        cases other
        simp [answered] at unanswered
      | answered other stored code commits returned _ =>
        rw [present] at other
        cases other
        rw [answered] at stored
        cases stored
        exact ⟨commits,code,returned⟩

/-- While no live claim is taken over, whatever the handlers' durations, one execution commits at most
and every other request gets its response or a conflict. -/
theorem at_most_once_undisturbed (requests : Nat → Request) {s : State}
    (reached : Reachable Initial
      (OfNext (within (fun s a => retained s a && undisturbed s a) (next requests))) s) :
    AtMostOnce requests s := by
  have invariant : Invariant requests s := by
    refine reached.invariant (fun _ => Invariant.initial) fun u a t invariant taken => ?_
    obtain ⟨allowed,moved⟩ := within_eq_some.mp taken
    rw [Bool.and_eq_true] at allowed
    exact invariant.next allowed.1 allowed.2 moved
  exact invariant.atMostOnce

private def idle : State := ⟨0,none,fun _ => .claiming 0,[]⟩

private theorem idle_initial : Initial idle := ⟨rfl,rfl,fun _ => rfl⟩

private def requestOf (_ : Nat) : Request := ⟨7,201⟩

private def claim (i : Nat) : List Action := [.advance i,.advance i,.advance i]

/-- The second request waits, then replays the response of the first. -/
theorem at_most_once_replay : ∃ s, (s.commits = [0] ∧ s.phase 1 = .done (.replayed ⟨201,0⟩)) ∧
    AtMostOnce requestOf s := by
  obtain ⟨s,reached,view⟩ := reachable_of_execute
    (within (fun s a => retained s a && undisturbed s a) (next requestOf)) (fun s => (s.commits,s.phase 1))
    (claim 0 ++ claim 1 ++ [.advance 1,.advance 1,.handlerCommits 0,.pass 200,.resultSerializes 0,
      .advance 0,.advance 1] ++ claim 1 ++ [.advance 1,.advance 1])
    idle_initial (b := ([0],.done (.replayed ⟨201,0⟩))) (by decide)
  exact ⟨s,⟨congrArg Prod.fst view,congrArg Prod.snd view⟩,at_most_once_undisturbed requestOf reached⟩

/-- A handler that outlives the stale timeout: the retry releases its live claim and runs too. -/
theorem stale_takeover_commits_twice : ∃ s,
    Reachable Initial (OfNext (within retained (next requestOf))) s ∧ s.commits = [0,1] ∧
      ¬AtMostOnce requestOf s := by
  obtain ⟨s,reached,commits⟩ := reachable_of_execute (within retained (next requestOf)) State.commits
    (claim 0 ++ [.pass 120001] ++ claim 1 ++ [.advance 1,.advance 1,.advance 1] ++ claim 1 ++
      [.handlerCommits 0,.handlerCommits 1])
    idle_initial (b := [0,1]) (by decide)
  refine ⟨s,reached,commits,fun once => ?_⟩
  have length := once.1
  rw [commits] at length
  exact absurd length (by decide)

end Idempotency
