import Mathlib.Data.List.Basic
import SasBackend.PlatformLogin

/-! A time-step is accepted once between two resets of the second factor.
The row lock is taken before the comparison with the last step and held to the commit, so that the step a login is about to commit
is newer than the one on record whatever the login has read before.
-/
namespace PlatformLogin
open Transition Slots

variable {verifiers : Verifiers} {w v : Watched} {s t : State} {p q now : Nat} {process after : Process} {row : Admin}

/-- What a process with the lock is about to do to the last step. -/
def Steps (w : Watched) (p : Nat) : Process → Prop
  | .committingLogin row _ => w.state.holder = some p ∧ w.state.admin.lastTotpStep < row.lastTotpStep
  | .committingChange row _ =>
    w.state.holder = some p ∧ (w.resetting ≠ some p → row.lastTotpStep = w.state.admin.lastTotpStep)
  | _ => True

structure Watching (w : Watched) : Prop where
  steps : ∀ p process, w.state.processes[p]? = some process → Steps w p process
  resetting : ∀ p, w.resetting = some p → w.state.holder = some p ∧ ∃ row ends, w.state.processes[p]? = some (.committingChange row ends)
  once : w.StepsOnce
  recorded : ∀ step ∈ w.accepted, step ≤ w.state.admin.lastTotpStep

theorem Steps.frame (steps : Steps w q process)
    (mine : w.state.holder = some q → v.state.holder = some q ∧ v.state.admin = w.state.admin ∧ (v.resetting ≠ some q → w.resetting ≠ some q)) :
    Steps v q process := by
  cases process with
  | committingLogin row checkedAt =>
    obtain ⟨held,newer⟩ := steps
    obtain ⟨still,admin,-⟩ := mine held
    exact ⟨still,by rw [admin]; exact newer⟩
  | committingChange row ends =>
    obtain ⟨held,same⟩ := steps
    obtain ⟨still,admin,apart⟩ := mine held
    exact ⟨still,fun other => by rw [admin]; exact same (apart other)⟩
  | login | checkingPassword | checkingTotp | recordingStep | refreshing | change | flushing | ended => trivial

theorem Watching.move {holder : Option Nat} (watching : Watching w) (found : w.state.processes[p]? = some process)
    (free : ∀ row ends, process ≠ .committingChange row ends) (others : ∀ q, q ≠ p → w.state.holder = some q → holder = some q)
    (steps : Steps { w with state := { w.state with holder := holder } } p after) :
    Watching { w with state := { w.state with holder := holder, processes := w.state.processes.set p after } } where
  steps q _ there := by
    rcases set_cases there with ⟨rfl,rfl⟩ | ⟨apart,old⟩
    · exact steps.frame fun held => ⟨held,rfl,fun other => other⟩
    · exact (watching.steps q _ old).frame fun held => ⟨others q apart held,rfl,fun other => other⟩
  resetting q resets := by
    obtain ⟨held,row,ends,there⟩ := watching.resetting q resets
    have apart : q ≠ p := by
      rintro rfl
      exact free row ends (Option.some.inj (found.symm.trans there))
    exact ⟨others q apart held,row,ends,by rwa [List.getElem?_set_ne apart.symm]⟩
  once := watching.once
  recorded := watching.recorded

theorem Watching.commit {accepted : List Nat} {resetting : Option Nat} {changes : Nat} (watching : Watching w) (held : w.state.holder = some p)
    (free : ∀ v : Watched, Steps v p after) (none : resetting = none) (once : accepted.Pairwise (· < ·))
    (recorded : ∀ step ∈ accepted, step ≤ row.lastTotpStep) : Watching ⟨{ w.state.commit p row after with changes := changes },accepted,resetting⟩ where
  steps q _ there := by
    rcases set_cases there with ⟨rfl,rfl⟩ | ⟨apart,old⟩
    · exact free _
    · refine (watching.steps q _ old).frame fun mine => ?_
      rw [held,Option.some.injEq] at mine
      exact absurd mine.symm apart
  resetting q resets := by
    rw [none] at resets
    cases resets
  once := once
  recorded := recorded

theorem Watching.unlocked (watching : Watching w) (held : w.state.holder = some p) (apart : w.resetting ≠ some p) : w.resetting = none := by
  cases resets : w.resetting with
  | none => rfl
  | some q =>
    have other := held.symm.trans (watching.resetting q resets).1
    rw [resets,other] at apart
    exact absurd rfl apart

/-- A reset takes the row, which no other reset holds then. -/
theorem Watching.locks {change : Change} {loaded : Admin} {ends : Bool} (watching : Watching w)
    (found : w.state.processes[p]? = some (.flushing change loaded)) (others : ∀ q, q ≠ p → w.state.holder = some q → some p = some q) :
    Watching ⟨{ w.state with holder := some p, processes := w.state.processes.set p (.committingChange row ends) },w.accepted,some p⟩ := by
  have none : w.resetting = none := by
    cases resets : w.resetting with
    | none => rfl
    | some q =>
      obtain ⟨held,row,ends,there⟩ := watching.resetting q resets
      by_cases same : q = p
      · rw [same,found] at there
        cases there
      · exact absurd (Option.some.inj (others q same held)).symm same
  refine ⟨fun q _ there => ?_,fun q resets => ?_,watching.once,watching.recorded⟩
  · rcases set_cases there with ⟨rfl,rfl⟩ | ⟨apart,old⟩
    · exact ⟨rfl,fun other => absurd rfl other⟩
    · refine (watching.steps q _ old).frame fun held => ⟨others q apart held,rfl,fun _ resets => ?_⟩
      rw [none] at resets
      cases resets
  · obtain rfl := Option.some.inj resets
    have inside := (List.getElem?_eq_some_iff.mp found).1
    exact ⟨rfl,row,ends,by simp [inside]⟩

theorem write_step (active : Bool) (loaded row : Admin) : ((Change.setAdminActive active).write loaded row).lastTotpStep = row.lastTotpStep := rfl

theorem Watching.advance (watching : Watching w) (found : w.state.processes[p]? = some process)
    (taken : advance verifiers w.state p now process = some t) : Watching (w.see t (.advance p now)) := by
  have keep : ∀ q, q ≠ p → w.state.holder = some q → w.state.holder = some q := fun _ _ held => held
  have steps := watching.steps p process found
  simp only [Watched.see,found]
  cases process with
  | login password code | checkingPassword password code loaded checkedAt | checkingTotp code loaded checkedAt =>
    simp only [PlatformLogin.advance] at taken
    split at taken <;> cases taken <;> exact watching.move found (by simp) keep trivial
  | recordingStep step checkedAt =>
    obtain ⟨middle,locked,taken⟩ := Option.bind_eq_some_iff.mp taken
    obtain ⟨rfl,others⟩ := lock_cases locked
    split at taken
    case isTrue newer =>
      cases taken
      exact watching.move found (by simp) others ⟨rfl,newer⟩
    case isFalse =>
      cases taken
      refine watching.move found (by simp) (fun q apart held => ?_) trivial
      exact absurd (Option.some.inj (others q apart held)).symm apart
  | committingLogin row checkedAt =>
    cases taken
    obtain ⟨held,newer⟩ := steps
    have apart : w.resetting ≠ some p := by
      intro resets
      obtain ⟨-,row,ends,there⟩ := watching.resetting p resets
      rw [found] at there
      cases there
    refine watching.commit held (fun _ => trivial) (watching.unlocked held apart) ?_ ?_
    · refine List.pairwise_append.mpr ⟨watching.once,List.pairwise_singleton _ _,fun step member other last => ?_⟩
      obtain rfl := List.mem_singleton.mp last
      exact Nat.lt_of_le_of_lt (watching.recorded step member) newer
    · refine List.forall_mem_append.mpr ⟨fun step member => ?_,List.forall_mem_singleton.mpr (Nat.le_refl _)⟩
      exact Nat.le_trans (watching.recorded step member) (Nat.le_of_lt newer)
  | refreshing checkedAt =>
    cases taken
    have moved : Watching { w with state := w.state.goto p .ended } := watching.move found (by simp) keep trivial
    exact ⟨fun q other there => (moved.steps q other there).frame fun held => ⟨held,rfl,fun apart => apart⟩,moved.resetting,moved.once,moved.recorded⟩
  | change change =>
    cases taken
    exact watching.move found (by simp) keep trivial
  | flushing change loaded =>
    obtain ⟨middle,locked,taken⟩ := Option.bind_eq_some_iff.mp taken
    obtain ⟨rfl,others⟩ := lock_cases locked
    cases taken
    cases change with
    | setAdminActive active => exact watching.move found (by simp) others ⟨rfl,fun _ => write_step active loaded _⟩
    | resetAdmin2fa totpSecret => exact watching.locks found others
  | committingChange row ends =>
    cases taken
    obtain ⟨held,same⟩ := steps
    have free : ∀ v : Watched, Steps v p .ended := fun _ => trivial
    by_cases resets : w.resetting = some p
    · simp only [resets,if_true]
      exact watching.commit held free rfl List.Pairwise.nil (List.forall_mem_nil _)
    · simp only [if_neg resets]
      refine watching.commit held free (watching.unlocked held resets) watching.once ?_
      rw [same resets]
      exact watching.recorded
  | ended => cases taken

theorem Watching.step {action : Action} (watching : Watching w) (taken : watch verifiers w action = some v) : Watching v := by
  obtain ⟨t,stepped,rfl⟩ := Option.map_eq_some_iff.mp taken
  cases action with
  | begin process =>
    simp only [next,Option.ite_none_right_eq_some,Option.some.injEq] at stepped
    obtain ⟨begins,rfl⟩ := stepped
    refine ⟨fun q found there => ?_,fun q resets => ?_,watching.once,watching.recorded⟩
    · rcases append_cases there with ⟨rfl,rfl⟩ | ⟨-,old⟩
      · cases found <;> simp_all [Process.begins,Steps]
      · exact (watching.steps q found old).frame fun held => ⟨held,rfl,fun apart => apart⟩
    · obtain ⟨held,row,ends,there⟩ := watching.resetting q resets
      have inside := (List.getElem?_eq_some_iff.mp there).1
      exact ⟨held,row,ends,(List.getElem?_append_left inside).trans there⟩
  | advance p now =>
    obtain ⟨process,found,moved⟩ := Option.bind_eq_some_iff.mp stepped
    exact watching.advance found moved
  | abort p =>
    simp only [next,Option.ite_none_right_eq_some,Option.some.injEq] at stepped
    obtain ⟨inside,rfl⟩ := stepped
    refine ⟨fun q found there => ?_,fun q resets => ?_,watching.once,watching.recorded⟩
    · rcases set_cases there with ⟨rfl,rfl⟩ | ⟨apart,old⟩
      · trivial
      · refine (watching.steps q found old).frame fun held => ⟨?_,rfl,fun other resets => ?_⟩
        · simp [Watched.see,State.goto,held,apart]
        · simp [Watched.see,resets,apart] at other
    · simp only [Watched.see] at resets ⊢
      split at resets
      · cases resets
      case isFalse other =>
        obtain ⟨held,row,ends,there⟩ := watching.resetting q resets
        have apart : q ≠ p := by
          rintro rfl
          exact other resets
        exact ⟨by simp [State.goto,held,apart],row,ends,(List.getElem?_set_ne apart.symm).trans there⟩

/-- Only a reset lowers the last step. -/
theorem Watching.newer {action : Action} (watching : Watching w) (keeps : w.resets action = false)
    (taken : watch verifiers w action = some v) : w.state.admin.lastTotpStep ≤ v.state.admin.lastTotpStep := by
  obtain ⟨t,stepped,rfl⟩ := Option.map_eq_some_iff.mp taken
  cases action with
  | begin process =>
    simp only [next,Option.ite_none_right_eq_some,Option.some.injEq] at stepped
    obtain ⟨-,rfl⟩ := stepped
    exact Nat.le_refl _
  | abort p =>
    simp only [next,Option.ite_none_right_eq_some,Option.some.injEq] at stepped
    obtain ⟨-,rfl⟩ := stepped
    exact Nat.le_refl _
  | advance p now =>
    obtain ⟨process,found,moved⟩ := Option.bind_eq_some_iff.mp stepped
    have steps := watching.steps p process found
    have seen : (w.see t (.advance p now)).state = t := by
      simp only [Watched.see]
      split <;> try rfl
      split <;> rfl
    rw [seen]
    simp only [Watched.resets,found] at keeps
    cases process with
    | login password code | checkingPassword password code loaded checkedAt | checkingTotp code loaded checkedAt =>
      simp only [PlatformLogin.advance] at moved
      split at moved <;> cases moved <;> exact Nat.le_refl _
    | recordingStep step checkedAt =>
      obtain ⟨middle,locked,moved⟩ := Option.bind_eq_some_iff.mp moved
      obtain ⟨rfl,-⟩ := lock_cases locked
      split at moved <;> cases moved <;> exact Nat.le_refl _
    | committingLogin row checkedAt =>
      cases moved
      exact Nat.le_of_lt steps.2
    | refreshing checkedAt | change change =>
      cases moved
      exact Nat.le_refl _
    | flushing change loaded =>
      obtain ⟨middle,locked,moved⟩ := Option.bind_eq_some_iff.mp moved
      obtain ⟨rfl,-⟩ := lock_cases locked
      cases moved
      exact Nat.le_refl _
    | committingChange row ends =>
      cases moved
      exact Nat.le_of_eq (steps.2 (of_decide_eq_false keeps)).symm
    | ended => cases moved

theorem watching_of_reachable (reached : Reachable Unwatched (OfNext (watch verifiers)) w) : Watching w := by
  refine reached.invariant ?_ fun u action x kept taken => kept.step taken
  rintro u ⟨⟨holder,processes,tokens,changes⟩,accepted,resetting⟩
  refine ⟨?_,?_,?_,?_⟩
  · simp [processes]
  · simp [resetting]
  · simp [Watched.StepsOnce,accepted]
  · simp [accepted]

/-- Between two resets each time-step is accepted in at most one login, and the last step on record never decreases. -/
theorem totp_step_once (reached : Reachable Unwatched (OfNext (watch verifiers)) w) : w.StepsOnce ∧
    ∀ labels v, Run (Restricted (fun u action => u.resets action = false) (OfNext (watch verifiers))) w labels v →
      w.state.admin.lastTotpStep ≤ v.state.admin.lastTotpStep := by
  have watching := watching_of_reachable reached
  refine ⟨watching.once,fun labels v run => ?_⟩
  clear reached
  induction run with
  | nil => exact Nat.le_refl _
  | cons taken _ induction =>
    obtain ⟨keeps,taken⟩ := taken
    exact Nat.le_trans (watching.newer keeps taken) (induction (watching.step taken))

private def codes : Verifiers := ⟨fun password hash => hash = password,fun secret code now => if secret = code then some now else none⟩

private def enrolled : Watched := ⟨⟨⟨"pw","secret",true,0,0⟩,none,[],[],0⟩,[],none⟩

private theorem enrolled_unwatched : Unwatched enrolled := ⟨⟨rfl,rfl,rfl,rfl⟩,rfl,rfl⟩

private def advances (p now steps : Nat) : List Action := .replicate steps (.advance p now)

/-- Three logins that have read the row before any of them commits: two with the code of step one, and one with the next. -/
theorem totp_step_once_replayed : ∃ w, Reachable Unwatched (OfNext (watch codes)) w ∧ (w.accepted,w.state.admin.lastTotpStep) = ([1,2],2) ∧
    w.StepsOnce := by
  obtain ⟨w,reached,view⟩ := reachable_of_execute (watch codes) (fun w => (w.accepted,w.state.admin.lastTotpStep))
    ([.begin (.login "pw" "secret"),.begin (.login "pw" "secret"),.begin (.login "pw" "secret")] ++ advances 0 1 3 ++ advances 1 1 3 ++
      advances 2 2 3 ++ advances 0 1 3 ++ advances 1 1 1 ++ advances 2 2 3) enrolled_unwatched
    (b := ([1,2],2)) (by decide +kernel)
  exact ⟨w,reached,view,(totp_step_once reached).1⟩

end PlatformLogin
