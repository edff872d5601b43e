import SasBackend.Library.Slots
import SasBackend.Semantics.PlatformLogin

/-! The version of a token is the one the row had when its login checked it, as long as nothing that ends sessions commits
in between; every such change counts the version on, so that no older token is accepted again.
-/
namespace PlatformLogin
open Transition Slots

variable {verifiers : Verifiers} {s t : State} {p q now : Nat} {process other after : Process} {row : Admin}

/-- What a process with the lock is about to commit. -/
def Sound (s : State) (p : Nat) : Process → Prop
  | .committingLogin row _ => s.holder = some p ∧ row.tokenVersion = s.admin.tokenVersion
  | .committingChange row ends =>
    s.holder = some p ∧ s.admin.tokenVersion ≤ row.tokenVersion ∧ (ends → s.admin.tokenVersion < row.tokenVersion)
  | _ => True

structure Invariant (s : State) : Prop where
  sound : ∀ p process, s.processes[p]? = some process → Sound s p process
  current : ∀ token ∈ s.tokens, token.tv ≤ s.admin.tokenVersion
  older : ∀ token ∈ s.tokens, token.checkedAt < s.changes → token.tv < s.admin.tokenVersion

theorem Sound.frame (sound : Sound s q process) (mine : s.holder = some q → t.holder = some q ∧ t.admin = s.admin) :
    Sound t q process := by
  cases process with
  | committingLogin row checkedAt =>
    obtain ⟨held,same⟩ := sound
    obtain ⟨still,admin⟩ := mine held
    exact ⟨still,by rw [admin]; exact same⟩
  | committingChange row ends =>
    obtain ⟨held,more⟩ := sound
    obtain ⟨still,admin⟩ := mine held
    exact ⟨still,by rw [admin]; exact more⟩
  | login | checkingPassword | checkingTotp | recordingStep | refreshing | change | flushing | ended => trivial

theorem Invariant.move {holder : Option Nat} (invariant : Invariant s)
    (others : ∀ q, q ≠ p → s.holder = some q → holder = some q) (sound : Sound { s with holder := holder } p after) :
    Invariant { s with holder := holder, processes := s.processes.set p after } where
  sound q found there := by
    rcases set_cases there with ⟨rfl,rfl⟩ | ⟨apart,old⟩
    · exact sound.frame fun held => ⟨held,rfl⟩
    · exact (invariant.sound q found old).frame fun held => ⟨others q apart held,rfl⟩
  current := invariant.current
  older := invariant.older

theorem Invariant.commit {changes : Nat} (invariant : Invariant s) (held : s.holder = some p)
    (free : ∀ t : State, Sound t p after) (counts : s.admin.tokenVersion ≤ row.tokenVersion)
    (ends : changes = s.changes ∨ s.admin.tokenVersion < row.tokenVersion) :
    Invariant { s.commit p row after with changes := changes } where
  sound q found there := by
    rcases set_cases there with ⟨rfl,rfl⟩ | ⟨apart,old⟩
    · exact free _
    · refine (invariant.sound q found old).frame fun mine => ?_
      rw [held,Option.some.injEq] at mine
      exact absurd mine.symm apart
  current token member := Nat.le_trans (invariant.current token member) counts
  older token member before := by
    rcases ends with rfl | more
    · exact Nat.lt_of_lt_of_le (invariant.older token member before) counts
    · exact Nat.lt_of_le_of_lt (invariant.current token member) more

theorem lock_cases (locked : s.lock p = some t) :
    t = { s with holder := some p } ∧ ∀ q, q ≠ p → s.holder = some q → some p = some q := by
  simp only [State.lock,Option.ite_none_right_eq_some,Option.some.injEq] at locked
  obtain ⟨free,rfl⟩ := locked
  refine ⟨rfl,fun q apart held => ?_⟩
  rw [held] at free
  simp [apart] at free

theorem write_version {change : Change} {loaded : Admin} (counts : change.endsSessions → loaded.tokenVersion = row.tokenVersion) :
    row.tokenVersion ≤ (change.write loaded row).tokenVersion ∧
      (change.endsSessions → row.tokenVersion < (change.write loaded row).tokenVersion) := by
  cases change with
  | setAdminActive active =>
    cases active with
    | true => simp [Change.write,Change.endsSessions]
    | false =>
      have same := counts rfl
      simp [Change.write,same]
  | resetAdmin2fa totpSecret =>
    have same := counts rfl
    simp [Change.write,same]

theorem Invariant.advance (invariant : Invariant s) (found : s.processes[p]? = some process)
    (allowed : undisturbed s (.advance p now) = true) (taken : advance verifiers s p now process = some t) : Invariant t := by
  have keep : ∀ q, q ≠ p → s.holder = some q → s.holder = some q := fun _ _ held => held
  have sound := invariant.sound p process found
  simp only [undisturbed,found] at allowed
  cases process with
  | login password code =>
    simp only [PlatformLogin.advance] at taken
    split at taken <;> cases taken <;> exact invariant.move keep trivial
  | checkingPassword password code loaded checkedAt =>
    simp only [PlatformLogin.advance] at taken
    split at taken <;> cases taken <;> exact invariant.move keep trivial
  | checkingTotp code loaded checkedAt =>
    simp only [PlatformLogin.advance] at taken
    split at taken <;> cases taken <;> exact invariant.move keep trivial
  | recordingStep step checkedAt =>
    obtain ⟨middle,locked,taken⟩ := Option.bind_eq_some_iff.mp taken
    obtain ⟨rfl,others⟩ := lock_cases locked
    split at taken
    · cases taken
      exact invariant.move others ⟨rfl,rfl⟩
    · cases taken
      refine invariant.move (fun q apart held => ?_) trivial
      exact absurd (Option.some.inj (others q apart held)).symm apart
  | committingLogin row checkedAt =>
    cases taken
    obtain ⟨held,same⟩ := sound
    exact invariant.commit held (fun _ => trivial) (Nat.le_of_eq same.symm) (.inl rfl)
  | refreshing checkedAt =>
    cases taken
    have moved : Invariant (s.goto p .ended) := invariant.move keep trivial
    refine { moved with current := ?_, older := ?_ }
    · exact List.forall_mem_append.mpr ⟨moved.current,List.forall_mem_singleton.mpr (Nat.le_refl _)⟩
    · refine List.forall_mem_append.mpr ⟨moved.older,List.forall_mem_singleton.mpr fun before => ?_⟩
      exact absurd before (Nat.not_lt.mpr (of_decide_eq_true allowed))
  | change change =>
    cases taken
    exact invariant.move keep trivial
  | flushing change loaded =>
    obtain ⟨middle,locked,taken⟩ := Option.bind_eq_some_iff.mp taken
    obtain ⟨rfl,others⟩ := lock_cases locked
    cases taken
    refine invariant.move others ⟨rfl,write_version fun ends => ?_⟩
    simpa [ends] using allowed
  | committingChange row ends =>
    cases taken
    obtain ⟨held,counts,more⟩ := sound
    refine invariant.commit held (fun _ => trivial) counts ?_
    cases ends with
    | true => exact .inr (more rfl)
    | false => exact .inl rfl
  | ended => cases taken

theorem Invariant.step {action : Action} (invariant : Invariant s) (allowed : undisturbed s action = true)
    (taken : next verifiers s action = some t) : Invariant t := by
  cases action with
  | begin process =>
    simp only [next,Option.ite_none_right_eq_some,Option.some.injEq] at taken
    obtain ⟨begins,rfl⟩ := taken
    refine { invariant with sound := fun q found there => ?_ }
    rcases append_cases there with ⟨rfl,rfl⟩ | ⟨-,old⟩
    · cases found <;> simp_all [Process.begins,Sound]
    · exact (invariant.sound q found old).frame fun held => ⟨held,rfl⟩
  | advance p now =>
    obtain ⟨process,found,moved⟩ := Option.bind_eq_some_iff.mp taken
    exact invariant.advance found allowed moved
  | abort p =>
    simp only [next,Option.ite_none_right_eq_some,Option.some.injEq] at taken
    obtain ⟨-,rfl⟩ := taken
    refine invariant.move (fun q apart held => ?_) trivial
    rw [held,if_neg]
    simpa using apart

theorem Invariant.cut (invariant : Invariant s) : Cut s := by
  intro token member before
  have less := invariant.older token member before
  simp [accepted,Nat.ne_of_lt less]

/-- A change that ends the sessions cuts off every login that was checked before it. -/
theorem platform_sessions_cut (reached : Reachable Initial (OfNext (within undisturbed (next verifiers))) s) : Cut s := by
  have invariant : Invariant s := by
    refine reached.invariant ?_ fun u action w kept taken => ?_
    · rintro u ⟨holder,processes,tokens,changes⟩
      constructor
      · simp [processes]
      · simp [tokens]
      · simp [tokens]
    · obtain ⟨allowed,stepped⟩ := within_eq_some.mp taken
      exact kept.step allowed stepped
  exact invariant.cut

private def checks : Verifiers := ⟨fun password hash => hash = password,fun secret code now => if secret = code then some now else none⟩

private def ready : State := ⟨⟨"pw","old",true,0,0⟩,none,[],[],0⟩

private theorem ready_initial : Initial ready := ⟨rfl,rfl,rfl,rfl⟩

private def run (p : Nat) (steps : Nat) : List Action := .replicate steps (.advance p 1)

private def outcome (s : State) : List Token × Nat × List Bool := (s.tokens,s.changes,s.tokens.map (accepted s))

/-- A login, then a new second factor: the token is refused. -/
theorem platform_sessions_cut_serial : ∃ s, outcome s = ([⟨0,0⟩],1,[false]) ∧ Cut s := by
  obtain ⟨s,reached,view⟩ := reachable_of_execute (within undisturbed (next checks)) outcome
    ([.begin (.login "pw" "old"),.begin (.change (.resetAdmin2fa "new"))] ++ run 0 6 ++ run 1 3) ready_initial
    (b := ([⟨0,0⟩],1,[false])) (by decide +kernel)
  exact ⟨s,view,platform_sessions_cut reached⟩

private theorem not_cut {token : Token} {changes : Nat} (view : outcome s = ([token],changes,[true]))
    (before : token.checkedAt < changes) :
    ¬ Cut s := by
  simp only [outcome,Prod.mk.injEq] at view
  obtain ⟨tokens,rfl,taken⟩ := view
  intro cut
  have refused := cut token (by simp [tokens]) before
  simp [tokens,refused] at taken

/-- A login that re-reads the row after a reset it was checked before mints a token that is accepted; and of two changes that
count on from the same version the second does not end what was minted after the first. -/
theorem platform_sessions_survive :
    (∃ s, Reachable Initial (OfNext (next checks)) s ∧ outcome s = ([⟨1,0⟩],1,[true]) ∧ ¬ Cut s) ∧
      ∃ s, Reachable Initial (OfNext (next checks)) s ∧ outcome s = ([⟨1,1⟩],2,[true]) ∧ ¬ Cut s := by
  constructor
  · obtain ⟨s,reached,view⟩ := reachable_of_execute (next checks) outcome
      ([.begin (.login "pw" "old"),.begin (.change (.resetAdmin2fa "new"))] ++ run 0 5 ++ run 1 3 ++ run 0 1) ready_initial
      (b := ([⟨1,0⟩],1,[true])) (by decide +kernel)
    exact ⟨s,reached,view,not_cut view (Nat.lt_succ_self _)⟩
  · obtain ⟨s,reached,view⟩ := reachable_of_execute (next checks) outcome
      ([.begin (.change (.resetAdmin2fa "new")),.begin (.change (.setAdminActive false))] ++ run 0 1 ++ run 1 1 ++ run 0 2 ++
        [.begin (.login "pw" "new")] ++ run 2 6 ++ run 1 2 ++ [.begin (.change (.setAdminActive true))] ++ run 3 3) ready_initial
      (b := ([⟨1,1⟩],2,[true])) (by decide +kernel)
    exact ⟨s,reached,view,not_cut view (Nat.lt_succ_self _)⟩

end PlatformLogin
