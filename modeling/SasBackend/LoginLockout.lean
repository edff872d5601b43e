import Mathlib.Data.List.Basic
import SasBackend.Semantics.LoginLockout

/-! The wrong guesses since the last reset are counted, or one is on its way to be: while every comparison starts under the lock that
its attempt has read, and after all wrong guesses before it are counted, the lock comes in time.
-/
namespace LoginLockout
open Transition

variable {settings : Settings} {s t : State} {p q : Nat} {process other : Process} {row : User}

def guessing (s : State) : Nat := s.processes.countP Process.guessing

def Sound (settings : Settings) (s : State) (p : Nat) : Process → Prop
  | .comparing _ true lockedAtStart => lockedAtStart = false
  | .clearing now => now ≤ s.now
  | .counting _ (some cleared) => s.holder = some p ∧ lapsed s.user s.now = true ∧ cleared.failedLoginAttempts = 0
  | .recording row => s.holder = some p ∧ (∃ since user, row = bump settings since user) ∧ counted s.user s.now < row.failedLoginAttempts
  | .flushing _ lockedAtStart => lockedAtStart ≠ some true
  | .committing _ lockedAtStart => s.holder = some p ∧ lockedAtStart ≠ some true
  | _ => True

/-- `open_`: another wrong guess is within the limit when none is under way and no lock is in force. -/
structure Invariant (settings : Settings) (s : State) : Prop where
  sound : ∀ p process, s.processes[p]? = some process → Sound settings s p process
  single : guessing s ≤ 1
  guesses : s.guesses ≤ counted s.user s.now + guessing s
  open_ : guessing s = 0 → inForce s.user s.now = false → s.guesses < settings.maxLoginAttempts
  guarded : Guarded settings s

/-- A process keeps its facts while it keeps the lock with the row. -/
theorem Sound.frame (sound : Sound settings s q process) (now : t.now = s.now)
    (mine : s.holder = some q → t.holder = some q ∧ t.user = s.user) : Sound settings t q process := by
  cases process with
  | comparing loaded correct lockedAtStart => cases correct <;> exact sound
  | clearing since =>
    simp only [Sound,now] at sound ⊢
    exact sound
  | counting since cleared =>
    cases cleared with
    | none => trivial
    | some cleared =>
      obtain ⟨held,old,zero⟩ := sound
      obtain ⟨still,same⟩ := mine held
      exact ⟨still,by rw [same,now]; exact old,zero⟩
  | recording row =>
    obtain ⟨held,bumped,more⟩ := sound
    obtain ⟨still,same⟩ := mine held
    exact ⟨still,bumped,by rw [same,now]; exact more⟩
  | committing row lockedAtStart =>
    obtain ⟨held,free⟩ := sound
    exact ⟨(mine held).1,free⟩
  | loading | checking | flushing | ended => exact sound

theorem guessing_set (found : s.processes[p]? = some process) (after : Process) :
    (s.processes.set p after).countP Process.guessing + process.guessing.toNat = guessing s + after.guessing.toNat := by
  obtain ⟨inside,same⟩ := List.getElem?_eq_some_iff.mp found
  have toNat (b : Bool) : (if b = true then 1 else 0) = b.toNat := by
    cases b <;> rfl
  have here : process.guessing.toNat ≤ s.processes.countP Process.guessing := by
    cases yes : process.guessing with
    | false => exact Nat.zero_le _
    | true => exact List.countP_pos_iff.mpr ⟨process,List.mem_of_getElem? found,yes⟩
  rw [guessing,List.countP_set inside,same,toNat,toNat]
  omega

theorem set_cases {after found : Process} (there : (s.processes.set p after)[q]? = some found) :
    (q = p ∧ found = after) ∨ (q ≠ p ∧ s.processes[q]? = some found) := by
  rw [List.getElem?_set] at there
  grind

theorem counted_le (user : User) (now : Nat) : counted user now ≤ user.failedLoginAttempts := by
  unfold counted
  split <;> omega

theorem lapsed_mono {user : User} {now later : Nat} (le : now ≤ later) (old : lapsed user now = true) :
    lapsed user later = true := by
  simp only [lapsed,Bool.and_eq_true,Option.any_eq_true,decide_eq_true_eq] at old ⊢
  obtain ⟨locked,ends,same,past⟩ := old
  exact ⟨locked,ends,same,Nat.le_trans past le⟩

theorem counted_anti {user : User} {now later : Nat} (le : now ≤ later) : counted user later ≤ counted user now := by
  unfold counted
  split
  · omega
  · next live =>
    have still : ¬ lapsed user now = true := fun old => live (lapsed_mono le old)
    simp [still]

theorem bump_attempts (now : Nat) (user : User) :
    (bump settings now user).failedLoginAttempts = user.failedLoginAttempts + 1 := by
  unfold bump
  simp only
  split <;> rfl

theorem Invariant.move {holder : Option Nat} {after : Process} (holds : Invariant settings s)
    (found : s.processes[p]? = some process) (others : ∀ q, q ≠ p → s.holder = some q → holder = some q)
    (sound : Sound settings { s with holder := holder } p after) (same : process.guessing = after.guessing) :
    Invariant settings { s with holder := holder, processes := s.processes.set p after } := by
  have moved := guessing_set found after
  rw [same] at moved
  have kept : guessing { s with holder := holder, processes := s.processes.set p after } = guessing s := by
    simp only [guessing] at moved ⊢
    omega
  refine ⟨fun q found there => ?_,kept ▸ holds.single,kept ▸ holds.guesses,kept ▸ holds.open_,holds.guarded⟩
  rcases set_cases there with ⟨rfl,rfl⟩ | ⟨different,old⟩
  · exact sound.frame rfl fun held => ⟨held,rfl⟩
  · exact (holds.sound q found old).frame rfl fun held => ⟨others q different held,rfl⟩

theorem Invariant.guess {loaded : User} (holds : Invariant settings s) (found : s.processes[p]? = some (.checking loaded))
    (alone : guessing s = 0) (free : inForce s.user s.now = false) :
    Invariant settings { s with processes := s.processes.set p (.comparing loaded false (inForce s.user s.now)), guesses := s.guesses + 1 } := by
  have moved := guessing_set found (.comparing loaded false (inForce s.user s.now))
  have before := holds.guesses
  have within := holds.open_ alone free
  simp only [Process.guessing,Bool.toNat_false,Bool.toNat_true] at moved
  refine ⟨fun q found there => ?_,?_,?_,fun none_ => ?_,within,holds.guarded.2⟩
  · rcases set_cases there with ⟨rfl,rfl⟩ | ⟨different,old⟩
    · trivial
    · exact (holds.sound q found old).frame rfl fun held => ⟨held,rfl⟩
  · simp only [guessing] at moved alone ⊢
    omega
  · simp only [guessing] at moved alone before ⊢
    omega
  · simp only [guessing] at moved none_
    omega

theorem Invariant.commit {guesses : Nat} {breached : Bool} (holds : Invariant settings s)
    (found : s.processes[p]? = some process) (held : s.holder = some p)
    (counts : guesses + process.guessing.toNat ≤ counted row s.now + guessing s)
    (within : inForce row s.now = false → guesses < settings.maxLoginAttempts)
    (limit : guesses ≤ settings.maxLoginAttempts) (safe : breached = false) :
    Invariant settings { s.commit p row with guesses := guesses, breached := breached } := by
  have moved := guessing_set found .ended
  have single := holds.single
  have ended : Process.ended.guessing.toNat = 0 := rfl
  rw [ended] at moved
  refine ⟨fun q other there => ?_,?_,?_,fun _ => within,limit,safe⟩
  · rcases set_cases there with ⟨rfl,rfl⟩ | ⟨different,old⟩
    · trivial
    · refine (holds.sound q other old).frame rfl fun mine => ?_
      rw [held,Option.some.injEq] at mine
      exact absurd mine.symm different
  · simp only [State.commit,State.goto,guessing] at moved single ⊢
    omega
  · simp only [State.commit,State.goto,guessing] at moved counts ⊢
    omega

theorem lock_cases {t : State} (locked : s.lock p = some t) :
    t = { s with holder := some p } ∧ ∀ q, q ≠ p → s.holder = some q → some p = some q := by
  simp only [State.lock,Option.ite_none_right_eq_some,Option.some.injEq] at locked
  obtain ⟨free,rfl⟩ := locked
  refine ⟨rfl,fun q different held => ?_⟩
  rw [held] at free
  simp [different] at free

theorem not_inForce {loaded user : User} {now : Nat} (passed : ensureNotLocked loaded now = true)
    (locked : loaded.isLocked = user.isLocked) (ends : loaded.lockedUntil = user.lockedUntil) :
    inForce user now = false := by
  have same : ensureNotLocked user now = ensureNotLocked loaded now := by
    simp only [ensureNotLocked,locked,ends]
  rw [inForce,same,passed]
  rfl

theorem no_guessing (alone : (!s.processes.any Process.guessing) = true) : guessing s = 0 := by
  rw [guessing,List.countP_eq_zero]
  simpa using alone

theorem bump_within {since now : Nat} {user : User} {guesses : Nat} (counts : guesses ≤ (bump settings since user).failedLoginAttempts)
    (live : lapsed (bump settings since user) now = false) (free : inForce (bump settings since user) now = false) :
    guesses < settings.maxLoginAttempts := by
  unfold bump at counts live free
  dsimp only at counts live free
  split at counts
  · next reached =>
    rw [if_pos reached] at live free
    simp [lapsed,inForce,ensureNotLocked] at live free
    omega
  · next below => exact Nat.lt_of_le_of_lt counts (Nat.not_le.mp below)

theorem Invariant.advance {correct : Bool} (positive : 0 < settings.maxLoginAttempts) (holds : Invariant settings s)
    (allowed : current s (.advance p correct) = true) (found : s.processes[p]? = some process)
    (taken : advance settings s p correct process = some t) : Invariant settings t := by
  have sound := holds.sound p process found
  have keep : ∀ q, q ≠ p → s.holder = some q → s.holder = some q := fun _ _ held => held
  cases process with
  | loading request =>
    cases request with
    | resetUserPassword =>
      cases taken
      exact holds.move found keep (by simp [Sound]) rfl
    | loginWithPassword | loginWithPin =>
      cases taken
      exact holds.move found keep trivial rfl
  | checking loaded =>
    simp only [LoginLockout.advance] at taken
    split at taken
    · next passed =>
      cases taken
      simp only [current,found,passed,Bool.not_true,Bool.false_or,Bool.and_eq_true,decide_eq_true_eq] at allowed
      have free := not_inForce passed allowed.1.1 allowed.1.2
      cases correct with
      | true => exact holds.move found keep free rfl
      | false => exact holds.guess found (no_guessing (by simpa using allowed.2)) free
    · cases taken
      exact holds.move found keep trivial rfl
  | comparing loaded right lockedAtStart =>
    cases right with
    | true =>
      cases taken
      exact holds.move found keep (by simpa [Sound] using sound) rfl
    | false =>
      cases taken
      exact holds.move found keep (Nat.le_refl _) rfl
  | clearing since =>
    simp only [LoginLockout.advance] at taken
    split at taken
    · next old =>
      simp only [Option.bind_eq_bind,Option.bind_eq_some_iff,Option.some.injEq] at taken
      obtain ⟨middle,locked,rfl⟩ := taken
      obtain ⟨rfl,others⟩ := lock_cases locked
      exact holds.move found others ⟨rfl,lapsed_mono sound old,rfl⟩ rfl
    · cases taken
      exact holds.move found keep trivial rfl
  | counting since cleared =>
    simp only [LoginLockout.advance,Option.bind_eq_bind,Option.bind_eq_some_iff,Option.some.injEq] at taken
    obtain ⟨middle,locked,rfl⟩ := taken
    obtain ⟨rfl,others⟩ := lock_cases locked
    refine holds.move found others ⟨rfl,⟨_,_,rfl⟩,?_⟩ rfl
    rw [bump_attempts]
    cases cleared with
    | none => exact Nat.lt_succ_of_le (counted_le _ _)
    | some cleared =>
      obtain ⟨_,old,zero⟩ := sound
      simp [counted,old]
  | recording row =>
    cases taken
    obtain ⟨held,⟨since,user,rfl⟩,more⟩ := sound
    have one : Process.guessing (.recording (bump settings since user)) = true := rfl
    have before := holds.guesses
    have single := holds.single
    by_cases late : lapsed (bump settings since user) s.now = true
    · simp only [if_pos late]
      refine holds.commit found held ?_ (fun _ => positive) (Nat.zero_le _) holds.guarded.2
      have here := guessing_set found .ended
      simp only [Process.guessing,Bool.toNat_true,Bool.toNat_false] at here ⊢
      omega
    · simp only [if_neg late]
      have counts : s.guesses ≤ (bump settings since user).failedLoginAttempts := by omega
      refine holds.commit found held ?_ (bump_within counts (Bool.eq_false_iff.mpr late)) holds.guarded.1 holds.guarded.2
      simp only [one,Bool.toNat_true,counted,if_neg late]
      omega
  | flushing loaded lockedAtStart =>
    simp only [LoginLockout.advance,Option.bind_eq_bind,Option.bind_eq_some_iff,Option.some.injEq] at taken
    obtain ⟨middle,locked,rfl⟩ := taken
    obtain ⟨rfl,others⟩ := lock_cases locked
    exact holds.move found others ⟨rfl,sound⟩ rfl
  | committing row lockedAtStart =>
    cases taken
    obtain ⟨held,free⟩ := sound
    refine holds.commit found held (by simp [Process.guessing]) (fun _ => positive) (Nat.zero_le _) ?_
    simp [holds.guarded.2,free]
  | ended => cases taken

/-- Time passes: what counts shrinks only when the lock expires. -/
theorem Invariant.wait {duration : Nat} (positive : 0 < settings.maxLoginAttempts) (holds : Invariant settings s) : Invariant settings (s.wait duration) := by
  have later : s.now ≤ s.now + duration := Nat.le_add_right _ _
  refine ⟨fun q process there => ?_,holds.single,?_,?_,?_,holds.guarded.2⟩
  · have sound := holds.sound q process there
    cases process with
    | clearing since => exact Nat.le_trans sound later
    | counting since cleared =>
      cases cleared with
      | none => trivial
      | some cleared => exact ⟨sound.1,lapsed_mono later sound.2.1,sound.2.2⟩
    | recording row => exact ⟨sound.1,sound.2.1,Nat.lt_of_le_of_lt (counted_anti later) sound.2.2⟩
    | comparing loaded correct lockedAtStart => cases correct <;> exact sound
    | loading | checking | flushing | committing | ended => exact sound
  · have before := holds.guesses
    simp only [State.wait]
    split
    · exact Nat.zero_le _
    · next still =>
      have same : counted s.user (s.now + duration) = counted s.user s.now := by
        unfold counted
        by_cases old : lapsed s.user s.now = true
        · rw [if_pos old,if_pos (lapsed_mono later old)]
        · have live : ¬lapsed s.user (s.now + duration) = true := by
            intro now
            apply still
            simp only [inForce,ensureNotLocked,lapsed] at now old ⊢
            cases date : s.user.lockedUntil <;> simp_all
          rw [if_neg old,if_neg live]
      rw [same]
      exact before
  · intro alone free
    simp only [State.wait] at free ⊢
    split
    · exact positive
    · next still =>
      refine holds.open_ alone ?_
      by_contra forced
      apply still
      simp only [inForce,ensureNotLocked,lapsed] at free forced ⊢
      cases date : s.user.lockedUntil <;> simp_all
  · simp only [State.wait]
    split
    · exact Nat.zero_le _
    · exact holds.guarded.1

theorem Invariant.step {a : Action} (positive : 0 < settings.maxLoginAttempts) (holds : Invariant settings s) (allowed : current s a = true)
    (taken : next settings s a = some t) : Invariant settings t := by
  cases a with
  | begin request =>
    cases taken
    have kept : guessing { s with processes := s.processes ++ [.loading request] } = guessing s := by simp [guessing,Process.guessing]
    refine ⟨fun q process there => ?_,kept ▸ holds.single,kept ▸ holds.guesses,kept ▸ holds.open_,holds.guarded⟩
    simp only [List.getElem?_append,List.getElem?_singleton] at there
    split at there
    · exact (holds.sound q process there).frame rfl fun held => ⟨held,rfl⟩
    · split at there
      · cases there
        trivial
      · cases there
  | advance p correct =>
    obtain ⟨process,found,moved⟩ := Option.bind_eq_some_iff.mp taken
    exact holds.advance positive allowed found moved
  | abort p =>
    simp only [next,Option.bind_eq_bind,Option.bind_eq_some_iff] at taken
    obtain ⟨process,found,moved⟩ := taken
    split at moved
    · cases moved
    · next free =>
      cases moved
      refine holds.move found (fun q different held => ?_) trivial (Bool.eq_false_iff.mpr free)
      rw [held,if_neg]
      simpa using different
  | wait duration =>
    cases taken
    exact holds.wait positive

theorem Initial.invariant (positive : 0 < settings.maxLoginAttempts) (initial : Initial s) : Invariant settings s := by
  obtain ⟨_,_,processes,guesses,breached⟩ := initial
  refine ⟨?_,?_,?_,?_,?_,breached⟩
  · simp [processes]
  · simp [guessing,processes]
  · simp [guesses]
  · simp [guesses,positive]
  · simp [guesses]

/-- Between two resets no more than `maxLoginAttempts` wrong guesses are compared, and nobody gets in from under a lock. -/
theorem lockout_holds (positive : 0 < settings.maxLoginAttempts) (reached : Reachable Initial (OfNext (within current (next settings))) s) :
    Guarded settings s := by
  have holds : Invariant settings s := reached.invariant (fun s initial => initial.invariant positive) fun s a t kept taken =>
    kept.step positive (within_eq_some.mp taken).1 (within_eq_some.mp taken).2
  exact holds.guarded

def shop : Settings := ⟨5,15⟩

def fresh : State := ⟨⟨false,0,none⟩,0,none,[],0,false⟩

theorem fresh_initial : Initial fresh := ⟨rfl,rfl,rfl,rfl,rfl⟩

/-- A wrong guess from its arrival until it is counted. -/
def wrongAttempt (p : Nat) : List Action := .begin .loginWithPassword :: List.replicate 6 (.advance p false)

def serialRun : List Action := (List.range 5).flatMap wrongAttempt

/-- Five wrong guesses one after the other use up the limit and lock the account. -/
theorem lockout_holds_serial : ∃ s, s.guesses = 5 ∧ s.user.isLocked = true ∧ Guarded shop s := by
  obtain ⟨s,reached,view⟩ : ∃ s, Reachable Initial (OfNext (within current (next shop))) s ∧
      (s.guesses,s.user.isLocked) = (5,true) :=
    reachable_of_execute _ (fun s => (s.guesses,s.user.isLocked)) serialRun fresh_initial (by decide +kernel)
  obtain ⟨guesses,locked⟩ := Prod.ext_iff.mp view
  exact ⟨s,guesses,locked,lockout_holds (by decide) reached⟩

/-- Six attempts have all read the row before one of them is counted. -/
def parallelRun : List Action :=
  List.replicate 6 (.begin .loginWithPassword) ++ (List.range 6).map (.advance · false) ++
    (List.range 6).map (.advance · false)

/-- An attempt has read the row, five others lock the account, and it goes on. -/
def staleRun : List Action :=
  [.begin .loginWithPin,.advance 0 true] ++ (List.range 5).flatMap (fun p => wrongAttempt (p + 1)) ++
    List.replicate 4 (.advance 0 true)

theorem lockout_passed :
    (¬∀ s, Reachable Initial (OfNext (next shop)) s → s.guesses ≤ shop.maxLoginAttempts) ∧
      ¬∀ s, Reachable Initial (OfNext (next shop)) s → s.breached = false := by
  constructor
  · intro claim
    obtain ⟨s,reached,six⟩ : ∃ s, Reachable Initial (OfNext (next shop)) s ∧ s.guesses = 6 :=
      reachable_of_execute (next shop) State.guesses parallelRun fresh_initial (by decide +kernel)
    have five : s.guesses ≤ 5 := claim s reached
    omega
  · intro claim
    obtain ⟨s,reached,breached⟩ : ∃ s, Reachable Initial (OfNext (next shop)) s ∧ s.breached = true :=
      reachable_of_execute (next shop) State.breached staleRun fresh_initial (by decide +kernel)
    rw [claim s reached] at breached
    cases breached

end LoginLockout
