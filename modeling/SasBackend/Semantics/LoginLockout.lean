import SasBackend.Library.Transition

/-! Login attempts on one account, by password or PIN, and resets of its credentials, statement by statement.
An attempt reads the row, checks the lock on what it has read, compares the hash for any time and then counts a failure in a
transaction of its own, or clears the counter and commits. The row's lock is held from a write to the commit. Checks of user and
business end an attempt before its comparison (`abort`); a failure is always recorded.
-/
namespace LoginLockout

structure Settings where
  maxLoginAttempts : Nat
  lockoutMinutes : Nat

structure User where
  isLocked : Bool
  failedLoginAttempts : Nat
  lockedUntil : Option Nat
  deriving DecidableEq

inductive Request
  | loginWithPassword | loginWithPin | resetUserPassword
  deriving DecidableEq

/-- `lockedAtStart`: a committed lock was in force when the comparison started. -/
inductive Process
  | loading (request : Request)
  | checking (loaded : User)
  | comparing (loaded : User) (correct lockedAtStart : Bool)
  | clearing (now : Nat)
  | counting (now : Nat) (cleared : Option User)
  | recording (row : User)
  | flushing (loaded : User) (lockedAtStart : Option Bool)
  | committing (row : User) (lockedAtStart : Option Bool)
  | ended
  deriving DecidableEq

/-- The code does not store `guesses`, the wrong guesses compared since the last reset, nor `breached`, that an attempt has
succeeded whose comparison started under a lock in force. -/
structure State where
  user : User
  now : Nat
  holder : Option Nat
  processes : List Process
  guesses : Nat
  breached : Bool

/-- `correct`: the verdict of the comparison, where one starts. -/
inductive Action
  | begin (request : Request)
  | advance (p : Nat) (correct : Bool)
  | abort (p : Nat)
  | wait (duration : Nat)

def ensureNotLocked (user : User) (now : Nat) : Bool := !user.isLocked || user.lockedUntil.all (· ≤ now)

def inForce (user : User) (now : Nat) : Bool := !ensureNotLocked user now

def lapsed (user : User) (now : Nat) : Bool := user.isLocked && user.lockedUntil.any (· ≤ now)

def clear (user : User) : User := { user with isLocked := false, failedLoginAttempts := 0, lockedUntil := none }

/-- The counter is bumped, and the account locked once it reaches the limit. -/
def bump (settings : Settings) (now : Nat) (user : User) : User :=
  let attempts := user.failedLoginAttempts + 1
  if settings.maxLoginAttempts ≤ attempts then
    ⟨true,attempts,some (now + settings.lockoutMinutes * 60)⟩
  else { user with failedLoginAttempts := attempts }

/-- A success or a reset clears the columns that it has not read clear already. -/
def unlock (loaded row : User) : User where
  isLocked := if loaded.isLocked then false else row.isLocked
  failedLoginAttempts := if loaded.failedLoginAttempts = 0 then row.failedLoginAttempts else 0
  lockedUntil := if loaded.lockedUntil = none then row.lockedUntil else none

def State.goto (s : State) (p : Nat) (process : Process) : State := { s with processes := s.processes.set p process }

/-- A statement that writes the row waits for its lock. -/
def State.lock (s : State) (p : Nat) : Option State :=
  if s.holder.all (· = p) then some { s with holder := some p } else none

def State.commit (s : State) (p : Nat) (row : User) : State := { s with user := row, holder := none }.goto p .ended

def advance (settings : Settings) (s : State) (p : Nat) (correct : Bool) : Process → Option State
  | .loading .resetUserPassword => some (s.goto p (.flushing s.user none))
  | .loading _ => some (s.goto p (.checking s.user))
  | .checking loaded =>
    if ensureNotLocked loaded s.now then
      some { s.goto p (.comparing loaded correct (inForce s.user s.now)) with
        guesses := if correct then s.guesses else s.guesses + 1 }
    else some (s.goto p .ended)
  | .comparing loaded true lockedAtStart => some (s.goto p (.flushing loaded (some lockedAtStart)))
  | .comparing _ false _ => some (s.goto p (.clearing s.now))
  | .clearing now =>
    if lapsed s.user now then do
      let s ← s.lock p
      some (s.goto p (.counting now (some (clear s.user))))
    else some (s.goto p (.counting now none))
  | .counting now cleared => do
    let s ← s.lock p
    some (s.goto p (.recording (bump settings now (cleared.getD s.user))))
  | .recording row =>
    -- a lock that is committed late may have expired by then
    some { s.commit p row with guesses := if lapsed row s.now then 0 else s.guesses }
  | .flushing loaded lockedAtStart => do
    let s ← s.lock p
    some (s.goto p (.committing (unlock loaded s.user) lockedAtStart))
  | .committing row lockedAtStart =>
    some { s.commit p row with guesses := 0, breached := s.breached || lockedAtStart = some true }
  | .ended => none

/-- A wrong guess that has been compared and is not counted yet. -/
def Process.guessing : Process → Bool
  | .comparing _ false _ | .clearing .. | .counting .. | .recording .. => true
  | _ => false

def State.wait (s : State) (duration : Nat) : State :=
  { s with
    now := s.now + duration
    guesses := if inForce s.user s.now && lapsed s.user (s.now + duration) then 0 else s.guesses }

def next (settings : Settings) (s : State) : Action → Option State
  | .begin request => some { s with processes := s.processes ++ [.loading request] }
  | .advance p correct => s.processes[p]?.bind (advance settings s p correct)
  | .abort p => do
    let process ← s.processes[p]?
    if process.guessing then none
    else some ({ s with holder := if s.holder = some p then none else s.holder }.goto p .ended)
  | .wait duration => some (s.wait duration)

/-- An account without failures, and no request. -/
def Initial (s : State) : Prop :=
  s.user = ⟨false,0,none⟩ ∧ s.holder = none ∧ s.processes = [] ∧ s.guesses = 0 ∧ s.breached = false

/-- The failures that still count. -/
def counted (user : User) (now : Nat) : Nat := if lapsed user now then 0 else user.failedLoginAttempts

/-- A comparison starts while the lock columns are as its attempt has read them, that of a wrong guess while no other is waiting to be
counted. -/
def current (s : State) : Action → Bool
  | .advance p correct => match s.processes[p]? with
    | some (.checking loaded) => !ensureNotLocked loaded s.now ||
      loaded.isLocked = s.user.isLocked && loaded.lockedUntil = s.user.lockedUntil && (correct || !s.processes.any Process.guessing)
    | _ => true
  | _ => true

/-- No more wrong guesses than allowed, and no success from under a lock. -/
def Guarded (settings : Settings) (s : State) : Prop := s.guesses ≤ settings.maxLoginAttempts ∧ s.breached = false

end LoginLockout
