import SasBackend.Library.Transition

/-! Logins of one platform admin with changes of its account, statement by statement.
A statement sees what has committed; one that writes the row waits for its lock, which is held to the commit. What else may
refuse an attempt (the lockout counters, the caller's own rights) ends it wherever it stands (`abort`).
-/
namespace PlatformLogin

structure Admin where
  passwordHash : String
  totpSecret : String
  isActive : Bool
  lastTotpStep : Nat
  tokenVersion : Nat
  deriving DecidableEq

/-- The comparison of passwords with their hash, and the time-step of which a code is right at a time. -/
structure Verifiers where
  verifyPassword : String → String → Bool
  verifyTotp : String → String → Nat → Option Nat

inductive Change
  | setAdminActive (active : Bool)
  | resetAdmin2fa (totpSecret : String)
  deriving DecidableEq

/-- `checkedAt`: how many changes had committed when the login read the row it checks against. -/
inductive Process
  | login (password code : String)
  | checkingPassword (password code : String) (loaded : Admin) (checkedAt : Nat)
  | checkingTotp (code : String) (loaded : Admin) (checkedAt : Nat)
  | recordingStep (step checkedAt : Nat)
  | committingLogin (row : Admin) (checkedAt : Nat)
  | refreshing (checkedAt : Nat)
  | change (change : Change)
  | flushing (change : Change) (loaded : Admin)
  | committingChange (row : Admin) (ends : Bool)
  | ended
  deriving DecidableEq

structure Token where
  tv : Nat
  checkedAt : Nat
  deriving DecidableEq

/-- The code keeps neither the `tokens` it has minted nor `changes`, how many changes have committed that end sessions. -/
structure State where
  admin : Admin
  holder : Option Nat
  processes : List Process
  tokens : List Token
  changes : Nat

inductive Action
  | begin (process : Process)
  | advance (p : Nat) (now : Nat)
  | abort (p : Nat)

def State.goto (s : State) (p : Nat) (process : Process) : State := { s with processes := s.processes.set p process }

def State.lock (s : State) (p : Nat) : Option State :=
  if s.holder.all (· = p) then some { s with holder := some p } else none

def State.commit (s : State) (p : Nat) (row : Admin) (after : Process) : State :=
  { s with admin := row, holder := none }.goto p after

/-- Disabling and a new second factor sign the admin out everywhere. -/
def Change.endsSessions : Change → Bool
  | .setAdminActive active => !active
  | .resetAdmin2fa _ => true

/-- Only the columns that differ from what the session has loaded are written. -/
def Change.write (change : Change) (loaded row : Admin) : Admin :=
  match change with
  | .setAdminActive active =>
    { row with
      isActive := if loaded.isActive = active then row.isActive else active
      tokenVersion := if active then row.tokenVersion else loaded.tokenVersion + 1 }
  | .resetAdmin2fa totpSecret =>
    { row with
      totpSecret := if loaded.totpSecret = totpSecret then row.totpSecret else totpSecret
      lastTotpStep := if loaded.lastTotpStep = 0 then row.lastTotpStep else 0
      tokenVersion := loaded.tokenVersion + 1 }

/-- A code works once: only a strictly newer time-step is recorded. -/
def recordStep (s : State) (p step checkedAt : Nat) : Option State := do
  let s ← s.lock p
  if s.admin.lastTotpStep < step then some (s.goto p (.committingLogin { s.admin with lastTotpStep := step } checkedAt))
  else some ({ s with holder := none }.goto p .ended)

def advance (verifiers : Verifiers) (s : State) (p now : Nat) : Process → Option State
  | .login password code =>
    if s.admin.isActive then some (s.goto p (.checkingPassword password code s.admin s.changes)) else some (s.goto p .ended)
  | .checkingPassword password code loaded checkedAt =>
    if verifiers.verifyPassword password loaded.passwordHash then some (s.goto p (.checkingTotp code loaded checkedAt))
    else some (s.goto p .ended)
  | .checkingTotp code loaded checkedAt =>
    match verifiers.verifyTotp loaded.totpSecret code now with
    | none => some (s.goto p .ended)
    | some step => some (s.goto p (.recordingStep step checkedAt))
  | .recordingStep step checkedAt => recordStep s p step checkedAt
  | .committingLogin row checkedAt => some (s.commit p row (.refreshing checkedAt))
  | .refreshing checkedAt =>
    some { s.goto p .ended with tokens := s.tokens ++ [⟨s.admin.tokenVersion,checkedAt⟩] }
  | .change change => some (s.goto p (.flushing change s.admin))
  | .flushing change loaded => do
    let s ← s.lock p
    some (s.goto p (.committingChange (change.write loaded s.admin) change.endsSessions))
  | .committingChange row ends =>
    some { s.commit p row .ended with changes := if ends then s.changes + 1 else s.changes }
  | .ended => none

def Process.begins : Process → Bool
  | .login .. | .change _ => true
  | _ => false

def next (verifiers : Verifiers) (s : State) : Action → Option State
  | .begin process => if process.begins then some { s with processes := s.processes ++ [process] } else none
  | .advance p now => s.processes[p]?.bind (advance verifiers s p now)
  | .abort p => if p < s.processes.length then
      some ({ s with holder := if s.holder = some p then none else s.holder }.goto p .ended)
    else none

/-- Nobody is at work, and no token minted yet. -/
def Initial (s : State) : Prop := s.holder = none ∧ s.processes = [] ∧ s.tokens = [] ∧ s.changes = 0

/-- What `get_platform_admin` checks. -/
def accepted (s : State) (token : Token) : Bool := s.admin.isActive && token.tv = s.admin.tokenVersion

/-- No token is accepted that was minted for credentials checked before a change that ended the sessions. -/
def Cut (s : State) : Prop := ∀ token ∈ s.tokens, token.checkedAt < s.changes → accepted s token = false

/-- A login re-reads the row that it has checked, and a change counts on from the version there is. -/
def undisturbed (s : State) : Action → Bool
  | .advance p _ => match s.processes[p]? with
    | some (.refreshing checkedAt) => s.changes ≤ checkedAt
    | some (.flushing change loaded) => !change.endsSessions || loaded.tokenVersion = s.admin.tokenVersion
    | _ => true
  | _ => true

/-- A run as it is watched for the time-steps of its logins: those accepted since the last reset of the second factor, and the reset
that holds the row. -/
structure Watched where
  state : State
  accepted : List Nat
  resetting : Option Nat

/-- The step commits a reset. -/
def Watched.resets (w : Watched) : Action → Bool
  | .advance p _ => match w.state.processes[p]? with
    | some (.committingChange _ _) => w.resetting = some p
    | _ => false
  | _ => false

/-- Only a login that commits has been accepted. -/
def Watched.see (w : Watched) (t : State) : Action → Watched
  | .begin _ => { w with state := t }
  | .advance p _ => match w.state.processes[p]? with
    | some (.committingLogin row _) => { w with state := t, accepted := w.accepted ++ [row.lastTotpStep] }
    | some (.flushing (.resetAdmin2fa _) _) => { w with state := t, resetting := some p }
    | some (.committingChange _ _) => if w.resetting = some p then ⟨t,[],none⟩ else { w with state := t }
    | _ => { w with state := t }
  | .abort p => { w with state := t, resetting := if w.resetting = some p then none else w.resetting }

def watch (verifiers : Verifiers) (w : Watched) (action : Action) : Option Watched :=
  (next verifiers w.state action).map fun t => w.see t action

def Unwatched (w : Watched) : Prop := Initial w.state ∧ w.accepted = [] ∧ w.resetting = none

/-- The time-steps accepted between two resets, each newer than the one before. -/
def Watched.StepsOnce (w : Watched) : Prop := w.accepted.Pairwise (· < ·)

end PlatformLogin
