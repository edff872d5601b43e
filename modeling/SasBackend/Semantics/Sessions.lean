import Mathlib.Data.List.Enum
import Mathlib.Data.List.MinMax
import SasBackend.Library.Transition
import SasBackend.Semantics.Enums

/-! The refresh tokens of one user, the user's row, and the requests that read and write them, statement by
statement (read committed). An UPDATE or DELETE of refresh tokens finds its rows in the table as committed when
it starts and locks them one by one; a row another request holds is waited for, and checked again once free.
What a request writes appears, and its locks go, when it commits. A jti is the position of its row.

Every step reads a clock of its own. Secrets stand for their hashes. A request refused over other rows, such as
the roles of who asks, ends as an aborted one. The counts of committed credential changes (`changes`, and the
`root` and `issued` of a token) and the `ended` families are not stored by the code.
-/
namespace Sessions
open SasBackend

structure Settings where
  refreshGrace : Nat
  refreshLifetime : Nat
  purgeGrace : Nat
  maxLoginAttempts : Nat
  lockout : Nat
  businessActive : Bool

structure User where
  tokenVersion : Nat
  status : UserStatus
  deleted : Bool
  isLocked : Bool
  failedLoginAttempts : Nat
  lockedUntil : Option Nat
  passwordHash : Option Nat
  pinHash : Option Nat
  deriving DecidableEq

/-- `root` counts the changes committed when the credentials of the token's login were read. -/
structure RefreshToken where
  familyId : Option Nat
  createdAt : Nat
  expiresAt : Nat
  revokedAt : Option Nat
  purged : Bool
  root : Nat
  deriving DecidableEq

def RefreshToken.standing (token : RefreshToken) : Bool := token.revokedAt.isNone && !token.purged

def RefreshToken.live (token : RefreshToken) (now : Nat) : Bool := token.standing && now < token.expiresAt

/-- A row as a request has read it, with its jti. -/
abbrev Stored := RefreshToken × Nat

/-- `issued` counts the changes committed when the token was handed out. -/
structure AccessToken where
  tv : Nat
  root : Nat
  issued : Nat
  deriving DecidableEq

inductive Request
  | loginWithPassword (password : Nat)
  | loginWithPin (pinCode : Nat)
  | refreshTokens (jti : Nat)
  | logout (jti : Nat)
  /-- `current` is the proof a self-service change brings; an owner brings none. -/
  | setUserPin (pinCode : Nat) (current : Option (Option Nat × Option Nat))
  | changeOwnPassword (tv currentPassword newPassword : Nat)
  | resetUserPassword (newPassword : Nat)
  | updateTenantUser (isActive : Option Bool)
  | softDeleteTenantUser
  deriving DecidableEq

/-- The columns of the user row a request changes. -/
structure Patch where
  tokenVersion : Option Nat
  status : Option UserStatus
  deleted : Bool
  isLocked : Option Bool
  failedLoginAttempts : Option Nat
  lockedUntil : Option (Option Nat)
  passwordHash : Option Nat
  pinHash : Option Nat
  deriving DecidableEq

def Patch.empty : Patch := ⟨none,none,false,none,none,none,none,none⟩

def Patch.apply (patch : Patch) (user : User) : User where
  tokenVersion := patch.tokenVersion.getD user.tokenVersion
  status := patch.status.getD user.status
  deleted := user.deleted || patch.deleted
  isLocked := patch.isLocked.getD user.isLocked
  failedLoginAttempts := patch.failedLoginAttempts.getD user.failedLoginAttempts
  lockedUntil := patch.lockedUntil.getD user.lockedUntil
  passwordHash := patch.passwordHash.or user.passwordHash
  pinHash := patch.pinHash.or user.pinHash

/-- Only columns whose value changes are written. -/
def unlock (user : User) : Patch :=
  { Patch.empty with
    isLocked := if user.isLocked then some false else none
    failedLoginAttempts := if user.failedLoginAttempts = 0 then none else some 0
    lockedUntil := user.lockedUntil.map fun _ => none }

def bump (user : User) (patch : Patch) : Patch := { patch with tokenVersion := some (user.tokenVersion + 1) }

/-- What a request does with refresh tokens, and commits. -/
inductive Work
  | consume (old : Stored)
  | rotation (old : Stored) (user : User) (issuedAt : Nat)
  | revokeFamily (familyId : Option Nat) (jti : Nat)
  | login (user : User) (root : Nat)
  | change (user : User) (patch : Patch)
  | update (patch : Patch)
  deriving DecidableEq

inductive Write
  | revoke (now : Nat)
  | purge
  deriving DecidableEq

inductive Phase
  | starting (request : Request)
  | failing
  /-- Before its UPDATE of the user row. -/
  | flushing (work : Work)
  /-- Before its UPDATE or DELETE of refresh tokens. -/
  | bulk (work : Work)
  | locking (work : Work) (now : Nat) (todo : List Nat)
  | rereading (old : Stored)
  | replaying (old : Stored)
  | loadingUser (old successor : Stored)
  | selectingUser (old : Stored)
  | committing (work : Work)
  | answered (pair : Option (AccessToken × Nat))
  deriving DecidableEq

structure Process where
  phase : Phase
  writes : List (Nat × Write)
  holdsUser : Bool
  deriving DecidableEq

/-- `families` are the family ids drawn so far; `ended` are the families whose revocation has committed. -/
structure State where
  user : User
  tokens : List RefreshToken
  processes : List Process
  families : Nat
  issued : List AccessToken
  changes : Nat
  ended : List Nat

inductive Action
  | begin (request : Request)
  | advance (p now : Nat)
  | abort (p : Nat)
  deriving DecidableEq

def State.set (s : State) (p : Nat) (process : Process) : State := { s with processes := s.processes.set p process }

/-- Every process but `p` passes the test. -/
def State.others (s : State) (p : Nat) (test : Process → Bool) : Bool :=
  s.processes.zipIdx.all fun entry => entry.2 = p || test entry.1

def Process.holds (process : Process) (jti : Nat) : Bool := process.writes.any (·.1 = jti)

/-- The row as others and the process itself see it: committed, and not deleted. -/
def State.row (s : State) (jti : Nat) : Option RefreshToken := s.tokens[jti]?.filter fun token => !token.purged

/-- The WHERE clause of the work's statement. -/
def Work.concerns (settings : Settings) (now : Nat) (work : Work) (token : Stored) : Bool :=
  !token.1.purged &&
    match work with
    | .consume old => token.2 = old.2 && token.1.revokedAt.isNone
    | .revokeFamily familyId jti =>
      token.1.revokedAt.isNone && (if familyId.isSome then token.1.familyId = familyId else token.2 = jti)
    | .login .. => token.1.expiresAt + settings.purgeGrace < now
    | .change .. => token.1.revokedAt.isNone
    | .rotation .. | .update .. => false

def Work.write (now : Nat) : Work → Write
  | .login .. => .purge
  | _ => .revoke now

def written (writes : List (Nat × Write)) (jti : Nat) (token : RefreshToken) : RefreshToken :=
  match writes.find? (·.1 = jti) with
  | some (_,.revoke now) => { token with revokedAt := some now }
  | some (_,.purge) => { token with purged := true }
  | none => token

def getFamilySuccessor (s : State) (token : Stored) : Option Stored :=
  if token.1.familyId.isNone then none
  else
    (s.tokens.zipIdx.filter fun row =>
      !row.1.purged && row.1.familyId = token.1.familyId && token.1.createdAt < row.1.createdAt).argmin
        fun row => row.1.createdAt

def ensureNotLocked (user : User) (now : Nat) : Bool := !user.isLocked || user.lockedUntil.all (· ≤ now)

def verifyCurrentSecret (user : User) : Option Nat × Option Nat → Bool
  | (currentPassword,currentPin) =>
    if currentPassword.isSome && user.passwordHash.isSome then user.passwordHash = currentPassword
    else currentPin.isSome && user.pinHash.isSome && user.pinHash = currentPin

def getCurrentUser (settings : Settings) (user : User) (tv : Nat) : Bool :=
  !user.deleted && user.status = .active && !user.isLocked && settings.businessActive && tv = user.tokenVersion

/-- The user may be handed a new pair of tokens. -/
def mayRefresh (user : User) : Bool := !user.deleted && user.status = .active && !user.isLocked

/-- The first checks of a replay. -/
def recentlyRotated (settings : Settings) (now : Nat) (old : RefreshToken) : Bool :=
  0 < settings.refreshGrace && old.revokedAt.any fun revoked => now ≤ revoked + settings.refreshGrace

def isRotationOf (settings : Settings) (now : Nat) (old successor : RefreshToken) : Bool :=
  successor.revokedAt.isNone && now < successor.expiresAt && old.revokedAt.any fun revoked =>
    successor.createdAt ≤ revoked + settings.refreshGrace && revoked ≤ successor.createdAt + settings.refreshGrace

def rejecting (old : Stored) : Phase := .bulk (.revokeFamily old.1.familyId old.2)

def startRefresh (settings : Settings) (s : State) (now jti : Nat) : Phase :=
  match s.row jti with
  | none => .answered none
  | some stored =>
    if stored.revokedAt.isSome then
      if recentlyRotated settings now stored then .replaying (stored,jti) else rejecting (stored,jti)
    else if stored.expiresAt ≤ now then .answered none
    else .bulk (.consume (stored,jti))

/-- The patch a change of the user writes, if the checks on the user allow it. -/
def changePatch (settings : Settings) (user : User) : Request → Option Patch
  | .setUserPin pinCode current =>
    if user.deleted then none
    else if current.all (verifyCurrentSecret user) then some (bump user { Patch.empty with pinHash := some pinCode })
    else none
  | .changeOwnPassword tv currentPassword newPassword =>
    if getCurrentUser settings user tv && user.passwordHash = some currentPassword && newPassword ≠ currentPassword then
      some (bump user { Patch.empty with passwordHash := some newPassword })
    else none
  | .resetUserPassword newPassword =>
    if user.deleted then none else some (bump user { unlock user with passwordHash := some newPassword })
  | .softDeleteTenantUser =>
    if user.deleted then none
    else some (bump user { Patch.empty with
      deleted := true, status := if user.status = .inactive then none else some .inactive })
  | _ => none

def startUpdate (user : User) (isActive : Option Bool) : Phase :=
  if user.deleted then .answered none
  else match isActive with
    | none => .flushing (.update Patch.empty)
    | some true =>
      .flushing (.update { Patch.empty with status := if user.status = .active then none else some .active })
    | some false =>
      let patch := { Patch.empty with status := if user.status = .inactive then none else some .inactive }
      if user.status = .active then .flushing (.change user (bump user patch)) else .flushing (.update patch)

def startLogin (s : State) (now : Nat) (hash : Option Nat) (secret : Nat) : Phase :=
  if s.user.deleted || hash.isNone || !ensureNotLocked s.user now then .answered none
  else if hash = some secret then .flushing (.login s.user s.changes)
  else .failing

def start (settings : Settings) (s : State) (now : Nat) : Request → Phase
  | .loginWithPassword password =>
    if settings.businessActive then startLogin s now s.user.passwordHash password else .answered none
  | .loginWithPin pinCode =>
    if settings.businessActive then startLogin s now s.user.pinHash pinCode else .answered none
  | .refreshTokens jti => startRefresh settings s now jti
  | .logout jti =>
    match s.row jti with
    | none => .answered none
    | some stored => rejecting (stored,jti)
  | .updateTenantUser isActive => startUpdate s.user isActive
  | request =>
    match changePatch settings s.user request with
    | none => .answered none
    | some patch => .flushing (.change s.user patch)

/-- A failed attempt, in a transaction of its own. -/
def recordFailedLogin (settings : Settings) (user : User) (now : Nat) : User :=
  let user := if user.isLocked && user.lockedUntil.any (· ≤ now) then
    { user with isLocked := false, failedLoginAttempts := 0, lockedUntil := none } else user
  let user := { user with failedLoginAttempts := user.failedLoginAttempts + 1 }
  if settings.maxLoginAttempts ≤ user.failedLoginAttempts then
    { user with isLocked := true, lockedUntil := some (now + settings.lockout) }
  else user

def targets (settings : Settings) (now : Nat) (s : State) (process : Process) (work : Work) : List Nat :=
  (s.tokens.zipIdx.filter fun token => work.concerns settings now token && !process.holds token.2).map Prod.snd

def newToken (settings : Settings) (familyId issuedAt root : Nat) : RefreshToken :=
  ⟨some familyId,issuedAt,issuedAt + settings.refreshLifetime,none,false,root⟩

/-- The end of the transaction of `p`, which answers the given pair. -/
def State.release (s : State) (p : Nat) (pair : Option (AccessToken × Nat)) : State :=
  s.set p ⟨.answered pair,[],false⟩

/-- Hand out a pair of tokens. -/
def State.issue (s : State) (p jti tv root : Nat) : State :=
  let access : AccessToken := ⟨tv,root,s.changes⟩
  { s with issued := s.issued ++ [access] }.release p (some (access,jti))

def commit (settings : Settings) (s : State) (p now : Nat) (process : Process) (work : Work) : Option State :=
  let tokens := s.tokens.mapIdx (written process.writes)
  match work with
  | .login user root =>
    some ({ s with
      user := (unlock user).apply s.user
      tokens := tokens ++ [newToken settings s.families now root]
      families := s.families + 1 }.issue p s.tokens.length user.tokenVersion root)
  | .rotation old user issuedAt =>
    some ({ s with
      tokens := tokens ++ [newToken settings (old.1.familyId.getD s.families) issuedAt old.1.root]
      families := s.families + 1 }.issue p s.tokens.length user.tokenVersion old.1.root)
  | .revokeFamily familyId _ =>
    some ({ s with tokens := tokens, ended := s.ended ++ familyId.toList }.release p none)
  | .change _ patch =>
    some ({ s with user := patch.apply s.user, tokens := tokens, changes := s.changes + 1 }.release p none)
  | .update patch => some ({ s with user := patch.apply s.user }.release p none)
  | .consume _ => none

/-- A login and a change go on to write refresh tokens. -/
def flushed (work : Work) : Phase :=
  match work with
  | .login .. | .change .. => .bulk work
  | _ => .committing work

/-- The next phase of a process, and what it locks. -/
def advance (settings : Settings) (s : State) (p now : Nat) (process : Process) : Option State :=
  let goto phase := s.set p { process with phase := phase }
  match process.phase with
  | .starting request => some (goto (start settings s now request))
  | .failing =>
    if s.others p (!·.holdsUser) then
      some ({ s with user := recordFailedLogin settings s.user now }.release p none)
    else none
  | .flushing work =>
    if s.others p (!·.holdsUser) then
      some (s.set p { process with phase := flushed work, holdsUser := true })
    else none
  | .bulk work => some (goto (.locking work now (targets settings now s process work)))
  | .locking work since (jti :: todo) =>
    if s.others p (!·.holds jti) then
      if s.tokens[jti]?.any fun token => work.concerns settings since (token,jti) then
        some (s.set p { process with
          phase := .locking work since todo, writes := process.writes ++ [(jti,work.write since)] })
      else some (goto (.locking work since todo))
    else none
  | .locking (.consume old) _ [] =>
    some (goto (if process.holds old.2 then .selectingUser old else .rereading old))
  | .locking work _ [] => some (goto (.committing work))
  | .rereading old =>
    some (goto (match s.row old.2 with
      | some fresh => if recentlyRotated settings now fresh then .replaying (fresh,old.2) else rejecting old
      | none => rejecting old))
  | .replaying old =>
    some (goto (match getFamilySuccessor s old with
      | some successor => if isRotationOf settings now old.1 successor.1 then .loadingUser old successor else rejecting old
      | none => rejecting old))
  | .loadingUser old successor =>
    if mayRefresh s.user then some (s.issue p successor.2 s.user.tokenVersion old.1.root)
    else some (goto (rejecting old))
  | .selectingUser old =>
    some (goto (if mayRefresh s.user && settings.businessActive then .committing (.rotation old s.user now)
      else rejecting old))
  | .committing work => commit settings s p now process work
  | .answered _ => none

def next (settings : Settings) (s : State) : Action → Option State
  | .begin request => some { s with processes := s.processes ++ [⟨.starting request,[],false⟩] }
  | .advance p now => s.processes[p]?.bind (advance settings s p now)
  | .abort p => some (s.release p none)

/-- No request is in flight, and the only tokens are those issued before there were families. -/
structure Initial (s : State) : Prop where
  idle : s.processes = []
  legacy : ∀ token ∈ s.tokens, token.familyId = none ∧ token.root = 0
  issued : s.issued = []
  changes : s.changes = 0
  ended : s.ended = []

def SingleLive (s : State) : Prop :=
  ∀ (now familyId i j : Nat) (a b : RefreshToken), s.tokens[i]? = some a → s.tokens[j]? = some b →
    a.familyId = some familyId → b.familyId = some familyId → a.live now = true → b.live now = true → i = j

def EndedDead (s : State) : Prop :=
  ∀ familyId ∈ s.ended, ∀ token ∈ s.tokens, token.familyId = some familyId → ∀ now, token.live now = false

/-- The token the process has consumed and not yet replaced. -/
def Process.consumed (process : Process) : Option Stored :=
  match process.phase with
  | .locking (.consume old) _ _ => if process.holds old.2 then some old else none
  | .selectingUser old | .committing (.rotation old _ _) => some old
  | _ => none

/-- The UPDATE that revokes a family runs while no rotation of the family is between its consume and its
commit. -/
def familyApart (s : State) : Action → Bool
  | .advance p _ =>
    match (s.processes[p]?).map Process.phase with
    | some (.bulk (.revokeFamily (some familyId) _)) =>
      s.others p fun process => !process.consumed.any fun old => old.1.familyId = some familyId
    | some (.locking (.consume old) _ (_ :: _)) =>
      s.others p fun process =>
        match process.phase with
        | .locking (.revokeFamily familyId _) _ _ => familyId.isNone || familyId ≠ old.1.familyId
        | _ => true
    | _ => true
  | _ => true

/-- What a token was issued for precedes no committed change: neither an access token the dependency accepts,
nor a standing refresh token, nor one that was accepted. -/
structure CutOff (settings : Settings) (s : State) : Prop where
  access : ∀ a ∈ s.issued, getCurrentUser settings s.user a.tv = true → a.root = s.changes ∧ a.issued = s.changes
  refresh : ∀ token ∈ s.tokens, token.standing = true → token.root = s.changes
  accepted : ∀ a ∈ s.issued, a.root = a.issued

/-- A change revokes while no rotation is between its consume and its commit, and commits while the
version it read is current, no login stands between its reads and its write of the user, and no replay between
its reads. -/
def changeApart (s : State) : Action → Bool
  | .advance p _ =>
    match (s.processes[p]?).map Process.phase with
    | some (.bulk (.change ..)) => s.others p fun process => process.consumed.isNone
    | some (.locking (.consume _) _ (_ :: _)) =>
      s.others p fun process =>
        match process.phase with
        | .locking (.change ..) _ _ => false
        | _ => true
    | some (.committing (.change user _)) =>
      user.tokenVersion = s.user.tokenVersion && s.others p fun process =>
        match process.phase with
        | .flushing (.login ..) | .loadingUser .. => false
        | _ => true
    | _ => true
  | _ => true

end Sessions
