import SasBackend.Library.Transition

/-! The permission cache of one process: requests that look up and load a user's permission keys, and changes of roles and
assignments that commit and then invalidate the cache, interleaved at every await. Each statement of a load sees what has
committed before it. Checks of token, user and business may end a request wherever it stands (`abort`).
-/
namespace PermissionCache

structure User where
  id : Nat
  businessId : Nat
  deriving DecidableEq

structure UserRole where
  userId : Nat
  roleId : Nat
  businessId : Nat
  deleted : Bool
  deriving DecidableEq

structure Role where
  id : Nat
  businessId : Nat
  deleted : Bool
  deriving DecidableEq

structure RolePermission where
  roleId : Nat
  businessId : Nat
  permissionId : Nat
  deriving DecidableEq

structure Permission where
  id : Nat
  permissionKey : String
  deriving DecidableEq

structure Database where
  users : List User
  userRoles : List UserRole
  roles : List Role
  rolePermissions : List RolePermission
  permissions : List Permission

/-- What the statements of a load have read so far. -/
inductive Load
  | start
  | user (user : User)
  | userRoles (user : User) (userRoles : List UserRole)
  | roles (user : User) (userRoles : List UserRole) (roles : List Role)
  | rolePermissions (user : User) (userRoles : List UserRole) (roles : List Role) (rolePermissions : List RolePermission)
  | permissions (user : User) (userRoles : List UserRole) (roles : List Role) (rolePermissions : List RolePermission)
    (permissions : List Permission)
  deriving DecidableEq

/-- The keys of the roles the user has in the business, live ones only. -/
def computePermissionKeys (user : User) (userRoles : List UserRole) (roles : List Role)
    (rolePermissions : List RolePermission) (permissions : List Permission) : List String :=
  (userRoles.filter fun userRole => !userRole.deleted && userRole.businessId = user.businessId).flatMap fun userRole =>
    (roles.filter fun role => role.id = userRole.roleId && !role.deleted && role.businessId = user.businessId).flatMap fun role =>
      (rolePermissions.filter fun granted => granted.roleId = role.id && granted.businessId = user.businessId).flatMap fun granted =>
        (permissions.filter fun permission => permission.id = granted.permissionId).map Permission.permissionKey

def ttlSeconds : Nat := 15

def maxEntries : Nat := 5000

/-- Keys with the number of changes that had committed when their first row was read, which the code does not keep. -/
structure Loaded where
  keys : List String
  since : Nat
  deriving DecidableEq

structure Entry where
  userId : Nat
  roleVersion : Nat
  expiresAt : Nat
  loaded : Loaded
  deriving DecidableEq

/-- `invalidated`: the changes whose `invalidate_all` had returned when the request started. -/
structure Check where
  userId : Nat
  loaded : Loaded
  invalidated : List Nat
  deriving DecidableEq

/-- A change is told by how many had committed with it. -/
inductive Process
  | request (userId : Nat) (cached : Option Loaded) (invalidated : List Nat) (since : Nat) (load : Load)
  | committed (change : Nat)
  | ended
  deriving DecidableEq

/-- The code does not store `commits`, `invalidated` and `checked`, the requests that got past with what they are checked
against. -/
structure State where
  database : Database
  now : Nat
  roleVersion : Nat
  store : List Entry
  processes : List Process
  commits : Nat
  invalidated : List Nat
  checked : List Check

inductive Action
  | start (userId : Nat)
  | advance (p : Nat)
  | abort (p : Nat)
  | commit (change : Database → Database)
  | wait (duration : Nat)

def State.entry (s : State) (userId : Nat) : Option Entry :=
  s.store.find? fun entry => entry.userId = userId && entry.roleVersion = s.roleVersion

/-- An entry past its time is removed. -/
def get (s : State) (userId : Nat) : State × Option Loaded :=
  match s.entry userId with
  | none => (s,none)
  | some entry =>
    if entry.expiresAt < s.now then
      ({ s with store := s.store.filter fun other => !(other.userId = userId && other.roleVersion = s.roleVersion) },none)
    else (s,some entry.loaded)

/-- The entry gets the version of the moment it is put. -/
def put (s : State) (userId : Nat) (loaded : Loaded) : State :=
  let store := if maxEntries ≤ s.store.length then [] else s.store
  { s with
    store := ⟨userId,s.roleVersion,s.now + ttlSeconds,loaded⟩ ::
      store.filter fun other => !(other.userId = userId && other.roleVersion = s.roleVersion) }

def invalidateAll (s : State) : State := { s with roleVersion := s.roleVersion + 1, store := [] }

def State.goto (s : State) (p : Nat) (process : Process) : State := { s with processes := s.processes.set p process }

/-- The request is let past and checked against the keys. -/
def State.pass (s : State) (p : Nat) (check : Check) : State := { s with checked := s.checked ++ [check] }.goto p .ended

/-- The next statement or await of a request; a cached request skips the permissions of its roles. -/
def advanceRequest (s : State) (p userId : Nat) (cached : Option Loaded) (invalidated : List Nat) (since : Nat) :
    Load → State
  | .start =>
    match s.database.users.find? (·.id = userId) with
    | none => s.goto p .ended
    | some user => s.goto p (.request userId cached invalidated since (.user user))
  | .user user =>
    s.goto p (.request userId cached invalidated s.commits
      (.userRoles user (s.database.userRoles.filter (·.userId = userId))))
  | .userRoles user userRoles =>
    s.goto p (.request userId cached invalidated since
      (.roles user userRoles (s.database.roles.filter fun role => userRoles.any (·.roleId = role.id))))
  | .roles user userRoles roles =>
    match cached with
    | some loaded => s.pass p ⟨userId,loaded,invalidated⟩
    | none =>
      s.goto p (.request userId none invalidated since
        (.rolePermissions user userRoles roles
          (s.database.rolePermissions.filter fun granted => roles.any (·.id = granted.roleId))))
  | .rolePermissions user userRoles roles rolePermissions =>
    s.goto p (.request userId cached invalidated since
      (.permissions user userRoles roles rolePermissions
        (s.database.permissions.filter fun permission => rolePermissions.any (·.permissionId = permission.id))))
  | .permissions user userRoles roles rolePermissions permissions =>
    let loaded : Loaded := ⟨computePermissionKeys user userRoles roles rolePermissions permissions,since⟩
    (put s userId loaded).pass p ⟨userId,loaded,invalidated⟩

def next (s : State) : Action → Option State
  | .start userId =>
    let (s,cached) := get s userId
    some { s with processes := s.processes ++ [.request userId cached s.invalidated 0 .start] }
  | .advance p =>
    match s.processes[p]? with
    | some (.request userId cached invalidated since load) => some (advanceRequest s p userId cached invalidated since load)
    | some (.committed change) =>
      some { (invalidateAll s).goto p .ended with invalidated := change :: s.invalidated }
    | _ => none
  | .abort p =>
    match s.processes[p]? with
    | some (.request ..) => some (s.goto p .ended)
    | _ => none
  | .commit change =>
    some
      { s with
        database := change s.database
        commits := s.commits + 1
        processes := s.processes ++ [.committed (s.commits + 1)] }
  | .wait duration => some { s with now := s.now + duration }

/-- An empty cache and no one at work. -/
def Initial (s : State) : Prop :=
  s.store = [] ∧ s.processes = [] ∧ s.commits = 0 ∧ s.invalidated = [] ∧ s.checked = []

/-- No request is checked against keys read before a change committed whose invalidation it started after. -/
def Fresh (s : State) : Prop := ∀ check ∈ s.checked, ∀ change ∈ check.invalidated, change ≤ check.loaded.since

/-- Nothing is put into the cache that was read before a change committed whose `invalidate_all` has run since. -/
def timely (s : State) : Action → Bool
  | .advance p =>
    match s.processes[p]? with
    | some (.request _ _ _ since (.permissions ..)) => s.invalidated.all (· ≤ since)
    | _ => true
  | _ => true

end PermissionCache
