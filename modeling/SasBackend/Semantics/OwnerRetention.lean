import Mathlib.Data.List.Enum
import SasBackend.Library.Transition
import SasBackend.Semantics.Enums

/-! The users of the businesses, their role assignments and the services that manage them, statement by
statement. A row's id is its position in its table: rows are never removed, only marked deleted. A session
reads committed rows, keeps the version of a row it loaded first, and its writes appear when it commits.
-/
namespace OwnerRetention
open SasBackend

structure Role where
  businessId : Nat
  name : String
  deleted : Bool
  deriving DecidableEq

structure Branch where
  businessId : Nat
  deleted : Bool
  deriving DecidableEq

structure User where
  businessId : Nat
  defaultBranchId : Option Nat
  fullName : String
  phone : String
  status : UserStatus
  deleted : Bool
  deriving DecidableEq

structure UserRole where
  userId : Nat
  roleId : Nat
  branchId : Option Nat
  deleted : Bool
  deriving DecidableEq

structure Database where
  roles : List Role
  branches : List Branch
  users : List User
  userRoles : List UserRole
  deriving DecidableEq

/-- An assignment with its id. -/
abbrev Assignment := UserRole × Nat

/-- Names are compared without regard to case. -/
def Role.isOwner (role : Role) : Bool := !role.deleted && role.name.toLower = "owner"

def Database.rolesOf (db : Database) (userId : Nat) : List Assignment :=
  db.userRoles.zipIdx.filter (·.1.userId = userId)

def isOwner (db : Database) (userRoles : List Assignment) : Bool :=
  userRoles.any fun userRole => !userRole.1.deleted && db.roles[userRole.1.roleId]?.any Role.isOwner

def assertBranchInBusiness (db : Database) (branchId businessId : Nat) : Bool :=
  db.branches[branchId]?.any fun branch => branch.businessId = businessId && !branch.deleted

def resolveBusinessRoles (db : Database) (businessId : Nat) (roleIds : List Nat) : Option (List Nat) :=
  let uniqueIds := roleIds.eraseDups
  if uniqueIds.all fun id => db.roles[id]?.any fun role => role.businessId = businessId && !role.deleted then
    some uniqueIds
  else none

def namesOwner (db : Database) (roleIds : List Nat) : Bool := roleIds.any fun id => db.roles[id]?.any Role.isOwner

inductive Refusal
  | userNotFound | accessDenied | branchNotFound | rolesNotFound | lastOwnerRole | ownAccount | lastOwner
  | phoneConflict | integrityError
  deriving DecidableEq

def Refusal.statusCode : Refusal → Nat
  | .userNotFound => 404
  | .accessDenied => 403
  | .branchNotFound | .rolesNotFound | .lastOwnerRole | .ownAccount | .lastOwner => 400
  | .phoneConflict => 409
  | .integrityError => 500

def Refusal.detail : Refusal → String
  | .userNotFound => "User not found"
  | .accessDenied => "Access denied"
  | .branchNotFound => "Branch not found in this business"
  | .rolesNotFound => "One or more roles not found for this business"
  | .lastOwnerRole => "Cannot remove the owner role from the last owner of the business"
  | .ownAccount => "Cannot delete your own account"
  | .lastOwner => "Cannot delete the last owner of the business"
  | .phoneConflict => "Phone number already registered"
  | .integrityError => "Internal Server Error"

inductive Change
  | replaceUserRoles (roleIds : List Nat)
  | updateTenantUser (fullName : Option String) (branchId : Option Nat) (isActive : Option Bool)
  | softDeleteTenantUser
  deriving DecidableEq

structure CreateUserRequest where
  businessId : Nat
  fullName : String
  phone : String
  branchId : Option Nat
  roleIds : List Nat
  deriving DecidableEq

inductive Request
  | createTenantUser (data : CreateUserRequest)
  | manage (userId businessId : Nat) (change : Change)
  deriving DecidableEq

/-- The acting user, whose assignments the session loaded when the request was authenticated. -/
structure Session where
  actor : Nat
  actorRoles : List Assignment
  deriving DecidableEq

/-- The managed user as `get_user_by_id` loads it. -/
structure Loaded where
  id : Nat
  user : User
  userRoles : List Assignment
  deriving DecidableEq

/-- The columns of the user row an update changes. -/
structure UserChanges where
  fullName : Option String
  defaultBranchId : Option Nat
  status : Option UserStatus
  deriving DecidableEq

/-- The assignments an update of the branch has matched. -/
structure Moved where
  userRoles : List Nat
  branchId : Option Nat
  deriving DecidableEq

/-- What waits for the check of the last owner. -/
inductive Removal
  | roles (roleIds : List Nat)
  | deletion
  deriving DecidableEq

inductive Phase
  | starting (session : Session) (request : Request)
  | loadingRoles (session : Session) (change : Change) (id : Nat) (user : User)
  | listing (session : Session) (removal : Removal) (target : Loaded)
  | counting (session : Session) (removal : Removal) (target : Loaded) (listed : List Nat)
  | assigning (target : Loaded) (roleIds : List Nat)
  | replacing (target : Loaded) (roleIds : List Nat) (assignments : List Assignment)
  | moving (target : Loaded) (changes : UserChanges) (branchId : Nat)
  | updating (target : Loaded) (changes : UserChanges) (moved : Moved)
  | deleting (target : Loaded)
  | creating (data : CreateUserRequest)
  | answered (result : Except Refusal Unit)

structure State where
  db : Database
  processes : List Phase

inductive Action
  | begin (actor : Nat) (request : Request)
  | advance (process : Nat)
  | abort (process : Nat)
  deriving DecidableEq

def State.goto (s : State) (p : Nat) (phase : Phase) : State := { s with processes := s.processes.set p phase }

def State.refuse (s : State) (p : Nat) (refusal : Refusal) : State := s.goto p (.answered (.error refusal))

/-- `uq_user_roles`; rows without a branch never clash. -/
def Clash (a b : UserRole) : Prop :=
  a.userId = b.userId ∧ a.roleId = b.roleId ∧ a.branchId = b.branchId ∧ a.branchId ≠ none

instance : DecidableRel Clash := fun _ _ => inferInstanceAs (Decidable (_ ∧ _))

def State.commit (s : State) (p : Nat) (db : Database) : State :=
  if db.userRoles.Pairwise (¬ Clash · ·) then { s with db := db }.goto p (.answered (.ok ()))
  else s.refuse p .integrityError

/-- The rows a session sees when it counts owners: those it already holds are not read again. -/
def Session.rolesOf (session : Session) (target : Loaded) (db : Database) (userId : Nat) : List Assignment :=
  if userId = target.id then target.userRoles
  else if userId = session.actor then session.actorRoles
  else db.rolesOf userId

def usersOf (db : Database) (businessId : Nat) : List Nat :=
  (db.users.zipIdx.filter fun user => user.1.businessId = businessId && !user.1.deleted).map Prod.snd

def countActiveOwners (db : Database) (session : Session) (target : Loaded) (listed : List Nat) : Nat :=
  listed.countP fun userId => isOwner db (session.rolesOf target db userId)

def Removal.refusal : Removal → Refusal
  | .roles _ => .lastOwnerRole
  | .deletion => .lastOwner

def Removal.admitted (target : Loaded) : Removal → Phase
  | .roles roleIds => .assigning target roleIds
  | .deletion => .deleting target

def changed {α : Type} [DecidableEq α] (old : α) (new : Option α) : Option α := new.filter (· ≠ old)

def userChanges (user : User) (fullName : Option String) (branchId : Option Nat) (isActive : Option Bool) :
    UserChanges where
  fullName := changed user.fullName fullName
  defaultBranchId := branchId.filter (some · ≠ user.defaultBranchId)
  status := changed user.status (isActive.map fun active => if active then .active else .inactive)

def UserChanges.apply (changes : UserChanges) (user : User) : User :=
  { user with
    fullName := changes.fullName.getD user.fullName
    defaultBranchId := changes.defaultBranchId.or user.defaultBranchId
    status := changes.status.getD user.status }

def User.softDelete (user : User) : User := { user with deleted := true, status := .inactive }

/-- `_load_user_role_assignments` in a session that holds the target's rows. -/
def loadUserRoleAssignments (db : Database) (target : Loaded) : List Assignment :=
  (db.rolesOf target.id).map fun row => (target.userRoles.find? (·.2 = row.2)).getD row

def retired (roleIds : List Nat) (assignments : List Assignment) : List Nat :=
  (assignments.filter fun a => !a.1.deleted && !roleIds.contains a.1.roleId).map Prod.snd

def isActiveIn (assignments : List Assignment) (roleId : Nat) : Bool :=
  assignments.any fun a => a.1.roleId = roleId && !a.1.deleted

def reactivate (assignments : List Assignment) (branchId : Option Nat) (roleId : Nat) : Option Nat :=
  if isActiveIn assignments roleId then none
  else (assignments.find? fun a => a.1.roleId = roleId && a.1.deleted && a.1.branchId = branchId).map Prod.snd

def needsRow (assignments : List Assignment) (branchId : Option Nat) (roleId : Nat) : Bool :=
  !isActiveIn assignments roleId && (reactivate assignments branchId roleId).isNone

def rewrite (gone back : List Nat) (id : Nat) (row : UserRole) : UserRole :=
  { row with deleted := gone.contains id || row.deleted && !back.contains id }

def replaceUserRoles (db : Database) (target : Loaded) (roleIds : List Nat) (assignments : List Assignment) :
    Database :=
  let branchId := target.user.defaultBranchId
  let gone := retired roleIds assignments
  let back := roleIds.filterMap (reactivate assignments branchId)
  let added := roleIds.filter (needsRow assignments branchId)
  { db with
    userRoles := db.userRoles.mapIdx (rewrite gone back) ++
      added.map fun roleId => ⟨target.id,roleId,branchId,false⟩ }

/-- The live branch-scoped assignments that follow the user to the new branch. -/
def movedAssignments (db : Database) (userId : Nat) : List Nat :=
  ((db.rolesOf userId).filter fun a => !a.1.deleted && a.1.branchId.isSome).map Prod.snd

def updateTenantUser (db : Database) (target : Loaded) (changes : UserChanges) (moved : Moved) : Database :=
  { db with
    users := db.users.modify target.id changes.apply
    userRoles := db.userRoles.mapIdx fun id row =>
      if moved.userRoles.contains id then { row with branchId := moved.branchId } else row }

def softDeleteTenantUser (db : Database) (target : Loaded) : Database :=
  { db with users := db.users.modify target.id User.softDelete }

/-- `uq_users_phone_active` and `uq_users_business_phone`. -/
def phoneTaken (db : Database) (data : CreateUserRequest) : Bool :=
  db.users.any fun user => user.phone = data.phone && (!user.deleted || user.businessId = data.businessId)

def createTenantUser (db : Database) (data : CreateUserRequest) : Database :=
  let roles := db.roles.zipIdx.filter fun role =>
    role.1.businessId = data.businessId && data.roleIds.contains role.2 && !role.1.deleted
  { db with
    users := db.users ++ [⟨data.businessId,data.branchId,data.fullName,data.phone,.active,false⟩]
    userRoles := db.userRoles ++ roles.map fun role => ⟨db.users.length,role.2,data.branchId,false⟩ }

def getUserById (db : Database) (userId businessId : Nat) : Except Refusal User :=
  match db.users[userId]? with
  | none => .error .userNotFound
  | some user =>
    if user.deleted then .error .userNotFound
    else if user.businessId = businessId then .ok user
    else .error .accessDenied

def start (s : State) (p : Nat) (session : Session) : Request → State
  | .createTenantUser data =>
    if s.db.users.any fun user => user.phone = data.phone && !user.deleted then s.refuse p .phoneConflict
    else if data.branchId.all (assertBranchInBusiness s.db · data.businessId) then s.goto p (.creating data)
    else s.refuse p .branchNotFound
  | .manage userId businessId change =>
    if change = .softDeleteTenantUser ∧ userId = session.actor then s.refuse p .ownAccount
    else match getUserById s.db userId businessId with
      | .error refusal => s.refuse p refusal
      | .ok user => s.goto p (.loadingRoles session change userId user)

def manage (s : State) (p : Nat) (session : Session) (target : Loaded) : Change → State
  | .replaceUserRoles roleIds =>
    match resolveBusinessRoles s.db target.user.businessId roleIds with
    | none => s.refuse p .rolesNotFound
    | some roles =>
      if isOwner s.db target.userRoles && !namesOwner s.db roles then
        s.goto p (.listing session (.roles roles) target)
      else s.goto p (.assigning target roles)
  | .updateTenantUser fullName branchId isActive =>
    let changes := userChanges target.user fullName branchId isActive
    match branchId with
    | none => s.goto p (.updating target changes ⟨[],none⟩)
    | some branchId =>
      if assertBranchInBusiness s.db branchId target.user.businessId then
        s.goto p (.moving target changes branchId)
      else s.refuse p .branchNotFound
  | .softDeleteTenantUser =>
    if isOwner s.db target.userRoles then s.goto p (.listing session .deletion target)
    else s.goto p (.deleting target)

/-- One statement of a process. -/
def advance (s : State) (p : Nat) : Phase → Option State
  | .starting session request => some (start s p session request)
  | .loadingRoles session change id user => some (manage s p session ⟨id,user,s.db.rolesOf id⟩ change)
  | .listing session removal target =>
    some (s.goto p (.counting session removal target (usersOf s.db target.user.businessId)))
  | .counting session removal target listed =>
    if countActiveOwners s.db session target listed ≤ 1 then some (s.refuse p removal.refusal)
    else some (s.goto p (removal.admitted target))
  | .assigning target roleIds => some (s.goto p (.replacing target roleIds (loadUserRoleAssignments s.db target)))
  | .replacing target roleIds assignments => some (s.commit p (replaceUserRoles s.db target roleIds assignments))
  | .moving target changes branchId =>
    some (s.goto p (.updating target changes ⟨movedAssignments s.db target.id,some branchId⟩))
  | .updating target changes moved => some (s.commit p (updateTenantUser s.db target changes moved))
  | .deleting target => some (s.commit p (softDeleteTenantUser s.db target))
  | .creating data =>
    if phoneTaken s.db data then some (s.refuse p .phoneConflict)
    else some (s.commit p (createTenantUser s.db data))
  | .answered _ => none

def next (s : State) : Action → Option State
  | .begin actor request =>
    some { s with processes := s.processes ++ [.starting ⟨actor,s.db.rolesOf actor⟩ request] }
  | .advance p => s.processes[p]?.bind (advance s p)
  | .abort p => some (s.refuse p .integrityError)

def standardRoles (businessId : Nat) : List Role :=
  ["owner","manager","cashier"].map fun name => ⟨businessId,name,false⟩

/-- What registration commits for a new business. -/
def register (db : Database) (businessId : Nat) (ownerName ownerPhone : String) : Database where
  roles := db.roles ++ standardRoles businessId
  branches := db.branches ++ [⟨businessId,false⟩]
  users := db.users ++ [⟨businessId,some db.branches.length,ownerName,ownerPhone,.active,false⟩]
  userRoles := db.userRoles ++ [⟨db.users.length,db.roles.length,none,false⟩]

/-- A business has just been registered beside any others. -/
def Initial (businessId : Nat) (s : State) : Prop :=
  ∃ db ownerName ownerPhone, (∀ role ∈ db.roles, role.businessId ≠ businessId) ∧
    s = ⟨register db businessId ownerName ownerPhone,[]⟩

/-- The user is not deleted, has status active and holds the live owner role of the business. -/
def Database.activeOwner (db : Database) (businessId userId : Nat) : Bool :=
  db.users[userId]?.any (fun user => user.businessId = businessId && !user.deleted && user.status = .active) &&
    (db.rolesOf userId).any fun userRole => !userRole.1.deleted &&
      db.roles[userRole.1.roleId]?.any fun role => role.isOwner && role.businessId = businessId

def OwnerRemains (businessId : Nat) (s : State) : Prop := ∃ userId, s.db.activeOwner businessId userId

def givesOwner (roles : List Role) (businessId : Nat) (roleIds : List Nat) : Bool :=
  roleIds.any fun id => roles[id]?.any fun role => role.isOwner && role.businessId = businessId

/-- The process is past its check, if it has one, and is about to take from the user its status, its
existence or the owner role of the business. -/
def Phase.removes (roles : List Role) (businessId userId : Nat) : Phase → Bool
  | .loadingRoles _ (.updateTenantUser _ _ (some false)) id user => id = userId && user.status ≠ .inactive
  | .assigning target roleIds | .replacing target roleIds _ =>
    target.id = userId && !givesOwner roles businessId roleIds
  | .moving target changes _ | .updating target changes _ =>
    target.id = userId && changes.status.any (· ≠ .active)
  | .deleting target => target.id = userId
  | _ => false

/-- Another active owner of the business stands whom no removal in flight concerns. -/
def State.spares (s : State) (businessId userId : Nat) : Bool :=
  (List.range s.db.users.length).any fun other => other ≠ userId && s.db.activeOwner businessId other &&
    s.processes.all fun phase => !phase.removes s.db.roles businessId other

/-- A deactivation of a user not yet inactive, and a removal the check of the last owner lets through, happen only
while another owner is spared. -/
def spared (businessId : Nat) (s : State) : Action → Bool
  | .advance p =>
    match s.processes[p]? with
    | some (.starting _ (.manage userId _ (.updateTenantUser _ _ (some false)))) =>
      s.spares businessId userId || !s.db.users[userId]?.any fun user =>
        user.businessId = businessId && !user.deleted && user.status ≠ .inactive
    | some (.counting session _ target listed) =>
      s.spares businessId target.id || target.user.businessId ≠ businessId ||
        countActiveOwners s.db session target listed ≤ 1
    | _ => true
  | _ => true

end OwnerRetention
