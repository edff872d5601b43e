import SasBackend.Semantics.BranchScope

/-! The permission check and the branch check of a request, over the role assignments loaded with the user.
Ids are numbers; a permission is its key. The keys are those `get_current_user` computes when its cache misses.
-/
namespace Permissions

structure RolePermission where
  businessId : Nat
  permission : Option String
  deriving DecidableEq

structure Role where
  businessId : Nat
  name : String
  deleted : Bool
  rolePermissions : List RolePermission
  deriving DecidableEq

structure UserRole where
  businessId : Nat
  branchId : Option Nat
  role : Option Role
  deleted : Bool
  deriving DecidableEq

structure User where
  id : Nat
  businessId : Nat
  defaultBranchId : Option Nat
  userRoles : List UserRole
  deriving DecidableEq

inductive HTTPException
  | forbidden (detail : String)
  | badRequest (detail : String)
  deriving DecidableEq

/-- The keys one assignment adds. -/
def UserRole.permissionKeys (businessId : Nat) (userRole : UserRole) : List String :=
  match userRole.role with
  | none => []
  | some role =>
    if userRole.deleted || userRole.businessId ≠ businessId || role.deleted || role.businessId ≠ businessId then []
    else role.rolePermissions.filterMap fun rolePerm =>
      if rolePerm.businessId ≠ businessId then none else rolePerm.permission

def computePermissionKeys (user : User) : List String :=
  user.userRoles.flatMap (UserRole.permissionKeys user.businessId)

def requirePermission (permissionKey : String) (user : User) : Except HTTPException User :=
  if (computePermissionKeys user).contains permissionKey then .ok user
  else .error (.forbidden ("Permission required: " ++ permissionKey))

/-- What the branch check reads of an assignment. -/
def UserRole.scope (userRole : UserRole) : BranchScope.UserRole :=
  ⟨userRole.businessId,userRole.branchId,userRole.role.map fun role => ⟨role.name,role.deleted⟩,userRole.deleted⟩

def User.staff (user : User) : BranchScope.User :=
  ⟨user.id,user.businessId,user.defaultBranchId,user.userRoles.map UserRole.scope⟩

def allowedBranchIds (user : User) : Option (List Nat) := BranchScope.allowedBranchIds user.staff

def foreignBranch : String := "You do not have access to this branch"

def assertBranchAccess (user : User) : Option Nat → Except HTTPException Unit
  | none => .ok ()
  | some branchId =>
    if BranchScope.assertBranchAccess (allowedBranchIds user) branchId then .ok () else .error (.forbidden foreignBranch)

/-- Validate the branch; pin a restricted user who sent none to their branch. -/
def effectiveBranch (user : User) (branchId : Option Nat) : Except HTTPException (Option Nat) :=
  match allowedBranchIds user, branchId with
  | none, _ => .ok branchId
  | some _, some branchId => (assertBranchAccess user branchId).map fun _ => branchId
  | some allowed, none => match allowed.dedup with
    | [only] => .ok only
    | _ => .error (.badRequest "branch_id is required: you have access to more than one branch")

/-- The assignment counts for the branch check. -/
def UserRole.live (user : User) (userRole : UserRole) : Bool := (user.staff.liveRole userRole.scope).isSome

/-- The owner test of the branch check. -/
def isOwner (user : User) : Bool :=
  user.userRoles.any fun userRole => (user.staff.liveRole userRole.scope).any fun role => role.name.toLower = "owner"

/-- The assignment grants the key, wherever it is scoped to. -/
def UserRole.Grants (user : User) (permissionKey : String) (userRole : UserRole) : Prop :=
  userRole ∈ user.userRoles ∧ permissionKey ∈ userRole.permissionKeys user.businessId

/-- The assignment is unscoped, or scoped to the branch. -/
def UserRole.Covers (branchId : Nat) (userRole : UserRole) : Prop := ∀ scope ∈ userRole.branchId, scope = branchId

/-- The branch is the assigned one, or a live assignment is scoped to it, or the user has no assigned branch and an
unscoped assignment. -/
def Opens (user : User) (branchId : Nat) : Prop :=
  user.defaultBranchId = some branchId ∨
    (∃ userRole ∈ user.userRoles, userRole.live user = true ∧ userRole.branchId = some branchId) ∨
    (user.defaultBranchId = none ∧ ∃ userRole ∈ user.userRoles, userRole.live user = true ∧ userRole.branchId = none)

/-- The keys of the assignments that are unscoped or scoped to the branch. -/
def keysAt (user : User) (branchId : Nat) : List String :=
  (user.userRoles.filter fun userRole => userRole.branchId.all (· = branchId)).flatMap (UserRole.permissionKeys user.businessId)

/-- The assignments give the user the same keys at every branch that is open. -/
def Uniform (user : User) : Prop :=
  ∀ branchId other, Opens user branchId → Opens user other → keysAt user branchId ⊆ keysAt user other

end Permissions
