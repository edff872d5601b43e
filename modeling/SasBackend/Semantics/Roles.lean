import Mathlib.Data.List.Sort
import Mathlib.Data.String.Basic
import SasBackend.Library.Service
import SasBackend.Library.UniqueKeys

/-! The roles of the businesses with the permissions linked to them, their default sets and the audit log. A row's id is its
place in its table. A request that is refused leaves everything as it was.
-/
namespace Roles
open Service (Refusal refuseIf)
open UniqueKeys (taken)

/-- Lower case in the database and in the program, and texts without the white space around them. -/
structure Platform where
  sqlLower : String → String
  lower : String → String
  strip : String → String

def restaurantPermissionKeys : List String :=
  ["restaurant.floor_plans.view","restaurant.floor_plans.manage","restaurant.tables.view","restaurant.tables.manage",
    "restaurant.tables.update_status","restaurant.modifiers.view","restaurant.modifiers.manage","restaurant.kot.view",
    "restaurant.kot.update_status","restaurant.kot.fire"]

def restaurantCashierPermissionKeys : List String :=
  ["restaurant.floor_plans.view","restaurant.tables.view","restaurant.tables.update_status",
    "restaurant.modifiers.view","restaurant.kot.fire"]

def manufacturingPermissionKeys : List String :=
  ["manufacturing.bom.view","manufacturing.bom.manage","manufacturing.production.view",
    "manufacturing.production.create","manufacturing.production.complete","manufacturing.production.cancel"]

def accountingPermissionKeys : List String :=
  ["accounting.coa.view","accounting.coa.manage","accounting.journal.view","accounting.journal.create",
    "accounting.journal.post"]

def allPermissionKeys : List String :=
  ["auth.login","auth.logout","auth.refresh","products.view","products.create","products.update","products.delete",
    "products.manage_categories","products.manage_brands","products.manage_units","products.manage_prices",
    "products.manage_barcodes","inventory.view","inventory.adjust","inventory.purchase_orders.view",
    "inventory.purchase_orders.create","inventory.purchase_orders.receive","inventory.transfers.view",
    "inventory.transfers.create","inventory.transfers.receive","inventory.waste.view","inventory.waste.create",
    "sales.view","sales.create","sales.cancel","sales.void","sales.override_tax","sales.apply_discount",
    "sales.override_price","sales.returns.view","sales.returns.create","sales.payments.view","discounts.view",
    "customers.view","customers.create","customers.update","customers.ledger.view","suppliers.view",
    "suppliers.create","suppliers.update","suppliers.ledger.view","suppliers.ledger.payment","expenses.view",
    "expenses.create","expenses.update","expenses.delete","expenses.categories.manage","registers.view",
    "registers.manage","shifts.view","shifts.open","shifts.close","shifts.cash_movement","shifts.manage",
    "reports.view","reports.sales","reports.inventory","reports.financial","reports.analytics","reports.export",
    "reports.fraud_alerts","settings.view","settings.manage","users.view","users.create","users.update",
    "users.delete","users.roles.manage","notifications.view","notifications.manage","roles.view","permissions.view",
    "branches.view"] ++
    restaurantPermissionKeys ++ manufacturingPermissionKeys ++ accountingPermissionKeys

def ownerLegacyPermissionKeys : List String :=
  ["products.manage"]

def managerExcludedKeys : List String :=
  ["users.roles.manage","users.delete","settings.manage","reports.fraud_alerts","expenses.delete","products.delete",
    "registers.manage","accounting.coa.manage","accounting.journal.create","accounting.journal.post"]

def cashierPermissionKeys : List String :=
  ["auth.login","auth.logout","auth.refresh","products.view","inventory.view","sales.view","sales.create",
    "sales.payments.view","discounts.view","customers.view","customers.create","registers.view","shifts.open",
    "shifts.close","shifts.cash_movement","notifications.view","branches.view"] ++ restaurantCashierPermissionKeys

def standardRoles : List (String × String) :=
  [("owner","Business owner"),("manager","Store manager"),("cashier","POS cashier")]

def permissionKeysForRole (platform : Platform) (roleName : String) : Except Refusal (List String) :=
  let name := platform.lower roleName
  if name = "owner" then .ok (allPermissionKeys ++ ownerLegacyPermissionKeys)
  else if name = "manager" then .ok (allPermissionKeys.filter (· ∉ managerExcludedKeys))
  else if name = "cashier" then .ok cashierPermissionKeys
  else .error .uncaught

structure Role where
  businessId : Nat
  name : String
  description : Option String
  isSystem : Bool
  deletedAt : Option Int
  deriving DecidableEq

/-- A row of `role_permissions`. -/
structure Link where
  businessId : Nat
  roleId : Nat
  permissionId : Nat
  deriving DecidableEq

/-- What an entry of the audit log says of its role. -/
inductive Change
  | created (name : String) (permissionKeys : List String)
  | updated (before after : String × Option String)
  | deleted (name : String)
  | replaced (name : String) (before after added removed : List String)
  deriving DecidableEq

structure AuditLog where
  businessId : Nat
  userId : Nat
  recordId : Nat
  change : Change
  deriving DecidableEq

/-- The permissions are given by their keys; `assigned` are the live assignments of users, by business and role. -/
structure State where
  permissions : List String
  roles : List Role
  rolePermissions : List Link
  assigned : List (Nat × Nat)
  auditLogs : List AuditLog
  deriving DecidableEq

def State.init : State := ⟨[],[],[],[],[]⟩

def Role.key (role : Role) : Option (Nat × String) := some (role.businessId,role.name)

def sorted (keys : List String) : List String := keys.insertionSort (· ≤ ·)

def missingKeys (s : State) (keys : List String) : List String := (sorted keys.dedup).filter (· ∉ s.permissions)

def resolvePermissionsByKeys (s : State) (keys : List String) : Except Refusal (List String) :=
  if keys.isEmpty then .ok []
  else if (missingKeys s keys).isEmpty then .ok (sorted keys.dedup)
  else .error (.http 400 ("Unknown permission keys: " ++ ", ".intercalate (missingKeys s keys)))

/-- The owner's keys that are permissions at all. -/
def requiredOwnerPermissionKeys (s : State) : List String :=
  s.permissions.filter (· ∈ allPermissionKeys ++ ownerLegacyPermissionKeys)

def State.linksOf (s : State) (businessId roleId : Nat) : List Link :=
  s.rolePermissions.filter fun link => link.businessId = businessId && link.roleId = roleId

/-- The keys of a role as a response shows them. -/
def State.keysOf (s : State) (businessId roleId : Nat) : List String :=
  sorted ((s.linksOf businessId roleId).filterMap fun link => s.permissions[link.permissionId]?)

def Role.isOwner (platform : Platform) (role : Role) : Bool := role.isSystem && platform.lower role.name = "owner"

def link (s : State) (businessId roleId : Nat) (keys : List String) : List Link :=
  keys.map fun key => ⟨businessId,roleId,s.permissions.idxOf key⟩

/-- The links to the keys alone, the others of the role gone. -/
def relinked (s : State) (businessId roleId : Nat) (keys : List String) : State :=
  let kept := s.rolePermissions.filter fun row => !(row.businessId = businessId && row.roleId = roleId) ||
    (s.permissions[row.permissionId]?).all (· ∈ keys)
  { s with rolePermissions := kept ++ link s businessId roleId (keys.filter (· ∉ s.keysOf businessId roleId)) }

def refuseStripped (platform : Platform) (s : State) (role : Role) (permissionKeys : List String) : Except Refusal Unit :=
  let stripped := sorted ((requiredOwnerPermissionKeys s).filter (· ∉ permissionKeys))
  if role.isOwner platform && !stripped.isEmpty then
    .error (.http 400 ("The owner role must retain all permissions; cannot remove: " ++ ", ".intercalate stripped))
  else .ok ()

/-- Returns the keys before and after as well. -/
def replacePermissions (platform : Platform) (s : State) (roleId : Nat) (role : Role) (permissionKeys : List String) :
    Except Refusal (State × List String × List String) := do
  refuseStripped platform s role permissionKeys
  let keys ← resolvePermissionsByKeys s permissionKeys
  return (relinked s role.businessId roleId keys,s.keysOf role.businessId roleId,keys)

/-- What `scalar_one_or_none` says of so many roles with the name. -/
def ensureUniqueRoleName (platform : Platform) (s : State) (businessId : Nat) (name : String) (excludeRoleId : Option Nat) :
    Except Refusal Unit :=
  match s.roles.zipIdx.countP fun row => row.1.businessId = businessId &&
      platform.sqlLower row.1.name = platform.lower name && row.1.deletedAt.isNone && some row.2 ≠ excludeRoleId with
  | 0 => .ok ()
  | 1 => .error (.http 409 ("Role name '" ++ name ++ "' is already in use"))
  | _ => .error .uncaught

def findRole (s : State) (roleId businessId : Nat) : Option Role :=
  s.roles[roleId]?.filter fun role => role.businessId = businessId && role.deletedAt.isNone

def getRoleById (s : State) (roleId businessId : Nat) : Except Refusal Role :=
  match findRole s roleId businessId with
  | some role => .ok role
  | none => .error (.http 404 "Role not found")

/-- The unique constraint counts deleted rows as well. -/
def insertRole (s : State) (role : Role) : Except Refusal State :=
  if taken Role.key s.roles role then .error .uncaught else .ok { s with roles := s.roles ++ [role] }

def setRole (s : State) (roleId : Nat) (role : Role) : Except Refusal State :=
  if taken Role.key (s.roles.eraseIdx roleId) role then .error .uncaught else .ok { s with roles := s.roles.set roleId role }

def logAudit (s : State) (businessId userId recordId : Nat) (change : Change) : State :=
  { s with auditLogs := s.auditLogs ++ [⟨businessId,userId,recordId,change⟩] }

structure CreateRoleRequest where
  name : String
  description : Option String
  permissionKeys : List String

def initialPermissions (platform : Platform) (s : State) (roleId : Nat) (role : Role) (permissionKeys : List String) :
    Except Refusal State :=
  if permissionKeys.isEmpty then .ok s else (replacePermissions platform s roleId role permissionKeys).map (·.1)

def createRole (platform : Platform) (s : State) (businessId : Nat) (data : CreateRoleRequest) (createdBy : Nat) :
    Except Refusal State := do
  ensureUniqueRoleName platform s businessId data.name none
  let role : Role := ⟨businessId,platform.strip data.name,data.description,false,none⟩
  let t ← insertRole s role
  let u ← initialPermissions platform t s.roles.length role data.permissionKeys
  return logAudit u businessId createdBy s.roles.length (.created role.name (sorted data.permissionKeys))

structure UpdateRoleRequest where
  name : Option String
  description : Option String

/-- A name that differs from the old one in more than its case. -/
def newName (platform : Platform) (role : Role) (data : UpdateRoleRequest) : Option String :=
  data.name.filter fun name => platform.lower (platform.strip name) ≠ platform.lower role.name

def renamed (platform : Platform) (s : State) (roleId businessId : Nat) (role : Role) (data : UpdateRoleRequest) :
    Except Refusal String :=
  match newName platform role data with
  | none => .ok role.name
  | some name =>
    if role.isSystem then
      .error (.http 400 ("System roles (owner, manager, cashier) cannot be renamed because authorization checks depend " ++
        "on role name. You may update the description or adjust permissions instead."))
    else (ensureUniqueRoleName platform s businessId name (some roleId)).map fun _ => platform.strip name

def updateRole (platform : Platform) (s : State) (roleId businessId : Nat) (data : UpdateRoleRequest) (updatedBy : Nat) :
    Except Refusal State := do
  let role ← getRoleById s roleId businessId
  let name ← renamed platform s roleId businessId role data
  let changed := { role with name := name, description := data.description.or role.description }
  let t ← setRole s roleId changed
  return logAudit t businessId updatedBy roleId
    (.updated (role.name,role.description) (changed.name,changed.description))

def deleteRole (s : State) (roleId businessId deletedBy : Nat) (now : Int) : Except Refusal State := do
  let role ← getRoleById s roleId businessId
  refuseIf role.isSystem 400 "System roles cannot be deleted"
  let assignedCount := s.assigned.count (businessId,roleId)
  refuseIf (0 < assignedCount) 409 ("Cannot delete role: " ++ toString assignedCount ++
    " user(s) still assigned. Reassign them first.")
  return logAudit { s with roles := s.roles.set roleId { role with deletedAt := some now } } businessId deletedBy roleId
    (.deleted role.name)

def replaceRolePermissions (platform : Platform) (s : State) (roleId businessId : Nat) (permissionKeys : List String)
    (updatedBy : Nat) : Except Refusal State := do
  let role ← getRoleById s roleId businessId
  -- The request was stripped of repetitions when it was read.
  let (t,before,after) ← replacePermissions platform s roleId role permissionKeys.dedup
  return logAudit t businessId updatedBy roleId (.replaced role.name before after
    (after.filter (· ∉ before)) (before.filter (· ∉ after)))

structure SeedStats where
  businessesProcessed : Nat
  rolesCreated : Nat
  permissionsLinked : Nat
  deriving DecidableEq

/-- The permissions of the set that the role has no link to. -/
def unlinked (s : State) (businessId roleId : Nat) (keys : List String) : List String :=
  s.permissions.filter fun key => key ∈ keys && key ∉ s.keysOf businessId roleId

def seedRolePermissions (s : State) (businessId roleId : Nat) (keys : List String) : State × Nat :=
  ({ s with rolePermissions := s.rolePermissions ++ link s businessId roleId (unlinked s businessId roleId keys) },
    (unlinked s businessId roleId keys).length)

def liveNamed (platform : Platform) (s : State) (businessId : Nat) (lowered : String) : List (Role × Nat) :=
  s.roles.zipIdx.filter fun row => row.1.businessId = businessId && platform.sqlLower row.1.name = lowered &&
    row.1.deletedAt.isNone

/-- The role with its id, and whether it was created. -/
def getOrCreateStandardRole (platform : Platform) (s : State) (businessId : Nat) (roleName description : String) :
    Except Refusal (State × (Role × Nat) × Bool) :=
  match liveNamed platform s businessId (platform.lower roleName) with
  | [] => do
    let role : Role := ⟨businessId,roleName,some description,true,none⟩
    let t ← insertRole s role
    return (t,(role,s.roles.length),true)
  | [found] => .ok (s,found,false)
  | _ => .error .uncaught

def ensureEach (platform : Platform) (businessId : Nat) : List (String × String) → State → SeedStats → Except Refusal (State × SeedStats)
  | [],s,stats => .ok (s,stats)
  | (roleName,description) :: rest,s,stats => do
    let (t,found,created) ← getOrCreateStandardRole platform s businessId roleName description
    let keys ← permissionKeysForRole platform found.1.name
    let (u,linked) := seedRolePermissions t businessId found.2 keys
    ensureEach platform businessId rest u
      ⟨stats.businessesProcessed,stats.rolesCreated + created.toNat,stats.permissionsLinked + linked⟩

def ensureStandardRolesAndPermissions (platform : Platform) (s : State) (businessId : Nat) : Except Refusal (State × SeedStats) :=
  ensureEach platform businessId standardRoles s ⟨1,0,0⟩

/-- The first role with the name. -/
def firstNamed (platform : Platform) (s : State) (businessId : Nat) (roleName : String) : Option Nat :=
  ((s.roles.zipIdx.find? fun row => row.1.businessId = businessId &&
    platform.sqlLower row.1.name = platform.sqlLower roleName && row.1.deletedAt.isNone)).map (·.2)

/-- The permissions there are of a set. -/
def available (s : State) (keys : List String) : List String := s.permissions.filter (· ∈ keys)

/-- The state, and what was created and linked; a dry run counts the same and changes nothing. -/
def ensureRoleSync (platform : Platform) (dryRun : Bool) (s : State) (businessId : Nat) (roleName description : String) :
    Except Refusal (State × Bool × Nat) := do
  let keys ← permissionKeysForRole platform roleName
  match firstNamed platform s businessId roleName with
  | some roleId =>
    if dryRun then return (s,false,(unlinked s businessId roleId keys).length)
    else
      let (t,linked) := seedRolePermissions s businessId roleId keys
      return (t,false,linked)
  | none =>
    if dryRun then return (s,true,(available s keys).length)
    else
      let t ← insertRole s ⟨businessId,roleName,some description,true,none⟩
      let (u,linked) := seedRolePermissions t businessId s.roles.length keys
      return (u,true,linked)

def ensureEachSync (platform : Platform) (dryRun : Bool) (businessId : Nat) :
    List (String × String) → State → SeedStats → Except Refusal (State × SeedStats)
  | [],s,stats => .ok (s,stats)
  | (roleName,description) :: rest,s,stats => do
    let (t,created,linked) ← ensureRoleSync platform dryRun s businessId roleName description
    ensureEachSync platform dryRun businessId rest t
      ⟨stats.businessesProcessed,stats.rolesCreated + created.toNat,stats.permissionsLinked + linked⟩

def ensureStandardRolesAndPermissionsSync (platform : Platform) (dryRun : Bool) (s : State) (businessId : Nat) :
    Except Refusal (State × SeedStats) :=
  ensureEachSync platform dryRun businessId standardRoles s ⟨1,0,0⟩

def SeedStats.add (totals stats : SeedStats) : SeedStats :=
  ⟨totals.businessesProcessed + stats.businessesProcessed,totals.rolesCreated + stats.rolesCreated,
    totals.permissionsLinked + stats.permissionsLinked⟩

/-- The totals, and the statistics of each business. -/
def backfillRolePermissions (platform : Platform) (dryRun : Bool) :
    List Nat → State → SeedStats → Except Refusal (State × SeedStats × List (Nat × SeedStats))
  | [],s,totals => .ok (s,totals,[])
  | businessId :: rest,s,totals => do
    let (t,stats) ← ensureStandardRolesAndPermissionsSync platform dryRun s businessId
    let (u,sum,perBusiness) ← backfillRolePermissions platform dryRun rest t (totals.add stats)
    return (u,sum,(businessId,stats) :: perBusiness)

def backfillRolePermissionsForAllBusinesses (platform : Platform) (dryRun : Bool) (businesses : List Nat) (s : State) :
    Except Refusal (State × SeedStats × List (Nat × SeedStats)) :=
  backfillRolePermissions platform dryRun businesses s ⟨0,0,0⟩

inductive Request
  | createRole (businessId : Nat) (data : CreateRoleRequest) (createdBy : Nat)
  | updateRole (roleId businessId : Nat) (data : UpdateRoleRequest) (updatedBy : Nat)
  | deleteRole (roleId businessId deletedBy : Nat) (now : Int)
  | replaceRolePermissions (roleId businessId : Nat) (permissionKeys : List String) (updatedBy : Nat)
  | ensureStandardRoles (businessId : Nat)
  /-- New permissions, and changes in who is assigned. -/
  | others (permissions : List String) (assigned : List (Nat × Nat))

def answer (platform : Platform) (s : State) : Request → Except Refusal State
  | .createRole businessId data createdBy => createRole platform s businessId data createdBy
  | .updateRole roleId businessId data updatedBy => updateRole platform s roleId businessId data updatedBy
  | .deleteRole roleId businessId deletedBy now => deleteRole s roleId businessId deletedBy now
  | .replaceRolePermissions roleId businessId keys updatedBy => replaceRolePermissions platform s roleId businessId keys updatedBy
  | .ensureStandardRoles businessId => (ensureStandardRolesAndPermissions platform s businessId).map (·.1)
  | .others permissions assigned =>
    .ok { s with permissions := s.permissions ++ permissions.dedup.filter (· ∉ s.permissions), assigned := assigned }

def served (platform : Platform) : State → Request → State := Service.served (answer platform)

end Roles
