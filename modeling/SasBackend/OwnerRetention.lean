import SasBackend.Semantics.OwnerRetention

/-! An owner remains while every removal spares one.
The services count owners without regard to their status, deactivate without counting, and hold no lock between
the count and the commit: the owner the invariant follows is one whom no admitted removal concerns.
-/
namespace OwnerRetention
open SasBackend Transition

variable {businessId userId p : Nat} {s : State} {db after : Database} {target : Loaded}

structure Stands (businessId : Nat) (user : User) : Prop where
  own : user.businessId = businessId
  present : user.deleted = false
  active : user.status = .active

def IsOwnerRole (db : Database) (businessId roleId : Nat) : Prop :=
  ∃ role : Role, db.roles[roleId]? = some role ∧ role.isOwner = true ∧ role.businessId = businessId

/-- The user holds the role through a live row. -/
def HasRole (db : Database) (userId roleId : Nat) : Prop :=
  ∃ (id : Nat) (row : UserRole), db.userRoles[id]? = some row ∧ row.userId = userId ∧ row.deleted = false ∧ row.roleId = roleId

theorem activeOwner_iff : db.activeOwner businessId userId = true ↔
    (∃ user, db.users[userId]? = some user ∧ Stands businessId user) ∧
      ∃ roleId, HasRole db userId roleId ∧ IsOwnerRole db businessId roleId := by
  simp only [Database.activeOwner,Database.rolesOf,Bool.and_eq_true,Option.any_eq_true,List.any_eq_true,
    List.mem_filter,List.mem_zipIdx_iff_getElem?,decide_eq_true_eq,Bool.not_eq_true']
  constructor
  · rintro ⟨⟨user,found,⟨own,present⟩,active⟩,⟨row,id⟩,⟨stored,mine⟩,live,role,named,owner,inside⟩
    exact ⟨⟨user,found,own,present,active⟩,row.roleId,⟨id,row,stored,mine,live,rfl⟩,role,named,owner,inside⟩
  · rintro ⟨⟨user,found,own,present,active⟩,_,⟨id,row,stored,mine,live,rfl⟩,role,named,owner,inside⟩
    exact ⟨⟨user,found,⟨own,present⟩,active⟩,⟨row,id⟩,⟨stored,mine⟩,live,role,named,owner,inside⟩

theorem isOwner_of_activeOwner (owner : db.activeOwner businessId userId = true) :
    isOwner db (db.rolesOf userId) = true := by
  obtain ⟨-,roleId,⟨id,row,stored,mine,live,rfl⟩,role,named,isRole,-⟩ := activeOwner_iff.mp owner
  simp only [isOwner,Database.rolesOf,List.any_eq_true,List.mem_filter,List.mem_zipIdx_iff_getElem?,
    Bool.and_eq_true,Bool.not_eq_true',Option.any_eq_true,decide_eq_true_eq]
  exact ⟨⟨row,id⟩,⟨stored,mine⟩,live,role,named,isRole⟩

theorem mem_rolesOf {a : Assignment} : a ∈ db.rolesOf userId ↔ db.userRoles[a.2]? = some a.1 ∧ a.1.userId = userId := by
  simp [Database.rolesOf,List.mem_zipIdx_iff_getElem?]

/-- What every commit keeps of the rows it finds. -/
structure Extends (db after : Database) : Prop where
  roles : after.roles = db.roles
  users : ∀ (id : Nat) (user : User), db.users[id]? = some user →
    ∃ later : User, after.users[id]? = some later ∧ later.businessId = user.businessId
  userRoles : ∀ (id : Nat) (row : UserRole), db.userRoles[id]? = some row →
    ∃ later : UserRole, after.userRoles[id]? = some later ∧ later.userId = row.userId ∧ later.roleId = row.roleId

/-- Assignments of the user that a session holds, perhaps in an earlier version. -/
def Versions (db : Database) (userId : Nat) (assignments : List Assignment) : Prop :=
  ∀ a ∈ assignments, ∃ row, db.userRoles[a.2]? = some row ∧ row.userId = userId ∧ row.roleId = a.1.roleId

structure Loaded.Tracked (db : Database) (target : Loaded) : Prop where
  business : ∃ user, db.users[target.id]? = some user ∧ user.businessId = target.user.businessId
  versions : Versions db target.id target.userRoles

def Phase.Tracked (db : Database) : Phase → Prop
  | .loadingRoles _ _ id user => ∃ row, db.users[id]? = some row ∧ row.businessId = user.businessId
  | .listing _ _ target | .counting _ _ target _ | .assigning target _ => target.Tracked db
  | .replacing target _ assignments => Versions db target.id assignments
  | _ => True

theorem Versions.extends_ {assignments : List Assignment} (versions : Versions db userId assignments)
    (more : Extends db after) : Versions after userId assignments := by
  intro a member
  obtain ⟨row,stored,mine,role⟩ := versions a member
  obtain ⟨later,found,user,same⟩ := more.userRoles _ _ stored
  exact ⟨later,found,user.trans mine,same.trans role⟩

theorem Loaded.Tracked.extends_ (tracked : target.Tracked db) (more : Extends db after) : target.Tracked after := by
  obtain ⟨user,found,own⟩ := tracked.business
  obtain ⟨later,now,same⟩ := more.users _ _ found
  exact ⟨⟨later,now,same.trans own⟩,tracked.versions.extends_ more⟩

theorem Phase.Tracked.extends_ {phase : Phase} (tracked : phase.Tracked db) (more : Extends db after) :
    phase.Tracked after := by
  cases phase with
  | loadingRoles session change id user =>
    obtain ⟨row,found,own⟩ := tracked
    obtain ⟨later,now,same⟩ := more.users _ _ found
    exact ⟨later,now,same.trans own⟩
  | listing | counting | assigning => exact Loaded.Tracked.extends_ tracked more
  | replacing => exact Versions.extends_ tracked more
  | _ => trivial

/-- No process is about to take anything from the user. -/
def Safe (businessId : Nat) (s : State) (userId : Nat) : Prop :=
  ∀ phase ∈ s.processes, phase.removes s.db.roles businessId userId = false

structure Invariant (businessId : Nat) (s : State) : Prop where
  sole : ∃ owner, ∀ roleId, IsOwnerRole s.db businessId roleId → roleId = owner
  tracked : ∀ phase ∈ s.processes, phase.Tracked s.db
  guarded : ∃ userId, s.db.activeOwner businessId userId = true ∧ Safe businessId s userId

theorem spares_iff : s.spares businessId userId = true ↔
    ∃ other, other ≠ userId ∧ s.db.activeOwner businessId other = true ∧ Safe businessId s other := by
  simp only [State.spares,List.any_eq_true,List.mem_range,Bool.and_eq_true,decide_eq_true_eq,List.all_eq_true,
    Bool.not_eq_true',Safe]
  constructor
  · rintro ⟨other,-,⟨distinct,owner⟩,safe⟩
    exact ⟨other,distinct,owner,safe⟩
  · rintro ⟨other,distinct,owner,safe⟩
    obtain ⟨⟨user,found,-⟩,-⟩ := activeOwner_iff.mp owner
    exact ⟨other,(List.getElem?_eq_some_iff.mp found).1,⟨distinct,owner⟩,safe⟩

theorem Invariant.goto {phase : Phase} (invariant : Invariant businessId s) (tracked : phase.Tracked s.db)
    (guarded : ∃ userId, s.db.activeOwner businessId userId = true ∧ Safe businessId s userId ∧
      phase.removes s.db.roles businessId userId = false) : Invariant businessId (s.goto p phase) := by
  obtain ⟨userId,owner,safe,spared⟩ := guarded
  refine ⟨invariant.sole,fun other member => ?_,userId,owner,fun other member => ?_⟩
  · obtain before | rfl := List.mem_or_eq_of_mem_set member
    · exact invariant.tracked other before
    · exact tracked
  · obtain before | rfl := List.mem_or_eq_of_mem_set member
    · exact safe other before
    · exact spared

theorem Invariant.quiet {phase : Phase} (invariant : Invariant businessId s) (tracked : phase.Tracked s.db)
    (harmless : ∀ userId, s.db.activeOwner businessId userId = true → Safe businessId s userId →
      phase.removes s.db.roles businessId userId = false) : Invariant businessId (s.goto p phase) := by
  obtain ⟨userId,owner,safe⟩ := invariant.guarded
  exact invariant.goto tracked ⟨userId,owner,safe,harmless userId owner safe⟩

theorem Invariant.refuse (invariant : Invariant businessId s) (refusal : Refusal) :
    Invariant businessId (s.refuse p refusal) :=
  invariant.quiet trivial fun _ _ _ => rfl

theorem Invariant.commit {phase : Phase} (invariant : Invariant businessId s) (member : phase ∈ s.processes)
    (more : Extends s.db after)
    (kept : ∀ userId, s.db.activeOwner businessId userId = true →
      phase.removes s.db.roles businessId userId = false → after.activeOwner businessId userId = true) :
    Invariant businessId (s.commit p after) := by
  unfold State.commit
  split
  · obtain ⟨userId,owner,safe⟩ := invariant.guarded
    have committed : Invariant businessId { s with db := after } := by
      refine ⟨?_,fun other found => (invariant.tracked other found).extends_ more,userId,
        kept userId owner (safe phase member),fun other found => ?_⟩
      · obtain ⟨sole,unique⟩ := invariant.sole
        exact ⟨sole,fun roleId isRole => unique roleId (by simpa only [IsOwnerRole,more.roles] using isRole)⟩
      · rw [more.roles]
        exact safe other found
    exact committed.quiet trivial fun _ _ _ => rfl
  · exact invariant.refuse _

theorem activeOwner_kept (more : Extends db after)
    (users : ∀ user, db.users[userId]? = some user → Stands businessId user →
      ∃ later, after.users[userId]? = some later ∧ Stands businessId later)
    (held : ∀ roleId, HasRole db userId roleId → IsOwnerRole db businessId roleId → HasRole after userId roleId)
    (owner : db.activeOwner businessId userId = true) : after.activeOwner businessId userId = true := by
  obtain ⟨⟨user,found,stands⟩,roleId,has,isRole⟩ := activeOwner_iff.mp owner
  refine activeOwner_iff.mpr ⟨users user found stands,roleId,held roleId has isRole,?_⟩
  simpa only [IsOwnerRole,more.roles] using isRole

section Replace
variable {roleIds : List Nat} {assignments : List Assignment}

theorem replaced_row {id : Nat} {row : UserRole} (stored : db.userRoles[id]? = some row) :
    (replaceUserRoles db target roleIds assignments).userRoles[id]? =
      some (rewrite (retired roleIds assignments)
        (roleIds.filterMap (reactivate assignments target.user.defaultBranchId)) id row) := by
  obtain ⟨bound,rfl⟩ := List.getElem?_eq_some_iff.mp stored
  simp [replaceUserRoles,List.getElem?_append_left,bound]

theorem replaceUserRoles_extends : Extends db (replaceUserRoles db target roleIds assignments) where
  roles := rfl
  users := fun _ user found => ⟨user,found,rfl⟩
  userRoles := fun _ _ stored => ⟨_,replaced_row stored,rfl,rfl⟩

theorem live_of_named {id : Nat} {row : UserRole} (stored : db.userRoles[id]? = some row)
    (versions : Versions db target.id assignments) (named : row.userId = target.id → row.roleId ∈ roleIds) :
    id ∉ retired roleIds assignments := by
  intro gone
  obtain ⟨a,inside,rfl⟩ := List.mem_map.mp gone
  obtain ⟨member,leaves⟩ := List.mem_filter.mp inside
  obtain ⟨version,found,mine,role⟩ := versions a member
  obtain rfl := Option.some.inj (stored.symm.trans found)
  have listed := named mine
  rw [role] at listed
  simp [listed] at leaves

theorem replaceUserRoles_kept {owner : Nat} (sole : ∀ roleId, IsOwnerRole db businessId roleId → roleId = owner)
    (versions : Versions db target.id assignments)
    (gives : target.id = userId → givesOwner db.roles businessId roleIds = true)
    (stands : db.activeOwner businessId userId = true) :
    (replaceUserRoles db target roleIds assignments).activeOwner businessId userId = true := by
  refine activeOwner_kept replaceUserRoles_extends (fun user found stands => ⟨user,found,stands⟩) ?_ stands
  rintro roleId ⟨id,row,stored,mine,live,rfl⟩ isRole
  have stays : id ∉ retired roleIds assignments := live_of_named stored versions (by
    intro same
    have given := gives (same.symm.trans mine)
    simp only [givesOwner,List.any_eq_true,Option.any_eq_true,Bool.and_eq_true,decide_eq_true_eq] at given
    obtain ⟨other,member,role,found,owns,inside⟩ := given
    rw [sole row.roleId isRole,← sole other ⟨role,found,owns,inside⟩]
    exact member)
  exact ⟨id,_,replaced_row stored,mine,by simp [rewrite,stays,live],rfl⟩

end Replace

theorem modified_user {change : User → User} {id : Nat} {user : User} (found : db.users[userId]? = some user) :
    (db.users.modify id change)[userId]? = some (if id = userId then change user else user) := by
  simp [List.getElem?_modify,found]

theorem moved_row {changes : UserChanges} {moved : Moved} {id : Nat} {row : UserRole}
    (stored : db.userRoles[id]? = some row) : (updateTenantUser db target changes moved).userRoles[id]? =
      some (if moved.userRoles.contains id then { row with branchId := moved.branchId } else row) := by
  simp [updateTenantUser,stored]

theorem updateTenantUser_extends {changes : UserChanges} {moved : Moved} :
    Extends db (updateTenantUser db target changes moved) where
  roles := rfl
  users := fun _ _ found => ⟨_,modified_user found,by split <;> rfl⟩
  userRoles := fun _ _ stored => ⟨_,moved_row stored,by split <;> rfl,by split <;> rfl⟩

theorem updateTenantUser_kept {changes : UserChanges} {moved : Moved}
    (keeps : target.id = userId → changes.status.any (· ≠ .active) = false)
    (stands : db.activeOwner businessId userId = true) :
    (updateTenantUser db target changes moved).activeOwner businessId userId = true := by
  refine activeOwner_kept updateTenantUser_extends ?_ ?_ stands
  · intro user found stands
    refine ⟨_,modified_user found,?_⟩
    split
    · next same =>
      refine ⟨stands.own,stands.present,?_⟩
      cases status : changes.status with
      | none => simpa [UserChanges.apply,status] using stands.active
      | some value => simpa [UserChanges.apply,status] using keeps same
    · exact stands
  · rintro roleId ⟨id,row,stored,mine,live,rfl⟩ -
    refine ⟨id,_,moved_row stored,?_,?_,?_⟩
    · split <;> exact mine
    · split <;> exact live
    · split <;> rfl

theorem softDeleteTenantUser_extends : Extends db (softDeleteTenantUser db target) where
  roles := rfl
  users := fun _ _ found => ⟨_,modified_user found,by split <;> rfl⟩
  userRoles := fun _ row stored => ⟨row,stored,rfl,rfl⟩

theorem softDeleteTenantUser_kept (other : target.id ≠ userId)
    (stands : db.activeOwner businessId userId = true) :
    (softDeleteTenantUser db target).activeOwner businessId userId = true := by
  refine activeOwner_kept softDeleteTenantUser_extends ?_ (fun _ has _ => has) stands
  intro user found stands
  exact ⟨_,modified_user found,by rwa [if_neg other]⟩

theorem createTenantUser_extends {data : CreateUserRequest} : Extends db (createTenantUser db data) where
  roles := rfl
  users := fun _ user found =>
    ⟨user,(List.getElem?_append_left (List.getElem?_eq_some_iff.mp found).1).trans found,rfl⟩
  userRoles := fun _ row stored =>
    ⟨row,(List.getElem?_append_left (List.getElem?_eq_some_iff.mp stored).1).trans stored,rfl,rfl⟩

theorem createTenantUser_kept {data : CreateUserRequest} (stands : db.activeOwner businessId userId = true) :
    (createTenantUser db data).activeOwner businessId userId = true := by
  refine activeOwner_kept createTenantUser_extends ?_ ?_ stands
  · intro user found stands
    exact ⟨user,(List.getElem?_append_left (List.getElem?_eq_some_iff.mp found).1).trans found,stands⟩
  · rintro roleId ⟨id,row,stored,mine,live,same⟩ -
    exact ⟨id,row,(List.getElem?_append_left (List.getElem?_eq_some_iff.mp stored).1).trans stored,mine,live,same⟩

theorem getUserById_ok {user : User} (loaded : getUserById db userId businessId = .ok user) :
    db.users[userId]? = some user ∧ user.deleted = false ∧ user.businessId = businessId := by
  unfold getUserById at loaded
  split at loaded
  · cases loaded
  · next row found =>
    split at loaded
    · cases loaded
    · next present =>
      split at loaded
      · next own =>
        cases loaded
        exact ⟨found,by simpa using present,own⟩
      · cases loaded

theorem resolveBusinessRoles_some {roleIds roles : List Nat}
    (resolved : resolveBusinessRoles db businessId roleIds = some roles) :
    ∀ id ∈ roles, ∃ role : Role, db.roles[id]? = some role ∧ role.businessId = businessId := by
  unfold resolveBusinessRoles at resolved
  dsimp only at resolved
  split at resolved
  · next inside =>
    cases resolved
    simp only [List.all_eq_true,Option.any_eq_true,Bool.and_eq_true,decide_eq_true_eq] at inside
    intro id member
    obtain ⟨role,found,own,-⟩ := inside id member
    exact ⟨role,found,own⟩
  · cases resolved

theorem Loaded.Tracked.other (tracked : target.Tracked db) (foreign : target.user.businessId ≠ businessId)
    (owner : db.activeOwner businessId userId = true) : target.id ≠ userId := by
  rintro rfl
  obtain ⟨⟨user,found,stands⟩,-⟩ := activeOwner_iff.mp owner
  obtain ⟨row,stored,same⟩ := tracked.business
  obtain rfl := Option.some.inj (found.symm.trans stored)
  exact foreign (same.symm.trans stands.own)

theorem loadUserRoleAssignments_versions (tracked : target.Tracked db) :
    Versions db target.id (loadUserRoleAssignments db target) := by
  intro a member
  obtain ⟨row,listed,rfl⟩ := List.mem_map.mp member
  cases held : target.userRoles.find? (·.2 = row.2) with
  | none =>
    obtain ⟨stored,mine⟩ := mem_rolesOf.mp listed
    exact ⟨row.1,stored,mine,rfl⟩
  | some version => exact tracked.versions version (List.mem_of_find?_eq_some held)

theorem admitted_removes {removal : Removal} (other : target.id ≠ userId) :
    (removal.admitted target).removes db.roles businessId userId = false := by
  cases removal <;> simp [Removal.admitted,Phase.removes,other]

theorem Invariant.start (invariant : Invariant businessId s) {session : Session} {request : Request}
    (member : s.processes[p]? = some (.starting session request))
    (clear : spared businessId s (.advance p) = true) : Invariant businessId (start s p session request) := by
  cases request with
  | createTenantUser data =>
    unfold OwnerRetention.start
    dsimp only
    split
    · exact invariant.refuse _
    · split
      · exact invariant.quiet trivial fun _ _ _ => rfl
      · exact invariant.refuse _
  | manage target business change =>
    unfold OwnerRetention.start
    dsimp only
    split
    · exact invariant.refuse _
    · split
      · exact invariant.refuse _
      · next user loaded =>
        obtain ⟨found,present,own⟩ := getUserById_ok loaded
        have tracked : Phase.Tracked s.db (.loadingRoles session change target user) := ⟨user,found,rfl⟩
        apply invariant.goto tracked
        by_cases deactivates : ∃ fullName branchId, change = .updateTenantUser fullName branchId (some false)
        · obtain ⟨fullName,branchId,rfl⟩ := deactivates
          simp only [spared,member,Bool.or_eq_true,spares_iff,Bool.not_eq_true'] at clear
          obtain ⟨other,distinct,owner,safe⟩ | harmless := clear
          · exact ⟨other,owner,safe,by simp [Phase.removes,distinct.symm]⟩
          · obtain ⟨other,owner,safe⟩ := invariant.guarded
            refine ⟨other,owner,safe,?_⟩
            obtain ⟨⟨row,stored,stands⟩,-⟩ := activeOwner_iff.mp owner
            by_cases same : target = other
            · subst same
              obtain rfl := Option.some.inj (stored.symm.trans found)
              simp [found,stands.own,stands.present,stands.active] at harmless
            · simp [Phase.removes,same]
        · obtain ⟨other,owner,safe⟩ := invariant.guarded
          refine ⟨other,owner,safe,?_⟩
          cases change with
          | updateTenantUser fullName branchId isActive =>
            match isActive with
            | none | some true => rfl
            | some false => exact absurd ⟨fullName,branchId,rfl⟩ deactivates
          | _ => rfl

theorem Invariant.manage (invariant : Invariant businessId s) {session : Session} {change : Change} {id : Nat}
    {user : User} (member : Phase.loadingRoles session change id user ∈ s.processes) :
    Invariant businessId (manage s p session ⟨id,user,s.db.rolesOf id⟩ change) := by
  have business := invariant.tracked _ member
  have tracked : Loaded.Tracked s.db ⟨id,user,s.db.rolesOf id⟩ := by
    refine ⟨business,fun a inside => ?_⟩
    obtain ⟨stored,mine⟩ := mem_rolesOf.mp inside
    exact ⟨a.1,stored,mine,rfl⟩
  cases change with
  | replaceUserRoles roleIds =>
    unfold OwnerRetention.manage
    dsimp only
    split
    · exact invariant.refuse _
    · next roles resolved =>
      split
      · exact invariant.quiet tracked fun _ _ _ => rfl
      · next admitted =>
        refine invariant.quiet tracked fun userId owner safe => ?_
        by_cases same : id = userId
        · subst same
          have inside : user.businessId = businessId := by
            by_contra foreign
            exact tracked.other foreign owner rfl
          simp only [isOwner_of_activeOwner owner,Bool.true_and,Bool.not_eq_true',Bool.not_eq_false,namesOwner,
            List.any_eq_true,Option.any_eq_true] at admitted
          obtain ⟨roleId,listed,role,found,owns⟩ := admitted
          obtain ⟨row,stored,own⟩ := resolveBusinessRoles_some resolved roleId listed
          obtain rfl := Option.some.inj (found.symm.trans stored)
          have gives : givesOwner s.db.roles businessId roles = true := by
            simp only [givesOwner,List.any_eq_true,Option.any_eq_true,Bool.and_eq_true,decide_eq_true_eq]
            exact ⟨roleId,listed,role,found,owns,own.trans inside⟩
          simp [Phase.removes,gives]
        · simp [Phase.removes,same]
  | updateTenantUser fullName branchId isActive =>
    have harmless : ∀ userId, Safe businessId s userId → id = userId →
        (userChanges user fullName branchId isActive).status.any (· ≠ .active) = false := by
      rintro userId safe rfl
      have safe := safe _ member
      match isActive with
      | none => rfl
      | some true =>
        by_cases already : user.status = .active
        · simp [userChanges,changed,already]
        · simp [userChanges,changed,Ne.symm already]
      | some false =>
        have inactive : user.status = .inactive := by simpa [Phase.removes] using safe
        simp [userChanges,changed,inactive]
    unfold OwnerRetention.manage
    dsimp only
    split
    · refine invariant.quiet trivial fun userId _ safe => ?_
      simpa [Phase.removes] using harmless userId safe
    · split
      · refine invariant.quiet trivial fun userId _ safe => ?_
        simpa [Phase.removes] using harmless userId safe
      · exact invariant.refuse _
  | softDeleteTenantUser =>
    unfold OwnerRetention.manage
    dsimp only
    split
    · exact invariant.quiet tracked fun _ _ _ => rfl
    · next notOwner =>
      refine invariant.quiet trivial fun userId owner _ => ?_
      by_cases same : id = userId
      · subst same
        exact absurd (isOwner_of_activeOwner owner) notOwner
      · simp [Phase.removes,same]

theorem Invariant.advance (invariant : Invariant businessId s) {phase : Phase} {u : State}
    (found : s.processes[p]? = some phase) (clear : spared businessId s (.advance p) = true)
    (moved : advance s p phase = some u) : Invariant businessId u := by
  have member : phase ∈ s.processes := List.mem_of_getElem? found
  have tracked := invariant.tracked phase member
  cases phase with
  | starting session request =>
    cases moved
    exact invariant.start found clear
  | loadingRoles session change id user =>
    cases moved
    exact invariant.manage member
  | listing session removal target =>
    cases moved
    exact invariant.quiet tracked fun _ _ _ => rfl
  | counting session removal target listed =>
    simp only [OwnerRetention.advance] at moved
    split at moved
    · cases moved
      exact invariant.refuse _
    · next counted =>
      cases moved
      have admitted : (removal.admitted target).Tracked s.db := by
        cases removal with
        | roles roleIds => exact tracked
        | deletion => trivial
      apply invariant.goto admitted
      simp only [spared,found,Bool.or_eq_true,spares_iff,decide_eq_true_eq,counted,or_false] at clear
      obtain ⟨other,distinct,owner,safe⟩ | foreign := clear
      · exact ⟨other,owner,safe,admitted_removes distinct.symm⟩
      · obtain ⟨other,owner,safe⟩ := invariant.guarded
        exact ⟨other,owner,safe,admitted_removes (Loaded.Tracked.other tracked foreign owner)⟩
  | assigning target roleIds =>
    cases moved
    refine invariant.quiet (loadUserRoleAssignments_versions tracked) fun _ _ safe => ?_
    exact safe (.assigning target roleIds) member
  | replacing target roleIds assignments =>
    cases moved
    obtain ⟨owner,sole⟩ := invariant.sole
    refine invariant.commit member replaceUserRoles_extends fun userId stands spared => ?_
    apply replaceUserRoles_kept sole tracked ?_ stands
    intro same
    simpa [Phase.removes,same] using spared
  | moving target changes branchId =>
    cases moved
    refine invariant.quiet trivial fun _ _ safe => ?_
    exact safe (.moving target changes branchId) member
  | updating target changes rows =>
    cases moved
    refine invariant.commit member updateTenantUser_extends fun userId stands spared => ?_
    apply updateTenantUser_kept ?_ stands
    intro same
    simpa [Phase.removes,same] using spared
  | deleting target =>
    cases moved
    refine invariant.commit member softDeleteTenantUser_extends fun userId stands spared => ?_
    exact softDeleteTenantUser_kept (by simpa [Phase.removes] using spared) stands
  | creating data =>
    simp only [OwnerRetention.advance] at moved
    split at moved <;> cases moved
    · exact invariant.refuse _
    · exact invariant.commit member createTenantUser_extends fun _ stands _ => createTenantUser_kept stands
  | answered result => cases moved

theorem Invariant.next (invariant : Invariant businessId s) {action : Action} {u : State}
    (moved : within (spared businessId) next s action = some u) : Invariant businessId u := by
  obtain ⟨clear,moved⟩ := within_eq_some.mp moved
  cases action with
  | begin actor request =>
    cases moved
    obtain ⟨userId,owner,safe⟩ := invariant.guarded
    refine ⟨invariant.sole,fun phase member => ?_,userId,owner,fun phase member => ?_⟩
    · obtain before | new := List.mem_append.mp member
      · exact invariant.tracked phase before
      · rw [List.mem_singleton.mp new]
        trivial
    · obtain before | new := List.mem_append.mp member
      · exact safe phase before
      · rw [List.mem_singleton.mp new]
        rfl
  | advance p =>
    obtain ⟨phase,found,moved⟩ := Option.bind_eq_some_iff.mp moved
    exact invariant.advance found clear moved
  | abort p =>
    cases moved
    exact invariant.refuse _

theorem isOwner_named (name : String) :
    Role.isOwner ⟨businessId,name,false⟩ = decide (name.toLower = "owner") := by
  simp [Role.isOwner]

theorem register_sole {ownerName ownerPhone : String} (new : ∀ role ∈ db.roles, role.businessId ≠ businessId)
    {roleId : Nat} (isRole : IsOwnerRole (register db businessId ownerName ownerPhone) businessId roleId) :
    roleId = db.roles.length := by
  obtain ⟨role,found,owns,inside⟩ := isRole
  simp only [register] at found
  by_cases earlier : roleId < db.roles.length
  · rw [List.getElem?_append_left earlier] at found
    exact absurd inside (new role (List.mem_of_getElem? found))
  · rw [List.getElem?_append_right (by omega)] at found
    match place : roleId - db.roles.length with
    | 0 => omega
    | 1 | 2 =>
      rw [place] at found
      cases found
      rw [isOwner_named] at owns
      exact absurd owns (by decide +kernel)
    | n + 3 =>
      rw [place] at found
      cases found

theorem register_owner {ownerName ownerPhone : String} :
    (register db businessId ownerName ownerPhone).activeOwner businessId db.users.length = true := by
  refine activeOwner_iff.mpr ⟨⟨_,List.getElem?_concat_length,rfl,rfl,rfl⟩,db.roles.length,
    ⟨db.userRoles.length,_,List.getElem?_concat_length,rfl,rfl,rfl⟩,⟨businessId,"owner",false⟩,?_,?_,rfl⟩
  · simp [register,standardRoles]
  · rw [isOwner_named]
    decide +kernel

theorem Invariant.initial (fresh : Initial businessId s) : Invariant businessId s := by
  obtain ⟨db,ownerName,ownerPhone,new,rfl⟩ := fresh
  refine ⟨⟨db.roles.length,fun _ isRole => register_sole new isRole⟩,fun _ member => ?_,
    db.users.length,register_owner,fun _ member => ?_⟩ <;> cases member

/-- While every deactivation and every admitted removal spares an owner, an owner remains. -/
theorem owner_remains_while_spared
    (reached : Reachable (Initial businessId) (OfNext (within (spared businessId) next)) s) :
    OwnerRemains businessId s := by
  obtain ⟨userId,owner,-⟩ := (reached.invariant (fun _ => Invariant.initial) fun _ _ _ invariant moved =>
    Invariant.next invariant moved).guarded
  exact ⟨userId,owner⟩

private def registered : State := ⟨register ⟨[],[],[],[]⟩ 0 "Owner" "03000000000",[]⟩

private theorem registered_initial : Initial 0 registered :=
  ⟨⟨[],[],[],[]⟩,"Owner","03000000000",by simp,rfl⟩

private def deactivate (p actor userId : Nat) : List Action :=
  [.begin actor (.manage userId 0 (.updateTenantUser none none (some false))),.advance p,.advance p,.advance p]

private def statuses (s : State) : List UserStatus := s.db.users.map User.status

/-- A second owner is created, then the first is deactivated. -/
theorem owner_remains_second_owner : ∃ s, statuses s = [.inactive,.active] ∧ OwnerRemains 0 s := by
  obtain ⟨s,reached,view⟩ := reachable_of_execute (within (spared 0) next) statuses
    ([.begin 0 (.createTenantUser ⟨0,"Partner","03000000001",none,[0]⟩),.advance 0,.advance 0] ++ deactivate 1 1 0)
    registered_initial (b := [.inactive,.active]) (by decide +kernel)
  exact ⟨s,view,owner_remains_while_spared reached⟩

/-- The only owner is deactivated. -/
theorem sole_owner_deactivated : ∃ s, Reachable (Initial 0) (OfNext next) s ∧ ¬OwnerRemains 0 s := by
  obtain ⟨s,reached,view⟩ := reachable_of_execute next statuses (deactivate 0 0 0) registered_initial
    (b := [.inactive]) (by decide +kernel)
  refine ⟨s,reached,fun ⟨userId,owner⟩ => ?_⟩
  obtain ⟨⟨user,found,stands⟩,-⟩ := activeOwner_iff.mp owner
  have listed : user.status ∈ statuses s := List.mem_map.mpr ⟨user,List.mem_of_getElem? found,rfl⟩
  rw [view,stands.active] at listed
  simp at listed

end OwnerRetention
