import SasBackend.Semantics.Permissions

/-! When a permission reaches a branch that no assignment grants it for.
The keys are a union over the assignments and so are the branches; nothing pairs the two.
-/
namespace Permissions

variable {user : User} {userRole : UserRole} {permissionKey : String} {branchId : Nat}

theorem live_of_key (granted : permissionKey ∈ userRole.permissionKeys user.businessId) : userRole.live user = true := by
  unfold UserRole.permissionKeys at granted
  split at granted
  next => simp at granted
  next role found =>
    split at granted
    next => simp at granted
    next counted =>
      simp only [Bool.or_eq_true,decide_eq_true_eq,not_or] at counted
      simp_all [UserRole.live,UserRole.scope,User.staff,BranchScope.User.liveRole]

theorem requirePermission_iff :
    requirePermission permissionKey user = .ok user ↔ ∃ userRole, UserRole.Grants user permissionKey userRole := by
  have held : (computePermissionKeys user).contains permissionKey = true ↔
      ∃ userRole, UserRole.Grants user permissionKey userRole := by
    simp [computePermissionKeys,UserRole.Grants]
  rw [← held]
  unfold requirePermission
  split <;> simp_all

/-- The assignments the branch check counts. -/
def User.liveRoles (user : User) : List UserRole := user.userRoles.filter (UserRole.live user)

theorem scopes_live : (user.staff.userRoles.filter fun userRole => (user.staff.liveRole userRole).isSome) =
    user.liveRoles.map UserRole.scope := by
  simp only [User.liveRoles,User.staff,List.filter_map]
  rfl

theorem mem_liveRoles : userRole ∈ user.liveRoles ↔ userRole ∈ user.userRoles ∧ userRole.live user = true := by
  simp [User.liveRoles]

/-- The code's set, read off the assignments. -/
theorem allowed_of_staff (staff : isOwner user = false) : allowedBranchIds user =
    match user.defaultBranchId with
    | some assigned => some (assigned :: user.liveRoles.filterMap UserRole.branchId)
    | none => if user.liveRoles.any (·.branchId.isNone) || (user.liveRoles.filterMap UserRole.branchId).isEmpty then none
      else some (user.liveRoles.filterMap UserRole.branchId) := by
  have ids : (user.liveRoles.map UserRole.scope).filterMap BranchScope.UserRole.branchId =
      user.liveRoles.filterMap UserRole.branchId := by
    rw [List.filterMap_map]
    rfl
  have unscoped : ((user.liveRoles.map UserRole.scope).any fun userRole => userRole.branchId.isNone) =
      user.liveRoles.any (·.branchId.isNone) := by
    rw [List.any_map]
    rfl
  have owner : ((user.liveRoles.map UserRole.scope).any fun userRole =>
      (user.staff.liveRole userRole).any fun role => role.name.toLower = "owner") = false := by
    rw [List.any_map,List.any_eq_false]
    intro userRole inside
    have unowned := List.any_eq_false.mp staff userRole (mem_liveRoles.mp inside).1
    simpa using unowned
  unfold allowedBranchIds BranchScope.allowedBranchIds
  simp only [scopes_live,owner,ids,unscoped]
  rfl

theorem mem_scopes : branchId ∈ user.liveRoles.filterMap UserRole.branchId ↔
    ∃ userRole ∈ user.userRoles, userRole.live user = true ∧ userRole.branchId = some branchId := by
  simp [mem_liveRoles,and_assoc]

theorem wide_opens (wide : user.liveRoles.any (·.branchId.isNone) = true ∨
    (user.liveRoles.filterMap UserRole.branchId).isEmpty = true) :
    user.liveRoles.any (·.branchId.isNone) = true ∨ user.liveRoles = [] := by
  rcases wide with unscoped | none_scoped
  · exact .inl unscoped
  · cases live : user.liveRoles with
    | nil => exact .inr rfl
    | cons userRole rest =>
      simp only [live,List.isEmpty_iff,List.filterMap_eq_nil_iff] at none_scoped
      have bare := none_scoped userRole List.mem_cons_self
      simp [bare]

/-- A user with neither an assigned branch nor a live assignment is not limited. -/
theorem assertBranchAccess_iff (staff : isOwner user = false) :
    assertBranchAccess user branchId = .ok () ↔
      Opens user branchId ∨ (user.defaultBranchId = none ∧ user.liveRoles = []) := by
  have passes : assertBranchAccess user branchId = .ok () ↔
      BranchScope.assertBranchAccess (allowedBranchIds user) branchId = true := by
    unfold assertBranchAccess
    split <;> simp_all
  rw [passes,BranchScope.assertBranchAccess,allowed_of_staff staff,Opens,← mem_scopes]
  cases user.defaultBranchId with
  | some assigned =>
    simp only [Option.all_some,List.contains_cons,Bool.or_eq_true,beq_iff_eq,List.contains_iff_mem,Option.some.injEq,
      reduceCtorEq,false_and,or_false]
    exact or_congr_left eq_comm
  | none =>
    have unscoped : (∃ userRole ∈ user.userRoles, userRole.live user = true ∧ userRole.branchId = none) ↔
        user.liveRoles.any (·.branchId.isNone) = true := by
      simp [User.liveRoles]
    simp only [reduceCtorEq,false_or,true_and,unscoped]
    split
    next wide =>
      rcases wide_opens (by simpa using wide) with unscoped | idle
      · simp [unscoped]
      · simp [idle]
    next narrow =>
      simp only [Bool.or_eq_true,not_or] at narrow
      have busy : user.liveRoles ≠ [] := by
        intro idle
        simp [idle] at narrow
      simp [narrow.1,busy]

theorem mem_keysAt : permissionKey ∈ keysAt user branchId ↔ ∃ userRole, UserRole.Grants user permissionKey userRole ∧ userRole.Covers branchId := by
  simp only [keysAt,List.mem_flatMap,List.mem_filter,UserRole.Grants,UserRole.Covers]
  constructor
  · rintro ⟨userRole,⟨inside,covers⟩,key⟩
    exact ⟨userRole,⟨inside,key⟩,fun scope set => by simpa [Option.mem_def.mp set] using covers⟩
  · rintro ⟨userRole,⟨inside,key⟩,covers⟩
    refine ⟨userRole,⟨inside,?_⟩,key⟩
    cases set : userRole.branchId with
    | none => rfl
    | some scope => simpa using covers scope set

theorem Opens.of_grants (grants : UserRole.Grants user permissionKey userRole) (bound : userRole.branchId = some branchId) :
    Opens user branchId := .inr (.inl ⟨userRole,grants.1,live_of_key grants.2,bound⟩)

/-- A branch the query dependency settles on passes the branch check. -/
theorem effectiveBranch_accessible {requested : Option Nat} (settled : effectiveBranch user requested = .ok (some branchId)) :
    assertBranchAccess user branchId = .ok () := by
  unfold effectiveBranch at settled
  cases allowed : allowedBranchIds user with
  | none => simp [assertBranchAccess,BranchScope.assertBranchAccess,allowed]
  | some branches =>
    cases requested with
    | some requested =>
      cases checked : assertBranchAccess user requested with
      | error refusal => simp [allowed,checked,Except.map] at settled
      | ok done =>
        simp only [allowed,checked,Except.map,Except.ok.injEq,Option.some.injEq] at settled
        rw [← settled,checked]
    | none =>
      simp only [allowed] at settled
      split at settled
      next only single =>
        have member : only ∈ branches := by rw [← List.mem_dedup,single]; exact List.mem_singleton_self only
        simp only [Except.ok.injEq,Option.some.injEq] at settled
        simp [assertBranchAccess,BranchScope.assertBranchAccess,allowed,← settled,member]
      next => simp at settled

theorem Uniform.paired (uniform : Uniform user) (staff : isOwner user = false) (granted : requirePermission permissionKey user = .ok user)
    (passed : assertBranchAccess user branchId = .ok ()) :
    ∃ userRole, UserRole.Grants user permissionKey userRole ∧ userRole.Covers branchId := by
  obtain ⟨userRole,grants⟩ := requirePermission_iff.mp granted
  -- the assignment that grants the key is live, so the user is limited
  have live : userRole ∈ user.liveRoles := mem_liveRoles.mpr ⟨grants.1,live_of_key grants.2⟩
  have opened : Opens user branchId := by
    rcases (assertBranchAccess_iff staff).mp passed with opened | ⟨-,idle⟩
    · exact opened
    · simp [idle] at live
  cases bound : userRole.branchId with
  | none => exact ⟨userRole,grants,by simp [UserRole.Covers,bound]⟩
  | some scope =>
    have own : permissionKey ∈ keysAt user scope := mem_keysAt.mpr ⟨userRole,grants,by simp [UserRole.Covers,bound]⟩
    exact mem_keysAt.mp (uniform scope branchId (.of_grants grants bound) opened own)

theorem Uniform.settled (uniform : Uniform user) (staff : isOwner user = false) (granted : requirePermission permissionKey user = .ok user)
    {requested : Option Nat} (settled : effectiveBranch user requested = .ok (some branchId)) :
    ∃ userRole, UserRole.Grants user permissionKey userRole ∧ userRole.Covers branchId :=
  uniform.paired staff granted (effectiveBranch_accessible settled)

/-- No permission reaches a branch by way of two assignments exactly where the assignments give the same keys at every open branch. -/
theorem permission_confined (user : User) (staff : isOwner user = false) :
    (∀ permissionKey branchId, requirePermission permissionKey user = .ok user → assertBranchAccess user (some branchId) = .ok () →
      ∃ userRole, UserRole.Grants user permissionKey userRole ∧ userRole.Covers branchId) ↔ Uniform user := by
  constructor
  · intro confined branchId other _ opened permissionKey here
    obtain ⟨userRole,grants,-⟩ := mem_keysAt.mp here
    exact mem_keysAt.mpr (confined permissionKey other (requirePermission_iff.mpr ⟨userRole,grants⟩)
      ((assertBranchAccess_iff staff).mpr (.inl opened)))
  · exact fun uniform permissionKey branchId granted passed => uniform.paired staff granted passed

/-- Cashier of branches 1 and 2. -/
def cashier : User :=
  ⟨0,0,none,
    [⟨0,some 1,some ⟨0,"Cashier",false,[⟨0,some "sales.view"⟩]⟩,false⟩,
      ⟨0,some 2,some ⟨0,"Cashier",false,[⟨0,some "sales.view"⟩]⟩,false⟩]⟩

theorem permission_confined_cashier :
    isOwner cashier = false ∧ ∀ permissionKey branchId, requirePermission permissionKey cashier = .ok cashier →
      assertBranchAccess cashier (some branchId) = .ok () →
        ∃ userRole, UserRole.Grants cashier permissionKey userRole ∧ userRole.Covers branchId := by
  have staff : isOwner cashier = false := by decide +kernel
  refine ⟨staff,(permission_confined cashier staff).mpr fun branchId other opened opened' => ?_⟩
  have keys {branchId : Nat} (opened : Opens cashier branchId) : keysAt cashier branchId = ["sales.view"] := by
    rcases opened with assigned | ⟨userRole,inside,-,bound⟩ | ⟨-,userRole,inside,-,bound⟩
    · cases assigned
    · simp only [cashier,List.mem_cons,List.not_mem_nil,or_false] at inside
      rcases inside with rfl | rfl <;> cases bound <;> decide +kernel
    · simp only [cashier,List.mem_cons,List.not_mem_nil,or_false] at inside
      rcases inside with rfl | rfl <;> cases bound
  rw [keys opened,keys opened']
  exact List.Subset.refl _

/-- Cashier of branch 1, who voids sales only as the manager of branch 2. -/
def managerElsewhere : User :=
  ⟨0,0,none,
    [⟨0,some 1,some ⟨0,"Cashier",false,[⟨0,some "sales.view"⟩]⟩,false⟩,
      ⟨0,some 2,some ⟨0,"Manager",false,[⟨0,some "sales.view"⟩,⟨0,some "sales.void"⟩]⟩,false⟩]⟩

theorem permission_spills :
    isOwner managerElsewhere = false ∧ requirePermission "sales.void" managerElsewhere = .ok managerElsewhere ∧
      assertBranchAccess managerElsewhere (some 1) = .ok () ∧
      ¬∃ userRole, UserRole.Grants managerElsewhere "sales.void" userRole ∧ userRole.Covers 1 := by
  refine ⟨by decide +kernel,by decide +kernel,by decide +kernel,?_⟩
  intro paired
  obtain ⟨userRole,⟨inside,key⟩,covers⟩ := paired
  have assigned : userRole ∈ managerElsewhere.userRoles := inside
  simp only [managerElsewhere,List.mem_cons,List.not_mem_nil,or_false] at assigned
  rcases assigned with rfl | rfl
  · simp [UserRole.permissionKeys,managerElsewhere] at key
  · simp [UserRole.Covers] at covers

end Permissions
