import Mathlib.Data.List.Dedup
import SasBackend.Library.Outcome
import SasBackend.Semantics.Roles

/-! The owner's permissions are kept, the audit log tells every change of a role's permissions, and seeding adds only what
is missing.
-/
namespace Roles
open Outcome (bind_ok_iff)
open Service (refuseIf_ok)

variable {platform : Platform} {s t u : State} {businessId roleId other i : Nat} {role : Role} {keys : List String} {key : String}

theorem map_ok_iff {ε α β : Type} {x : Except ε α} {f : α → β} {b : β} : x.map f = .ok b ↔ ∃ a, x = .ok a ∧ f a = b := by
  cases x <;> simp [Except.map]

theorem mem_sorted : key ∈ sorted keys ↔ key ∈ keys := (List.perm_insertionSort _ _).mem_iff

theorem nodup_sorted : (sorted keys).Nodup ↔ keys.Nodup := (List.perm_insertionSort _ _).nodup_iff

theorem sorted_eq {first second : List String} (left : first.Nodup) (right : second.Nodup)
    (same : ∀ key, key ∈ first ↔ key ∈ second) : sorted first = sorted second := by
  have perm := (List.perm_ext_iff_of_nodup left right).mpr same
  have sorted_perm : (sorted first).Perm (sorted second) :=
    ((List.perm_insertionSort _ _).trans perm).trans (List.perm_insertionSort _ _).symm
  exact sorted_perm.eq_of_pairwise' (List.pairwise_insertionSort _ _) (List.pairwise_insertionSort _ _)

/-- Links are distinct, and name roles of their business and permissions that are there. -/
structure Sound (s : State) : Prop where
  permissions : s.permissions.Nodup
  links : s.rolePermissions.Nodup
  linked : ∀ row ∈ s.rolePermissions, row.permissionId < s.permissions.length ∧
    ∃ role, s.roles[row.roleId]? = some role ∧ role.businessId = row.businessId

theorem mem_keysOf : key ∈ s.keysOf businessId roleId ↔ ∃ row ∈ s.rolePermissions,
    row.businessId = businessId ∧ row.roleId = roleId ∧ s.permissions[row.permissionId]? = some key := by
  simp [State.keysOf,mem_sorted,State.linksOf,and_assoc]

theorem permission_of_key (found : key ∈ s.keysOf businessId roleId) : key ∈ s.permissions := by
  obtain ⟨row,_,_,_,there⟩ := mem_keysOf.mp found
  exact List.mem_of_getElem? there

theorem place_unique {a b : Nat} (sound : Sound s) (here : s.permissions[a]? = some key) (there : s.permissions[b]? = some key) :
    a = b := by
  obtain ⟨small,_⟩ := List.getElem?_eq_some_iff.mp here
  exact (List.getElem?_inj small sound.permissions).mp (here.trans there.symm)

theorem nodup_keysOf (sound : Sound s) (businessId roleId : Nat) : (s.keysOf businessId roleId).Nodup := by
  rw [State.keysOf,nodup_sorted]
  have ids : ((s.linksOf businessId roleId).map Link.permissionId).Nodup := by
    refine (sound.links.filter _).map_on ?_
    intro a here b there same
    obtain ⟨_,first⟩ := List.mem_filter.mp here
    obtain ⟨_,second⟩ := List.mem_filter.mp there
    simp only [Bool.and_eq_true,decide_eq_true_eq] at first second
    cases a
    cases b
    simp_all
  have keyed : (s.linksOf businessId roleId).filterMap (fun link => s.permissions[link.permissionId]?) =
      ((s.linksOf businessId roleId).map Link.permissionId).filterMap fun id => s.permissions[id]? := by
    rw [List.filterMap_map]
    rfl
  rw [keyed]
  exact ids.filterMap fun a b key here there => place_unique sound here there

theorem keysOf_eq (sound : Sound s) (next : Sound t)
    (same : ∀ key, key ∈ t.keysOf businessId roleId ↔ key ∈ s.keysOf businessId roleId) :
    t.keysOf businessId roleId = s.keysOf businessId roleId := by
  have left := nodup_keysOf next businessId roleId
  have right := nodup_keysOf sound businessId roleId
  simp only [State.keysOf,nodup_sorted,mem_sorted] at left right same
  exact sorted_eq left right same

def add (s : State) (businessId roleId : Nat) (keys : List String) : State :=
  { s with rolePermissions := s.rolePermissions ++ link s businessId roleId keys }

theorem mem_link {row : Link} : row ∈ link s businessId roleId keys ↔
    ∃ key ∈ keys, row = ⟨businessId,roleId,s.permissions.idxOf key⟩ := by
  simp [link,eq_comm]

theorem mem_keysOf_add (known : ∀ key ∈ keys, key ∈ s.permissions) : key ∈ (add s businessId roleId keys).keysOf businessId roleId ↔
    key ∈ s.keysOf businessId roleId ∨ key ∈ keys := by
  simp only [mem_keysOf,add,List.mem_append,mem_link]
  constructor
  · rintro ⟨row,old | ⟨name,inside,rfl⟩,own,mine,there⟩
    · exact .inl ⟨row,old,own,mine,there⟩
    · rw [List.getElem?_idxOf (known name inside)] at there
      cases there
      exact .inr inside
  · rintro (⟨row,old,own,mine,there⟩ | inside)
    · exact ⟨row,.inl old,own,mine,there⟩
    · exact ⟨_,.inr ⟨key,inside,rfl⟩,rfl,rfl,List.getElem?_idxOf (known key inside)⟩

theorem mem_keysOf_add_other {business : Nat} (apart : ¬(business = businessId ∧ i = roleId)) :
    key ∈ (add s businessId roleId keys).keysOf business i ↔ key ∈ s.keysOf business i := by
  simp only [mem_keysOf,add,List.mem_append,mem_link]
  constructor
  · rintro ⟨row,old | ⟨name,inside,rfl⟩,own,mine,there⟩
    · exact ⟨row,old,own,mine,there⟩
    · exact absurd ⟨own.symm,mine.symm⟩ apart
  · rintro ⟨row,old,own,mine,there⟩
    exact ⟨row,.inl old,own,mine,there⟩

theorem sound_add (sound : Sound s) (found : s.roles[roleId]? = some role) (own : role.businessId = businessId)
    (fresh : ∀ key ∈ keys, key ∈ s.permissions ∧ key ∉ s.keysOf businessId roleId) (nodup : keys.Nodup) :
    Sound (add s businessId roleId keys) := by
  refine ⟨sound.permissions,?_,?_⟩
  · rw [add,List.nodup_append']
    refine ⟨sound.links,?_,?_⟩
    · refine nodup.map_on ?_
      intro a here b _ same
      exact List.idxOf_inj (fresh a here).1 |>.mp (Link.mk.inj same).2.2
    · intro row old new
      obtain ⟨name,inside,rfl⟩ := mem_link.mp new
      exact (fresh name inside).2 (mem_keysOf.mpr ⟨_,old,rfl,rfl,List.getElem?_idxOf (fresh name inside).1⟩)
  · intro row inside
    rcases List.mem_append.mp inside with old | new
    · exact sound.linked row old
    · obtain ⟨name,there,rfl⟩ := mem_link.mp new
      exact ⟨List.idxOf_lt_length_of_mem (fresh name there).1,role,found,own⟩

/-- The state with the links of the role to other keys taken away. -/
def keepOnly (s : State) (businessId roleId : Nat) (keys : List String) : State :=
  { s with rolePermissions := s.rolePermissions.filter fun row => !(row.businessId = businessId && row.roleId = roleId) ||
      (s.permissions[row.permissionId]?).all (· ∈ keys) }

theorem sound_keepOnly (sound : Sound s) : Sound (keepOnly s businessId roleId keys) :=
  ⟨sound.permissions,sound.links.filter _,fun row inside => sound.linked row (List.mem_of_mem_filter inside)⟩

theorem mem_keysOf_keepOnly : key ∈ (keepOnly s businessId roleId keys).keysOf businessId roleId ↔
    key ∈ s.keysOf businessId roleId ∧ key ∈ keys := by
  simp only [mem_keysOf,keepOnly,List.mem_filter]
  constructor
  · rintro ⟨row,⟨inside,kept⟩,own,mine,there⟩
    rw [own,mine,there] at kept
    exact ⟨⟨row,inside,own,mine,there⟩,by simpa using kept⟩
  · rintro ⟨⟨row,inside,own,mine,there⟩,kept⟩
    refine ⟨row,⟨inside,?_⟩,own,mine,there⟩
    rw [there]
    simp [kept]

theorem mem_keysOf_keepOnly_other {business : Nat} (apart : ¬(business = businessId ∧ i = roleId)) :
    key ∈ (keepOnly s businessId roleId keys).keysOf business i ↔ key ∈ s.keysOf business i := by
  simp only [mem_keysOf,keepOnly,List.mem_filter]
  constructor
  · rintro ⟨row,⟨inside,_⟩,own,mine,there⟩
    exact ⟨row,inside,own,mine,there⟩
  · rintro ⟨row,inside,rfl,rfl,there⟩
    refine ⟨row,⟨inside,?_⟩,rfl,rfl,there⟩
    simp [not_and_or.mp apart]

theorem relinked_eq (s : State) (businessId roleId : Nat) (keys : List String) : relinked s businessId roleId keys =
    add (keepOnly s businessId roleId keys) businessId roleId (keys.filter (· ∉ s.keysOf businessId roleId)) := rfl

section Relinked
variable (sound : Sound s) (known : ∀ key ∈ keys, key ∈ s.permissions)
include known

theorem mem_keysOf_relinked : key ∈ (relinked s businessId roleId keys).keysOf businessId roleId ↔ key ∈ keys := by
  have added : ∀ key ∈ keys.filter (· ∉ s.keysOf businessId roleId),
      key ∈ (keepOnly s businessId roleId keys).permissions := fun key inside => known key (List.mem_of_mem_filter inside)
  rw [relinked_eq,mem_keysOf_add added,mem_keysOf_keepOnly,List.mem_filter]
  by_cases held : key ∈ s.keysOf businessId roleId <;> simp [held]

include sound

theorem sound_relinked (nodup : keys.Nodup) (found : s.roles[roleId]? = some role) (own : role.businessId = businessId) :
    Sound (relinked s businessId roleId keys) := by
  rw [relinked_eq]
  refine sound_add (sound_keepOnly sound) found own ?_ (nodup.filter _)
  intro key inside
  obtain ⟨there,new⟩ := List.mem_filter.mp inside
  refine ⟨known key there,?_⟩
  intro held
  exact of_decide_eq_true new (mem_keysOf_keepOnly.mp held).1

end Relinked

theorem mem_keysOf_relinked_other {business : Nat} (apart : ¬(business = businessId ∧ i = roleId)) :
    key ∈ (relinked s businessId roleId keys).keysOf business i ↔ key ∈ s.keysOf business i := by
  rw [relinked_eq,mem_keysOf_add_other apart,mem_keysOf_keepOnly_other apart]

theorem resolve_ok {found : List String} (resolved : resolvePermissionsByKeys s keys = .ok found) :
    found = sorted keys.dedup ∧ ∀ key ∈ found, key ∈ s.permissions := by
  unfold resolvePermissionsByKeys at resolved
  split at resolved
  next nothing =>
    cases resolved
    rw [List.isEmpty_iff.mp nothing]
    exact ⟨rfl,by simp⟩
  · split at resolved
    next complete =>
      cases resolved
      refine ⟨rfl,fun key inside => ?_⟩
      have absent := List.filter_eq_nil_iff.mp (List.isEmpty_iff.mp complete) key inside
      simpa using absent
    · cases resolved

theorem refuseStripped_ok {permissionKeys : List String} {done : Unit}
    (checked : refuseStripped platform s role permissionKeys = .ok done) (owner : role.isOwner platform = true) :
    ∀ key ∈ requiredOwnerPermissionKeys s, key ∈ permissionKeys := by
  intro key required
  by_contra absent
  have inside : key ∈ sorted ((requiredOwnerPermissionKeys s).filter (· ∉ permissionKeys)) :=
    mem_sorted.mpr (List.mem_filter.mpr ⟨required,by simpa using absent⟩)
  have some_stripped : (sorted ((requiredOwnerPermissionKeys s).filter (· ∉ permissionKeys))).isEmpty = false := by
    rw [Bool.eq_false_iff]
    intro nothing
    rw [List.isEmpty_iff.mp nothing] at inside
    cases inside
  simp only [refuseStripped,owner,some_stripped,Bool.not_false,Bool.and_self,if_true] at checked
  cases checked

theorem replacePermissions_ok {permissionKeys before after : List String}
    (done : replacePermissions platform s roleId role permissionKeys = .ok (t,before,after)) :
    (role.isOwner platform = true → ∀ key ∈ requiredOwnerPermissionKeys s, key ∈ permissionKeys) ∧
      after = sorted permissionKeys.dedup ∧ (∀ key ∈ after, key ∈ s.permissions) ∧
      before = s.keysOf role.businessId roleId ∧ t = relinked s role.businessId roleId after := by
  unfold replacePermissions at done
  obtain ⟨_,checked,done⟩ := bind_ok_iff.mp done
  obtain ⟨found,resolved,done⟩ := bind_ok_iff.mp done
  cases done
  obtain ⟨given,known⟩ := resolve_ok resolved
  exact ⟨refuseStripped_ok checked,given,known,rfl,rfl⟩

theorem findRole_some : findRole s roleId businessId = some role ↔
    s.roles[roleId]? = some role ∧ role.businessId = businessId ∧ role.deletedAt = none := by
  simp [findRole,Option.filter_eq_some_iff]

theorem getRoleById_ok : getRoleById s roleId businessId = .ok role ↔ findRole s roleId businessId = some role := by
  unfold getRoleById
  split <;> simp_all

theorem insertRole_ok (done : insertRole s role = .ok t) : t = { s with roles := s.roles ++ [role] } := by
  unfold insertRole at done
  split at done <;> cases done
  rfl

theorem setRole_ok (done : setRole s roleId role = .ok t) : t = { s with roles := s.roles.set roleId role } := by
  unfold setRole at done
  split at done <;> cases done
  rfl

theorem relinked_nil (fresh : ∀ row ∈ s.rolePermissions, row.roleId ≠ roleId) :
    relinked s businessId roleId [] = s := by
  have all_kept : s.rolePermissions.filter (fun row => !(row.businessId = businessId && row.roleId = roleId) ||
      (s.permissions[row.permissionId]?).all (· ∈ ([] : List String))) = s.rolePermissions := by
    rw [List.filter_eq_self]
    intro row inside
    simp [fresh row inside]
  simp only [relinked,all_kept,link,List.filter_nil,List.map_nil,List.append_nil]

def grown (s : State) (role : Role) : State := { s with roles := s.roles ++ [role] }

def newRole (platform : Platform) (businessId : Nat) (data : CreateRoleRequest) : Role :=
  ⟨businessId,platform.strip data.name,data.description,false,none⟩

theorem fresh_links (sound : Sound s) : ∀ row ∈ s.rolePermissions, row.roleId ≠ s.roles.length := by
  intro row inside same
  obtain ⟨_,role,found,_⟩ := sound.linked row inside
  exact (List.getElem?_eq_some_iff.mp found).1.ne same

/-- The state with one more role, its permissions set. -/
theorem createRole_ok {data : CreateRoleRequest} {createdBy : Nat} (sound : Sound s)
    (done : createRole platform s businessId data createdBy = .ok u) :
    (∀ key ∈ sorted data.permissionKeys.dedup, key ∈ s.permissions) ∧
      u = logAudit (relinked (grown s (newRole platform businessId data)) businessId s.roles.length
        (sorted data.permissionKeys.dedup)) businessId createdBy s.roles.length
          (.created (platform.strip data.name) (sorted data.permissionKeys)) := by
  unfold createRole at done
  obtain ⟨_,_,done⟩ := bind_ok_iff.mp done
  obtain ⟨t,inserted,done⟩ := bind_ok_iff.mp done
  obtain ⟨v,linked,done⟩ := bind_ok_iff.mp done
  cases done
  cases insertRole_ok inserted
  unfold initialPermissions at linked
  split at linked
  next nothing =>
    cases linked
    have none_given : sorted data.permissionKeys.dedup = [] := by
      rw [List.isEmpty_iff.mp nothing]
      rfl
    have unchanged : relinked (grown s (newRole platform businessId data)) businessId s.roles.length [] =
        grown s (newRole platform businessId data) := relinked_nil (fresh_links sound)
    rw [none_given,unchanged]
    exact ⟨by simp,rfl⟩
  · obtain ⟨⟨w,before,after⟩,replaced,rfl⟩ := map_ok_iff.mp linked
    obtain ⟨_,rfl,known,_,rfl⟩ := replacePermissions_ok replaced
    exact ⟨known,rfl⟩

theorem updateRole_ok {data : UpdateRoleRequest} {updatedBy : Nat}
    (done : updateRole platform s roleId businessId data updatedBy = .ok t) :
    ∃ role later : Role, findRole s roleId businessId = some role ∧ later.businessId = role.businessId ∧
      later.isSystem = role.isSystem ∧ later.deletedAt = role.deletedAt ∧ (role.isSystem = true → later.name = role.name) ∧
      t = logAudit { s with roles := s.roles.set roleId later } businessId updatedBy roleId
        (.updated (role.name,role.description) (later.name,later.description)) := by
  unfold updateRole at done
  obtain ⟨role,read,done⟩ := bind_ok_iff.mp done
  obtain ⟨name,named,done⟩ := bind_ok_iff.mp done
  obtain ⟨u,changed,done⟩ := bind_ok_iff.mp done
  cases done
  cases setRole_ok changed
  refine ⟨role,{ role with name := name, description := data.description.or role.description },getRoleById_ok.mp read,rfl,
    rfl,rfl,?_,rfl⟩
  intro system
  unfold renamed at named
  split at named
  · cases named
    rfl
  · rw [if_pos system] at named
    cases named

theorem deleteRole_ok {deletedBy : Nat} {now : Int} (done : deleteRole s roleId businessId deletedBy now = .ok t) :
    ∃ role, findRole s roleId businessId = some role ∧ role.isSystem = false ∧
      t = logAudit { s with roles := s.roles.set roleId { role with deletedAt := some now } } businessId deletedBy roleId
        (.deleted role.name) := by
  unfold deleteRole at done
  obtain ⟨role,read,done⟩ := bind_ok_iff.mp done
  obtain ⟨_,custom,done⟩ := bind_ok_iff.mp done
  obtain ⟨_,_,done⟩ := bind_ok_iff.mp done
  cases done
  exact ⟨role,getRoleById_ok.mp read,refuseIf_ok.mp custom,rfl⟩

theorem replaceRolePermissions_ok {updatedBy : Nat}
    (done : replaceRolePermissions platform s roleId businessId keys updatedBy = .ok t) :
    ∃ role, findRole s roleId businessId = some role ∧
      (role.isOwner platform = true → ∀ key ∈ requiredOwnerPermissionKeys s, key ∈ keys) ∧
      (∀ key ∈ sorted keys.dedup, key ∈ s.permissions) ∧
      t = logAudit (relinked s businessId roleId (sorted keys.dedup)) businessId updatedBy roleId
        (.replaced role.name (s.keysOf businessId roleId) (sorted keys.dedup)
          ((sorted keys.dedup).filter (· ∉ s.keysOf businessId roleId))
          ((s.keysOf businessId roleId).filter (· ∉ sorted keys.dedup))) := by
  unfold replaceRolePermissions at done
  obtain ⟨role,read,done⟩ := bind_ok_iff.mp done
  obtain ⟨⟨u,before,after⟩,replaced,done⟩ := bind_ok_iff.mp done
  cases done
  have found := getRoleById_ok.mp read
  obtain ⟨_,rfl,_⟩ := findRole_some.mp found
  obtain ⟨owner,rfl,known,rfl,rfl⟩ := replacePermissions_ok replaced
  have once : keys.dedup.dedup = keys.dedup := List.dedup_idem
  rw [once] at known ⊢
  exact ⟨role,found,fun own key required => List.mem_dedup.mp (owner own key required),known,rfl⟩

theorem keysOf_eq_sorted (sound : Sound s) (nodup : keys.Nodup)
    (same : ∀ key, key ∈ s.keysOf businessId roleId ↔ key ∈ keys) : s.keysOf businessId roleId = sorted keys := by
  have left := nodup_keysOf sound businessId roleId
  simp only [State.keysOf,nodup_sorted,mem_sorted] at left same
  exact sorted_eq left nodup same

theorem keysOf_fresh (sound : Sound s) (absent : s.roles[i]? = none) : s.keysOf businessId i = [] := by
  rw [List.eq_nil_iff_forall_not_mem]
  intro key inside
  obtain ⟨row,there,_,rfl,_⟩ := mem_keysOf.mp inside
  obtain ⟨_,role,found,_⟩ := sound.linked row there
  rw [absent] at found
  cases found

theorem keysOf_relinked_other (sound : Sound s) (next : Sound (relinked s businessId roleId keys)) (apart : i ≠ roleId)
    (business : Nat) : (relinked s businessId roleId keys).keysOf business i = s.keysOf business i :=
  keysOf_eq sound next fun _ => mem_keysOf_relinked_other fun same => apart same.2

theorem sorted_difference {before : List String} (held : before.Nodup) (nodup : keys.Nodup) :
    sorted keys = sorted (before.filter (· ∉ before.filter (· ∉ sorted keys)) ++ (sorted keys).filter (· ∉ before)) := by
  refine sorted_eq nodup ?_ ?_
  · rw [List.nodup_append']
    refine ⟨held.filter _,(nodup_sorted.mpr nodup).filter _,?_⟩
    intro key old new
    exact of_decide_eq_true (List.mem_filter.mp new).2 (List.mem_of_mem_filter old)
  · intro key
    by_cases inside : key ∈ before <;> simp [mem_sorted,inside]

/-- An entry of the log as a step from the keys before it to the keys after, where it is about the role; what is recorded has
to fit. -/
def replayOne (roleId : Nat) (keys : List String) (entry : AuditLog) : Option (List String) :=
  if entry.recordId = roleId then
    match entry.change with
    | .created _ permissionKeys => if keys = [] then some (sorted permissionKeys.dedup) else none
    | .replaced _ before after added removed =>
      if before = keys ∧ after = sorted (before.filter (· ∉ removed) ++ added) then some after else none
    | _ => some keys
  else some keys

def replay (roleId : Nat) (keys : List String) (entries : List AuditLog) : Option (List String) :=
  entries.foldlM (replayOne roleId) keys

/-- Every change of a role's keys is in the log. -/
def Logged (s t : State) : Prop := ∃ entries, t.auditLogs = s.auditLogs ++ entries ∧
  ∀ i businessId, (∀ role, t.roles[i]? = some role → role.businessId = businessId) →
    replay i (s.keysOf businessId i) entries = some (t.keysOf businessId i)

def ownerKeys : List String := allPermissionKeys ++ ownerLegacyPermissionKeys

/-- Roles stay in their places; a system role keeps its name and stays, and the owner's permissions stay. -/
structure Keeps (platform : Platform) (s t : State) : Prop where
  roles : ∀ (i : Nat) (role : Role), s.roles[i]? = some role → ∃ later, t.roles[i]? = some later ∧
    later.businessId = role.businessId ∧ later.isSystem = role.isSystem ∧
    (role.isSystem = true → later.name = role.name ∧ later.deletedAt = role.deletedAt)
  owner : ∀ (i : Nat) (role : Role), s.roles[i]? = some role → role.isOwner platform = true → ∀ key ∈ ownerKeys,
    key ∈ s.keysOf role.businessId i → key ∈ t.keysOf role.businessId i

theorem Keeps.refl : Keeps platform s s :=
  ⟨fun _ role found => ⟨role,found,rfl,rfl,fun _ => ⟨rfl,rfl⟩⟩,fun _ _ _ _ _ _ inside => inside⟩

theorem Keeps.trans (first : Keeps platform s t) (second : Keeps platform t u) : Keeps platform s u := by
  constructor
  · intro i role found
    obtain ⟨middle,there,own,system,same⟩ := first.roles i role found
    obtain ⟨later,final,business,kind,kept⟩ := second.roles i middle there
    refine ⟨later,final,business.trans own,kind.trans system,?_⟩
    intro marked
    obtain ⟨name,deleted⟩ := same marked
    obtain ⟨named,gone⟩ := kept (system.trans marked)
    exact ⟨named.trans name,gone.trans deleted⟩
  · intro i role found owner key required inside
    obtain ⟨middle,there,own,system,same⟩ := first.roles i role found
    have marked : role.isSystem = true := by
      simp only [Role.isOwner,Bool.and_eq_true] at owner
      exact owner.1
    have still : middle.isOwner platform = true := by
      rw [Role.isOwner,system,(same marked).1]
      exact owner
    have kept := first.owner i role found owner key required inside
    rw [← own] at kept ⊢
    exact second.owner i middle there still key required kept

theorem Logged.refl : Logged s s := ⟨[],by simp,fun _ _ _ => rfl⟩

theorem Logged.trans (keeps : Keeps platform t u) (first : Logged s t) (second : Logged t u) : Logged s u := by
  obtain ⟨entries,written,told⟩ := first
  obtain ⟨more,added,later⟩ := second
  refine ⟨entries ++ more,by rw [added,written,List.append_assoc],?_⟩
  intro i businessId owned
  have before := told i businessId fun role found => by
    obtain ⟨final,there,own,_⟩ := keeps.roles i role found
    exact own.symm.trans (owned final there)
  rw [replay,List.foldlM_append]
  change (replay i _ entries >>= fun keys => replay i keys more) = _
  rw [before]
  exact later i businessId owned

theorem logged_entry {entry : AuditLog} (written : t.auditLogs = s.auditLogs ++ [entry])
    (about : ∀ businessId, (∀ role, t.roles[entry.recordId]? = some role → role.businessId = businessId) →
      replayOne entry.recordId (s.keysOf businessId entry.recordId) entry = some (t.keysOf businessId entry.recordId))
    (others : ∀ i businessId, i ≠ entry.recordId → t.keysOf businessId i = s.keysOf businessId i) : Logged s t := by
  refine ⟨[entry],written,?_⟩
  intro i businessId owned
  rw [replay,List.foldlM_cons]
  by_cases mine : i = entry.recordId
  · subst mine
    rw [about businessId owned]
    rfl
  · rw [replayOne,if_neg (Ne.symm mine),others i businessId mine]
    rfl

theorem sound_grown (sound : Sound s) (role : Role) : Sound (grown s role) := by
  refine ⟨sound.permissions,sound.links,?_⟩
  intro row inside
  obtain ⟨small,found,there,own⟩ := sound.linked row inside
  have before : row.roleId < s.roles.length := (List.getElem?_eq_some_iff.mp there).1
  exact ⟨small,found,(List.getElem?_append_left before).trans there,own⟩

theorem sound_set {later : Role} (sound : Sound s) (found : s.roles[roleId]? = some role) (own : later.businessId = role.businessId) :
    Sound { s with roles := s.roles.set roleId later } := by
  refine ⟨sound.permissions,sound.links,?_⟩
  intro row inside
  obtain ⟨small,held,there,business⟩ := sound.linked row inside
  refine ⟨small,?_⟩
  by_cases mine : row.roleId = roleId
  · have inRange : roleId < s.roles.length := (List.getElem?_eq_some_iff.mp found).1
    rw [mine] at there ⊢
    cases found.symm.trans there
    exact ⟨later,by simp [inRange],own.trans business⟩
  · exact ⟨held,by simpa [List.getElem?_set_ne (Ne.symm mine)] using there,business⟩

theorem sound_logAudit {recordId userId : Nat} {change : Change} (sound : Sound s) :
    Sound (logAudit s businessId userId recordId change) := ⟨sound.permissions,sound.links,sound.linked⟩

theorem keeps_grown {new : Role} (roles : t.roles = s.roles ++ [new])
    (keys : ∀ (i : Nat) (role : Role), s.roles[i]? = some role → ∀ key ∈ s.keysOf role.businessId i, key ∈ t.keysOf role.businessId i) :
    Keeps platform s t := by
  constructor
  · intro i role found
    have small : i < s.roles.length := (List.getElem?_eq_some_iff.mp found).1
    exact ⟨role,by rw [roles,List.getElem?_append_left small,found],rfl,rfl,fun _ => ⟨rfl,rfl⟩⟩
  · intro i role found _ key _ inside
    exact keys i role found key inside

theorem keeps_set (later : Role) (found : s.roles[roleId]? = some role) (own : later.businessId = role.businessId)
    (system : later.isSystem = role.isSystem)
    (kept : role.isSystem = true → later.name = role.name ∧ later.deletedAt = role.deletedAt)
    (roles : t.roles = s.roles.set roleId later) (keys : ∀ businessId i, t.keysOf businessId i = s.keysOf businessId i) :
    Keeps platform s t := by
  constructor
  · intro i before there
    by_cases mine : i = roleId
    · subst mine
      cases found.symm.trans there
      have small : i < s.roles.length := (List.getElem?_eq_some_iff.mp found).1
      exact ⟨later,by rw [roles]; simp [small],own,system,kept⟩
    · exact ⟨before,by rw [roles,List.getElem?_set_ne (Ne.symm mine),there],rfl,rfl,fun _ => ⟨rfl,rfl⟩⟩
  · intro i before there _ key _ inside
    rwa [keys]

theorem step_createRole {data : CreateRoleRequest} {createdBy : Nat} (sound : Sound s)
    (done : createRole platform s businessId data createdBy = .ok t) : Sound t ∧ Keeps platform s t ∧ Logged s t := by
  obtain ⟨known,rfl⟩ := createRole_ok sound done
  have nodup : (sorted data.permissionKeys.dedup).Nodup := nodup_sorted.mpr (List.nodup_dedup _)
  have larger := sound_grown sound (newRole platform businessId data)
  have found : (grown s (newRole platform businessId data)).roles[s.roles.length]? = some (newRole platform businessId data) := by
    simp [grown]
  have next := sound_relinked larger known nodup found rfl
  refine ⟨sound_logAudit next,keeps_grown rfl ?_,?_⟩
  · intro i role there key inside
    have small : i < s.roles.length := (List.getElem?_eq_some_iff.mp there).1
    exact (mem_keysOf_relinked_other fun same => small.ne same.2).mpr inside
  · refine logged_entry rfl ?_ ?_
    · intro business owned
      have own : businessId = business := owned _ found
      subst own
      have nothing : s.keysOf businessId s.roles.length = [] := keysOf_fresh sound (List.getElem?_eq_none le_rfl)
      have same : (relinked (grown s (newRole platform businessId data)) businessId s.roles.length
          (sorted data.permissionKeys.dedup)).keysOf businessId s.roles.length = sorted data.permissionKeys.dedup :=
        keysOf_eq_sorted next (List.nodup_dedup _) fun key => (mem_keysOf_relinked known).trans mem_sorted
      have recorded : sorted (sorted data.permissionKeys).dedup = sorted data.permissionKeys.dedup :=
        sorted_eq (List.nodup_dedup _) (List.nodup_dedup _) fun key => by
          rw [List.mem_dedup,List.mem_dedup,mem_sorted]
      simp only [replayOne,logAudit,if_true,nothing]
      rw [recorded]
      exact congrArg some same.symm
    · intro i business apart
      exact keysOf_relinked_other larger next apart business

theorem step_updateRole {data : UpdateRoleRequest} {updatedBy : Nat} (sound : Sound s)
    (done : updateRole platform s roleId businessId data updatedBy = .ok t) : Sound t ∧ Keeps platform s t ∧ Logged s t := by
  obtain ⟨role,later,read,own,system,deleted,name,rfl⟩ := updateRole_ok done
  have found := (findRole_some.mp read).1
  refine ⟨sound_logAudit (sound_set sound found own),?_,?_⟩
  · exact keeps_set later found own system (fun marked => ⟨name marked,deleted⟩) rfl fun _ _ => rfl
  · exact logged_entry rfl (fun _ _ => if_pos rfl) fun _ _ _ => rfl

theorem step_deleteRole {deletedBy : Nat} {now : Int} (sound : Sound s)
    (done : deleteRole s roleId businessId deletedBy now = .ok t) : Sound t ∧ Keeps platform s t ∧ Logged s t := by
  obtain ⟨role,read,custom,rfl⟩ := deleteRole_ok done
  have found := (findRole_some.mp read).1
  refine ⟨sound_logAudit (sound_set sound found rfl),?_,?_⟩
  · exact keeps_set { role with deletedAt := some now } found rfl rfl (fun marked => absurd (custom.symm.trans marked) Bool.false_ne_true) rfl fun _ _ => rfl
  · exact logged_entry rfl (fun _ _ => if_pos rfl) fun _ _ _ => rfl

theorem step_replaceRolePermissions {updatedBy : Nat} (sound : Sound s)
    (done : replaceRolePermissions platform s roleId businessId keys updatedBy = .ok t) :
    Sound t ∧ Keeps platform s t ∧ Logged s t := by
  obtain ⟨role,read,owner,known,rfl⟩ := replaceRolePermissions_ok done
  obtain ⟨found,own,_⟩ := findRole_some.mp read
  have nodup : (sorted keys.dedup).Nodup := nodup_sorted.mpr (List.nodup_dedup _)
  have next := sound_relinked sound known nodup found own
  refine ⟨sound_logAudit next,?_,?_⟩
  · constructor
    · intro i before there
      exact ⟨before,there,rfl,rfl,fun _ => ⟨rfl,rfl⟩⟩
    · intro i before there protected_ key required inside
      by_cases mine : before.businessId = businessId ∧ i = roleId
      · obtain ⟨business,rfl⟩ := mine
        cases found.symm.trans there
        have given : key ∈ keys := owner protected_ key (List.mem_filter.mpr ⟨permission_of_key inside,decide_eq_true required⟩)
        rw [business]
        exact (mem_keysOf_relinked known).mpr (mem_sorted.mpr (List.mem_dedup.mpr given))
      · exact (mem_keysOf_relinked_other mine).mpr inside
  · refine logged_entry rfl ?_ ?_
    · intro business owned
      have same_business : businessId = business := own.symm.trans (owned _ found)
      subst same_business
      have same : (relinked s businessId roleId (sorted keys.dedup)).keysOf businessId roleId = sorted keys.dedup :=
        keysOf_eq_sorted next (List.nodup_dedup _) fun key => (mem_keysOf_relinked known).trans mem_sorted
      have held := nodup_keysOf sound businessId roleId
      have told := sorted_difference held (List.nodup_dedup keys)
      rw [replayOne,if_pos rfl]
      exact (if_pos ⟨rfl,told⟩).trans (congrArg some same.symm)
    · intro i business apart
      exact keysOf_relinked_other sound next apart business

theorem step_others {permissions : List String} {assigned : List (Nat × Nat)} (sound : Sound s) :
    let t : State := { s with
      permissions := s.permissions ++ permissions.dedup.filter (· ∉ s.permissions)
      assigned := assigned }
    Sound t ∧ Keeps platform s t ∧ Logged s t := by
  intro t
  have place : ∀ row ∈ s.rolePermissions, t.permissions[row.permissionId]? = s.permissions[row.permissionId]? :=
    fun row inside => List.getElem?_append_left (sound.linked row inside).1
  have next : Sound t := by
    refine ⟨?_,sound.links,?_⟩
    · rw [List.nodup_append']
      refine ⟨sound.permissions,(List.nodup_dedup _).filter _,?_⟩
      intro key old new
      exact of_decide_eq_true (List.mem_filter.mp new).2 old
    · intro row inside
      obtain ⟨small,held⟩ := sound.linked row inside
      exact ⟨small.trans_le (by simp [t]),held⟩
  have keys : ∀ businessId i, t.keysOf businessId i = s.keysOf businessId i := by
    intro business i
    refine keysOf_eq sound next fun key => ?_
    rw [mem_keysOf,mem_keysOf]
    refine exists_congr fun row => and_congr_right fun inside => ?_
    rw [place row inside]
  refine ⟨next,⟨fun i role found => ⟨role,found,rfl,rfl,fun _ => ⟨rfl,rfl⟩⟩,?_⟩,[],by simp [t],?_⟩
  · intro i role _ _ key _ inside
    rwa [keys]
  · intro i business _
    rw [keys]
    rfl

theorem unlinked_fresh : ∀ key ∈ unlinked s businessId roleId keys, key ∈ s.permissions ∧ key ∉ s.keysOf businessId roleId := by
  intro key inside
  obtain ⟨there,missing⟩ := List.mem_filter.mp inside
  simp only [Bool.and_eq_true,decide_eq_true_eq] at missing
  exact ⟨there,missing.2⟩

theorem sound_seed (sound : Sound s) (found : s.roles[roleId]? = some role) (own : role.businessId = businessId) :
    Sound (seedRolePermissions s businessId roleId keys).1 :=
  sound_add sound found own unlinked_fresh (sound.permissions.filter _)

theorem mem_keysOf_seed : key ∈ (seedRolePermissions s businessId roleId keys).1.keysOf businessId roleId ↔
    key ∈ s.keysOf businessId roleId ∨ key ∈ s.permissions ∧ key ∈ keys := by
  have added := @mem_keysOf_add s businessId roleId (unlinked s businessId roleId keys) key
    fun key inside => (unlinked_fresh key inside).1
  refine Iff.trans added ?_
  simp only [unlinked,List.mem_filter,Bool.and_eq_true,decide_eq_true_eq]
  tauto

theorem keeps_seed : Keeps platform s (seedRolePermissions s businessId roleId keys).1 := by
  constructor
  · intro i role found
    exact ⟨role,found,rfl,rfl,fun _ => ⟨rfl,rfl⟩⟩
  · intro i role _ _ key _ inside
    by_cases mine : role.businessId = businessId ∧ i = roleId
    · obtain ⟨rfl,rfl⟩ := mine
      exact mem_keysOf_seed.mpr (.inl inside)
    · exact (mem_keysOf_add_other mine).mpr inside

theorem getOrCreate_ok {roleName description : String} {found : Role × Nat} {created : Bool}
    (done : getOrCreateStandardRole platform s businessId roleName description = .ok (t,found,created)) :
    t.roles[found.2]? = some found.1 ∧ found.1.businessId = businessId ∧ (t = s ∨ ∃ new, t = grown s new) := by
  unfold getOrCreateStandardRole at done
  split at done
  · obtain ⟨u,inserted,done⟩ := bind_ok_iff.mp done
    cases insertRole_ok inserted
    cases done
    exact ⟨by simp,rfl,.inr ⟨_,rfl⟩⟩
  next single =>
    cases done
    have inside : found ∈ liveNamed platform s businessId (platform.lower roleName) := by
      rw [single]
      exact List.mem_singleton_self found
    obtain ⟨there,live⟩ := List.mem_filter.mp inside
    simp only [Bool.and_eq_true,decide_eq_true_eq] at live
    exact ⟨List.mem_zipIdx_iff_getElem?.mp there,live.1.1,.inl rfl⟩
  · cases done

theorem step_ensureEach {names : List (String × String)} {stats counted : SeedStats} (sound : Sound s)
    (done : ensureEach platform businessId names s stats = .ok (u,counted)) : Sound u ∧ Keeps platform s u := by
  induction names generalizing s stats with
  | nil =>
    cases done
    exact ⟨sound,.refl⟩
  | cons name names induction =>
    obtain ⟨⟨t,found,created⟩,got,done⟩ := bind_ok_iff.mp done
    obtain ⟨keys,_,done⟩ := bind_ok_iff.mp done
    obtain ⟨there,own,grew⟩ := getOrCreate_ok got
    have first : Sound t ∧ Keeps platform s t := by
      rcases grew with rfl | ⟨new,rfl⟩
      · exact ⟨sound,.refl⟩
      · exact ⟨sound_grown sound new,keeps_grown rfl fun _ _ _ _ inside => inside⟩
    obtain ⟨final,kept⟩ := induction (sound_seed first.1 there own) done
    exact ⟨final,first.2.trans (keeps_seed.trans kept)⟩

def Request.seeds : Request → Bool
  | .ensureStandardRoles _ => true
  | _ => false

theorem answer_kept {request : Request} (sound : Sound s) (done : answer platform s request = .ok t) :
    Sound t ∧ Keeps platform s t ∧ (request.seeds = false → Logged s t) := by
  cases request with
  | createRole businessId data createdBy =>
    obtain ⟨next,keeps,logged⟩ := step_createRole sound done
    exact ⟨next,keeps,fun _ => logged⟩
  | updateRole roleId businessId data updatedBy =>
    obtain ⟨next,keeps,logged⟩ := step_updateRole sound done
    exact ⟨next,keeps,fun _ => logged⟩
  | deleteRole roleId businessId deletedBy now =>
    obtain ⟨next,keeps,logged⟩ := step_deleteRole sound done
    exact ⟨next,keeps,fun _ => logged⟩
  | replaceRolePermissions roleId businessId keys updatedBy =>
    obtain ⟨next,keeps,logged⟩ := step_replaceRolePermissions sound done
    exact ⟨next,keeps,fun _ => logged⟩
  | ensureStandardRoles businessId =>
    obtain ⟨⟨u,counted⟩,seeded,rfl⟩ := map_ok_iff.mp done
    obtain ⟨next,keeps⟩ := step_ensureEach sound seeded
    exact ⟨next,keeps,fun never => Bool.noConfusion never⟩
  | others permissions assigned =>
    cases done
    obtain ⟨next,keeps,logged⟩ := step_others sound
    exact ⟨next,keeps,fun _ => logged⟩

theorem served_kept (sound : Sound s) (request : Request) : Sound (served platform s request) ∧
    Keeps platform s (served platform s request) ∧ (request.seeds = false → Logged s (served platform s request)) := by
  unfold served Service.served
  split
  next done => exact answer_kept sound done
  · exact ⟨sound,.refl,fun _ => .refl⟩

theorem run_kept (sound : Sound s) (requests : List Request) : Sound (requests.foldl (served platform) s) ∧
    Keeps platform s (requests.foldl (served platform) s) ∧
    ((∀ request ∈ requests, request.seeds = false) → Logged s (requests.foldl (served platform) s)) := by
  induction requests generalizing s with
  | nil => exact ⟨sound,.refl,fun _ => .refl⟩
  | cons request requests induction =>
    obtain ⟨next,keeps,logged⟩ := served_kept sound request
    obtain ⟨final,later,told⟩ := induction next
    refine ⟨final,keeps.trans later,?_⟩
    intro quiet
    obtain ⟨first,rest⟩ := List.forall_mem_cons.mp quiet
    exact (logged first).trans later (told rest)

theorem sound_init : Sound .init := ⟨List.nodup_nil,List.nodup_nil,by simp [State.init]⟩

/-- In every run a system role keeps its name and is never deleted, the owner keeps every permission of its default set that
it once had, and the audit log tells all keys of all roles between two seedings. -/
theorem roles_kept (platform : Platform) (requests more : List Request) :
    (∀ (i : Nat) (role : Role), (requests.foldl (served platform) .init).roles[i]? = some role → role.isSystem = true →
      (∃ later, ((requests ++ more).foldl (served platform) .init).roles[i]? = some later ∧
        later.businessId = role.businessId ∧ later.isSystem = true ∧ later.name = role.name ∧
        later.deletedAt = role.deletedAt) ∧
      (platform.lower role.name = "owner" → ∀ key ∈ ownerKeys,
        key ∈ (requests.foldl (served platform) .init).keysOf role.businessId i →
        key ∈ ((requests ++ more).foldl (served platform) .init).keysOf role.businessId i)) ∧
    ((∀ request ∈ more, request.seeds = false) →
      ∃ entries, ((requests ++ more).foldl (served platform) .init).auditLogs =
          (requests.foldl (served platform) .init).auditLogs ++ entries ∧
        ∀ (i : Nat) (role : Role), ((requests ++ more).foldl (served platform) .init).roles[i]? = some role →
          replay i ((requests.foldl (served platform) .init).keysOf role.businessId i) entries =
            some (((requests ++ more).foldl (served platform) .init).keysOf role.businessId i)) := by
  rw [List.foldl_append]
  obtain ⟨sound,_,_⟩ := @run_kept platform _ sound_init requests
  obtain ⟨_,keeps,told⟩ := @run_kept platform _ sound more
  constructor
  · intro i role found system
    obtain ⟨later,there,own,kind,same⟩ := keeps.roles i role found
    obtain ⟨name,deleted⟩ := same system
    refine ⟨⟨later,there,own,kind.trans system,name,deleted⟩,?_⟩
    intro owner key required inside
    exact keeps.owner i role found (by simp [Role.isOwner,system,owner]) key required inside
  · intro quiet
    obtain ⟨entries,written,replayed⟩ := told quiet
    refine ⟨entries,written,fun i role found => replayed i role.businessId fun other there => ?_⟩
    cases found.symm.trans there
    rfl

variable {roleName description : String}

/-- A role of the business has exactly the name, deleted or not. -/
def Held (s : State) (businessId : Nat) (roleName : String) : Prop := ∃ role ∈ s.roles, role.businessId = businessId ∧ role.name = roleName

/-- There is no live role with the name, and a deleted one stands in the way of a new one. -/
def Blocked (platform : Platform) (s : State) (businessId : Nat) (roleName : String) : Prop :=
  firstNamed platform s businessId roleName = none ∧ Held s businessId roleName

instance : Decidable (Blocked platform s businessId roleName) :=
  inferInstanceAs (Decidable (_ ∧ ∃ role ∈ s.roles, role.businessId = businessId ∧ role.name = roleName))

/-- What a later state and an earlier one have to do with a name in the same way. -/
structure Alike (platform : Platform) (s t : State) (businessId : Nat) (roleName : String) : Prop where
  permissions : t.permissions = s.permissions
  first : firstNamed platform t businessId roleName = firstNamed platform s businessId roleName
  keys : ∀ i, firstNamed platform s businessId roleName = some i → t.keysOf businessId i = s.keysOf businessId i
  held : Held t businessId roleName ↔ Held s businessId roleName

/-- The role is there and has the permissions of its set. -/
def Complete (platform : Platform) (s : State) (businessId : Nat) (roleName : String) : Prop :=
  ∃ i keys, permissionKeysForRole platform roleName = .ok keys ∧ firstNamed platform s businessId roleName = some i ∧
    unlinked s businessId i keys = []

theorem Alike.refl : Alike platform s s businessId roleName := ⟨rfl,rfl,fun _ _ => rfl,Iff.rfl⟩

theorem Alike.trans (first : Alike platform s t businessId roleName) (second : Alike platform t u businessId roleName) :
    Alike platform s u businessId roleName :=
  ⟨second.permissions.trans first.permissions,second.first.trans first.first,
    fun i found => (second.keys i (first.first.trans found)).trans (first.keys i found),second.held.trans first.held⟩

theorem Alike.unlinked (alike : Alike platform s t businessId roleName)
    (found : firstNamed platform s businessId roleName = some i) (keys : List String) :
    unlinked t businessId i keys = Roles.unlinked s businessId i keys := by
  rw [Roles.unlinked,Roles.unlinked,alike.permissions,alike.keys i found]

theorem Complete.alike (complete : Complete platform s businessId roleName) (alike : Alike platform s t businessId roleName) :
    Complete platform t businessId roleName := by
  obtain ⟨i,keys,named,found,nothing⟩ := complete
  exact ⟨i,keys,named,alike.first.trans found,(alike.unlinked found keys).trans nothing⟩

theorem firstNamed_some (found : firstNamed platform s businessId roleName = some i) : ∃ role, s.roles[i]? = some role ∧
    role.businessId = businessId ∧ platform.sqlLower role.name = platform.sqlLower roleName ∧ role.deletedAt = none := by
  obtain ⟨⟨role,place⟩,here,rfl⟩ := Option.map_eq_some_iff.mp found
  have there := List.mem_zipIdx_iff_getElem?.mp (List.mem_of_find?_eq_some here)
  have live := List.find?_some here
  simp only [Bool.and_eq_true,decide_eq_true_eq,Option.isNone_iff_eq_none] at live
  exact ⟨role,there,live.1.1,live.1.2,live.2⟩

theorem firstNamed_grown {new : Role} (alive : new.deletedAt = none) : firstNamed platform (grown s new) businessId roleName =
    (firstNamed platform s businessId roleName).or
      (if new.businessId = businessId ∧ platform.sqlLower new.name = platform.sqlLower roleName then some s.roles.length
        else none) := by
  have split : (s.roles ++ [new]).zipIdx = s.roles.zipIdx ++ [(new,s.roles.length)] := by
    rw [List.zipIdx_append]
    simp
  simp only [firstNamed,grown,split,List.find?_append]
  by_cases own : new.businessId = businessId ∧ platform.sqlLower new.name = platform.sqlLower roleName
  · cases s.roles.zipIdx.find? _ <;> simp [own,alive]
  · cases s.roles.zipIdx.find? _ <;> simp [own,alive]

/-- Nothing is taken away. -/
structure Grows (s t : State) : Prop where
  roles : ∃ new, t.roles = s.roles ++ new
  keys : ∀ businessId i, ∀ key ∈ s.keysOf businessId i, key ∈ t.keysOf businessId i

theorem Grows.refl : Grows s s := ⟨⟨[],by simp⟩,fun _ _ _ inside => inside⟩

theorem Grows.trans (first : Grows s t) (second : Grows t u) : Grows s u := by
  obtain ⟨new,grew⟩ := first.roles
  obtain ⟨later,grown⟩ := second.roles
  exact ⟨⟨new ++ later,by rw [grown,grew,List.append_assoc]⟩,
    fun business i key inside => second.keys business i key (first.keys business i key inside)⟩

theorem grows_seed : Grows s (seedRolePermissions s businessId roleId keys).1 := by
  refine ⟨⟨[],(List.append_nil _).symm⟩,fun business i key inside => ?_⟩
  by_cases mine : business = businessId ∧ i = roleId
  · obtain ⟨rfl,rfl⟩ := mine
    exact mem_keysOf_seed.mpr (.inl inside)
  · exact (mem_keysOf_add_other mine).mpr inside

/-- What one step of the backfill does: a dry run says the same, and other names are none of its business. -/
structure Ensured (platform : Platform) (s t : State) (businessId : Nat) (roleName description : String) (created : Bool)
    (linked : Nat) : Prop where
  sound : Sound t
  grows : Grows s t
  dry : ensureRoleSync platform true s businessId roleName description = .ok (s,created,linked)
  complete : Complete platform t businessId roleName
  others : ∀ business name, ¬(business = businessId ∧ platform.sqlLower name = platform.sqlLower roleName) →
    Alike platform s t business name

theorem unlinked_seed : unlinked (seedRolePermissions s businessId i keys).1 businessId i keys = [] := by
  rw [unlinked,List.filter_eq_nil_iff]
  intro key there missing
  simp only [Bool.and_eq_true,decide_eq_true_eq] at missing
  exact missing.2 (mem_keysOf_seed.mpr (.inr ⟨there,missing.1⟩))

theorem ensured_seed (sound : Sound s) (named : permissionKeysForRole platform roleName = .ok keys)
    (found : firstNamed platform s businessId roleName = some i) : Ensured platform s (seedRolePermissions s businessId i keys).1
      businessId roleName description false (unlinked s businessId i keys).length := by
  obtain ⟨role,there,own,name,_⟩ := firstNamed_some found
  have next : Sound (seedRolePermissions s businessId i keys).1 := sound_seed sound there own
  refine ⟨next,grows_seed,?_,⟨i,keys,named,found,unlinked_seed⟩,?_⟩
  · simp only [ensureRoleSync,named,found,Outcome.ok_bind]
    rfl
  · intro business other apart
    refine ⟨rfl,rfl,fun j same => keysOf_eq sound next fun key => mem_keysOf_add_other fun both => ?_,Iff.rfl⟩
    obtain ⟨rfl,rfl⟩ := both
    obtain ⟨held,here,_,text,_⟩ := firstNamed_some same
    cases there.symm.trans here
    exact apart ⟨rfl,text.symm.trans name⟩

theorem alike_grown {new : Role} (alive : new.deletedAt = none)
    (apart : ¬(new.businessId = businessId ∧ platform.sqlLower new.name = platform.sqlLower roleName)) :
    Alike platform s (grown s new) businessId roleName := by
  refine ⟨rfl,?_,fun _ _ => rfl,?_⟩
  · rw [firstNamed_grown alive,if_neg apart,Option.or_none]
  · constructor
    · rintro ⟨role,inside,own,name⟩
      rcases List.mem_append.mp inside with old | fresh
      · exact ⟨role,old,own,name⟩
      · rw [List.mem_singleton.mp fresh] at own name
        exact absurd ⟨own,by rw [name]⟩ apart
    · rintro ⟨role,inside,known⟩
      exact ⟨role,List.mem_append_left _ inside,known⟩

theorem ensureRoleSync_ok {created : Bool} {linked : Nat} (sound : Sound s)
    (done : ensureRoleSync platform false s businessId roleName description = .ok (t,created,linked)) :
    Ensured platform s t businessId roleName description created linked := by
  obtain ⟨keys,named,done⟩ := bind_ok_iff.mp done
  cases found : firstNamed platform s businessId roleName with
  | some i =>
    rw [found] at done
    cases done
    exact ensured_seed sound named found
  | none =>
    rw [found] at done
    obtain ⟨u,inserted,done⟩ := bind_ok_iff.mp done
    cases insertRole_ok inserted
    cases done
    let new : Role := ⟨businessId,roleName,some description,true,none⟩
    have here : firstNamed platform (grown s new) businessId roleName = some s.roles.length := by
      rw [firstNamed_grown rfl,found,if_pos ⟨rfl,rfl⟩]
      rfl
    have seeded := @ensured_seed platform _ businessId _ keys roleName description (sound_grown sound new) named here
    have nothing : s.keysOf businessId s.roles.length = [] := keysOf_fresh sound (List.getElem?_eq_none le_rfl)
    have fresh : (grown s new).keysOf businessId s.roles.length = [] := nothing
    have all_missing : unlinked (grown s new) businessId s.roles.length keys = available s keys := by
      simp only [unlinked,fresh,available,List.not_mem_nil,not_false_eq_true,decide_true,Bool.and_true]
      rfl
    have grows : Grows s (grown s new) := ⟨⟨[new],rfl⟩,fun _ _ _ inside => inside⟩
    refine ⟨seeded.sound,grows.trans seeded.grows,?_,seeded.complete,?_⟩
    · simp only [ensureRoleSync,named,found,Outcome.ok_bind]
      rw [← all_missing]
      rfl
    · intro business other apart
      exact (alike_grown rfl fun both => apart ⟨both.1.symm,both.2.symm⟩).trans (seeded.others business other apart)

theorem taken_iff {new : Role} : UniqueKeys.taken Role.key s.roles new = true ↔ Held s new.businessId new.name := by
  simp [UniqueKeys.taken,Role.key,Held]

theorem Blocked.alike (alike : Alike platform s t businessId roleName) : Blocked platform t businessId roleName ↔ Blocked platform s businessId roleName := by
  rw [Blocked,Blocked,alike.first,alike.held]

theorem ensureRoleSync_ends (named : permissionKeysForRole platform roleName = .ok keys) :
    (¬Blocked platform s businessId roleName ∧ ∃ t created linked,
      ensureRoleSync platform false s businessId roleName description = .ok (t,created,linked)) ∨
    (Blocked platform s businessId roleName ∧
      ensureRoleSync platform false s businessId roleName description = .error .uncaught) := by
  simp only [ensureRoleSync,named,Outcome.ok_bind,Blocked]
  cases found : firstNamed platform s businessId roleName with
  | some i => exact .inl ⟨by simp,_,_,_,rfl⟩
  | none =>
    by_cases held : Held s businessId roleName
    · have refused : UniqueKeys.taken Role.key s.roles ⟨businessId,roleName,some description,true,none⟩ = true :=
        taken_iff.mpr held
      refine .inr ⟨⟨rfl,held⟩,?_⟩
      rw [insertRole,if_pos refused]
      rfl
    · have free : ¬UniqueKeys.taken Role.key s.roles ⟨businessId,roleName,some description,true,none⟩ = true :=
        fun taken => held (taken_iff.mp taken)
      refine .inl ⟨fun blocked => held blocked.2,?_⟩
      rw [insertRole,if_neg free]
      exact ⟨_,_,_,rfl⟩

theorem ensureRoleSync_dry (named : permissionKeysForRole platform roleName = .ok keys) :
    ∃ created linked, ensureRoleSync platform true s businessId roleName description = .ok (s,created,linked) := by
  simp only [ensureRoleSync,named,Outcome.ok_bind]
  cases firstNamed platform s businessId roleName with
  | some i => exact ⟨_,_,rfl⟩
  | none => exact ⟨_,_,rfl⟩

theorem ensureRoleSync_complete (complete : Complete platform s businessId roleName) (dryRun : Bool) :
    ensureRoleSync platform dryRun s businessId roleName description = .ok (s,false,0) := by
  obtain ⟨i,keys,named,found,nothing⟩ := complete
  simp only [ensureRoleSync,named,found,Outcome.ok_bind,seedRolePermissions,nothing,link,List.map_nil,List.append_nil]
  cases dryRun <;> rfl

theorem ensureRoleSync_alike {created : Bool} {linked : Nat} (alike : Alike platform s t businessId roleName)
    (dry : ensureRoleSync platform true t businessId roleName description = .ok (t,created,linked)) :
    ensureRoleSync platform true s businessId roleName description = .ok (s,created,linked) := by
  obtain ⟨keys,named,done⟩ := bind_ok_iff.mp dry
  have counted : available t keys = available s keys := by rw [available,available,alike.permissions]
  rw [alike.first] at done
  simp only [ensureRoleSync,named,Outcome.ok_bind]
  cases found : firstNamed platform s businessId roleName with
  | some i =>
    rw [found] at done
    simp only [alike.unlinked found keys] at done ⊢
    cases done
    rfl
  | none =>
    rw [found] at done
    simp only [counted] at done ⊢
    cases done
    rfl

/-- What the names of a business, or of several, come to: told by a dry run of an alike state, and complete. -/
structure Told (platform : Platform) (s t : State) (pairs : List (Nat × String)) : Prop where
  sound : Sound t
  grows : Grows s t
  complete : ∀ pair ∈ pairs, Complete platform t pair.1 pair.2
  others : ∀ business name, (∀ pair ∈ pairs, ¬(business = pair.1 ∧ platform.sqlLower name = platform.sqlLower pair.2)) →
    Alike platform s t business name

theorem Told.refl (sound : Sound s) : Told platform s s [] := ⟨sound,.refl,by simp,fun _ _ _ => .refl⟩

theorem Told.trans {first second : List (Nat × String)} (left : Told platform s t first) (right : Told platform t u second)
    (apart : ∀ a ∈ first, ∀ b ∈ second, ¬(a.1 = b.1 ∧ platform.sqlLower a.2 = platform.sqlLower b.2)) :
    Told platform s u (first ++ second) := by
  refine ⟨right.sound,left.grows.trans right.grows,?_,?_⟩
  · intro pair inside
    rcases List.mem_append.mp inside with here | there
    · exact (left.complete pair here).alike (right.others _ _ (apart pair here))
    · exact right.complete pair there
  · intro business name away
    exact (left.others business name fun pair inside => away pair (List.mem_append_left _ inside)).trans
      (right.others business name fun pair inside => away pair (List.mem_append_right _ inside))

theorem Ensured.told {created : Bool} {linked : Nat}
    (ensured : Ensured platform s t businessId roleName description created linked) :
    Told platform s t [(businessId,roleName)] :=
  ⟨ensured.sound,ensured.grows,by simpa using ensured.complete,
    fun business name away => ensured.others business name (away _ (List.mem_singleton_self _))⟩

def pairsOf (businessId : Nat) (names : List (String × String)) : List (Nat × String) := names.map fun row => (businessId,row.1)

variable {names : List (String × String)} {stats counted : SeedStats}

theorem ensureEachSync_ok (sound : Sound s) (distinct : (names.map fun row => platform.sqlLower row.1).Nodup)
    (done : ensureEachSync platform false businessId names s stats = .ok (t,counted)) :
    Told platform s t (pairsOf businessId names) ∧ ∀ r, (∀ row ∈ names, Alike platform r s businessId row.1) →
      ensureEachSync platform true businessId names r stats = .ok (r,counted) := by
  induction names generalizing s stats with
  | nil =>
    cases done
    exact ⟨Told.refl sound,fun r _ => rfl⟩
  | cons row names induction =>
    obtain ⟨roleName,description⟩ := row
    obtain ⟨⟨u,created,linked⟩,first,rest⟩ := bind_ok_iff.mp done
    obtain ⟨new,distinct⟩ := List.nodup_cons.mp distinct
    have ensured := ensureRoleSync_ok sound first
    obtain ⟨told,dry⟩ := induction ensured.sound distinct rest
    have apart : ∀ later ∈ names, platform.sqlLower later.1 ≠ platform.sqlLower roleName :=
      fun later inside same => new (List.mem_map.mpr ⟨later,inside,same⟩)
    refine ⟨ensured.told.trans told ?_,fun r alike => ?_⟩
    · intro pair here other there
      cases List.mem_singleton.mp here
      obtain ⟨later,inside,rfl⟩ := List.mem_map.mp there
      exact fun both => apart later inside both.2.symm
    · obtain ⟨own,others⟩ := List.forall_mem_cons.mp alike
      have after : ∀ later ∈ names, Alike platform r u businessId later.1 := fun later inside =>
        (others later inside).trans (ensured.others businessId later.1 fun both => apart later inside both.2)
      simp only [ensureEachSync,ensureRoleSync_alike own ensured.dry,Outcome.ok_bind]
      exact dry r after

theorem ensureEachSync_dry (known : ∀ row ∈ names, ∃ keys, permissionKeysForRole platform row.1 = .ok keys) :
    ∃ counted, ensureEachSync platform true businessId names s stats = .ok (s,counted) := by
  induction names generalizing stats with
  | nil => exact ⟨stats,rfl⟩
  | cons row names induction =>
    obtain ⟨⟨keys,named⟩,others⟩ := List.forall_mem_cons.mp known
    obtain ⟨created,linked,done⟩ := @ensureRoleSync_dry platform s businessId keys row.1 row.2 named
    simp only [ensureEachSync,done,Outcome.ok_bind]
    exact induction others

theorem ensureEachSync_ends (sound : Sound s) (known : ∀ row ∈ names, ∃ keys, permissionKeysForRole platform row.1 = .ok keys)
    (distinct : (names.map fun row => platform.sqlLower row.1).Nodup) :
    ((∀ row ∈ names, ¬Blocked platform s businessId row.1) ∧
      ∃ t counted, ensureEachSync platform false businessId names s stats = .ok (t,counted)) ∨
    ((∃ row ∈ names, Blocked platform s businessId row.1) ∧
      ensureEachSync platform false businessId names s stats = .error .uncaught) := by
  induction names generalizing s stats with
  | nil => exact .inl ⟨by simp,s,stats,rfl⟩
  | cons row names induction =>
    obtain ⟨⟨keys,named⟩,others⟩ := List.forall_mem_cons.mp known
    obtain ⟨new,distinct⟩ := List.nodup_cons.mp distinct
    rcases @ensureRoleSync_ends platform s businessId keys row.1 row.2 named with
      ⟨free,u,created,linked,done⟩ | ⟨blocked,failed⟩
    · have ensured := ensureRoleSync_ok sound done
      -- The names that are left meet what they would have met before this one.
      have same : ∀ later ∈ names, (Blocked platform u businessId later.1 ↔ Blocked platform s businessId later.1) :=
        fun later inside => Blocked.alike (ensured.others businessId later.1 fun both =>
          new (List.mem_map.mpr ⟨later,inside,both.2⟩))
      simp only [ensureEachSync,done,Outcome.ok_bind]
      rcases induction ensured.sound others distinct with ⟨rest,ends⟩ | ⟨⟨later,inside,blocked⟩,ends⟩
      · exact .inl ⟨List.forall_mem_cons.mpr ⟨free,fun later inside => (same later inside).not.mp (rest later inside)⟩,ends⟩
      · exact .inr ⟨⟨later,List.mem_cons_of_mem _ inside,(same later inside).mp blocked⟩,ends⟩
    · refine .inr ⟨⟨row,List.mem_cons_self,blocked⟩,?_⟩
      simp only [ensureEachSync,failed,Outcome.error_bind]

theorem ensureEachSync_complete (complete : ∀ row ∈ names, Complete platform s businessId row.1) (dryRun : Bool) :
    ensureEachSync platform dryRun businessId names s stats = .ok (s,stats) := by
  induction names with
  | nil => rfl
  | cons row names induction =>
    obtain ⟨first,rest⟩ := List.forall_mem_cons.mp complete
    simp only [ensureEachSync,ensureRoleSync_complete first,Outcome.ok_bind]
    exact induction rest

def pairsOfAll (businesses : List Nat) : List (Nat × String) := businesses.flatMap fun businessId => pairsOf businessId standardRoles

theorem backfill_ok {businesses : List Nat} {totals sum : SeedStats} {perBusiness : List (Nat × SeedStats)} (sound : Sound s)
    (distinct : (standardRoles.map fun row => platform.sqlLower row.1).Nodup) (separate : businesses.Nodup)
    (done : backfillRolePermissions platform false businesses s totals = .ok (t,sum,perBusiness)) :
    Told platform s t (pairsOfAll businesses) ∧ ∀ r, (∀ pair ∈ pairsOfAll businesses, Alike platform r s pair.1 pair.2) →
      backfillRolePermissions platform true businesses r totals = .ok (r,sum,perBusiness) := by
  induction businesses generalizing s totals sum perBusiness with
  | nil =>
    cases done
    exact ⟨Told.refl sound,fun r _ => rfl⟩
  | cons businessId businesses induction =>
    obtain ⟨⟨u,stats⟩,first,done⟩ := bind_ok_iff.mp done
    obtain ⟨⟨v,later,rows⟩,rest,done⟩ := bind_ok_iff.mp done
    cases done
    obtain ⟨new,separate⟩ := List.nodup_cons.mp separate
    obtain ⟨here,dry⟩ := ensureEachSync_ok sound distinct first
    obtain ⟨there,final⟩ := induction here.sound separate rest
    have apart : ∀ a ∈ pairsOf businessId standardRoles, ∀ b ∈ pairsOfAll businesses, a.1 ≠ b.1 := by
      intro a inside b among same
      obtain ⟨row,_,rfl⟩ := List.mem_map.mp inside
      obtain ⟨other,member,found⟩ := List.mem_flatMap.mp among
      obtain ⟨name,_,rfl⟩ := List.mem_map.mp found
      cases (same : businessId = other)
      exact new member
    refine ⟨here.trans there fun a inside b among both => apart a inside b among both.1,fun r alike => ?_⟩
    obtain ⟨own,others⟩ := List.forall_mem_append.mp alike
    have told : ensureStandardRolesAndPermissionsSync platform true r businessId = .ok (r,stats) :=
      dry r fun row inside => own _ (List.mem_map_of_mem inside)
    have after : ∀ pair ∈ pairsOfAll businesses, Alike platform r u pair.1 pair.2 := fun pair inside =>
      (others pair inside).trans (here.others pair.1 pair.2 fun a among both => apart a among pair inside both.1.symm)
    simp only [backfillRolePermissions,told,final r after,Outcome.ok_bind]
    rfl

/-- The names of the standard roles are in lower case. -/
structure Plain (platform : Platform) : Prop where
  lower : ∀ row ∈ standardRoles, platform.lower row.1 = row.1
  sqlLower : ∀ row ∈ standardRoles, platform.sqlLower row.1 = row.1

theorem Plain.known (plain : Plain platform) : ∀ row ∈ standardRoles, ∃ keys, permissionKeysForRole platform row.1 = .ok keys := by
  intro row inside
  simp only [permissionKeysForRole,plain.lower row inside]
  simp only [standardRoles,List.mem_cons,List.not_mem_nil,or_false] at inside
  rcases inside with rfl | rfl | rfl <;> exact ⟨_,rfl⟩

theorem Plain.distinct (plain : Plain platform) : (standardRoles.map fun row => platform.sqlLower row.1).Nodup := by
  rw [List.map_congr_left plain.sqlLower]
  decide

theorem backfill_dry (plain : Plain platform) (businesses : List Nat) (totals : SeedStats) :
    ∃ sum perBusiness, backfillRolePermissions platform true businesses s totals = .ok (s,sum,perBusiness) := by
  induction businesses generalizing totals with
  | nil => exact ⟨totals,[],rfl⟩
  | cons businessId businesses induction =>
    obtain ⟨stats,own⟩ := @ensureEachSync_dry platform s businessId standardRoles ⟨1,0,0⟩ plain.known
    obtain ⟨sum,rows,rest⟩ := induction (totals.add stats)
    refine ⟨sum,(businessId,stats) :: rows,?_⟩
    simp only [backfillRolePermissions,ensureStandardRolesAndPermissionsSync,own,rest,Outcome.ok_bind]
    rfl

theorem backfill_ends {businesses : List Nat} {totals : SeedStats} (sound : Sound s) (plain : Plain platform)
    (separate : businesses.Nodup) :
    ((∀ pair ∈ pairsOfAll businesses, ¬Blocked platform s pair.1 pair.2) ∧ ∃ t sum perBusiness,
      backfillRolePermissions platform false businesses s totals = .ok (t,sum,perBusiness)) ∨
    ((∃ pair ∈ pairsOfAll businesses, Blocked platform s pair.1 pair.2) ∧
      backfillRolePermissions platform false businesses s totals = .error .uncaught) := by
  induction businesses generalizing s totals with
  | nil => exact .inl ⟨by simp [pairsOfAll],s,totals,[],rfl⟩
  | cons businessId businesses induction =>
    obtain ⟨new,separate⟩ := List.nodup_cons.mp separate
    simp only [backfillRolePermissions,ensureStandardRolesAndPermissionsSync]
    rcases @ensureEachSync_ends platform s businessId standardRoles ⟨1,0,0⟩ sound plain.known plain.distinct with
      ⟨free,u,stats,done⟩ | ⟨⟨row,inside,blocked⟩,failed⟩
    · have told := (ensureEachSync_ok sound plain.distinct done).1
      have same : ∀ pair ∈ pairsOfAll businesses, (Blocked platform u pair.1 pair.2 ↔ Blocked platform s pair.1 pair.2) := by
        intro pair inside
        refine Blocked.alike (told.others pair.1 pair.2 fun own among both => ?_)
        obtain ⟨_,_,rfl⟩ := List.mem_map.mp among
        obtain ⟨other,member,found⟩ := List.mem_flatMap.mp inside
        obtain ⟨_,_,rfl⟩ := List.mem_map.mp found
        cases (both.1 : other = businessId)
        exact new member
      simp only [done,Outcome.ok_bind]
      rcases @induction u (totals.add stats) told.sound separate with ⟨rest,v,sum,rows,ends⟩ | ⟨⟨pair,inside,blocked⟩,ends⟩
      · refine .inl ⟨List.forall_mem_append.mpr ⟨?_,fun pair inside => (same pair inside).not.mp (rest pair inside)⟩,
          v,sum,(businessId,stats) :: rows,?_⟩
        · exact List.forall_mem_map.mpr free
        · simp only [ends,Outcome.ok_bind]
          rfl
      · refine .inr ⟨⟨pair,List.mem_append_right _ inside,(same pair inside).mp blocked⟩,?_⟩
        simp only [ends,Outcome.error_bind]
    · refine .inr ⟨⟨(businessId,row.1),List.mem_append_left _ (List.mem_map_of_mem inside),blocked⟩,?_⟩
      simp only [failed,Outcome.error_bind]

theorem backfill_complete {businesses : List Nat} (complete : ∀ pair ∈ pairsOfAll businesses, Complete platform s pair.1 pair.2)
    (dryRun : Bool) (totals : SeedStats) : backfillRolePermissions platform dryRun businesses s totals =
      .ok (s,⟨totals.businessesProcessed + businesses.length,totals.rolesCreated,totals.permissionsLinked⟩,
        businesses.map fun businessId => (businessId,⟨1,0,0⟩)) := by
  induction businesses generalizing totals with
  | nil => rfl
  | cons businessId businesses induction =>
    obtain ⟨own,others⟩ := List.forall_mem_append.mp complete
    have nothing : ensureStandardRolesAndPermissionsSync platform dryRun s businessId = .ok (s,⟨1,0,0⟩) :=
      ensureEachSync_complete (fun row inside => own _ (List.mem_map_of_mem inside)) dryRun
    simp only [backfillRolePermissions,nothing,induction others,Outcome.ok_bind,SeedStats.add,List.map_cons,List.length_cons,
      Nat.add_zero,Nat.add_assoc,Nat.add_comm 1]
    rfl

/-- A dry run of the backfill of a reached state changes nothing and tells what the backfill does, where there is no business
whose standard role is gone and leaves its name behind: there the backfill fails. Otherwise it takes nothing away and leaves every
business with its standard roles and their permissions, and the next one has nothing to do. -/
theorem backfill_told (platform : Platform) (plain : Plain platform) (requests : List Request) (businesses : List Nat)
    (separate : businesses.Nodup) : ∃ sum perBusiness,
    backfillRolePermissionsForAllBusinesses platform true businesses (requests.foldl (served platform) .init) =
        .ok (requests.foldl (served platform) .init,sum,perBusiness) ∧
      ((∃ businessId ∈ businesses, ∃ row ∈ standardRoles,
          Blocked platform (requests.foldl (served platform) .init) businessId row.1) →
        backfillRolePermissionsForAllBusinesses platform false businesses (requests.foldl (served platform) .init) =
          .error .uncaught) ∧
      ((¬∃ businessId ∈ businesses, ∃ row ∈ standardRoles,
          Blocked platform (requests.foldl (served platform) .init) businessId row.1) → ∃ t,
        backfillRolePermissionsForAllBusinesses platform false businesses (requests.foldl (served platform) .init) =
          .ok (t,sum,perBusiness) ∧
        Grows (requests.foldl (served platform) .init) t ∧
        (∀ businessId ∈ businesses, ∀ row ∈ standardRoles, ∃ i role keys,
          permissionKeysForRole platform row.1 = .ok keys ∧ t.roles[i]? = some role ∧ role.businessId = businessId ∧
          platform.sqlLower role.name = platform.sqlLower row.1 ∧ role.deletedAt = none ∧
          ∀ key ∈ keys, key ∈ t.permissions → key ∈ t.keysOf businessId i) ∧
        backfillRolePermissionsForAllBusinesses platform false businesses t =
          .ok (t,⟨businesses.length,0,0⟩,businesses.map fun businessId => (businessId,⟨1,0,0⟩))) := by
  obtain ⟨sound,_,_⟩ := @run_kept platform _ sound_init requests
  obtain ⟨sum,perBusiness,dry⟩ := @backfill_dry platform (requests.foldl (served platform) .init) plain businesses ⟨0,0,0⟩
  refine ⟨sum,perBusiness,dry,?_⟩
  rcases @backfill_ends platform _ businesses ⟨0,0,0⟩ sound plain separate with
    ⟨free,t,total,rows,done⟩ | ⟨⟨pair,inside,blocked⟩,failed⟩
  · have none : ¬∃ businessId ∈ businesses, ∃ row ∈ standardRoles,
        Blocked platform (requests.foldl (served platform) .init) businessId row.1 :=
      fun ⟨businessId,inside,row,member,blocked⟩ =>
        free (businessId,row.1) (List.mem_flatMap.mpr ⟨businessId,inside,List.mem_map_of_mem member⟩) blocked
    refine ⟨fun some => absurd some none,fun _ => ?_⟩
    obtain ⟨told,agrees⟩ := backfill_ok sound plain.distinct separate done
    cases dry.symm.trans (agrees _ fun _ _ => .refl)
    refine ⟨t,done,told.grows,?_,?_⟩
    · intro businessId inside row member
      have pair : (businessId,row.1) ∈ pairsOfAll businesses :=
        List.mem_flatMap.mpr ⟨businessId,inside,List.mem_map_of_mem member⟩
      obtain ⟨i,keys,named,found,nothing⟩ := told.complete _ pair
      obtain ⟨role,there,own,name,live⟩ := firstNamed_some found
      refine ⟨i,role,keys,named,there,own,name,live,fun key wanted known => ?_⟩
      have linked := List.filter_eq_nil_iff.mp nothing key known
      simpa [wanted] using linked
    · have nothing := @backfill_complete platform t businesses told.complete false ⟨0,0,0⟩
      rwa [Nat.zero_add] at nothing
  · obtain ⟨businessId,member,found⟩ := List.mem_flatMap.mp inside
    obtain ⟨row,standard,rfl⟩ := List.mem_map.mp found
    exact ⟨fun _ => failed,fun none => absurd ⟨businessId,member,row,standard,blocked⟩ none⟩

def known : List Request := [.others ["auth.login","sales.void"] []]

/-- The second business had a role of the name of its owner's, and deleted it. -/
def gone : List Request :=
  known ++ [.createRole 1 ⟨"owner",none,[]⟩ 7,.deleteRole 0 1 7 100]

theorem backfill_told_sample :
    (∃ sum perBusiness t, backfillRolePermissionsForAllBusinesses ⟨id,id,id⟩ true [0,1] (known.foldl (served ⟨id,id,id⟩) .init) =
      .ok (known.foldl (served ⟨id,id,id⟩) .init,sum,perBusiness) ∧
      backfillRolePermissionsForAllBusinesses ⟨id,id,id⟩ false [0,1] (known.foldl (served ⟨id,id,id⟩) .init) =
        .ok (t,sum,perBusiness)) ∧
    backfillRolePermissionsForAllBusinesses ⟨id,id,id⟩ true [0,1] (gone.foldl (served ⟨id,id,id⟩) .init) =
      .ok (gone.foldl (served ⟨id,id,id⟩) .init,⟨2,6,10⟩,[(0,⟨1,3,5⟩),(1,⟨1,3,5⟩)]) ∧
    backfillRolePermissionsForAllBusinesses ⟨id,id,id⟩ false [0,1] (gone.foldl (served ⟨id,id,id⟩) .init) =
      .error .uncaught := by
  have plain : Plain ⟨id,id,id⟩ := ⟨fun _ _ => rfl,fun _ _ => rfl⟩
  refine ⟨?_,?_,?_⟩
  · obtain ⟨sum,perBusiness,dry,_,free⟩ := backfill_told ⟨id,id,id⟩ plain known [0,1] (by decide)
    obtain ⟨t,done,_⟩ := free (by decide +kernel)
    exact ⟨sum,perBusiness,t,dry,done⟩
  · decide +kernel
  · obtain ⟨_,_,_,failed,_⟩ := backfill_told ⟨id,id,id⟩ plain gone [0,1] (by decide)
    exact failed (by decide +kernel)

end Roles
