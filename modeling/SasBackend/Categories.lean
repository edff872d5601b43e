import SasBackend.Library.Outcome
import SasBackend.Library.Transition
import SasBackend.Semantics.Categories

/-! The categories stay a hierarchy exactly as long as none is put below itself and none with children is deleted.
-/
namespace Categories
open Forest Relation Transition
open Outcome (refuseIf_ok)
open Service (HTTPException)

variable {collate : String → String → Bool} {s t : State} {id businessId other : Nat} {category changed : Category}
  {parentId : Option Nat} {request : Request}

theorem links_isSome : (links s businessId id).isSome ↔ (findCategory s id businessId).isSome := by
  simp [links]

theorem links_of_find (found : findCategory s id businessId = some category) :
    links s businessId id = some category.parentId := by
  simp [links,found]

theorem findCategory_lt (found : (findCategory s id businessId).isSome) : id < s.categories.length := by
  obtain ⟨category,found⟩ := Option.isSome_iff_exists.mp found
  exact (List.getElem?_eq_some_iff.mp (Option.filter_eq_some_iff.mp found).1).1

theorem mem_getCategories : id ∈ getCategories collate s businessId parentId ↔ links s businessId id = some parentId := by
  rw [getCategories,List.mem_insertionSort,List.mem_filter,List.mem_range,links,Option.map_eq_some_iff]
  constructor
  · rintro ⟨_,listed⟩
    obtain ⟨category,found,under⟩ := (Option.any_eq_true _ _).mp listed
    exact ⟨category,found,by simpa using under⟩
  · rintro ⟨category,found,under⟩
    exact ⟨findCategory_lt (Option.isSome_iff_exists.mpr ⟨category,found⟩),by simp [found,under]⟩

theorem getCategories_nodup : (getCategories collate s businessId parentId).Nodup :=
  (List.perm_insertionSort _ _).nodup_iff.mpr (List.nodup_range.filter _)

theorem listed (collate : String → String → Bool) (s : State) (businessId : Nat) :
    Listed (links s businessId) (getCategories collate s businessId none)
      fun id => getCategories collate s businessId (some id) where
  roots_nodup := getCategories_nodup
  mem_roots := fun _ => mem_getCategories
  children_nodup := fun _ => getCategories_nodup
  mem_children := fun _ _ => mem_getCategories

theorem listed_all (live : (links s businessId id).isSome) : id ∈ List.range s.categories.length :=
  List.mem_range.mpr (findCategory_lt (links_isSome.mp live))

theorem hierarchy_iff : Hierarchy collate s ↔ ∀ businessId, Sound (links s businessId) := by
  constructor
  · intro holds businessId id live
    have once := holds.once businessId id _ (links_isSome.mp live) (Nat.le_refl _)
    exact ((listed collate s businessId).count_traverse (fun _ => listed_all) (by simp)).mp once
  · intro sound
    constructor
    · intro businessId id cycle
      obtain ⟨parent,up,_⟩ := TransGen.head'_iff.mp cycle
      have live : (links s businessId id).isSome := by
        rw [Up] at up
        simp [up]
      exact (sound businessId id live).acyclic cycle
    · intro businessId id rounds live enough
      have rooted := sound businessId id (links_isSome.mpr live)
      exact ((listed collate s businessId).count_traverse (fun _ => listed_all) (by simpa using enough)).mpr rooted

theorem getCategoryById_ok : getCategoryById s id businessId = .ok category ↔ findCategory s id businessId = some category := by
  unfold getCategoryById
  split <;> simp_all

theorem checkParent_ok {done : Unit} : checkParent s businessId parentId = .ok done ↔
    ∀ id, parentId = some id → (findCategory s id businessId).isSome := by
  cases parentId with
  | none => simp [checkParent]
  | some parent =>
    simp only [checkParent,Outcome.bind_ok_iff,getCategoryById_ok,Option.some.injEq,forall_eq',Option.isSome_iff_exists]
    constructor
    · rintro ⟨category,found,_⟩
      exact ⟨category,found⟩
    · rintro ⟨category,found⟩
      exact ⟨category,found,rfl⟩

theorem links_append (new : Category) (alive : new.deletedAt = none) :
    links { s with categories := s.categories ++ [new] } other =
      if other = new.businessId then Function.update (links s other) s.categories.length (some new.parentId)
      else links s other :=
  tableLinks_append Category.businessId (fun category => category.deletedAt.isNone) Category.parentId (by simp [alive])

theorem links_set (found : findCategory s id businessId = some category) (same : changed.businessId = category.businessId) :
    links { s with categories := s.categories.set id changed } other =
      if other = businessId then
        Function.update (links s other) id (if changed.deletedAt.isNone then some changed.parentId else none)
      else links s other := by
  obtain ⟨there,met⟩ := Option.filter_eq_some_iff.mp found
  simp only [Bool.and_eq_true,decide_eq_true_eq] at met
  rw [← met.1]
  exact tableLinks_set Category.businessId (fun category => category.deletedAt.isNone) Category.parentId there same

/-- Every business has a hierarchy. -/
def Sorted (s : State) : Prop := ∀ businessId, Sound (links s businessId)

theorem createCategory_ok {data : CreateCategoryRequest} (done : createCategory s businessId data = .ok t) :
    (∀ parent, data.parentId = some parent → (findCategory s parent businessId).isSome) ∧
      t = { s with categories := s.categories ++ [⟨businessId,data.parentId,data.name,data.sortOrder,true,none⟩] } := by
  obtain ⟨_,checked,result⟩ := Outcome.bind_ok_iff.mp done
  cases result
  exact ⟨checkParent_ok.mp checked,rfl⟩

theorem updateCategory_ok {data : UpdateCategoryRequest} : updateCategory s id businessId data = .ok t ↔
    ∃ category, findCategory s id businessId = some category ∧ data.parentId ≠ some id ∧
      (∀ parent, data.parentId = some parent → (findCategory s parent businessId).isSome) ∧
      t = { s with categories := s.categories.set id { category with
        parentId := data.parentId.or category.parentId
        name := data.name.getD category.name
        sortOrder := data.sortOrder.getD category.sortOrder
        isActive := data.isActive.getD category.isActive } } := by
  simp only [updateCategory,Outcome.bind_ok_iff,getCategoryById_ok,refuseIf_ok,checkParent_ok,decide_eq_false_iff_not]
  refine exists_congr fun category => and_congr_right fun _ => ?_
  constructor
  · rintro ⟨_,own,_,live,result⟩
    cases result
    exact ⟨own,live,rfl⟩
  · rintro ⟨own,live,rfl⟩
    exact ⟨(),own,(),live,rfl⟩

theorem deleteCategory_ok {now : Int} : deleteCategory s id businessId now = .ok t ↔
    ∃ category, findCategory s id businessId = some category ∧ hasProducts s id businessId = false ∧
      t = { s with categories := s.categories.set id { category with deletedAt := some now } } := by
  simp only [deleteCategory,Outcome.bind_ok_iff,getCategoryById_ok,refuseIf_ok]
  refine exists_congr fun category => and_congr_right fun _ => ?_
  constructor
  · rintro ⟨_,idle,result⟩
    cases result
    exact ⟨idle,rfl⟩
  · rintro ⟨idle,rfl⟩
    exact ⟨(),idle,rfl⟩

theorem served_of_ok (done : answer s request = .ok t) : served s request = t :=
  Service.served_ok done

theorem served_of_error {refusal : HTTPException} (done : answer s request = .error refusal) : served s request = s :=
  Service.served_error done

theorem served_cases (s : State) (request : Request) : served s request = s ∨ answer s request = .ok (served s request) := by
  cases done : answer s request with
  | error _ => exact .inl (served_of_error done)
  | ok t => exact .inr (by rw [served_of_ok done])

theorem sorted_create {data : CreateCategoryRequest} (sorted : Sorted s) : Sorted (served s (.create businessId data)) := by
  rcases served_cases s (.create businessId data) with same | done
  · rwa [same]
  · obtain ⟨live,result⟩ := createCategory_ok done
    rw [result]
    intro other
    rw [links_append _ rfl]
    split
    · next mine =>
      have fresh : links s other s.categories.length = none := by
        simp [links,findCategory]
      cases under : data.parentId with
      | none => exact (sorted other).uproot
      | some parent =>
        have there : (links s other parent).isSome := links_isSome.mpr (mine ▸ live parent under)
        exact (sorted other).reparent there (((sorted other) parent there).away fresh)
    · exact sorted other

theorem links_update {data : UpdateCategoryRequest} (found : findCategory s id businessId = some category)
    (done : updateCategory s id businessId data = .ok t) : links t other =
      if other = businessId then Function.update (links s other) id (some (data.parentId.or category.parentId))
      else links s other := by
  obtain ⟨read,there,_,_,result⟩ := updateCategory_ok.mp done
  cases there.symm.trans found
  have alive := (Option.filter_eq_some_iff.mp found).2
  simp only [Bool.and_eq_true] at alive
  have moved (changed : Category) (same : changed.businessId = category.businessId) (kept : changed.deletedAt = category.deletedAt) :
      links { s with categories := s.categories.set id changed } other =
        if other = businessId then Function.update (links s other) id (some changed.parentId) else links s other := by
    rw [links_set found same,kept,if_pos alive.2]
  rw [result]
  exact moved _ rfl rfl

theorem sorted_update {data : UpdateCategoryRequest} (sorted : Sorted s) :
    Sorted (served s (.update id businessId data)) ↔ Spares s (.update id businessId data) := by
  rcases done : answer s (.update id businessId data) with _ | t
  · rw [served_of_error done]
    refine iff_of_true sorted fun parent under apart live there => ?_
    obtain ⟨category,found⟩ := Option.isSome_iff_exists.mp live
    have own : data.parentId ≠ some id := by simpa [under] using apart
    have known (other : Nat) (named : data.parentId = some other) : (findCategory s other businessId).isSome := by
      cases under.symm.trans named
      exact there
    cases done.symm.trans (updateCategory_ok.mpr ⟨category,found,own,known,rfl⟩)
  · obtain ⟨category,found,own,live,_⟩ := updateCategory_ok.mp done
    have change (other : Nat) : links t other = if other = businessId then
        Function.update (links s other) id (some (data.parentId.or category.parentId)) else links s other :=
      links_update found done
    have mine : links s businessId id = some category.parentId := links_of_find found
    rw [served_of_ok done]
    cases under : data.parentId with
    | none =>
      have same (other : Nat) : links t other = links s other := by
        rw [change other,under,Option.none_or]
        split
        · next equal =>
          subst equal
          rw [← mine,Function.update_eq_self]
        · rfl
      refine iff_of_true (fun other => same other ▸ sorted other) fun parent named => ?_
      cases under.symm.trans named
    | some parent =>
      have there : (links s businessId parent).isSome := links_isSome.mpr (live parent under)
      have apart : parent ≠ id := fun equal => own (equal ▸ under)
      constructor
      · intro after named given different _ _ path
        cases under.symm.trans given
        have moved := after businessId
        rw [change businessId,if_pos rfl,under,Option.some_or] at moved
        exact apart_of_sound moved path.to_reflTransGen
      · intro spared other
        rw [change other,under,Option.some_or]
        split
        · next equal =>
          subst equal
          refine (sorted other).reparent there fun path => ?_
          rcases ReflTransGen.cases_head path with equal | ⟨middle,up,rest⟩
          · exact apart equal
          · exact spared parent under apart (by simp [found]) (live parent under) (.head' up rest)
        · exact sorted other

theorem sorted_delete {now : Int} (sorted : Sorted s) :
    Sorted (served s (.delete id businessId now)) ↔ Spares s (.delete id businessId now) := by
  rcases done : answer s (.delete id businessId now) with _ | t
  · rw [served_of_error done]
    refine iff_of_true sorted fun live idle => ?_
    obtain ⟨category,found⟩ := Option.isSome_iff_exists.mp live
    cases done.symm.trans (deleteCategory_ok.mpr ⟨category,found,idle,rfl⟩)
  · obtain ⟨category,found,idle,result⟩ := deleteCategory_ok.mp done
    rw [served_of_ok done,result]
    have owner : ({ category with deletedAt := some now } : Category).businessId = category.businessId := rfl
    have change (other : Nat) :
        links { s with categories := s.categories.set id { category with deletedAt := some now } } other =
          if other = businessId then Function.update (links s other) id none else links s other := by
      simp [links_set found owner]
    constructor
    · intro after _ _ child up
      have moved := after businessId
      rw [change businessId,if_pos rfl] at moved
      have live : (links s businessId child).isSome := by
        rw [Up] at up
        simp [up]
      by_cases own : child = id
      · exact (sorted businessId child live).acyclic (.single (own ▸ up))
      · exact childless_of_sound moved own up
    · intro spared other
      rw [change other]
      split
      · next equal =>
        subst equal
        exact (sorted other).remove (spared (by simp [found]) idle)
      · exact sorted other

theorem sorted_served (sorted : Sorted s) : Sorted (served s request) ↔ Spares s request := by
  cases request with
  | create businessId data => exact iff_of_true (sorted_create sorted) trivial
  | update categoryId businessId data => exact sorted_update sorted
  | delete categoryId businessId now => exact sorted_delete sorted
  | setProducts products => exact iff_of_true sorted trivial

theorem sorted_init : Sorted .init := by
  intro businessId id live
  simp [links,findCategory,State.init] at live

/-- From an empty table on, the categories are a hierarchy after every request exactly if every request spares it. -/
theorem categories_hierarchy (collate : String → String → Bool) (requests : List Request) :
    Along served (fun s request => Hierarchy collate (served s request)) .init requests ↔
      Along served Spares .init requests := by
  have same (s : State) (request : Request) (sorted : Sorted s) :
      Hierarchy collate (served s request) ↔ Spares s request := hierarchy_iff.trans (sorted_served sorted)
  have preserved (s : State) (request : Request) (_ : Sorted s) (holds : Hierarchy collate (served s request)) :
      Sorted (served s request) := hierarchy_iff.mp holds
  exact along_congr same preserved sorted_init

def named (name : String) (parentId : Option Nat) : Request := .create 7 ⟨name,parentId,0⟩

/-- The first category goes under its own child. -/
def circle : List Request := [named "Drinks" none,named "Juices" (some 0),.update 0 7 ⟨none,some 1,none,none⟩]

/-- The first category is deleted, its child stays. -/
def stranding : List Request := [named "Drinks" none,named "Juices" (some 0),.delete 0 7 1]

/-- After either no call brings the child back. -/
theorem hierarchy_broken : ¬Along served (fun s request => Hierarchy (fun _ _ => true) (served s request)) .init circle ∧
    ¬Along served (fun s request => Hierarchy (fun _ _ => true) (served s request)) .init stranding := by
  constructor
  · intro claim
    have once := claim.2.2.1.once 7 1 2 (by decide) (by decide)
    revert once
    decide
  · intro claim
    have once := claim.2.2.1.once 7 1 2 (by decide) (by decide)
    revert once
    decide

end Categories
