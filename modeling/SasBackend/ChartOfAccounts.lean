import SasBackend.Library.Outcome
import SasBackend.Library.Transition
import SasBackend.Semantics.ChartOfAccounts

/-! The chart of accounts is a forest whatever requests are served, its search for cycles ends, and its tree has every account.
-/
namespace ChartOfAccounts
open Forest Relation Transition
open Outcome (refuseIf_ok)

variable {collate : String → String → Bool} {s t : State} {id businessId other : Nat} {account changed : ChartOfAccount}
  {request : Request} {condition : Nat → ChartOfAccount → Bool}

theorem links_isSome : (links s businessId id).isSome ↔ (findAccount s id businessId).isSome := by
  simp [links]

theorem findAccount_lt (found : findAccount s id businessId = some account) : id < s.accounts.length :=
  (List.getElem?_eq_some_iff.mp (Option.filter_eq_some_iff.mp found).1).1

theorem mem_selectAccounts : id ∈ selectAccounts s businessId condition ↔
    ∃ account, findAccount s id businessId = some account ∧ condition id account = true := by
  rw [selectAccounts,List.mem_filter,List.mem_range,Option.any_eq_true]
  constructor
  · exact And.right
  · rintro ⟨account,found,met⟩
    exact ⟨findAccount_lt found,account,found,met⟩

theorem selectAccounts_nodup : (selectAccounts s businessId condition).Nodup := List.nodup_range.filter _

theorem mem_childrenOf {parent : Nat} : id ∈ childrenOf s businessId parent ↔ Up (links s businessId) id parent := by
  rw [childrenOf,mem_selectAccounts,Up,links,Option.map_eq_some_iff]
  simp

theorem live_mem_range (live : (links s businessId id).isSome) : id ∈ List.range s.accounts.length := by
  obtain ⟨account,found⟩ := Option.isSome_iff_exists.mp (links_isSome.mp live)
  exact List.mem_range.mpr (findAccount_lt found)

/-- The search ends within the visits that are left, and what it lets through is not below the start. -/
theorem assertNoParentCycle_spec {start parent fuel : Nat} {visited toVisit : List Nat} (sound : Sound (links s businessId))
    (frontier : Frontier (links s businessId) start visited toVisit)
    (apart : ∀ a b, Up (links s businessId) a b → b ∈ visited → a ≠ parent)
    (enough : visits s ≤ fuel + visited.length) :
    ∃ result, assertNoParentCycle s businessId parent fuel toVisit = some result ∧
      (result = .ok () → ¬TransGen (Up (links s businessId)) parent start) := by
  induction fuel generalizing visited toVisit with
  | zero =>
    cases toVisit with
    | nil =>
      refine ⟨.ok (),rfl,fun _ path => ?_⟩
      obtain ⟨b,up,rest⟩ := TransGen.head'_iff.mp path
      exact apart parent b up (frontier.complete rest) rfl
    | cons current rest =>
      have bound := frontier.length_le fun _ => live_mem_range
      simp only [List.length_append,List.length_cons,List.length_range,visits] at bound enough
      omega
  | succ fuel induction =>
    cases toVisit with
    | nil =>
      refine ⟨.ok (),rfl,fun _ path => ?_⟩
      obtain ⟨b,up,rest⟩ := TransGen.head'_iff.mp path
      exact apart parent b up (frontier.complete rest) rfl
    | cons current rest =>
      by_cases met : (childrenOf s businessId current).contains parent
      · rw [assertNoParentCycle,if_pos met]
        exact ⟨_,rfl,fun passed => nomatch passed⟩
      · rw [assertNoParentCycle,if_neg met]
        have mem_found (b : Nat) : b ∈ (childrenOf s businessId current).reverse ↔ Up (links s businessId) b current := by
          rw [List.mem_reverse,mem_childrenOf]
        apply induction (frontier.visit sound (List.nodup_reverse.mpr selectAccounts_nodup) mem_found)
        · intro a b up inside same
          rcases List.mem_cons.mp inside with rfl | old
          · exact met (List.contains_iff_mem.mpr (mem_childrenOf.mpr (same ▸ up)))
          · exact apart a b up old same
        · rw [List.length_cons]
          omega

theorem assertNoParentCycle_ends (sound : Sound (links s businessId)) (start parent : Nat) :
    ∃ result, assertNoParentCycle s businessId parent (visits s) [start] = some result ∧
      (result = .ok () → ¬TransGen (Up (links s businessId)) parent start) :=
  assertNoParentCycle_spec sound .init (by simp) (Nat.le_add_right _ _)

/-- Every business has a forest. -/
def Sorted (s : State) : Prop := ∀ businessId, Sound (links s businessId)

theorem getAccountRow_ok : getAccountRow s id businessId = .ok account ↔ findAccount s id businessId = some account := by
  unfold getAccountRow
  split <;> simp_all

theorem links_append (new : ChartOfAccount) (alive : new.deletedAt = none) :
    links { s with accounts := s.accounts ++ [new] } other =
      if other = new.businessId then Function.update (links s other) s.accounts.length (some new.parentId)
      else links s other :=
  tableLinks_append ChartOfAccount.businessId (fun account => account.deletedAt.isNone) ChartOfAccount.parentId (by simp [alive])

theorem links_set (found : findAccount s id businessId = some account) (same : changed.businessId = account.businessId) :
    links { s with accounts := s.accounts.set id changed } other =
      if other = businessId then
        Function.update (links s other) id (if changed.deletedAt.isNone then some changed.parentId else none)
      else links s other := by
  obtain ⟨there,met⟩ := Option.filter_eq_some_iff.mp found
  simp only [Bool.and_eq_true,decide_eq_true_eq] at met
  rw [← met.1]
  exact tableLinks_set ChartOfAccount.businessId (fun account => account.deletedAt.isNone) ChartOfAccount.parentId there same

theorem links_fresh : links s other s.accounts.length = none := by
  simp [links,findAccount]

theorem Sorted.append (sorted : Sorted s) (new : ChartOfAccount) (alive : new.deletedAt = none)
    (parent : ∀ parent, new.parentId = some parent → (links s new.businessId parent).isSome) :
    Sorted { s with accounts := s.accounts ++ [new] } := by
  intro other
  rw [links_append new alive]
  split
  · next mine =>
    cases under : new.parentId with
    | none => exact (sorted other).uproot
    | some above =>
      have there : (links s other above).isSome := mine ▸ parent above under
      exact (sorted other).reparent there ((sorted other above there).away links_fresh)
  · exact sorted other

theorem sorted_create {data : CreateChartOfAccountRequest} (sorted : Sorted s)
    (done : createChartOfAccount s businessId data = .ok t) : Sorted t := by
  obtain ⟨_,_,done⟩ := Outcome.bind_ok_iff.mp done
  obtain ⟨_,_,done⟩ := Outcome.bind_ok_iff.mp done
  obtain ⟨_,checked,done⟩ := Outcome.bind_ok_iff.mp done
  obtain ⟨_,_,done⟩ := Outcome.bind_ok_iff.mp done
  obtain ⟨_,_,result⟩ := Outcome.bind_ok_iff.mp done
  cases result
  refine sorted.append _ rfl fun parent under => ?_
  have named : data.parentId = some parent := under
  rw [named] at checked
  obtain ⟨above,row,_⟩ := Outcome.bind_ok_iff.mp checked
  exact links_isSome.mpr (Option.isSome_iff_exists.mpr ⟨above,getAccountRow_ok.mp row⟩)

theorem validateParent_ok {parent : Nat} {done : Unit} (sound : Sound (links s businessId))
    (checked : validateParent s businessId (some parent) (some id) = .ok done) :
    (links s businessId parent).isSome ∧ ¬ReflTransGen (Up (links s businessId)) parent id := by
  simp only [validateParent,Outcome.bind_ok_iff,refuseIf_ok,getAccountRow_ok,decide_eq_false_iff_not] at checked
  obtain ⟨_,apart,above,found,searched⟩ := checked
  refine ⟨links_isSome.mpr (Option.isSome_iff_exists.mpr ⟨above,found⟩),fun path => ?_⟩
  obtain ⟨result,ended,through⟩ := assertNoParentCycle_ends sound id parent
  rw [ended,Option.getD_some] at searched
  rcases ReflTransGen.cases_head path with same | ⟨middle,up,rest⟩
  · exact apart same
  · exact through searched (.head' up rest)

theorem sorted_update {data : UpdateChartOfAccountRequest} (sorted : Sorted s)
    (done : updateChartOfAccount s id businessId data = .ok t) : Sorted t := by
  obtain ⟨account,row,done⟩ := Outcome.bind_ok_iff.mp done
  obtain ⟨_,checked,done⟩ := Outcome.bind_ok_iff.mp done
  obtain ⟨_,_,done⟩ := Outcome.bind_ok_iff.mp done
  obtain ⟨_,_,done⟩ := Outcome.bind_ok_iff.mp done
  obtain ⟨_,_,done⟩ := Outcome.bind_ok_iff.mp done
  obtain ⟨_,_,result⟩ := Outcome.bind_ok_iff.mp done
  cases result
  have found := getAccountRow_ok.mp row
  have alive : account.deletedAt.isNone := by
    have met := (Option.filter_eq_some_iff.mp found).2
    simp only [Bool.and_eq_true] at met
    exact met.2
  have owner : (applyUpdate account data).businessId = account.businessId := rfl
  intro other
  rw [links_set found owner]
  split
  · next mine =>
    subst mine
    have kept : (applyUpdate account data).deletedAt.isNone := alive
    rw [if_pos kept]
    unfold checkParent at checked
    cases given : data.parentId with
    | none =>
      have same : (applyUpdate account data).parentId = account.parentId := by simp [applyUpdate,given]
      have here : links s other id = some account.parentId := by simp [links,found]
      rw [same,← here,Function.update_eq_self]
      exact sorted other
    | some target =>
      have moved : (applyUpdate account data).parentId = target := by simp [applyUpdate,given]
      rw [given] at checked
      rw [moved]
      cases target with
      | none => exact (sorted other).uproot
      | some parent =>
        obtain ⟨there,apart⟩ := validateParent_ok (sorted other) checked
        exact (sorted other).reparent there apart
  · exact sorted other

theorem sorted_delete {now : Int} (sorted : Sorted s) (done : deleteChartOfAccount s id businessId now = .ok t) : Sorted t := by
  obtain ⟨account,row,done⟩ := Outcome.bind_ok_iff.mp done
  obtain ⟨_,_,done⟩ := Outcome.bind_ok_iff.mp done
  obtain ⟨_,childless,done⟩ := Outcome.bind_ok_iff.mp done
  obtain ⟨_,_,result⟩ := Outcome.bind_ok_iff.mp done
  cases result
  have none_below : childrenOf s businessId id = [] := by
    simpa [hasActiveChildren] using refuseIf_ok.mp childless
  have owner : ({ account with deletedAt := some now } : ChartOfAccount).businessId = account.businessId := rfl
  intro other
  rw [links_set (getAccountRow_ok.mp row) owner]
  split
  · next mine =>
    subst mine
    refine (sorted other).remove fun child up => ?_
    have member := mem_childrenOf.mpr up
    simp [none_below] at member
  · exact sorted other

theorem sorted_defaults {rows : List DefaultAccount} (sorted : Sorted s)
    (done : rows.foldlM (insertDefault businessId) s = .ok t) : Sorted t := by
  induction rows generalizing s with
  | nil =>
    cases done
    exact sorted
  | cons row rest induction =>
    rw [List.foldlM_cons] at done
    obtain ⟨middle,inserted,done⟩ := Outcome.bind_ok_iff.mp done
    obtain ⟨_,_,result⟩ := Outcome.bind_ok_iff.mp inserted
    cases result
    exact induction (sorted.append (row.row businessId) rfl (by simp [DefaultAccount.row])) done

theorem sorted_seed (sorted : Sorted s) (done : seedDefaultChartOfAccounts s businessId = .ok t) : Sorted t := by
  unfold seedDefaultChartOfAccounts at done
  split at done
  · exact sorted_defaults sorted done
  · cases done
    exact sorted

theorem sorted_answer (sorted : Sorted s) (done : answer s request = .ok t) : Sorted t := by
  cases request with
  | create businessId data => exact sorted_create sorted done
  | update accountId businessId data => exact sorted_update sorted done
  | delete accountId businessId now => exact sorted_delete sorted done
  | seed businessId => exact sorted_seed sorted done
  | setJournalLines journalLines =>
    cases done
    exact sorted

theorem sorted_init : Sorted .init := by
  intro businessId id live
  simp [links,findAccount,State.init] at live

section Tree

variable {known : List Nat} {accounts : List (Nat × Option Nat)} {tree : Tree}

theorem place_roots : (accounts.foldl (place known) tree).roots =
    tree.roots ++ (accounts.filter fun account => !account.2.any known.contains).map (·.1) := by
  induction accounts generalizing tree with
  | nil => simp
  | cons account rest induction =>
    rw [List.foldl_cons,induction,place]
    cases under : account.2 with
    | none => simp [under]
    | some parent =>
      by_cases there : known.contains parent <;> simp_all

theorem place_children (parent : Nat) : (accounts.foldl (place known) tree).children parent =
    tree.children parent ++ (accounts.filter fun account => account.2 = some parent && known.contains parent).map (·.1) := by
  induction accounts generalizing tree with
  | nil => simp
  | cons account rest induction =>
    rw [List.foldl_cons,induction,place]
    cases under : account.2 with
    | none => simp [under]
    | some above =>
      by_cases same : above = parent
      · subst same
        by_cases there : known.contains above <;> simp_all
      · by_cases there : known.contains above <;> simp_all [Ne.symm same]

end Tree

/-- The accounts in the order of the listing. -/
def listedIds (collate : String → String → Bool) (s : State) (businessId : Nat) : List Nat :=
  (selectAccounts s businessId fun _ _ => true).insertionSort (before collate s)

theorem listedIds_nodup : (listedIds collate s businessId).Nodup :=
  (List.perm_insertionSort _ _).nodup_iff.mpr selectAccounts_nodup

theorem mem_listedIds : id ∈ listedIds collate s businessId ↔ (links s businessId id).isSome := by
  rw [listedIds,List.mem_insertionSort,mem_selectAccounts,links_isSome,Option.isSome_iff_exists]
  simp

theorem links_eq_some {parent : Option Nat} : links s businessId id = some parent ↔
    id ∈ listedIds collate s businessId ∧ (s.accounts[id]?).bind (·.parentId) = parent := by
  rw [mem_listedIds,links_isSome,Option.isSome_iff_exists,links,Option.map_eq_some_iff]
  constructor
  · rintro ⟨account,found,rfl⟩
    refine ⟨⟨account,found⟩,?_⟩
    rw [(Option.filter_eq_some_iff.mp found).1,Option.bind_some]
  · rintro ⟨⟨account,found⟩,named⟩
    refine ⟨account,found,?_⟩
    rw [← named,(Option.filter_eq_some_iff.mp found).1,Option.bind_some]

theorem listTree_roots : (listTree collate s businessId).roots = (listedIds collate s businessId).filter fun id =>
    !((s.accounts[id]?).bind (·.parentId)).any (listedIds collate s businessId).contains := by
  rw [listTree,← listedIds,buildTree,place_roots,List.filter_map,List.map_map]
  simp [Function.comp_def]

theorem listTree_children (parent : Nat) : (listTree collate s businessId).children parent =
    (listedIds collate s businessId).filter fun id =>
      (s.accounts[id]?).bind (·.parentId) = some parent && (listedIds collate s businessId).contains parent := by
  rw [listTree,← listedIds,buildTree,place_children,List.filter_map,List.map_map]
  simp [Function.comp_def]

/-- In a forest the tree has the accounts without parent at its top and every other under its parent. -/
theorem listTree_listed (collate : String → String → Bool) (sound : Sound (links s businessId)) :
    Listed (links s businessId) (listTree collate s businessId).roots (listTree collate s businessId).children := by
  have known {a b : Nat} (up : links s businessId a = some (some b)) : b ∈ listedIds collate s businessId := by
    have live : (links s businessId a).isSome := by simp [up]
    exact mem_listedIds.mpr ((sound a live).up up).live
  constructor
  · rw [listTree_roots]
    exact listedIds_nodup.filter _
  · intro a
    rw [listTree_roots,List.mem_filter,links_eq_some]
    refine and_congr_right fun member => ?_
    cases above : (s.accounts[a]?).bind (·.parentId) with
    | none => simp
    | some b =>
      have listed := known (links_eq_some.mpr ⟨member,above⟩)
      simp [listed]
  · intro b
    rw [listTree_children]
    exact listedIds_nodup.filter _
  · intro a b
    rw [listTree_children,List.mem_filter,Bool.and_eq_true,decide_eq_true_eq,List.contains_iff_mem,Up]
    constructor
    · rintro ⟨member,above,_⟩
      exact links_eq_some.mpr ⟨member,above⟩
    · intro up
      obtain ⟨member,above⟩ := links_eq_some.mp up
      exact ⟨member,above,known up⟩

/-- After any requests the way up from a live account passes live accounts to a root, the search for a cycle ends for any two
accounts, and the tree has every live account once. -/
theorem chart_is_forest (collate : String → String → Bool) (requests : List Request) (businessId : Nat) :
    let s := requests.foldl served .init
    (∀ id, (findAccount s id businessId).isSome → Rooted (links s businessId) id) ∧
      (∀ accountId parentId, (assertNoParentCycle s businessId parentId (visits s) [accountId]).isSome) ∧
      ∀ id depth, (findAccount s id businessId).isSome → s.accounts.length ≤ depth →
        ((listTree collate s businessId).accounts depth).count id = 1 := by
  intro s
  have sorted : Sorted s := Service.run_invariant (fun _ _ _ => sorted_answer) sorted_init requests
  refine ⟨fun id live => ?_,fun accountId parentId => ?_,fun id depth live deep => ?_⟩
  · exact sorted businessId id (links_isSome.mpr live)
  · obtain ⟨result,ended,_⟩ := assertNoParentCycle_ends (sorted businessId) accountId parentId
    simp [ended]
  · have listed := listTree_listed collate (sorted businessId)
    have rooted := sorted businessId id (links_isSome.mpr live)
    exact (listed.count_traverse (fun _ => live_mem_range) (by simpa using deep)).mpr rooted

def cashAccount (accountCode : String) (parentId : Option Nat) : Request :=
  .create 7 ⟨accountCode,"Cash","asset",some "cash",parentId,none,true⟩

/-- A cash drawer goes from one account to another; the account it has left may not go under it. -/
def drawers : List Request :=
  [cashAccount "10" none,cashAccount "20" none,cashAccount "21" (some 1),.update 2 7 ⟨none,none,none,none,some (some 0),none,none⟩,
    .update 0 7 ⟨none,none,none,none,some (some 2),none,none⟩]

theorem chart_is_forest_drawers : links (drawers.foldl served .init) 7 2 = some (some 0) ∧
    Rooted (links (drawers.foldl served .init) 7) 2 ∧
      ((listTree (fun _ _ => true) (drawers.foldl served .init) 7).accounts 3).count 2 = 1 := by
  obtain ⟨rooted,_,once⟩ := chart_is_forest (fun _ _ => true) drawers 7
  have live : (findAccount (drawers.foldl served .init) 2 7).isSome := by decide +kernel
  exact ⟨by decide +kernel,rooted 2 live,once 2 3 live (by decide +kernel)⟩

end ChartOfAccounts
