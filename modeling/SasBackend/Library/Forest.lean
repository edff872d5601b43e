import Mathlib.Data.List.Nodup
import Mathlib.Data.List.Perm.Subperm
import Mathlib.Logic.Function.Basic
import Mathlib.Logic.Relation

/-! Nodes with at most one parent each: when the way up from a node ends at a root, what keeps it so, and how the nodes are
reached from the roots again. -/
namespace Forest
open Relation

universe u

/-- What is known of a node: nothing when it is not there, else its parent, if it has one. -/
abbrev Links (ι : Type u) : Type u := ι → Option (Option ι)

variable {ι : Type u} {links : Links ι} {a b c : ι} {k n : Nat}

/-- The node is there and names its parent, which may not be. -/
def Up (links : Links ι) (a b : ι) : Prop := links a = some (some b)

/-- The way up from the node ends at a root. -/
inductive Rooted (links : Links ι) : ι → Prop
  | root {a : ι} : links a = some none → Rooted links a
  | child {a b : ι} : Up links a b → Rooted links b → Rooted links a

/-- From every node that is there, the way up ends at a root. -/
def Sound (links : Links ι) : Prop := ∀ a, (links a).isSome → Rooted links a

theorem Up.unique (first : Up links a b) (second : Up links a c) : b = c := by
  have same := first.symm.trans second
  simpa using same

theorem Rooted.live (rooted : Rooted links a) : (links a).isSome := by
  cases rooted with
  | root there => simp [there]
  | child up _ => simp [show links a = _ from up]

theorem Rooted.up (rooted : Rooted links a) (up : Up links a b) : Rooted links b := by
  cases rooted with
  | root there => cases there.symm.trans up
  | child other rest => exact up.unique other ▸ rest

theorem Rooted.above (rooted : Rooted links a) (path : ReflTransGen (Up links) a b) : Rooted links b := by
  induction path with
  | refl => exact rooted
  | tail _ up induction => exact induction.up up

theorem Rooted.acyclic (rooted : Rooted links a) : ¬TransGen (Up links) a a := by
  induction rooted with
  | root there =>
    intro cycle
    obtain ⟨b,up,_⟩ := TransGen.head'_iff.mp cycle
    cases there.symm.trans up
  | @child a b up _ induction =>
    intro cycle
    obtain ⟨c,first,rest⟩ := TransGen.head'_iff.mp cycle
    cases up.unique first
    exact induction (TransGen.tail' rest up)

theorem Rooted.away (rooted : Rooted links c) (absent : links a = none) : ¬ReflTransGen (Up links) c a := by
  intro path
  have live := (rooted.above path).live
  rw [absent] at live
  cases live

section Change

variable [DecidableEq ι] {link : Option (Option ι)}

theorem up_update_of_ne (different : c ≠ a) : Up (Function.update links a link) c b ↔ Up links c b := by
  rw [Up,Up,Function.update_of_ne different]

theorem Rooted.update (rooted : Rooted links c) (away : ¬ReflTransGen (Up links) c a) :
    Rooted (Function.update links a link) c := by
  induction rooted with
  | @root c there =>
    have different : c ≠ a := fun same => away (same ▸ .refl)
    exact .root (by rw [Function.update_of_ne different,there])
  | @child c b up _ induction =>
    have different : c ≠ a := fun same => away (same ▸ .refl)
    exact .child ((up_update_of_ne different).mpr up) (induction fun path => away (.head up path))

theorem Sound.place (sound : Sound links) (placed : Rooted (Function.update links a link) a) :
    Sound (Function.update links a link) := by
  have others {c : ι} (rooted : Rooted links c) : Rooted (Function.update links a link) c := by
    induction rooted with
    | @root c there =>
      by_cases same : c = a
      · exact same ▸ placed
      · exact .root (by rw [Function.update_of_ne same,there])
    | @child c b up _ induction =>
      by_cases same : c = a
      · exact same ▸ placed
      · exact .child ((up_update_of_ne same).mpr up) induction
  intro c live
  by_cases same : c = a
  · exact same ▸ placed
  · rw [Function.update_of_ne same] at live
    exact others (sound c live)

theorem Sound.reparent (sound : Sound links) (parent : (links b).isSome) (apart : ¬ReflTransGen (Up links) b a) :
    Sound (Function.update links a (some (some b))) := by
  apply sound.place
  exact .child (Function.update_self ..) ((sound b parent).update apart)

theorem Sound.uproot (sound : Sound links) : Sound (Function.update links a (some none)) :=
  sound.place (.root (Function.update_self ..))

theorem Sound.remove (sound : Sound links) (childless : ∀ c, ¬Up links c a) : Sound (Function.update links a none) := by
  intro c live
  by_cases same : c = a
  · rw [same,Function.update_self] at live
    cases live
  · rw [Function.update_of_ne same] at live
    apply (sound c live).update
    intro path
    rcases ReflTransGen.cases_tail path with equal | ⟨d,_,up⟩
    · exact same equal.symm
    · exact childless d up

theorem path_update (path : ReflTransGen (Up links) c a) : ReflTransGen (Up (Function.update links a link)) c a := by
  induction path using ReflTransGen.head_induction_on with
  | refl => exact .refl
  | @head c d up _ induction =>
    by_cases same : c = a
    · exact same ▸ .refl
    · exact .head ((up_update_of_ne same).mpr up) induction

theorem apart_of_sound (sound : Sound (Function.update links a (some (some b)))) : ¬ReflTransGen (Up links) b a := by
  intro path
  have there : Function.update links a (some (some b)) a = some (some b) := Function.update_self ..
  exact (sound a (by simp)).acyclic (.head' there (path_update path))

theorem childless_of_sound (sound : Sound (Function.update links a none)) (different : c ≠ a) : ¬Up links c a := by
  intro up
  have moved : Up (Function.update links a none) c a := (up_update_of_ne different).mpr up
  have parent := ((sound c (by simp [show _ = some (some a) from moved])).up moved).live
  rw [Function.update_self] at parent
  cases parent

end Change

/-- The roots and the children of each node, every one once. -/
structure Listed (links : Links ι) (roots : List ι) (children : ι → List ι) : Prop where
  roots_nodup : roots.Nodup
  mem_roots : ∀ a, a ∈ roots ↔ links a = some none
  children_nodup : ∀ b, (children b).Nodup
  mem_children : ∀ a b, a ∈ children b ↔ Up links a b

/-- The nodes that `n` rounds give: those of a level, then the children of each of them. -/
def traverse (children : ι → List ι) : Nat → List ι → List ι
  | 0,_ => []
  | n + 1,level => level ++ traverse children n (level.flatMap children)

/-- The way up from the node takes `k` steps. -/
inductive Depth (links : Links ι) : ι → Nat → Prop
  | root {a : ι} : links a = some none → Depth links a 0
  | child {a b : ι} {k : Nat} : Up links a b → Depth links b k → Depth links a (k + 1)

theorem rooted_iff_depth : Rooted links a ↔ ∃ k, Depth links a k := by
  constructor
  · intro rooted
    induction rooted with
    | root there => exact ⟨0,.root there⟩
    | child up _ induction =>
      obtain ⟨k,depth⟩ := induction
      exact ⟨k + 1,.child up depth⟩
  · rintro ⟨k,depth⟩
    induction depth with
    | root there => exact .root there
    | child up _ induction => exact .child up induction

theorem Depth.unique {j : Nat} (first : Depth links a j) (second : Depth links a k) : j = k := by
  induction first generalizing k with
  | root there =>
    cases second with
    | root _ => rfl
    | child up _ => cases there.symm.trans up
  | child up _ induction =>
    cases second with
    | root there => cases there.symm.trans up
    | child other rest => rw [induction (up.unique other ▸ rest)]

theorem Depth.chain (depth : Depth links a k) : ∃ way : List ι, way.length = k + 1 ∧ way.Nodup ∧
    ∀ b ∈ way, (links b).isSome ∧ ReflTransGen (Up links) a b := by
  induction depth with
  | @root a there => exact ⟨[a],by simp,by simp,by simp [there,ReflTransGen.refl]⟩
  | @child a b k up depth induction =>
    obtain ⟨way,length,nodup,each⟩ := induction
    have rooted : Rooted links a := .child up (rooted_iff_depth.mpr ⟨k,depth⟩)
    refine ⟨a :: way,by simp [length],List.nodup_cons.mpr ⟨fun member => ?_,nodup⟩,?_⟩
    · exact rooted.acyclic (.head' up (each a member).2)
    · intro c member
      rcases List.mem_cons.mp member with rfl | later
      · exact ⟨rooted.live,.refl⟩
      · exact ⟨(each c later).1,.head up (each c later).2⟩

theorem Depth.lt_length {nodes : List ι} (depth : Depth links a k) (all : ∀ b, (links b).isSome → b ∈ nodes) :
    k < nodes.length := by
  obtain ⟨way,length,nodup,each⟩ := depth.chain
  have within := (List.subperm_of_subset nodup fun b member => all b (each b member).1).length_le
  omega

section Listed

variable {roots level : List ι} {children : ι → List ι} {nodes : List ι}

/-- A level as `traverse` comes to it. -/
structure Level (links : Links ι) (k : Nat) (level : List ι) : Prop where
  nodup : level.Nodup
  mem_iff : ∀ a, a ∈ level ↔ Depth links a k

theorem Listed.level_zero (listed : Listed links roots children) : Level links 0 roots where
  nodup := listed.roots_nodup
  mem_iff := by
    intro a
    rw [listed.mem_roots]
    constructor
    · exact .root
    · rintro ⟨there⟩
      exact there

theorem Listed.level_succ (listed : Listed links roots children) (here : Level links k level) :
    Level links (k + 1) (level.flatMap children) where
  nodup := by
    refine List.nodup_flatMap.mpr ⟨fun b _ => listed.children_nodup b,here.nodup.imp fun {b c} different => ?_⟩
    intro a first second
    have one := (listed.mem_children a b).mp first
    exact different (one.unique ((listed.mem_children a c).mp second))
  mem_iff := by
    intro a
    rw [List.mem_flatMap]
    constructor
    · rintro ⟨b,member,child⟩
      exact .child ((listed.mem_children a b).mp child) ((here.mem_iff b).mp member)
    · rintro ⟨⟩
      next b up depth => exact ⟨b,(here.mem_iff b).mpr depth,(listed.mem_children a b).mpr up⟩

theorem Listed.mem_traverse (listed : Listed links roots children) (here : Level links k level) :
    a ∈ traverse children n level ↔ ∃ j, k ≤ j ∧ j < k + n ∧ Depth links a j := by
  induction n generalizing k level with
  | zero =>
    simp only [traverse,List.not_mem_nil,false_iff]
    rintro ⟨j,low,high,_⟩
    omega
  | succ n induction =>
    rw [traverse,List.mem_append,here.mem_iff,induction (listed.level_succ here)]
    constructor
    · rintro (depth | ⟨j,low,high,depth⟩)
      · exact ⟨k,Nat.le_refl k,by omega,depth⟩
      · exact ⟨j,by omega,by omega,depth⟩
    · rintro ⟨j,low,high,depth⟩
      rcases Nat.eq_or_lt_of_le low with rfl | later
      · exact .inl depth
      · exact .inr ⟨j,later,by omega,depth⟩

theorem Listed.traverse_nodup (listed : Listed links roots children) (here : Level links k level) :
    (traverse children n level).Nodup := by
  induction n generalizing k level with
  | zero => exact .nil
  | succ n induction =>
    have next := listed.level_succ here
    refine List.nodup_append.mpr ⟨here.nodup,induction next,fun a first b second same => ?_⟩
    subst same
    obtain ⟨j,low,_,depth⟩ := (listed.mem_traverse next).mp second
    have same := depth.unique ((here.mem_iff a).mp first)
    omega

theorem Listed.count_traverse [DecidableEq ι] (listed : Listed links roots children)
    (all : ∀ b, (links b).isSome → b ∈ nodes) (rounds : nodes.length ≤ n) :
    (traverse children n roots).count a = 1 ↔ Rooted links a := by
  have start := listed.level_zero
  constructor
  · intro once
    have member : a ∈ traverse children n roots := List.count_pos_iff.mp (by omega)
    obtain ⟨j,_,_,depth⟩ := (listed.mem_traverse start).mp member
    exact rooted_iff_depth.mpr ⟨j,depth⟩
  · intro rooted
    obtain ⟨j,depth⟩ := rooted_iff_depth.mp rooted
    have bound := depth.lt_length all
    apply List.count_eq_one_of_mem (listed.traverse_nodup start)
    exact (listed.mem_traverse start).mpr ⟨j,Nat.zero_le j,by omega,depth⟩

end Listed

section Search

variable {start : ι} {visited stack found nodes : List ι}

/-- A search from `start` down: the nodes whose children are known, and those still to visit. -/
structure Frontier (links : Links ι) (start : ι) (visited stack : List ι) : Prop where
  nodup : (visited ++ stack).Nodup
  started : start ∈ visited ++ stack
  below : ∀ a ∈ visited ++ stack, ReflTransGen (Up links) a start
  parent : ∀ a ∈ visited ++ stack, a ≠ start → ∃ b ∈ visited, Up links a b
  closed : ∀ a b, Up links a b → b ∈ visited → a ∈ visited ++ stack

theorem Frontier.init : Frontier links start [] [start] where
  nodup := by simp
  started := by simp
  below := by simp [ReflTransGen.refl]
  parent := by
    intro a member different
    exact absurd (by simpa using member) different
  closed := by simp

theorem Frontier.fresh (sound : Sound links) (frontier : Frontier links start visited (a :: stack)) (up : Up links b a) :
    b ∉ visited ++ a :: stack := by
  intro member
  by_cases same : b = start
  · have live : (links b).isSome := by
      rw [Up] at up
      simp [up]
    have path : ReflTransGen (Up links) a b := same ▸ frontier.below a (by simp)
    exact (sound b live).acyclic (.head' up path)
  · obtain ⟨c,inside,other⟩ := frontier.parent b member same
    cases up.unique other
    exact (List.nodup_append.mp frontier.nodup).2.2 a inside a List.mem_cons_self rfl

/-- A node is visited: its children, each once, are to visit next. -/
theorem Frontier.visit (sound : Sound links) (frontier : Frontier links start visited (a :: stack)) (nodup : found.Nodup)
    (mem_found : ∀ b, b ∈ found ↔ Up links b a) : Frontier links start (a :: visited) (found ++ stack) := by
  have moved : (a :: visited ++ (found ++ stack)).Perm (found ++ (visited ++ a :: stack)) := by
    classical
    rw [List.perm_iff_count]
    intro b
    simp only [List.cons_append,List.count_append,List.count_cons]
    omega
  have mem (b : ι) : b ∈ a :: visited ++ (found ++ stack) ↔ Up links b a ∨ b ∈ visited ++ a :: stack := by
    rw [moved.mem_iff,List.mem_append,mem_found]
  constructor
  · refine moved.nodup_iff.mpr (List.nodup_append.mpr ⟨nodup,frontier.nodup,fun b first c second same => ?_⟩)
    exact frontier.fresh sound ((mem_found b).mp first) (same ▸ second)
  · exact (mem start).mpr (.inr frontier.started)
  · intro b member
    rcases (mem b).mp member with up | old
    · exact .head up (frontier.below a (by simp))
    · exact frontier.below b old
  · intro b member different
    rcases (mem b).mp member with up | old
    · exact ⟨a,List.mem_cons_self,up⟩
    · obtain ⟨c,inside,up⟩ := frontier.parent b old different
      exact ⟨c,List.mem_cons_of_mem a inside,up⟩
  · intro b c up inside
    rw [mem]
    rcases List.mem_cons.mp inside with rfl | old
    · exact .inl up
    · exact .inr (frontier.closed b c up old)

theorem Frontier.length_le (frontier : Frontier links start visited stack) (all : ∀ b, (links b).isSome → b ∈ nodes) :
    (visited ++ stack).length ≤ nodes.length + 1 := by
  have within : ∀ b ∈ visited ++ stack, b ∈ start :: nodes := by
    intro b member
    by_cases same : b = start
    · exact same ▸ List.mem_cons_self
    · obtain ⟨c,_,up⟩ := frontier.parent b member same
      rw [Up] at up
      exact List.mem_cons_of_mem start (all b (by simp [up]))
  exact (List.subperm_of_subset frontier.nodup within).length_le

theorem Frontier.complete (frontier : Frontier links start visited []) (path : ReflTransGen (Up links) a start) :
    a ∈ visited := by
  induction path using ReflTransGen.head_induction_on with
  | refl => simpa using frontier.started
  | @head a b up _ induction => simpa using frontier.closed a b up induction

end Search

section Table

variable {ρ : Type*} (tenant : ρ → Nat) (alive : ρ → Bool) (parent : ρ → Option Nat) {rows : List ρ} {id other : Nat} {old new : ρ}

/-- The live rows of one tenant: a row's place in the table is its id. -/
def tableLinks (rows : List ρ) (other : Nat) : Links Nat := fun id =>
  (rows[id]?.filter fun row => tenant row = other && alive row).map parent

theorem tableLinks_absent (missing : ∀ row, rows[id]? = some row → tenant row ≠ other) :
    tableLinks tenant alive parent rows other id = none := by
  rw [tableLinks,Option.map_eq_none_iff,Option.filter_eq_none_iff]
  intro row there
  simp [missing row there]

theorem tableLinks_append (living : alive new = true) : tableLinks tenant alive parent (rows ++ [new]) other =
    if other = tenant new then Function.update (tableLinks tenant alive parent rows other) rows.length (some (parent new))
    else tableLinks tenant alive parent rows other := by
  funext id
  by_cases last : id = rows.length
  · subst last
    have there : (rows ++ [new])[rows.length]? = some new := List.getElem?_concat_length
    by_cases mine : other = tenant new
    · rw [if_pos mine,Function.update_self,tableLinks,there,Option.filter_some,if_pos (by simp [mine,living]),Option.map_some]
    · rw [if_neg mine,tableLinks_absent _ _ _ (by simp [eq_comm,mine]),tableLinks_absent _ _ _ (by simp)]
  · have same : (rows ++ [new])[id]? = rows[id]? := by
      rw [List.getElem?_append]
      grind
    split
    · rw [Function.update_of_ne last,tableLinks,tableLinks,same]
    · rw [tableLinks,tableLinks,same]

theorem tableLinks_set (there : rows[id]? = some old) (same : tenant new = tenant old) :
    tableLinks tenant alive parent (rows.set id new) other =
      if other = tenant old then
        Function.update (tableLinks tenant alive parent rows other) id (if alive new then some (parent new) else none)
      else tableLinks tenant alive parent rows other := by
  have written : (rows.set id new)[id]? = some new := List.getElem?_set_self (List.getElem?_eq_some_iff.mp there).1
  funext place
  by_cases here : place = id
  · subst here
    by_cases mine : other = tenant old
    · rw [if_pos mine,Function.update_self,tableLinks,written,Option.filter_some]
      simp only [same,mine,decide_true,Bool.true_and]
      split <;> rfl
    · have away : tenant old ≠ other := fun equal => mine equal.symm
      rw [if_neg mine,tableLinks_absent _ _ _ (by simp [written,same,away]),tableLinks_absent _ _ _ (by simp [there,away])]
  · have unchanged : (rows.set id new)[place]? = rows[place]? := List.getElem?_set_ne (Ne.symm here)
    split
    · rw [Function.update_of_ne here,tableLinks,tableLinks,unchanged]
    · rw [tableLinks,tableLinks,unchanged]

end Table

end Forest
