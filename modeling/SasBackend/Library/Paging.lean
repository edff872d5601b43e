import Mathlib.Data.List.Sort
import Mathlib.Order.Lattice

/-! Pages cut from lists sorted by a key, and the page merged from several cut lists.
An element is on a page exactly when fewer elements than the page holds have a smaller key.
-/
namespace Paging

variable {α κ : Type*} [LinearOrder κ] (key : α → κ)

/-- How many elements of the list have a key below `k`. -/
def rank (xs : List α) (k : κ) : Nat := xs.countP (key · < k)

def Ascending (xs : List α) : Prop := xs.Pairwise (key · < key ·)

def sortBy (xs : List α) : List α := xs.insertionSort (key · ≤ key ·)

variable {key}

theorem rank_append (xs ys : List α) (k : κ) : rank key (xs ++ ys) k = rank key xs k + rank key ys k :=
  List.countP_append

theorem rank_perm {xs ys : List α} (perm : xs.Perm ys) (k : κ) : rank key xs k = rank key ys k :=
  perm.countP_eq _

theorem rank_sublist {xs ys : List α} (sub : xs.Sublist ys) (k : κ) : rank key xs k ≤ rank key ys k :=
  sub.countP_le

theorem rank_eq_length {xs : List α} {k : κ} (below : ∀ x ∈ xs, key x < k) : rank key xs k = xs.length := by
  rw [rank,List.countP_eq_length]
  intro x member
  exact decide_eq_true (below x member)

theorem rank_eq_zero {xs : List α} {k : κ} (above : ∀ x ∈ xs, k ≤ key x) : rank key xs k = 0 := by
  rw [rank,List.countP_eq_zero]
  intro x member
  simpa using above x member

theorem rank_mono (xs : List α) {k l : κ} (le : k ≤ l) : rank key xs k ≤ rank key xs l := by
  apply List.countP_mono_left
  intro x _ below
  exact decide_eq_true (lt_of_lt_of_le (of_decide_eq_true below) le)

theorem sortBy_perm (xs : List α) : (sortBy key xs).Perm xs := List.perm_insertionSort _ xs

theorem mem_sortBy {xs : List α} {x : α} : x ∈ sortBy key xs ↔ x ∈ xs := (sortBy_perm xs).mem_iff

theorem sortBy_sorted (xs : List α) : (sortBy key xs).Pairwise (key · ≤ key ·) := by
  have total : Std.Total fun a b : α => key a ≤ key b := ⟨fun a b => le_total _ _⟩
  have trans : IsTrans α fun a b => key a ≤ key b := ⟨fun a b c => le_trans⟩
  exact List.pairwise_insertionSort _ xs

theorem sortBy_ascending {xs : List α} (distinct : xs.Pairwise (key · ≠ key ·)) :
    Ascending key (sortBy key xs) := by
  have sorted : (sortBy key xs).Pairwise (key · ≤ key ·) := sortBy_sorted xs
  have apart : (sortBy key xs).Pairwise (key · ≠ key ·) :=
    (sortBy_perm xs).symm.pairwise distinct (fun h => h.symm)
  exact (sorted.and apart).imp fun both => lt_of_le_of_ne both.1 both.2

/-- Above a key no element has, the next element has the rank of that key. -/
theorem exists_next {xs : List α} {k : κ} (absent : ∀ x ∈ xs, key x ≠ k) (above : ∃ x ∈ xs, k < key x) :
    ∃ x ∈ xs, k < key x ∧ rank key xs (key x) = rank key xs k := by
  obtain ⟨y,member,beyond⟩ := above
  have listed : y ∈ sortBy key (xs.filter (k < key ·)) :=
    mem_sortBy.mpr (List.mem_filter.mpr ⟨member,decide_eq_true beyond⟩)
  obtain ⟨w,rest,split⟩ := List.exists_cons_of_ne_nil (List.ne_nil_of_mem listed)
  have inside : w ∈ xs ∧ k < key w := by
    have first : w ∈ sortBy key (xs.filter (k < key ·)) := by simp [split]
    simpa using mem_sortBy.mp first
  have least : ∀ x ∈ xs, k < key x → key w ≤ key x := by
    intro x present further
    have placed : x ∈ w :: rest :=
      split ▸ mem_sortBy.mpr (List.mem_filter.mpr ⟨present,decide_eq_true further⟩)
    have sorted : (w :: rest).Pairwise (key · ≤ key ·) := split ▸ sortBy_sorted _
    rcases List.mem_cons.mp placed with same | later
    · rw [same]
    · exact (List.pairwise_cons.mp sorted).1 x later
  refine ⟨w,inside.1,inside.2,List.countP_congr fun x present => ?_⟩
  rw [decide_eq_true_eq,decide_eq_true_eq]
  constructor
  · intro below
    by_contra high
    have further : k < key x := lt_of_le_of_ne (not_lt.mp high) (absent x present).symm
    exact absurd below (not_lt.mpr (least x present further))
  · exact fun below => below.trans inside.2

theorem le_last {xs : List α} (sorted : xs.Pairwise (key · ≤ key ·)) {last : α} (ends : xs.getLast? = some last)
    {x : α} (member : x ∈ xs) : key x ≤ key last := by
  obtain ⟨front,rfl⟩ := List.getLast?_eq_some_iff.mp ends
  rcases List.mem_append.mp member with inside | here
  · exact (List.pairwise_append.mp sorted).2.2 x inside last (List.mem_singleton_self last)
  · rw [List.mem_singleton.mp here]

/-- Membership in the first `n` elements of an ascending list. -/
theorem mem_take {xs : List α} (ascending : Ascending key xs) (n : Nat) (x : α) :
    x ∈ xs.take n ↔ x ∈ xs ∧ rank key xs (key x) < n := by
  induction xs generalizing n with
  | nil => simp
  | cons y ys induction =>
    obtain ⟨first,rest⟩ := List.pairwise_cons.mp ascending
    have cons (k : κ) : rank key (y :: ys) k = rank key ys k + if key y < k then 1 else 0 := by
      simp [rank,List.countP_cons]
    cases n with
    | zero => simp
    | succ n =>
      rw [List.take_succ_cons,List.mem_cons,List.mem_cons,induction rest n,cons]
      constructor
      · rintro (same | ⟨member,low⟩)
        · refine ⟨.inl same,?_⟩
          rw [same,rank_eq_zero fun z member => le_of_lt (first z member)]
          simp
        · rw [if_pos (first x member)]
          exact ⟨.inr member,by omega⟩
      · rintro ⟨same | member,low⟩
        · exact .inl same
        · rw [if_pos (first x member)] at low
          exact .inr ⟨member,by omega⟩

theorem rank_of_take {xs : List α} (ascending : Ascending key xs) {n : Nat} {k : κ}
    (low : rank key (xs.take n) k < n) : rank key xs k = rank key (xs.take n) k := by
  have split : rank key xs k = rank key (xs.take n) k + rank key (xs.drop n) k := by
    rw [← rank_append,List.take_append_drop]
  suffices rest : rank key (xs.drop n) k = 0 by rw [split,rest,Nat.add_zero]
  apply rank_eq_zero
  intro y dropped
  by_contra below
  have between : ∀ x ∈ xs.take n, key x < k := by
    intro x taken
    have order : key x < key y := ascending.rel_of_mem_take_of_mem_drop taken dropped
    exact order.trans (not_le.mp below)
  have long : n ≤ xs.length := by
    by_contra short
    rw [List.drop_eq_nil_of_le (by omega)] at dropped
    cases dropped
  rw [rank_eq_length between,List.length_take,Nat.min_eq_left long] at low
  exact Nat.lt_irrefl n low

def cut (n : Nat) (groups : List (List α)) : List α := groups.flatMap (·.take (n + 1))

theorem cut_sublist (n : Nat) (groups : List (List α)) : (cut n groups).Sublist groups.flatten := by
  induction groups with
  | nil => exact .slnil
  | cons group rest induction =>
    rw [cut,List.flatMap_cons,List.flatten_cons]
    exact (List.take_sublist ..).append induction

private theorem rank_cut {groups : List (List α)} (ascending : ∀ group ∈ groups, Ascending key group)
    {n : Nat} {k : κ} (low : rank key (cut n groups) k ≤ n) :
    rank key groups.flatten k = rank key (cut n groups) k := by
  induction groups with
  | nil => rfl
  | cons group rest induction =>
    rw [cut,List.flatMap_cons,rank_append] at low ⊢
    rw [List.flatten_cons,rank_append]
    have first := rank_of_take (ascending group List.mem_cons_self) (n := n + 1) (k := k) (by omega)
    have others := induction (fun g member => ascending g (List.mem_cons_of_mem _ member))
      (by rw [cut]; omega)
    rw [first,others,cut]

theorem mem_merged {groups : List (List α)} (ascending : ∀ group ∈ groups, Ascending key group)
    (distinct : groups.flatten.Pairwise (key · ≠ key ·)) (n : Nat) (x : α) :
    x ∈ (sortBy key (cut n groups)).take n ↔ x ∈ groups.flatten ∧ rank key groups.flatten (key x) < n := by
  have apart := distinct.sublist (cut_sublist n groups)
  rw [mem_take (sortBy_ascending apart),mem_sortBy,rank_perm (sortBy_perm _)]
  constructor
  · rintro ⟨member,low⟩
    rw [rank_cut ascending (Nat.le_of_lt low)]
    exact ⟨(cut_sublist n groups).subset member,low⟩
  · rintro ⟨member,low⟩
    obtain ⟨group,listed,inside⟩ := List.mem_flatten.mp member
    have small : rank key group (key x) ≤ rank key groups.flatten (key x) :=
      rank_sublist (List.sublist_flatten_of_mem listed) _
    have kept : x ∈ group.take (n + 1) := (mem_take (ascending group listed) _ x).mpr ⟨inside,by omega⟩
    have le : rank key (cut n groups) (key x) ≤ rank key groups.flatten (key x) :=
      rank_sublist (cut_sublist n groups) _
    exact ⟨List.mem_flatMap.mpr ⟨group,listed,kept⟩,by omega⟩

theorem cut_eq_flatten {n : Nat} {groups : List (List α)} (short : (cut n groups).length ≤ n) :
    cut n groups = groups.flatten := by
  induction groups with
  | nil => rfl
  | cons group rest induction =>
    rw [cut,List.flatMap_cons,List.length_append,List.length_take] at short
    rw [cut,List.flatMap_cons,List.flatten_cons,List.take_of_length_le (by omega)]
    congr 1
    exact induction (by rw [cut]; omega)

end Paging
