import Mathlib.Algebra.Order.BigOperators.Group.Finset
import Mathlib.Data.Finset.Max
import Mathlib.Data.List.Dedup
import SasBackend.Library.Tally

/-! Rows grouped by a key, with sums and counts of distinct values over the groups, and ranks without gaps.
-/
namespace Grouping
open Tally (tally)

variable {α κ ι M β : Type*} [DecidableEq κ] [DecidableEq ι] [AddCommMonoid M]

/-- The rows of each key, by the first of them. -/
def groups (key : α → κ) (rows : List α) : List (κ × List α) :=
  (rows.map key).dedup.map fun k => (k,rows.filter fun row => key row = k)

def total (weight : α → M) (rows : List α) : M := (rows.map weight).sum

/-- How many labels the rows have. -/
def distinct (label : α → ι) (rows : List α) : Nat := (rows.map label).dedup.length

variable {key : α → κ} {label : α → ι} {weight : α → M} {rows more : List α}

theorem total_append : total weight (rows ++ more) = total weight rows + total weight more := by
  rw [total,List.map_append,List.sum_append]
  rfl

theorem total_perm (perm : rows.Perm more) : total weight rows = total weight more := (perm.map weight).sum_eq

theorem distinct_eq_card : distinct label rows = (rows.map label).toFinset.card := (List.card_toFinset _).symm

theorem distinct_perm (perm : rows.Perm more) : distinct label rows = distinct label more := by
  rw [distinct_eq_card,distinct_eq_card,List.toFinset_eq_of_perm _ _ (perm.map label)]

theorem distinct_append (apart : ∀ a ∈ rows, ∀ b ∈ more, label a ≠ label b) :
    distinct label (rows ++ more) = distinct label rows + distinct label more := by
  simp only [distinct_eq_card]
  rw [List.map_append,List.toFinset_append,Finset.card_union_of_disjoint]
  rw [Finset.disjoint_left]
  intro name first second
  obtain ⟨a,here,rfl⟩ := List.mem_map.mp (List.mem_toFinset.mp first)
  obtain ⟨b,there,same⟩ := List.mem_map.mp (List.mem_toFinset.mp second)
  exact apart a here b there same.symm

section Keys
variable {keys : List κ} (nodup : keys.Nodup) (covers : ∀ row ∈ rows, key row ∈ keys)
include nodup covers

theorem total_over : (keys.map fun k => total weight (rows.filter fun row => key row = k)).sum = total weight rows := by
  have covered : ∀ row ∈ rows, key row ∈ keys.toFinset := fun row inside => List.mem_toFinset.mpr (covers row inside)
  have summed : ∑ k ∈ keys.toFinset, tally key weight k rows = total weight rows := Tally.sum_tally covered
  rwa [List.sum_toFinset _ nodup] at summed

omit nodup in
private theorem labels_over : (rows.map label).toFinset =
    keys.toFinset.biUnion fun k => ((rows.filter fun row => key row = k).map label).toFinset := by
  ext name
  simp only [List.mem_toFinset,List.mem_map,Finset.mem_biUnion,List.mem_filter,decide_eq_true_eq]
  constructor
  · rintro ⟨row,inside,rfl⟩
    exact ⟨key row,covers row inside,row,⟨inside,rfl⟩,rfl⟩
  · rintro ⟨_,_,row,⟨inside,_⟩,rfl⟩
    exact ⟨row,inside,rfl⟩

theorem distinct_le_over :
    distinct label rows ≤ (keys.map fun k => distinct label (rows.filter fun row => key row = k)).sum := by
  simp only [distinct_eq_card]
  rw [labels_over covers,← List.sum_toFinset _ nodup]
  exact Finset.card_biUnion_le

theorem distinct_over (goes : ∀ a ∈ rows, ∀ b ∈ rows, label a = label b → key a = key b) :
    (keys.map fun k => distinct label (rows.filter fun row => key row = k)).sum = distinct label rows := by
  simp only [distinct_eq_card]
  rw [labels_over covers,← List.sum_toFinset _ nodup,Finset.card_biUnion]
  intro k _ l _ apart
  rw [Function.onFun,Finset.disjoint_left]
  intro name first second
  simp only [List.mem_toFinset,List.mem_map,List.mem_filter,decide_eq_true_eq] at first second
  obtain ⟨a,⟨here,rfl⟩,named⟩ := first
  obtain ⟨b,⟨there,rfl⟩,same⟩ := second
  exact apart (goes a here b there (named.trans same.symm))

end Keys

private theorem keys_cover : ∀ row ∈ rows, key row ∈ (rows.map key).dedup :=
  fun _ inside => List.mem_dedup.mpr (List.mem_map_of_mem inside)

theorem total_groups : ((groups key rows).map fun group => total weight group.2).sum = total weight rows := by
  rw [groups,List.map_map]
  exact total_over (List.nodup_dedup _) keys_cover

theorem distinct_le_groups :
    distinct label rows ≤ ((groups key rows).map fun group => distinct label group.2).sum := by
  rw [groups,List.map_map]
  exact distinct_le_over (List.nodup_dedup _) keys_cover

theorem distinct_groups (goes : ∀ a ∈ rows, ∀ b ∈ rows, label a = label b → key a = key b) :
    ((groups key rows).map fun group => distinct label group.2).sum = distinct label rows := by
  rw [groups,List.map_map]
  exact distinct_over (List.nodup_dedup _) keys_cover goes

private theorem groups_filter (p : α → Bool) (f : List α → M) : ((groups key rows).map fun group => f (group.2.filter p)).sum =
    ((rows.map key).dedup.map fun k => f ((rows.filter p).filter fun row => key row = k)).sum := by
  rw [groups,List.map_map]
  refine congrArg List.sum (List.map_congr_left fun k _ => ?_)
  exact congrArg f (List.filter_comm _ _ _)

private theorem keys_cover_filter (p : α → Bool) : ∀ row ∈ rows.filter p, key row ∈ (rows.map key).dedup :=
  fun row inside => keys_cover row (List.mem_of_mem_filter inside)

theorem total_groups_filter (p : α → Bool) :
    ((groups key rows).map fun group => total weight (group.2.filter p)).sum = total weight (rows.filter p) := by
  rw [groups_filter p (total weight)]
  exact total_over (List.nodup_dedup _) (keys_cover_filter p)

theorem distinct_groups_filter (p : α → Bool)
    (goes : ∀ a ∈ rows.filter p, ∀ b ∈ rows.filter p, label a = label b → key a = key b) :
    ((groups key rows).map fun group => distinct label (group.2.filter p)).sum = distinct label (rows.filter p) := by
  rw [groups_filter p (distinct label)]
  exact distinct_over (List.nodup_dedup _) (keys_cover_filter p) goes

theorem lookup_groups {γ : Type*} (f : List α → γ) (k : κ) :
    ((groups key rows).map fun group => (group.1,f group.2)).lookup k =
      if k ∈ rows.map key then some (f (rows.filter fun row => key row = k)) else none := by
  have found : ∀ ks : List κ, ((ks.map fun k => (k,rows.filter fun row => key row = k)).map fun group =>
      (group.1,f group.2)).lookup k = if k ∈ ks then some (f (rows.filter fun row => key row = k)) else none := by
    intro ks
    induction ks with
    | nil => rfl
    | cons l ks induction =>
      rw [List.map_cons,List.map_cons,List.lookup_cons]
      by_cases same : k = l
      · subst same
        simp
      · rw [beq_eq_false_iff_ne.mpr same]
        simp only [induction,List.mem_cons,same,false_or]
  rw [groups,found]
  simp only [List.mem_dedup]

/-- One more than the number of scores above it. -/
def denseRank [DecidableEq β] [LT β] [DecidableLT β] (score : α → β) (rows : List α) (row : α) : Nat :=
  1 + distinct score (rows.filter fun other => score row < score other)

section Ranks
variable [LinearOrder β] {score : α → β} {a b : α}

theorem denseRank_le (le : score b ≤ score a) : denseRank score rows a ≤ denseRank score rows b := by
  simp only [denseRank,distinct_eq_card]
  refine Nat.add_le_add_left (Finset.card_le_card ?_) 1
  intro value inside
  simp only [List.mem_toFinset,List.mem_map,List.mem_filter,decide_eq_true_eq] at inside ⊢
  obtain ⟨row,⟨there,above⟩,rfl⟩ := inside
  exact ⟨row,⟨there,le.trans_lt above⟩,rfl⟩

/-- Up to a rank there are at most so many scores. -/
theorem distinct_ranked (limit : Nat) :
    distinct score (rows.filter fun row => denseRank score rows row ≤ limit) ≤ limit := by
  rw [distinct_eq_card]
  rcases Finset.eq_empty_or_nonempty ((rows.filter fun row => denseRank score rows row ≤ limit).map score).toFinset with
    nothing | some
  · rw [nothing,Finset.card_empty]
    exact Nat.zero_le limit
  · -- The lowest score that is kept has all the others above it.
    obtain ⟨low,least,lowest⟩ := Finset.exists_min_image _ id some
    obtain ⟨row,inside,rfl⟩ := List.mem_map.mp (List.mem_toFinset.mp least)
    have ranked : denseRank score rows row ≤ limit := of_decide_eq_true (List.mem_filter.mp inside).2
    refine le_trans ?_ ranked
    rw [denseRank,distinct_eq_card,Nat.add_comm]
    refine le_trans ?_ (Finset.card_insert_le (score row) _)
    apply Finset.card_le_card
    intro value found
    have above : score row ≤ value := lowest value found
    obtain ⟨other,there,rfl⟩ := List.mem_map.mp (List.mem_toFinset.mp found)
    rcases above.lt_or_eq with higher | same
    · refine Finset.mem_insert_of_mem (List.mem_toFinset.mpr (List.mem_map_of_mem ?_))
      exact List.mem_filter.mpr ⟨(List.mem_filter.mp there).1,decide_eq_true higher⟩
    · rw [← same]
      exact Finset.mem_insert_self _ _

end Ranks

end Grouping
