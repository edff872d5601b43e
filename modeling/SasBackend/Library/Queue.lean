import Mathlib.Data.List.Sort
import Mathlib.Data.List.Forall2
import Mathlib.Order.Defs.LinearOrder

/-! Who is served before whom in a queue, and queues that are kept in groups. -/
namespace Queue

variable {α β κ : Type*} {queue : List α} {a b : α}

theorem pair_sublist_or (first : a ∈ queue) (second : b ∈ queue) (apart : a ≠ b) : [a,b].Sublist queue ∨ [b,a].Sublist queue := by
  obtain ⟨before,after,rfl⟩ := List.append_of_mem first
  rcases List.mem_append.mp second with earlier | later
  · exact .inr ((List.singleton_sublist.mpr earlier).append (List.singleton_sublist.mpr List.mem_cons_self))
  · obtain rfl | later := List.mem_cons.mp later
    · exact absurd rfl apart
    · exact .inl (((List.singleton_sublist.mpr later).cons_cons a).trans (List.sublist_append_right _ _))

theorem pair_sublist_of_pairwise {r : α → α → Prop} (ordered : queue.Pairwise r) (first : a ∈ queue) (second : b ∈ queue) (apart : a ≠ b)
    (ahead : ¬ r b a) : [a,b].Sublist queue := by
  refine (pair_sublist_or first second apart).resolve_right fun behind => ahead ?_
  exact List.pairwise_iff_forall_sublist.mp ordered behind

/-- Groups with keys of their own are found again by their keys. -/
theorem filter_flatten [DecidableEq κ] {key : β → κ} {keys : List κ} {groups : List (List β)} (distinct : keys.Nodup)
    (each : List.Forall₂ (fun k group => ∀ x ∈ group, key x = k) keys groups) :
    List.Forall₂ (fun k group => (groups.flatten.filter fun x => key x = k) = group) keys groups := by
  induction each with
  | nil => exact .nil
  | @cons k group keys groups here later induction =>
    obtain ⟨fresh,distinct⟩ := List.nodup_cons.mp distinct
    have others : ∀ other ∈ keys, (group.filter fun x => key x = other) = [] := by
      intro other member
      apply List.filter_eq_nil_iff.mpr
      intro x inside
      have apart : k ≠ other := fun same => fresh (same ▸ member)
      simp [here x inside,apart]
    have rest : (groups.flatten.filter fun x => key x = k) = [] := by
      apply List.filter_eq_nil_iff.mpr
      intro x inside
      obtain ⟨group,member,within⟩ := List.mem_flatten.mp inside
      rw [← List.map_snd_zip later.length_eq.ge] at member
      obtain ⟨⟨other,_⟩,paired,rfl⟩ := List.mem_map.mp member
      have keyed : key x = other := (List.forall₂_iff_zip.mp later).2 paired x within
      have apart : other ≠ k := fun same => fresh (same ▸ (List.of_mem_zip paired).1)
      simp [keyed,apart]
    constructor
    · rw [List.flatten_cons,List.filter_append,rest,List.append_nil]
      exact List.filter_eq_self.mpr fun x inside => decide_eq_true (here x inside)
    · refine List.forall₂_iff_zip.mpr ⟨later.length_eq,fun {other found} paired => ?_⟩
      rw [List.flatten_cons,List.filter_append,others other (List.of_mem_zip paired).1,List.nil_append]
      exact (List.forall₂_iff_zip.mp (induction distinct)).2 paired

theorem dropWhile_le [LinearOrder α] {bound : α} (ordered : queue.Pairwise (· ≤ ·)) :
    (queue.dropWhile fun x => decide (x ≤ bound)) = queue.filter fun x => bound < x := by
  induction queue with
  | nil => rfl
  | cons first rest induction =>
    obtain ⟨least,ordered⟩ := List.pairwise_cons.mp ordered
    by_cases small : first ≤ bound
    · rw [List.dropWhile_cons_of_pos (by simpa using small),List.filter_cons_of_neg (by simpa using small)]
      exact induction ordered
    · have large : ∀ x ∈ first :: rest, bound < x := by
        intro x member
        rcases List.mem_cons.mp member with rfl | later
        · exact not_le.mp small
        · exact lt_of_lt_of_le (not_le.mp small) (least x later)
      rw [List.dropWhile_cons_of_neg (by simpa using small)]
      exact (List.filter_eq_self.mpr fun x member => decide_eq_true (large x member)).symm

theorem exists_le_iff_head [LinearOrder α] {bound first : α} {rest : List α} (ordered : (first :: rest).Pairwise (· ≤ ·)) :
    (∃ x ∈ first :: rest, x ≤ bound) ↔ first ≤ bound := by
  constructor
  · rintro ⟨x,member,small⟩
    rcases List.mem_cons.mp member with rfl | later
    · exact small
    · exact le_trans ((List.pairwise_cons.mp ordered).1 x later) small
  · intro small
    exact ⟨first,List.mem_cons_self,small⟩

end Queue
