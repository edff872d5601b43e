import Mathlib.Algebra.BigOperators.Group.Finset.Piecewise
import Mathlib.Algebra.BigOperators.Group.Multiset.Basic
import Mathlib.Algebra.BigOperators.Ring.List
import Mathlib.Algebra.Group.Submonoid.BigOperators
import Mathlib.Algebra.Order.BigOperators.Group.List
import Mathlib.Tactic.Abel

/-! Sums of a weight over the entries of a list that share a key. -/
namespace Tally

variable {ε κ M : Type*} [DecidableEq κ] [AddCommMonoid M] {key : ε → κ} {weight : ε → M} {k : κ}

def tally (key : ε → κ) (weight : ε → M) (k : κ) (entries : List ε) : M :=
  ((entries.filter fun entry => key entry = k).map weight).sum

@[simp] theorem tally_nil : tally key weight k [] = 0 := rfl

theorem tally_cons (entry : ε) (rest : List ε) : tally key weight k (entry :: rest) =
    (if key entry = k then weight entry else 0) + tally key weight k rest := by
  unfold tally
  by_cases same : key entry = k <;> simp [same]

theorem tally_append (first second : List ε) :
    tally key weight k (first ++ second) = tally key weight k first + tally key weight k second := by
  simp [tally]

theorem tally_singleton (entry : ε) : tally key weight k [entry] = if key entry = k then weight entry else 0 := by
  rw [tally_cons,tally_nil,add_zero]

theorem tally_eq_zero {entries : List ε} (absent : ∀ entry ∈ entries, key entry ≠ k) :
    tally key weight k entries = 0 := by
  have none : entries.filter (fun entry => key entry = k) = [] := by simpa using absent
  rw [tally,none,List.map_nil,List.sum_nil]

theorem tally_filter (selected : ε → Bool) (entries : List ε) : tally key weight k (entries.filter selected) =
    (entries.map fun entry => if selected entry ∧ key entry = k then weight entry else 0).sum := by
  induction entries with
  | nil => rfl
  | cons entry rest induction =>
    by_cases chosen : selected entry
    · simp [chosen,tally_cons,induction]
    · simp [chosen,induction]

theorem tally_perm {first second : List ε} (perm : first.Perm second) : tally key weight k first = tally key weight k second :=
  ((perm.filter _).map weight).sum_eq

theorem tally_split (selected : ε → Bool) (entries : List ε) :
    tally key weight k (entries.filter selected) + tally key weight k (entries.filter fun entry => !selected entry) =
      tally key weight k entries := by
  rw [← tally_append]
  exact tally_perm (List.filter_append_perm selected entries)

theorem tally_map {α : Type*} (f : α → ε) (entries : List α) :
    tally key weight k (entries.map f) = tally (key ∘ f) (weight ∘ f) k entries := by
  simp [tally,List.filter_map,Function.comp_def]

theorem tally_set {entries : List ε} {i : Nat} {old : ε} (new : ε) (found : entries[i]? = some old) :
    tally key weight k (entries.set i new) + (if key old = k then weight old else 0) =
      tally key weight k entries + if key new = k then weight new else 0 := by
  induction entries generalizing i with
  | nil => cases found
  | cons entry rest induction =>
    cases i with
    | zero =>
      obtain rfl := Option.some.inj found
      rw [List.set_cons_zero,tally_cons,tally_cons]
      abel
    | succ i =>
      have later := induction (i := i) found
      rw [List.set_cons_succ,tally_cons,tally_cons,add_assoc,later,add_assoc]

theorem tally_congr {other : ε → M} {entries : List ε} (same : ∀ entry ∈ entries, weight entry = other entry) :
    tally key weight k entries = tally key other k entries := by
  unfold tally
  rw [List.map_congr_left fun entry member => same entry (List.mem_of_mem_filter member)]

theorem tally_nonneg [Preorder M] [AddLeftMono M] {entries : List ε} (nonneg : ∀ entry ∈ entries, 0 ≤ weight entry) :
    0 ≤ tally key weight k entries := by
  refine List.sum_nonneg fun value member => ?_
  obtain ⟨entry,inside,rfl⟩ := List.mem_map.mp member
  exact nonneg entry (List.mem_of_mem_filter inside)

theorem tally_mono [Preorder M] [AddLeftMono M] [AddRightMono M] {other : ε → M} {entries : List ε}
    (less : ∀ entry ∈ entries, weight entry ≤ other entry) : tally key weight k entries ≤ tally key other k entries :=
  List.sum_le_sum fun entry member => less entry (List.mem_of_mem_filter member)

theorem tally_zero (entries : List ε) : tally key (fun _ => (0 : M)) k entries = 0 := by
  simp [tally]

theorem tally_place {α : Type*} (key : α → κ) (weight : M) (xs : List α) (n i : Nat) :
    tally (fun entry : α × Nat => key entry.1) (fun entry => if entry.2 = n + i then weight else 0) k (xs.zipIdx n) =
      if xs[i]?.map key = some k then weight else 0 := by
  induction xs generalizing n i with
  | nil => simp
  | cons x xs induction =>
    rw [List.zipIdx_cons,tally_cons]
    cases i with
    | zero =>
      have beyond : ∀ entry ∈ xs.zipIdx (n + 1), entry.2 ≠ n + 0 := by
        intro entry member
        have after := List.le_snd_of_mem_zipIdx member
        omega
      rw [tally_congr fun entry member => if_neg (beyond entry member),tally_zero]
      simp
    | succ i =>
      have later := induction (n + 1) i
      rw [Nat.add_right_comm,Nat.add_assoc] at later
      rw [later]
      simp

theorem tally_add (other : ε → M) (entries : List ε) :
    tally key (fun entry => weight entry + other entry) k entries = tally key weight k entries + tally key other k entries :=
  List.sum_map_add

theorem tally_le_sum [Preorder M] [AddLeftMono M] [AddRightMono M] {entries : List ε} (nonneg : ∀ entry ∈ entries, 0 ≤ weight entry) :
    tally key weight k entries ≤ (entries.map weight).sum :=
  (List.filter_sublist.map weight).sum_le_sum fun value member => by
    obtain ⟨entry,inside,rfl⟩ := List.mem_map.mp member
    exact nonneg entry inside

theorem tally_mem {S : Type*} [SetLike S M] [AddSubmonoidClass S M] {closed : S} {entries : List ε}
    (inside : ∀ entry ∈ entries, weight entry ∈ closed) : tally key weight k entries ∈ closed := by
  refine list_sum_mem fun value member => ?_
  obtain ⟨entry,there,rfl⟩ := List.mem_map.mp member
  exact inside entry (List.mem_of_mem_filter there)

theorem sum_mapIdx_le [Preorder M] [AddLeftMono M] {f : Nat → ε → ε} {entries : List ε}
    (less : ∀ i, ∀ entry ∈ entries, weight (f i entry) ≤ weight entry) :
    ((entries.mapIdx f).map weight).sum ≤ (entries.map weight).sum := by
  have plain : entries.map weight = entries.zipIdx.map (weight ∘ Prod.fst) := by
    rw [← List.map_map,List.zipIdx_map_fst]
  rw [List.mapIdx_eq_zipIdx_map,List.map_map,plain]
  apply List.sum_le_sum
  intro indexed member
  exact less indexed.2 indexed.1 (List.fst_mem_of_mem_zipIdx member)

theorem sum_map_sub {G : Type*} [AddCommGroup G] (first second : ε → G) (entries : List ε) :
    (entries.map fun entry => first entry - second entry).sum = (entries.map first).sum - (entries.map second).sum := by
  have coerced := @Multiset.sum_map_sub ε G _ entries first second
  simpa only [Multiset.map_coe,Multiset.sum_coe] using coerced

theorem sum_tally {keys : Finset κ} {entries : List ε} (covered : ∀ entry ∈ entries, key entry ∈ keys) :
    ∑ k ∈ keys, tally key weight k entries = (entries.map weight).sum := by
  induction entries with
  | nil => simp
  | cons entry rest induction =>
    have inside : key entry ∈ keys := covered entry List.mem_cons_self
    have later := induction fun other member => covered other (List.mem_cons_of_mem _ member)
    simp only [tally_cons,Finset.sum_add_distrib,later,Finset.sum_ite_eq,if_pos inside,List.map_cons,List.sum_cons]

theorem sum_tally_filter {ι : Type*} [DecidableEq ι] {of_ : ε → ι} {indices : List ι} (distinct : indices.Nodup) {entries : List ε}
    (covered : ∀ entry ∈ entries, of_ entry ∈ indices) :
    (indices.map fun i => tally key weight k (entries.filter fun entry => of_ entry = i)).sum = tally key weight k entries := by
  induction entries with
  | nil => simp
  | cons entry rest induction =>
    obtain ⟨inside,covered⟩ := List.forall_mem_cons.mp covered
    have each (i : ι) : tally key weight k ((entry :: rest).filter fun entry => of_ entry = i) =
        (if of_ entry = i then if key entry = k then weight entry else 0 else 0) +
          tally key weight k (rest.filter fun entry => of_ entry = i) := by
      by_cases mine : of_ entry = i
      · simp [mine,tally_cons]
      · simp [mine]
    have once : (indices.map fun i => if of_ entry = i then if key entry = k then weight entry else 0 else 0).sum =
        if key entry = k then weight entry else 0 := by
      rw [← List.sum_toFinset _ distinct,Finset.sum_ite_eq,if_pos (List.mem_toFinset.mpr inside)]
    simp only [each]
    rw [List.sum_map_add,once,induction covered,tally_cons]

end Tally
