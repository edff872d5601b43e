import Mathlib.Data.List.Nodup
import Mathlib.Data.List.Perm.Basic

/-! Tables whose rows have distinct keys where they have one.
-/
namespace UniqueKeys

variable {α κ : Type*} {key : α → Option κ} {rows : List α} {row : α} {i j : Nat}

def Distinct (key : α → Option κ) (rows : List α) : Prop := (rows.filterMap key).Nodup

/-- Another row has the key already. -/
def taken [DecidableEq κ] (key : α → Option κ) (rows : List α) (row : α) : Bool :=
  (key row).isSome && rows.any fun other => key other = key row

theorem Distinct.nil : Distinct key ([] : List α) := List.nodup_nil

theorem Distinct.perm {others : List α} (distinct : Distinct key rows) (perm : rows.Perm others) : Distinct key others :=
  (perm.filterMap key).nodup_iff.mp distinct

theorem Distinct.tail {first : α} (distinct : Distinct key (first :: rows)) : Distinct key rows :=
  List.Nodup.sublist ((List.sublist_cons_self first rows).filterMap key) distinct

theorem Distinct.head {first : α} (distinct : Distinct key (first :: rows)) {k : κ} (keyed : key first = some k) :
    ∀ row ∈ rows, key row ≠ some k := by
  intro row inside same
  rw [Distinct,List.filterMap_cons_some keyed,List.nodup_cons] at distinct
  exact distinct.1 (List.mem_filterMap.mpr ⟨row,inside,same⟩)

theorem Distinct.cons [DecidableEq κ] (distinct : Distinct key rows) (free : taken key rows row = false) :
    Distinct key (row :: rows) := by
  cases keyed : key row with
  | none =>
    rw [Distinct,List.filterMap_cons_none keyed]
    exact distinct
  | some k =>
    rw [Distinct,List.filterMap_cons_some keyed,List.nodup_cons]
    refine ⟨?_,distinct⟩
    intro inside
    obtain ⟨other,there,same⟩ := List.mem_filterMap.mp inside
    have found : rows.any (fun other => key other = key row) = true :=
      List.any_eq_true.mpr ⟨other,there,decide_eq_true (same.trans keyed.symm)⟩
    rw [taken,found,keyed] at free
    exact Bool.noConfusion free

theorem Distinct.append [DecidableEq κ] (distinct : Distinct key rows) (free : taken key rows row = false) :
    Distinct key (rows ++ [row]) :=
  (distinct.cons free).perm (List.perm_append_singleton row rows).symm

theorem Distinct.set [DecidableEq κ] (distinct : Distinct key rows) (free : taken key (rows.eraseIdx i) row = false) :
    Distinct key (rows.set i row) := by
  by_cases inside : i < rows.length
  · have others : Distinct key (rows.eraseIdx i) := List.Nodup.sublist ((List.eraseIdx_sublist rows i).filterMap key) distinct
    exact (others.cons free).perm (List.set_perm_cons_eraseIdx inside row).symm
  · rwa [List.set_eq_of_length_le (Nat.not_lt.mp inside)]

theorem Distinct.set_same {old : α} (distinct : Distinct key rows) (found : rows[i]? = some old) (same : key row = key old) :
    Distinct key (rows.set i row) := by
  obtain ⟨inside,rfl⟩ := List.getElem?_eq_some_iff.mp found
  have before : Distinct key (rows[i] :: rows.eraseIdx i) :=
    distinct.perm (List.getElem_cons_eraseIdx_perm inside).symm
  have equal : (row :: rows.eraseIdx i).filterMap key = (rows[i] :: rows.eraseIdx i).filterMap key := by
    rw [List.filterMap_cons,List.filterMap_cons,same]
  have after : Distinct key (row :: rows.eraseIdx i) := by
    rwa [Distinct,equal]
  exact after.perm (List.set_perm_cons_eraseIdx inside row).symm

theorem Distinct.set_of [DecidableEq κ] {old : α} (distinct : Distinct key rows) (found : rows[i]? = some old)
    (kept : key row = key old ∨ key row = none) : Distinct key (rows.set i row) := by
  rcases kept with same | gone
  · exact distinct.set_same found same
  · refine distinct.set ?_
    rw [taken,gone]
    rfl

theorem Distinct.map {f : α → α} (distinct : Distinct key rows) (same : ∀ row, key (f row) = key row) :
    Distinct key (rows.map f) := by
  rw [Distinct,List.filterMap_map]
  have equal : key ∘ f = key := funext same
  rwa [equal]

theorem Distinct.map_of {f : α → α} (distinct : Distinct key rows) (kept : ∀ row, key (f row) = key row ∨ key (f row) = none) :
    Distinct key (rows.map f) := by
  rw [Distinct,List.filterMap_map]
  refine List.Nodup.sublist ?_ distinct
  induction rows with
  | nil => exact .refl _
  | cons row rows induction =>
    have later := distinct.tail
    rcases kept row with same | gone
    · cases keyed : key row with
      | none => simpa [keyed,same] using induction later
      | some k => simpa [keyed,same] using induction later
    · have none_left : (key ∘ f) row = none := gone
      rw [List.filterMap_cons_none none_left]
      exact (induction later).trans ((List.sublist_cons_self row rows).filterMap key)

theorem Distinct.place {a b : α} {k : κ} (distinct : Distinct key rows) (first : rows[i]? = some a) (second : rows[j]? = some b)
    (left : key a = some k) (right : key b = some k) : i = j := by
  induction rows generalizing i j with
  | nil => simp at first
  | cons c rows induction =>
    cases i with
    | zero =>
      cases j with
      | zero => rfl
      | succ j =>
        cases first
        exact absurd right (distinct.head left b (List.mem_of_getElem? second))
    | succ i =>
      cases j with
      | zero =>
        cases second
        exact absurd left (distinct.head right a (List.mem_of_getElem? first))
      | succ j => rw [induction distinct.tail first second]

theorem Distinct.filter_cases {p : α → Bool} {k : κ} (distinct : Distinct key rows) (keyed : ∀ row ∈ rows, p row = true → key row = some k) :
    rows.filter p = [] ∨ ∃ row ∈ rows, p row = true ∧ rows.filter p = [row] := by
  induction rows with
  | nil => exact .inl rfl
  | cons c rows induction =>
    by_cases chosen : p c = true
    · have here := keyed c List.mem_cons_self chosen
      have none_left : rows.filter p = [] := by
        rw [List.filter_eq_nil_iff]
        exact fun d inside other => distinct.head here d inside (keyed d (List.mem_cons_of_mem c inside) other)
      exact .inr ⟨c,List.mem_cons_self,chosen,by rw [List.filter_cons_of_pos chosen,none_left]⟩
    · rw [List.filter_cons_of_neg chosen]
      exact (induction distinct.tail fun d inside => keyed d (List.mem_cons_of_mem c inside)).imp_right
        fun ⟨row,inside,rest⟩ => ⟨row,List.mem_cons_of_mem c inside,rest⟩

section Lookup
variable [DecidableEq κ] {k : κ} {old : α}

def lookup (key : α → Option κ) (rows : List α) (k : κ) : Option α := rows.find? fun row => key row = some k

theorem lookup_cons (first : α) : lookup key (first :: rows) k = if key first = some k then some first else lookup key rows k := by
  unfold lookup
  by_cases here : key first = some k <;> simp [here]

theorem lookup_key (found : lookup key rows k = some row) : key row = some k := by
  simpa using List.find?_some found

theorem lookup_mem (found : lookup key rows k = some row) : row ∈ rows := List.mem_of_find?_eq_some found

theorem lookup_eq_none : lookup key rows k = none ↔ ∀ row ∈ rows, key row ≠ some k := by
  simp [lookup]

theorem Distinct.lookup_of_mem (distinct : Distinct key rows) (inside : row ∈ rows) (keyed : key row = some k) :
    lookup key rows k = some row := by
  induction rows with
  | nil => cases inside
  | cons first rows induction =>
    rw [lookup_cons]
    rcases List.mem_cons.mp inside with rfl | later
    · rw [if_pos keyed]
    · rw [if_neg fun here => distinct.head here row later keyed]
      exact induction distinct.tail later

theorem lookup_append : lookup key (rows ++ [row]) k = (lookup key rows k).or (if key row = some k then some row else none) := by
  by_cases here : key row = some k <;> simp [lookup,List.find?_append,here]

/-- A row gives way to one with its key, or to one without. -/
theorem Distinct.lookup_set (distinct : Distinct key rows) (found : rows[i]? = some old) (kept : key row = key old ∨ key row = none) :
    lookup key (rows.set i row) k =
      if key old = some k then (if key row = some k then some row else none) else lookup key rows k := by
  induction rows generalizing i with
  | nil => cases found
  | cons first rows induction =>
    cases i with
    | zero =>
      cases found
      rw [List.set_cons_zero,lookup_cons,lookup_cons]
      by_cases held : key old = some k
      · rw [if_pos held,lookup_eq_none.mpr (distinct.head held)]
      · have other : key row ≠ some k := by
          rcases kept with same | gone
          · rwa [same]
          · simp [gone]
        rw [if_neg held,if_neg other,if_neg held]
    | succ i =>
      rw [List.set_cons_succ,lookup_cons,lookup_cons]
      have there : rows[i]? = some old := found
      by_cases here : key first = some k
      · rw [if_pos here,if_pos here,if_neg (distinct.head here old (List.mem_of_getElem? there))]
      · rw [if_neg here,if_neg here]
        exact induction distinct.tail there

theorem Distinct.lookup_map {f : α → α} (distinct : Distinct key rows) (kept : ∀ row, key (f row) = key row ∨ key (f row) = none) :
    lookup key (rows.map f) k = (lookup key rows k).bind fun row => if key (f row) = some k then some (f row) else none := by
  induction rows with
  | nil => rfl
  | cons first rows induction =>
    rw [List.map_cons,lookup_cons,lookup_cons,induction distinct.tail]
    by_cases held : key first = some k
    · rw [if_pos held,lookup_eq_none.mpr (distinct.head held)]
      rfl
    · have other : key (f first) ≠ some k := by
        rcases kept first with same | gone
        · rwa [same]
        · simp [gone]
      rw [if_neg held,if_neg other]

end Lookup

theorem Distinct.zipIdx (distinct : Distinct key rows) (n : Nat) : Distinct (key ∘ Prod.fst) (rows.zipIdx n) := by
  rw [Distinct,← List.filterMap_map,List.zipIdx_map_fst]
  exact distinct

theorem Distinct.places [DecidableEq κ] {p : α → Bool} {k : κ} (distinct : Distinct key rows)
    (keyed : ∀ row, p row = true ↔ key row = some k) :
    rows.zipIdx.filter (fun entry => p entry.1) = [] ∧ lookup key rows k = none ∨
      ∃ i row, rows[i]? = some row ∧ rows.zipIdx.filter (fun entry => p entry.1) = [(row,i)] ∧
        lookup key rows k = some row ∧ key row = some k := by
  have placed : ∀ entry ∈ rows.zipIdx, p entry.1 = true → (key ∘ Prod.fst) entry = some k :=
    fun entry _ chosen => (keyed entry.1).mp chosen
  rcases (distinct.zipIdx 0).filter_cases placed with nothing | ⟨⟨row,i⟩,inside,chosen,single⟩
  · refine .inl ⟨nothing,lookup_eq_none.mpr fun row inside same => ?_⟩
    obtain ⟨i,there⟩ := List.mem_iff_getElem?.mp inside
    exact List.filter_eq_nil_iff.mp nothing (row,i) (List.mem_zipIdx_iff_getElem?.mpr there) ((keyed row).mpr same)
  · have there := List.mem_zipIdx_iff_getElem?.mp inside
    have same := (keyed row).mp chosen
    exact .inr ⟨i,row,there,single,distinct.lookup_of_mem (List.mem_of_getElem? there) same,same⟩

end UniqueKeys
