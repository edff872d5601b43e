import Mathlib.Data.List.Basic

/-! Open transactions, each given by its uncommitted work after every statement, newest first.
A rollback drops the newest; a statement goes on from what is left.
-/
namespace Histories

variable {ω : Type*} {ok : ω → Prop} {apart : ω → ω → Prop} {transactions : List (List ω)} {t u : Nat}
  {history others : List ω} {empty : ω}

/-- The work the next statement goes on from. -/
def now (empty : ω) (history : List ω) : ω := history.head?.getD empty

/-- No other transaction holds the row, at any savepoint it could return to. -/
def free (transactions : List (List ω)) (t : Nat) (locked : ω → Bool) : Bool :=
  (transactions.eraseIdx t).all fun history => history.all fun work => !locked work

/-- Every work is in order, and works of different transactions keep apart. -/
structure Kept (ok : ω → Prop) (apart : ω → ω → Prop) (transactions : List (List ω)) : Prop where
  own : ∀ (t : Nat) (history : List ω), transactions[t]? = some history → ∀ work ∈ history, ok work
  apart : ∀ (t u : Nat) (history others : List ω), transactions[t]? = some history → transactions[u]? = some others →
    t ≠ u → ∀ work ∈ history, ∀ other ∈ others, apart work other

/-- The history may become that of the transaction. -/
structure Fits (ok : ω → Prop) (apart : ω → ω → Prop) (transactions : List (List ω)) (t : Nat) (history : List ω) :
    Prop where
  own : ∀ work ∈ history, ok work
  apart : ∀ (u : Nat) (others : List ω), transactions[u]? = some others → t ≠ u →
    ∀ work ∈ history, ∀ other ∈ others, apart work other

theorem now_cases (empty : ω) (history : List ω) : now empty history ∈ history ∨ now empty history = empty := by
  cases history with
  | nil => exact .inr rfl
  | cons newest older => exact .inl List.mem_cons_self

theorem others_free {locked : ω → Bool} (granted : free transactions t locked = true)
    (there : transactions[u]? = some others) (different : t ≠ u) : ∀ work ∈ others, locked work = false := by
  have member : others ∈ transactions.eraseIdx t := List.mem_eraseIdx_iff_getElem?.mpr ⟨u,Ne.symm different,there⟩
  have unlocked := List.all_eq_true.mp granted others member
  simpa using unlocked

theorem set_cases {found : List ω} (there : (transactions.set t history)[u]? = some found) :
    (u = t ∧ found = history) ∨ (u ≠ t ∧ transactions[u]? = some found) := by
  rw [List.getElem?_set] at there
  grind

theorem Kept.nil : Kept ok apart [] := ⟨by simp,by simp⟩

theorem Kept.fits (kept : Kept ok apart transactions) (there : transactions[t]? = some history) :
    Fits ok apart transactions t history :=
  ⟨kept.own t history there,fun u others other different => kept.apart t u history others there other different⟩

theorem Kept.set (kept : Kept ok apart transactions) (symmetric : ∀ work other, apart work other → apart other work)
    (new : Fits ok apart transactions t history) : Kept ok apart (transactions.set t history) := by
  constructor
  · intro u found there
    rcases set_cases there with ⟨rfl,rfl⟩ | ⟨_,there⟩
    · exact new.own
    · exact kept.own u found there
  · intro u v first second one two different work inside other member
    rcases set_cases one with ⟨rfl,rfl⟩ | ⟨away,mine⟩
    · rcases set_cases two with ⟨rfl,rfl⟩ | ⟨_,theirs⟩
      · exact absurd rfl different
      · exact new.apart v second theirs different work inside other member
    · rcases set_cases two with ⟨rfl,rfl⟩ | ⟨_,theirs⟩
      · exact symmetric other work (new.apart u first mine (Ne.symm away) other member work inside)
      · exact kept.apart u v first second mine theirs different work inside other member

theorem append_cases {found : List ω} (there : (transactions ++ [[]])[t]? = some found) :
    transactions[t]? = some found ∨ found = [] := by
  rw [List.getElem?_append] at there
  split at there
  · exact .inl there
  · rw [List.getElem?_singleton] at there
    split at there
    · exact .inr (by simpa using there.symm)
    · simp at there

theorem Kept.append (kept : Kept ok apart transactions) : Kept ok apart (transactions ++ [[]]) := by
  constructor
  · intro t history there work member
    rcases append_cases there with there | rfl
    · exact kept.own t history there work member
    · simp at member
  · intro t u history others there beside different work member other inside
    rcases append_cases there with there | rfl
    · rcases append_cases beside with beside | rfl
      · exact kept.apart t u history others there beside different work member other inside
      · simp at inside
    · simp at member

theorem Kept.imp {better : ω → Prop} (kept : Kept ok apart transactions)
    (weaker : ∀ (t : Nat) (history : List ω), transactions[t]? = some history → ∀ work ∈ history, ok work → better work) :
    Kept better apart transactions :=
  ⟨fun t history there work member => weaker t history there work member (kept.own t history there work member),
    kept.apart⟩

theorem Kept.now (kept : Kept ok apart transactions) (there : transactions[t]? = some history) (bare : ok empty) :
    ok (now empty history) := by
  rcases now_cases empty history with inside | same
  · exact kept.own t history there _ inside
  · rw [same]
    exact bare

theorem Kept.now_apart (kept : Kept ok apart transactions) (there : transactions[t]? = some history)
    (beside : transactions[u]? = some others) (different : t ≠ u) (bare : ∀ other, apart empty other) :
    ∀ other ∈ others, apart (Histories.now empty history) other := by
  intro other inside
  rcases now_cases empty history with mine | same
  · exact kept.apart t u history others there beside different _ mine other inside
  · rw [same]
    exact bare other

theorem Fits.push (fits : Fits ok apart transactions t history) {newest : ω} (settled : ok newest)
    (alone : ∀ (u : Nat) (others : List ω), transactions[u]? = some others → t ≠ u → ∀ other ∈ others,
      apart newest other) : Fits ok apart transactions t (newest :: history) := by
  constructor
  · exact List.forall_mem_cons.mpr ⟨settled,fits.own⟩
  · intro u others there different
    exact List.forall_mem_cons.mpr ⟨alone u others there different,fits.apart u others there different⟩

theorem Fits.sub (fits : Fits ok apart transactions t history) {fewer : List ω}
    (kept : ∀ work ∈ fewer, work ∈ history) : Fits ok apart transactions t fewer :=
  ⟨fun work inside => fits.own work (kept work inside),
    fun u others there different work inside => fits.apart u others there different work (kept work inside)⟩

theorem Fits.nil : Fits ok apart transactions t [] := ⟨by simp,by simp⟩

end Histories
