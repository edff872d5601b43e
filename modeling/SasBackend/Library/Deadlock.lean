import Mathlib.Logic.Relation
import Mathlib.Order.Defs.PartialOrder
import SasBackend.Library.RowLocks
import SasBackend.Library.Transition

/-! Transactions that lock one row after the other and hold their locks to the end.
Which rows, in which mode and in which order, is up to the request; a request may end at any point.
-/
namespace Deadlock
open RowLocks Transition

universe u
variable {ρ R : Type} {α τ : Type*}

abbrev Acquisition (ρ : Type) : Type := ρ × Mode

structure Session (R ρ : Type) where
  request : R
  taken : List (Acquisition ρ)
  remaining : List (Acquisition ρ)

structure State (R ρ : Type) where
  locks : List (Held ρ)
  sessions : List (Option (Session R ρ))

inductive Label (R : Type)
  | start (request : R)
  | acquire (t : Nat)
  | finish (t : Nat)

def State.session (s : State R ρ) (t : Nat) : Option (Session R ρ) := s.sessions[t]?.join

/-- The lock a session asks for next. -/
def State.awaited (s : State R ρ) (t : Nat) : Option (Acquisition ρ) := (s.session t).bind (·.remaining.head?)

variable [DecidableEq ρ]

def acquireNext (s : State R ρ) (t : Nat) (session : Session R ρ) : Option (State R ρ) :=
  match session.remaining with
  | [] => none
  | (row,mode) :: rest =>
    if grantable s.locks t row mode then
      some ⟨acquire s.locks t row mode,
        s.sessions.set t (some ⟨session.request,session.taken ++ [(row,mode)],rest⟩)⟩
    else none

def next (acquisitions : R → List (Acquisition ρ)) (s : State R ρ) : Label R → Option (State R ρ)
  | .start request => some { s with sessions := s.sessions ++ [some ⟨request,[],acquisitions request⟩] }
  | .acquire t => (s.session t).bind (acquireNext s t)
  | .finish t => (s.session t).map fun _ => ⟨releaseAll s.locks t,s.sessions.set t none⟩

omit [DecidableEq ρ] in
/-- Nothing runs. -/
def Fresh (s : State R ρ) : Prop := s.locks = [] ∧ s.sessions = []

/-- One session asks for a lock that another one's lock is in conflict with. -/
def Waits (s : State R ρ) (t u : Nat) : Prop :=
  ∃ a ∈ s.awaited t, u ≠ t ∧ ∃ h ∈ s.locks, h.tx = u ∧ h.row = a.1 ∧ h.mode.conflicts a.2 = true

instance (s : State R ρ) (t u : Nat) : Decidable (Waits s t u) := by
  unfold Waits
  infer_instance

/-- Some session waits for itself, through others. -/
def Deadlocked (s : State R ρ) : Prop := ∃ t, Relation.TransGen (Waits s) t t

theorem not_transGen_self {waits : τ → τ → Prop} {ω : Type u} [Preorder ω] {rank : τ → ω}
    (climbs : ∀ t v w, waits t v → waits v w → rank t < rank v) (t : τ) : ¬Relation.TransGen waits t t := by
  have rises (v w : τ) (path : Relation.TransGen waits v w) : ∀ x, waits w x → rank v < rank w := by
    induction path with
    | single first => exact fun x last => climbs v _ x first last
    | tail _ step induction => exact fun x last => lt_trans (induction _ step) (climbs _ _ x step last)
  intro cycle
  obtain ⟨first,begins,_⟩ := Relation.TransGen.head'_iff.mp cycle
  exact lt_irrefl _ (rises t t cycle first begins)

variable {acquisitions : R → List (Acquisition ρ)} {s s' : State R ρ} {t : Nat} {session : Session R ρ}

/-- The locks are those the running sessions have taken, each along its list. -/
structure Invariant (acquisitions : R → List (Acquisition ρ)) (s : State R ρ) : Prop where
  compatible : Compatible s.locks
  listed : ∀ t session, s.session t = some session → acquisitions session.request = session.taken ++ session.remaining
  holds : ∀ t session, s.session t = some session → ∀ row mode, ⟨t,row,mode⟩ ∈ s.locks ↔ (row,mode) ∈ session.taken
  running : ∀ h ∈ s.locks, (s.session h.tx).isSome = true

omit [DecidableEq ρ] in
theorem session_append (x : Session R ρ) (u : Nat) :
    (State.session (⟨s.locks,s.sessions ++ [some x]⟩ : State R ρ) u) =
      if u = s.sessions.length then some x else s.session u := by
  unfold State.session
  rw [List.getElem?_append]
  grind

omit [DecidableEq ρ] in
theorem session_set {locks : List (Held ρ)} {x : Option (Session R ρ)} (there : s.session t = some session) (u : Nat) :
    State.session (⟨locks,s.sessions.set t x⟩ : State R ρ) u = if u = t then x else s.session u := by
  unfold State.session at *
  rw [List.getElem?_set]
  grind

omit [DecidableEq ρ] in
theorem Invariant.initial (fresh : Fresh s) : Invariant acquisitions s := by
  obtain ⟨unlocked,idle⟩ := fresh
  refine ⟨?_,?_,?_,?_⟩
  · rw [unlocked]
    exact compatible_nil
  · simp [State.session,idle]
  · simp [State.session,idle]
  · simp [unlocked]

omit [DecidableEq ρ] in
private theorem Invariant.fresh_tx (invariant : Invariant acquisitions s) (idle : s.session t = none) {h : Held ρ}
    (held : h ∈ s.locks) : h.tx ≠ t := by
  intro same
  have there := invariant.running h held
  rw [same,idle] at there
  cases there

omit [DecidableEq ρ] in
private theorem Invariant.start (invariant : Invariant acquisitions s) (request : R) :
    Invariant acquisitions { s with sessions := s.sessions ++ [some ⟨request,[],acquisitions request⟩] } := by
  have idle : s.session s.sessions.length = none := by simp [State.session]
  refine ⟨invariant.compatible,?_,?_,?_⟩
  · intro u session there
    rw [session_append] at there
    split at there
    · cases there
      exact (List.nil_append _).symm
    · exact invariant.listed u session there
  · intro u session there row mode
    rw [session_append] at there
    split at there
    · next same =>
      subst same
      cases there
      have free : ⟨s.sessions.length,row,mode⟩ ∉ s.locks := fun held => invariant.fresh_tx idle held rfl
      simp [free]
    · exact invariant.holds u session there row mode
  · intro h held
    rw [session_append]
    split
    · rfl
    · exact invariant.running h held

private theorem Invariant.acquire (invariant : Invariant acquisitions s) (there : s.session t = some session)
    {row : ρ} {mode : Mode} {rest : List (Acquisition ρ)} (asked : session.remaining = (row,mode) :: rest)
    (granted : grantable s.locks t row mode = true) :
    Invariant acquisitions ⟨acquire s.locks t row mode,
      s.sessions.set t (some ⟨session.request,session.taken ++ [(row,mode)],rest⟩)⟩ := by
  refine ⟨invariant.compatible.acquire t row mode,?_,?_,?_⟩
  · intro u other found
    rw [session_set there] at found
    split at found
    · cases found
      have listed := invariant.listed t session there
      rw [asked] at listed
      simpa using listed
    · exact invariant.listed u other found
  · intro u other found row' mode'
    rw [session_set there] at found
    rw [mem_acquire granted]
    split at found
    · next same =>
      subst same
      cases found
      have held := invariant.holds u session there row' mode'
      simp [held,or_comm]
    · next different =>
      have held := invariant.holds u other found row' mode'
      simp [held,different]
  · intro h held
    rw [session_set there]
    split
    · rfl
    · next different =>
      rcases (mem_acquire granted).mp held with rfl | old
      · exact absurd rfl different
      · exact invariant.running h old

omit [DecidableEq ρ] in
private theorem Invariant.finish (invariant : Invariant acquisitions s) (there : s.session t = some session) :
    Invariant acquisitions ⟨releaseAll s.locks t,s.sessions.set t none⟩ := by
  refine ⟨invariant.compatible.releaseAll t,?_,?_,?_⟩
  · intro u other found
    rw [session_set there] at found
    split at found
    · cases found
    · exact invariant.listed u other found
  · intro u other found row mode
    rw [session_set there] at found
    rw [mem_releaseAll]
    split at found
    · cases found
    · next different =>
      have held := invariant.holds u other found row mode
      simp [held,different]
  · intro h held
    obtain ⟨old,other⟩ := mem_releaseAll.mp held
    rw [session_set there,if_neg other]
    exact invariant.running h old

theorem Invariant.step {label : Label R} (invariant : Invariant acquisitions s)
    (taken : next acquisitions s label = some s') : Invariant acquisitions s' := by
  cases label with
  | start request =>
    cases taken
    exact invariant.start request
  | acquire t =>
    obtain ⟨session,there,moved⟩ := Option.bind_eq_some_iff.mp taken
    unfold acquireNext at moved
    split at moved
    · cases moved
    · next row mode rest asked =>
      split at moved
      · next granted =>
        cases moved
        exact invariant.acquire there asked granted
      · cases moved
  | finish t =>
    obtain ⟨session,there,rfl⟩ := Option.map_eq_some_iff.mp taken
    exact invariant.finish there

omit [DecidableEq ρ] in
theorem Invariant.waits_for (invariant : Invariant acquisitions s) {u : Nat} (waits : Waits s t u) :
    ∃ session other a mode, s.session t = some session ∧ s.session u = some other ∧
      session.remaining.head? = some a ∧ u ≠ t ∧ (a.1,mode) ∈ other.taken ∧ mode.conflicts a.2 = true := by
  obtain ⟨a,asked,apart,⟨tx,row,mode⟩,held,rfl,rfl,conflict⟩ := waits
  obtain ⟨session,there,first⟩ := Option.bind_eq_some_iff.mp asked
  obtain ⟨other,running⟩ := Option.isSome_iff_exists.mp (invariant.running _ held)
  exact ⟨session,other,a,mode,there,running,first,apart,(invariant.holds _ other running _ _).mp held,conflict⟩

omit [DecidableEq ρ] in
theorem Invariant.exclusive (invariant : Invariant acquisitions s) {u : Nat} {other : Session R ρ}
    (there : s.session t = some session) (running : s.session u = some other) (apart : t ≠ u) {row : ρ} {mode mode' : Mode}
    (mine : (row,mode) ∈ session.taken) (theirs : (row,mode') ∈ other.taken) : mode.conflicts mode' = false :=
  invariant.compatible _ ((invariant.holds t session there row mode).mpr mine) _
    ((invariant.holds u other running row mode').mpr theirs) apart rfl

/-- At each place of `xs`, between `known` and `later`: something of what comes before, of the element and of what comes after. -/
def Along (holds : List α → α → List α → Prop) (known xs later : List α) : Prop :=
  ∀ before a rest, xs = before ++ a :: rest → holds (known ++ before) a (rest ++ later)

variable {holds : List α → α → List α → Prop} {known xs ys later : List α}

theorem along_nil : Along holds known [] later := by
  simp [Along]

theorem along_cons {x : α} : Along holds known (x :: xs) later ↔
    holds known x (xs ++ later) ∧ Along holds (known ++ [x]) xs later := by
  constructor
  · intro all
    constructor
    · simpa using all [] x xs rfl
    · intro before a rest same
      simpa using all (x :: before) a rest (by rw [same,List.cons_append])
  · rintro ⟨first,others⟩ before a rest same
    cases before with
    | nil =>
      cases same
      simpa using first
    | cons y before =>
      cases same
      simpa using others before a rest rfl

theorem along_singleton {x : α} : Along holds known [x] later ↔ holds known x later := by
  simp [along_cons,along_nil]

theorem along_append : Along holds known (xs ++ ys) later ↔
    Along holds known xs (ys ++ later) ∧ Along holds (known ++ xs) ys later := by
  induction xs generalizing known with
  | nil => simp [along_nil]
  | cons x xs induction => simp [along_cons,induction,and_assoc]

theorem along_flatMap {β : Type*} {f : β → List α} {bs : List β}
    (each : ∀ before b rest, bs = before ++ b :: rest →
      Along holds (known ++ before.flatMap f) (f b) (rest.flatMap f ++ later)) :
    Along holds known (bs.flatMap f) later := by
  induction bs generalizing known with
  | nil => exact along_nil
  | cons b bs induction =>
    rw [List.flatMap_cons,along_append]
    constructor
    · simpa using each [] b bs rfl
    · refine induction fun before c rest same => ?_
      simpa using each (b :: before) c rest (by rw [same,List.cons_append])

end Deadlock
