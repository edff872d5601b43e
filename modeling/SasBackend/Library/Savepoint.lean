import Mathlib.Data.List.Basic

/-! Work on one database session with savepoints, where any statement may fail.
A failed statement aborts the transaction: nothing runs in it any more until it is rolled back, as a whole or to a
savepoint. What a failing statement raises, and when, is given by `Faults`.
-/
namespace Savepoint

structure Session (δ : Type) where
  committed : δ
  working : δ
  savepoints : List δ
  aborted : Bool
  calls : Nat

/-- `refused` is raised by statements of an aborted transaction. -/
structure Faults (ε : Type) where
  strike : Nat → Option ε
  refused : ε

/-- Work that returns or raises. -/
def Tx (ε δ α : Type) : Type := Session δ → Except ε α × Session δ

variable {ε δ α β : Type}

def Tx.bind (p : Tx ε δ α) (f : α → Tx ε δ β) : Tx ε δ β := fun s => match p s with
  | (.ok a,t) => f a t
  | (.error failure,t) => (.error failure,t)

instance : Monad (Tx ε δ) where
  pure a := fun s => (.ok a,s)
  bind := Tx.bind

def raise (failure : ε) : Tx ε δ α := fun s => (.error failure,s)

/-- What a `try` around the work finds. -/
def attempt (p : Tx ε δ α) : Tx ε δ (Except ε α) := fun s => (.ok (p s).1,(p s).2)

def Session.entered (s : Session δ) : Session δ :=
  { s with savepoints := s.working :: s.savepoints, calls := s.calls + 1 }

def Session.idle (d : δ) : Session δ := ⟨d,d,[],false,0⟩

def Session.break_ (s : Session δ) : Session δ := { s with aborted := true, calls := s.calls + 1 }

def Faults.fault (faults : Faults ε) (s : Session δ) : Option ε :=
  if s.aborted then some ((faults.strike s.calls).getD faults.refused) else faults.strike s.calls

variable (faults : Faults ε)

/-- A statement: it fails, or it answers and changes. -/
def statement (query : δ → α) (change : δ → δ) : Tx ε δ α := fun s => match faults.fault s with
  | some failure => (.error failure,s.break_)
  | none => (.ok (query s.working),{ s with working := change s.working, calls := s.calls + 1 })

def select (query : δ → α) : Tx ε δ α := statement faults query id

def execute (change : δ → δ) : Tx ε δ Unit := statement faults (fun _ => ()) change

def flush : Tx ε δ Unit := execute faults id

def commit : Tx ε δ Unit := fun s => match faults.fault s with
  | some failure => (.error failure,s.break_)
  | none => (.ok (),⟨s.working,s.working,[],false,s.calls + 1⟩)

/-- Work that commits as its last step. -/
def committing (p : Tx ε δ α) (f : α → β) : Tx ε δ β := p >>= fun a => commit faults >>= fun _ => pure (f a)

/-- The end of a savepoint's block: released after success, rolled back to after a failure. -/
def leave (outcome : Except ε α) (s : Session δ) : Except ε α × Session δ := match outcome, s.savepoints with
  | .ok a, saved :: rest => match faults.fault s with
    | some failure => (.error failure,⟨s.committed,saved,rest,false,s.calls + 1⟩)
    | none => (.ok a,{ s with savepoints := rest, calls := s.calls + 1 })
  | .error raised, saved :: rest => match faults.strike s.calls with
    | some failure => (.error failure,{ s.break_ with savepoints := rest })
    | none => (.error raised,⟨s.committed,saved,rest,false,s.calls + 1⟩)
  | .ok _, [] => (.error faults.refused,s)
  | .error raised, [] => (.error raised,s)

/-- Work in a savepoint of its own. -/
def nested (body : Tx ε δ α) : Tx ε δ α := fun s => match faults.fault s with
  | some failure => (.error failure,s.break_)
  | none =>
    let (outcome,t) := body s.entered
    leave faults outcome t

/-- The work stays in the transaction and in the savepoints it finds, and revives no aborted transaction. -/
def Inside (p : Tx ε δ α) : Prop := ∀ s, (p s).2.committed = s.committed ∧ (p s).2.savepoints = s.savepoints ∧
  (s.aborted = true → (p s).2.aborted = true)

variable {faults} {p : Tx ε δ α} {s : Session δ}

theorem Inside.bind {f : α → Tx ε δ β} (first : Inside p) (later : ∀ a, Inside (f a)) : Inside (p >>= f) := by
  intro s
  change (Tx.bind p f s).2.committed = _ ∧ (Tx.bind p f s).2.savepoints = _ ∧ (_ → (Tx.bind p f s).2.aborted = true)
  unfold Tx.bind
  obtain ⟨committed,savepoints,aborted⟩ := first s
  cases ran : p s with
  | mk outcome t =>
    rw [ran] at committed savepoints aborted
    cases outcome with
    | error failure => exact ⟨committed,savepoints,aborted⟩
    | ok a =>
      obtain ⟨committed',savepoints',aborted'⟩ := later a t
      exact ⟨committed'.trans committed,savepoints'.trans savepoints,fun broken => aborted' (aborted broken)⟩

theorem bind_run (p : Tx ε δ α) (f : α → Tx ε δ β) (s : Session δ) : (p >>= f) s = match p s with
    | (.ok a,t) => f a t
    | (.error failure,t) => (.error failure,t) := rfl

instance : LawfulMonad (Tx ε δ) := by
  refine LawfulMonad.mk' _ (fun p => ?_) (fun a f => rfl) (fun p f g => ?_)
  · funext s
    change Tx.bind p (fun a => pure (id a)) s = p s
    unfold Tx.bind
    cases p s with
    | mk outcome t => cases outcome <;> rfl
  · funext s
    rw [bind_run,bind_run,bind_run]
    cases p s with
    | mk outcome t => cases outcome <;> rfl

theorem inside_pure (a : α) : Inside (pure a : Tx ε δ α) := fun _ => ⟨rfl,rfl,id⟩

theorem inside_raise (failure : ε) : Inside (raise failure : Tx ε δ α) := fun _ => ⟨rfl,rfl,id⟩

theorem Inside.attempt (inside : Inside p) : Inside (attempt p) := inside

theorem inside_statement (query : δ → α) (change : δ → δ) : Inside (statement faults query change) := by
  intro s
  unfold statement
  split
  · exact ⟨rfl,rfl,fun _ => rfl⟩
  · exact ⟨rfl,rfl,id⟩

theorem statement_cases (faults : Faults ε) (query : δ → α) (change : δ → δ) (s : Session δ) :
    (∃ failure, statement faults query change s = (.error failure,s.break_)) ∨
      statement faults query change s = (.ok (query s.working),{ s with working := change s.working, calls := s.calls + 1 }) := by
  unfold statement
  cases faults.fault s with
  | some failure => exact .inl ⟨failure,rfl⟩
  | none => exact .inr rfl

theorem fault_of_aborted (faults : Faults ε) (broken : s.aborted = true) : ∃ failure, faults.fault s = some failure := by
  unfold Faults.fault
  rw [if_pos broken]
  exact ⟨_,rfl⟩

theorem Inside.nested (inside : Inside p) : Inside (nested faults p) := by
  intro s
  unfold Savepoint.nested
  cases fault : faults.fault s with
  | some failure => exact ⟨rfl,rfl,fun _ => rfl⟩
  | none =>
    have alive : s.aborted = true → False := by
      intro broken
      obtain ⟨failure,struck⟩ := fault_of_aborted faults broken
      rw [fault] at struck
      cases struck
    obtain ⟨committed,savepoints,_⟩ : (p s.entered).2.committed = s.committed ∧
        (p s.entered).2.savepoints = s.working :: s.savepoints ∧ _ := inside s.entered
    cases ran : p s.entered with
    | mk outcome t =>
      rw [ran] at committed savepoints
      dsimp only at committed savepoints ⊢
      unfold leave
      rw [savepoints]
      cases outcome with
      | error raised =>
        dsimp only
        split
        · exact ⟨committed,rfl,fun broken => (alive broken).elim⟩
        · exact ⟨committed,rfl,fun broken => (alive broken).elim⟩
      | ok a =>
        dsimp only
        split
        · exact ⟨committed,rfl,fun broken => (alive broken).elim⟩
        · exact ⟨committed,rfl,fun broken => (alive broken).elim⟩

theorem sound_of_fault (free : faults.fault s = none) : s.aborted = false := by
  unfold Faults.fault at free
  split at free
  · cases free
  · next sound => simpa using sound

/-- What the database itself raises. -/
def Faults.Raises (faults : Faults ε) (failure : ε) : Prop := failure = faults.refused ∨ ∃ call, faults.strike call = some failure

theorem raises_of_fault {failure : ε} (struck : faults.fault s = some failure) : faults.Raises failure := by
  unfold Faults.fault at struck
  split at struck
  · cases own : faults.strike s.calls with
    | none => exact .inl (by simpa [own] using struck.symm)
    | some other =>
      rw [own] at struck
      cases struck
      exact .inr ⟨_,own⟩
  · exact .inr ⟨_,struck⟩

/-- A block with a savepoint of its own: the database fails it, it returns with its work, or it raises without. -/
inductive Ended (faults : Faults ε) (p : Tx ε δ α) (s : Session δ) : Except ε α × Session δ → Prop
  | struck {failure : ε} {t : Session δ} (raises : faults.Raises failure) (kept : t.committed = s.committed)
      (none_ : t.aborted = false → t.working = s.working) : Ended faults p s (.error failure,t)
  | raised {failure : ε} {t u : Session δ}
      (ran : p s.entered = (.error failure,u))
      (kept : t.committed = s.committed) (sound : t.aborted = false) (none_ : t.working = s.working) :
      Ended faults p s (.error failure,t)
  | returned {a : α} {t u : Session δ}
      (ran : p s.entered = (.ok a,u))
      (kept : t.committed = s.committed) (sound : t.aborted = false) (alive : u.aborted = false) (all : t.working = u.working) :
      Ended faults p s (.ok a,t)

theorem nested_ended (faults : Faults ε) (inside : Inside p) (s : Session δ) : Ended faults p s (nested faults p s) := by
  unfold nested
  cases fault : faults.fault s with
  | some failure => exact .struck (raises_of_fault fault) rfl nofun
  | none =>
    obtain ⟨committed,savepoints,_⟩ : (p s.entered).2.committed = s.committed ∧
        (p s.entered).2.savepoints = s.working :: s.savepoints ∧ _ := inside s.entered
    cases done : p s.entered with
    | mk found u =>
      rw [done] at committed savepoints
      dsimp only at committed savepoints ⊢
      unfold leave
      rw [savepoints]
      cases found with
      | error raised =>
        dsimp only
        cases struck : faults.strike u.calls with
        | some failure => exact .struck (.inr ⟨_,struck⟩) committed nofun
        | none => exact .raised done committed rfl rfl
      | ok a =>
        dsimp only
        cases struck : faults.fault u with
        | some failure => exact .struck (raises_of_fault struck) committed fun _ => rfl
        | none =>
          have alive := sound_of_fault struck
          exact .returned done committed alive alive rfl

theorem committing_cases (inside : Inside p) (f : α → β) (s : Session δ) :
    (∃ failure t, committing faults p f s = (.error failure,t) ∧ t.committed = s.committed) ∨
      ∃ a t u, s.aborted = false ∧ p s = (.ok a,u) ∧ committing faults p f s = (.ok (f a),t) ∧ t.committed = u.working := by
  obtain ⟨kept,-,broken⟩ := inside s
  rw [committing,bind_run]
  cases ran : p s with
  | mk outcome u =>
    rw [ran] at kept broken
    cases outcome with
    | error failure => exact .inl ⟨failure,u,rfl,kept⟩
    | ok a =>
      dsimp only
      rw [bind_run,commit]
      cases struck : faults.fault u with
      | some failure => exact .inl ⟨failure,_,rfl,kept⟩
      | none =>
        have alive := sound_of_fault struck
        rw [alive] at broken
        exact .inr ⟨a,_,u,by simpa using broken,rfl,rfl,rfl⟩

end Savepoint
