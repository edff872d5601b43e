import Mathlib.Data.List.Basic
import Mathlib.Order.Defs.Unbundled

/-! Requests to a database as programs of statements.
A program that ends is committed, one that fails is rolled back. `run` is a request that runs alone.
-/

inductive Program (σ κ ε α : Type) : Type
  | done (a : α)
  | fail (failure : ε)
  | lock (key : κ) (next : Program σ κ ε α)
  | read (next : σ → Program σ κ ε α)
  | write (change : σ → σ) (next : Program σ κ ε α)

namespace Program

variable {σ κ ε α β : Type}

def bind : Program σ κ ε α → (α → Program σ κ ε β) → Program σ κ ε β
  | done a, f => f a
  | fail failure, _ => fail failure
  | lock key next, f => lock key (bind next f)
  | read next, f => read fun s => bind (next s) f
  | write change next, f => write change (bind next f)

instance : Monad (Program σ κ ε) where
  pure := done
  bind := bind

private theorem bind_done (p : Program σ κ ε α) : bind p done = p := by
  induction p with
  | done => rfl
  | fail => rfl
  | lock key next induction => exact congrArg (lock key) induction
  | read next induction => exact congrArg read (funext induction)
  | write change next induction => exact congrArg (write change) induction

private theorem bind_assoc {γ : Type} (p : Program σ κ ε α) (f : α → Program σ κ ε β) (g : β → Program σ κ ε γ) :
    bind (bind p f) g = bind p fun a => bind (f a) g := by
  induction p with
  | done => rfl
  | fail => rfl
  | lock key next induction => exact congrArg (lock key) induction
  | read next induction => exact congrArg read (funext induction)
  | write change next induction => exact congrArg (write change) induction

instance : LawfulMonad (Program σ κ ε) :=
  LawfulMonad.mk' (Program σ κ ε) bind_done (fun _ _ => rfl) bind_assoc

def acquire (key : κ) : Program σ κ ε Unit := lock key (done ())

def get (query : σ → α) : Program σ κ ε α := read fun s => done (query s)

def put (change : σ → σ) : Program σ κ ε Unit := write change (done ())

def ofExcept : Except ε α → Program σ κ ε α
  | .ok a => done a
  | .error failure => fail failure

def require (condition : Bool) (failure : ε) : Program σ κ ε Unit := if condition then done () else fail failure

def run : Program σ κ ε α → σ → Except ε (α × σ)
  | done a, s => .ok (a,s)
  | fail failure, _ => .error failure
  | lock _ next, s => run next s
  | read next, s => run (next s) s
  | write change next, s => run next (change s)

theorem run_bind (p : Program σ κ ε α) (f : α → Program σ κ ε β) (s : σ) :
    run (p >>= f) s = run p s >>= fun r => run (f r.1) r.2 := by
  induction p generalizing s with
  | done => rfl
  | fail => rfl
  | lock key next induction => exact induction s
  | read next induction => exact induction s s
  | write change next induction => exact induction (change s)

/-- What holds of the result and the state whenever the program, run alone from the state, does not fail. -/
def Ends (p : Program σ κ ε α) (s : σ) (post : α → σ → Prop) : Prop :=
  ∀ a t, run p s = .ok (a,t) → post a t

variable {p : Program σ κ ε α} {s : σ} {post : α → σ → Prop}

theorem Ends.mono (ends : Ends p s post) {weaker : α → σ → Prop} (implied : ∀ a t, post a t → weaker a t) :
    Ends p s weaker :=
  fun a t ran => implied a t (ends a t ran)

theorem Ends.and {other : α → σ → Prop} (first : Ends p s post) (second : Ends p s other) : Ends p s fun a t => post a t ∧ other a t :=
  fun a t ran => ⟨first a t ran,second a t ran⟩

theorem ends_pure {a : α} (holds : post a s) : Ends (pure a : Program σ κ ε α) s post := by
  intro b t ran
  cases ran
  exact holds

theorem Ends.bind {f : α → Program σ κ ε β} {after : β → σ → Prop} (first : Ends p s fun a t => Ends (f a) t after) :
    Ends (p >>= f) s after := by
  intro b t ran
  rw [run_bind] at ran
  cases ended : run p s with
  | error failure =>
    rw [ended] at ran
    cases ran
  | ok r =>
    rw [ended] at ran
    exact first r.1 r.2 ended b t ran

theorem ends_fail (failure : ε) : Ends (fail failure : Program σ κ ε α) s post := by
  intro a t ran
  cases ran

theorem ends_acquire {key : κ} {post : Unit → σ → Prop} (holds : post () s) :
    Ends (acquire key : Program σ κ ε Unit) s post := by
  intro a t ran
  cases ran
  exact holds

theorem ends_get {query : σ → α} (holds : post (query s) s) : Ends (get query : Program σ κ ε α) s post := by
  intro a t ran
  cases ran
  exact holds

theorem ends_put {change : σ → σ} {post : Unit → σ → Prop} (holds : post () (change s)) :
    Ends (put change : Program σ κ ε Unit) s post := by
  intro a t ran
  cases ran
  exact holds

theorem ends_ofExcept {outcome : Except ε α} (holds : ∀ a, outcome = .ok a → post a s) :
    Ends (ofExcept outcome : Program σ κ ε α) s post := by
  cases outcome with
  | error failure => exact ends_fail failure
  | ok a => exact ends_pure (holds a rfl)

theorem ends_require {condition : Bool} {failure : ε} {post : Unit → σ → Prop} (holds : condition = true → post () s) :
    Ends (require condition failure : Program σ κ ε Unit) s post := by
  cases condition with
  | false => exact ends_fail failure
  | true => exact ends_pure (holds rfl)

theorem ends_mapM {γ : Type} {f : γ → Program σ κ ε β} (kept : List γ → List β → σ → Prop)
    (round : ∀ x rest results t, kept (x :: rest) results t → Ends (f x) t fun b => kept rest (results ++ [b]))
    {xs : List γ} {results : List β} (holds : kept xs results s) :
    Ends (xs.mapM f) s fun more => kept [] (results ++ more) := by
  induction xs generalizing results s with
  | nil =>
    rw [List.mapM_nil]
    exact ends_pure (by rwa [List.append_nil])
  | cons x xs induction =>
    rw [List.mapM_cons]
    refine .bind ((round x xs results s holds).mono fun b t after => .bind ?_)
    refine (induction after).mono fun more u last => ends_pure ?_
    rwa [List.append_assoc] at last

theorem ends_mapM_kept {γ : Type} {f : γ → Program σ κ ε β} {kept : σ → Prop} (round : ∀ x t, kept t → Ends (f x) t fun _ => kept)
    (xs : List γ) (holds : kept s) : Ends (xs.mapM f) s fun _ => kept := by
  induction xs generalizing s with
  | nil =>
    rw [List.mapM_nil]
    exact ends_pure holds
  | cons x xs induction =>
    rw [List.mapM_cons]
    exact .bind ((round x s holds).mono fun b t after => .bind ((induction after).mono fun more u last => ends_pure last))

theorem ends_forM {γ : Type} {f : γ → Program σ κ ε PUnit} (kept : List γ → σ → Prop)
    (round : ∀ x rest t, kept (x :: rest) t → Ends (f x) t fun _ => kept rest)
    {xs : List γ} (holds : kept xs s) : Ends (forM xs f) s fun _ => kept [] := by
  induction xs generalizing s with
  | nil => exact ends_pure holds
  | cons x xs induction =>
    rw [List.forM_cons]
    exact .bind ((round x xs s holds).mono fun _ t after => induction after)

theorem ends_foldlM {γ : Type} {f : β → γ → Program σ κ ε β} (kept : List γ → β → σ → Prop)
    (round : ∀ x rest b t, kept (x :: rest) b t → Ends (f b x) t fun b => kept rest b)
    {xs : List γ} {b : β} (holds : kept xs b s) : Ends (xs.foldlM f b) s fun b => kept [] b := by
  induction xs generalizing b s with
  | nil => exact ends_pure holds
  | cons x xs induction =>
    rw [List.foldlM_cons]
    exact .bind ((round x xs b s holds).mono fun b t after => induction after)

/-- The program, run alone from any state, ends in a state related to it. -/
def Relates (r : σ → σ → Prop) (p : Program σ κ ε α) : Prop := ∀ s, Ends p s fun _ t => r s t

section Relates
variable {r : σ → σ → Prop}

theorem Relates.mono {weaker : σ → σ → Prop} (relates : Relates r p) (implied : ∀ s t, r s t → weaker s t) : Relates weaker p :=
  fun s => (relates s).mono fun _ t => implied s t

theorem relates_fail (failure : ε) : Relates r (fail failure : Program σ κ ε α) := fun _ => ends_fail failure

theorem relates_put {change : σ → σ} (holds : ∀ s, r s (change s)) : Relates r (put change : Program σ κ ε Unit) :=
  fun s => ends_put (holds s)

theorem relates_ite {condition : Prop} [Decidable condition] {q : Program σ κ ε α} (yes : Relates r p) (no : Relates r q) :
    Relates r (if condition then p else q) := by
  split
  · exact yes
  · exact no

variable [Std.Refl r]

theorem relates_pure (a : α) : Relates r (pure a : Program σ κ ε α) := fun s => ends_pure (refl_of r s)

theorem relates_get (query : σ → α) : Relates r (get query : Program σ κ ε α) := fun s => ends_get (refl_of r s)

theorem relates_acquire (key : κ) : Relates r (acquire key : Program σ κ ε Unit) := fun s => ends_acquire (refl_of r s)

theorem relates_ofExcept (outcome : Except ε α) : Relates r (ofExcept outcome : Program σ κ ε α) :=
  fun s => ends_ofExcept fun _ _ => refl_of r s

theorem relates_require (condition : Bool) (failure : ε) : Relates r (require condition failure : Program σ κ ε Unit) :=
  fun s => ends_require fun _ => refl_of r s

variable [IsTrans σ r]

omit [Std.Refl r] in
theorem Relates.bind {f : α → Program σ κ ε β} (first : Relates r p) (later : ∀ a, Relates r (f a)) : Relates r (p >>= f) :=
  fun s => .bind ((first s).mono fun a t here => (later a t).mono fun _ _ there => trans_of r here there)

theorem relates_forM {γ : Type} {f : γ → Program σ κ ε PUnit} {xs : List γ} (each : ∀ x ∈ xs, Relates r (f x)) :
    Relates r (forM xs f) := by
  induction xs with
  | nil => exact relates_pure _
  | cons x xs induction =>
    rw [List.forM_cons]
    exact (each x List.mem_cons_self).bind fun _ => induction fun y member => each y (List.mem_cons_of_mem x member)

theorem relates_foldlM {γ : Type} {f : β → γ → Program σ κ ε β} (each : ∀ b x, Relates r (f b x)) (xs : List γ) (b : β) :
    Relates r (xs.foldlM f b) := by
  induction xs generalizing b with
  | nil => exact relates_pure _
  | cons x xs induction =>
    rw [List.foldlM_cons]
    exact (each b x).bind fun b => induction b

theorem relates_mapM {γ : Type} {f : γ → Program σ κ ε β} {xs : List γ} (each : ∀ x ∈ xs, Relates r (f x)) :
    Relates r (xs.mapM f) := by
  induction xs with
  | nil =>
    rw [List.mapM_nil]
    exact relates_pure _
  | cons x xs induction =>
    rw [List.mapM_cons]
    refine (each x List.mem_cons_self).bind fun b => ?_
    exact (induction fun y member => each y (List.mem_cons_of_mem x member)).bind fun _ => relates_pure _

end Relates

/-- Two programs run alone from related states: where neither fails, they return the same and leave related states. -/
def Matches (r : σ → σ → Prop) (p q : Program σ κ ε α) : Prop :=
  ∀ s t, r s t → ∀ a u b v, run p s = .ok (a,u) → run q t = .ok (b,v) → a = b ∧ r u v

section Matches
variable {r : σ → σ → Prop} {q : Program σ κ ε α}

theorem run_bind_ok_iff {f : α → Program σ κ ε β} {b : β} {t : σ} : run (p >>= f) s = .ok (b,t) ↔
    ∃ a u, run p s = .ok (a,u) ∧ run (f a) u = .ok (b,t) := by
  rw [run_bind]
  cases run p s with
  | error failure =>
    constructor
    · intro failed
      cases failed
    · rintro ⟨_,_,failed,_⟩
      cases failed
  | ok r =>
    constructor
    · exact fun ran => ⟨r.1,r.2,rfl,ran⟩
    · rintro ⟨_,_,same,ran⟩
      cases same
      exact ran

theorem matches_pure (a : α) : Matches r (pure a : Program σ κ ε α) (pure a) := by
  intro s t related b u c v left right
  cases left
  cases right
  exact ⟨rfl,related⟩

theorem Matches.bind {f g : α → Program σ κ ε β} (first : Matches r p q) (later : ∀ a, Matches r (f a) (g a)) :
    Matches r (p >>= f) (q >>= g) := by
  intro s t related b u c v left right
  obtain ⟨a,s',ran,left⟩ := run_bind_ok_iff.mp left
  obtain ⟨a',t',ran',right⟩ := run_bind_ok_iff.mp right
  obtain ⟨rfl,between⟩ := first s t related a s' a' t' ran ran'
  exact later a s' t' between b u c v left right

theorem matches_get {query : σ → α} (same : ∀ s t, r s t → query s = query t) : Matches r (get query : Program σ κ ε α) (get query) := by
  intro s t related b u c v left right
  cases left
  cases right
  exact ⟨same s t related,related⟩

theorem matches_put {change other : σ → σ} (kept : ∀ s t, r s t → r (change s) (other t)) :
    Matches r (put change : Program σ κ ε Unit) (put other) := by
  intro s t related b u c v left right
  cases left
  cases right
  exact ⟨rfl,kept s t related⟩

theorem matches_ofExcept (outcome : Except ε α) : Matches r (ofExcept outcome : Program σ κ ε α) (ofExcept outcome) := by
  cases outcome with
  | error failure =>
    intro s t _ a u b v left
    cases left
  | ok a => exact matches_pure a

theorem matches_ite {condition : Prop} [Decidable condition] {p' q' : Program σ κ ε α} (yes : Matches r p q) (no : Matches r p' q') :
    Matches r (if condition then p else p') (if condition then q else q') := by
  split
  · exact yes
  · exact no

theorem matches_forM {γ : Type} {f g : γ → Program σ κ ε PUnit} (each : ∀ x, Matches r (f x) (g x)) (xs : List γ) :
    Matches r (forM xs f) (forM xs g) := by
  induction xs with
  | nil => exact matches_pure _
  | cons x xs induction =>
    rw [List.forM_cons,List.forM_cons]
    exact (each x).bind fun _ => induction

theorem Matches.of_relates {kept : σ → σ → Prop} {p q : Program σ κ ε Unit} (left : Relates kept p) (right : Relates kept q)
    (closed : ∀ s t, r s t → ∀ u v, kept s u → kept t v → r u v) : Matches r p q :=
  fun s t related _ u _ v ran ran' => ⟨rfl,closed s t related u v (left s _ u ran) (right t _ v ran')⟩

end Matches

end Program
