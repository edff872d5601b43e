import Mathlib.Data.List.Basic
import Mathlib.Data.List.Pairwise

/-! Read-only programs under READ COMMITTED: every statement sees what is committed when it starts.
A schedule lists the writes that commit before each statement; a run also returns the database each
statement saw.
-/

inductive Reader (δ α : Type) : Type
  | done (a : α) : Reader δ α
  | statement (next : δ → Reader δ α) : Reader δ α

namespace Reader

variable {δ ω α β : Type}

def bind : Reader δ α → (α → Reader δ β) → Reader δ β
  | done a, f => f a
  | statement next, f => statement fun d => bind (next d) f

instance : Monad (Reader δ) where
  pure := done
  bind := bind

private theorem bind_done (p : Reader δ α) (f : α → α) (same : ∀ a, f a = a) :
    bind p (fun a => done (f a)) = p := by
  induction p with
  | done a => exact congrArg done (same a)
  | statement next induction => exact congrArg statement (funext induction)

private theorem bind_assoc {γ : Type} (p : Reader δ α) (f : α → Reader δ β) (g : β → Reader δ γ) :
    bind (bind p f) g = bind p fun a => bind (f a) g := by
  induction p with
  | done a => rfl
  | statement next induction => exact congrArg statement (funext induction)

instance : LawfulMonad (Reader δ) :=
  LawfulMonad.mk' (Reader δ) (fun p => bind_done p id fun _ => rfl) (fun _ _ => rfl) bind_assoc

def select (query : δ → α) : Reader δ α := statement fun d => done (query d)

structure Result (δ ω α : Type) where
  answer : α
  database : δ
  later : List (List ω)
  views : List δ

/-- Runs a reader; before each statement the writes of the next gap commit. -/
def run (apply : δ → ω → Option δ) : Reader δ α → δ → List (List ω) → Option (Result δ ω α)
  | done a, d, gaps => some ⟨a,d,gaps,[]⟩
  | statement _, _, [] => none
  | statement next, d, gap :: gaps =>
    (gap.foldlM apply d).bind fun e =>
      (run apply (next e) e gaps).map fun r => { r with views := e :: r.views }

variable {apply : δ → ω → Option δ}

@[simp] theorem run_pure (a : α) (d : δ) (gaps : List (List ω)) :
    run apply (pure a) d gaps = some ⟨a,d,gaps,[]⟩ := rfl

theorem run_bind (p : Reader δ α) (f : α → Reader δ β) (d : δ) (gaps : List (List ω)) :
    run apply (p >>= f) d gaps = (run apply p d gaps).bind fun r =>
      (run apply (f r.answer) r.database r.later).map fun t => { t with views := r.views ++ t.views } := by
  induction p generalizing d gaps with
  | done a =>
    change run apply (f a) d gaps = (run apply (f a) d gaps).map _
    simp
  | statement next induction =>
    cases gaps with
    | nil => rfl
    | cons gap gaps =>
      change (gap.foldlM apply d).bind _ = ((gap.foldlM apply d).bind _).bind _
      rw [Option.bind_assoc]
      congr 1
      funext e
      rw [show run apply (bind (next e) f) e gaps = _ from induction e e gaps,Option.bind_map,
        Option.map_bind]
      congr 1
      funext r
      simp [Function.comp_def]

theorem run_select {query : δ → α} {d : δ} {gaps : List (List ω)} {r : Result δ ω α}
    (ran : run apply (select query) d gaps = some r) :
    ∃ gap, gaps = gap :: r.later ∧ gap.foldlM apply d = some r.database ∧
      r.answer = query r.database ∧ r.views = [r.database] := by
  cases gaps with
  | nil => cases ran
  | cons gap gaps =>
    simp only [select,run,Option.bind_eq_some_iff,Option.map_some,Option.some.injEq] at ran
    obtain ⟨e,applied,rfl⟩ := ran
    exact ⟨gap,rfl,applied,rfl,rfl⟩

theorem run_bind_success {p : Reader δ α} {f : α → Reader δ β} {d : δ} {gaps : List (List ω)}
    {t : Result δ ω β} (ran : run apply (p >>= f) d gaps = some t) :
    ∃ r u, run apply p d gaps = some r ∧ run apply (f r.answer) r.database r.later = some u ∧
      t = { u with views := r.views ++ u.views } := by
  rw [run_bind] at ran
  obtain ⟨r,first,rest⟩ := Option.bind_eq_some_iff.mp ran
  obtain ⟨u,second,same⟩ := Option.map_eq_some_iff.mp rest
  exact ⟨r,u,first,second,same.symm⟩

theorem run_mapM_select {γ : Type} (query : γ → δ → α) (xs : List γ) {d : δ} {gaps : List (List ω)}
    {r : Result δ ω (List α)} (ran : run apply (xs.mapM fun x => select (query x)) d gaps = some r) :
    r.views.length = xs.length ∧ r.answer = (xs.zip r.views).map fun p => query p.1 p.2 := by
  induction xs generalizing d gaps r with
  | nil =>
    rw [List.mapM_nil,run_pure] at ran
    cases ran
    exact ⟨rfl,rfl⟩
  | cons x xs induction =>
    rw [List.mapM_cons] at ran
    obtain ⟨first,_,one,more,rfl⟩ := run_bind_success ran
    obtain ⟨rest,last,others,finish,rfl⟩ := run_bind_success more
    obtain ⟨_,_,_,answer,views⟩ := run_select one
    obtain ⟨length,answers⟩ := induction others
    rw [run_pure] at finish
    cases finish
    rw [views,answer,answers]
    exact ⟨by simp [length],by simp⟩

theorem run_quiet {p : Reader δ α} {d : δ} {gaps : List (List ω)} {r : Result δ ω α} (quiet : gaps.flatten = [])
    (ran : run apply p d gaps = some r) : r.database = d ∧ (∀ e ∈ r.views, e = d) ∧ r.later.flatten = [] := by
  induction p generalizing gaps r with
  | done a =>
    cases ran
    exact ⟨rfl,by simp,quiet⟩
  | statement next induction =>
    cases gaps with
    | nil => cases ran
    | cons gap gaps =>
      obtain ⟨nothing,rest⟩ := List.append_eq_nil_iff.mp (List.flatten_cons ▸ quiet)
      rw [nothing,run] at ran
      obtain ⟨u,inner,rfl⟩ := Option.map_eq_some_iff.mp ran
      obtain ⟨same,views,later⟩ := induction d rest inner
      exact ⟨same,by simpa using views,later⟩

section Order
variable {before : δ → δ → Prop} (refl : ∀ d, before d d) (trans : ∀ d e f, before d e → before e f → before d f)
  (writes : ∀ d w e, apply d w = some e → before d e)
include refl trans writes

theorem writes_ordered {gap : List ω} {d e : δ} (applied : gap.foldlM apply d = some e) : before d e := by
  induction gap generalizing d with
  | nil =>
    cases applied
    exact refl _
  | cons w rest induction =>
    rw [List.foldlM_cons] at applied
    obtain ⟨middle,first,others⟩ := Option.bind_eq_some_iff.mp applied
    exact trans d middle e (writes d w middle first) (induction others)

theorem run_ordered {p : Reader δ α} {d : δ} {gaps : List (List ω)} {r : Result δ ω α}
    (ran : run apply p d gaps = some r) : (d :: (r.views ++ [r.database])).Pairwise before := by
  induction p generalizing d gaps r with
  | done a =>
    cases ran
    simpa using refl d
  | statement next induction =>
    cases gaps with
    | nil => cases ran
    | cons gap gaps =>
      rw [run] at ran
      obtain ⟨e,applied,rest⟩ := Option.bind_eq_some_iff.mp ran
      obtain ⟨u,inner,rfl⟩ := Option.map_eq_some_iff.mp rest
      have ordered := induction e inner
      have start := writes_ordered refl trans writes applied
      refine List.pairwise_cons.mpr ⟨fun f member => ?_,ordered⟩
      rcases List.mem_cons.mp member with same | later
      · exact same ▸ start
      · exact trans d e f start ((List.pairwise_cons.mp ordered).1 f later)

end Order

section Simulation
variable {ε υ : Type} {related : δ → ε → Prop}

/-- Programs that go on alike after statements on related databases. -/
inductive Alike (related : δ → ε → Prop) : {α : Type} → Reader δ α → Reader ε α → Prop
  | done {α : Type} (a : α) : Alike related (done a) (done a)
  | statement {α : Type} {next : δ → Reader δ α} {other : ε → Reader ε α} :
      (∀ d e, related d e → Alike related (next d) (other e)) → Alike related (statement next) (statement other)

theorem Alike.bind {p : Reader δ α} {q : Reader ε α} (first : Alike related p q) {f : α → Reader δ β}
    {g : α → Reader ε β} (rest : ∀ a, Alike related (f a) (g a)) : Alike related (p >>= f) (q >>= g) := by
  induction first with
  | done a => exact rest a
  | statement _ induction => exact .statement fun d e same => induction d e same

theorem Alike.select {query : δ → α} {other : ε → α} (same : ∀ d e, related d e → query d = other e) :
    Alike related (select query) (select other) := by
  refine .statement fun d e holds => ?_
  rw [same d e holds]
  exact .done _

theorem Alike.mapM {γ : Type} {f : γ → Reader δ α} {g : γ → Reader ε α} (each : ∀ x, Alike related (f x) (g x))
    (xs : List γ) : Alike related (xs.mapM f) (xs.mapM g) := by
  induction xs with
  | nil => exact .done []
  | cons x xs induction =>
    rw [List.mapM_cons,List.mapM_cons]
    exact (each x).bind fun a => induction.bind fun rest => .done (a :: rest)

variable {other : ε → υ → Option ε} {translate : ω → υ} {fits : δ → List ω → Prop}
  (step : ∀ d e w rest d', related d e → fits d (w :: rest) → apply d w = some d' →
    ∃ e', other e (translate w) = some e' ∧ related d' e' ∧ fits d' rest)
include step

theorem writes_simulated {gap rest : List ω} {d d' : δ} {e : ε} (holds : related d e) (fitting : fits d (gap ++ rest))
    (applied : gap.foldlM apply d = some d') :
    ∃ e', (gap.map translate).foldlM other e = some e' ∧ related d' e' ∧ fits d' rest := by
  induction gap generalizing d e with
  | nil =>
    cases applied
    exact ⟨e,rfl,holds,fitting⟩
  | cons w gap induction =>
    rw [List.foldlM_cons] at applied
    obtain ⟨middle,first,others⟩ := Option.bind_eq_some_iff.mp applied
    obtain ⟨e',written,holds',fitting'⟩ := step d e w (gap ++ rest) middle holds fitting first
    obtain ⟨last,more,ends⟩ := induction holds' fitting' others
    refine ⟨last,?_,ends⟩
    rw [List.map_cons,List.foldlM_cons,written]
    exact more

/-- Alike programs on related databases with translated writes answer the same. -/
theorem run_simulated {p : Reader δ α} {q : Reader ε α} (alike : Alike related p q) {d : δ} {e : ε}
    {gaps : List (List ω)} {r : Result δ ω α} (holds : related d e) (fitting : fits d gaps.flatten)
    (ran : run apply p d gaps = some r) :
    ∃ t, run other q e (gaps.map (List.map translate)) = some t ∧ t.answer = r.answer ∧
      related r.database t.database ∧ fits r.database r.later.flatten ∧
      t.later = r.later.map (List.map translate) ∧ List.Forall₂ related r.views t.views := by
  induction alike generalizing d e gaps r with
  | done a =>
    cases ran
    exact ⟨_,rfl,rfl,holds,fitting,rfl,.nil⟩
  | statement _ induction =>
    cases gaps with
    | nil => cases ran
    | cons gap gaps =>
      rw [run] at ran
      obtain ⟨d',applied,rest⟩ := Option.bind_eq_some_iff.mp ran
      obtain ⟨inner,taken,rfl⟩ := Option.map_eq_some_iff.mp rest
      obtain ⟨e',written,holds',fitting'⟩ := writes_simulated step holds (List.flatten_cons ▸ fitting) applied
      obtain ⟨t,run',answer,ends,fitting'',later,views⟩ := induction d' e' holds' holds' fitting' taken
      refine ⟨{ t with views := e' :: t.views },?_,answer,ends,fitting'',later,.cons holds' views⟩
      rw [List.map_cons,run,written]
      exact Option.map_eq_some_iff.mpr ⟨t,run',rfl⟩

end Simulation

end Reader
