import Mathlib.Data.List.Basic
import Mathlib.Data.List.Induction

/-! Runs of a labelled transition system and their invariants.
A system may be given by a function that refuses labels; `within` restricts the labels further.
-/
namespace Transition

universe u v
variable {σ : Type u} {α : Type v} {step : σ → α → σ → Prop}

inductive Run (step : σ → α → σ → Prop) : σ → List α → σ → Prop
  | nil (s : σ) : Run step s [] s
  | cons {s middle t : σ} {a : α} {rest : List α} :
      step s a middle → Run step middle rest t → Run step s (a :: rest) t

/-- The steps of `step` whose label is allowed in the state they start from. -/
def Restricted (allowed : σ → α → Prop) (step : σ → α → σ → Prop) (s : σ) (a : α) (t : σ) : Prop :=
  allowed s a ∧ step s a t

def Reachable (initial : σ → Prop) (step : σ → α → σ → Prop) (t : σ) : Prop :=
  ∃ s labels, initial s ∧ Run step s labels t

theorem Run.append {s middle t : σ} {first second : List α} (left : Run step s first middle)
    (right : Run step middle second t) : Run step s (first ++ second) t := by
  induction left with
  | nil => exact right
  | cons taken _ induction => exact .cons taken (induction right)

theorem Run.snoc {s middle t : σ} {labels : List α} {a : α} (run : Run step s labels middle)
    (taken : step middle a t) : Run step s (labels ++ [a]) t :=
  run.append (.cons taken (.nil t))

theorem Run.invariant {kept : σ → Prop} {s t : σ} {labels : List α} (run : Run step s labels t)
    (preserved : ∀ s a t, kept s → step s a t → kept t) (holds : kept s) : kept t := by
  induction run with
  | nil => exact holds
  | cons taken _ induction => exact induction (preserved _ _ _ holds taken)

theorem Run.mono {other : σ → α → σ → Prop} (weaker : ∀ s a t, step s a t → other s a t)
    {s t : σ} {labels : List α} (run : Run step s labels t) : Run other s labels t := by
  induction run with
  | nil => exact .nil _
  | cons taken _ induction => exact .cons (weaker _ _ _ taken) induction

theorem Run.restrict {allowed : σ → α → Prop} {s t : σ} {labels : List α} (run : Run step s labels t)
    (met : ∀ a ∈ labels, ∀ s, allowed s a) : Run (Restricted allowed step) s labels t := by
  induction run with
  | nil s => exact .nil s
  | cons taken _ induction =>
    exact .cons ⟨met _ List.mem_cons_self _,taken⟩ (induction fun a member => met a (List.mem_cons_of_mem _ member))

theorem Reachable.initial {start : σ → Prop} {s : σ} (holds : start s) : Reachable start step s :=
  ⟨s,[],holds,.nil s⟩

theorem Reachable.next {start : σ → Prop} {s t : σ} {a : α} (reached : Reachable start step s)
    (taken : step s a t) : Reachable start step t := by
  obtain ⟨origin,labels,holds,run⟩ := reached
  exact ⟨origin,labels ++ [a],holds,run.snoc taken⟩

theorem Reachable.invariant {start kept : σ → Prop} {t : σ} (reached : Reachable start step t)
    (base : ∀ s, start s → kept s) (preserved : ∀ s a t, kept s → step s a t → kept t) : kept t := by
  obtain ⟨s,labels,holds,run⟩ := reached
  exact run.invariant preserved (base s holds)

/-- The step relation of a transition function that refuses some labels. -/
def OfNext (next : σ → α → Option σ) (s : σ) (a : α) (t : σ) : Prop := next s a = some t

/-- The transition function that also refuses the labels `allowed` refuses. -/
def within (allowed : σ → α → Bool) (next : σ → α → Option σ) (s : σ) (a : α) : Option σ :=
  if allowed s a then next s a else none

theorem within_eq_some {allowed : σ → α → Bool} {next : σ → α → Option σ} {s t : σ} {a : α} :
    within allowed next s a = some t ↔ allowed s a = true ∧ next s a = some t := by
  unfold within
  split <;> simp_all

def execute (next : σ → α → Option σ) (s : σ) : List α → Option σ
  | [] => some s
  | a :: rest => (next s a).bind fun middle => execute next middle rest

theorem run_of_execute {next : σ → α → Option σ} {labels : List α} :
    ∀ {s t : σ}, execute next s labels = some t → Run (OfNext next) s labels t := by
  induction labels with
  | nil =>
    intro s t same
    cases same
    exact .nil s
  | cons a rest induction =>
    intro s t executed
    cases taken : next s a with
    | none => simp [execute,taken] at executed
    | some middle => exact .cons taken (induction (by simpa [execute,taken] using executed))

theorem run_of_isSome {next : σ → α → Option σ} {s : σ} {labels : List α} (other : σ)
    (computed : (execute next s labels).isSome = true) :
    Run (OfNext next) s labels ((execute next s labels).getD other) := by
  obtain ⟨t,same⟩ := Option.isSome_iff_exists.mp computed
  rw [same]
  exact run_of_execute same

theorem reachable_of_execute {β : Type*} {start : σ → Prop} {s : σ} {b : β} (next : σ → α → Option σ)
    (view : σ → β) (labels : List α) (holds : start s)
    (executed : (execute next s labels).map view = some b) :
    ∃ t, Reachable start (OfNext next) t ∧ view t = b := by
  obtain ⟨t,computed,same⟩ := Option.map_eq_some_iff.mp executed
  exact ⟨t,⟨s,labels,holds,run_of_execute computed⟩,same⟩

theorem reachable_of_execute_within {β : Type*} {start : σ → Prop} {s : σ} {b : β} {allowed : σ → α → Prop}
    [∀ s a, Decidable (allowed s a)] (next : σ → α → Option σ) (view : σ → β) (labels : List α) (holds : start s)
    (executed : (execute (within (fun s a => decide (allowed s a)) next) s labels).map view = some b) :
    ∃ t, Reachable start (Restricted allowed (OfNext next)) t ∧ view t = b := by
  obtain ⟨t,computed,same⟩ := Option.map_eq_some_iff.mp executed
  refine ⟨t,⟨s,labels,holds,(run_of_execute computed).mono fun s a t taken => ?_⟩,same⟩
  obtain ⟨admitted,taken⟩ := within_eq_some.mp taken
  exact ⟨of_decide_eq_true admitted,taken⟩

variable {serve : σ → α → σ} {first second : σ → α → Prop}

/-- Every step of the sequence meets the property where it is taken. -/
def Along (serve : σ → α → σ) (property : σ → α → Prop) : σ → List α → Prop
  | _,[] => True
  | s,a :: rest => property s a ∧ Along serve property (serve s a) rest

theorem along_congr {kept : σ → Prop} (same : ∀ s a, kept s → (first s a ↔ second s a))
    (preserved : ∀ s a, kept s → first s a → kept (serve s a)) {s : σ} {labels : List α} (holds : kept s) :
    Along serve first s labels ↔ Along serve second s labels := by
  induction labels generalizing s with
  | nil => rfl
  | cons a rest induction =>
    constructor
    · rintro ⟨here,later⟩
      exact ⟨(same s a holds).mp here,(induction (preserved s a holds here)).mp later⟩
    · rintro ⟨here,later⟩
      have met := (same s a holds).mpr here
      exact ⟨met,(induction (preserved s a holds met)).mpr later⟩

end Transition
