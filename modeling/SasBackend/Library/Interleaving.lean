import Mathlib.Algebra.Order.Group.Defs
import Mathlib.Data.Set.Insert
import SasBackend.Library.Program
import SasBackend.Library.RowLocks
import SasBackend.Library.Transition

/-! Requests running statement by statement among each other, with locks held to the end.
A session's own writes are seen by itself alone until it commits. `sees` says which views a statement may have
of the committed database with the session's own writes.
-/
namespace Interleaving
open RowLocks Transition

universe u
variable {σ κ ε ρ : Type} {M : Type u}

structure Session (σ κ ε : Type) where
  program : Program σ κ ε Unit
  own : σ → σ

structure State (σ κ ε : Type) where
  committed : σ
  locks : List (Held κ)
  sessions : Nat → Option (Session σ κ ε)

inductive Label (σ ρ : Type)
  | start (t : Nat) (request : ρ)
  | advance (t : Nat) (view : σ)
  | abort (t : Nat)

def State.put (s : State σ κ ε) (t : Nat) (session : Session σ κ ε) : State σ κ ε :=
  { s with sessions := Function.update s.sessions t (some session) }

/-- The end of a session: its locks go. -/
def State.finish (s : State σ κ ε) (t : Nat) (committed : σ) : State σ κ ε :=
  ⟨committed,releaseAll s.locks t,Function.update s.sessions t none⟩

variable [DecidableEq κ]

def advance (s : State σ κ ε) (t : Nat) (view : σ) (session : Session σ κ ε) : Option (State σ κ ε) :=
  match session.program with
  | .done _ => some (s.finish t (session.own s.committed))
  | .fail _ => some (s.finish t s.committed)
  | .lock key next =>
    if grantable s.locks t key .update then
      some ({ s with locks := acquire s.locks t key .update }.put t ⟨next,session.own⟩)
    else none
  | .read next => some (s.put t ⟨next view,session.own⟩)
  | .write change next => some (s.put t ⟨next,change ∘ session.own⟩)

def next (program : ρ → Program σ κ ε Unit) (s : State σ κ ε) : Label σ ρ → Option (State σ κ ε)
  | .start t request => match s.sessions t with
    | none => some (s.put t ⟨program request,id⟩)
    | some _ => none
  | .advance t view => (s.sessions t).bind (advance s t view)
  | .abort t => (s.sessions t).map fun _ => s.finish t s.committed

/-- Every statement has a view that `sees` allows. -/
def Shown (sees : σ → σ → Prop) (s : State σ κ ε) : Label σ ρ → Prop
  | .advance t view => ∀ session, s.sessions t = some session → sees (session.own s.committed) view
  | _ => True

def Step (sees : σ → σ → Prop) (program : ρ → Program σ κ ε Unit) : State σ κ ε → Label σ ρ → State σ κ ε → Prop :=
  Restricted (Shown sees) (OfNext (next program))

def Holds (locks : List (Held κ)) (t : Nat) (key : κ) : Prop := ⟨t,key,.update⟩ ∈ locks

section Floor
variable [AddCommGroup M] [PartialOrder M] (amount : σ → κ → M) (valid : σ → Prop)

/-- The write keeps the database valid and adds the same to each key's amount wherever it is applied. -/
structure Adds (change : σ → σ) (added : κ → M) : Prop where
  kept : ∀ s, valid s → valid (change s)
  adds : ∀ s key, amount (change s) key = amount s key + added key

/-- The program takes from a key only while it holds its lock and only what it has seen there. `floor` bounds the
amounts of the held keys from below: nobody else takes from these. -/
def Safe {α : Type} : Program σ κ ε α → Set κ → (κ → M) → (α → Set κ → (κ → M) → Prop) → Prop
  | .done a, held, floor, post => post a held floor
  | .fail _, _, _, _ => True
  | .lock key next, held, floor, post => Safe next (insert key held) (Function.update floor key 0) post
  | .read next, held, floor, post => ∀ view, valid view → (∀ key ∈ held, floor key ≤ amount view key) →
      Safe (next view) held (amount view) post
  | .write change next, held, floor, post => ∃ added, Adds amount valid change added ∧
      (∀ key, 0 ≤ added key ∨ key ∈ held ∧ 0 ≤ floor key + added key) ∧
      Safe next held (fun key => floor key + added key) post

variable {amount valid} {α β : Type} {held : Set κ} {floor : κ → M} {post : α → Set κ → (κ → M) → Prop}

theorem Safe.bind {p : Program σ κ ε α} {f : α → Program σ κ ε β} {after : β → Set κ → (κ → M) → Prop}
    (first : Safe amount valid p held floor fun a held floor => Safe amount valid (f a) held floor after) :
    Safe amount valid (p >>= f) held floor after := by
  induction p generalizing held floor with
  | done => exact first
  | fail => trivial
  | lock key next induction => exact induction first
  | read next induction => exact fun view shown above => induction view (first view shown above)
  | write change next induction =>
    obtain ⟨added,adds,covered,rest⟩ := first
    exact ⟨added,adds,covered,induction rest⟩

theorem Safe.mono {p : Program σ κ ε α} (safe : Safe amount valid p held floor post)
    {weaker : α → Set κ → (κ → M) → Prop} (implied : ∀ a held floor, post a held floor → weaker a held floor) :
    Safe amount valid p held floor weaker := by
  induction p generalizing held floor with
  | done a => exact implied a held floor safe
  | fail => trivial
  | lock key next induction => exact induction safe
  | read next induction => exact fun view shown above => induction view (safe view shown above)
  | write change next induction =>
    obtain ⟨added,adds,covered,rest⟩ := safe
    exact ⟨added,adds,covered,induction rest⟩

theorem safe_pure {a : α} (holds : post a held floor) : Safe amount valid (pure a : Program σ κ ε α) held floor post :=
  holds

theorem safe_ofExcept {outcome : Except ε α} (holds : ∀ a, outcome = .ok a → post a held floor) :
    Safe amount valid (.ofExcept outcome) held floor post := by
  cases outcome with
  | error failure => trivial
  | ok a => exact holds a rfl

theorem safe_require {condition : Bool} {failure : ε} {post : Unit → Set κ → (κ → M) → Prop}
    (holds : condition = true → post () held floor) :
    Safe amount valid (.require condition failure) held floor post := by
  cases condition with
  | false => trivial
  | true => exact holds rfl

theorem safe_get {query : σ → α}
    (holds : ∀ view, valid view → (∀ key ∈ held, floor key ≤ amount view key) → post (query view) held (amount view)) :
    Safe amount valid (.get query : Program σ κ ε α) held floor post :=
  holds

theorem safe_acquire {key : κ} {post : Unit → Set κ → (κ → M) → Prop}
    (holds : post () (insert key held) (Function.update floor key 0)) :
    Safe amount valid (.acquire key : Program σ κ ε Unit) held floor post :=
  holds

theorem safe_put {change : σ → σ} {post : Unit → Set κ → (κ → M) → Prop} (kept : ∀ s, valid s → valid (change s))
    (same : ∀ s, amount (change s) = amount s) (holds : post () held floor) :
    Safe amount valid (.put change : Program σ κ ε Unit) held floor post := by
  refine ⟨fun _ => 0,⟨kept,fun s key => ?_⟩,fun _ => .inl le_rfl,?_⟩
  · rw [same,add_zero]
  · simp only [add_zero]
    exact holds

theorem safe_mapM {γ : Type} {f : γ → Program σ κ ε β} (kept : List γ → List β → Set κ → (κ → M) → Prop)
    (round : ∀ x rest results held floor, kept (x :: rest) results held floor →
      Safe amount valid (f x) held floor fun b => kept rest (results ++ [b]))
    {xs : List γ} (results : List β) (holds : kept xs results held floor) :
    Safe amount valid (xs.mapM f) held floor fun more => kept [] (results ++ more) := by
  induction xs generalizing results held floor with
  | nil =>
    rw [List.mapM_nil]
    exact safe_pure (by rwa [List.append_nil])
  | cons x xs induction =>
    rw [List.mapM_cons]
    refine .bind ((round x xs results held floor holds).mono fun b held floor after => .bind ?_)
    refine (induction _ after).mono fun more held floor last => safe_pure ?_
    rwa [List.append_assoc] at last

theorem safe_forM {γ : Type} {f : γ → Program σ κ ε PUnit} (kept : List γ → Set κ → (κ → M) → Prop)
    (round : ∀ x rest held floor, kept (x :: rest) held floor → Safe amount valid (f x) held floor fun _ => kept rest)
    {xs : List γ} (holds : kept xs held floor) :
    Safe amount valid (forM xs f) held floor fun _ => kept [] := by
  induction xs generalizing held floor with
  | nil => exact holds
  | cons x xs induction =>
    rw [List.forM_cons]
    exact .bind ((round x xs held floor holds).mono fun _ held floor after => induction after)

theorem safe_foldlM {γ : Type} {f : β → γ → Program σ κ ε β} (kept : List γ → β → Set κ → (κ → M) → Prop)
    (round : ∀ x rest b held floor, kept (x :: rest) b held floor → Safe amount valid (f b x) held floor (kept rest))
    {xs : List γ} {b : β} (holds : kept xs b held floor) :
    Safe amount valid (xs.foldlM f b) held floor (kept []) := by
  induction xs generalizing b held floor with
  | nil => exact holds
  | cons x xs induction =>
    rw [List.foldlM_cons]
    exact .bind ((round x xs b held floor holds).mono fun _ _ _ kept => induction kept)

variable (amount valid)

/-- What is known of a session: what it adds to each key, and a floor of the keys it holds. -/
def Covered (committed : σ) (held : Set κ) (session : Session σ κ ε) : Prop :=
  ∃ added floor, Adds amount valid session.own added ∧ (∀ key ∉ held, 0 ≤ added key) ∧
    (∀ key ∈ held, 0 ≤ amount committed key + added key ∧ floor key ≤ amount committed key + added key) ∧
    Safe amount valid session.program held floor fun _ _ _ => True

structure Invariant (s : State σ κ ε) : Prop where
  sound : valid s.committed
  nonneg : ∀ key, 0 ≤ amount s.committed key
  compatible : Compatible s.locks
  free : ∀ t, s.sessions t = none → ∀ key, ¬Holds s.locks t key
  sessions : ∀ t session, s.sessions t = some session → Covered amount valid s.committed {key | Holds s.locks t key} session

variable {amount valid} {s s' : State σ κ ε} {t : Nat}

omit [DecidableEq κ] in
private theorem holds_release {locks : List (Held κ)} (u : Nat) (key : κ) :
    Holds (releaseAll locks t) u key ↔ Holds locks u key ∧ u ≠ t := by
  rw [Holds,mem_releaseAll,Holds]

private theorem holds_acquire {locks : List (Held κ)} {key : κ} (granted : grantable locks t key .update = true)
    (u : Nat) (other : κ) :
    Holds (acquire locks t key .update) u other ↔ (u = t ∧ other = key) ∨ Holds locks u other := by
  rw [Holds,mem_acquire granted,Holds]
  simp

private theorem holds_once (invariant : Invariant amount valid s) {u : Nat} {key : κ} (left : Holds s.locks t key)
    (right : Holds s.locks u key) : t = u :=
  invariant.compatible.same_tx left right rfl rfl

theorem Invariant.put (invariant : Invariant amount valid s) {session : Session σ κ ε}
    (covered : Covered amount valid s.committed {key | Holds s.locks t key} session) :
    Invariant amount valid (s.put t session) := by
  refine ⟨invariant.sound,invariant.nonneg,invariant.compatible,fun u ended => ?_,fun u other found => ?_⟩
  · by_cases same : u = t
    · subst same
      simp [State.put] at ended
    · simp only [State.put,Function.update_of_ne same] at ended
      exact invariant.free u ended
  · by_cases same : u = t
    · subst same
      simp only [State.put,Function.update_self,Option.some.injEq] at found
      exact found ▸ covered
    · simp only [State.put,Function.update_of_ne same] at found
      exact invariant.sessions u other found

/-- A session ends: it leaves every key at least as it was, but for those whose locks it held. -/
theorem Invariant.finish (invariant : Invariant amount valid s) {committed : σ} (kept : valid committed)
    (nonneg : ∀ key, 0 ≤ amount committed key)
    (grown : ∀ key, ¬Holds s.locks t key → amount s.committed key ≤ amount committed key)
    [AddRightMono M] : Invariant amount valid (s.finish t committed) := by
  refine ⟨kept,nonneg,invariant.compatible.releaseAll t,fun u ended key held => ?_,fun u other found => ?_⟩
  · obtain ⟨held,apart⟩ := (holds_release u key).mp held
    simp only [State.finish,Function.update_of_ne apart] at ended
    exact invariant.free u ended key held
  by_cases same : u = t
  · subst same
    simp [State.finish] at found
  · simp only [State.finish,Function.update_of_ne same] at found
    obtain ⟨added,floor,adds,gives,above,safe⟩ := invariant.sessions u other found
    have held : {key | Holds (s.finish t committed).locks u key} = {key | Holds s.locks u key} := by
      ext key
      simp [State.finish,holds_release,same]
    rw [held]
    refine ⟨added,floor,adds,gives,fun key member => ?_,safe⟩
    have more : amount s.committed key + added key ≤ amount committed key + added key := by
      refine add_le_add_left (grown key fun mine => same ?_) _
      exact (holds_once invariant mine member).symm
    exact ⟨(above key member).1.trans more,(above key member).2.trans more⟩

variable [IsOrderedAddMonoid M]

theorem Invariant.lock (invariant : Invariant amount valid s) {key : κ} {next : Program σ κ ε Unit} {own : σ → σ}
    (granted : grantable s.locks t key .update = true)
    (covered : Covered amount valid s.committed {key | Holds s.locks t key} ⟨.lock key next,own⟩) :
    Invariant amount valid ({ s with locks := acquire s.locks t key .update }.put t ⟨next,own⟩) := by
  have others : ∀ u, u ≠ t → {other | Holds (acquire s.locks t key .update) u other} = {other | Holds s.locks u other} := by
    intro u apart
    ext other
    simp [holds_acquire granted,apart]
  have mine : {other | Holds (acquire s.locks t key .update) t other} = insert key {other | Holds s.locks t other} := by
    ext other
    simp [holds_acquire granted]
  obtain ⟨added,floor,adds,gives,above,safe⟩ := covered
  have nonneg : 0 ≤ amount s.committed key + added key := by
    by_cases held : Holds s.locks t key
    · exact (above key held).1
    · exact add_nonneg (invariant.nonneg key) (gives key held)
  refine ⟨invariant.sound,invariant.nonneg,invariant.compatible.acquire t key .update,fun u ended other held => ?_,
    fun u other found => ?_⟩
  · by_cases same : u = t
    · subst same
      simp [State.put] at ended
    · simp only [State.put,Function.update_of_ne same] at ended
      have old : Holds s.locks u other := ((holds_acquire granted u other).mp held).resolve_left fun here => same here.1
      exact invariant.free u ended other old
  by_cases same : u = t
  · subst same
    simp only [State.put,Function.update_self,Option.some.injEq] at found
    subst found
    refine mine ▸ ⟨added,Function.update floor key 0,adds,fun other outside => ?_,fun other inside => ?_,safe⟩
    · exact gives other fun held => outside (Set.mem_insert_of_mem key held)
    · by_cases here : other = key
      · subst here
        rw [Function.update_self]
        exact ⟨nonneg,nonneg⟩
      · rw [Function.update_of_ne here]
        exact above other (Set.mem_of_mem_insert_of_ne inside here)
  · simp only [State.put,Function.update_of_ne same] at found
    exact others u same ▸ invariant.sessions u other found

omit [IsOrderedAddMonoid M] in
theorem Covered.read {committed : σ} {held : Set κ} {next : σ → Program σ κ ε Unit} {own : σ → σ} {view : σ}
    (covered : Covered amount valid committed held ⟨.read next,own⟩) (shown : valid view)
    (same : ∀ key, amount view key = amount (own committed) key) :
    Covered amount valid committed held ⟨next view,own⟩ := by
  obtain ⟨added,floor,adds,gives,above,safe⟩ := covered
  have seen (key : κ) : amount view key = amount committed key + added key := (same key).trans (adds.adds committed key)
  refine ⟨added,amount view,adds,gives,fun key member => ⟨(above key member).1,(seen key).le⟩,safe view shown ?_⟩
  intro key member
  rw [seen]
  exact (above key member).2

theorem Covered.write {committed : σ} {held : Set κ} {change own : σ → σ} {next : Program σ κ ε Unit}
    (covered : Covered amount valid committed held ⟨.write change next,own⟩) :
    Covered amount valid committed held ⟨next,change ∘ own⟩ := by
  obtain ⟨added,floor,adds,gives,above,more,moreAdds,kept,safe⟩ := covered
  refine ⟨fun key => added key + more key,fun key => floor key + more key,
    ⟨fun s holds => moreAdds.kept _ (adds.kept s holds),fun s key => ?_⟩,fun key outside => ?_,
    fun key member => ⟨?_,?_⟩,safe⟩
  · have first : amount (own s) key = amount s key + added key := adds.adds s key
    have second : amount (change (own s)) key = amount (own s) key + more key := moreAdds.adds (own s) key
    exact second.trans (by rw [first,add_assoc])
  · exact add_nonneg (gives key outside) ((kept key).resolve_right fun both => outside both.1)
  · rw [← add_assoc]
    rcases kept key with positive | ⟨_,enough⟩
    · exact add_nonneg (above key member).1 positive
    · exact enough.trans (add_le_add_left (above key member).2 _)
  · rw [← add_assoc]
    exact add_le_add_left (above key member).2 _

omit [IsOrderedAddMonoid M] in
theorem Covered.start {committed : σ} {p : Program σ κ ε Unit} {held : Set κ} (free : held = ∅)
    (safe : Safe amount valid p ∅ (fun _ => 0) fun _ _ _ => True) : Covered amount valid committed held ⟨p,id⟩ := by
  subst free
  exact ⟨fun _ => 0,fun _ => 0,⟨fun _ holds => holds,fun s key => (add_zero (amount s key)).symm⟩,fun _ _ => le_rfl,
    fun key member => absurd member id,safe⟩

variable {program : ρ → Program σ κ ε Unit} {sees : σ → σ → Prop}

/-- A step keeps the amounts covered if its view shows the amounts as they are and a request it starts is safe. -/
theorem Invariant.step (shows : ∀ exact view, valid exact → sees exact view → valid view ∧ ∀ key, amount view key = amount exact key)
    {label : Label σ ρ} (safe : ∀ t request, label = .start t request →
      Safe amount valid (program request) ∅ (fun _ => 0) fun _ _ _ => True)
    (invariant : Invariant amount valid s) (taken : Step sees program s label s') : Invariant amount valid s' := by
  obtain ⟨shown,taken⟩ := taken
  cases label with
  | start t request =>
    simp only [OfNext,next] at taken
    split at taken
    · next free =>
      cases taken
      refine invariant.put (.start ?_ (safe t request rfl))
      ext key
      simp [invariant.free t free key]
    · cases taken
  | abort t =>
    obtain ⟨session,_,rfl⟩ := Option.map_eq_some_iff.mp taken
    exact invariant.finish invariant.sound invariant.nonneg fun _ _ => le_rfl
  | advance t view =>
    obtain ⟨⟨program,own⟩,found,moved⟩ := Option.bind_eq_some_iff.mp taken
    have covered := invariant.sessions t _ found
    have kept : valid (own s.committed) := by
      obtain ⟨_,_,adds,_⟩ := covered
      exact adds.kept _ invariant.sound
    have seen := shows _ _ kept (shown _ found)
    cases program with
    | done a =>
      cases moved
      obtain ⟨added,floor,adds,gives,above,_⟩ := covered
      have after (key : κ) : amount (own s.committed) key = amount s.committed key + added key := adds.adds s.committed key
      refine invariant.finish kept (fun key => ?_) fun key free => ?_
      · rw [after]
        by_cases held : Holds s.locks t key
        · exact (above key held).1
        · exact add_nonneg (invariant.nonneg key) (gives key held)
      · rw [after]
        exact le_add_of_nonneg_right (gives key free)
    | fail failure =>
      cases moved
      exact invariant.finish invariant.sound invariant.nonneg fun _ _ => le_rfl
    | lock key rest =>
      simp only [advance] at moved
      split at moved
      · next granted =>
        cases moved
        exact invariant.lock granted covered
      · cases moved
    | read rest =>
      cases moved
      exact invariant.put (covered.read seen.1 seen.2)
    | write change rest =>
      cases moved
      exact invariant.put covered.write

/-- Nothing is running. -/
def Fresh (s : State σ κ ε) : Prop := s.locks = [] ∧ ∀ t, s.sessions t = none

omit [IsOrderedAddMonoid M] in
theorem Invariant.initial (fresh : Fresh s) (holds : valid s.committed) (nonneg : ∀ key, 0 ≤ amount s.committed key) :
    Invariant amount valid s := by
  obtain ⟨unlocked,idle⟩ := fresh
  refine ⟨holds,nonneg,?_,fun t _ key held => ?_,fun t session found => ?_⟩
  · rw [unlocked]
    exact compatible_nil
  · rw [Holds,unlocked] at held
    cases held
  · rw [idle] at found
    cases found

end Floor

section Alone
variable {program : ρ → Program σ κ ε Unit} {sees : σ → σ → Prop} {allowed : State σ κ ε → Label σ ρ → Prop}
  {s : State σ κ ε} {t : Nat}

private theorem advance_step (exact_ : ∀ d, sees d d) (going : ∀ s t view, allowed s (.advance t view)) {session : Session σ κ ε} {s' : State σ κ ε}
    (found : s.sessions t = some session) (moved : advance s t (session.own s.committed) session = some s') :
    Restricted allowed (Step sees program) s (.advance t (session.own s.committed)) s' := by
  refine ⟨going _ _ _,fun other running => ?_,?_⟩
  · cases found.symm.trans running
    exact exact_ _
  · rw [OfNext,next,found]
    exact moved

/-- A session that goes on alone, seeing exactly what is there, commits what `run` computes. -/
theorem advances_alone (exact_ : ∀ d, sees d d) (going : ∀ s t view, allowed s (.advance t view))
    {p : Program σ κ ε Unit} {own : σ → σ} {d : σ} (found : s.sessions t = some ⟨p,own⟩) (mine : ∀ held ∈ s.locks, held.tx = t)
    (ran : p.run (own s.committed) = .ok ((),d)) :
    ∃ labels, Run (Restricted allowed (Step sees program)) s labels ⟨d,[],Function.update s.sessions t none⟩ := by
  have put (s : State σ κ ε) (session : Session σ κ ε) :
      Function.update (s.put t session).sessions t none = Function.update s.sessions t none := Function.update_idem _ _ _
  induction p generalizing s own with
  | done a =>
    cases ran
    have released : releaseAll s.locks t = [] := by
      rw [releaseAll,List.filter_eq_nil_iff]
      simpa using mine
    refine ⟨[_],.cons (advance_step exact_ going found rfl) ?_⟩
    rw [State.finish,released]
    exact .nil _
  | fail failure => cases ran
  | lock key rest induction =>
    have granted : grantable s.locks t key .update = true :=
      grantable_iff.mpr fun held member apart => absurd (mine held member) apart
    have moved : advance s t (own s.committed) ⟨.lock key rest,own⟩ =
        some ({ s with locks := acquire s.locks t key .update }.put t ⟨rest,own⟩) := by simp [advance,granted]
    have mine' : ∀ held ∈ acquire s.locks t key .update, held.tx = t := by
      intro held member
      rcases (mem_acquire granted).mp member with rfl | old
      · rfl
      · exact mine held old
    have ran' : rest.run (own s.committed) = .ok ((),d) := ran
    obtain ⟨labels,run⟩ := induction (s := { s with locks := acquire s.locks t key .update }.put t ⟨rest,own⟩)
      (Function.update_self _ _ _) mine' ran'
    rw [put] at run
    exact ⟨_,.cons (advance_step exact_ going found moved) run⟩
  | read rest induction =>
    obtain ⟨labels,run⟩ := induction (own s.committed) (s := s.put t ⟨rest (own s.committed),own⟩)
      (Function.update_self _ _ _) mine ran
    rw [put] at run
    exact ⟨_,.cons (advance_step exact_ going found rfl) run⟩
  | write change rest induction =>
    obtain ⟨labels,run⟩ := induction (s := s.put t ⟨rest,change ∘ own⟩)
      (Function.update_self _ _ _) mine ran
    rw [put] at run
    exact ⟨_,.cons (advance_step exact_ going found rfl) run⟩

theorem runs_alone (exact_ : ∀ d, sees d d) (going : ∀ s t view, allowed s (.advance t view)) (fresh : Fresh s)
    {request : ρ} (admitted : allowed s (.start 0 request)) {d : σ}
    (ran : (program request).run s.committed = .ok ((),d)) :
    ∃ labels, Run (Restricted allowed (Step sees program)) s labels ⟨d,[],s.sessions⟩ := by
  obtain ⟨unlocked,idle⟩ := fresh
  have started : Restricted allowed (Step sees program) s (.start 0 request) (s.put 0 ⟨program request,id⟩) := by
    refine ⟨admitted,trivial,?_⟩
    rw [OfNext,next,idle]
  have free : ∀ held ∈ (s.put 0 ⟨program request,id⟩).locks, held.tx = 0 := by
    simp [State.put,unlocked]
  obtain ⟨labels,run⟩ := advances_alone (s := s.put 0 ⟨program request,id⟩) exact_ going (Function.update_self _ _ _) free ran
  have ended : Function.update (s.put 0 ⟨program request,id⟩).sessions 0 none = s.sessions := by
    rw [State.put,Function.update_idem,Function.update_eq_self_iff]
    exact (idle 0).symm
  rw [ended] at run
  exact ⟨_,.cons started run⟩

end Alone

end Interleaving
