import SasBackend.Semantics.PermissionCache

/-! The keys of the current version are never older than a change whose invalidation has run, as long as no load is put that is:
a request that starts later then finds fresh keys or reads them itself.
-/
namespace PermissionCache
open Transition

variable {s t : State} {p userId : Nat} {process : Process} {loaded : Loaded} {check : Check}

def Load.readsRoles : Load → Bool
  | .start | .user _ => false
  | _ => true

def After (changes : List Nat) (read : Nat) : Prop := ∀ change ∈ changes, change ≤ read

def Sound (commits : Nat) : Process → Prop
  | .request _ cached invalidated since load =>
    After invalidated commits ∧ (∀ loaded, cached = some loaded → After invalidated loaded.since) ∧
      (load.readsRoles → After invalidated since)
  | .committed change => change ≤ commits
  | .ended => True

structure Invariant (s : State) : Prop where
  entries : ∀ entry ∈ s.store, entry.roleVersion = s.roleVersion → After s.invalidated entry.loaded.since
  bounded : After s.invalidated s.commits
  sound : ∀ process ∈ s.processes, Sound s.commits process
  fresh : Fresh s

theorem Sound.mono {commits later : Nat} (sound : Sound commits process) (le : commits ≤ later) : Sound later process := by
  cases process with
  | request userId cached invalidated since load =>
    obtain ⟨started,rest⟩ := sound
    exact ⟨fun change member => Nat.le_trans (started change member) le,rest⟩
  | committed change => exact Nat.le_trans sound le
  | ended => trivial

theorem Invariant.goto (invariant : Invariant s) (sound : Sound s.commits process) : Invariant (s.goto p process) where
  entries := invariant.entries
  bounded := invariant.bounded
  sound other member := by
    rcases List.mem_or_eq_of_mem_set member with old | rfl
    · exact invariant.sound other old
    · exact sound
  fresh := invariant.fresh

theorem Invariant.append (invariant : Invariant s) (sound : Sound s.commits process) :
    Invariant { s with processes := s.processes ++ [process] } where
  entries := invariant.entries
  bounded := invariant.bounded
  sound := List.forall_mem_append.mpr ⟨invariant.sound,List.forall_mem_singleton.mpr sound⟩
  fresh := invariant.fresh

theorem Invariant.pass (invariant : Invariant s) (after : After check.invalidated check.loaded.since) :
    Invariant (s.pass p check) := by
  have logged : Invariant { s with checked := s.checked ++ [check] } :=
    { invariant with fresh := List.forall_mem_append.mpr ⟨invariant.fresh,List.forall_mem_singleton.mpr after⟩ }
  exact logged.goto trivial

theorem Invariant.shrink (invariant : Invariant s) {store : List Entry} (fewer : ∀ entry ∈ store, entry ∈ s.store) :
    Invariant { s with store := store } :=
  { invariant with entries := fun entry member => invariant.entries entry (fewer entry member) }

theorem get_frame (s : State) (userId : Nat) : ∃ store, (∀ entry ∈ store, entry ∈ s.store) ∧
    (PermissionCache.get s userId).1 = { s with store := store } := by
  unfold PermissionCache.get
  split
  · exact ⟨s.store,fun entry member => member,rfl⟩
  · split
    · exact ⟨_,fun entry member => List.mem_of_mem_filter member,rfl⟩
    · exact ⟨s.store,fun entry member => member,rfl⟩

theorem Invariant.cached (invariant : Invariant s) (found : (PermissionCache.get s userId).2 = some loaded) :
    After s.invalidated loaded.since := by
  unfold PermissionCache.get at found
  split at found
  · cases found
  case h_2 entry here =>
    split at found
    · cases found
    · cases found
      have matched := List.find?_some here
      simp only [Bool.and_eq_true,decide_eq_true_eq] at matched
      exact invariant.entries entry (List.mem_of_find?_eq_some here) matched.2

theorem Invariant.put (invariant : Invariant s) (timely : After s.invalidated loaded.since) :
    Invariant (put s userId loaded) := by
  have kept : ∀ entry ∈ (if maxEntries ≤ s.store.length then [] else s.store), entry ∈ s.store := by
    intro entry member
    split at member
    · cases member
    · exact member
  refine { invariant with entries := List.forall_mem_cons.mpr ⟨fun _ => timely,fun entry member => ?_⟩ }
  exact invariant.entries entry (kept entry (List.mem_of_mem_filter member))

/-- One statement of a request. -/
theorem Invariant.advanceRequest (invariant : Invariant s) {cached : Option Loaded} {invalidated : List Nat} {since : Nat}
    {load : Load} (sound : Sound s.commits (.request userId cached invalidated since load))
    (timely : ∀ user userRoles roles rolePermissions permissions,
      load = .permissions user userRoles roles rolePermissions permissions → After s.invalidated since) :
    Invariant (advanceRequest s p userId cached invalidated since load) := by
  obtain ⟨started,fromCache,read⟩ := sound
  cases load with
  | start =>
    rw [PermissionCache.advanceRequest]
    split
    · exact invariant.goto trivial
    · exact invariant.goto ⟨started,fromCache,fun later => absurd later (by simp [Load.readsRoles])⟩
  | user user => exact invariant.goto ⟨started,fromCache,fun _ => started⟩
  | userRoles user userRoles => exact invariant.goto ⟨started,fromCache,fun _ => read rfl⟩
  | roles user userRoles roles =>
    cases cached with
    | some loaded => exact invariant.pass (fromCache loaded rfl)
    | none => exact invariant.goto ⟨started,fromCache,fun _ => read rfl⟩
  | rolePermissions user userRoles roles rolePermissions => exact invariant.goto ⟨started,fromCache,fun _ => read rfl⟩
  | permissions user userRoles roles rolePermissions permissions =>
    have after : After s.invalidated since := timely _ _ _ _ _ rfl
    exact (invariant.put after).pass (read rfl)

theorem Invariant.next {action : Action} (invariant : Invariant s) (allowed : timely s action = true)
    (taken : next s action = some t) : Invariant t := by
  cases action with
  | start userId =>
    simp only [PermissionCache.next,Option.some.injEq] at taken
    subst taken
    obtain ⟨store,fewer,same⟩ := get_frame s userId
    have found : ∀ loaded, (PermissionCache.get s userId).2 = some loaded → After s.invalidated loaded.since :=
      fun loaded hit => invariant.cached hit
    rw [same]
    exact (invariant.shrink fewer).append ⟨invariant.bounded,found,fun later => absurd later (by simp [Load.readsRoles])⟩
  | advance p =>
    simp only [PermissionCache.next] at taken
    split at taken
    case h_1 userId cached invalidated since load here =>
      cases taken
      refine invariant.advanceRequest (invariant.sound _ (List.mem_of_getElem? here)) ?_
      rintro user userRoles roles rolePermissions permissions rfl
      simpa [timely,here,After] using allowed
    case h_2 change here =>
      cases taken
      have sound : change ≤ s.commits := invariant.sound _ (List.mem_of_getElem? here)
      have moved : Invariant (s.goto p .ended) := invariant.goto trivial
      exact
        { entries := List.forall_mem_nil _
          bounded := List.forall_mem_cons.mpr ⟨sound,invariant.bounded⟩
          sound := moved.sound
          fresh := moved.fresh }
    · cases taken
  | abort p =>
    simp only [PermissionCache.next] at taken
    split at taken
    · cases taken
      exact invariant.goto trivial
    · cases taken
  | commit change =>
    cases taken
    exact
      { entries := invariant.entries
        bounded := fun older member => Nat.le_succ_of_le (invariant.bounded older member)
        sound := List.forall_mem_append.mpr
          ⟨fun process member => (invariant.sound process member).mono (Nat.le_succ _),List.forall_mem_singleton.mpr (Nat.le_refl _)⟩
        fresh := invariant.fresh }
  | wait duration =>
    cases taken
    exact { invariant with }

/-- No request is checked against keys that were read before a change committed whose invalidation it started after. -/
theorem permission_cache_fresh (reached : Reachable Initial (OfNext (within timely next)) s) : Fresh s := by
  have invariant : Invariant s := by
    refine reached.invariant ?_ fun u action w invariant taken => ?_
    · rintro u ⟨store,processes,commits,invalidated,checked⟩
      constructor
      · simp [store]
      · simp [After,invalidated]
      · simp [processes]
      · simp [Fresh,checked]
    · obtain ⟨allowed,stepped⟩ := within_eq_some.mp taken
      exact invariant.next allowed stepped
  exact invariant.fresh

private def voiding : Database := ⟨[⟨1,1⟩],[⟨1,1,1,false⟩],[⟨1,1,false⟩],[⟨1,1,1⟩],[⟨1,"sales.void"⟩]⟩

private def idle : State := ⟨voiding,0,0,[],[],0,[],[]⟩

private def revoke : Action := .commit fun database => { database with rolePermissions := [] }

private theorem idle_initial : Initial idle := ⟨rfl,rfl,rfl,rfl,rfl⟩

/-- A load that ends before the change commits: the next request reads again. -/
theorem permission_cache_fresh_reload : ∃ s, s.checked = [⟨1,⟨["sales.void"],0⟩,[]⟩,⟨1,⟨[],1⟩,[1]⟩] ∧ Fresh s := by
  obtain ⟨s,reached,view⟩ := reachable_of_execute (within timely next) State.checked
    ([.start 1] ++ .replicate 6 (.advance 0) ++ [revoke,.advance 1,.start 1] ++ .replicate 6 (.advance 2)) idle_initial
    (b := [⟨1,⟨["sales.void"],0⟩,[]⟩,⟨1,⟨[],1⟩,[1]⟩]) (by decide +kernel)
  exact ⟨s,view,permission_cache_fresh reached⟩

/-- A load that read before the change and puts after its invalidation: a later request is served the revoked permission. -/
theorem permission_cache_stale : ∃ s, Reachable Initial (OfNext next) s ∧
    s.checked = [⟨1,⟨["sales.void"],0⟩,[]⟩,⟨1,⟨["sales.void"],0⟩,[1]⟩] ∧ ¬ Fresh s := by
  obtain ⟨s,reached,view⟩ := reachable_of_execute next State.checked
    ([.start 1] ++ .replicate 5 (.advance 0) ++ [revoke,.advance 1,.advance 0,.start 1] ++ .replicate 4 (.advance 2)) idle_initial
    (b := [⟨1,⟨["sales.void"],0⟩,[]⟩,⟨1,⟨["sales.void"],0⟩,[1]⟩]) (by decide +kernel)
  refine ⟨s,reached,view,fun fresh => ?_⟩
  have late := fresh ⟨1,⟨["sales.void"],0⟩,[1]⟩ (by simp [view]) 1 (by simp)
  exact absurd late (by decide)

end PermissionCache
