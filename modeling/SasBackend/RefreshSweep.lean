import SasBackend.Sessions

/-! A revoking UPDATE reaches every standing row it is after, as long as no rotation has consumed one of them and
not committed while it runs.
The UPDATE sees the rows of its start: the successor a rotation inserts is not among them, and the row it waits
for no longer stands when the rotation has committed.
-/
namespace Sessions
open SasBackend Transition

variable {settings : Settings} {s : State} {p now : Nat} {tokens : List RefreshToken} {process : Process}
  {processes : List Process} {scope : Work → Option Nat → Prop}

/-- The statement a process runs or has run on refresh tokens, and the rows it has found and not locked yet. -/
def Process.sweeping (process : Process) : Option (Work × List Nat) :=
  match process.phase with
  | .locking work _ todo => some (work,todo)
  | .committing work => some (work,[])
  | _ => none

def Process.updating (process : Process) (work : Work) : Prop :=
  ∃ since todo, process.phase = .locking work since todo

/-- `scope` tells which families a work means to revoke. -/
structure Sweep (scope : Work → Option Nat → Prop) (tokens : List RefreshToken) (processes : List Process) :
    Prop where
  covered : ∀ (q : Nat) (work : Work) (todo : List Nat) (other : Process), processes[q]? = some other →
    other.sweeping = some (work,todo) → ∀ (i : Nat) (token : RefreshToken), tokens[i]? = some token →
      scope work token.familyId → token.standing = true → i ∈ todo ∨ other.holds i = true
  apart : ∀ (q r : Nat) (work : Work) (a b : Process) (old : Stored), processes[q]? = some a →
    processes[r]? = some b → q ≠ r → a.updating work → b.consumed = some old → ¬scope work old.1.familyId

theorem sweeping_cases {work : Work} {todo : List Nat} (sweeping : process.sweeping = some (work,todo)) :
    process.updating work ∨ todo = [] := by
  unfold Process.sweeping at sweeping
  split at sweeping
  · next phase =>
    cases sweeping
    exact .inl ⟨_,_,phase⟩
  · cases sweeping
    exact .inr rfl
  · cases sweeping

theorem sweeping_resting (resting : process.phase.resting = true) : process.sweeping = none := by
  unfold Process.sweeping
  split
  · next phase => simp [phase,Phase.resting] at resting
  · next phase => simp [phase,Phase.resting] at resting
  · rfl

theorem Sweep.set {after : Process} (sweep : Sweep scope s.tokens s.processes)
    (covered : ∀ work todo, after.sweeping = some (work,todo) → ∀ (i : Nat) (token : RefreshToken),
      s.tokens[i]? = some token → scope work token.familyId → token.standing = true →
        i ∈ todo ∨ after.holds i = true)
    (updates : ∀ work, after.updating work → ∀ q other old, s.processes[q]? = some other → q ≠ p →
      other.consumed = some old → ¬scope work old.1.familyId)
    (consumes : ∀ old, after.consumed = some old → ∀ q other work, s.processes[q]? = some other → q ≠ p →
      other.updating work → ¬scope work old.1.familyId) : Sweep scope s.tokens (s.set p after).processes := by
  refine ⟨?_,?_⟩
  · intro q work todo other found sweeping
    obtain ⟨rfl,rfl⟩ | ⟨distinct,stored⟩ := set_cases found
    · exact covered work todo sweeping
    · exact sweep.covered q work todo other stored sweeping
  · intro q r work a b old first second distinct updating consumed
    obtain ⟨rfl,rfl⟩ | ⟨other,stored⟩ := set_cases first <;>
      obtain ⟨rfl,rfl⟩ | ⟨other',stored'⟩ := set_cases second
    · exact absurd rfl distinct
    · exact updates work updating r b old stored' other' consumed
    · exact consumes old consumed q a work stored other updating
    · exact sweep.apart q r work a b old stored stored' distinct updating consumed

theorem Sweep.rest {after : Process} (sweep : Sweep scope s.tokens s.processes)
    (resting : after.phase.resting = true) : Sweep scope s.tokens (s.set p after).processes := by
  apply sweep.set
  · intro work todo sweeping
    rw [sweeping_resting resting] at sweeping
    cases sweeping
  · rintro work ⟨since,todo,phase⟩
    rw [phase] at resting
    cases resting
  · intro old consumed
    rw [consumed_resting resting] at consumed
    cases consumed

theorem Sweep.release {pair : Option (AccessToken × Nat)} (sweep : Sweep scope s.tokens s.processes) :
    Sweep scope s.tokens (s.release p pair).processes :=
  sweep.rest rfl

theorem Sweep.keep {after : Process} (sweep : Sweep scope s.tokens s.processes)
    (found : s.processes[p]? = some process)
    (covered : ∀ work todo, after.sweeping = some (work,todo) → ∀ (i : Nat) (token : RefreshToken),
      s.tokens[i]? = some token → scope work token.familyId → token.standing = true →
        i ∈ todo ∨ after.holds i = true)
    (updates : ∀ work, after.updating work → process.updating work)
    (consumes : ∀ old, after.consumed = some old → process.consumed = some old) :
    Sweep scope s.tokens (s.set p after).processes := by
  apply sweep.set covered
  · intro work updating q other old stored distinct consumed
    exact sweep.apart p q work process other old found stored distinct.symm (updates work updating) consumed
  · intro old consumed q other work stored distinct updating
    exact sweep.apart q p work other process old stored found distinct updating (consumes old consumed)

theorem mem_targets {work : Work} {i : Nat} {token : RefreshToken} (stored : s.tokens[i]? = some token)
    (concerns : work.concerns settings now (token,i) = true) :
    i ∈ targets settings now s process work ∨ process.holds i = true := by
  cases held : process.holds i with
  | true => exact .inr rfl
  | false =>
    refine .inl (List.mem_map.mpr ⟨(token,i),List.mem_filter.mpr ⟨?_,by simp [concerns,held]⟩,rfl⟩)
    exact List.mem_zipIdx_iff_getElem?.mpr stored

/-- A commit of `p`: a row it inserts into the scope of a running statement replaces one it has consumed. -/
theorem Sweep.settle {pair : Option (AccessToken × Nat)} {extra : List RefreshToken} {families : Nat}
    (sweep : Sweep scope s.tokens s.processes) (base : Base s.tokens s.processes families)
    (found : s.processes[p]? = some process)
    (joins : ∀ token ∈ extra, ∀ q other work todo, s.processes[q]? = some other → q ≠ p →
      other.sweeping = some (work,todo) → scope work token.familyId →
        ∃ old, process.consumed = some old ∧ scope work old.1.familyId) :
    Sweep scope (settled process s.tokens extra) (s.release p pair).processes := by
  have placed := base.placed process (List.mem_of_getElem? found)
  refine ⟨?_,sweep.release.apart⟩
  intro q work todo other stored sweeping i token row inside standing
  obtain ⟨rfl,rfl⟩ | ⟨distinct,stored⟩ := set_cases stored
  · cases sweeping
  · obtain ⟨before,earlier,rfl⟩ | ⟨new,-⟩ := settled_cases row
    · rw [written_familyId] at inside
      exact sweep.covered q work todo other stored sweeping i before earlier inside (standing_written standing).2
    · obtain ⟨old,consumed,meant⟩ :=
        joins token (List.mem_of_getElem? new) q other work todo stored distinct sweeping inside
      obtain ⟨row,stands,own,-,live⟩ := placed.standing consumed
      obtain waits | held := sweep.covered q work todo other stored sweeping old.2 row stands (by rwa [own]) live
      · obtain updating | none := sweeping_cases sweeping
        · exact absurd meant (sweep.apart q p work other process old stored found distinct updating consumed)
        · rw [none] at waits
          cases waits
      · exact absurd (base.exclusive q p old.2 other process stored found held (placed.consumes old consumed)) distinct

theorem Sweep.revoked {pair : Option (AccessToken × Nat)} {families : Nat} (sweep : Sweep scope s.tokens s.processes)
    (base : Base s.tokens s.processes families) (found : s.processes[p]? = some process) :
    Sweep scope (s.tokens.mapIdx (written process.writes)) (s.release p pair).processes := by
  have settles : Sweep scope (settled process s.tokens []) (s.release p pair).processes :=
    sweep.settle base found (by simp)
  simpa [settled] using settles

theorem Sweep.swept {work : Work} (sweep : Sweep scope s.tokens s.processes)
    (found : s.processes[p]? = some process) (phase : process.phase = .committing work) {token : RefreshToken}
    (member : token ∈ s.tokens.mapIdx (written process.writes)) (inside : scope work token.familyId) :
    token.standing = false := by
  cases standing : token.standing with
  | false => rfl
  | true =>
    obtain ⟨i,row⟩ := List.getElem?_of_mem member
    have row : (settled process s.tokens [])[i]? = some token := by
      rw [settled,List.append_nil]
      exact row
    obtain ⟨before,earlier,rfl⟩ | ⟨none,-⟩ := settled_cases row
    · obtain ⟨free,stood⟩ := standing_written standing
      rw [written_familyId] at inside
      obtain waits | held := sweep.covered p work [] process found (by simp [Process.sweeping,phase]) i before earlier
        inside stood
      · cases waits
      · rw [free] at held
        cases held
    · cases none

theorem Sweep.advance {families : Nat} {u : State} (sweep : Sweep scope s.tokens s.processes)
    (base : Base s.tokens s.processes families) (found : s.processes[p]? = some process)
    (concerned : ∀ work since i token, scope work token.familyId → token.standing = true →
      work.concerns settings since (token,i) = true)
    (selects : ∀ work, process.phase = .bulk work → ∀ q other old, s.processes[q]? = some other → q ≠ p →
      other.consumed = some old → ¬scope work old.1.familyId)
    (locks : ∀ old since jti todo, process.phase = .locking (.consume old) since (jti :: todo) →
      ∀ q other work, s.processes[q]? = some other → q ≠ p → other.updating work → ¬scope work old.1.familyId)
    (commits : ∀ work, process.phase = .committing work → commit settings s p now process work = some u →
      Sweep scope u.tokens u.processes)
    (moved : advance settings s p now process = some u) : Sweep scope u.tokens u.processes := by
  have placed := base.placed process (List.mem_of_getElem? found)
  have known := placed.known
  cases advance_moves moved with
  | start phase => exact sweep.rest start_placed.2
  | fail | replay => exact sweep.release
  | flush phase free =>
    rename_i work
    rw [phase] at known
    cases work with
    | login | change => exact sweep.rest rfl
    | update patch =>
      apply sweep.keep found
      · intro meant todo sweeping i token stored inside standing
        cases sweeping
        cases (Bool.and_eq_true_iff.mp (concerned (.update patch) now i token inside standing)).2
      · rintro meant ⟨started,todo,same⟩
        cases same
      · intro old consumed
        cases consumed
    | _ => cases known
  | select phase =>
    rename_i work
    apply sweep.set
    · intro meant todo sweeping i token stored inside standing
      cases sweeping
      exact mem_targets stored (concerned work now i token inside standing)
    · rintro meant ⟨since,todo,same⟩
      cases same
      exact selects work phase
    · intro old consumed
      cases work with
      | consume inner =>
        have held := holds_consumed consumed
        rw [Process.holds,placed.clean (by rw [phase]; rfl)] at held
        cases held
      | _ => cases consumed
  | lock phase free concerns =>
    rename_i work since jti todo
    have before : process.sweeping = some (work,jti :: todo) := by simp only [Process.sweeping,phase]
    apply sweep.set
    · intro meant remaining sweeping i token stored inside standing
      cases sweeping
      obtain waits | held := sweep.covered p work (jti :: todo) process found before i token stored inside standing
      · obtain rfl | waits := List.mem_cons.mp waits
        · exact .inr (holds_append.mpr (.inr rfl))
        · exact .inl waits
      · exact .inr (holds_append.mpr (.inl held))
    · rintro meant ⟨started,remaining,same⟩ q other old stored distinct consumed
      cases same
      exact sweep.apart p q work process other old found stored distinct.symm ⟨_,_,phase⟩ consumed
    · intro old consumed
      cases work with
      | consume inner =>
        simp only [Process.consumed] at consumed
        split at consumed
        · cases consumed
          exact locks _ _ _ _ phase
        · cases consumed
      | _ => cases consumed
  | skip phase gone =>
    rename_i work since jti todo
    have before : process.sweeping = some (work,jti :: todo) := by simp only [Process.sweeping,phase]
    apply sweep.keep found
    · intro meant remaining sweeping i token stored inside standing
      cases sweeping
      obtain waits | held := sweep.covered p work (jti :: todo) process found before i token stored inside standing
      · obtain rfl | waits := List.mem_cons.mp waits
        · exact absurd ((Option.any_eq_true _ _).mpr ⟨token,stored,concerned work since _ token inside standing⟩) gone
        · exact .inl waits
      · exact .inr held
    · rintro meant ⟨started,remaining,same⟩
      cases same
      exact ⟨_,_,phase⟩
    · intro old consumed
      refine Eq.trans ?_ consumed
      cases work with
      | consume inner =>
        simp only [Process.consumed,phase]
        rfl
      | _ => simp only [Process.consumed,phase]
  | consumed phase held =>
    apply sweep.keep found
    · intro work todo sweeping
      cases sweeping
    · rintro work ⟨since,todo,same⟩
      cases same
    · intro old consumed
      refine Eq.trans ?_ consumed
      simp [Process.consumed,phase,held]
  | lost | reread | load | reject => exact sweep.rest rfl
  | done phase other =>
    rename_i work since
    rw [phase] at known
    apply sweep.keep found
    · intro meant todo sweeping
      cases sweeping
      exact sweep.covered p work [] process found (by simp only [Process.sweeping,phase])
    · rintro meant ⟨started,todo,same⟩
      cases same
    · intro old consumed
      cases work with
      | rotation => cases known.2
      | _ => cases consumed
  | rotate phase =>
    rename_i old
    apply sweep.keep found
    · intro meant todo sweeping i token stored inside standing
      cases sweeping
      cases (Bool.and_eq_true_iff.mp (concerned (.rotation old s.user now) now i token inside standing)).2
    · rintro meant ⟨started,todo,same⟩
      cases same
    · intro other consumed
      refine Eq.trans ?_ consumed
      simp [Process.consumed,phase]
  | commit phase committed => exact commits _ phase committed

theorem Sweep.begins {request : Request}
    (sweep : Sweep scope s.tokens s.processes) :
    Sweep scope s.tokens (s.processes ++ [⟨.starting request,[],false⟩]) := by
  refine ⟨?_,?_⟩
  · intro q work todo other found sweeping
    obtain stored | rfl := begin_cases found
    · exact sweep.covered q work todo other stored sweeping
    · cases sweeping
  · intro q r work a b old first second distinct updating consumed
    obtain stored | rfl := begin_cases first
    · obtain stored' | rfl := begin_cases second
      · exact sweep.apart q r work a b old stored stored' distinct updating consumed
      · cases consumed
    · obtain ⟨_,_,phase⟩ := updating
      cases phase

theorem Sweep.idle (idle : s.processes = []) : Sweep scope s.tokens s.processes := by
  rw [idle]
  exact ⟨fun _ _ _ _ found => (nomatch found),fun _ _ _ _ _ _ found => (nomatch found)⟩

end Sessions
