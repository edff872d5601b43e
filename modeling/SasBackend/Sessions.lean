import SasBackend.Semantics.Sessions

/-! What any interleaving keeps of the refresh tokens: a row that a request has consumed stands until the
request ends, and a family has at most one standing token.
-/
namespace Sessions
open SasBackend Transition

variable {settings : Settings} {s : State} {p now : Nat} {tokens : List RefreshToken} {processes : List Process}
  {families : Nat} {process : Process}

theorem others_iff {test : Process → Bool} : s.others p test = true ↔
    ∀ q other, s.processes[q]? = some other → q ≠ p → test other = true := by
  simp only [State.others,List.all_eq_true,Bool.or_eq_true,decide_eq_true_eq,Prod.forall,
    List.mem_zipIdx_iff_getElem?]
  constructor
  · intro every q other found distinct
    exact (every other q found).resolve_left distinct
  · intro every other q found
    by_cases same : q = p
    · exact .inl same
    · exact .inr (every q other found same)

theorem written_familyId {writes : List (Nat × Write)} {jti : Nat} {token : RefreshToken} :
    (written writes jti token).familyId = token.familyId := by
  unfold written
  split <;> rfl

theorem written_root {writes : List (Nat × Write)} {jti : Nat} {token : RefreshToken} :
    (written writes jti token).root = token.root := by
  unfold written
  split <;> rfl

theorem written_free {jti : Nat} {token : RefreshToken} (free : process.holds jti = false) :
    written process.writes jti token = token := by
  have missed : process.writes.find? (·.1 = jti) = none := by
    simpa [Process.holds,List.find?_eq_none] using free
  simp [written,missed]

theorem written_held {jti : Nat} {token : RefreshToken} (held : process.holds jti = true) :
    (written process.writes jti token).standing = false := by
  unfold written
  split
  · rfl
  · simp [RefreshToken.standing]
  · next missed =>
    simp only [List.find?_eq_none,Process.holds,List.any_eq_true] at missed held
    obtain ⟨write,member,same⟩ := held
    exact absurd same (missed write member)

theorem standing_written {jti : Nat} {token : RefreshToken}
    (standing : (written process.writes jti token).standing = true) :
    process.holds jti = false ∧ token.standing = true := by
  cases held : process.holds jti with
  | true => simp [written_held held] at standing
  | false => exact ⟨rfl,by rwa [written_free held] at standing⟩

/-- The table still has the row a request has read, perhaps revoked or deleted since. -/
def Known (tokens : List RefreshToken) (old : Stored) : Prop :=
  ∃ token : RefreshToken, tokens[old.2]? = some token ∧ token.familyId = old.1.familyId ∧ token.root = old.1.root

def Work.Placed (tokens : List RefreshToken) : Work → Prop
  | .consume old | .rotation old _ _ => Known tokens old
  | .revokeFamily (some familyId) _ => ∃ token ∈ tokens, token.familyId = some familyId
  | _ => True

def Work.flushes : Work → Bool
  | .login .. | .change .. | .update _ => true
  | _ => false

def Work.selects : Work → Bool
  | .rotation .. => false
  | _ => true

def Phase.Placed (tokens : List RefreshToken) : Phase → Prop
  | .flushing work => work.flushes = true
  | .bulk work | .locking work _ _ => work.Placed tokens ∧ work.selects = true
  | .committing work => work.Placed tokens
  | .rereading old | .replaying old | .loadingUser old _ | .selectingUser old => Known tokens old
  | _ => True

def Phase.purging : Phase → Bool
  | .locking (.login ..) _ _ | .committing (.login ..) => true
  | _ => false

/-- Phases in which a request has written nothing. -/
def Phase.clean : Phase → Bool
  | .bulk (.revokeFamily ..) | .locking .. | .selectingUser _ | .committing _ => false
  | _ => true

structure Process.Placed (tokens : List RefreshToken) (process : Process) : Prop where
  known : process.phase.Placed tokens
  clean : process.phase.clean = true → process.writes = []
  only : ∀ old since todo, process.phase = .locking (.consume old) since todo →
    ∀ write ∈ process.writes, write.1 = old.2
  revokes : process.phase.purging = false → ∀ write ∈ process.writes, write.2 ≠ .purge
  consumes : ∀ old, process.consumed = some old → process.holds old.2 = true
  pinned : ∀ write ∈ process.writes, ∃ token : RefreshToken, tokens[write.1]? = some token ∧
    token.purged = false ∧ (write.2 ≠ .purge → token.revokedAt = none)

structure Base (tokens : List RefreshToken) (processes : List Process) (families : Nat) : Prop where
  exclusive : ∀ (p q i : Nat) (a b : Process), processes[p]? = some a → processes[q]? = some b →
    a.holds i = true → b.holds i = true → p = q
  userHeld : ∀ (p q : Nat) (a b : Process), processes[p]? = some a → processes[q]? = some b →
    a.holdsUser = true → b.holdsUser = true → p = q
  placed : ∀ process ∈ processes, process.Placed tokens
  families : ∀ token ∈ tokens, ∀ familyId, token.familyId = some familyId → familyId < families
  single : ∀ (i j familyId : Nat) (a b : RefreshToken), tokens[i]? = some a → tokens[j]? = some b →
    a.familyId = some familyId → b.familyId = some familyId → a.standing = true → b.standing = true → i = j

theorem Process.Placed.standing {old : Stored} (placed : process.Placed tokens)
    (consumed : process.consumed = some old) : ∃ token : RefreshToken, tokens[old.2]? = some token ∧
      token.familyId = old.1.familyId ∧ token.root = old.1.root ∧ token.standing = true := by
  have held := placed.consumes old consumed
  have revoking : process.phase.purging = false ∧ Known tokens old := by
    have known := placed.known
    unfold Process.consumed at consumed
    split at consumed
    · next phase =>
      split at consumed
      · cases consumed
        rw [phase] at known ⊢
        exact ⟨rfl,known.1⟩
      · cases consumed
    · next phase =>
      cases consumed
      rw [phase] at known ⊢
      exact ⟨rfl,known⟩
    · next phase =>
      cases consumed
      rw [phase] at known ⊢
      exact ⟨rfl,known⟩
    · cases consumed
  obtain ⟨token,found,family,root⟩ := revoking.2
  simp only [Process.holds,List.any_eq_true,decide_eq_true_eq] at held
  obtain ⟨write,member,same⟩ := held
  obtain ⟨pinned,stored,present,free⟩ := placed.pinned write member
  rw [same] at stored
  obtain rfl := Option.some.inj (found.symm.trans stored)
  exact ⟨token,found,family,root,by simp [RefreshToken.standing,present,free (placed.revokes revoking.1 write member)]⟩

/-- The table after a commit that also inserts rows. -/
def settled (process : Process) (tokens extra : List RefreshToken) : List RefreshToken :=
  tokens.mapIdx (written process.writes) ++ extra

theorem settled_row {extra : List RefreshToken} {i : Nat} {token : RefreshToken} (found : tokens[i]? = some token) :
    (settled process tokens extra)[i]? = some (written process.writes i token) := by
  obtain ⟨bound,rfl⟩ := List.getElem?_eq_some_iff.mp found
  simp [settled,List.getElem?_append_left,bound]

theorem settled_cases {extra : List RefreshToken} {i : Nat} {row : RefreshToken}
    (found : (settled process tokens extra)[i]? = some row) :
    (∃ token, tokens[i]? = some token ∧ row = written process.writes i token) ∨
      extra[i - tokens.length]? = some row ∧ tokens.length ≤ i := by
  by_cases bound : i < tokens.length
  · have stored : (settled process tokens extra)[i]? = some (written process.writes i tokens[i]) :=
      settled_row (List.getElem?_eq_getElem bound)
    exact .inl ⟨tokens[i],List.getElem?_eq_getElem bound,Option.some.inj (found.symm.trans stored)⟩
  · rw [settled,List.getElem?_append_right (by simpa using bound)] at found
    exact .inr ⟨by simpa using found,by omega⟩

theorem Known.settled {old : Stored} {extra : List RefreshToken} (known : Known tokens old) :
    Known (settled process tokens extra) old := by
  obtain ⟨token,found,family,root⟩ := known
  exact ⟨_,settled_row found,written_familyId.trans family,written_root.trans root⟩

theorem Work.Placed.settled {work : Work} {extra : List RefreshToken} (placed : work.Placed tokens) :
    work.Placed (settled process tokens extra) := by
  cases work with
  | consume | rotation => exact Known.settled placed
  | revokeFamily familyId jti =>
    cases familyId with
    | none => trivial
    | some familyId =>
      obtain ⟨token,member,family⟩ := placed
      obtain ⟨i,found⟩ := List.getElem?_of_mem member
      exact ⟨_,List.mem_of_getElem? (settled_row found),written_familyId.trans family⟩
  | _ => trivial

theorem Phase.Placed.settled {phase : Phase} {extra : List RefreshToken} (placed : phase.Placed tokens) :
    phase.Placed (settled process tokens extra) := by
  cases phase with
  | bulk | locking => exact ⟨Work.Placed.settled placed.1,placed.2⟩
  | committing => exact Work.Placed.settled placed
  | flushing => exact placed
  | rereading | replaying | loadingUser | selectingUser => exact Known.settled placed
  | _ => trivial

theorem Process.Placed.settled {other : Process} {extra : List RefreshToken} (placed : other.Placed tokens)
    (apart : ∀ i, other.holds i = true → process.holds i = false) :
    other.Placed (settled process tokens extra) := by
  refine { placed with known := placed.known.settled, pinned := fun write member => ?_ }
  obtain ⟨token,found,rest⟩ := placed.pinned write member
  have free := apart write.1 (List.any_eq_true.mpr ⟨write,member,by simp⟩)
  exact ⟨token,by rw [settled_row found,written_free free],rest⟩

theorem set_cases {after other : Process} {q : Nat} (found : (s.set p after).processes[q]? = some other) :
    q = p ∧ other = after ∨ q ≠ p ∧ s.processes[q]? = some other := by
  by_cases same : q = p
  · subst same
    simp only [State.set,List.getElem?_set,if_true] at found
    split at found
    · exact .inl ⟨rfl,(Option.some.inj found).symm⟩
    · cases found
  · simp only [State.set,List.getElem?_set_ne (Ne.symm same)] at found
    exact .inr ⟨same,found⟩

theorem answered_placed {pair : Option (AccessToken × Nat)} : Process.Placed tokens ⟨.answered pair,[],false⟩ where
  known := trivial
  clean := fun _ => rfl
  only := fun _ _ _ _ _ member => (nomatch member)
  revokes := fun _ _ member => (nomatch member)
  consumes := fun _ consumed => (nomatch consumed)
  pinned := fun _ member => (nomatch member)

/-- A step of `p` that leaves the table as it is. -/
theorem Base.set {after : Process} (base : Base s.tokens s.processes s.families)
    (found : s.processes[p]? = some process) (placed : after.Placed s.tokens)
    (holds : ∀ i, after.holds i = true → process.holds i = true ∨ s.others p (!·.holds i) = true)
    (user : after.holdsUser = true → process.holdsUser = true ∨ s.others p (!·.holdsUser) = true) :
    Base s.tokens (s.set p after).processes s.families := by
  have alone : ∀ q i other, s.processes[q]? = some other → q ≠ p → after.holds i = true → other.holds i = false := by
    intro q i other stored distinct held
    obtain mine | free := holds i held
    · cases theirs : other.holds i with
      | false => rfl
      | true => exact absurd (base.exclusive q p i other process stored found theirs mine) distinct
    · simpa using others_iff.mp free q other stored distinct
  have aloneUser : ∀ q other, s.processes[q]? = some other → q ≠ p → after.holdsUser = true → other.holdsUser = false := by
    intro q other stored distinct held
    obtain mine | free := user held
    · cases theirs : other.holdsUser with
      | false => rfl
      | true => exact absurd (base.userHeld q p other process stored found theirs mine) distinct
    · simpa using others_iff.mp free q other stored distinct
  refine ⟨?_,?_,?_,base.families,base.single⟩
  · intro q r i a b first second held held'
    obtain ⟨rfl,rfl⟩ | ⟨distinct,stored⟩ := set_cases first <;>
      obtain ⟨rfl,rfl⟩ | ⟨distinct',stored'⟩ := set_cases second
    · rfl
    · simp [alone r i b stored' distinct' held] at held'
    · simp [alone q i a stored distinct held'] at held
    · exact base.exclusive q r i a b stored stored' held held'
  · intro q r a b first second held held'
    obtain ⟨rfl,rfl⟩ | ⟨distinct,stored⟩ := set_cases first <;>
      obtain ⟨rfl,rfl⟩ | ⟨distinct',stored'⟩ := set_cases second
    · rfl
    · simp [aloneUser r b stored' distinct' held] at held'
    · simp [aloneUser q a stored distinct held'] at held
    · exact base.userHeld q r a b stored stored' held held'
  · intro other member
    obtain before | rfl := List.mem_or_eq_of_mem_set member
    · exact base.placed other before
    · exact placed

theorem Base.goto {phase : Phase} (base : Base s.tokens s.processes s.families)
    (found : s.processes[p]? = some process) (placed : Process.Placed s.tokens { process with phase := phase }) :
    Base s.tokens (s.set p { process with phase := phase }).processes s.families :=
  base.set found placed (fun _ held => .inl held) fun held => .inl held

theorem Base.release {pair : Option (AccessToken × Nat)} (base : Base s.tokens s.processes s.families) :
    Base s.tokens (s.release p pair).processes s.families := by
  cases found : s.processes[p]? with
  | none =>
    have bound : s.processes.length ≤ p := by simpa using found
    simpa [State.release,State.set,List.set_eq_of_length_le bound] using base
  | some process => exact base.set found answered_placed (fun _ held => (nomatch held)) fun held => (nomatch held)

/-- A commit of `p` that inserts at most one row, into a family whose standing rows it revokes. -/
theorem Base.settle {pair : Option (AccessToken × Nat)} {extra : List RefreshToken} {families : Nat}
    (base : Base s.tokens s.processes s.families) (found : s.processes[p]? = some process)
    (short : extra.length ≤ 1) (more : s.families ≤ families)
    (inside : ∀ token ∈ extra, ∀ familyId, token.familyId = some familyId → familyId < families)
    (alone : ∀ token ∈ extra, ∀ familyId, token.familyId = some familyId → ∀ (i : Nat) (row : RefreshToken),
      s.tokens[i]? = some row → row.familyId = some familyId → row.standing = true → process.holds i = true) :
    Base (settled process s.tokens extra) (s.release p pair).processes families := by
  have released : Base s.tokens (s.release p pair).processes s.families := base.release
  refine ⟨released.exclusive,released.userHeld,?_,?_,?_⟩
  · intro other member
    obtain ⟨q,stored⟩ := List.getElem?_of_mem member
    obtain ⟨rfl,rfl⟩ | ⟨distinct,stored⟩ := set_cases stored
    · exact answered_placed
    · apply (base.placed other (List.mem_of_getElem? stored)).settled
      intro i theirs
      cases mine : process.holds i with
      | false => rfl
      | true => exact absurd (base.exclusive q p i other process stored found theirs mine) distinct
  · intro token member familyId family
    obtain ⟨i,stored⟩ := List.getElem?_of_mem member
    obtain ⟨row,before,rfl⟩ | ⟨new,-⟩ := settled_cases stored
    · exact (base.families row (List.mem_of_getElem? before) familyId (written_familyId.symm.trans family)).trans_le more
    · exact inside token (List.mem_of_getElem? new) familyId family
  · intro i j familyId a b first second familyA familyB standingA standingB
    obtain ⟨row,before,rfl⟩ | ⟨new,far⟩ := settled_cases first <;>
      obtain ⟨row',before',rfl⟩ | ⟨new',far'⟩ := settled_cases second
    · exact base.single i j familyId row row' before before' (written_familyId.symm.trans familyA)
        (written_familyId.symm.trans familyB) (standing_written standingA).2 (standing_written standingB).2
    · have held := alone b (List.mem_of_getElem? new') familyId familyB i row before
        (written_familyId.symm.trans familyA) (standing_written standingA).2
      simp [(standing_written standingA).1] at held
    · have held := alone a (List.mem_of_getElem? new) familyId familyA j row' before'
        (written_familyId.symm.trans familyB) (standing_written standingB).2
      simp [(standing_written standingB).1] at held
    · have first := (List.getElem?_eq_some_iff.mp new).1
      have second := (List.getElem?_eq_some_iff.mp new').1
      omega

/-- Phases in which a request has consumed nothing and deletes nothing. -/
def Phase.resting : Phase → Bool
  | .locking .. | .selectingUser _ | .committing _ => false
  | _ => true

theorem consumed_resting (resting : process.phase.resting = true) : process.consumed = none := by
  unfold Process.consumed
  split
  · next phase => simp [phase,Phase.resting] at resting
  · next phase => simp [phase,Phase.resting] at resting
  · next phase => simp [phase,Phase.resting] at resting
  · rfl

theorem Process.Placed.goto (placed : process.Placed tokens) (phase : Phase)
    (quiet : process.phase.purging = false ∨ phase.purging = true) (known : phase.Placed tokens)
    (clean : phase.clean = true → process.writes = [])
    (only : ∀ old since todo, phase = .locking (.consume old) since todo →
      ∀ write ∈ process.writes, write.1 = old.2)
    (consumes : ∀ old, Process.consumed { process with phase := phase } = some old → process.holds old.2 = true) :
    Process.Placed tokens { process with phase := phase } where
  known := known
  clean := clean
  only := only
  revokes := fun ends => placed.revokes (quiet.resolve_right (by simp [ends]))
  consumes := consumes
  pinned := placed.pinned

theorem Process.Placed.rest {phase : Phase} (placed : process.Placed tokens) (quiet : process.phase.purging = false)
    (known : phase.Placed tokens) (resting : phase.resting = true)
    (clean : phase.clean = true → process.writes = []) : Process.Placed tokens { process with phase := phase } := by
  refine placed.goto phase (.inl quiet) known clean (fun old since todo same => ?_) fun old consumed => ?_
  · rw [same] at resting
    cases resting
  · have nothing : Process.consumed { process with phase := phase } = none := consumed_resting resting
    rw [nothing] at consumed
    cases consumed

theorem row_known {jti : Nat} {stored : RefreshToken} (found : s.row jti = some stored) :
    Known s.tokens (stored,jti) ∧ s.tokens[jti]? = some stored ∧ stored.purged = false := by
  obtain ⟨row,present⟩ := Option.filter_eq_some_iff.mp found
  exact ⟨⟨stored,row,rfl,rfl⟩,row,by simpa using present⟩

theorem rejecting_placed {old : Stored} (known : Known tokens old) : (rejecting old).Placed tokens := by
  obtain ⟨token,found,family,-⟩ := known
  refine ⟨?_,rfl⟩
  unfold Work.Placed
  cases same : old.1.familyId with
  | none => trivial
  | some familyId => exact ⟨token,List.mem_of_getElem? found,family.trans same⟩

theorem start_placed {request : Request} :
    (start settings s now request).Placed s.tokens ∧ (start settings s now request).resting = true := by
  cases request with
  | loginWithPassword | loginWithPin =>
    unfold start startLogin
    dsimp only
    split
    · split
      · exact ⟨trivial,rfl⟩
      · split
        · exact ⟨rfl,rfl⟩
        · exact ⟨trivial,rfl⟩
    · exact ⟨trivial,rfl⟩
  | refreshTokens jti =>
    unfold start startRefresh
    dsimp only
    split
    · exact ⟨trivial,rfl⟩
    · next stored found =>
      have known := (row_known found).1
      split
      · split
        · exact ⟨known,rfl⟩
        · exact ⟨rejecting_placed known,rfl⟩
      · split
        · exact ⟨trivial,rfl⟩
        · exact ⟨⟨known,rfl⟩,rfl⟩
  | logout jti =>
    unfold start
    dsimp only
    split
    · exact ⟨trivial,rfl⟩
    · next found => exact ⟨rejecting_placed (row_known found).1,rfl⟩
  | updateTenantUser isActive =>
    unfold start startUpdate
    dsimp only
    split
    · exact ⟨trivial,rfl⟩
    · split
      · exact ⟨rfl,rfl⟩
      · exact ⟨rfl,rfl⟩
      · split <;> exact ⟨rfl,rfl⟩
  | _ =>
    unfold start
    dsimp only
    split
    · exact ⟨trivial,rfl⟩
    · exact ⟨rfl,rfl⟩

theorem holds_append {jti i : Nat} {write : Write} {phase : Phase} :
    Process.holds { process with phase := phase, writes := process.writes ++ [(jti,write)] } i = true ↔
      process.holds i = true ∨ i = jti := by
  simp only [Process.holds,List.any_append,List.any_cons,List.any_nil,Bool.or_false,Bool.or_eq_true,decide_eq_true_eq]
  exact or_congr_right eq_comm

theorem concerns_pinned {work : Work} {jti since : Nat} {token : RefreshToken}
    (concerns : work.concerns settings since (token,jti) = true) :
    token.purged = false ∧ (work.write since ≠ .purge → token.revokedAt = none) := by
  unfold Work.concerns at concerns
  cases work <;> simp_all [Work.write]

theorem Base.lock {work : Work} {since jti : Nat} {todo : List Nat} (base : Base s.tokens s.processes s.families)
    (found : s.processes[p]? = some process) (phase : process.phase = .locking work since (jti :: todo))
    (free : s.others p (!·.holds jti) = true)
    (concerns : (s.tokens[jti]?.any fun token => work.concerns settings since (token,jti)) = true) :
    Base s.tokens (s.set p { process with
      phase := .locking work since todo, writes := process.writes ++ [(jti,work.write since)] }).processes
      s.families := by
  have placed := base.placed process (List.mem_of_getElem? found)
  obtain ⟨token,stored,wanted⟩ := (Option.any_eq_true _ _).mp concerns
  obtain ⟨present,standing⟩ := concerns_pinned wanted
  have known := placed.known
  rw [phase] at known
  refine base.set found ⟨known,fun quiet => (nomatch quiet),?_,?_,?_,?_⟩ ?_ fun held => .inl held
  · intro old started rest same write member
    cases same
    obtain before | new := List.mem_append.mp member
    · exact placed.only old since _ phase write before
    · rw [List.mem_singleton.mp new]
      simp only [Work.concerns,Bool.and_eq_true,decide_eq_true_eq] at wanted
      exact wanted.2.1
  · intro quiet write member
    obtain before | new := List.mem_append.mp member
    · refine placed.revokes ?_ write before
      rw [phase]
      cases work with
      | login => cases quiet
      | _ => rfl
    · rw [List.mem_singleton.mp new]
      cases work with
      | login => cases quiet
      | _ => exact fun same => (nomatch same)
  · intro old consumed
    cases work with
    | consume inner =>
      simp only [Process.consumed] at consumed
      split at consumed
      · next held =>
        cases consumed
        exact held
      · cases consumed
    | _ => cases consumed
  · intro write member
    obtain before | new := List.mem_append.mp member
    · exact placed.pinned write before
    · rw [List.mem_singleton.mp new]
      exact ⟨token,stored,present,standing⟩
  · intro i held
    obtain mine | rfl := holds_append.mp held
    · exact .inl mine
    · exact .inr free

theorem Base.fresh {familyId : Nat} (base : Base tokens processes families) (new : families ≤ familyId) {i : Nat}
    {row : RefreshToken} (stored : tokens[i]? = some row) : row.familyId ≠ some familyId := by
  intro family
  have bound := base.families row (List.mem_of_getElem? stored) familyId family
  omega

theorem Base.commitLogin {pair : Option (AccessToken × Nat)} {root : Nat} (base : Base s.tokens s.processes s.families)
    (found : s.processes[p]? = some process) :
    Base (settled process s.tokens [newToken settings s.families now root]) (s.release p pair).processes
      (s.families + 1) := by
  apply base.settle found le_rfl (Nat.le_succ _)
  · intro token member familyId family
    rw [List.mem_singleton.mp member] at family
    cases family
    exact Nat.lt_succ_self _
  · intro token member familyId family i row stored same
    rw [List.mem_singleton.mp member] at family
    cases family
    exact absurd same (base.fresh le_rfl stored)

theorem Base.commitRotation {pair : Option (AccessToken × Nat)} {old : Stored} {issuedAt root : Nat}
    (base : Base s.tokens s.processes s.families) (found : s.processes[p]? = some process)
    (consumed : process.consumed = some old) :
    Base (settled process s.tokens [newToken settings (old.1.familyId.getD s.families) issuedAt root])
      (s.release p pair).processes (s.families + 1) := by
  have placed := base.placed process (List.mem_of_getElem? found)
  obtain ⟨token,stored,own,-,standing⟩ := placed.standing consumed
  apply base.settle found le_rfl (Nat.le_succ _)
  · intro new member familyId family
    rw [List.mem_singleton.mp member] at family
    cases family
    cases same : old.1.familyId with
    | none => exact Nat.lt_succ_self _
    | some known =>
      exact Nat.lt_succ_of_lt (base.families token (List.mem_of_getElem? stored) known (own.trans same))
  · intro new member familyId family i row found same live
    rw [List.mem_singleton.mp member] at family
    cases family
    cases known : old.1.familyId with
    | none =>
      rw [known] at same
      exact absurd same (base.fresh le_rfl found)
    | some familyId =>
      rw [known] at same own
      obtain rfl := base.single i old.2 familyId row token found stored same own live standing
      exact placed.consumes old consumed

theorem Base.revoked {pair : Option (AccessToken × Nat)} (base : Base s.tokens s.processes s.families)
    (found : s.processes[p]? = some process) :
    Base (s.tokens.mapIdx (written process.writes)) (s.release p pair).processes s.families := by
  have settles : Base (settled process s.tokens []) (s.release p pair).processes s.families :=
    base.settle found (by simp) le_rfl (by simp) (by simp)
  simpa [settled] using settles

theorem Base.commit {work : Work} {u : State} (base : Base s.tokens s.processes s.families)
    (found : s.processes[p]? = some process) (phase : process.phase = .committing work)
    (moved : commit settings s p now process work = some u) : Base u.tokens u.processes u.families := by
  cases work with
  | consume => cases moved
  | rotation old user issuedAt =>
    cases moved
    exact base.commitRotation found (by simp [Process.consumed,phase])
  | revokeFamily | change =>
    cases moved
    exact base.revoked found
  | login =>
    cases moved
    exact base.commitLogin found
  | update =>
    cases moved
    exact base.release

/-- Everything a step of `process` can do. -/
inductive Moves (settings : Settings) (s : State) (p now : Nat) (process : Process) : State → Prop
  | start {request : Request} (phase : process.phase = .starting request) :
    Moves settings s p now process (s.set p { process with phase := start settings s now request })
  | fail (phase : process.phase = .failing) :
    Moves settings s p now process ({ s with user := recordFailedLogin settings s.user now }.release p none)
  | flush {work : Work} (phase : process.phase = .flushing work) (free : s.others p (!·.holdsUser) = true) :
    Moves settings s p now process (s.set p { process with phase := flushed work, holdsUser := true })
  | select {work : Work} (phase : process.phase = .bulk work) :
    Moves settings s p now process
      (s.set p { process with phase := .locking work now (targets settings now s process work) })
  | lock {work : Work} {since jti : Nat} {todo : List Nat} (phase : process.phase = .locking work since (jti :: todo))
    (free : s.others p (!·.holds jti) = true)
    (concerns : (s.tokens[jti]?.any fun token => work.concerns settings since (token,jti)) = true) :
    Moves settings s p now process (s.set p { process with
      phase := .locking work since todo, writes := process.writes ++ [(jti,work.write since)] })
  | skip {work : Work} {since jti : Nat} {todo : List Nat} (phase : process.phase = .locking work since (jti :: todo))
    (gone : ¬(s.tokens[jti]?.any fun token => work.concerns settings since (token,jti)) = true) :
    Moves settings s p now process (s.set p { process with phase := .locking work since todo })
  | consumed {old : Stored} {since : Nat} (phase : process.phase = .locking (.consume old) since [])
    (held : process.holds old.2 = true) :
    Moves settings s p now process (s.set p { process with phase := .selectingUser old })
  | lost {old : Stored} {since : Nat} (phase : process.phase = .locking (.consume old) since [])
    (free : ¬process.holds old.2 = true) :
    Moves settings s p now process (s.set p { process with phase := .rereading old })
  | done {work : Work} {since : Nat} (phase : process.phase = .locking work since [])
    (other : ∀ old, work ≠ .consume old) :
    Moves settings s p now process (s.set p { process with phase := .committing work })
  | reread {old : Stored} {fresh : RefreshToken} (phase : process.phase = .rereading old)
    (found : s.row old.2 = some fresh) :
    Moves settings s p now process (s.set p { process with phase := .replaying (fresh,old.2) })
  | load {old successor : Stored} (phase : process.phase = .replaying old)
    (found : getFamilySuccessor s old = some successor) (rotation : isRotationOf settings now old.1 successor.1 = true) :
    Moves settings s p now process (s.set p { process with phase := .loadingUser old successor })
  | reject {old : Stored} (origin : process.phase = .rereading old ∨ process.phase = .replaying old ∨
      (∃ successor, process.phase = .loadingUser old successor) ∨ process.phase = .selectingUser old) :
    Moves settings s p now process (s.set p { process with phase := rejecting old })
  | replay {old successor : Stored} (phase : process.phase = .loadingUser old successor) :
    Moves settings s p now process (s.issue p successor.2 s.user.tokenVersion old.1.root)
  | rotate {old : Stored} (phase : process.phase = .selectingUser old) :
    Moves settings s p now process (s.set p { process with phase := .committing (.rotation old s.user now) })
  | commit {work : Work} {u : State} (phase : process.phase = .committing work)
    (committed : commit settings s p now process work = some u) : Moves settings s p now process u

theorem advance_moves {u : State} (moved : advance settings s p now process = some u) :
    Moves settings s p now process u := by
  unfold advance at moved
  dsimp only at moved
  split at moved
  · next phase =>
    cases moved
    exact .start phase
  · next phase =>
    split at moved <;> cases moved
    exact .fail phase
  · next phase =>
    split at moved
    · next free =>
      cases moved
      exact .flush phase free
    · cases moved
  · next phase =>
    cases moved
    exact .select phase
  · next phase =>
    split at moved
    · next free =>
      split at moved
      · next concerns =>
        cases moved
        exact .lock phase free concerns
      · next gone =>
        cases moved
        exact .skip phase gone
    · cases moved
  · next phase =>
    cases moved
    split
    · next held => exact .consumed phase held
    · next free => exact .lost phase free
  · next other phase =>
    cases moved
    exact .done phase fun old same => other old same
  · next phase =>
    cases moved
    split
    · next found =>
      split
      · exact .reread phase found
      · exact .reject (.inl phase)
    · exact .reject (.inl phase)
  · next phase =>
    cases moved
    split
    · next found =>
      split
      · next rotation => exact .load phase found rotation
      · exact .reject (.inr (.inl phase))
    · exact .reject (.inr (.inl phase))
  · next phase =>
    split at moved <;> cases moved
    · exact .replay phase
    · exact .reject (.inr (.inr (.inl ⟨_,phase⟩)))
  · next phase =>
    cases moved
    split
    · exact .rotate phase
    · exact .reject (.inr (.inr (.inr phase)))
  · next phase => exact .commit phase moved
  · cases moved

theorem reject_origin {old : Stored} (origin : process.phase = .rereading old ∨ process.phase = .replaying old ∨
      (∃ successor, process.phase = .loadingUser old successor) ∨ process.phase = .selectingUser old) :
    process.phase.purging = false ∧ (process.phase.Placed tokens → Known tokens old) := by
  obtain phase | phase | ⟨_,phase⟩ | phase := origin <;> rw [phase] <;> exact ⟨rfl,id⟩

theorem holds_consumed {old inner : Stored} {since : Nat} {todo : List Nat}
    (consumed : Process.consumed { process with phase := .locking (.consume inner) since todo } = some old) :
    process.holds old.2 = true := by
  simp only [Process.consumed] at consumed
  split at consumed
  · next held =>
    cases consumed
    exact held
  · cases consumed

theorem Base.advance {u : State} (base : Base s.tokens s.processes s.families)
    (found : s.processes[p]? = some process) (moved : advance settings s p now process = some u) :
    Base u.tokens u.processes u.families := by
  have placed := base.placed process (List.mem_of_getElem? found)
  have known := placed.known
  cases advance_moves moved with
  | start phase =>
    obtain ⟨entered,resting⟩ := start_placed (s := s)
    exact base.goto found (placed.rest (by rw [phase]; rfl) entered resting fun _ => placed.clean (by rw [phase]; rfl))
  | fail | replay => exact base.release
  | flush phase free =>
    rename_i work
    rw [phase] at known
    have quiet : process.phase.purging = false := by rw [phase]; rfl
    have empty : process.writes = [] := placed.clean (by rw [phase]; rfl)
    refine base.set found ?_ (fun _ held => .inl held) fun _ => .inr free
    cases work with
    | login | change =>
      exact ⟨⟨trivial,rfl⟩,fun _ => empty,fun _ _ _ same => (nomatch same),fun _ => placed.revokes quiet,
        fun _ consumed => (nomatch consumed),placed.pinned⟩
    | update =>
      exact ⟨trivial,fun _ => empty,fun _ _ _ same => (nomatch same),fun _ => placed.revokes quiet,
        fun _ consumed => (nomatch consumed),placed.pinned⟩
    | _ => cases known
  | select phase =>
    rename_i work
    rw [phase] at known
    apply base.goto found (placed.goto (.locking work now _) (.inl (by rw [phase]; rfl)) known
      (fun clean => (nomatch clean)) ?_ ?_)
    · intro old since todo same
      cases same
      simp [placed.clean (by rw [phase]; rfl)]
    · intro old consumed
      cases work with
      | consume inner => exact holds_consumed consumed
      | _ => cases consumed
  | lock phase free concerns => exact base.lock found phase free concerns
  | skip phase gone =>
    rename_i work since jti todo
    rw [phase] at known
    refine base.goto found (placed.goto (.locking work since todo) ?_ known (fun clean => (nomatch clean)) ?_ ?_)
    · rw [phase]
      cases work <;> first | exact .inl rfl | exact .inr rfl
    · intro old started rest same
      cases same
      exact placed.only old since _ phase
    · intro old consumed
      cases work with
      | consume inner => exact holds_consumed consumed
      | _ => cases consumed
  | consumed phase held =>
    rename_i old since
    rw [phase] at known
    apply base.goto found (placed.goto (.selectingUser old) (.inl (by rw [phase]; rfl)) known.1
      (fun clean => (nomatch clean)) (fun _ _ _ same => (nomatch same)) ?_)
    intro other consumed
    cases consumed
    exact held
  | lost phase free =>
    rename_i old since
    rw [phase] at known
    refine base.goto found (placed.rest (by rw [phase]; rfl) known.1 rfl fun _ => ?_)
    apply List.eq_nil_iff_forall_not_mem.mpr
    intro write member
    exact free (List.any_eq_true.mpr ⟨write,member,by simpa using placed.only old since [] phase write member⟩)
  | done phase other =>
    rename_i work since
    rw [phase] at known
    apply base.goto found (placed.goto (.committing work) ?_ known.1 (fun clean => (nomatch clean))
      (fun _ _ _ same => (nomatch same)) ?_)
    · rw [phase]
      cases work <;> first | exact .inl rfl | exact .inr rfl
    · intro old consumed
      cases work with
      | rotation => cases known.2
      | _ => cases consumed
  | reread phase stored =>
    exact base.goto found (placed.rest (by rw [phase]; rfl) (row_known stored).1 rfl fun _ =>
      placed.clean (by rw [phase]; rfl))
  | load phase =>
    rw [phase] at known
    exact base.goto found (placed.rest (by rw [phase]; rfl) known rfl fun _ => placed.clean (by rw [phase]; rfl))
  | reject origin =>
    obtain ⟨quiet,rejected⟩ := reject_origin origin
    exact base.goto found (placed.rest quiet (rejecting_placed (rejected known)) rfl fun clean => (nomatch clean))
  | rotate phase =>
    rename_i old
    rw [phase] at known
    apply base.goto found (placed.goto (.committing (.rotation old s.user now)) (.inl (by rw [phase]; rfl)) known
      (fun clean => (nomatch clean)) (fun _ _ _ same => (nomatch same)) ?_)
    intro other consumed
    cases consumed
    exact placed.consumes old (by simp [Process.consumed,phase])
  | commit phase committed => exact base.commit found phase committed

theorem begin_cases {request : Request} {q : Nat} {other : Process}
    (found : (s.processes ++ [⟨.starting request,[],false⟩])[q]? = some other) :
    s.processes[q]? = some other ∨ other = ⟨.starting request,[],false⟩ := by
  by_cases bound : q < s.processes.length
  · exact .inl (by rwa [List.getElem?_append_left bound] at found)
  · rw [List.getElem?_append_right (by omega)] at found
    exact .inr (List.mem_singleton.mp (List.mem_of_getElem? found))

theorem Base.next {action : Action} {u : State} (base : Base s.tokens s.processes s.families)
    (moved : next settings s action = some u) : Base u.tokens u.processes u.families := by
  cases action with
  | begin request =>
    cases moved
    refine ⟨fun q r i a b first second held held' => ?_,fun q r a b first second held held' => ?_,
      fun other member => ?_,base.families,base.single⟩
    · obtain first | rfl := begin_cases first
      · obtain second | rfl := begin_cases second
        · exact base.exclusive q r i a b first second held held'
        · cases held'
      · cases held
    · obtain first | rfl := begin_cases first
      · obtain second | rfl := begin_cases second
        · exact base.userHeld q r a b first second held held'
        · cases held'
      · cases held
    · obtain before | new := List.mem_append.mp member
      · exact base.placed other before
      · rw [List.mem_singleton.mp new]
        exact ⟨trivial,fun _ => rfl,fun _ _ _ same => (nomatch same),fun _ _ member => (nomatch member),
          fun _ consumed => (nomatch consumed),fun _ member => (nomatch member)⟩
  | advance p now =>
    obtain ⟨process,found,moved⟩ := Option.bind_eq_some_iff.mp moved
    exact base.advance found moved
  | abort p =>
    cases moved
    exact base.release

theorem Base.initial (start : Initial s) : Base s.tokens s.processes s.families := by
  have legacy : ∀ (i familyId : Nat) (token : RefreshToken), s.tokens[i]? = some token →
      token.familyId ≠ some familyId := by
    intro i familyId token stored family
    rw [(start.legacy token (List.mem_of_getElem? stored)).1] at family
    cases family
  rw [start.idle]
  refine ⟨fun _ _ _ _ _ found => (nomatch found),fun _ _ _ _ found => (nomatch found),
    fun _ member => (nomatch member),fun token member familyId family => ?_,
    fun i _ familyId a _ first _ family => absurd family (legacy i familyId a first)⟩
  obtain ⟨i,stored⟩ := List.getElem?_of_mem member
  exact absurd family (legacy i familyId token stored)

theorem Base.singleLive (base : Base s.tokens s.processes s.families) : SingleLive s := by
  intro now familyId i j a b first second familyA familyB liveA liveB
  simp only [RefreshToken.live,Bool.and_eq_true] at liveA liveB
  exact base.single i j familyId a b first second familyA familyB liveA.1 liveB.1

theorem single_live (reached : Reachable Initial (OfNext (next settings)) s) : SingleLive s := by
  have base : Base s.tokens s.processes s.families :=
    reached.invariant (fun _ => Base.initial) fun _ _ _ base moved => Base.next base moved
  exact base.singleLive

end Sessions
