import SasBackend.RefreshFamily

/-! A committed credential change cuts off whatever was verified before it, as long as it keeps apart from the
logins, rotations and replays in flight and from the other changes.
A login writes the user's row after it has read it, and nothing tells it that the row has changed; a change
writes the version it read plus one.
-/
namespace Sessions
open SasBackend Transition

variable {settings : Settings} {s u : State} {p now base : Nat} {process : Process}

/-- A change is after every row of its user. -/
def changeScope : Work → Option Nat → Prop
  | .change .., _ => True
  | _, _ => False

theorem changeScope_cases {work : Work} {familyId : Option Nat} (inside : changeScope work familyId) :
    ∃ user patch, work = .change user patch := by
  unfold changeScope at inside
  split at inside
  · exact ⟨_,_,rfl⟩
  · cases inside

theorem changeScope_concerned {work : Work} {since i : Nat} {token : RefreshToken}
    (inside : changeScope work token.familyId) (standing : token.standing = true) :
    work.concerns settings since (token,i) = true := by
  obtain ⟨user,patch,rfl⟩ := changeScope_cases inside
  simp only [RefreshToken.standing,Bool.and_eq_true,Bool.not_eq_true'] at standing
  simp [Work.concerns,standing]

/-- What a work has read of the user is still current, where that matters. -/
def Work.Timed (changes version : Nat) : Work → Prop
  | .login user root => root = changes ∧ user.tokenVersion = version
  | .rotation _ user _ => user.tokenVersion = version
  | .change user patch => patch.tokenVersion = some (user.tokenVersion + 1)
  | .update patch => patch.tokenVersion = none
  | _ => True

def Process.Timed (changes version : Nat) (process : Process) : Prop :=
  match process.phase with
  | .flushing work => work.Timed changes version
  | .bulk work | .locking work _ _ | .committing work =>
    work.Timed changes version ∧ (work.flushes = true → process.holdsUser = true)
  | .loadingUser old _ => old.1.root = changes
  | _ => True

structure Cut (base : Nat) (s : State) : Prop where
  sweep : Sweep changeScope s.tokens s.processes
  version : s.user.tokenVersion = base + s.changes
  issued : ∀ a ∈ s.issued, a.tv = base + a.root ∧ a.root = a.issued
  roots : ∀ a ∈ s.tokens, ∀ b ∈ s.tokens, ∀ familyId, a.familyId = some familyId → b.familyId = some familyId →
    a.root = b.root
  refresh : ∀ token ∈ s.tokens, token.standing = true → token.root = s.changes
  timed : ∀ process ∈ s.processes, process.Timed s.changes s.user.tokenVersion

theorem Cut.cutOff (cut : Cut base s) : CutOff settings s where
  access a member accepted := by
    obtain ⟨tv,root⟩ := cut.issued a member
    have current : a.tv = s.user.tokenVersion := by
      simp only [getCurrentUser,Bool.and_eq_true,decide_eq_true_eq] at accepted
      exact accepted.2
    have version := cut.version
    omega
  refresh := cut.refresh
  accepted a member := (cut.issued a member).2

theorem Cut.set {after : Process} (cut : Cut base s) (sweep : Sweep changeScope s.tokens (s.set p after).processes)
    (timed : after.Timed s.changes s.user.tokenVersion) : Cut base (s.set p after) := by
  refine { cut with sweep := sweep, timed := fun other member => ?_ }
  obtain before | rfl := List.mem_or_eq_of_mem_set member
  · exact cut.timed other before
  · exact timed

theorem Cut.release {pair : Option (AccessToken × Nat)} (cut : Cut base s) : Cut base (s.release p pair) :=
  cut.set cut.sweep.release trivial

theorem Cut.user {user : User} (cut : Cut base s) (same : user.tokenVersion = s.user.tokenVersion) :
    Cut base { s with user := user } := by
  refine { cut with version := same.trans cut.version, timed := fun other member => ?_ }
  show other.Timed s.changes user.tokenVersion
  rw [same]
  exact cut.timed other member

theorem Cut.issue {jti root : Nat} (cut : Cut base s) (current : root = s.changes) :
    Cut base (s.issue p jti s.user.tokenVersion root) := by
  have handed : Cut base { s with issued := s.issued ++ [⟨s.user.tokenVersion,root,s.changes⟩] } := by
    refine { cut with issued := fun a member => ?_ }
    obtain before | new := List.mem_append.mp member
    · exact cut.issued a before
    · rw [List.mem_singleton.mp new]
      exact ⟨current ▸ cut.version,current⟩
  exact handed.release

theorem recordFailedLogin_version {user : User} :
    (recordFailedLogin settings user now).tokenVersion = user.tokenVersion := by
  unfold recordFailedLogin
  dsimp only
  split <;> split <;> rfl

theorem apply_version {patch : Patch} {user : User} (keeps : patch.tokenVersion = none) :
    (patch.apply user).tokenVersion = user.tokenVersion := by
  simp [Patch.apply,keeps]

theorem changePatch_version {user : User} {request : Request} {patch : Patch}
    (made : changePatch settings user request = some patch) : patch.tokenVersion = some (user.tokenVersion + 1) := by
  unfold changePatch at made
  split at made
  · split at made
    · cases made
    · split at made <;> cases made
      rfl
  · split at made <;> cases made
    rfl
  · split at made <;> cases made
    rfl
  · split at made <;> cases made
    rfl
  · cases made

theorem start_timed {request : Request} :
    Process.Timed s.changes s.user.tokenVersion { process with phase := start settings s now request } := by
  cases request with
  | loginWithPassword | loginWithPin =>
    unfold start startLogin
    dsimp only
    split
    · split
      · trivial
      · split
        · exact ⟨rfl,rfl⟩
        · trivial
    · trivial
  | refreshTokens jti =>
    unfold start startRefresh
    dsimp only
    split
    · trivial
    · split
      · split
        · trivial
        · exact ⟨trivial,fun flushes => (nomatch flushes)⟩
      · split
        · trivial
        · exact ⟨trivial,fun flushes => (nomatch flushes)⟩
  | logout jti =>
    unfold start
    dsimp only
    split
    · trivial
    · exact ⟨trivial,fun flushes => (nomatch flushes)⟩
  | updateTenantUser isActive =>
    unfold start startUpdate
    dsimp only
    split
    · trivial
    · split
      · rfl
      · rfl
      · split <;> rfl
  | _ =>
    unfold start
    dsimp only
    split
    · trivial
    · next made => exact changePatch_version made

/-- A login or a rotation hands out a pair and inserts its refresh token. -/
theorem Cut.insert {pair : Option (AccessToken × Nat)} {token : RefreshToken} (cut : Cut base s)
    (sweep : Sweep changeScope (settled process s.tokens [token]) (s.release p pair).processes)
    (current : token.root = s.changes) (joins : ∀ familyId, token.familyId = some familyId → ∀ row ∈ s.tokens,
      row.familyId = some familyId → row.root = token.root)
    (tokens : u.tokens = settled process s.tokens [token])
    (processes : u.processes = (s.release p pair).processes)
    (version : u.user.tokenVersion = s.user.tokenVersion) (changes : u.changes = s.changes)
    (issued : u.issued = s.issued ++ [⟨s.user.tokenVersion,token.root,s.changes⟩]) : Cut base u := by
  have rows : ∀ row ∈ u.tokens, row = token ∨ ∃ before ∈ s.tokens, row.familyId = before.familyId ∧
      row.root = before.root ∧ (row.standing = true → before.standing = true) := by
    intro row member
    rw [tokens] at member
    obtain ⟨i,stored⟩ := List.getElem?_of_mem member
    obtain ⟨before,earlier,rfl⟩ | ⟨new,-⟩ := settled_cases stored
    · exact .inr ⟨before,List.mem_of_getElem? earlier,written_familyId,written_root,
        fun standing => (standing_written standing).2⟩
    · exact .inl (List.mem_singleton.mp (List.mem_of_getElem? new))
  refine ⟨?_,?_,?_,?_,?_,?_⟩
  · rw [tokens,processes]
    exact sweep
  · rw [version,changes]
    exact cut.version
  · intro a member
    rw [issued] at member
    obtain before | new := List.mem_append.mp member
    · exact cut.issued a before
    · rw [List.mem_singleton.mp new]
      exact ⟨by simpa [current] using cut.version,current⟩
  · intro a first b second familyId familyA familyB
    obtain rfl | ⟨row,member,family,root,-⟩ := rows a first <;>
      obtain rfl | ⟨row',member',family',root',-⟩ := rows b second
    · rfl
    · rw [root']
      exact (joins familyId familyA row' member' (family'.symm.trans familyB)).symm
    · rw [root]
      exact joins familyId familyB row member (family.symm.trans familyA)
    · rw [root,root']
      exact cut.roots row member row' member' familyId (family.symm.trans familyA) (family'.symm.trans familyB)
  · intro row member standing
    rw [changes]
    obtain rfl | ⟨before,earlier,-,root,stood⟩ := rows row member
    · exact current
    · exact root.trans (cut.refresh before earlier (stood standing))
  · rw [processes,version,changes]
    have released : Cut base (s.release p pair) := cut.release
    exact released.timed

theorem Cut.revoked {pair : Option (AccessToken × Nat)} (cut : Cut base s)
    (tables : Base s.tokens s.processes s.families) (found : s.processes[p]? = some process) (ended : List Nat) :
    Cut base ({ s with tokens := s.tokens.mapIdx (written process.writes), ended := ended }.release p pair) := by
  have rows : ∀ row ∈ s.tokens.mapIdx (written process.writes), ∃ before ∈ s.tokens, row.familyId = before.familyId ∧
      row.root = before.root ∧ (row.standing = true → before.standing = true) := by
    intro row member
    obtain ⟨i,bound,rfl⟩ := List.mem_mapIdx.mp member
    exact ⟨s.tokens[i],List.getElem_mem bound,written_familyId,written_root,
      fun standing => (standing_written standing).2⟩
  refine ⟨cut.sweep.revoked tables found,cut.version,cut.issued,?_,?_,cut.release.timed⟩
  · intro a first b second familyId familyA familyB
    obtain ⟨row,member,family,root,-⟩ := rows a first
    obtain ⟨row',member',family',root',-⟩ := rows b second
    rw [root,root']
    exact cut.roots row member row' member' familyId (family.symm.trans familyA) (family'.symm.trans familyB)
  · intro row member standing
    obtain ⟨before,earlier,-,root,stood⟩ := rows row member
    exact root.trans (cut.refresh before earlier (stood standing))

/-- Nothing that was read before the change commits still counts on being current. -/
theorem Cut.untimed {user : User} {patch : Patch} {q : Nat} {other : Process} (cut : Cut base s)
    (tables : Base s.tokens s.processes s.families) (found : s.processes[p]? = some process)
    (phase : process.phase = .committing (.change user patch))
    (clear : changeApart s (.advance p now) = true) (stored : s.processes[q]? = some other) (distinct : q ≠ p)
    (changes version : Nat) : other.Timed changes version := by
  have timed := cut.timed other (List.mem_of_getElem? stored)
  have placed := tables.placed other (List.mem_of_getElem? stored)
  have known := placed.known
  have holds : process.holdsUser = true := by
    have mine := cut.timed process (List.mem_of_getElem? found)
    simp only [Process.Timed,phase] at mine
    exact mine.2 rfl
  have alone : other.holdsUser ≠ true := fun theirs =>
    distinct (tables.userHeld q p other process stored found theirs holds)
  simp only [changeApart,found,Option.map_some,phase,Bool.and_eq_true,decide_eq_true_eq] at clear
  have apart := others_iff.mp clear.2 q other stored distinct
  unfold Process.Timed at timed ⊢
  split at timed
  · next work waiting =>
    rw [waiting] at known apart
    cases work with
    | login => cases apart
    | rotation => cases known
    | _ => exact timed
  · next work waiting =>
    rw [waiting] at known
    cases work with
    | login => exact absurd (timed.2 rfl) alone
    | rotation => cases known.2
    | _ => exact timed
  · next work since todo waiting =>
    rw [waiting] at known
    cases work with
    | login => exact absurd (timed.2 rfl) alone
    | rotation => cases known.2
    | _ => exact timed
  · next work waiting =>
    cases work with
    | login => exact absurd (timed.2 rfl) alone
    | rotation old =>
      have consumed : other.consumed = some old := by simp [Process.consumed,waiting]
      obtain ⟨row,stands,-,-,live⟩ := placed.standing consumed
      obtain none | held := cut.sweep.covered p (.change user patch) [] process found
        (by simp [Process.sweeping,phase]) old.2 row stands trivial live
      · cases none
      · exact absurd (tables.exclusive q p old.2 other process stored found (placed.consumes old consumed) held) distinct
    | _ => exact timed
  · next waiting =>
    rw [waiting] at apart
    cases apart
  · trivial

theorem Cut.change {user : User} {patch : Patch} (cut : Cut base s) (tables : Base s.tokens s.processes s.families)
    (found : s.processes[p]? = some process) (phase : process.phase = .committing (.change user patch))
    (clear : changeApart s (.advance p now) = true)
    (moved : commit settings s p now process (.change user patch) = some u) : Cut base u := by
  have untimed : ∀ q other, s.processes[q]? = some other → q ≠ p →
      other.Timed (s.changes + 1) (user.tokenVersion + 1) := fun _ _ stored distinct =>
    cut.untimed tables found phase clear stored distinct _ _
  have bumped : patch.tokenVersion = some (user.tokenVersion + 1) := by
    have mine := cut.timed process (List.mem_of_getElem? found)
    simp only [Process.Timed,phase] at mine
    exact mine.1
  have current : user.tokenVersion = s.user.tokenVersion := by
    simp only [changeApart,found,Option.map_some,phase,Bool.and_eq_true,decide_eq_true_eq] at clear
    exact clear.1
  cases moved
  have version : (patch.apply s.user).tokenVersion = user.tokenVersion + 1 := by simp [Patch.apply,bumped]
  have revoked : Cut base ({ s with
      tokens := s.tokens.mapIdx (written process.writes), ended := s.ended }.release p none) :=
    cut.revoked tables found s.ended
  refine ⟨revoked.sweep,?_,cut.issued,revoked.roots,?_,?_⟩
  · show (patch.apply s.user).tokenVersion = base + (s.changes + 1)
    rw [version,current,cut.version,Nat.add_assoc]
  · intro token member standing
    rw [cut.sweep.swept found phase member trivial] at standing
    cases standing
  · intro other member
    show other.Timed (s.changes + 1) (patch.apply s.user).tokenVersion
    rw [version]
    obtain ⟨q,stored⟩ := List.getElem?_of_mem member
    obtain ⟨rfl,rfl⟩ | ⟨distinct,stored⟩ := set_cases stored
    · trivial
    · exact untimed q other stored distinct

theorem Cut.rotation {old : Stored} {user : User} {issuedAt : Nat} (cut : Cut base s)
    (tables : Base s.tokens s.processes s.families) (found : s.processes[p]? = some process)
    (phase : process.phase = .committing (.rotation old user issuedAt))
    (moved : commit settings s p now process (.rotation old user issuedAt) = some u) : Cut base u := by
  have consumed : process.consumed = some old := by simp [Process.consumed,phase]
  have timed := cut.timed process (List.mem_of_getElem? found)
  simp only [Process.Timed,phase] at timed
  obtain ⟨row,stands,own,root,live⟩ := (tables.placed process (List.mem_of_getElem? found)).standing consumed
  have current : old.1.root = s.changes := root.symm.trans (cut.refresh row (List.mem_of_getElem? stands) live)
  have inserted : (newToken settings (old.1.familyId.getD s.families) issuedAt old.1.root).root = s.changes := current
  cases moved
  refine cut.insert ?_ inserted ?_ rfl rfl rfl rfl (by rw [← timed.1]; rfl)
  · apply cut.sweep.settle tables found
    intro token member q other work todo stored distinct sweeping inside
    obtain ⟨read,patch,rfl⟩ := changeScope_cases inside
    exact ⟨old,consumed,trivial⟩
  · intro familyId family other member same
    cases family
    cases known : old.1.familyId with
    | none =>
      obtain ⟨i,stored⟩ := List.getElem?_of_mem member
      rw [known] at same
      exact absurd same (tables.fresh le_rfl stored)
    | some familyId =>
      rw [known] at same own
      exact (cut.roots other member row (List.mem_of_getElem? stands) familyId same own).trans root

theorem Cut.login {user : User} {root : Nat} (cut : Cut base s) (tables : Base s.tokens s.processes s.families)
    (found : s.processes[p]? = some process) (phase : process.phase = .committing (.login user root))
    (moved : commit settings s p now process (.login user root) = some u) : Cut base u := by
  have timed := cut.timed process (List.mem_of_getElem? found)
  simp only [Process.Timed,phase] at timed
  obtain ⟨⟨current,version⟩,holds⟩ := timed
  have inserted : (newToken settings s.families now root).root = s.changes := current
  cases moved
  refine cut.insert ?_ inserted ?_ rfl rfl (apply_version rfl) rfl (by rw [← version]; rfl)
  · apply cut.sweep.settle tables found
    intro token member q other work todo stored distinct sweeping inside
    obtain ⟨read,patch,rfl⟩ := changeScope_cases inside
    have theirs := cut.timed other (List.mem_of_getElem? stored)
    have held : other.holdsUser = true := by
      unfold Process.sweeping at sweeping
      split at sweeping
      · next waiting =>
        cases sweeping
        simp only [Process.Timed,waiting] at theirs
        exact theirs.2 rfl
      · next waiting =>
        cases sweeping
        simp only [Process.Timed,waiting] at theirs
        exact theirs.2 rfl
      · cases sweeping
    exact absurd (tables.userHeld q p other process stored found held (holds rfl)) distinct
  · intro familyId family row member same
    cases family
    obtain ⟨i,stored⟩ := List.getElem?_of_mem member
    exact absurd same (tables.fresh le_rfl stored)

theorem Cut.commit {work : Work} (cut : Cut base s) (tables : Base s.tokens s.processes s.families)
    (found : s.processes[p]? = some process) (phase : process.phase = .committing work)
    (clear : changeApart s (.advance p now) = true) (moved : commit settings s p now process work = some u) :
    Cut base u := by
  cases work with
  | consume => cases moved
  | rotation => exact cut.rotation tables found phase moved
  | login => exact cut.login tables found phase moved
  | change => exact cut.change tables found phase clear moved
  | revokeFamily =>
    cases moved
    exact cut.revoked tables found _
  | update patch =>
    have timed := cut.timed process (List.mem_of_getElem? found)
    simp only [Process.Timed,phase] at timed
    cases moved
    exact (cut.user (apply_version timed.1)).release

theorem successor_stands {old successor : Stored} (found : getFamilySuccessor s old = some successor)
    (rotation : isRotationOf settings now old.1 successor.1 = true) :
    successor.1 ∈ s.tokens ∧ successor.1.standing = true ∧ successor.1.familyId = old.1.familyId ∧
      old.1.familyId ≠ none := by
  unfold getFamilySuccessor at found
  split at found
  · cases found
  · next family =>
    have member := List.argmin_mem found
    obtain ⟨listed,test⟩ := List.mem_filter.mp member
    simp only [Bool.and_eq_true,Bool.not_eq_true',decide_eq_true_eq] at test
    have live : successor.1.revokedAt.isNone = true := by
      simp only [isRotationOf,Bool.and_eq_true] at rotation
      exact rotation.1.1
    refine ⟨List.mem_of_getElem? (List.mem_zipIdx_iff_getElem?.mp listed),?_,test.1.2,by simpa using family⟩
    simp [RefreshToken.standing,live,test.1.1]

theorem Cut.advance (cut : Cut base s) (tables : Base s.tokens s.processes s.families)
    (found : s.processes[p]? = some process) (clear : changeApart s (.advance p now) = true)
    (moved : advance settings s p now process = some u) : Cut base u := by
  have placed := tables.placed process (List.mem_of_getElem? found)
  have known := placed.known
  have sweep : Sweep changeScope u.tokens u.processes := by
    refine cut.sweep.advance tables found (fun _ _ _ _ => changeScope_concerned) ?_ ?_
      (fun work phase committed => (cut.commit tables found phase clear committed).sweep) moved
    · intro work phase q other old stored distinct consumed inside
      obtain ⟨user,patch,rfl⟩ := changeScope_cases inside
      simp only [changeApart,found,Option.map_some,phase] at clear
      have apart := others_iff.mp clear q other stored distinct
      simp [consumed] at apart
    · rintro old since jti todo phase q other work stored distinct ⟨started,waiting,same⟩ inside
      obtain ⟨user,patch,rfl⟩ := changeScope_cases inside
      simp only [changeApart,found,Option.map_some,phase] at clear
      have apart := others_iff.mp clear q other stored distinct
      simp [same] at apart
  have timed := cut.timed process (List.mem_of_getElem? found)
  cases advance_moves moved with
  | start phase => exact cut.set sweep start_timed
  | fail => exact (cut.user recordFailedLogin_version).release
  | flush phase free =>
    rename_i work
    rw [phase] at known
    simp only [Process.Timed,phase] at timed
    apply cut.set sweep
    cases work with
    | login | change | update => exact ⟨timed,fun _ => rfl⟩
    | _ => cases known
  | select phase | lock phase | skip phase | done phase =>
    simp only [Process.Timed,phase] at timed
    exact cut.set sweep timed
  | consumed | lost | reread => exact cut.set sweep trivial
  | load phase successor rotation =>
    rw [phase] at known
    obtain ⟨row,stored,family,root⟩ := known
    obtain ⟨member,stands,same,some_⟩ := successor_stands successor rotation
    obtain ⟨familyId,own⟩ := Option.ne_none_iff_exists'.mp some_
    have equal := cut.roots _ member row (List.mem_of_getElem? stored) familyId (same.trans own) (family.trans own)
    exact cut.set sweep (root.symm.trans (equal.symm.trans (cut.refresh _ member stands)))
  | reject => exact cut.set sweep ⟨trivial,fun flushes => (nomatch flushes)⟩
  | replay phase =>
    simp only [Process.Timed,phase] at timed
    exact cut.issue timed
  | rotate => exact cut.set sweep ⟨rfl,fun flushes => (nomatch flushes)⟩
  | commit phase committed => exact cut.commit tables found phase clear committed

theorem Cut.next {action : Action} (cut : Cut base s) (tables : Base s.tokens s.processes s.families)
    (moved : within changeApart (next settings) s action = some u) : Cut base u := by
  obtain ⟨clear,moved⟩ := within_eq_some.mp moved
  cases action with
  | begin request =>
    cases moved
    refine { cut with sweep := cut.sweep.begins, timed := fun other member => ?_ }
    obtain before | new := List.mem_append.mp member
    · exact cut.timed other before
    · rw [List.mem_singleton.mp new]
      trivial
  | advance p now =>
    obtain ⟨process,found,moved⟩ := Option.bind_eq_some_iff.mp moved
    exact cut.advance tables found clear moved
  | abort p =>
    cases moved
    exact cut.release

theorem Cut.initial (start : Initial s) : Cut s.user.tokenVersion s where
  sweep := Sweep.idle start.idle
  version := by rw [start.changes]; rfl
  issued := by rw [start.issued]; exact fun _ member => (nomatch member)
  roots a first b _ familyId family := by
    rw [(start.legacy a first).1] at family
    cases family
  refresh token member _ := by rw [(start.legacy token member).2,start.changes]
  timed := by rw [start.idle]; exact fun _ member => (nomatch member)

/-- While changes keep apart from the other requests on the user, nothing verified before a committed change is
accepted. -/
theorem change_cuts_off (reached : Reachable Initial (OfNext (within changeApart (next settings))) s) :
    CutOff settings s := by
  have kept : Base s.tokens s.processes s.families ∧ ∃ base, Cut base s := by
    apply reached.invariant fun _ start => ⟨Base.initial start,_,Cut.initial start⟩
    rintro before action after ⟨tables,base,cut⟩ moved
    exact ⟨tables.next (within_eq_some.mp moved).2,base,cut.next tables moved⟩
  obtain ⟨-,base,cut⟩ := kept
  exact cut.cutOff

private def sessions (s : State) : List RefreshToken × List AccessToken × Nat := (s.tokens,s.issued,s.changes)

/-- A login, then a change of the password, then a login with the new one. -/
theorem change_cuts_off_first_login : ∃ s, sessions s =
    ([⟨some 0,1,1001,some 2,false,0⟩,⟨some 1,3,1003,none,false,1⟩],[⟨0,0,0⟩,⟨1,1,1⟩],1) ∧
      CutOff exampleSettings s := by
  obtain ⟨s,reached,view⟩ := reachable_of_execute (within changeApart (next exampleSettings)) sessions
    ([.begin (.loginWithPassword 1)] ++ steps 0 1 5 ++ [.begin (.changeOwnPassword 0 1 3)] ++ steps 1 2 6 ++
      [.begin (.loginWithPassword 3)] ++ steps 2 3 5) exampleUser_initial
    (b := ([⟨some 0,1,1001,some 2,false,0⟩,⟨some 1,3,1003,none,false,1⟩],[⟨0,0,0⟩,⟨1,1,1⟩],1)) (by decide +kernel)
  exact ⟨s,view,change_cuts_off reached⟩

/-- A login that verified the old password before the change leaves a refresh token that works after it. -/
theorem login_survives_change : ∃ s, Reachable Initial (OfNext (next exampleSettings)) s ∧
    ¬CutOff exampleSettings s := by
  obtain ⟨s,reached,view⟩ := reachable_of_execute (next exampleSettings) sessions
    ([.begin (.loginWithPassword 1)] ++ steps 0 1 1 ++ [.begin (.changeOwnPassword 0 1 3)] ++ steps 1 2 5 ++
      steps 0 3 4 ++ [.begin (.refreshTokens 0)] ++ steps 2 4 6) exampleUser_initial
    (b := ([⟨some 0,3,1003,some 4,false,0⟩,⟨some 0,4,1004,none,false,0⟩],[⟨0,0,1⟩,⟨1,0,1⟩],1)) (by decide +kernel)
  refine ⟨s,reached,fun cut => ?_⟩
  have tokens : s.tokens = _ := congrArg Prod.fst view
  have changes : s.changes = 1 := congrArg (·.2.2) view
  have root := cut.refresh ⟨some 0,4,1004,none,false,0⟩ (by simp [tokens]) rfl
  rw [changes] at root
  cases root

end Sessions
