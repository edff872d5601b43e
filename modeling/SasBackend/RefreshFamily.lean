import SasBackend.RefreshSweep

/-! A family of refresh tokens whose revocation has committed stays dead, as long as the revoking UPDATE keeps
apart from the rotations of the family.
-/
namespace Sessions
open SasBackend Transition

variable {settings : Settings} {s : State} {p now : Nat} {process : Process}

/-- The revocation of a family is after its rows. -/
def familyScope : Work → Option Nat → Prop
  | .revokeFamily (some revoked) _, familyId => familyId = some revoked
  | _, _ => False

theorem familyScope_cases {work : Work} {familyId : Option Nat} (inside : familyScope work familyId) :
    ∃ revoked jti, work = .revokeFamily (some revoked) jti ∧ familyId = some revoked := by
  unfold familyScope at inside
  split at inside
  · exact ⟨_,_,rfl,inside⟩
  · cases inside

theorem familyScope_concerned {work : Work} {since i : Nat} {token : RefreshToken}
    (inside : familyScope work token.familyId) (standing : token.standing = true) :
    work.concerns settings since (token,i) = true := by
  obtain ⟨revoked,jti,rfl,family⟩ := familyScope_cases inside
  simp only [RefreshToken.standing,Bool.and_eq_true,Bool.not_eq_true'] at standing
  simp [Work.concerns,standing,family]

theorem Process.Placed.revoked {tokens : List RefreshToken} {revoked jti : Nat} {todo : List Nat}
    (placed : process.Placed tokens) (sweeping : process.sweeping = some (.revokeFamily (some revoked) jti,todo)) :
    ∃ token ∈ tokens, token.familyId = some revoked := by
  have known := placed.known
  unfold Process.sweeping at sweeping
  split at sweeping
  · next phase =>
    cases sweeping
    rw [phase] at known
    exact known.1
  · next phase =>
    cases sweeping
    rw [phase] at known
    exact known
  · cases sweeping

structure Guarded (s : State) : Prop where
  sweep : Sweep familyScope s.tokens s.processes
  dead : ∀ familyId ∈ s.ended, ∀ token ∈ s.tokens, token.familyId = some familyId → token.standing = false
  drawn : ∀ familyId ∈ s.ended, familyId < s.families

/-- A row of a fresh family, or one that replaces a consumed row of its family. -/
def Joins (s : State) (process : Process) (token : RefreshToken) : Prop :=
  ∀ familyId, token.familyId = some familyId → s.families ≤ familyId ∨
    ∃ old, process.consumed = some old ∧ old.1.familyId = some familyId

theorem Sweep.insert {pair : Option (AccessToken × Nat)} {token : RefreshToken}
    (sweep : Sweep familyScope s.tokens s.processes) (base : Base s.tokens s.processes s.families)
    (found : s.processes[p]? = some process) (joins : Joins s process token) :
    Sweep familyScope (settled process s.tokens [token]) (s.release p pair).processes := by
  apply sweep.settle base found
  intro new member q other work todo stored distinct sweeping inside
  obtain rfl := List.mem_singleton.mp member
  obtain ⟨revoked,jti,rfl,family⟩ := familyScope_cases inside
  obtain fresh | ⟨old,consumed,same⟩ := joins revoked family
  · obtain ⟨known,member,own⟩ := (base.placed other (List.mem_of_getElem? stored)).revoked sweeping
    have bound := base.families known member revoked own
    omega
  · exact ⟨old,consumed,same⟩

theorem Guarded.insert {pair : Option (AccessToken × Nat)} {token : RefreshToken} {u : State} (guarded : Guarded s)
    (base : Base s.tokens s.processes s.families) (found : s.processes[p]? = some process)
    (joins : Joins s process token) (tokens : u.tokens = settled process s.tokens [token])
    (processes : u.processes = (s.release p pair).processes) (families : u.families = s.families + 1)
    (ended : u.ended = s.ended) : Guarded u := by
  refine ⟨?_,?_,fun familyId member => ?_⟩
  · rw [tokens,processes]
    exact guarded.sweep.insert base found joins
  · rw [tokens,ended]
    intro familyId member row listed family
    obtain ⟨i,stored⟩ := List.getElem?_of_mem listed
    cases standing : row.standing with
    | false => rfl
    | true =>
      obtain ⟨before,earlier,rfl⟩ | ⟨new,-⟩ := settled_cases stored
      · have dead := guarded.dead familyId member before (List.mem_of_getElem? earlier)
          (written_familyId.symm.trans family)
        rw [(standing_written standing).2] at dead
        cases dead
      · obtain rfl := List.mem_singleton.mp (List.mem_of_getElem? new)
        obtain fresh | ⟨old,consumed,same⟩ := joins familyId family
        · have bound := guarded.drawn familyId member
          omega
        · obtain ⟨token,stands,own,-,live⟩ := (base.placed process (List.mem_of_getElem? found)).standing consumed
          have dead := guarded.dead familyId member token (List.mem_of_getElem? stands) (own.trans same)
          rw [live] at dead
          cases dead
  · rw [families]
    exact Nat.lt_succ_of_lt (guarded.drawn familyId (ended ▸ member))

theorem Guarded.stillDead (guarded : Guarded s) : ∀ familyId ∈ s.ended,
    ∀ token ∈ s.tokens.mapIdx (written process.writes), token.familyId = some familyId → token.standing = false := by
  intro familyId member token listed family
  obtain ⟨i,bound,rfl⟩ := List.mem_mapIdx.mp listed
  cases standing : (written process.writes i s.tokens[i]).standing with
  | false => rfl
  | true =>
    have dead := guarded.dead familyId member s.tokens[i] (List.getElem_mem bound) (written_familyId.symm.trans family)
    rw [(standing_written standing).2] at dead
    cases dead

theorem Guarded.commit {work : Work} {u : State} (guarded : Guarded s)
    (base : Base s.tokens s.processes s.families) (found : s.processes[p]? = some process)
    (phase : process.phase = .committing work) (moved : commit settings s p now process work = some u) :
    Guarded u := by
  cases work with
  | consume => cases moved
  | rotation old user issuedAt =>
    cases moved
    refine guarded.insert base found ?_ rfl rfl rfl rfl
    intro familyId family
    cases family
    cases same : old.1.familyId with
    | none => exact .inl le_rfl
    | some familyId => exact .inr ⟨old,by simp [Process.consumed,phase],same⟩
  | login =>
    cases moved
    refine guarded.insert base found ?_ rfl rfl rfl rfl
    intro familyId family
    cases family
    exact .inl le_rfl
  | change =>
    cases moved
    exact ⟨guarded.sweep.revoked base found,guarded.stillDead,guarded.drawn⟩
  | update =>
    cases moved
    exact ⟨guarded.sweep.release,guarded.dead,guarded.drawn⟩
  | revokeFamily ends jti =>
    cases moved
    refine ⟨guarded.sweep.revoked base found,fun familyId member token listed family => ?_,fun familyId member => ?_⟩
    · obtain before | new := List.mem_append.mp member
      · exact guarded.stillDead familyId before token listed family
      · cases ends with
        | none => cases new
        | some revoked =>
          obtain rfl := List.mem_singleton.mp new
          exact guarded.sweep.swept found phase listed family
    · obtain before | new := List.mem_append.mp member
      · exact guarded.drawn familyId before
      · cases ends with
        | none => cases new
        | some revoked =>
          obtain rfl := List.mem_singleton.mp new
          have sweeping : process.sweeping = some (.revokeFamily (some familyId) jti,[]) := by
            simp [Process.sweeping,phase]
          obtain ⟨token,known,own⟩ := (base.placed process (List.mem_of_getElem? found)).revoked sweeping
          exact base.families token known familyId own

theorem Guarded.same {u : State} (guarded : Guarded s) (sweep : Sweep familyScope u.tokens u.processes)
    (tokens : u.tokens = s.tokens) (families : u.families = s.families) (ended : u.ended = s.ended) : Guarded u := by
  refine ⟨sweep,?_,?_⟩
  · rw [tokens,ended]
    exact guarded.dead
  · rw [families,ended]
    exact guarded.drawn

theorem Guarded.advance {u : State} (guarded : Guarded s) (base : Base s.tokens s.processes s.families)
    (found : s.processes[p]? = some process) (clear : familyApart s (.advance p now) = true)
    (moved : advance settings s p now process = some u) : Guarded u := by
  simp only [familyApart,found,Option.map_some] at clear
  have sweep : Sweep familyScope u.tokens u.processes := by
    refine guarded.sweep.advance base found (fun _ _ _ _ => familyScope_concerned) ?_ ?_
      (fun work phase committed => (guarded.commit base found phase committed).sweep) moved
    · intro work phase q other old stored distinct consumed inside
      obtain ⟨revoked,jti,rfl,family⟩ := familyScope_cases inside
      rw [phase] at clear
      have apart := others_iff.mp clear q other stored distinct
      simp [consumed,family] at apart
    · rintro old since jti todo phase q other work stored distinct ⟨started,waiting,same⟩ inside
      obtain ⟨revoked,_,rfl,family⟩ := familyScope_cases inside
      rw [phase] at clear
      have apart := others_iff.mp clear q other stored distinct
      simp [same,family] at apart
  cases advance_moves moved with
  | commit phase committed => exact guarded.commit base found phase committed
  | _ => exact guarded.same sweep rfl rfl rfl

theorem Guarded.next {action : Action} {u : State} (guarded : Guarded s)
    (base : Base s.tokens s.processes s.families)
    (moved : within familyApart (next settings) s action = some u) : Guarded u := by
  obtain ⟨clear,moved⟩ := within_eq_some.mp moved
  cases action with
  | begin request =>
    cases moved
    exact guarded.same guarded.sweep.begins rfl rfl rfl
  | advance p now =>
    obtain ⟨process,found,moved⟩ := Option.bind_eq_some_iff.mp moved
    exact guarded.advance base found clear moved
  | abort p =>
    cases moved
    exact guarded.same guarded.sweep.release rfl rfl rfl

theorem Guarded.initial (start : Initial s) : Guarded s := by
  refine ⟨.idle start.idle,?_,?_⟩
  · rw [start.ended]
    exact fun _ member => (nomatch member)
  · rw [start.ended]
    exact fun _ member => (nomatch member)

/-- While family revocations and rotations keep apart, a family has one live token at most, and none once its
revocation has committed. -/
theorem family_dead_when_apart (reached : Reachable Initial (OfNext (within familyApart (next settings))) s) :
    SingleLive s ∧ EndedDead s := by
  have kept : Base s.tokens s.processes s.families ∧ Guarded s := by
    apply reached.invariant fun _ start => ⟨Base.initial start,Guarded.initial start⟩
    intro before action after kept moved
    exact ⟨kept.1.next (within_eq_some.mp moved).2,kept.2.next kept.1 moved⟩
  refine ⟨kept.1.singleLive,fun familyId member token listed family now => ?_⟩
  simp [RefreshToken.live,kept.2.dead familyId member token listed family]

def exampleSettings : Settings := ⟨60,1000,7,5,15,true⟩

/-- A user with password 1 and PIN 2, before any login. -/
def exampleUser : State := ⟨⟨0,.active,false,false,0,none,some 1,some 2⟩,[],[],0,[],0,[]⟩

theorem exampleUser_initial : Initial exampleUser :=
  ⟨rfl,fun _ member => (nomatch member),rfl,rfl,rfl⟩

/-- A request and its first steps, all at one time. -/
def steps (p now count : Nat) : List Action := List.replicate count (.advance p now)

private def table (s : State) : List RefreshToken × List Nat := (s.tokens,s.ended)

/-- A login, a rotation, and a logout with the new token. -/
theorem family_dead_after_logout : ∃ s, table s =
    ([⟨some 0,1,1001,some 2,false,0⟩,⟨some 0,2,1002,some 3,false,0⟩],[0]) ∧ SingleLive s ∧ EndedDead s := by
  obtain ⟨s,reached,view⟩ := reachable_of_execute (within familyApart (next exampleSettings)) table
    ([.begin (.loginWithPassword 1)] ++ steps 0 1 5 ++ [.begin (.refreshTokens 0)] ++ steps 1 2 6 ++
      [.begin (.logout 1)] ++ steps 2 3 5) exampleUser_initial
    (b := ([⟨some 0,1,1001,some 2,false,0⟩,⟨some 0,2,1002,some 3,false,0⟩],[0])) (by decide +kernel)
  exact ⟨s,view,family_dead_when_apart reached⟩

/-- A logout whose UPDATE waits for a rotation leaves the successor live. -/
theorem successor_survives_logout : ∃ s, Reachable Initial (OfNext (next exampleSettings)) s ∧ ¬EndedDead s := by
  obtain ⟨s,reached,view⟩ := reachable_of_execute (next exampleSettings) table
    ([.begin (.loginWithPassword 1)] ++ steps 0 1 5 ++ [.begin (.refreshTokens 0)] ++ steps 1 2 5 ++
      [.begin (.logout 0)] ++ steps 2 3 2 ++ steps 1 2 1 ++ steps 2 3 3) exampleUser_initial
    (b := ([⟨some 0,1,1001,some 2,false,0⟩,⟨some 0,2,1002,none,false,0⟩],[0])) (by decide +kernel)
  refine ⟨s,reached,fun dead => ?_⟩
  have tokens : s.tokens = _ := congrArg Prod.fst view
  have ended : s.ended = [0] := congrArg Prod.snd view
  have live := dead 0 (by simp [ended]) ⟨some 0,2,1002,none,false,0⟩ (by simp [tokens]) rfl 3
  simp [RefreshToken.live,RefreshToken.standing] at live

end Sessions
