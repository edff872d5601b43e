import SasBackend.SyncBatch

/-! A push with and without some of its ops.
Where ops that are left out change nothing but what the log says of them, and no other op depends on them, the
other ops run as they would in the push without them.
-/
namespace SyncPush

variable {σ π η : Type} [DecidableEq η] {server : Server π η} {world : World σ π} {op : OpEnvelope π}
  {s t start : State σ η} {table : List (Processed σ π η)} {round : Processed σ π η}
  {remaining entries : List (Nat × OpEnvelope π)}

def opIds (entries : List (Nat × OpEnvelope π)) : List Nat := entries.map (·.2.opId)

/-- A dependency that the batch itself has to answer. -/
def Waits (entries : List (Nat × OpEnvelope π)) (opId dep : Nat) : Prop :=
  ∃ entry ∈ entries, entry.2.opId = opId ∧ dep ∈ entry.2.dependsOn ∧ dep ∈ opIds entries ∧ dep ≠ opId

theorem waits_iff (distinct : (opIds entries).Nodup) {entry : Nat × OpEnvelope π} (member : entry ∈ entries)
    {dep : Nat} : Waits entries entry.2.opId dep ↔
      dep ∈ entry.2.dependsOn ∧ dep ∈ opIds entries ∧ dep ≠ entry.2.opId := by
  constructor
  · rintro ⟨other,member',same,rest⟩
    obtain rfl := List.inj_on_of_nodup_map distinct member' member same
    exact rest
  · exact fun rest => ⟨entry,member,rfl,rest⟩

omit [DecidableEq η] in
theorem byOpId_isSome {opId : Nat} : (byOpId table opId).isSome = true ↔ opId ∈ table.map (·.op.opId) := by
  rw [byOpId,Option.isSome_map,List.find?_isSome,List.mem_map]
  simp only [decide_eq_true_eq]

/-- The dependencies in the batch are answered. -/
def Ready (entries : List (Nat × OpEnvelope π)) (table : List (Processed σ π η)) (entry : Nat × OpEnvelope π) : Prop :=
  ∀ dep, Waits entries entry.2.opId dep → dep ∈ table.map (·.op.opId)

omit [DecidableEq η] in
private theorem ready_iff (distinct : (opIds entries).Nodup) {entry : Nat × OpEnvelope π} (member : entry ∈ entries) :
    (entry.2.dependsOn.all fun dep => !((opIds entries).contains dep && dep ≠ entry.2.opId) ||
      (byOpId table dep).isSome) = true ↔ Ready entries table entry := by
  simp only [Ready,waits_iff distinct member,List.all_eq_true,Bool.or_eq_true,Bool.not_eq_true',
    Bool.and_eq_false_iff,byOpId_isSome,List.contains_eq_mem,decide_eq_false_iff_not,not_not]
  constructor
  · intro all dep waits
    rcases all dep waits.1 with (outside | itself) | answered
    · exact absurd waits.2.1 outside
    · exact absurd itself waits.2.2
    · exact answered
  · intro all dep depends
    by_cases inside : dep ∈ opIds entries
    · by_cases itself : dep = entry.2.opId
      · exact .inl (.inr itself)
      · exact .inr (all dep ⟨depends,inside,itself⟩)
    · exact .inl (.inl inside)

omit [DecidableEq η] in
theorem pick_ready (distinct : (opIds entries).Nodup) (within_ : ∀ entry ∈ remaining, entry ∈ entries)
    {entry : Nat × OpEnvelope π} (picked : pick (opIds entries) table remaining = some entry) :
    entry ∈ remaining ∧ Ready entries table entry := by
  have member := List.mem_of_find?_eq_some picked
  have free := List.find?_some picked
  exact ⟨member,(ready_iff distinct (within_ entry member)).mp free⟩

omit [DecidableEq η] in
theorem pick_none (distinct : (opIds entries).Nodup) (within_ : ∀ entry ∈ remaining, entry ∈ entries)
    (stuck : pick (opIds entries) table remaining = none) :
    ∀ entry ∈ remaining, ∃ dep, Waits entries entry.2.opId dep ∧ dep ∉ table.map (·.op.opId) := by
  intro entry member
  have waiting := List.find?_eq_none.mp stuck entry member
  rw [ready_iff distinct (within_ entry member),Ready] at waiting
  simpa using waiting

omit [DecidableEq η] in
theorem dependencyError_refused {ops : Nat → Option (SyncOp η)} {batch : Nat → Option Result} {dep : Nat} {deps : List Nat}
    (member : dep ∈ deps) (refused : (∃ outcome, batch dep = some outcome ∧ outcome.accepted = false) ∨
      batch dep = none ∧ ∀ row, ops dep = some row → row.status ≠ .applied) :
    ∃ error, dependencyError ops batch deps = some error := by
  induction deps with
  | nil => cases member
  | cons head rest induction =>
    rw [dependencyError]
    rcases List.mem_cons.mp member with rfl | later
    · rcases refused with ⟨outcome,answered,declined⟩ | ⟨unanswered,unapplied⟩
      · rw [answered]
        dsimp only
        rw [if_neg (by rw [declined]; exact Bool.false_ne_true)]
        exact ⟨_,rfl⟩
      · rw [unanswered]
        dsimp only
        cases known : ops dep with
        | none => exact ⟨_,rfl⟩
        | some row =>
          dsimp only
          rw [if_neg (unapplied row known)]
          exact ⟨_,rfl⟩
    · obtain ⟨error,stops⟩ := induction later
      rw [stops]
      split <;> split <;> first | exact ⟨_,rfl⟩ | skip
      split <;> exact ⟨_,rfl⟩

omit [DecidableEq η] in
theorem dependencyError_congr {ops ops' : Nat → Option (SyncOp η)} {batch other : Nat → Option Result} {deps : List Nat}
    (same : ∀ dep ∈ deps, ops dep = ops' dep ∧ batch dep = other dep) :
    dependencyError ops batch deps = dependencyError ops' other deps := by
  induction deps with
  | nil => rfl
  | cons dep rest induction =>
    obtain ⟨⟨log,answer⟩,tail⟩ := List.forall_mem_cons.mp same
    rw [dependencyError,dependencyError,answer,log,induction tail]

omit [DecidableEq η] in
theorem eraseP_eq_filter {entry : Nat × OpEnvelope π} (places : (remaining.map Prod.fst).Nodup)
    (distinct : (opIds remaining).Nodup) (member : entry ∈ remaining) :
    remaining.eraseP (·.1 = entry.1) = remaining.filter (·.2.opId ≠ entry.2.opId) := by
  induction remaining with
  | nil => cases member
  | cons head rest induction =>
    obtain ⟨newPlace,places'⟩ := List.nodup_cons.mp places
    obtain ⟨newId,distinct'⟩ := List.nodup_cons.mp distinct
    rcases List.mem_cons.mp member with rfl | member
    · rw [List.eraseP_cons_of_pos (by simp),List.filter_cons_of_neg (by simp)]
      refine (List.filter_eq_self.mpr fun other listed => decide_eq_true ?_).symm
      intro same
      exact newId (List.mem_map.mpr ⟨other,listed,same⟩)
    · have otherPlace : head.1 ≠ entry.1 := fun same => newPlace (List.mem_map.mpr ⟨entry,member,same.symm⟩)
      have otherId : head.2.opId ≠ entry.2.opId := fun same => newId (List.mem_map.mpr ⟨entry,member,same.symm⟩)
      rw [List.eraseP_cons_of_neg (by simpa using otherPlace),List.filter_cons_of_pos (by simpa using otherId),
        induction places' distinct' member]

variable {cut : Nat → Prop}

/-- The same rows, and the same log but for the ops that are cut. -/
structure Agree (cut : Nat → Prop) (s t : State σ η) : Prop where
  rows : s.rows = t.rows
  ops : ∀ opId, ¬cut opId → s.ops opId = t.ops opId

/-- Two rounds run one op in the same way. -/
structure Alike (cut : Nat → Prop) (round other : Processed σ π η) : Prop where
  op : round.op = other.op
  cyclic : round.cyclic = other.cyclic
  result : round.result = other.result
  committed : round.committed = other.committed
  before : Agree cut round.before other.before
  after : Agree cut round.after other.after

omit [DecidableEq η] in
theorem Agree.refl (s : State σ η) : Agree cut s s := ⟨rfl,fun _ _ => rfl⟩

omit [DecidableEq η] in
theorem Agree.symm (agree : Agree cut s t) : Agree cut t s := ⟨agree.rows.symm,fun opId kept => (agree.ops opId kept).symm⟩

omit [DecidableEq η] in
theorem Agree.trans {u : State σ η} (first : Agree cut s t) (second : Agree cut t u) : Agree cut s u :=
  ⟨first.rows.trans second.rows,fun opId kept => (first.ops opId kept).trans (second.ops opId kept)⟩

omit [DecidableEq η] in
theorem Agree.storeOp (agree : Agree cut s t) (opId : Nat) (stored : SyncOp η) :
    Agree cut (storeOp s opId stored) (storeOp t opId stored) := by
  refine ⟨agree.rows,fun other kept => ?_⟩
  by_cases same : other = opId
  · simp [SyncPush.storeOp,same]
  · simp [SyncPush.storeOp,same,agree.ops other kept]

/-- What a transaction answers, and what it leaves, depends on the rows and on what the log says of the op. -/
def Likewise (cut : Nat → Prop) (first second : Transacted σ η) : Prop :=
  first.result = second.result ∧ first.committed = second.committed ∧ Agree cut first.state second.state

theorem runOpOnce_likewise (agree : Agree cut s t) (kept : ¬cut op.opId) :
    Likewise cut (runOpOnce server world op s) (runOpOnce server world op t) := by
  unfold runOpOnce
  rw [agree.ops op.opId kept]
  split
  · split
    · exact ⟨rfl,rfl,agree⟩
    · split
      · exact ⟨rfl,rfl,agree⟩
      · exact ⟨rfl,rfl,agree⟩
  · rw [agree.rows]
    split
    · unfold finishRejected
      dsimp only
      split
      · exact ⟨rfl,rfl,agree.storeOp _ _⟩
      · exact ⟨rfl,rfl,agree⟩
    · next outcome rows _ =>
      have stored : Agree cut { s with rows := rows } { t with rows := rows } := ⟨rfl,agree.ops⟩
      exact ⟨rfl,rfl,stored.storeOp _ _⟩

theorem attempts_likewise (agree : Agree cut s t) (kept : ¬cut op.opId) (left : List Nat) :
    Likewise cut (attempts server world op s left) (attempts server world op t left) := by
  induction left with
  | nil => exact ⟨rfl,rfl,agree⟩
  | cons attempt rest induction =>
    rw [attempts,attempts,agree.rows]
    split
    · exact runOpOnce_likewise agree kept
    · exact induction
    · exact ⟨rfl,rfl,agree⟩
    · exact ⟨rfl,rfl,agree⟩

/-- An op that is not accepted leaves the rows alone. -/
theorem runOp_declined (declined : (runOp server world op s).result.accepted = false) :
    (runOp server world op s).state.rows = s.rows ∧ (runOp server world op s).committed = false := by
  rcases attempts_cases server world op s [0,1,2] with same | ⟨message,same⟩
  · rw [runOp,same] at declined ⊢
    unfold runOpOnce at declined ⊢
    split
    · split
      · exact ⟨rfl,rfl⟩
      · split <;> exact ⟨rfl,rfl⟩
    · next unknown =>
      rw [unknown] at declined
      dsimp only at declined ⊢
      split
      · unfold finishRejected
        dsimp only
        split <;> exact ⟨rfl,rfl⟩
      · next accepted =>
        rw [accepted] at declined
        dsimp only [finishApplied] at declined
        split at declined <;> cases declined
  · rw [runOp,same]
    exact ⟨rfl,rfl⟩

/-- Ops to leave out: what no round runs, as it waits for another of them or for an op never applied, and the
ops that are cut. -/
structure Apart (entries : List (Nat × OpEnvelope π)) (ops : Nat → Option (SyncOp η)) (bad cut : Nat → Prop) : Prop where
  refused : ∀ entry ∈ entries, bad entry.2.opId → cut entry.2.opId ∨ ∃ dep ∈ entry.2.dependsOn,
    Waits entries entry.2.opId dep ∧ bad dep ∨ dep ∉ opIds entries ∧ ∀ row, ops dep = some row → row.status ≠ .applied
  closed : ∀ entry ∈ entries, ¬bad entry.2.opId → ∀ dep, Waits entries entry.2.opId dep → ¬bad dep
  unread : ∀ entry ∈ entries, ¬bad entry.2.opId → ∀ dep ∈ entry.2.dependsOn, ¬cut dep
  within_ : ∀ opId, cut opId → bad opId

/-- An op that is not accepted, and around which other clients commit nothing. -/
def Still (world : World σ π) (round : Processed σ π η) : Prop :=
  round.result.accepted = false ∧ ∀ rows, world.others round.op rows = rows

variable {bad : Nat → Prop} [DecidablePred bad] {coreEntries core : List (Nat × OpEnvelope π)}
  {coreTable : List (Processed σ π η)} {coreState : State σ η}

omit [DecidableEq η] in
private theorem byOpId_filter (table : List (Processed σ π η)) {opId : Nat} (good : ¬bad opId) :
    byOpId (table.filter fun round => !decide (bad round.op.opId)) opId = byOpId table opId := by
  rw [byOpId,byOpId,List.find?_filter]
  congr 2
  funext round
  by_cases same : round.op.opId = opId
  · simp [same,good]
  · simp [same]

omit [DecidableEq η] in
private theorem byOpId_alike {opId : Nat} (alike : List.Forall₂ (Alike cut) table coreTable) :
    byOpId table opId = byOpId coreTable opId := by
  induction alike with
  | nil => rfl
  | cons head tail induction =>
    rw [byOpId,byOpId,List.find?_cons,List.find?_cons,head.op]
    split
    · exact congrArg some head.result
    · exact induction

private theorem Batch.member (batch : Batch server world entries start remaining table s)
    {entry : Nat × OpEnvelope π} (left : entry ∈ remaining) : entry ∈ entries :=
  batch.split.subset (List.mem_append_right _ left)

private theorem Batch.remaining_opIds (batch : Batch server world entries start remaining table s) :
    (SyncPush.opIds remaining).Nodup := by
  have all := (batch.split.map (·.2.opId)).nodup_iff.mpr batch.opIds
  rw [List.map_append] at all
  exact (List.nodup_append.mp all).2.1

private theorem Batch.unanswered (batch : Batch server world entries start remaining table s) {opId : Nat}
    (outside : opId ∉ SyncPush.opIds entries) : SyncPush.byOpId table opId = none := by
  rw [← Option.not_isSome_iff_eq_none,byOpId_isSome]
  intro answered
  obtain ⟨round,member,rfl⟩ := List.mem_map.mp answered
  exact outside (List.mem_map_of_mem (batch.split.subset (List.mem_append_left _ (List.mem_map_of_mem (f := entryOf) member))))

private def test (inBatch : List Nat) (table : List (Processed σ π η)) (op : OpEnvelope π) : Bool :=
  op.dependsOn.all fun dep => !(inBatch.contains dep && dep ≠ op.opId) || (byOpId table dep).isSome

omit [DecidableEq η] in
private theorem pick_map (inBatch : List Nat) (table : List (Processed σ π η)) (remaining : List (Nat × OpEnvelope π)) :
    (pick inBatch table remaining).map Prod.snd = (remaining.map Prod.snd).find? (test inBatch table) := by
  rw [List.find?_map]
  rfl

/-- Two batches under way, the second without the ops left out of the first. -/
structure Mirrors (server : Server π η) (world : World σ π) (bad cut : Nat → Prop) [DecidablePred bad]
    (entries coreEntries : List (Nat × OpEnvelope π)) (start : State σ η) (remaining core : List (Nat × OpEnvelope π))
    (table coreTable : List (Processed σ π η)) (s coreState : State σ η) : Prop where
  batch : Batch server world entries start remaining table s
  coreBatch : Batch server world coreEntries start core coreTable coreState
  agree : Agree cut s coreState
  left : (remaining.filter fun entry => !decide (bad entry.2.opId)).map Prod.snd = core.map Prod.snd
  done : List.Forall₂ (Alike cut) (table.filter fun round => !decide (bad round.op.opId)) coreTable
  declined : ∀ round ∈ table, bad round.op.opId → round.result.accepted = false
  outside : ∀ opId, opId ∉ opIds entries → s.ops opId = start.ops opId

section step
variable (mirrors : Mirrors server world bad cut entries coreEntries start remaining core table coreTable s coreState)
include mirrors

private theorem Mirrors.byOpId (core_ : ∀ opId ∈ opIds coreEntries, opId ∈ opIds entries) {opId : Nat}
    (good : opId ∈ opIds entries → ¬bad opId) : SyncPush.byOpId table opId = SyncPush.byOpId coreTable opId := by
  by_cases inside : opId ∈ opIds entries
  · rw [← byOpId_filter table (good inside),byOpId_alike mirrors.done]
  · rw [mirrors.batch.unanswered inside,mirrors.coreBatch.unanswered fun listed => inside (core_ opId listed)]

private theorem Mirrors.refused (apart : Apart entries start.ops bad cut) {entry : Nat × OpEnvelope π}
    (member : entry ∈ remaining) (bad_ : bad entry.2.opId) (ready : Ready entries table entry) (run : ¬cut entry.2.opId) :
    ∃ error, dependencyError s.ops (SyncPush.byOpId table) entry.2.dependsOn = some error := by
  obtain ⟨dep,depends,⟨waits,badDep⟩ | ⟨outside,unapplied⟩⟩ :=
    (apart.refused entry (mirrors.batch.member member) bad_).resolve_left run
  · refine dependencyError_refused depends (.inl ?_)
    obtain ⟨outcome,answered⟩ := Option.isSome_iff_exists.mp (byOpId_isSome.mpr (ready dep waits))
    obtain ⟨round,found,rfl⟩ := Option.map_eq_some_iff.mp answered
    have same : round.op.opId = dep := by simpa using List.find?_some found
    exact ⟨_,answered,mirrors.declined round (List.mem_of_find?_eq_some found) (same ▸ badDep)⟩
  · refine dependencyError_refused depends (.inr ⟨mirrors.batch.unanswered outside,fun row known => ?_⟩)
    exact unapplied row (mirrors.outside dep outside ▸ known)

private theorem Mirrors.test (apart : Apart entries start.ops bad cut)
    (coreIds : ∀ opId, opId ∈ opIds coreEntries ↔ opId ∈ opIds entries ∧ ¬bad opId)
    {entry : Nat × OpEnvelope π} (member : entry ∈ remaining) (good : ¬bad entry.2.opId) :
    SyncPush.test (opIds coreEntries) coreTable entry.2 = SyncPush.test (opIds entries) table entry.2 := by
  have listed := mirrors.batch.member member
  unfold SyncPush.test
  rw [Bool.eq_iff_iff,List.all_eq_true,List.all_eq_true]
  refine forall_congr' fun dep => forall_congr' fun depends => ?_
  by_cases itself : dep = entry.2.opId
  · simp [itself]
  · by_cases inside : dep ∈ opIds entries
    · have good' := apart.closed entry listed good dep ((waits_iff mirrors.batch.opIds listed).mpr ⟨depends,inside,itself⟩)
      rw [mirrors.byOpId (fun opId inCore => ((coreIds opId).mp inCore).1) fun _ => good']
      simp [itself,inside,(coreIds dep).mpr ⟨inside,good'⟩]
    · have outside : dep ∉ opIds coreEntries := fun inCore => inside ((coreIds dep).mp inCore).1
      simp [inside,outside]

/-- Both batches pick the same op of those that are not left out. -/
private theorem Mirrors.pick (apart : Apart entries start.ops bad cut)
    (coreIds : ∀ opId, opId ∈ opIds coreEntries ↔ opId ∈ opIds entries ∧ ¬bad opId)
    {entry : Nat × OpEnvelope π} (picked : SyncPush.pick (opIds entries) table remaining = some entry)
    (good : ¬bad entry.2.opId) :
    ∃ place, SyncPush.pick (opIds coreEntries) coreTable core = some (place,entry.2) := by
  have narrowed : (remaining.filter fun entry => !decide (bad entry.2.opId)).find?
      (fun entry => SyncPush.test (opIds coreEntries) coreTable entry.2) = some entry := by
    rw [List.find?_filter,← picked]
    have first := List.find?_eq_some_iff_append.mp picked
    obtain ⟨passes,before,after,split,others⟩ := first
    rw [picked,split,List.find?_append,List.find?_eq_none.mpr,Option.none_or,List.find?_cons_of_pos]
    · have same := mirrors.test apart coreIds (List.mem_of_find?_eq_some picked) good
      have passes' : SyncPush.test (opIds entries) table entry.2 = true := passes
      rw [same,passes']
      simp [good]
    · intro other member
      by_cases good' : bad other.2.opId
      · simp [good']
      · have same := mirrors.test apart coreIds (split ▸ List.mem_append_left _ member) good'
        have refuses : (!SyncPush.test (opIds entries) table other.2) = true := others other member
        rw [same]
        simpa [good'] using refuses
  have found : (SyncPush.pick (opIds coreEntries) coreTable core).map Prod.snd = some entry.2 := by
    rw [pick_map,← mirrors.left,List.find?_map]
    exact congrArg (Option.map Prod.snd) narrowed
  obtain ⟨other,found,same⟩ := Option.map_eq_some_iff.mp found
  exact ⟨other.1,by rw [found,← same]⟩

private theorem Mirrors.stuck (apart : Apart entries start.ops bad cut)
    (coreIds : ∀ opId, opId ∈ opIds coreEntries ↔ opId ∈ opIds entries ∧ ¬bad opId)
    (stuck : SyncPush.pick (opIds entries) table remaining = none) :
    SyncPush.pick (opIds coreEntries) coreTable core = none := by
  have none_ : (SyncPush.pick (opIds coreEntries) coreTable core).map Prod.snd = none := by
    rw [pick_map,← mirrors.left,List.find?_map,Option.map_eq_none_iff,List.find?_eq_none]
    intro entry member
    obtain ⟨member,good⟩ := List.mem_filter.mp member
    have waiting : (!SyncPush.test (opIds entries) table entry.2) = true := by
      simpa [SyncPush.test] using List.find?_eq_none.mp stuck entry member
    rw [Function.comp_apply,mirrors.test apart coreIds member (by simpa using good)]
    simpa using waiting
  exact Option.map_eq_none_iff.mp none_

end step

section round
variable {first head : Nat × OpEnvelope π} {rest tail : List (Nat × OpEnvelope π)} {other : Processed σ π η}

/-- A round of an op left out changes nothing but what the log says of an op that is cut. -/
private theorem Mirrors.idle
    (mirrors : Mirrors server world bad cut entries coreEntries start (first :: rest) core table coreTable s coreState)
    (apart : Apart entries start.ops bad cut)
    (made : processRound server world (opIds entries) first (first :: rest) table s = round) (bad_ : bad round.op.opId)
    (still : cut round.op.opId → Still world round) : round.result.accepted = false ∧ Agree cut round.after s := by
  unfold processRound at made
  split at made
  · rw [← made]
    exact ⟨rfl,.refl s⟩
  · next index op picked =>
    have chosen := pick_ready mirrors.batch.opIds (fun _ left => mirrors.batch.member left) picked
    have same : op = round.op := by split at made <;> rw [← made]
    split at made
    · rw [← made]
      exact ⟨rfl,.refl s⟩
    · next free =>
      have cut_ : cut op.opId := by
        by_contra kept
        obtain ⟨error,stops⟩ := mirrors.refused apart chosen.1 (same ▸ bad_) chosen.2 kept
        rw [free] at stops
        cases stops
      obtain ⟨declined,calm⟩ := still (same ▸ cut_)
      rw [← same] at calm
      rw [calm] at made
      rw [← made] at declined ⊢
      refine ⟨declined,(runOp_declined declined).1,fun opId kept => ?_⟩
      exact runOp_grows.2 opId fun itself => kept (itself ▸ cut_)

/-- A round of an op left out leaves the batch without it where it was. -/
private theorem Mirrors.idleRound
    (mirrors : Mirrors server world bad cut entries coreEntries start (first :: rest) core table coreTable s coreState)
    (apart : Apart entries start.ops bad cut)
    (made : processRound server world (opIds entries) first (first :: rest) table s = round) (bad_ : bad round.op.opId)
    (still : cut round.op.opId → Still world round) :
    Mirrors server world bad cut entries coreEntries start ((first :: rest).eraseP (·.1 = round.index)) core
      (table ++ [round]) coreTable round.after coreState := by
  have member : entryOf round ∈ first :: rest := made ▸ processRound_mem server world (opIds entries) table s List.mem_cons_self
  have answered : Answered server world round := made ▸ processRound_answered
  have found : round.before.ops = s.ops := made ▸ processRound_start.1
  have idle := mirrors.idle apart made bad_ still
  have erased := eraseP_eq_filter mirrors.batch.remaining_places mirrors.batch.remaining_opIds member
  refine ⟨mirrors.batch.step answered found member,mirrors.coreBatch,idle.2.trans mirrors.agree,?_,?_,?_,?_⟩
  · have narrowed : ((first :: rest).filter (·.2.opId ≠ round.op.opId)).filter (fun entry => !decide (bad entry.2.opId)) =
        (first :: rest).filter fun entry => !decide (bad entry.2.opId) := by
      rw [List.filter_filter]
      refine List.filter_congr fun entry _ => ?_
      by_cases same : entry.2.opId = round.op.opId
      · simp [same,bad_]
      · simp [same]
    exact (congrArg (fun list => (List.filter (fun entry => !decide (bad entry.2.opId)) list).map Prod.snd) erased).trans
      ((congrArg (List.map Prod.snd) narrowed).trans mirrors.left)
  · rw [List.filter_append,List.filter_singleton]
    simpa [bad_] using mirrors.done
  · intro other there bad'
    rcases List.mem_append.mp there with older | new
    · exact mirrors.declined other older bad'
    · rw [List.mem_singleton.mp new]
      exact idle.1
  · intro opId outside
    have listed : round.op.opId ∈ opIds entries := List.mem_map_of_mem (mirrors.batch.member member)
    rw [answered.grows.2 opId (fun same => outside (same ▸ listed)),found]
    exact mirrors.outside opId outside

private theorem Mirrors.alike
    (mirrors : Mirrors server world bad cut entries coreEntries start (first :: rest) (head :: tail) table coreTable s coreState)
    (apart : Apart entries start.ops bad cut)
    (coreIds : ∀ opId, opId ∈ opIds coreEntries ↔ opId ∈ opIds entries ∧ ¬bad opId)
    (good : ¬bad (processRound server world (opIds entries) first (first :: rest) table s).op.opId) :
    Alike cut (processRound server world (opIds entries) first (first :: rest) table s)
      (processRound server world (opIds coreEntries) head (head :: tail) coreTable coreState) := by
  cases picked : SyncPush.pick (opIds entries) table (first :: rest) with
  | none =>
    have stuck := mirrors.stuck apart coreIds picked
    unfold processRound at good ⊢
    rw [picked] at good ⊢
    rw [stuck]
    dsimp only at good ⊢
    have same : first.2 = head.2 := by
      have left := mirrors.left
      rw [List.filter_cons_of_pos (by simpa using good),List.map_cons,List.map_cons] at left
      exact (List.cons.inj left).1
    exact ⟨same,rfl,by rw [same],rfl,mirrors.agree,mirrors.agree⟩
  | some entry =>
    have same : (processRound server world (opIds entries) first (first :: rest) table s).op = entry.2 := by
      unfold processRound
      rw [picked]
      dsimp only
      split <;> rfl
    rw [same] at good
    obtain ⟨place,picked'⟩ := mirrors.pick apart coreIds picked good
    have listed := mirrors.batch.member (List.mem_of_find?_eq_some picked)
    have agree : dependencyError s.ops (SyncPush.byOpId table) entry.2.dependsOn =
        dependencyError coreState.ops (SyncPush.byOpId coreTable) entry.2.dependsOn := by
      refine dependencyError_congr fun dep depends => ⟨mirrors.agree.ops dep (apart.unread entry listed good dep depends),?_⟩
      refine mirrors.byOpId (fun opId inCore => ((coreIds opId).mp inCore).1) fun inside => ?_
      by_cases itself : dep = entry.2.opId
      · exact itself ▸ good
      · exact apart.closed entry listed good dep ((waits_iff mirrors.batch.opIds listed).mpr ⟨depends,inside,itself⟩)
    have kept : ¬cut entry.2.opId := fun cut_ => good (apart.within_ _ cut_)
    have found : Agree cut { s with rows := world.others entry.2 s.rows }
        { coreState with rows := world.others entry.2 coreState.rows } :=
      ⟨congrArg (world.others entry.2) mirrors.agree.rows,mirrors.agree.ops⟩
    have ran : Likewise cut (runOp server world entry.2 { s with rows := world.others entry.2 s.rows })
        (runOp server world entry.2 { coreState with rows := world.others entry.2 coreState.rows }) :=
      attempts_likewise found kept [0,1,2]
    unfold processRound
    rw [picked,picked']
    dsimp only
    rw [agree]
    split
    · exact ⟨rfl,rfl,rfl,rfl,mirrors.agree,mirrors.agree⟩
    · exact ⟨rfl,rfl,ran.1,ran.2.1,found,ran.2.2⟩

/-- A round of an op not left out is also the next one of the batch without these. -/
private theorem Mirrors.nextRound
    (mirrors : Mirrors server world bad cut entries coreEntries start (first :: rest) (head :: tail) table coreTable s coreState)
    (apart : Apart entries start.ops bad cut)
    (coreIds : ∀ opId, opId ∈ opIds coreEntries ↔ opId ∈ opIds entries ∧ ¬bad opId)
    (made : processRound server world (opIds entries) first (first :: rest) table s = round)
    (made' : processRound server world (opIds coreEntries) head (head :: tail) coreTable coreState = other)
    (good : ¬bad round.op.opId) :
    Mirrors server world bad cut entries coreEntries start ((first :: rest).eraseP (·.1 = round.index))
      ((head :: tail).eraseP (·.1 = other.index)) (table ++ [round]) (coreTable ++ [other]) round.after other.after := by
  have member : entryOf round ∈ first :: rest := made ▸ processRound_mem server world (opIds entries) table s List.mem_cons_self
  have member' : entryOf other ∈ head :: tail :=
    made' ▸ processRound_mem server world (opIds coreEntries) coreTable coreState List.mem_cons_self
  have answered : Answered server world round := made ▸ processRound_answered
  have answered' : Answered server world other := made' ▸ processRound_answered
  have found : round.before.ops = s.ops := made ▸ processRound_start.1
  have found' : other.before.ops = coreState.ops := made' ▸ processRound_start.1
  have alike : Alike cut round other := by
    have alike := mirrors.alike apart coreIds (made ▸ good)
    rw [made,made'] at alike
    exact alike
  have erased := eraseP_eq_filter mirrors.batch.remaining_places mirrors.batch.remaining_opIds member
  have erased' := eraseP_eq_filter mirrors.coreBatch.remaining_places mirrors.coreBatch.remaining_opIds member'
  refine ⟨mirrors.batch.step answered found member,mirrors.coreBatch.step answered' found' member',alike.after,?_,?_,?_,?_⟩
  · change (((first :: rest).eraseP (·.1 = (entryOf round).1)).filter fun entry => !decide (bad entry.2.opId)).map Prod.snd =
      ((head :: tail).eraseP (·.1 = (entryOf other).1)).map Prod.snd
    rw [erased,erased',List.filter_filter]
    simp only [Bool.and_comm (!decide (bad _))]
    rw [← List.filter_filter]
    have named (entry : Nat × OpEnvelope π) : decide (entry.2.opId ≠ (entryOf round).2.opId) =
        (fun op : OpEnvelope π => decide (op.opId ≠ other.op.opId)) entry.2 := by
      rw [← alike.op]
      rfl
    simp only [named]
    have split := congrArg (List.filter fun op : OpEnvelope π => decide (op.opId ≠ other.op.opId)) mirrors.left
    rw [List.filter_map,List.filter_map] at split
    exact split
  · rw [List.filter_append,List.filter_singleton]
    simpa [good] using List.rel_append mirrors.done (.cons alike .nil)
  · intro other' there bad'
    rcases List.mem_append.mp there with older | new
    · exact mirrors.declined other' older bad'
    · rw [List.mem_singleton.mp new] at bad'
      exact absurd bad' good
  · intro opId outside
    have listed : round.op.opId ∈ opIds entries := List.mem_map_of_mem (mirrors.batch.member member)
    rw [answered.grows.2 opId (fun same => outside (same ▸ listed)),found]
    exact mirrors.outside opId outside

end round

/-- The rounds of a batch but for those left out are the rounds of the batch without these. -/
theorem Mirrors.run (apart : Apart entries start.ops bad cut)
    (coreIds : ∀ opId, opId ∈ opIds coreEntries ↔ opId ∈ opIds entries ∧ ¬bad opId) (fuel : Nat) :
    ∀ {remaining core : List (Nat × OpEnvelope π)} {table coreTable : List (Processed σ π η)} {s coreState : State σ η}
      {coreFuel : Nat},
      Mirrors server world bad cut entries coreEntries start remaining core table coreTable s coreState →
        remaining.length ≤ fuel → core.length ≤ coreFuel →
          (∀ round ∈ (processOps server world (opIds entries) fuel remaining table s).1, cut round.op.opId →
            Still world round) →
          List.Forall₂ (Alike cut)
            ((processOps server world (opIds entries) fuel remaining table s).1.filter fun round => !decide (bad round.op.opId))
            (processOps server world (opIds coreEntries) coreFuel core coreTable coreState).1 := by
  induction fuel with
  | zero =>
    intro remaining core table coreTable s coreState coreFuel mirrors short _ _
    obtain rfl := List.length_eq_zero_iff.mp (Nat.le_zero.mp short)
    have empty : core = [] := List.map_eq_nil_iff.mp mirrors.left.symm
    rw [empty,processOps_nil,processOps_nil]
    exact mirrors.done
  | succ fuel induction =>
    intro remaining core table coreTable s coreState coreFuel mirrors short coreShort still
    cases remaining with
    | nil =>
      have empty : core = [] := List.map_eq_nil_iff.mp mirrors.left.symm
      rw [empty,processOps_nil,processOps_nil]
      exact mirrors.done
    | cons first rest =>
      rw [processOps] at still ⊢
      generalize made : processRound server world (opIds entries) first (first :: rest) table s = round at still ⊢
      have member : entryOf round ∈ first :: rest := made ▸ processRound_mem server world (opIds entries) table s List.mem_cons_self
      have shorter : ((first :: rest).eraseP (·.1 = round.index)).length ≤ fuel := by
        rw [List.length_eraseP_of_mem member (by simp [entryOf])]
        exact Nat.sub_le_of_le_add short
      have listed : round ∈ (processOps server world (opIds entries) fuel ((first :: rest).eraseP (·.1 = round.index))
          (table ++ [round]) round.after).1 := by
        obtain ⟨rounds,split,-⟩ := processOps_chain server world (opIds entries) fuel
          ((first :: rest).eraseP (·.1 = round.index)) (table ++ [round]) round.after
        rw [split]
        simp
      by_cases bad_ : bad round.op.opId
      · exact induction (mirrors.idleRound apart made bad_ (still round listed)) shorter coreShort still
      · have kept : round.op ∈ core.map Prod.snd := by
          rw [← mirrors.left]
          exact List.mem_map.mpr ⟨entryOf round,List.mem_filter.mpr ⟨member,by simp [entryOf,bad_]⟩,rfl⟩
        cases core with
        | nil => cases kept
        | cons head tail =>
          cases coreFuel with
          | zero => cases coreShort
          | succ coreFuel =>
            rw [processOps]
            generalize made' : processRound server world (opIds coreEntries) head (head :: tail) coreTable coreState = other
            have member' : entryOf other ∈ head :: tail :=
              made' ▸ processRound_mem server world (opIds coreEntries) coreTable coreState List.mem_cons_self
            have coreShorter : ((head :: tail).eraseP (·.1 = other.index)).length ≤ coreFuel := by
              rw [List.length_eraseP_of_mem member' (by simp [entryOf])]
              exact Nat.sub_le_of_le_add coreShort
            exact induction (mirrors.nextRound apart coreIds made made' bad_) shorter coreShorter still

variable {gone : Nat → Prop} {raws : List (RawOp π)}

open Classical in
/-- The request without the ops of these ids. -/
noncomputable def without (server : Server π η) (gone : Nat → Prop) (raws : List (RawOp π)) : List (RawOp π) :=
  raws.filter fun raw => !decide (∃ op, parseOp server raw = .ok op ∧ gone op.opId)

omit [DecidableEq η] in
open Classical in
/-- Dropping the entries of some op ids keeps the first ops of the others. -/
theorem firstOps_filter (gone : Nat → Prop) (raws : List (RawOp π)) : ∀ (index index' : Nat) (seen seen' : List Nat),
    (∀ opId, ¬gone opId → (opId ∈ seen ↔ opId ∈ seen')) →
      (firstOps server index' seen' (raws.filter fun raw =>
          !decide (∃ op, parseOp server raw = .ok op ∧ gone op.opId))).map Prod.snd =
        ((firstOps server index seen raws).map Prod.snd).filter fun op => !decide (gone op.opId) := by
  induction raws with
  | nil => exact fun _ _ _ _ _ => rfl
  | cons raw rest induction =>
    intro index index' seen seen' agree
    rw [List.filter_cons,firstOps]
    cases parsed : parseOp server raw with
    | error result =>
      simp only [reduceCtorEq,false_and,exists_false,decide_false,Bool.not_false,if_true]
      rw [firstOps,parsed]
      exact induction (index + 1) (index' + 1) seen seen' agree
    | ok op =>
      dsimp only
      by_cases dropped : gone op.opId
      · rw [if_neg (by simpa using dropped)]
        split
        · exact induction (index + 1) index' seen seen' agree
        · rw [List.map_cons,List.filter_cons_of_neg (by simpa using dropped)]
          refine induction (index + 1) index' (op.opId :: seen) seen' fun opId kept => ?_
          rw [← agree opId kept,List.mem_cons,or_iff_right]
          rintro rfl
          exact kept dropped
      · rw [if_pos (by simpa using dropped),firstOps,parsed]
        dsimp only
        have same : seen'.contains op.opId = seen.contains op.opId := by
          rw [Bool.eq_iff_iff,List.contains_iff_mem,List.contains_iff_mem,agree op.opId dropped]
        rw [same]
        split
        · exact induction (index + 1) (index' + 1) seen seen' agree
        · rw [List.map_cons,List.map_cons,List.filter_cons_of_pos (by simpa using dropped)]
          refine congrArg (op :: ·) (induction (index + 1) (index' + 1) _ _ fun opId kept => ?_)
          rw [List.mem_cons,List.mem_cons,agree opId kept]

abbrev firsts (server : Server π η) (raws : List (RawOp π)) : List (Nat × OpEnvelope π) := firstOps server 0 [] raws

omit [DecidableEq η] in
theorem mem_without (op : OpEnvelope π) : op ∈ (firsts server (without server gone raws)).map Prod.snd ↔
    op ∈ (firsts server raws).map Prod.snd ∧ ¬gone op.opId := by
  unfold without
  rw [firstOps_filter gone raws 0 0 [] [] fun _ _ => Iff.rfl,List.mem_filter]
  simp

omit [DecidableEq η] in
theorem mem_without_opIds (opId : Nat) : opId ∈ opIds (firsts server (without server gone raws)) ↔
    opId ∈ opIds (firsts server raws) ∧ ¬gone opId := by
  have named (entries : List (Nat × OpEnvelope π)) : opId ∈ opIds entries ↔ ∃ op ∈ entries.map Prod.snd, op.opId = opId := by
    rw [← List.mem_map,List.map_map]
    rfl
  rw [named,named]
  constructor
  · rintro ⟨op,member,rfl⟩
    obtain ⟨inside,kept⟩ := (mem_without op).mp member
    exact ⟨⟨op,inside,rfl⟩,kept⟩
  · rintro ⟨⟨op,member,rfl⟩,kept⟩
    exact ⟨op,(mem_without op).mpr ⟨member,kept⟩,rfl⟩

omit [DecidableEq η] in
theorem without_original {entry : Nat × OpEnvelope π} (member : entry ∈ firsts server (without server gone raws)) :
    ∃ other ∈ firsts server raws, other.2 = entry.2 :=
  List.mem_map.mp ((mem_without entry.2).mp (List.mem_map_of_mem member)).1

omit [DecidableEq η] in
theorem without_waits {opId dep : Nat} (waits : Waits (firsts server (without server gone raws)) opId dep) :
    Waits (firsts server raws) opId dep := by
  obtain ⟨entry,member,rfl,depends,inside,itself⟩ := waits
  obtain ⟨other,listed,same⟩ := without_original member
  exact ⟨other,listed,congrArg OpEnvelope.opId same,same ▸ depends,((mem_without_opIds dep).mp inside).1,itself⟩

omit [DecidableEq η] in
private theorem filter_ops (kept : Nat → Bool) (entries : List (Nat × OpEnvelope π)) :
    (entries.filter fun entry => kept entry.2.opId).map Prod.snd = (entries.map Prod.snd).filter fun op => kept op.opId := by
  rw [List.filter_map]
  rfl

omit [DecidableEq η] in
theorem Alike.join {first second third : List (Processed σ π η)} (left : List.Forall₂ (Alike cut) first third)
    (right : List.Forall₂ (Alike cut) second third) : List.Forall₂ (Alike cut) first second := by
  induction left generalizing second with
  | nil =>
    cases right
    exact .nil
  | cons head tail induction =>
    cases right with
    | cons head' tail' =>
      refine .cons ⟨head.op.trans head'.op.symm,head.cyclic.trans head'.cyclic.symm,head.result.trans head'.result.symm,
        head.committed.trans head'.committed.symm,head.before.trans head'.before.symm,head.after.trans head'.after.symm⟩ ?_
      exact induction tail'

open Classical in
/-- The rounds not left out of a push, with and without some of the ops that are. -/
theorem undisturbed (server : Server π η) (world : World σ π) (raws : List (RawOp π)) (s : State σ η)
    (covered : ∀ opId, gone opId → bad opId) (apart : Apart (firsts server raws) s.ops bad cut)
    (apart' : Apart (firsts server (without server gone raws)) s.ops bad cut)
    (still : ∀ round ∈ (processPush server world raws s).table, cut round.op.opId → Still world round)
    (still' : ∀ round ∈ (processPush server world (without server gone raws) s).table, cut round.op.opId →
      Still world round) :
    List.Forall₂ (Alike cut)
      ((processPush server world raws s).table.filter fun round => !decide (bad round.op.opId))
      ((processPush server world (without server gone raws) s).table.filter fun round => !decide (bad round.op.opId)) := by
  let core := (firsts server raws).filter fun entry => !decide (bad entry.2.opId)
  have coreIds (opId : Nat) : opId ∈ opIds core ↔ opId ∈ opIds (firsts server raws) ∧ ¬bad opId := by
    simp only [opIds,core,List.mem_map,List.mem_filter,Bool.not_eq_true',decide_eq_false_iff_not]
    constructor
    · rintro ⟨entry,⟨member,good⟩,rfl⟩
      exact ⟨⟨entry,member,rfl⟩,good⟩
    · rintro ⟨⟨entry,member,rfl⟩,good⟩
      exact ⟨entry,⟨member,good⟩,rfl⟩
  have coreIds' (opId : Nat) : opId ∈ opIds core ↔ opId ∈ opIds (firsts server (without server gone raws)) ∧ ¬bad opId := by
    rw [coreIds,mem_without_opIds]
    exact ⟨fun ⟨inside,good⟩ => ⟨⟨inside,fun dropped => good (covered opId dropped)⟩,good⟩,
      fun ⟨⟨inside,_⟩,good⟩ => ⟨inside,good⟩⟩
  obtain ⟨places,distinct⟩ := firstOps_nodup server raws 0 []
  obtain ⟨places',distinct'⟩ := firstOps_nodup server (without server gone raws) 0 []
  have coreBatch : Batch server world core s core [] s :=
    .initial (places.sublist (List.filter_sublist.map _)) (distinct.sublist (List.filter_sublist.map _))
  have left : ((firsts server (without server gone raws)).filter fun entry => !decide (bad entry.2.opId)).map Prod.snd =
      core.map Prod.snd := by
    rw [filter_ops fun opId => !decide (bad opId),filter_ops fun opId => !decide (bad opId)]
    unfold without
    rw [firstOps_filter gone raws 0 0 [] [] fun _ _ => Iff.rfl,List.filter_filter]
    refine List.filter_congr fun op _ => ?_
    by_cases dropped : gone op.opId
    · simp [dropped,covered op.opId dropped]
    · simp [dropped]
  have mirrors : Mirrors server world bad cut (firsts server raws) core s (firsts server raws) core [] [] s s :=
    ⟨.initial places distinct,coreBatch,.refl s,rfl,.nil,fun _ member => (nomatch member),fun _ _ => rfl⟩
  have mirrors' : Mirrors server world bad cut (firsts server (without server gone raws)) core s
      (firsts server (without server gone raws)) core [] [] s s :=
    ⟨.initial places' distinct',coreBatch,.refl s,left,.nil,fun _ member => (nomatch member),fun _ _ => rfl⟩
  exact Alike.join
    (mirrors.run apart coreIds _ (Nat.le_refl _) (Nat.le_refl core.length) still)
    (mirrors'.run apart' coreIds' _ (Nat.le_refl _) (Nat.le_refl core.length) still')

end SyncPush
