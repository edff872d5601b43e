import SasBackend.SyncDevice
import SasBackend.Semantics.ScopedDevice

/-! A device limited to some branches works as an unlimited one in front of a database that has only
the rows of its scope, as long as no write takes a row out of the scope.
-/
namespace ScopedDevice
open SyncFeed SyncDevice Paging Reader Transition

variable {user : User} {branchId : Option Nat} {scope everywhere : Scope} {d e : Database}

theorem stays_append {log first second : List Version} :
    Stays scope log (first ++ second) ↔ Stays scope log first ∧ Stays scope (log ++ first) second := by
  induction first generalizing log with
  | nil => simp [Stays]
  | cons v rest induction => simp [Stays,induction,and_assoc]

/-- The second database has the rows of the first that are in the scope, and no others. -/
structure Scoped (scope : Scope) (d e : Database) : Prop where
  whole : d.Valid
  part : e.Valid
  lastSeq : e.lastSeq = d.lastSeq
  blocked : e.blocked = d.blocked
  rows : ChangeLog.table rowKey e.log = (ChangeLog.table rowKey d.log).filter (inScope scope)

theorem exists_scoped (scope : Scope) (valid : d.Valid) : ∃ e, Scoped scope d e := by
  have sublist : ((ChangeLog.table rowKey d.log).filter (inScope scope)).Sublist d.log :=
    List.filter_sublist.trans (ChangeLog.table_sublist d.log)
  refine ⟨{ d with log := (ChangeLog.table rowKey d.log).filter (inScope scope) },?_⟩
  refine ⟨valid,⟨valid.ordered.sublist sublist,fun v member => ?_⟩,?_,?_,?_⟩
  · exact valid.bounded v (sublist.subset member)
  · simp
  · simp
  · exact ChangeLog.table_of_distinct ((ChangeLog.table_distinct d.log).sublist List.filter_sublist)

/-- The write as the rows of the scope see it. -/
def within (scope : Scope) : Write → Write
  | .commit versions lastSeq => .commit (versions.filter (inScope scope)) lastSeq
  | .subscription blocked => .subscription blocked

private theorem table_within {log part versions : List Version}
    (rows : ChangeLog.table rowKey part = (ChangeLog.table rowKey log).filter (inScope scope))
    (stays : Stays scope log versions) :
    ChangeLog.table rowKey (part ++ versions.filter (inScope scope)) =
      (ChangeLog.table rowKey (log ++ versions)).filter (inScope scope) := by
  induction versions generalizing log part with
  | nil => simpa using rows
  | cons v rest induction =>
    obtain ⟨first,others⟩ := stays
    rw [List.append_cons log v rest]
    by_cases inside : inScope scope v = true
    · rw [List.filter_cons_of_pos inside,List.append_cons]
      refine induction ?_ others
      rw [ChangeLog.table_append_singleton,ChangeLog.table_append_singleton,rows,List.filter_append,
        List.filter_comm,List.filter_cons_of_pos inside,List.filter_nil]
    · rw [List.filter_cons_of_neg inside]
      refine induction ?_ others
      rw [ChangeLog.table_append_singleton,List.filter_append,List.filter_cons_of_neg inside,List.filter_nil,
        List.append_nil,List.filter_filter,rows]
      refine List.filter_congr fun u listed => ?_
      by_cases shown : inScope scope u = true
      · have apart : rowKey u ≠ rowKey v := fun same => inside (first u listed same shown)
        simp [shown,apart]
      · simp [shown]

theorem Scoped.write {d' : Database} {w : Write} (slice : Scoped scope d e) (stays : Stays scope d.log (versions w))
    (written : d.write w = some d') : ∃ e', e.write (within scope w) = some e' ∧ Scoped scope d' e' := by
  have valid := (write_extends d w d' written).valid slice.whole
  suffices answered : ∃ e', e.write (within scope w) = some e' ∧ e'.lastSeq = d'.lastSeq ∧
      e'.blocked = d'.blocked ∧
      ChangeLog.table rowKey e'.log = (ChangeLog.table rowKey d'.log).filter (inScope scope) by
    obtain ⟨e',taken,lastSeq,blocked,rows⟩ := answered
    exact ⟨e',taken,valid,(write_extends _ _ _ taken).valid slice.part,lastSeq,blocked,rows⟩
  cases w with
  | subscription blocked =>
    cases written
    exact ⟨_,rfl,slice.lastSeq,rfl,slice.rows⟩
  | commit versions lastSeq =>
    rw [Database.write] at written
    split at written
    · next guards =>
      obtain ⟨ascending,between,grown⟩ := guards
      cases written
      rw [within,Database.write,if_pos]
      · exact ⟨_,rfl,rfl,slice.blocked,table_within slice.rows stays⟩
      · refine ⟨ascending.sublist List.filter_sublist,fun v member => ?_,?_⟩
        · rw [slice.lastSeq]
          exact between v (List.mem_filter.mp member).1
        · rw [slice.lastSeq]
          exact grown
    · cases written

/-- The writes to come keep the rows of the scope in it. -/
def Fits (scope : Scope) (d : Database) (pending : List Write) : Prop :=
  Stays scope d.log (pending.flatMap versions)

private theorem written_log {d' : Database} {w : Write} (written : d.write w = some d') :
    d'.log = d.log ++ versions w := by
  cases w with
  | subscription blocked =>
    cases written
    simp [versions]
  | commit rows lastSeq =>
    rw [Database.write] at written
    split at written
    · cases written
      rfl
    · cases written

theorem Scoped.next (d e : Database) (w : Write) (rest : List Write) (d' : Database) (slice : Scoped scope d e)
    (fits : Fits scope d (w :: rest)) (written : d.write w = some d') :
    ∃ e', e.write (within scope w) = some e' ∧ Scoped scope d' e' ∧ Fits scope d' rest := by
  rw [Fits,List.flatMap_cons,stays_append] at fits
  obtain ⟨e',taken,slice'⟩ := slice.write fits.1 written
  refine ⟨e',taken,slice',?_⟩
  rw [Fits,written_log written]
  exact fits.2

private theorem rows_scoped (slice : Scoped scope d e) (entity : Entity) :
    e.rows entity = (d.rows entity).filter (inScope scope) := by
  rw [Database.rows,Database.rows,slice.rows,List.filter_comm]

section Statements
variable (wide : everywhere.branches = none) (slice : Scoped scope d e)
include wide slice

theorem fetched_scoped (since : Int) (entity : Entity) :
    fetched scope since entity d = fetched everywhere since entity e := by
  rw [fetched,fetched,rows_scoped slice,List.filter_filter]
  refine List.filter_congr fun v _ => ?_
  simp [inScope,wide]

theorem selectChanges_scoped (since : Int) (limit : Nat) (entity : Entity) :
    selectChanges scope since limit entity d = selectChanges everywhere since limit entity e := by
  have same := fetched_scoped wide slice since entity
  rw [fetched,fetched] at same
  rw [selectChanges,selectChanges,same]

theorem selectLive_scoped (afterId : Option Nat) (limit : Nat) (entity : Entity) :
    selectLive scope afterId limit entity d = selectLive everywhere afterId limit entity e := by
  rw [selectLive,selectLive,rows_scoped slice,List.filter_filter]
  congr 2
  refine List.filter_congr fun v _ => ?_
  simp [inScope,wide]

end Statements

private theorem selectChanges_alike (wide : everywhere.branches = none) (since : Int) (limit : Nat)
    (entity : Entity) : Alike (Scoped scope) (.select (selectChanges scope since limit entity))
      (.select (selectChanges everywhere since limit entity)) :=
  .select fun _ _ slice => selectChanges_scoped wide slice since limit entity

private theorem selectLive_alike (wide : everywhere.branches = none) (afterId : Option Nat) (limit : Nat)
    (entity : Entity) : Alike (Scoped scope) (.select (selectLive scope afterId limit entity))
      (.select (selectLive everywhere afterId limit entity)) :=
  .select fun _ _ slice => selectLive_scoped wide slice afterId limit entity

/-- The user without the limit to some branches. -/
def unlimited (user : User) : User := { user with allowedBranches := none }

theorem pull_alike (allowed : buildScope user branchId = .ok scope) (retention : Nat) (since : Cursor)
    (limit : Option Int) (now : Nat) :
    Alike (Scoped scope) (pull retention user since limit branchId now)
      (pull retention (unlimited user) since limit none now) := by
  have resumed (head : Nat) : resume retention (unlimited user) since now head =
      resume retention user since now head := rfl
  rw [pull,pull]
  refine .bind (.select fun d e slice => slice.blocked.symm) fun restricted => ?_
  rw [allowed]
  refine .bind (.select fun d e slice => slice.lastSeq.symm) fun head => ?_
  rw [resumed]
  cases resume retention user since now head with
  | error failure => exact .done _
  | ok cursor =>
    obtain ⟨sinceSeq,reason⟩ := cursor
    cases reason with
    | some reason => exact .done _
    | none =>
      have statements (since : Int) (limit : Nat) (entities : List Entity) :
          Alike (Scoped scope) (entities.mapM fun entity => .select (selectChanges scope since limit entity))
            (entities.mapM fun entity => .select (selectChanges ⟨user.id,none⟩ since limit entity)) :=
        .mapM (fun entity => selectChanges_alike rfl since limit entity) entities
      cases restricted with
      | true => exact .bind (statements _ _ _) fun groups => .done _
      | false => exact .bind (statements _ _ _) fun groups => .done _

private theorem snapshotPage_alike (wide : everywhere.branches = none) (limit : Nat)
    (token : Nat → Option Nat → Token) (entities : List Entity) (index : Nat) (afterId : Option Nat)
    (changes : List Change) :
    Alike (Scoped scope) (snapshotPage scope limit token entities index afterId changes)
      (snapshotPage everywhere limit token entities index afterId changes) := by
  induction entities generalizing index afterId changes with
  | nil => exact .done _
  | cons entity rest induction =>
    rw [snapshotPage,snapshotPage]
    dsimp only
    split
    · exact .done _
    · refine .bind (selectLive_alike wide _ _ _) fun rows => ?_
      split
      · exact .done _
      · exact induction _ _ _

theorem snapshot_alike (allowed : buildScope user branchId = .ok scope) (pageToken : Cursor)
    (limit : Option Int) (now : Nat) :
    Alike (Scoped scope) (snapshot user pageToken limit branchId now)
      (snapshot (unlimited user) pageToken limit none now) := by
  have page (restricted : Bool) (start index : Nat) (afterId : Option Nat) :
      Alike (Scoped scope) (snapshotFrom user limit scope restricted now start index afterId)
        (snapshotFrom (unlimited user) limit ⟨user.id,none⟩ restricted now start index afterId) :=
    .bind (snapshotPage_alike rfl _ _ _ _ _ _) fun served => .done _
  have positioned (token : Token) : pageStart (unlimited user) token = pageStart user token := by
    cases token <;> rfl
  rw [snapshot,snapshot]
  refine .bind (.select fun d e slice => slice.blocked.symm) fun restricted => ?_
  rw [allowed]
  cases pageToken with
  | none => exact .bind (.select fun d e slice => slice.lastSeq.symm) fun start => page restricted start 0 none
  | some given =>
    cases given with
    | none => exact .done _
    | some token =>
      dsimp only
      rw [positioned]
      cases pageStart user token with
      | error failure => exact .done _
      | ok position => exact page restricted _ _ _

section Pull
variable {names : List Entity} {views parts : List Database}

private theorem seen_scoped (wide : everywhere.branches = none) (since : Int)
    (paired : List.Forall₂ (Scoped scope) views parts) :
    seen scope since (names.zip views) = seen everywhere since (names.zip parts) := by
  induction paired generalizing names with
  | nil => simp [seen]
  | cons slice _ induction => cases names with
    | nil => rfl
    | cons entity names =>
      have rest : seen scope since (names.zip _) = seen everywhere since (names.zip _) := induction
      simp only [seen] at rest
      simp only [seen,List.zip_cons_cons,List.flatMap_cons,rest,fetched_scoped wide slice since entity]

private theorem paired_right {entity : Entity} {part : Database} (paired : List.Forall₂ (Scoped scope) views parts)
    (member : (entity,part) ∈ names.zip parts) : ∃ view, (entity,view) ∈ names.zip views ∧ Scoped scope view part := by
  induction paired generalizing names with
  | nil => simp at member
  | cons slice _ induction => cases names with
    | nil => simp at member
    | cons first names =>
      rw [List.zip_cons_cons,List.mem_cons] at member
      rcases member with here | later
      · obtain ⟨rfl,rfl⟩ := Prod.mk.inj here
        exact ⟨_,List.mem_cons_self,slice⟩
      · obtain ⟨view,listed,related⟩ := induction later
        exact ⟨view,List.mem_cons_of_mem _ listed,related⟩

private theorem current_scoped (slice : Scoped scope d e) (v : Version) :
    Current e v ↔ Current d v ∧ inScope scope v = true := by
  have part : v ∈ ChangeLog.table rowKey e.log ↔ Current e v := ChangeLog.mem_table slice.part.ordered
  rw [slice.rows,List.mem_filter,ChangeLog.mem_table slice.whole.ordered] at part
  exact part.symm

theorem overtaken_scoped (wide : everywhere.branches = none) {since limit : Nat}
    (paired : List.Forall₂ (Scoped scope) views parts) (slice : Scoped scope d e)
    (before : ∀ view ∈ views, Extends view d) (overtaken : Overtaken everywhere since limit (names.zip parts) e.log) :
    Overtaken scope since limit (names.zip views) d.log := by
  obtain ⟨v,part,current,later,statement,late,above,low⟩ := overtaken
  obtain ⟨view,listed,related⟩ := paired_right paired statement
  obtain ⟨current',inside⟩ := (current_scoped slice v).mp current
  rw [← seen_scoped wide since paired] at above low
  refine ⟨v,view,current',later,listed,fun logged => late ?_,above,low⟩
  have earlier := before view (List.of_mem_zip listed).2
  exact ((current_scoped related v).mpr ⟨current'.of_prefix earlier.prefixed logged,inside⟩).1

end Pull

def writes : Action → List Write
  | .write write => [write]
  | .page _ _ gaps | .pull _ _ gaps => gaps.flatten

/-- Once a snapshot has begun no write takes a row of the scope out of it; no snapshot page is served
while the subscription blocks the business, and no pull is overtaken by a commit between its statements. -/
structure Sound (retention : Nat) (user : User) (branchId : Option Nat) (w : World) (a : Action) : Prop where
  stays : ∀ scope, buildScope user branchId = .ok scope →
    (w.phase = .paging none ∧ ∃ write, a = .write write) ∨ Stays scope w.db.log ((writes a).flatMap versions)
  unblocked : ∀ limit now gap rest, a = .page limit now (gap :: rest) →
    ∀ d, gap.foldlM Database.write w.db = some d → d.blocked = false
  undisturbed : ∀ scope, buildScope user branchId = .ok scope → ∀ limit now gaps, a = .pull limit now gaps →
    ∀ cursor r final, w.phase = .pulling cursor →
      run Database.write (pull retention user (some (some cursor)) limit branchId now) w.db gaps = some r →
      r.later.flatten.foldlM Database.write r.database = some final →
      ∀ first head rest, r.views = first :: head :: rest → first.blocked = false →
        ¬Overtaken scope cursor.seq (clamp limit) ((visibleEntities user false).zip rest) final.log

/-- The device in front of another database. -/
def facing (w : World) (e : Database) : World := { w with db := e }

theorem facing_page (w : World) (token : Option Token) (d e before : Database)
    (answer : Except Failure SnapshotResponse) :
    facing (takePage w token d answer) e = takePage (facing w before) token e answer := by
  cases answer <;> rfl

theorem facing_pull (w : World) (cursor : Token) (quiet : Bool) (d e before : Database)
    (answer : Except Failure PullResponse) :
    facing (takePull w cursor quiet d answer) e = takePull (facing w before) cursor quiet e answer := by
  cases answer with
  | error failure => rfl
  | ok response =>
    rw [takePull,takePull]
    split <;> rfl

private theorem request_scoped {α : Type} {p q : Reader Database α} (alike : Alike (Scoped scope) p q)
    (slice : Scoped scope d e) {gaps : List (List Write)} (stays : Fits scope d gaps.flatten)
    {r : Result Database Write α} (ran : run Database.write p d gaps = some r) {final : Database}
    (finished : r.later.flatten.foldlM Database.write r.database = some final) :
    ∃ t final', run Database.write q e (gaps.map (List.map (within scope))) = some t ∧ t.answer = r.answer ∧
      t.later.flatten.foldlM Database.write t.database = some final' ∧ Scoped scope final final' ∧
      List.Forall₂ (Scoped scope) r.views t.views := by
  obtain ⟨t,run',answer,slice',fits,later,views⟩ := run_simulated Scoped.next alike slice stays ran
  obtain ⟨final',ended,slice'',_⟩ := writes_simulated Scoped.next slice'
    (show Fits scope r.database (r.later.flatten ++ []) by simpa using fits) finished
  refine ⟨t,final',run',answer,?_,slice'',views⟩
  rw [later,← List.map_flatten]
  exact ended

/-- The device is an unlimited one in front of the rows of the scope. -/
def Mirrored (user : User) (scope : Scope) (w : World) : Prop :=
  ∃ e, Scoped scope w.db e ∧ SyncDevice.Invariant (unlimited user) (facing w e)

variable {retention : Nat} {w w' : World}

private theorem Mirrored.write {write : Write} (mirrored : Mirrored user scope w)
    (stays : w.phase = .paging none ∨ Stays scope w.db.log (versions write))
    (taken : next retention user branchId w (.write write) = some w') : Mirrored user scope w' := by
  obtain ⟨e,slice,invariant⟩ := mirrored
  obtain ⟨db,written,rfl⟩ := Option.map_eq_some_iff.mp taken
  rcases stays with phase | stays
  · -- a device that has not begun its snapshot may as well face the rows the scope has now
    obtain ⟨e',slice'⟩ := exists_scoped scope ((write_extends _ _ _ written).valid slice.whole)
    refine ⟨e',slice',slice'.part,?_,fun started => absurd phase started,fun impossible => by cases impossible⟩
    have placed : (facing { w with db := db, settled := false } e').phase = .paging none := phase
    rw [placed]
    trivial
  · obtain ⟨e',taken',slice'⟩ := slice.write stays written
    have mapped : SyncDevice.next retention (unlimited user) (facing w e) (.write (within scope write)) =
        some (facing { w with db := db, settled := false } e') := Option.map_eq_some_iff.mpr ⟨e',taken',rfl⟩
    exact ⟨e',slice',invariant.step (a := .write (within scope write)) rfl trivial mapped⟩

private theorem Mirrored.page {limit : Option Int} {now : Nat} {gaps : List (List Write)}
    (allowed : buildScope user branchId = .ok scope) (mirrored : Mirrored user scope w)
    (stays : Stays scope w.db.log (gaps.flatten.flatMap versions))
    (unblocked : ∀ gap rest, gaps = gap :: rest → ∀ d, gap.foldlM Database.write w.db = some d → d.blocked = false)
    (taken : next retention user branchId w (.page limit now gaps) = some w') : Mirrored user scope w' := by
  obtain ⟨e,slice,invariant⟩ := mirrored
  simp only [next] at taken
  cases phase : w.phase with
  | pulling cursor =>
    rw [phase] at taken
    cases taken
  | paging token =>
    rw [phase] at taken
    obtain ⟨r,ran,rest⟩ := Option.bind_eq_some_iff.mp taken
    obtain ⟨db,finished,rfl⟩ := Option.map_eq_some_iff.mp rest
    obtain ⟨t,final,run',answer,ended,slice',_⟩ :=
      request_scoped (snapshot_alike allowed (token.map some) limit now) slice stays ran finished
    have open_ : SyncDevice.Sound retention (unlimited user) (facing w e)
        (.page limit now (gaps.map (List.map (within scope)))) := by
      intro gap rest split d applied
      rw [snapshot] at ran
      obtain ⟨one,_,blocked,_,_⟩ := run_bind_success ran
      obtain ⟨first,same,written,_⟩ := run_select blocked
      rw [same] at split stays
      obtain ⟨e',applied',slice'',_⟩ := writes_simulated Scoped.next slice
        (show Fits scope w.db (first ++ one.later.flatten) by simpa [Fits] using stays) written
      obtain ⟨rfl,_⟩ := List.cons.inj split
      cases applied'.symm.trans applied
      rw [slice''.blocked]
      exact unblocked first one.later same _ written
    have taken' : SyncDevice.next retention (unlimited user) (facing w e)
        (.page limit now (gaps.map (List.map (within scope)))) = some (facing (takePage w token db r.answer) final) := by
      have phase' : (facing w e).phase = .paging token := phase
      simp only [SyncDevice.next,phase']
      refine Option.bind_eq_some_iff.mpr ⟨t,run',Option.map_eq_some_iff.mpr ⟨final,ended,?_⟩⟩
      rw [facing_page w token db final e,answer]
    refine ⟨final,?_,invariant.page rfl open_ taken'⟩
    have database : (takePage w token db r.answer).db = db := by
      cases r.answer <;> rfl
    rw [database]
    exact slice'

private theorem Mirrored.pull {limit : Option Int} {now : Nat} {gaps : List (List Write)}
    (allowed : buildScope user branchId = .ok scope) (mirrored : Mirrored user scope w)
    (sound : Sound retention user branchId w (.pull limit now gaps))
    (taken : next retention user branchId w (.pull limit now gaps) = some w') : Mirrored user scope w' := by
  have stays := (sound.stays scope allowed).resolve_left (by simp)
  obtain ⟨e,slice,invariant⟩ := mirrored
  simp only [next] at taken
  cases phase : w.phase with
  | paging token =>
    rw [phase] at taken
    cases taken
  | pulling cursor =>
    rw [phase] at taken
    obtain ⟨r,ran,rest⟩ := Option.bind_eq_some_iff.mp taken
    obtain ⟨db,finished,rfl⟩ := Option.map_eq_some_iff.mp rest
    obtain ⟨t,final,run',answer,ended,slice',views⟩ :=
      request_scoped (pull_alike allowed retention (some (some cursor)) limit now) slice stays ran finished
    have ordered := (List.pairwise_cons.mp (run_ordered Extends.refl Extends.trans write_extends ran)).2
    have after := writes_ordered Extends.refl Extends.trans write_extends finished
    have undisturbed : SyncDevice.Sound retention (unlimited user) (facing w e)
        (.pull limit now (gaps.map (List.map (within scope)))) := by
      intro cursor' t' final' phase' ran' ended' first' head' rest' parts open_ overtaken
      cases phase'.symm.trans (show (facing w e).phase = .pulling cursor from phase)
      cases run'.symm.trans ran'
      cases ended.symm.trans ended'
      rw [parts] at views
      obtain ⟨first,_,one,more,whole⟩ := List.forall₂_cons_right_iff.mp views
      obtain ⟨head,rest,_,others,rfl⟩ := List.forall₂_cons_right_iff.mp more
      refine sound.undisturbed scope allowed limit now gaps rfl cursor r db phase ran finished first head rest whole
        (one.blocked.symm.trans open_) (overtaken_scoped rfl others slice' (fun view member => ?_) overtaken)
      have listed : view ∈ r.views := by simp [whole,member]
      exact ((List.pairwise_append.mp ordered).2.2 view listed r.database (by simp)).trans _ _ _ after
    have taken' : SyncDevice.next retention (unlimited user) (facing w e)
        (.pull limit now (gaps.map (List.map (within scope)))) =
          some (facing (takePull w cursor gaps.flatten.isEmpty db r.answer) final) := by
      have phase' : (facing w e).phase = .pulling cursor := phase
      have quiet : (gaps.map (List.map (within scope))).flatten.isEmpty = gaps.flatten.isEmpty := by
        rw [← List.map_flatten,List.isEmpty_map]
      simp only [SyncDevice.next,phase']
      refine Option.bind_eq_some_iff.mpr ⟨t,run',Option.map_eq_some_iff.mpr ⟨final,ended,?_⟩⟩
      rw [facing_pull w cursor gaps.flatten.isEmpty db final e,answer,quiet]
    refine ⟨final,?_,invariant.pull rfl undisturbed taken'⟩
    have database : (takePull w cursor gaps.flatten.isEmpty db r.answer).db = db := by
      cases r.answer with
      | error failure => rfl
      | ok response =>
        rw [takePull]
        split <;> rfl
    rw [database]
    exact slice'

theorem Mirrored.step {a : Action} (allowed : buildScope user branchId = .ok scope) (mirrored : Mirrored user scope w)
    (sound : Sound retention user branchId w a) (taken : next retention user branchId w a = some w') :
    Mirrored user scope w' := by
  have stays := sound.stays scope allowed
  cases a with
  | write write => exact mirrored.write (stays.imp And.left fun stays => by simpa [writes] using stays) taken
  | page limit now gaps =>
    exact mirrored.page allowed (stays.resolve_left (by simp)) (fun gap rest same => sound.unblocked limit now gap rest
      (by rw [same])) taken
  | pull limit now gaps => exact mirrored.pull allowed sound taken

theorem Mirrored.initial (initial : Initial w) : Mirrored user scope w := by
  obtain ⟨phase,unsettled,ordered,bounded⟩ := initial
  obtain ⟨e,slice⟩ := exists_scoped scope ⟨ordered,bounded⟩
  exact ⟨e,slice,.initial ⟨phase,unsettled,slice.part.ordered,slice.part.bounded⟩⟩

/-- Requests with a branch the user may not touch are refused, so nothing settles. -/
theorem refused_unsettled {failure : Failure} (refused : buildScope user branchId = .error failure) {a : Action}
    (taken : next retention user branchId w a = some w') : w'.settled = false := by
  cases a with
  | write write =>
    obtain ⟨db,_,rfl⟩ := Option.map_eq_some_iff.mp taken
    rfl
  | page limit now gaps =>
    simp only [next] at taken
    cases phase : w.phase with
    | pulling cursor =>
      rw [phase] at taken
      cases taken
    | paging token =>
      rw [phase] at taken
      obtain ⟨r,_,rest⟩ := Option.bind_eq_some_iff.mp taken
      obtain ⟨db,_,rfl⟩ := Option.map_eq_some_iff.mp rest
      cases r.answer <;> rfl
  | pull limit now gaps =>
    simp only [next] at taken
    cases phase : w.phase with
    | paging token =>
      rw [phase] at taken
      cases taken
    | pulling cursor =>
      rw [phase] at taken
      obtain ⟨r,ran,rest⟩ := Option.bind_eq_some_iff.mp taken
      obtain ⟨db,_,rfl⟩ := Option.map_eq_some_iff.mp rest
      rw [pull] at ran
      obtain ⟨_,_,_,answered,rfl⟩ := run_bind_success ran
      rw [refused] at answered
      cases answered
      rfl

theorem Mirrored.complete (allowed : buildScope user branchId = .ok scope) (mirrored : Mirrored user scope w)
    (settled : w.settled = true) : Complete user branchId w := by
  obtain ⟨e,slice,invariant⟩ := mirrored
  have rows (v : Version) : Live (unlimited user) e v ↔ Served user branchId w.db v := by
    rw [Live,Served,Live,rows_scoped slice,List.mem_filter]
    have seen : visibleEntities (unlimited user) false = visibleEntities user false := rfl
    rw [seen,allowed]
    constructor
    · rintro ⟨visible,⟨row,inside⟩,alive⟩
      exact ⟨⟨visible,row,alive⟩,scope,rfl,inside⟩
    · rintro ⟨⟨visible,row,alive⟩,_,same,inside⟩
      cases same
      exact ⟨visible,⟨row,inside⟩,alive⟩
  intro entity id seq
  have held := invariant.complete settled entity id seq
  simp only [facing,rows] at held
  exact held

/-- Where no write takes a row out of the scope, a quiet pull that leaves no rows ends with exactly the rows
a fresh snapshot serves the user. -/
theorem replica_converges_in_scope {retention : Nat} {user : User} {branchId : Option Nat} {w : World}
    (reached : Reachable Initial (Restricted (Sound retention user branchId) (OfNext (next retention user branchId))) w)
    (settled : w.settled = true) : Complete user branchId w := by
  cases allowed : buildScope user branchId with
  | error failure =>
    have unsettled : w.settled = false := reached.invariant (fun _ start => start.2.1)
      fun _ _ _ _ taken => refused_unsettled allowed taken.2
    rw [unsettled] at settled
    cases settled
  | ok scope =>
    have mirrored : Mirrored user scope w := reached.invariant (fun _ => Mirrored.initial)
      fun _ _ _ kept taken => kept.step allowed taken.1 taken.2
    exact mirrored.complete allowed settled

private def clerk : User := ⟨5,1,[.usersView],7,some [10]⟩

private def staffed (branch : Nat) : Database := ⟨[⟨.user,3,1,false,some branch⟩],1,false⟩

private def moved (origin target : Nat) : Database :=
  ⟨[⟨.user,3,1,false,some origin⟩,⟨.user,3,2,false,some target⟩],2,false⟩

private def starting (branch : Nat) : World := ⟨staffed branch,.paging none,fun _ => none,false⟩

private theorem starting_initial (branch : Nat) : Initial (starting branch) :=
  ⟨rfl,rfl,by simp [starting,staffed],by simp [starting,staffed]⟩

private def quietly : List (List Write) := List.replicate 5 []

private theorem sound_of_quiet {retention : Nat} {w : World} {limit : Option Int} {now : Nat}
    {gaps : List (List Write)} (quiet : gaps.flatten = []) (unblocked : w.db.blocked = false) :
    Sound retention user branchId w (.page limit now gaps) ∧ Sound retention user branchId w (.pull limit now gaps) := by
  constructor
  · refine ⟨fun scope _ => .inr (by simp [writes,quiet,Stays]),?_,fun _ _ _ _ _ impossible => by cases impossible⟩
    intro limit' now' gap rest same d applied
    cases same
    rw [List.flatten_cons,List.append_eq_nil_iff] at quiet
    rw [quiet.1] at applied
    cases applied
    exact unblocked
  · refine ⟨fun scope _ => .inr (by simp [writes,quiet,Stays]),fun _ _ _ _ impossible => (by cases impossible),?_⟩
    intro scope allowed limit' now' gaps' same cursor r final _ ran finished first head rest views _ overtaken
    cases same
    obtain ⟨database,seen_,later⟩ := run_quiet quiet ran
    rw [later,database] at finished
    cases finished
    obtain ⟨v,e,current,_,statement,late,_⟩ := overtaken
    rw [seen_ e (by rw [views]; simp [(List.of_mem_zip statement).2])] at late
    exact late current.1

private def snapshotted : World := takePage (starting 20) none (staffed 20)
  (.ok ⟨[.settings,.branch,.user],false,[],none,.pull 1 5 1 100 7⟩)

private def entered : World := { snapshotted with db := moved 20 10, settled := false }

private def caughtUp : World := takePull entered (.pull 1 5 1 100 7) true (moved 20 10)
  (.ok ⟨[.settings,.branch,.user],false,[⟨.user,3,.upsert,2⟩],some (.pull 1 5 2 100 7),false,none⟩)

theorem replica_converges_after_entering : caughtUp.replica (.user,3) = some 2 ∧ Complete clerk none caughtUp := by
  have start : Reachable Initial (Restricted (Sound 0 clerk none) (OfNext (next 0 clerk none))) (starting 20) :=
    .initial (starting_initial 20)
  have paged : next 0 clerk none (starting 20) (.page none 100 quietly) = some snapshotted := rfl
  have written : next 0 clerk none snapshotted (.write (.commit [⟨.user,3,2,false,some 10⟩] 2)) = some entered := rfl
  have pulled : next 0 clerk none entered (.pull none 100 quietly) = some caughtUp := rfl
  have enters : Sound 0 clerk none snapshotted (.write (.commit [⟨.user,3,2,false,some 10⟩] 2)) := by
    refine ⟨fun scope allowed => .inr ?_,fun _ _ _ _ impossible => (by cases impossible),
      fun _ _ _ _ _ impossible => by cases impossible⟩
    cases allowed
    exact ⟨fun _ _ _ _ => rfl,trivial⟩
  have first := start.next ⟨(sound_of_quiet rfl rfl).1,paged⟩
  have second := first.next ⟨enters,written⟩
  have third := second.next ⟨(sound_of_quiet rfl rfl).2,pulled⟩
  exact ⟨rfl,replica_converges_in_scope third rfl⟩

/-- A staff member moved to a branch outside the scope stays in the replica. -/
theorem departed_row_stays : ∃ w, Reachable Initial (OfNext (next 0 clerk none)) w ∧ w.settled = true ∧
    ¬Complete clerk none w := by
  obtain ⟨w,reached,view⟩ := reachable_of_execute (next 0 clerk none)
    (fun w => (w.settled,w.db,w.replica (.user,3)))
    [.page none 100 quietly,.write (.commit [⟨.user,3,2,false,some 20⟩] 2),.pull none 100 quietly]
    (starting_initial 10) (b := (true,moved 10 20,some 1)) (by rfl)
  obtain ⟨settled,db,held⟩ : w.settled = true ∧ w.db = moved 10 20 ∧ w.replica (.user,3) = some 1 := by
    simpa using view
  refine ⟨w,reached,settled,fun complete => ?_⟩
  obtain ⟨v,⟨live,_⟩,entity,_,seq⟩ := (complete .user 3 1).mp held
  have row : v ∈ (moved 10 20).rows .user := by
    rw [← db,← entity]
    exact live.2.1
  have only : (moved 10 20).rows .user = [⟨.user,3,2,false,some 20⟩] := by decide
  rw [only,List.mem_singleton] at row
  rw [row] at seq
  cases seq

end ScopedDevice
