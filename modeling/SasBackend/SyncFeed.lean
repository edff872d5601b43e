import Mathlib.Tactic.Common
import SasBackend.ChangeSequence
import SasBackend.Semantics.SyncFeed

/-! What a page of the feed delivers: the rows of lowest rank among those its statements saw.
Every statement of a request sees a prefix of the log the request ends with.
-/
namespace SyncFeed
open Paging Reader

structure Database.Valid (d : Database) : Prop where
  ordered : ChangeLog.Ordered Version.seq d.log
  bounded : ∀ v ∈ d.log, v.seq ≤ d.lastSeq

/-- One database follows another after some commits. -/
structure Extends (d e : Database) : Prop where
  prefixed : d.log <+: e.log
  added : ∀ v ∈ e.log, v ∈ d.log ∨ d.lastSeq < v.seq
  counter : d.lastSeq ≤ e.lastSeq
  valid : d.Valid → e.Valid

theorem Extends.refl (d : Database) : Extends d d :=
  ⟨List.prefix_refl _,fun _ => .inl,Nat.le_refl _,id⟩

theorem Extends.trans (d e f : Database) (first : Extends d e) (second : Extends e f) : Extends d f where
  prefixed := first.prefixed.trans second.prefixed
  added v member := by
    rcases second.added v member with old | new
    · exact first.added v old
    · exact .inr (Nat.lt_of_le_of_lt first.counter new)
  counter := Nat.le_trans first.counter second.counter
  valid := second.valid ∘ first.valid

theorem write_extends (d : Database) (w : Write) (e : Database) (written : d.write w = some e) :
    Extends d e := by
  cases w with
  | subscription blocked =>
    cases written
    exact ⟨List.prefix_refl _,fun _ => .inl,Nat.le_refl _,fun valid => ⟨valid.ordered,valid.bounded⟩⟩
  | commit versions lastSeq =>
    rw [Database.write] at written
    split at written
    · next guards =>
      obtain ⟨ascending,between,grown⟩ := guards
      cases written
      refine ⟨List.prefix_append _ _,fun v member => ?_,grown,fun valid => ⟨?_,fun v member => ?_⟩⟩
      · exact (List.mem_append.mp member).imp_right fun new => (between v new).1
      · refine List.pairwise_append.mpr ⟨valid.ordered,ascending,fun v old w new => ?_⟩
        exact Nat.lt_of_le_of_lt (valid.bounded v old) (between w new).1
      · rcases List.mem_append.mp member with old | new
        · exact Nat.le_trans (valid.bounded v old) grown
        · exact (between v new).2
    · cases written

/-- The feed of a business that the stamps of its committed transactions make. -/
def feedOf (s : ChangeSequence.State) (business : Nat) (describe : ChangeSequence.Stamp → Version)
    (blocked : Bool) : Database :=
  ⟨(s.history.flatten.filter (·.key.business = business)).map describe,s.counters business,blocked⟩

/-- A commit of the stamping transactions is a write of the feed. -/
theorem commit_writes_feed {s : ChangeSequence.State} {t : Nat} {x : ChangeSequence.Transaction}
    (reached : Transition.Reachable ChangeSequence.Initial ChangeSequence.Step s) (running : s.running t = some x)
    (ready : x.ready) (business : Nat) {describe : ChangeSequence.Stamp → Version}
    (described : ∀ stamp, (describe stamp).seq = stamp.seq) (blocked : Bool) :
    (feedOf s business describe blocked).write
        (.commit ((x.stamped.filter (·.key.business = business)).map describe) ((s.committed t x).counters business)) =
      some (feedOf (s.committed t x) business describe blocked) := by
  have settling := (ChangeSequence.Invariant.reachable reached).settling running ready
  have mine {stamp : ChangeSequence.Stamp} (member : stamp ∈ x.stamped.filter (·.key.business = business)) :
      stamp ∈ x.stamped ∧ stamp.key.business = business := by
    simpa using member
  rw [Database.write,if_pos]
  · simp [feedOf,ChangeSequence.State.committed]
  · refine ⟨?_,fun v member => ?_,ChangeSequence.committed_counter settling business⟩
    · rw [List.pairwise_map]
      refine (settling.ordered.sublist List.filter_sublist).imp_of_mem fun {p q} left right before => ?_
      rw [described,described]
      exact before ((mine left).2.trans (mine right).2.symm)
    · obtain ⟨stamp,listed,rfl⟩ := List.mem_map.mp member
      obtain ⟨own,rfl⟩ := mine listed
      rw [described]
      exact ⟨(settling.above stamp own).1,ChangeSequence.stamped_counter settling own⟩

/-- Rows of one entity a pull statement may return, before its limit. -/
def fetched (scope : Scope) (since : Int) (entity : Entity) (d : Database) : List Version :=
  (d.rows entity).filter fun v => since < v.seq && inScope scope v

/-- Rows all the statements of a pull may return, each entity as its own statement saw it. -/
def seen (scope : Scope) (since : Int) (statements : List (Entity × Database)) : List Version :=
  statements.flatMap fun (entity,d) => fetched scope since entity d

private theorem mem_rows {d : Database} (valid : d.Valid) {entity : Entity} {v : Version} :
    v ∈ d.rows entity ↔ ChangeLog.Current rowKey Version.seq d.log v ∧ v.entity = entity := by
  rw [Database.rows,List.mem_filter,ChangeLog.mem_table valid.ordered,decide_eq_true_eq]

private theorem mem_fetched {d : Database} (valid : d.Valid) {scope : Scope} {since : Int}
    {entity : Entity} {v : Version} : v ∈ fetched scope since entity d ↔
      ChangeLog.Current rowKey Version.seq d.log v ∧ v.entity = entity ∧ since < v.seq ∧
        inScope scope v = true := by
  rw [fetched,List.mem_filter,mem_rows valid,Bool.and_eq_true,decide_eq_true_eq]
  tauto

/-- The statements of a request whose views all lie before the database it ends with. -/
structure Statements (statements : List (Entity × Database)) (final : Database) : Prop where
  valid : final.Valid
  before : ∀ p ∈ statements, Extends p.2 final ∧ p.2.Valid
  once : (statements.map Prod.fst).Nodup

variable {scope : Scope} {since : Int} {statements : List (Entity × Database)} {final : Database}

theorem mem_seen (request : Statements statements final) {v : Version} :
    v ∈ seen scope since statements ↔ ∃ d, (v.entity,d) ∈ statements ∧
      ChangeLog.Current rowKey Version.seq d.log v ∧ since < v.seq ∧ inScope scope v = true := by
  rw [seen,List.mem_flatMap]
  constructor
  · rintro ⟨⟨entity,d⟩,member,fetched⟩
    obtain ⟨current,rfl,after,inside⟩ := (mem_fetched (request.before _ member).2).mp fetched
    exact ⟨d,member,current,after,inside⟩
  · rintro ⟨d,member,current,after,inside⟩
    exact ⟨(v.entity,d),member,(mem_fetched (request.before _ member).2).mpr ⟨current,rfl,after,inside⟩⟩

theorem seen_logged (request : Statements statements final) {v : Version}
    (member : v ∈ seen scope since statements) : v ∈ final.log := by
  obtain ⟨d,statement,current,_⟩ := (mem_seen request).mp member
  exact (request.before _ statement).1.prefixed.subset current.1

private theorem fetched_distinct {d : Database} (valid : d.Valid) (entity : Entity) :
    (fetched scope since entity d).Pairwise (·.seq ≠ ·.seq) := by
  have sub : (fetched scope since entity d).Sublist d.log :=
    (List.filter_sublist.trans List.filter_sublist).trans (ChangeLog.table_sublist d.log)
  exact (valid.ordered.sublist sub).imp Nat.ne_of_lt

private theorem seen_distinct (request : Statements statements final) :
    (seen scope since statements).Pairwise (·.seq ≠ ·.seq) := by
  rw [seen,List.flatMap_def,List.pairwise_flatten]
  constructor
  · intro group member
    obtain ⟨⟨entity,d⟩,statement,rfl⟩ := List.mem_map.mp member
    exact fetched_distinct (request.before _ statement).2 entity
  · rw [List.pairwise_map]
    refine (List.pairwise_map.mp request.once).imp_of_mem fun {p q} left right apart v first w second same => ?_
    obtain ⟨current,entity,_⟩ := (mem_fetched (request.before _ left).2).mp first
    obtain ⟨current',entity',_⟩ := (mem_fetched (request.before _ right).2).mp second
    have equal := request.valid.ordered.injective
      ((request.before _ left).1.prefixed.subset current.1)
      ((request.before _ right).1.prefixed.subset current'.1) same
    exact apart (entity.symm.trans ((congrArg Version.entity equal).trans entity'))

private theorem fetched_keys (entity : Entity) (d : Database) :
    (fetched scope since entity d).Pairwise (rowKey · ≠ rowKey ·) := by
  have table : (ChangeLog.table rowKey d.log).Pairwise (rowKey · ≠ rowKey ·) := ChangeLog.table_distinct _
  exact table.sublist (List.filter_sublist.trans List.filter_sublist)

theorem seen_keys (request : Statements statements final) :
    (seen scope since statements).Pairwise (rowKey · ≠ rowKey ·) := by
  rw [seen,List.flatMap_def,List.pairwise_flatten]
  constructor
  · intro group member
    obtain ⟨⟨entity,d⟩,_,rfl⟩ := List.mem_map.mp member
    exact fetched_keys entity d
  · rw [List.pairwise_map]
    refine (List.pairwise_map.mp request.once).imp_of_mem fun {p q} left right apart v first w second same => ?_
    obtain ⟨_,entity,_⟩ := (mem_fetched (request.before _ left).2).mp first
    obtain ⟨_,entity',_⟩ := (mem_fetched (request.before _ right).2).mp second
    exact apart (entity.symm.trans ((congrArg Prod.fst same).trans entity'))

/-- The groups a pull merges: each statement's rows in sequence order. -/
private def groups (scope : Scope) (since : Int) (statements : List (Entity × Database)) :
    List (List Version) :=
  statements.map fun p => sortBy Version.seq (fetched scope since p.1 p.2)

private theorem groups_perm : (groups scope since statements).flatten.Perm (seen scope since statements) := by
  induction statements with
  | nil => exact .nil
  | cons p rest induction =>
    rw [groups,List.map_cons,List.flatten_cons,seen,List.flatMap_cons]
    exact (sortBy_perm _).append induction

private theorem groups_ascending (request : Statements statements final) :
    ∀ group ∈ groups scope since statements, Ascending Version.seq group := by
  intro group member
  obtain ⟨⟨entity,d⟩,statement,rfl⟩ := List.mem_map.mp member
  exact sortBy_ascending (fetched_distinct (request.before _ statement).2 entity)

/-- The rows the statements return: `_select_rows` for each entity with the limit of the page plus one. -/
def returned (scope : Scope) (since : Int) (limit : Nat) (statements : List (Entity × Database)) :
    List (List Version) :=
  statements.map fun p => selectChanges scope since (limit + 1) p.1 p.2

private theorem returned_flatten (limit : Nat) :
    (returned scope since limit statements).flatten = cut limit (groups scope since statements) := by
  rw [returned,cut,groups,List.flatMap_def,List.map_map]
  rfl

theorem returned_seen {limit : Nat} {v : Version} (member : v ∈ (returned scope since limit statements).flatten) :
    v ∈ seen scope since statements := by
  rw [returned_flatten] at member
  exact groups_perm.mem_iff.mp ((cut_sublist _ _).subset member)

theorem returned_keys (request : Statements statements final) (limit : Nat) :
    (returned scope since limit statements).flatten.Pairwise (rowKey · ≠ rowKey ·) := by
  rw [returned_flatten]
  exact (groups_perm.symm.pairwise (seen_keys request) fun h => h.symm).sublist (cut_sublist _ _)

theorem mem_page (request : Statements statements final) (limit : Nat) (v : Version) :
    v ∈ (sortBy Version.seq (returned scope since limit statements).flatten).take limit ↔
      v ∈ seen scope since statements ∧ rank Version.seq (seen scope since statements) v.seq < limit := by
  have distinct : (groups scope since statements).flatten.Pairwise (·.seq ≠ ·.seq) :=
    groups_perm.symm.pairwise (seen_distinct request) fun h => h.symm
  rw [returned_flatten,mem_merged (groups_ascending request) distinct,groups_perm.mem_iff,
    rank_perm groups_perm]

/-- `mergePage` over the rows the statements return. -/
def pageOf (scope : Scope) (since limit : Nat) (statements : List (Entity × Database)) :
    List Change × Nat × Bool :=
  mergePage (statements.map Prod.fst) limit since (returned scope since limit statements)

theorem mem_changes (request : Statements statements final) (since limit : Nat) (c : Change) :
    c ∈ (pageOf scope since limit statements).1 ↔ ∃ v ∈ seen scope since statements,
      rank Version.seq (seen scope since statements) v.seq < limit ∧ c = change v := by
  rw [pageOf,mergePage,mem_sortBy,List.mem_flatMap]
  constructor
  · rintro ⟨entity,_,listed⟩
    obtain ⟨v,member,rfl⟩ := List.mem_map.mp listed
    obtain ⟨inside,low⟩ := (mem_page request limit v).mp (List.mem_filter.mp member).1
    exact ⟨v,inside,low,rfl⟩
  · rintro ⟨v,inside,low,rfl⟩
    obtain ⟨d,statement,_⟩ := (mem_seen request).mp inside
    refine ⟨v.entity,List.mem_map_of_mem statement,List.mem_map_of_mem (List.mem_filter.mpr ⟨?_,by simp⟩)⟩
    exact (mem_page request limit v).mpr ⟨inside,low⟩

theorem changes_keys (request : Statements statements final) (since limit : Nat) :
    (pageOf scope since limit statements).1.Pairwise fun c e => (c.entity,c.id) ≠ (e.entity,e.id) := by
  have sorted : (sortBy Version.seq (returned scope since limit statements).flatten).Perm _ := sortBy_perm _
  have page := (sorted.symm.pairwise (returned_keys request limit) fun h => h.symm).sublist
    (List.take_sublist limit _)
  have regrouped : (pageOf scope since limit statements).1.Perm _ := sortBy_perm _
  refine regrouped.symm.pairwise ?_ fun h => h.symm
  rw [List.flatMap_def,List.pairwise_flatten]
  constructor
  · intro group member
    obtain ⟨entity,_,rfl⟩ := List.mem_map.mp member
    exact List.pairwise_map.mpr (page.sublist List.filter_sublist)
  · rw [List.pairwise_map]
    refine request.once.imp fun {entity other} apart c first e second same => apart ?_
    obtain ⟨v,left,rfl⟩ := List.mem_map.mp first
    obtain ⟨w,right,rfl⟩ := List.mem_map.mp second
    have one : v.entity = entity := of_decide_eq_true (List.mem_filter.mp left).2
    have two : w.entity = other := of_decide_eq_true (List.mem_filter.mp right).2
    exact one.symm.trans ((congrArg Prod.fst same).trans two)

theorem page_next (scope : Scope) (since limit : Nat) (statements : List (Entity × Database)) :
    (∀ c ∈ (pageOf scope since limit statements).1, c.seq ≤ (pageOf scope since limit statements).2.1) ∧
      ((pageOf scope since limit statements).2.1 = since ∨
        ∃ c ∈ (pageOf scope since limit statements).1, c.seq = (pageOf scope since limit statements).2.1) := by
  rw [pageOf,mergePage]
  dsimp only
  generalize (statements.map Prod.fst).flatMap _ = changes
  cases ends : (sortBy Change.seq changes).getLast? with
  | none =>
    rw [List.getLast?_eq_none_iff.mp ends]
    exact ⟨by simp,.inl rfl⟩
  | some last =>
    refine ⟨fun c member => ?_,.inr ⟨last,List.mem_of_getLast? ends,rfl⟩⟩
    exact le_last (sortBy_sorted changes) ends member

theorem page_complete (request : Statements statements final) {since limit : Nat}
    (all : (pageOf scope since limit statements).2.2 = false) {v : Version}
    (inside : v ∈ seen scope since statements) : change v ∈ (pageOf scope since limit statements).1 := by
  rw [pageOf,mergePage] at all
  have short : (cut limit (groups scope since statements)).length ≤ limit := by
    have merged : (sortBy Version.seq (returned scope since limit statements).flatten).Perm _ := sortBy_perm _
    rw [← returned_flatten,← merged.length_eq]
    simpa using all
  have page : v ∈ (sortBy Version.seq (returned scope since limit statements).flatten).take limit := by
    rw [List.take_of_length_le (by simpa using all),mem_sortBy,returned_flatten,cut_eq_flatten short,
      groups_perm.mem_iff]
    exact inside
  obtain ⟨_,low⟩ := (mem_page request limit v).mp page
  exact (mem_changes request since limit _).mpr ⟨v,inside,low,rfl⟩

/-- What a pull answers, from the subscription state, the counter and the rows its statements saw. -/
inductive PullServed (retention : Nat) (user : User) (since : Cursor) (limit : Option Int) (now : Nat)
    (scope : Scope) (first head : Database) (rest : List Database) : PullResponse → Prop
  | resync {sinceSeq reason} : resume retention user since now head.lastSeq = .ok (sinceSeq,some reason) →
      PullServed retention user since limit now scope first head rest
        ⟨visibleEntities user first.blocked,first.blocked,[],none,false,some reason⟩
  | restricted {sinceSeq} : resume retention user since now head.lastSeq = .ok (sinceSeq,none) →
      first.blocked = true → rest.length = (visibleEntities user true).length →
      PullServed retention user since limit now scope first head rest
        ⟨visibleEntities user true,true,
          (((visibleEntities user true).zip rest).flatMap fun p => selectChanges scope (-1) 1 p.1 p.2).map change,
          some ((since.bind id).getD (cursorFor user 0 now)),false,none⟩
  | page {sinceSeq} : resume retention user since now head.lastSeq = .ok (sinceSeq,none) →
      first.blocked = false → rest.length = (visibleEntities user false).length →
      PullServed retention user since limit now scope first head rest
        ⟨visibleEntities user false,false,
          (pageOf scope sinceSeq (clamp limit) ((visibleEntities user false).zip rest)).1,
          some (cursorFor user (pageOf scope sinceSeq (clamp limit) ((visibleEntities user false).zip rest)).2.1 now),
          (pageOf scope sinceSeq (clamp limit) ((visibleEntities user false).zip rest)).2.2,none⟩

theorem pull_served {retention : Nat} {user : User} {since : Cursor} {limit : Option Int} {branchId : Option Nat}
    {now : Nat} {d : Database} {gaps : List (List Write)} {r : Result Database Write (Except Failure PullResponse)}
    {response : PullResponse} {scope : Scope} (allowed : buildScope user branchId = .ok scope)
    (ran : run Database.write (pull retention user since limit branchId now) d gaps = some r)
    (answered : r.answer = .ok response) : ∃ first head rest, r.views = first :: head :: rest ∧
      PullServed retention user since limit now scope first head rest response := by
  rw [pull] at ran
  obtain ⟨one,_,blocked,afterBlocked,rfl⟩ := run_bind_success ran
  obtain ⟨_,_,_,restricted,view⟩ := run_select blocked
  rw [restricted,allowed] at afterBlocked
  dsimp only at afterBlocked answered
  obtain ⟨two,_,counter,afterHead,rfl⟩ := run_bind_success afterBlocked
  obtain ⟨_,_,_,head,view'⟩ := run_select counter
  rw [head] at afterHead
  dsimp only at answered
  refine ⟨one.database,two.database,?_⟩
  cases resumed : resume retention user since now two.database.lastSeq with
  | error failure =>
    rw [resumed,run_pure] at afterHead
    cases afterHead
    cases answered
  | ok cursor =>
    obtain ⟨sinceSeq,reason⟩ := cursor
    rw [resumed] at afterHead
    cases reason with
    | some reason =>
      rw [run_pure] at afterHead
      cases afterHead
      cases answered
      refine ⟨[],by rw [view,view']; rfl,.resync resumed⟩
    | none =>
      dsimp only at afterHead
      cases state : one.database.blocked with
      | true =>
        rw [state,if_pos rfl] at afterHead
        obtain ⟨three,_,statements,finish,rfl⟩ := run_bind_success afterHead
        obtain ⟨length,rows⟩ := run_mapM_select _ _ statements
        rw [run_pure] at finish
        cases finish
        cases answered
        refine ⟨three.views,by rw [view,view']; simp,?_⟩
        rw [rows,← List.flatMap_def]
        exact .restricted resumed state length
      | false =>
        rw [state,if_neg (by simp)] at afterHead
        obtain ⟨three,_,statements,finish,rfl⟩ := run_bind_success afterHead
        obtain ⟨length,rows⟩ := run_mapM_select _ _ statements
        rw [run_pure] at finish
        cases finish
        have names : ((visibleEntities user false).zip three.views).map Prod.fst = visibleEntities user false :=
          List.map_fst_zip (Nat.le_of_eq length.symm)
        have merged : mergePage (visibleEntities user false) (clamp limit) sinceSeq three.answer =
            pageOf scope sinceSeq (clamp limit) ((visibleEntities user false).zip three.views) := by
          rw [rows,pageOf,names,returned]
        rw [merged] at answered
        cases answered
        exact ⟨three.views,by rw [view,view']; simp,.page resumed state length⟩

/-- Every version between the request's cursor and the returned one is on the page or superseded. -/
def NeverSkips (since : Cursor) (response : PullResponse) (log : List Version) : Prop :=
  ∀ next, response.nextCursor = some next → ∀ v ∈ log, v.entity ∈ response.entities →
    since.seq < v.seq → v.seq ≤ next.seq →
    change v ∈ response.changes ∨ ∃ w ∈ log, rowKey w = rowKey v ∧ v.seq < w.seq

/-- A version was committed after its own entity's statement, and a later statement read a row above it
while fewer rows than the page holds lie below it. -/
def Overtaken (scope : Scope) (since limit : Nat) (statements : List (Entity × Database))
    (log : List Version) : Prop :=
  ∃ v d, ChangeLog.Current rowKey Version.seq log v ∧ since < v.seq ∧ (v.entity,d) ∈ statements ∧
    v ∉ d.log ∧ (∃ w ∈ seen scope since statements, v.seq < w.seq) ∧
    rank Version.seq (seen scope since statements) v.seq < limit

private theorem change_injective {log : List Version} (ordered : ChangeLog.Ordered Version.seq log) {v w : Version}
    (left : v ∈ log) (right : w ∈ log) (same : change v = change w) : v = w :=
  ordered.injective left right (congrArg Change.seq same)

theorem resume_seq {retention : Nat} {user : User} {since : Cursor} {now head sinceSeq : Nat}
    {reason : Option Reason} (resumed : resume retention user since now head = .ok (sinceSeq,reason)) :
    since.seq = sinceSeq := by
  rcases since with _ | _ | token
  · cases resumed; rfl
  · cases resumed
  · cases token with
    | snap => cases resumed
    | pull business owner seq issued permissions =>
      rw [resume] at resumed
      split at resumed
      · cases resumed
      · cases resumed
        rfl

/-- The page skips nothing exactly when no version was overtaken, for a user who sees every branch. -/
theorem page_skips_nothing_iff (scope : Scope) (request : Statements statements final)
    (everywhere : scope.branches = none) (since limit : Nat) :
    (∀ v ∈ final.log, v.entity ∈ statements.map Prod.fst → since < v.seq →
      v.seq ≤ (pageOf scope since limit statements).2.1 →
      change v ∈ (pageOf scope since limit statements).1 ∨ ∃ w ∈ final.log, rowKey w = rowKey v ∧ v.seq < w.seq) ↔
    ¬Overtaken scope since limit statements final.log := by
  have inside (v : Version) : inScope scope v = true := by simp [inScope,everywhere]
  constructor
  · rintro complete ⟨v,d,current,after,statement,late,above,low⟩
    have absent : v ∉ seen scope since statements := by
      intro member
      obtain ⟨other,statement',current',_⟩ := (mem_seen request).mp member
      have equal := List.inj_on_of_nodup_map request.once statement statement' rfl
      have same : d = other := congrArg Prod.snd equal
      rw [same] at late
      exact late current'.1
    have apart : ∀ u ∈ seen scope since statements, u.seq ≠ v.seq := by
      intro u member same
      rw [request.valid.ordered.injective (seen_logged request member) current.1 same] at member
      exact absent member
    obtain ⟨w,member,higher,equal⟩ := exists_next apart above
    have delivered := (mem_changes request since limit _).mpr ⟨w,member,by rw [equal]; exact low,rfl⟩
    have reached := (page_next scope since limit statements).1 _ delivered
    have beyond : v.seq ≤ (pageOf scope since limit statements).2.1 :=
      Nat.le_trans (Nat.le_of_lt higher) reached
    rcases complete v current.1 (List.mem_map_of_mem statement) after beyond with listed | ⟨u,logged,same,later⟩
    · obtain ⟨u,member,_,same⟩ := (mem_changes request since limit _).mp listed
      exact absent (change_injective request.valid.ordered current.1 (seen_logged request member) same ▸ member)
    · exact absurd (current.2 u logged same) (Nat.not_le.mpr later)
  · intro sound v logged visible after reached
    by_contra missed
    rw [not_or] at missed
    obtain ⟨unlisted,last⟩ := missed
    have current : ChangeLog.Current rowKey Version.seq final.log v := by
      refine ⟨logged,fun w member same => ?_⟩
      by_contra later
      exact last ⟨w,member,same,Nat.not_le.mp later⟩
    obtain ⟨⟨entity,d⟩,statement,rfl⟩ := List.mem_map.mp visible
    rcases (page_next scope since limit statements).2 with stayed | ⟨c,listed,top⟩
    · omega
    · obtain ⟨w,member,low,rfl⟩ := (mem_changes request since limit _).mp listed
      have above : v.seq ≤ w.seq := by
        rw [← top] at reached
        exact reached
      by_cases early : v ∈ d.log
      · have found : v ∈ seen scope since statements := (mem_seen request).mpr
          ⟨d,statement,current.of_prefix (request.before _ statement).1.prefixed early,by omega,inside v⟩
        have small : rank Version.seq (seen scope since statements) v.seq < limit :=
          Nat.lt_of_le_of_lt (rank_mono _ above) low
        exact unlisted ((mem_changes request since limit _).mpr ⟨v,found,small,rfl⟩)
      · refine sound ⟨v,d,current,after,statement,early,⟨w,member,?_⟩,Nat.lt_of_le_of_lt (rank_mono _ above) low⟩
        refine Nat.lt_of_le_of_ne above fun same => ?_
        have equal := request.valid.ordered.injective logged (seen_logged request member) same
        exact unlisted ((mem_changes request since limit _).mpr ⟨w,member,low,by rw [equal]⟩)

theorem visible_once (user : User) (restricted : Bool) : (visibleEntities user restricted).Nodup :=
  List.Nodup.sublist List.filter_sublist (by decide)

theorem request_statements {α : Type} {p : Reader Database α} {d final : Database} {gaps : List (List Write)}
    {r : Result Database Write α} (valid : d.Valid) (ran : run Database.write p d gaps = some r)
    (finished : r.later.flatten.foldlM Database.write r.database = some final) {views : List Database}
    (among : ∀ e ∈ views, e ∈ r.views) {entities : List Entity} (once : entities.Nodup)
    (length : views.length = entities.length) : Statements (entities.zip views) final := by
  have ordered := run_ordered Extends.refl Extends.trans write_extends ran
  have ended := writes_ordered Extends.refl Extends.trans write_extends finished
  obtain ⟨start,others⟩ := List.pairwise_cons.mp ordered
  have reached := (List.pairwise_append.mp others).2.2
  refine ⟨?_,fun q member => ?_,?_⟩
  · exact ended.valid ((start r.database (by simp)).valid valid)
  · have view := among q.2 (List.of_mem_zip member).2
    exact ⟨(reached q.2 view _ (List.mem_singleton_self _)).trans _ _ _ ended,
      (start q.2 (List.mem_append_left _ view)).valid valid⟩
  · rw [List.map_fst_zip (Nat.le_of_eq length.symm)]
    exact once

/-- A pull without branch restriction skips no change exactly when no version it passes over was committed
between its entity's statement and a later one that read a row above it. -/
theorem pull_never_skips_iff {retention : Nat} {user : User} {since : Cursor} {limit : Option Int} {now : Nat}
    {d final : Database} {gaps : List (List Write)}
    {r : Result Database Write (Except Failure PullResponse)} {response : PullResponse}
    (unrestricted : user.allowedBranches = none) (valid : d.Valid)
    (ran : run Database.write (pull retention user since limit none now) d gaps = some r)
    (answered : r.answer = .ok response)
    (finished : r.later.flatten.foldlM Database.write r.database = some final) :
    NeverSkips since response final.log ↔
      ∀ first head rest, r.views = first :: head :: rest → first.blocked = false →
        resume retention user since now head.lastSeq = .ok (since.seq,none) →
        ¬Overtaken ⟨user.id,none⟩ since.seq (clamp limit) ((visibleEntities user false).zip rest) final.log := by
  have allowed : buildScope user none = .ok ⟨user.id,none⟩ := by rw [buildScope,unrestricted]
  obtain ⟨first,head,rest,views,served⟩ := pull_served allowed ran answered
  cases served with
  | @resync sinceSeq reason resumed =>
    constructor
    · intro _ first' head' rest' views' _ resumed'
      rw [views] at views'
      cases views'
      rw [resumed] at resumed'
      cases resumed'
    · intro _ next absent
      cases absent
  | @restricted sinceSeq resumed blocked length =>
    constructor
    · intro _ first' head' rest' views' open_ _
      rw [views] at views'
      cases views'
      rw [blocked] at open_
      cases open_
    · intro _ next same v _ _ after reached
      have stayed : next.seq = since.seq := by
        cases same
        rcases since with _ | _ | token <;> rfl
      omega
  | @page sinceSeq resumed open_ length =>
    have start := resume_seq resumed
    have request : Statements ((visibleEntities user false).zip rest) final :=
      request_statements valid ran finished (fun e member => by simp [views,member])
        (visible_once user false) length
    have names : ((visibleEntities user false).zip rest).map Prod.fst = visibleEntities user false :=
      List.map_fst_zip (Nat.le_of_eq length.symm)
    have exactly := page_skips_nothing_iff ⟨user.id,none⟩ request rfl since.seq (clamp limit)
    rw [← start]
    constructor
    · intro complete first' head' rest' views' _ _
      rw [views] at views'
      cases views'
      exact exactly.mp fun v logged visible after reached =>
        complete _ rfl v logged (names ▸ visible) after reached
    · intro sound next same v logged visible after reached
      cases same
      exact exactly.mpr (sound first head rest views open_ (start ▸ resumed)) v logged (names.symm ▸ visible)
        after reached

private def cashier : User := ⟨5,1,[],7,none⟩

private def empty : Database := ⟨[],0,false⟩

private theorem empty_valid : empty.Valid := ⟨.nil,by simp [empty]⟩

private def settingsChange : Version := ⟨.settings,3,1,false,none⟩
private def branchChange : Version := ⟨.branch,4,2,false,none⟩

/-- Both changes commit after the settings statement and before the branch statement. -/
private def overtaking : List (List Write) :=
  [[],[],[],[.commit [settingsChange] 1,.commit [branchChange] 2]]

private def overtakenResponse : PullResponse :=
  ⟨[.settings,.branch],false,[⟨.branch,4,.upsert,2⟩],some (.pull 1 5 2 100 7),false,none⟩

private theorem overtaking_run : run Database.write (pull 0 cashier none none none 100) empty overtaking =
    some ⟨.ok overtakenResponse,⟨[settingsChange,branchChange],2,false⟩,[],
      [empty,empty,empty,⟨[settingsChange,branchChange],2,false⟩]⟩ := by
  rfl

theorem pull_never_skips_overtaking :
    NeverSkips none overtakenResponse [settingsChange,branchChange] ↔
      ∀ first head rest, [empty,empty,empty,⟨[settingsChange,branchChange],2,false⟩] = first :: head :: rest →
        first.blocked = false → resume 0 cashier none 100 head.lastSeq = .ok (0,none) →
        ¬Overtaken ⟨5,none⟩ 0 (clamp none) ((visibleEntities cashier false).zip rest)
          [settingsChange,branchChange] :=
  pull_never_skips_iff rfl empty_valid overtaking_run rfl rfl

/-- The cursor moves to 2 and the change with sequence 1 is on no page from there on. -/
theorem pull_skips_overtaken : ∃ (r : Result Database Write (Except Failure PullResponse)) (response : PullResponse),
    run Database.write (pull 0 cashier none none none 100) empty overtaking = some r ∧
      r.answer = .ok response ∧ r.later = [] ∧ ¬NeverSkips none response r.database.log := by
  refine ⟨_,_,overtaking_run,rfl,rfl,fun complete => ?_⟩
  rcases complete _ rfl settingsChange (by decide) (by decide) (by decide) (by decide) with listed | ⟨w,logged,later⟩
  · exact absurd listed (by decide)
  · revert w
    decide

end SyncFeed
