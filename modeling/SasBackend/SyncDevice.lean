import SasBackend.SyncFeed
import SasBackend.Semantics.SyncDevice

/-! A device that pages and pulls ends with exactly the live visible rows.
For each row it holds the current version, or the current version lies above its cursor, or its snapshot
has not reached the row yet.
-/
namespace SyncDevice
open SyncFeed Paging Reader Transition

variable {user : User} {d e : Database} {replica : Replica} {k : Entity × Nat} {since : Nat}

def Current (d : Database) (v : Version) : Prop := ChangeLog.Current rowKey Version.seq d.log v

def content (v : Version) : Option Nat := if v.isDeleted then none else some v.seq

/-- The replica holds what the database has for the row. -/
structure InSync (d : Database) (replica : Replica) (k : Entity × Nat) : Prop where
  current : ∀ v, Current d v → rowKey v = k → replica k = content v
  absent : (∀ v ∈ d.log, rowKey v ≠ k) → replica k = none

/-- The current version of the row lies above a cursor. -/
def Late (d : Database) (since : Nat) (k : Entity × Nat) : Prop :=
  ∃ v, Current d v ∧ rowKey v = k ∧ since < v.seq

theorem Current.unique (valid : d.Valid) {v w : Version} (left : Current d v) (right : Current d w)
    (same : rowKey v = rowKey w) : v = w := by
  apply valid.ordered.injective left.1 right.1
  exact Nat.le_antisymm (right.2 v left.1 same) (left.2 w right.1 same.symm)

theorem exists_current (valid : d.Valid) {v : Version} (member : v ∈ d.log) :
    ∃ w, Current d w ∧ rowKey w = rowKey v ∧ v.seq ≤ w.seq := by
  obtain ⟨w,listed,same,le⟩ : ∃ w ∈ ChangeLog.table rowKey d.log, rowKey w = rowKey v ∧ v.seq ≤ w.seq :=
    ChangeLog.exists_table valid.ordered member
  exact ⟨w,(ChangeLog.mem_table valid.ordered).mp listed,same,le⟩

theorem kept_by_writes (valid : d.Valid) (extends_ : Extends d e) (bounded : since ≤ d.lastSeq)
    (holds : InSync d replica k ∨ Late d since k) : InSync e replica k ∨ Late e since k := by
  have valid' := extends_.valid valid
  rcases holds with synced | ⟨v,current,same,after⟩
  · by_cases changed : ∃ v ∈ e.log, rowKey v = k ∧ v ∉ d.log
    · obtain ⟨v,member,same,new⟩ := changed
      have later := (extends_.added v member).resolve_left new
      obtain ⟨w,current,equal,le⟩ := exists_current valid' member
      exact .inr ⟨w,current,equal.trans same,by omega⟩
    · have old : ∀ v ∈ e.log, rowKey v = k → v ∈ d.log := by
        intro v member same
        by_contra new
        exact changed ⟨v,member,same,new⟩
      refine .inl ⟨fun v current same => ?_,fun absent => synced.absent fun v member => ?_⟩
      · exact synced.current v (current.of_prefix extends_.prefixed (old v current.1 same)) same
      · exact absent v (extends_.prefixed.subset member)
  · obtain ⟨w,current',equal,le⟩ := exists_current valid' (extends_.prefixed.subset current.1)
    exact .inr ⟨w,current',equal.trans same,by omega⟩

theorem applyChanges_other {changes : List Change} (replica : Replica)
    (apart : ∀ c ∈ changes, changeKey c ≠ k) : applyChanges replica changes k = replica k := by
  induction changes generalizing replica with
  | nil => rfl
  | cons c rest induction =>
    obtain ⟨first,others⟩ := List.forall_mem_cons.mp apart
    rw [applyChanges,List.foldl_cons]
    rw [show List.foldl applyChange (applyChange replica c) rest k = applyChange replica c k from
      induction _ others]
    exact Function.update_of_ne (Ne.symm first) _ _

theorem applyChanges_mem {changes : List Change} (replica : Replica)
    (distinct : changes.Pairwise (changeKey · ≠ changeKey ·)) {c : Change} (member : c ∈ changes) :
    applyChanges replica changes (changeKey c) = changeContent c := by
  induction changes generalizing replica with
  | nil => cases member
  | cons first rest induction =>
    obtain ⟨apart,distinct⟩ := List.pairwise_cons.mp distinct
    rw [applyChanges,List.foldl_cons]
    rcases List.mem_cons.mp member with here | later
    · rw [here]
      have other : applyChanges (applyChange replica first) rest (changeKey first) = _ :=
        applyChanges_other _ fun c inside => (apart c inside).symm
      exact other.trans (Function.update_self _ _ _)
    · exact induction _ distinct later

theorem applyChanges_append (replica : Replica) (first second : List Change) :
    applyChanges replica (first ++ second) = applyChanges (applyChanges replica first) second :=
  List.foldl_append

@[simp] theorem changeKey_change (v : Version) : changeKey (change v) = rowKey v := rfl

@[simp] theorem changeContent_change (v : Version) : changeContent (change v) = content v := by
  rw [change,changeContent,content]
  cases v.isDeleted <;> rfl

/-- The live rows of an entity a snapshot statement starts from, in id order. -/
def live (scope : Scope) (afterId : Option Nat) (entity : Entity) (d : Database) : List Version :=
  sortBy Version.id ((d.rows entity).filter fun v => !v.isDeleted && afterId.all (· < v.id) && inScope scope v)

private theorem mem_live (valid : d.Valid) {scope : Scope} (everywhere : scope.branches = none)
    {afterId : Option Nat} {entity : Entity} {v : Version} : v ∈ live scope afterId entity d ↔
      Current d v ∧ v.entity = entity ∧ v.isDeleted = false ∧ afterId.all (· < v.id) = true := by
  rw [live,mem_sortBy,List.mem_filter,Database.rows,List.mem_filter,ChangeLog.mem_table valid.ordered]
  simp [inScope,everywhere,Current]
  tauto

private theorem live_ascending {scope : Scope} {afterId : Option Nat} {entity : Entity} :
    Ascending Version.id (live scope afterId entity d) := by
  apply sortBy_ascending
  have table : (ChangeLog.table rowKey d.log).Pairwise (rowKey · ≠ rowKey ·) := ChangeLog.table_distinct _
  have distinct := table.sublist
    ((List.filter_sublist (p := fun v => !v.isDeleted && afterId.all (· < v.id) && inScope scope v)).trans
      (List.filter_sublist (p := fun v : Version => v.entity = entity)))
  refine distinct.imp_of_mem fun {v w} left right apart same => apart ?_
  have one := (List.mem_filter.mp (List.mem_filter.mp left).1).2
  have two := (List.mem_filter.mp (List.mem_filter.mp right).1).2
  rw [rowKey,rowKey,of_decide_eq_true one,of_decide_eq_true two,same]

/-- The row comes later in the walk than the position of a page token. -/
def Unpassed (entities : List Entity) (index : Nat) (afterId : Option Nat) (k : Entity × Nat) : Prop :=
  ∃ i, entities[i]? = some k.1 ∧ (index < i ∨ index = i ∧ afterId.all (· < k.2) = true)

def Covered (entities : List Entity) (d : Database) (start index : Nat) (afterId : Option Nat)
    (replica : Replica) (k : Entity × Nat) : Prop :=
  (InSync d replica k ∨ Late d start k) ∨ (Unpassed entities index afterId k ∧ replica k = none)

theorem Covered.extends_ {entities : List Entity} {start index : Nat} {afterId : Option Nat} (valid : d.Valid)
    (extended : Extends d e) (bounded : start ≤ d.lastSeq) (covered : Covered entities d start index afterId replica k) :
    Covered entities e start index afterId replica k :=
  covered.imp_left (kept_by_writes valid extended bounded)

private theorem kept_insync (valid : d.Valid) {rows : List Version} (distinct : rows.Pairwise (rowKey · ≠ rowKey ·))
    (current : ∀ v ∈ rows, Current d v) (replica : Replica) (k : Entity × Nat) :
    (∃ v ∈ rows, rowKey v = k) ∧ InSync d (applyChanges replica (rows.map change)) k ∨
      (∀ v ∈ rows, rowKey v ≠ k) ∧ applyChanges replica (rows.map change) k = replica k := by
  by_cases served : ∃ v ∈ rows, rowKey v = k
  · obtain ⟨v,member,rfl⟩ := served
    have held : applyChanges replica (rows.map change) (rowKey v) = content v := by
      rw [← changeContent_change v,← changeKey_change v]
      exact applyChanges_mem replica (List.pairwise_map.mpr distinct) (List.mem_map_of_mem member)
    refine .inl ⟨⟨v,member,rfl⟩,fun w listed same => ?_,fun absent => ?_⟩
    · rw [held,Current.unique valid (current v member) listed same.symm]
    · exact absurd rfl (absent v (current v member).1)
  · have apart : ∀ v ∈ rows, rowKey v ≠ k := fun v member same => served ⟨v,member,same⟩
    refine .inr ⟨apart,applyChanges_other replica fun c listed => ?_⟩
    obtain ⟨v,member,rfl⟩ := List.mem_map.mp listed
    exact apart v member

private theorem InSync.of_same {other : Replica} (synced : InSync d replica k) (same : other k = replica k) :
    InSync d other k :=
  ⟨fun v current equal => same.trans (synced.current v current equal),
    fun absent => same.trans (synced.absent absent)⟩

private theorem InSync.of_none (missing : replica k = none)
    (dead : ∀ v, Current d v → rowKey v = k → v.isDeleted = true) : InSync d replica k :=
  ⟨fun v current same => by rw [missing,content,dead v current same]; rfl,fun _ => missing⟩

section Page
variable {scope : Scope} {entities : List Entity} {entity : Entity} {start index : Nat} {afterId : Option Nat}

/-- One statement of a page moves the walk on: what it passes is served or not live. -/
private theorem covered_step (valid : d.Valid) (everywhere : scope.branches = none) {need index' : Nat}
    {afterId' : Option Nat}
    (passes : ∀ k, Unpassed entities index afterId k → Unpassed entities index' afterId' k ∨
      (k.1 = entity ∧ afterId.all (· < k.2) = true ∧
        ∀ v ∈ live scope afterId entity d, rowKey v = k → v ∈ (live scope afterId entity d).take need))
    (covered : Covered entities d start index afterId replica k) :
    Covered entities d start index' afterId'
      (applyChanges replica (((live scope afterId entity d).take need).map change)) k := by
  have whole : Ascending Version.id (live scope afterId entity d) := live_ascending
  have ascending := whole.sublist (List.take_sublist need _)
  have listed : ∀ v ∈ (live scope afterId entity d).take need, Current d v ∧ v.entity = entity := by
    intro v member
    obtain ⟨current,same,_⟩ := (mem_live valid everywhere).mp (List.mem_of_mem_take member)
    exact ⟨current,same⟩
  have distinct : ((live scope afterId entity d).take need).Pairwise (rowKey · ≠ rowKey ·) :=
    ascending.imp fun below same => Nat.ne_of_lt below (congrArg Prod.snd same)
  rcases kept_insync valid distinct (fun v member => (listed v member).1) replica k with
    ⟨_,synced⟩ | ⟨unserved,same⟩
  · exact .inl (.inl synced)
  · rcases covered with (synced | late) | ⟨unpassed,missing⟩
    · exact .inl (.inl (synced.of_same same))
    · exact .inl (.inr late)
    · rcases passes k unpassed with later | ⟨here,beyond,served⟩
      · exact .inr ⟨later,same.trans missing⟩
      · refine .inl (.inl (.of_none (same.trans missing) fun v current equal => ?_))
        by_contra alive
        have inside : v ∈ live scope afterId entity d := (mem_live valid everywhere).mpr
          ⟨current,(congrArg Prod.fst equal).trans here,by simpa using alive,by rw [← equal] at beyond; exact beyond⟩
        exact unserved v (served v inside equal) equal

/-- A statement that returned more rows than fit leaves the walk after the last row that fitted. -/
private theorem passes_cut (here : entities[index]? = some entity) {need : Nat} (positive : 0 < need)
    (more : need < (live scope afterId entity d).length) (k : Entity × Nat)
    (unpassed : Unpassed entities index afterId k) :
    Unpassed entities index (((live scope afterId entity d).take need).getLast?.map Version.id) k ∨
      (k.1 = entity ∧ afterId.all (· < k.2) = true ∧
        ∀ v ∈ live scope afterId entity d, rowKey v = k → v ∈ (live scope afterId entity d).take need) := by
  obtain ⟨i,name,later | ⟨rfl,beyond⟩⟩ := unpassed
  · exact .inl ⟨i,name,.inl later⟩
  have same : k.1 = entity := Option.some.inj (name.symm.trans here)
  obtain ⟨last,ends⟩ : ∃ last, ((live scope afterId entity d).take need).getLast? = some last := by
    cases ends : ((live scope afterId entity d).take need).getLast? with
    | some last => exact ⟨last,rfl⟩
    | none =>
      have length := congrArg List.length (List.getLast?_eq_none_iff.mp ends)
      rw [List.length_take,List.length_nil] at length
      omega
  by_cases passed : k.2 ≤ last.id
  · refine .inr ⟨same,beyond,fun v member equal => ?_⟩
    have ascending : Ascending Version.id (live scope afterId entity d) := live_ascending
    have low := (mem_take ascending need last).mp (List.mem_of_getLast? ends)
    have le : v.id ≤ last.id := by rw [← equal] at passed; exact passed
    exact (mem_take ascending need v).mpr ⟨member,Nat.lt_of_le_of_lt (rank_mono _ le) low.2⟩
  · refine .inl ⟨index,name,.inr ⟨rfl,?_⟩⟩
    rw [ends]
    simpa using passed

private theorem passes_full (here : entities[index]? = some entity) {need : Nat}
    (all : (live scope afterId entity d).length ≤ need) (k : Entity × Nat)
    (unpassed : Unpassed entities index afterId k) :
    Unpassed entities (index + 1) none k ∨
      (k.1 = entity ∧ afterId.all (· < k.2) = true ∧
        ∀ v ∈ live scope afterId entity d, rowKey v = k → v ∈ (live scope afterId entity d).take need) := by
  obtain ⟨i,name,later | ⟨rfl,beyond⟩⟩ := unpassed
  · refine .inl ⟨i,name,?_⟩
    by_cases next : index + 1 = i
    · exact .inr ⟨next,rfl⟩
    · exact .inl (by omega)
  · refine .inr ⟨Option.some.inj (name.symm.trans here),beyond,fun v member _ => ?_⟩
    rw [List.take_of_length_le all]
    exact member

/-- What a page leaves behind: a next position the walk has covered up to, or a finished walk. -/
structure PageCovers (entities : List Entity) (token : Nat → Option Nat → Token) (start : Nat) (d : Database)
    (replica : Replica) (next : Option Token) : Prop where
  more : ∀ t, next = some t → ∃ i a, t = token i a ∧
    ∀ k, k.1 ∈ entities → Covered entities d start i a replica k
  finished : next = none → ∀ k, k.1 ∈ entities → InSync d replica k ∨ Late d start k

theorem snapshotPage_covers (everywhere : scope.branches = none) {limit : Nat} {token : Nat → Option Nat → Token}
    {rest : List Entity} (drop : entities.drop index = rest) {changes : List Change} (base : Replica)
    {gaps : List (List Write)} {r : Result Database Write (List Change × Option Token)}
    (ran : run Database.write (snapshotPage scope limit token rest index afterId changes) d gaps = some r)
    (valid : d.Valid) (bounded : start ≤ d.lastSeq)
    (covered : ∀ k, k.1 ∈ entities → Covered entities d start index afterId (applyChanges base changes) k) :
    PageCovers entities token start r.database (applyChanges base r.answer.1) r.answer.2 ∧
      ∀ c ∈ r.answer.1, c ∈ changes ∨ c.entity ∈ entities := by
  induction rest generalizing index afterId changes d gaps r with
  | nil =>
    rw [snapshotPage,run_pure] at ran
    cases ran
    refine ⟨⟨by simp,fun _ k visible => ?_⟩,fun _ => .inl⟩
    rcases covered k visible with settled | ⟨⟨i,name,place⟩,_⟩
    · exact settled
    · have inside := (List.getElem?_eq_some_iff.mp name).1
      have past := List.drop_eq_nil_iff.mp drop
      omega
  | cons entity others induction =>
    have here : entities[index]? = some entity := by
      rw [← List.head?_drop,drop]
      rfl
    rw [snapshotPage] at ran
    dsimp only at ran
    split at ran
    · next full =>
      rw [run_pure] at ran
      cases ran
      exact ⟨⟨fun t same => ⟨index,afterId,(Option.some.inj same).symm,covered⟩,by simp⟩,fun _ => .inl⟩
    · next room =>
      obtain ⟨one,u,statement,more,rfl⟩ := run_bind_success ran
      obtain ⟨gap,_,applied,answer,_⟩ := run_select statement
      have extended := writes_ordered Extends.refl Extends.trans write_extends applied
      have valid' := extended.valid valid
      have covered' : ∀ k, k.1 ∈ entities →
          Covered entities one.database start index afterId (applyChanges base changes) k :=
        fun k visible => (covered k visible).extends_ valid extended bounded
      have kept : one.answer.take (limit - changes.length) =
          (live scope afterId entity one.database).take (limit - changes.length) := by
        rw [answer,selectLive,List.take_take,Nat.min_eq_left (Nat.le_succ _)]
        rfl
      have length : one.answer.length = min (limit - changes.length + 1) (live scope afterId entity one.database).length := by
        rw [answer,selectLive,List.length_take]
        rfl
      have added : ∀ c ∈ changes ++ (one.answer.take (limit - changes.length)).map change,
          c ∈ changes ∨ c.entity ∈ entities := by
        intro c member
        refine (List.mem_append.mp member).imp_right fun new => ?_
        obtain ⟨v,listed,rfl⟩ := List.mem_map.mp new
        rw [kept] at listed
        obtain ⟨_,same,_⟩ := (mem_live valid' everywhere).mp (List.mem_of_mem_take listed)
        rw [← same] at here
        exact List.mem_of_getElem? here
      split at more
      · next beyond =>
        rw [run_pure] at more
        cases more
        refine ⟨⟨fun t same => ⟨index,_,(Option.some.inj same).symm,fun k visible => ?_⟩,by simp⟩,added⟩
        dsimp only
        rw [applyChanges_append,kept]
        exact covered_step valid' everywhere
          (passes_cut here (by omega) (by omega)) (covered' k visible)
      · next fits =>
        have step : ∀ k, k.1 ∈ entities → Covered entities one.database start (index + 1) none
            (applyChanges base (changes ++ (one.answer.take (limit - changes.length)).map change)) k := by
          intro k visible
          rw [applyChanges_append,kept]
          exact covered_step valid' everywhere (passes_full here (by omega)) (covered' k visible)
        have drop' : entities.drop (index + 1) = others := by
          rw [← List.drop_drop,drop]
          rfl
        obtain ⟨covers,listed⟩ := induction drop' more valid' (Nat.le_trans bounded extended.counter) step
        exact ⟨covers,fun c member => (listed c member).elim (added c) .inr⟩

end Page

section Pull
variable {scope : Scope} {statements : List (Entity × Database)} {final : Database} {changes : List Change}

private theorem delivered (request : Statements statements final) {since : Int}
    (distinct : changes.Pairwise (changeKey · ≠ changeKey ·))
    (among : ∀ c ∈ changes, ∃ v ∈ seen scope since statements, c = change v) (replica : Replica)
    (k : Entity × Nat) :
    (∃ v e, (v.entity,e) ∈ statements ∧ Current e v ∧ rowKey v = k ∧ applyChanges replica changes k = content v) ∨
      ((∀ c ∈ changes, changeKey c ≠ k) ∧ applyChanges replica changes k = replica k) := by
  by_cases served : ∃ c ∈ changes, changeKey c = k
  · obtain ⟨c,member,rfl⟩ := served
    obtain ⟨v,inside,rfl⟩ := among c member
    obtain ⟨e,statement,current,_⟩ := (mem_seen request).mp inside
    refine .inl ⟨v,e,statement,current,rfl,?_⟩
    rw [applyChanges_mem replica distinct member,changeContent_change]
  · have apart : ∀ c ∈ changes, changeKey c ≠ k := fun c member same => served ⟨c,member,same⟩
    exact .inr ⟨apart,applyChanges_other replica apart⟩

private theorem restricted_insync (request : Statements statements final) (valid : d.Valid)
    (extended : Extends d final) (bounded : since ≤ d.lastSeq)
    (after : ∀ p ∈ statements, d.lastSeq ≤ p.2.lastSeq) {from_ : Int}
    (distinct : changes.Pairwise (changeKey · ≠ changeKey ·))
    (among : ∀ c ∈ changes, ∃ v ∈ seen scope from_ statements, c = change v)
    (held : InSync d replica k ∨ Late d since k) :
    InSync final (applyChanges replica changes) k ∨ Late final since k := by
  rcases delivered request distinct among replica k with ⟨v,e,statement,current,same,value⟩ | ⟨_,same⟩
  · obtain ⟨reached,valid'⟩ := request.before _ statement
    have synced : InSync e (applyChanges replica changes) k := by
      refine ⟨fun w listed equal => ?_,fun absent => absurd same (absent v current.1)⟩
      rw [value,Current.unique valid' current listed (same.trans equal.symm)]
    exact kept_by_writes valid' reached (Nat.le_trans bounded (after _ statement)) (.inl synced)
  · exact (kept_by_writes valid extended bounded held).imp_left fun synced => synced.of_same same

/-- A page that delivers the current versions with some property syncs every row but those without it. -/
private theorem page_insync (request : Statements statements final) (extended : Extends d final)
    (bounded : since ≤ d.lastSeq) (distinct : changes.Pairwise (changeKey · ≠ changeKey ·))
    (among : ∀ c ∈ changes, ∃ v ∈ seen scope since statements, c = change v)
    (held : InSync d replica k ∨ Late d since k) {P : Version → Prop}
    (delivers : ∀ v, Current final v → rowKey v = k → since < v.seq → P v → change v ∈ changes) :
    InSync final (applyChanges replica changes) k ∨ ∃ v, Current final v ∧ rowKey v = k ∧ ¬P v := by
  by_cases outside : ∃ v, Current final v ∧ rowKey v = k ∧ ¬P v
  · exact .inr outside
  have unserved (old : ∀ v ∈ final.log, rowKey v = k → v.seq ≤ since) :
      applyChanges replica changes k = replica k := by
    refine applyChanges_other replica fun c member same => ?_
    obtain ⟨v,inside,rfl⟩ := among c member
    obtain ⟨_,_,_,later,_⟩ := (mem_seen request).mp inside
    have low := old v (seen_logged request inside) same
    omega
  have before (v : Version) (member : v ∈ d.log) : v ∈ final.log := extended.prefixed.subset member
  refine .inl ⟨fun v current same => ?_,fun absent => ?_⟩
  · have property : P v := by
      by_contra lacking
      exact outside ⟨v,current,same,lacking⟩
    by_cases new : since < v.seq
    · rw [← same,← changeKey_change v,← changeContent_change v]
      exact applyChanges_mem replica distinct (delivers v current same new property)
    · have old : ∀ w ∈ final.log, rowKey w = k → w.seq ≤ since := by
        intro w member equal
        have top := current.2 w member (equal.trans same.symm)
        omega
      rw [unserved old]
      rcases held with synced | ⟨w,listed,equal,later⟩
      · have logged : v ∈ d.log := by
          rcases extended.added v current.1 with old | young
          · exact old
          · omega
        exact synced.current v (current.of_prefix extended.prefixed logged) same
      · have low := old w (before w listed.1) equal
        omega
  · rw [unserved fun v member same => absurd same (absent v member)]
    rcases held with synced | ⟨w,listed,equal,_⟩
    · exact synced.absent fun v member => absent v (before v member)
    · exact absurd equal (absent w (before w listed.1))

end Pull

/-- How far a device in this phase has come with the rows it may see. -/
def Placed (user : User) (d : Database) (replica : Replica) : Phase → Prop
  | .paging none => True
  | .paging (some token) => ∃ start index afterId,
      token = .snap user.business user.id start index afterId user.permissionsVersion ∧ start ≤ d.lastSeq ∧
      ∀ k, k.1 ∈ visibleEntities user false → Covered (visibleEntities user false) d start index afterId replica k
  | .pulling cursor => ∃ seq issued,
      cursor = .pull user.business user.id seq issued user.permissionsVersion ∧ seq ≤ d.lastSeq ∧
      ∀ k, k.1 ∈ visibleEntities user false → InSync d replica k ∨ Late d seq k

structure Invariant (user : User) (w : World) : Prop where
  valid : w.db.Valid
  placed : Placed user w.db w.replica w.phase
  hidden : w.phase ≠ .paging none → ∀ k, k.1 ∉ visibleEntities user false → w.replica k = none
  settled : w.settled = true → w.phase ≠ .paging none ∧
    ∀ k, k.1 ∈ visibleEntities user false → InSync w.db w.replica k

/-- No snapshot page is served while the subscription blocks the business, and no pull is overtaken by a
commit between its statements. -/
def Sound (retention : Nat) (user : User) (w : World) : Action → Prop
  | .write _ => True
  | .page _ _ gaps => ∀ gap rest, gaps = gap :: rest → ∀ d, gap.foldlM Database.write w.db = some d →
      d.blocked = false
  | .pull limit now gaps => ∀ cursor r final, w.phase = .pulling cursor →
      run Database.write (pull retention user (some (some cursor)) limit none now) w.db gaps = some r →
      r.later.flatten.foldlM Database.write r.database = some final →
      ∀ first head rest, r.views = first :: head :: rest → first.blocked = false →
        ¬Overtaken ⟨user.id,none⟩ cursor.seq (clamp limit) ((visibleEntities user false).zip rest) final.log

theorem Placed.extends_ {phase : Phase} (valid : d.Valid) (extended : Extends d e)
    (placed : Placed user d replica phase) : Placed user e replica phase := by
  cases phase with
  | paging token => cases token with
    | none => trivial
    | some token =>
      obtain ⟨start,index,afterId,same,bounded,covered⟩ := placed
      exact ⟨start,index,afterId,same,Nat.le_trans bounded extended.counter,
        fun k visible => (covered k visible).extends_ valid extended bounded⟩
  | pulling cursor =>
    obtain ⟨seq,issued,same,bounded,held⟩ := placed
    exact ⟨seq,issued,same,Nat.le_trans bounded extended.counter,
      fun k visible => kept_by_writes valid extended bounded (held k visible)⟩

def phaseAfter (response : SnapshotResponse) : Phase :=
  match response.nextPageToken with
  | some next => .paging (some next)
  | none => .pulling response.cursor

private theorem snapshotFrom_placed {scope : Scope} (everywhere : scope.branches = none) {base : Replica}
    {limit : Option Int} {now start index : Nat} {afterId : Option Nat} {gaps : List (List Write)}
    {r : Result Database Write (Except Failure SnapshotResponse)} (valid : d.Valid) (bounded : start ≤ d.lastSeq)
    (covered : ∀ k, k.1 ∈ visibleEntities user false →
      Covered (visibleEntities user false) d start index afterId base k)
    (ran : run Database.write (snapshotFrom user limit scope false now start index afterId) d gaps = some r) :
    ∃ response, r.answer = .ok response ∧
      Placed user r.database (applyChanges base response.changes) (phaseAfter response) ∧
      ∀ c ∈ response.changes, c.entity ∈ visibleEntities user false := by
  rw [snapshotFrom] at ran
  obtain ⟨page,u,served,finish,rfl⟩ := run_bind_success ran
  have counter := ((List.pairwise_cons.mp (run_ordered Extends.refl Extends.trans write_extends served)).1
    page.database (by simp)).counter
  obtain ⟨covers,listed⟩ := snapshotPage_covers everywhere rfl base served valid bounded covered
  rw [run_pure] at finish
  cases finish
  refine ⟨_,rfl,?_,fun c member => (listed c member).resolve_left (List.not_mem_nil)⟩
  cases next : page.answer.2 with
  | some token =>
    obtain ⟨i,a,rfl,covered⟩ := covers.more _ next
    simp only [phaseAfter]
    exact ⟨start,i,a,rfl,Nat.le_trans bounded counter,covered⟩
  | none =>
    simp only [phaseAfter]
    exact ⟨start,now,rfl,Nat.le_trans bounded counter,covers.finished next⟩

private theorem restart_invariant {w : World} (valid : d.Valid) : Invariant user (restart w d) :=
  ⟨valid,trivial,fun started => absurd rfl started,fun impossible => by cases impossible⟩

private theorem unpassed_first {entities : List Entity} (visible : k.1 ∈ entities) : Unpassed entities 0 none k := by
  obtain ⟨i,name⟩ := List.mem_iff_getElem?.mp visible
  refine ⟨i,name,?_⟩
  by_cases first : 0 = i
  · exact .inr ⟨first,rfl⟩
  · exact .inl (Nat.pos_of_ne_zero (Ne.symm first))

theorem Invariant.page {retention : Nat} {w w' : World} {limit : Option Int} {now : Nat}
    {gaps : List (List Write)} (unrestricted : user.allowedBranches = none) (invariant : Invariant user w)
    (sound : Sound retention user w (.page limit now gaps))
    (taken : next retention user w (.page limit now gaps) = some w') : Invariant user w' := by
  simp only [next] at taken
  cases phase : w.phase with
  | pulling cursor =>
    rw [phase] at taken
    cases taken
  | paging token =>
    rw [phase] at taken
    obtain ⟨r,ran,rest⟩ := Option.bind_eq_some_iff.mp taken
    obtain ⟨db,finished,rfl⟩ := Option.map_eq_some_iff.mp rest
    have ended := writes_ordered Extends.refl Extends.trans write_extends finished
    have allowed : buildScope user none = .ok ⟨user.id,none⟩ := by rw [buildScope,unrestricted]
    have reached := (List.pairwise_cons.mp (run_ordered Extends.refl Extends.trans write_extends ran)).1
      r.database (by simp)
    -- the page ends with a placed device, whichever way it started
    suffices served : ∃ response, r.answer = .ok response ∧
        Placed user r.database (applyChanges (if token.isNone then fun _ => none else w.replica) response.changes)
          (phaseAfter response) ∧ ∀ c ∈ response.changes, c.entity ∈ visibleEntities user false by
      obtain ⟨response,answered,placed,listed⟩ := served
      rw [answered]
      refine ⟨ended.valid (reached.valid invariant.valid),placed.extends_ (reached.valid invariant.valid) ended,
        fun _ k hidden => ?_,fun impossible => by cases impossible⟩
      have unserved : ∀ c ∈ response.changes, changeKey c ≠ k :=
        fun c member same => hidden (same ▸ listed c member)
      refine (applyChanges_other _ unserved).trans ?_
      cases token with
      | none => rfl
      | some token => exact invariant.hidden (by simp [phase]) k hidden
    rw [snapshot] at ran
    obtain ⟨one,u,blocked,afterBlocked,rfl⟩ := run_bind_success ran
    obtain ⟨gap,split,applied,restricted,_⟩ := run_select blocked
    rw [sound gap _ split _ applied] at restricted
    have first := writes_ordered Extends.refl Extends.trans write_extends applied
    have valid := first.valid invariant.valid
    rw [restricted,allowed] at afterBlocked
    dsimp only at afterBlocked
    cases token with
    | none =>
      obtain ⟨two,v,counter,afterHead,rfl⟩ := run_bind_success afterBlocked
      obtain ⟨_,_,applied',start,_⟩ := run_select counter
      have second := writes_ordered Extends.refl Extends.trans write_extends applied'
      rw [start] at afterHead
      have served := snapshotFrom_placed rfl (second.valid valid) (Nat.le_refl _)
        (fun k visible => .inr ⟨unpassed_first visible,rfl⟩) afterHead
      exact served
    | some token =>
      obtain ⟨start,index,afterId,rfl,bounded,covered⟩ : Placed user w.db w.replica (.paging (some token)) :=
        phase ▸ invariant.placed
      have position : pageStart user (.snap user.business user.id start index afterId user.permissionsVersion) =
          .ok (start,index,afterId) := by simp [pageStart]
      simp only [Option.map_some,position] at afterBlocked
      have served := snapshotFrom_placed rfl valid (Nat.le_trans bounded first.counter)
        (fun k visible => (covered k visible).extends_ invariant.valid first bounded) afterBlocked
      exact served

theorem visible_restricted {entity : Entity} (visible : entity ∈ visibleEntities user true) :
    entity ∈ visibleEntities user false := by
  rw [visibleEntities,List.mem_filter] at visible ⊢
  refine ⟨visible.1,?_⟩
  rw [Bool.and_eq_true] at visible ⊢
  exact ⟨rfl,visible.2.2⟩

theorem Invariant.pull {retention : Nat} {w w' : World} {limit : Option Int} {now : Nat}
    {gaps : List (List Write)} (unrestricted : user.allowedBranches = none) (invariant : Invariant user w)
    (sound : Sound retention user w (.pull limit now gaps))
    (taken : next retention user w (.pull limit now gaps) = some w') : Invariant user w' := by
  simp only [next] at taken
  cases phase : w.phase with
  | paging token =>
    rw [phase] at taken
    cases taken
  | pulling cursor =>
    rw [phase] at taken
    obtain ⟨r,ran,more⟩ := Option.bind_eq_some_iff.mp taken
    obtain ⟨final,finished,rfl⟩ := Option.map_eq_some_iff.mp more
    have ordered := (List.pairwise_cons.mp (run_ordered Extends.refl Extends.trans write_extends ran)).1
    have ended := writes_ordered Extends.refl Extends.trans write_extends finished
    have extended := (ordered r.database (by simp)).trans _ _ _ ended
    have valid := extended.valid invariant.valid
    cases answered : r.answer with
    | error failure => exact restart_invariant valid
    | ok response =>
      have allowed : buildScope user none = .ok ⟨user.id,none⟩ := by rw [buildScope,unrestricted]
      obtain ⟨first,head,rest,views,served⟩ := pull_served allowed ran answered
      obtain ⟨seq,issued,rfl,bounded,held⟩ : Placed user w.db w.replica (.pulling cursor) :=
        phase ▸ invariant.placed
      have hidden := invariant.hidden (by simp [phase])
      have among : ∀ e ∈ rest, e ∈ r.views := fun e member => by simp [views,member]
      have after {entities : List Entity} : ∀ p ∈ entities.zip rest, w.db.lastSeq ≤ p.2.lastSeq :=
        fun p member => (ordered p.2 (List.mem_append_left _ (among p.2 (List.of_mem_zip member).2))).counter
      have unseen {entities : List Entity} (inside : ∀ e ∈ entities, e ∈ visibleEntities user false)
          {scope : Scope} {since : Int} {changes : List Change} (request : Statements (entities.zip rest) final)
          (from_ : ∀ c ∈ changes, ∃ v ∈ seen scope since (entities.zip rest), c = change v) (k : Entity × Nat)
          (outside : k.1 ∉ visibleEntities user false) : applyChanges w.replica changes k = none := by
        refine (applyChanges_other _ fun c member same => outside ?_).trans (hidden k outside)
        obtain ⟨v,present,rfl⟩ := from_ c member
        obtain ⟨e,statement,_⟩ := (mem_seen request).mp present
        rw [← same]
        exact inside _ (List.of_mem_zip statement).1
      cases served with
      | resync => exact restart_invariant valid
      | restricted resumed blocked length =>
        have request : Statements ((visibleEntities user true).zip rest) final :=
          request_statements invariant.valid ran finished among (visible_once user true) length
        have rows : ((visibleEntities user true).zip rest).flatMap (fun p => selectChanges ⟨user.id,none⟩ (-1) 1 p.1 p.2) =
            (returned ⟨user.id,none⟩ (-1) 0 ((visibleEntities user true).zip rest)).flatten := List.flatMap_def
        rw [rows]
        have from_ : ∀ c ∈ (returned ⟨user.id,none⟩ (-1) 0 ((visibleEntities user true).zip rest)).flatten.map change,
            ∃ v ∈ seen ⟨user.id,none⟩ (-1) ((visibleEntities user true).zip rest), c = change v := by
          intro c member
          obtain ⟨v,listed,rfl⟩ := List.mem_map.mp member
          exact ⟨v,returned_seen listed,rfl⟩
        have distinct : ((returned ⟨user.id,none⟩ (-1) 0 ((visibleEntities user true).zip rest)).flatten.map
            change).Pairwise (changeKey · ≠ changeKey ·) := List.pairwise_map.mpr (returned_keys request 0)
        refine ⟨valid,⟨seq,issued,rfl,Nat.le_trans bounded extended.counter,fun k visible => ?_⟩,
          fun _ k outside => unseen (fun e => visible_restricted) request from_ k outside,
          fun impossible => ?_⟩
        · exact restricted_insync request invariant.valid extended bounded after distinct from_ (held k visible)
        · simp [takePull] at impossible
      | @page sinceSeq resumed open_ length =>
        have request : Statements ((visibleEntities user false).zip rest) final :=
          request_statements invariant.valid ran finished among (visible_once user false) length
        have names : ((visibleEntities user false).zip rest).map Prod.fst = visibleEntities user false :=
          List.map_fst_zip (Nat.le_of_eq length.symm)
        have start : seq = sinceSeq := resume_seq resumed
        subst start
        have from_ : ∀ c ∈ (pageOf ⟨user.id,none⟩ seq (clamp limit) ((visibleEntities user false).zip rest)).1,
            ∃ v ∈ seen ⟨user.id,none⟩ seq ((visibleEntities user false).zip rest), c = change v := by
          intro c member
          obtain ⟨v,inside,_,same⟩ := (mem_changes request seq _ c).mp member
          exact ⟨v,inside,same⟩
        have skips := (page_skips_nothing_iff ⟨user.id,none⟩ request rfl seq (clamp limit)).mpr
          (sound _ r final phase ran finished first head rest views open_)
        have next_bounded : (pageOf ⟨user.id,none⟩ seq (clamp limit)
            ((visibleEntities user false).zip rest)).2.1 ≤ final.lastSeq := by
          rcases (page_next ⟨user.id,none⟩ seq (clamp limit) ((visibleEntities user false).zip rest)).2 with
            stayed | ⟨c,member,top⟩
          · rw [stayed]
            exact Nat.le_trans bounded extended.counter
          · obtain ⟨v,inside,rfl⟩ := from_ c member
            rw [← top]
            exact valid.bounded v (seen_logged request inside)
        have synced (k : Entity × Nat) (visible : k.1 ∈ visibleEntities user false) {P : Version → Prop} :=
          page_insync (P := P) request extended bounded (changes_keys request seq (clamp limit)) from_ (held k visible)
        refine ⟨valid,⟨_,now,rfl,next_bounded,fun k visible => ?_⟩,
          fun _ k outside => unseen (fun e => id) request from_ k outside,fun settled => ⟨by simp [takePull],?_⟩⟩
        · refine (synced k visible (P := (·.seq ≤ (pageOf ⟨user.id,none⟩ seq (clamp limit)
            ((visibleEntities user false).zip rest)).2.1)) fun v current same later reached => ?_).imp_right ?_
          · have entity : v.entity ∈ ((visibleEntities user false).zip rest).map Prod.fst := by
              rw [names,show v.entity = k.1 from congrArg Prod.fst same]
              exact visible
            rcases skips v current.1 entity later reached with listed | ⟨w,member,equal,higher⟩
            · exact listed
            · have top := current.2 w member equal
              omega
          · rintro ⟨v,current,same,beyond⟩
            exact ⟨v,current,same,Nat.not_le.mp beyond⟩
        · intro k visible
          have parts : gaps.flatten = [] ∧ (pageOf ⟨user.id,none⟩ seq (clamp limit)
              ((visibleEntities user false).zip rest)).2.2 = false := by
            simpa [takePull] using settled
          obtain ⟨same,quiet,later⟩ := run_quiet parts.1 ran
          rw [later,same] at finished
          cases finished
          refine (synced k visible (P := fun _ => True) fun v current equal later _ => ?_).resolve_right (by simp)
          obtain ⟨⟨entity,e⟩,statement,name⟩ := List.mem_map.mp (names.symm ▸ visible :
            k.1 ∈ ((visibleEntities user false).zip rest).map Prod.fst)
          have view : e = w.db := quiet e (among e (List.of_mem_zip statement).2)
          have mine : v.entity = entity := (congrArg Prod.fst equal).trans name.symm
          rw [← mine,view] at statement
          exact page_complete request parts.2 ((mem_seen request).mpr
            ⟨w.db,statement,current,by omega,rfl⟩)

theorem Invariant.step {retention : Nat} {w w' : World} {a : Action} (unrestricted : user.allowedBranches = none)
    (invariant : Invariant user w) (sound : Sound retention user w a)
    (taken : next retention user w a = some w') : Invariant user w' := by
  cases a with
  | write write =>
    obtain ⟨db,written,rfl⟩ := Option.map_eq_some_iff.mp taken
    have extended := write_extends _ _ _ written
    exact ⟨extended.valid invariant.valid,invariant.placed.extends_ invariant.valid extended,invariant.hidden,
      fun impossible => by cases impossible⟩
  | page limit now gaps => exact invariant.page unrestricted sound taken
  | pull limit now gaps => exact invariant.pull unrestricted sound taken

theorem Invariant.initial {w : World} (initial : Initial w) : Invariant user w := by
  obtain ⟨phase,unsettled,ordered,bounded⟩ := initial
  refine ⟨⟨ordered,bounded⟩,by rw [phase]; trivial,fun started => absurd phase started,fun settled => ?_⟩
  rw [unsettled] at settled
  cases settled

theorem Invariant.complete {w : World} (invariant : Invariant user w) (settled : w.settled = true) :
    Complete user w := by
  obtain ⟨started,synced⟩ := invariant.settled settled
  have rows (v : Version) : v ∈ w.db.rows v.entity ↔ Current w.db v := by
    rw [Database.rows,List.mem_filter,ChangeLog.mem_table invariant.valid.ordered]
    simp [Current]
  intro entity id seq
  constructor
  · intro held
    have visible : entity ∈ visibleEntities user false := by
      by_contra hidden
      rw [invariant.hidden started (entity,id) hidden] at held
      cases held
    have present : ∃ v ∈ w.db.log, rowKey v = (entity,id) := by
      by_contra absent
      rw [(synced (entity,id) visible).absent fun v member same => absent ⟨v,member,same⟩] at held
      cases held
    obtain ⟨v,member,same⟩ := present
    obtain ⟨u,current,equal,_⟩ := exists_current invariant.valid member
    rw [(synced (entity,id) visible).current u current (equal.trans same),content] at held
    split at held
    · cases held
    · next alive =>
      obtain ⟨name,number⟩ : u.entity = entity ∧ u.id = id := Prod.mk.inj (equal.trans same)
      exact ⟨u,⟨name ▸ visible,(rows u).mpr current,by simpa using alive⟩,name,number,Option.some.inj held⟩
  · rintro ⟨v,⟨visible,row,alive⟩,rfl,rfl,rfl⟩
    rw [(synced (v.entity,v.id) visible).current v ((rows v).mp row) rfl,content,alive]
    rfl

/-- After unrestricted snapshot pages and pulls that nothing overtook, a quiet pull that leaves no rows ends
with exactly the live rows the user sees. -/
theorem replica_complete_when_settled {retention : Nat} {user : User} {w : World}
    (unrestricted : user.allowedBranches = none)
    (reached : Reachable Initial (Restricted (Sound retention user) (OfNext (next retention user))) w)
    (settled : w.settled = true) : Complete user w := by
  have invariant : Invariant user w := reached.invariant (fun _ => Invariant.initial)
    fun _ _ _ kept taken => kept.step unrestricted taken.1 taken.2
  exact invariant.complete settled

private def owner : User := ⟨5,1,[],7,none⟩

private def twoRows : Database := ⟨[⟨.settings,3,1,false,none⟩,⟨.branch,4,2,false,none⟩],2,false⟩

private def fresh : World := ⟨twoRows,.paging none,fun _ => none,false⟩

private theorem fresh_initial : Initial fresh := ⟨rfl,rfl,by decide,by decide⟩

private def unhurried : List (List Write) := [[],[],[],[]]

private theorem sound_of_quiet {retention : Nat} {w : World} {limit : Option Int} {now : Nat}
    {gaps : List (List Write)} (quiet : gaps.flatten = []) (unblocked : w.db.blocked = false) :
    Sound retention user w (.page limit now gaps) ∧ Sound retention user w (.pull limit now gaps) := by
  constructor
  · rintro gap rest rfl d applied
    rw [List.flatten_cons,List.append_eq_nil_iff] at quiet
    rw [quiet.1] at applied
    cases applied
    exact unblocked
  · intro cursor r final _ ran finished first head rest views _ overtaken
    obtain ⟨same,seen_,later⟩ := run_quiet quiet ran
    rw [later,same] at finished
    cases finished
    obtain ⟨v,e,current,_,statement,late,_⟩ := overtaken
    rw [seen_ e (by rw [views]; simp [(List.of_mem_zip statement).2])] at late
    exact late current.1

private def firstPage : World := takePage fresh none twoRows
  (.ok ⟨[.settings,.branch],false,[⟨.settings,3,.upsert,1⟩],some (.snap 1 5 2 1 none 7),.pull 1 5 2 100 7⟩)

private def secondPage : World := takePage firstPage (some (.snap 1 5 2 1 none 7)) twoRows
  (.ok ⟨[.settings,.branch],false,[⟨.branch,4,.upsert,2⟩],none,.pull 1 5 2 100 7⟩)

private def lastPull : World := takePull secondPage (.pull 1 5 2 100 7) true twoRows
  (.ok ⟨[.settings,.branch],false,[],some (.pull 1 5 2 100 7),false,none⟩)

theorem replica_complete_two_pages : lastPull.replica (.branch,4) = some 2 ∧ Complete owner lastPull := by
  have start : Reachable Initial (Restricted (Sound 0 owner) (OfNext (next 0 owner))) fresh := .initial fresh_initial
  have paged : next 0 owner fresh (.page (some 1) 100 unhurried) = some firstPage := rfl
  have pagedOn : next 0 owner firstPage (.page (some 1) 100 unhurried) = some secondPage := rfl
  have pulled : next 0 owner secondPage (.pull none 100 unhurried) = some lastPull := rfl
  have first := start.next ⟨(sound_of_quiet rfl rfl).1,paged⟩
  have second := first.next ⟨(sound_of_quiet rfl rfl).1,pagedOn⟩
  have third := second.next ⟨(sound_of_quiet rfl rfl).2,pulled⟩
  exact ⟨rfl,replica_complete_when_settled rfl third rfl⟩

/-- A page served while the subscription is blocked ends the walk: the branch is never delivered. -/
theorem restricted_page_loses_rows : ∃ w, Reachable Initial (OfNext (next 0 owner)) w ∧ w.settled = true ∧
    ¬Complete owner w := by
  obtain ⟨w,reached,view⟩ := reachable_of_execute (next 0 owner)
    (fun w => (w.settled,w.db,w.replica (.branch,4)))
    [.page (some 1) 100 unhurried,.write (.subscription true),.page (some 1) 100 unhurried,
      .write (.subscription false),.pull none 100 unhurried]
    fresh_initial (b := (true,twoRows,none)) (by rfl)
  obtain ⟨settled,db,missing⟩ : w.settled = true ∧ w.db = twoRows ∧ w.replica (.branch,4) = none := by
    simpa using view
  refine ⟨w,reached,settled,fun complete => ?_⟩
  have held := (complete .branch 4 2).mpr ⟨⟨.branch,4,2,false,none⟩,⟨by decide,by rw [db]; decide,rfl⟩,rfl,rfl,rfl⟩
  rw [missing] at held
  cases held

end SyncDevice
