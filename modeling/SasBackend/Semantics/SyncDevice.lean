import SasBackend.Semantics.SyncFeed

/-! A device that takes a paged snapshot and then pulls, while others write to the database.
It applies every page to its replica, upserting and deleting by id, and starts over with a snapshot when
a pull asks for a full resync.
-/
namespace SyncDevice
open SyncFeed Reader

/-- The sequence number the device holds for each row, if it holds the row. -/
abbrev Replica := Entity × Nat → Option Nat

def changeKey (c : Change) : Entity × Nat := (c.entity,c.id)

def changeContent (c : Change) : Option Nat :=
  match c.op with
  | .upsert => some c.seq
  | .delete => none

def applyChange (replica : Replica) (c : Change) : Replica :=
  Function.update replica (changeKey c) (changeContent c)

def applyChanges (replica : Replica) (changes : List Change) : Replica := changes.foldl applyChange replica

inductive Phase
  | paging (token : Option Token)
  | pulling (cursor : Token)
  deriving DecidableEq, Repr

/-- `settled`: the last pull left no rows, unrestricted and without a write during it or since. -/
structure World where
  db : Database
  phase : Phase
  replica : Replica
  settled : Bool

inductive Action
  | write (w : Write)
  | page (limit : Option Int) (now : Nat) (gaps : List (List Write))
  | pull (limit : Option Int) (now : Nat) (gaps : List (List Write))

def restart (w : World) (db : Database) : World := { w with db := db, phase := .paging none, settled := false }

def takePage (w : World) (token : Option Token) (db : Database) :
    Except Failure SnapshotResponse → World
  | .error _ => restart w db
  | .ok response =>
    { db := db
      phase := match response.nextPageToken with
        | some next => .paging (some next)
        | none => .pulling response.cursor
      replica := applyChanges (if token.isNone then fun _ => none else w.replica) response.changes
      settled := false }

def takePull (w : World) (cursor : Token) (quiet : Bool) (db : Database) : Except Failure PullResponse → World
  | .error _ => restart w db
  | .ok response =>
    if response.fullResyncReason.isSome then restart w db
    else
      { db := db
        phase := .pulling (response.nextCursor.getD cursor)
        replica := applyChanges w.replica response.changes
        settled := quiet && !response.hasMore && !response.restricted }

/-- A request runs among the writes of its gaps; those left over commit before its answer arrives. -/
def next (retention : Nat) (user : User) (w : World) : Action → Option World
  | .write write => (w.db.write write).map fun db => { w with db := db, settled := false }
  | .page limit now gaps => match w.phase with
    | .pulling _ => none
    | .paging token =>
      (run Database.write (snapshot user (token.map some) limit none now) w.db gaps).bind fun r =>
        (r.later.flatten.foldlM Database.write r.database).map fun db => takePage w token db r.answer
  | .pull limit now gaps => match w.phase with
    | .paging _ => none
    | .pulling cursor =>
      (run Database.write (pull retention user (some (some cursor)) limit none now) w.db gaps).bind fun r =>
        (r.later.flatten.foldlM Database.write r.database).map fun db =>
          takePull w cursor gaps.flatten.isEmpty db r.answer

/-- A device with nothing yet, in front of any database with well ordered sequence numbers. -/
def Initial (w : World) : Prop :=
  w.phase = .paging none ∧ w.settled = false ∧ w.db.log.Pairwise (·.seq < ·.seq) ∧
    ∀ v ∈ w.db.log, v.seq ≤ w.db.lastSeq

/-- The row a fresh read would serve: live, and of an entity the user sees. -/
def Live (user : User) (d : Database) (v : Version) : Prop :=
  v.entity ∈ visibleEntities user false ∧ v ∈ d.rows v.entity ∧ v.isDeleted = false

/-- The replica holds exactly the live visible rows, each at its current version. -/
def Complete (user : User) (w : World) : Prop :=
  ∀ entity id seq, w.replica (entity,id) = some seq ↔
    ∃ v, Live user w.db v ∧ v.entity = entity ∧ v.id = id ∧ v.seq = seq

end SyncDevice
