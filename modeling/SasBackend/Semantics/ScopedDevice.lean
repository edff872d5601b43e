import SasBackend.Semantics.SyncDevice

/-! The device of a user who is limited to some branches, with one branch parameter in all its requests.
The user's own access is fixed: a change of it changes the permissions version and starts a new snapshot.
-/
namespace ScopedDevice
open SyncFeed SyncDevice Reader

def next (retention : Nat) (user : User) (branchId : Option Nat) (w : World) : Action → Option World
  | .write write => (w.db.write write).map fun db => { w with db := db, settled := false }
  | .page limit now gaps => match w.phase with
    | .pulling _ => none
    | .paging token =>
      (run Database.write (snapshot user (token.map some) limit branchId now) w.db gaps).bind fun r =>
        (r.later.flatten.foldlM Database.write r.database).map fun db => takePage w token db r.answer
  | .pull limit now gaps => match w.phase with
    | .paging _ => none
    | .pulling cursor =>
      (run Database.write (pull retention user (some (some cursor)) limit branchId now) w.db gaps).bind fun r =>
        (r.later.flatten.foldlM Database.write r.database).map fun db =>
          takePull w cursor gaps.flatten.isEmpty db r.answer

/-- A row a fresh snapshot with the same branch parameter serves. -/
def Served (user : User) (branchId : Option Nat) (d : Database) (v : Version) : Prop :=
  Live user d v ∧ ∃ scope, buildScope user branchId = .ok scope ∧ inScope scope v = true

/-- The replica holds exactly the rows a fresh snapshot serves, each at its current version. -/
def Complete (user : User) (branchId : Option Nat) (w : World) : Prop :=
  ∀ entity id seq, w.replica (entity,id) = some seq ↔
    ∃ v, Served user branchId w.db v ∧ v.entity = entity ∧ v.id = id ∧ v.seq = seq

def versions : Write → List Version
  | .commit versions _ => versions
  | .subscription _ => []

/-- No version, in commit order, takes a row of the scope out of it. -/
def Stays (scope : Scope) : List Version → List Version → Prop
  | _, [] => True
  | log, v :: rest =>
    (∀ u ∈ ChangeLog.table rowKey log, rowKey u = rowKey v → inScope scope u = true → inScope scope v = true) ∧
      Stays scope (log ++ [v]) rest

end ScopedDevice
