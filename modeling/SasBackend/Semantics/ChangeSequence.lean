import Mathlib.Logic.Function.Basic
import Mathlib.Data.List.Nodup
import SasBackend.Library.Transition

/-! Change sequence of the synced tables: deferred stamping at commit under the counter row lock.
The tables, columns, triggers and backfill are those of the offline sync migration. A row is named by
its business, its table and its id.
-/
namespace ChangeSequence

inductive SyncedTable
  | categories | brands | units | taxRates | products | productVariations | barcodes | priceLists
  | priceListItems | customers | discountSchemes | branches | cashRegisters | businessConfigs
  | users | roles | stockLevels
  deriving DecidableEq, Repr

/-- Columns the triggers distinguish; `data` is any other data column of the table. -/
inductive Column
  | name | description | isSystem | fullName | defaultBranchId | status | isLocked
  | qty | lastMovementAt | deletedAt | data
  | bookkeeping
  deriving DecidableEq, Repr

def stampColumns : SyncedTable → Option (List Column)
  | .users => some [.fullName,.defaultBranchId,.status,.isLocked,.deletedAt]
  | .roles => some [.name,.description,.isSystem,.deletedAt]
  | .stockLevels => some [.qty,.lastMovementAt,.deletedAt]
  | _ => none

def stamps (table : SyncedTable) (columns : List Column) : Bool :=
  match stampColumns table with
  | some listed => columns.any (listed.contains ·)
  | none => columns.any (· != .bookkeeping)

structure Key where
  business : Nat
  table : SyncedTable
  id : Nat
  deriving DecidableEq, Repr

structure Row where
  changeSeq : Option Nat
  deriving DecidableEq, Repr

structure UserRole where
  user : Key
  role : Key
  deleted : Bool

/-- Deferred trigger firings, each with the ids its function reads from OLD and NEW. -/
inductive Event
  | syncStamp (row : Key)
  | touchUserOfRoleLink (new : Key) (old : Option Key)
  | touchRolePerm (role : Key)
  | touchUsersOfRole (role : Key)
  | touchCustomerOfLedger (customer : Key)
  | touchSettingsOfBusiness (business : Nat)
  deriving DecidableEq, Repr

structure Stamp where
  key : Key
  seq : Nat
  deriving DecidableEq, Repr

/-- What a transaction has written so far and a savepoint remembers. `changed` names the rows whose
data columns it wrote. -/
structure Work where
  rows : Key → Option (Option Row)
  userRoles : Nat → Option (Option UserRole)
  pending : List Event
  changed : List Key

structure Transaction where
  work : Work
  savepoints : List Work
  committing : Bool
  todo : List Key
  drawn : Option Nat
  counters : Nat → Option Nat
  stamped : List Stamp

structure State where
  rows : Key → Option Row
  userRoles : Nat → Option UserRole
  counters : Nat → Nat
  running : Nat → Option Transaction
  history : List (List Stamp)

def Work.row (s : State) (w : Work) (k : Key) : Option Row := (w.rows k).getD (s.rows k)

def Work.userRole (s : State) (w : Work) (id : Nat) : Option UserRole :=
  (w.userRoles id).getD (s.userRoles id)

def Work.write (w : Work) (k : Key) (row : Option Row) : Work :=
  { w with rows := Function.update w.rows k (some row) }

def Work.link (w : Work) (id : Nat) (row : Option UserRole) (event : Event) : Work :=
  { w with
    userRoles := Function.update w.userRoles id (some row)
    pending := w.pending ++ [event] }

def Work.queue (w : Work) (events : List Event) : Work := { w with pending := w.pending ++ events }

/-- AFTER INSERT fires the stamp trigger whatever the columns. -/
def Work.insert (w : Work) (k : Key) : Work :=
  { (w.write k (some ⟨none⟩)).queue [.syncStamp k] with changed := k :: w.changed }

def updateEvents (k : Key) (columns : List Column) : List Event :=
  (if stamps k.table columns then [.syncStamp k] else []) ++
  (if k.table = .roles ∧ (columns.contains .name || columns.contains .deletedAt) then
    [.touchUsersOfRole k] else [])

def Work.update (w : Work) (k : Key) (row : Row) (columns : List Column) : Work :=
  { (w.write k (some row)).queue (updateEvents k columns) with
    changed := if stamps k.table columns then k :: w.changed else w.changed }

/-- The users the trigger query finds for a role, in the order it reads them. -/
def Holders (s : State) (w : Work) (role : Key) (users : List Key) : Prop :=
  ∀ user, user ∈ users ↔
    ∃ id link, w.userRole s id = some link ∧ link.role = role ∧ link.deleted = false ∧ link.user = user

inductive Targets (s : State) (w : Work) : Event → List Key → Prop
  | syncStamp (k) : Targets s w (.syncStamp k) [k]
  | touchUserOfRoleLink (new) (old : Option Key) : Targets s w (.touchUserOfRoleLink new old)
      (new :: (old.toList.filter (· ≠ new)))
  | touchRolePerm {role users} : Holders s w role users →
      Targets s w (.touchRolePerm role) (role :: users)
  | touchUsersOfRole {role users} : Holders s w role users → Targets s w (.touchUsersOfRole role) users
  | touchCustomerOfLedger (k) : Targets s w (.touchCustomerOfLedger k) [k]
  | touchSettingsOfBusiness {b configs} : configs.Nodup →
      (∀ k, k ∈ configs ↔ k.table = .businessConfigs ∧ k.business = b ∧ (w.row s k).isSome) →
      Targets s w (.touchSettingsOfBusiness b) configs

/-- No other running transaction has written the row. -/
def RowFree (s : State) (t : Nat) (k : Key) : Prop :=
  ∀ other x, other ≠ t → s.running other = some x → x.work.rows k = none

def LinkFree (s : State) (t : Nat) (id : Nat) : Prop :=
  ∀ other x, other ≠ t → s.running other = some x → x.work.userRoles id = none

/-- No other running transaction holds the counter row of the business. -/
def CounterFree (s : State) (t : Nat) (b : Nat) : Prop :=
  ∀ other x, other ≠ t → s.running other = some x → x.counters b = none

/-- Statements of a transaction before its commit. -/
inductive Statement (s : State) (t : Nat) (w : Work) : Work → Prop
  | insert {k} : w.row s k = none → RowFree s t k → Statement s t w (w.insert k)
  | update {k row} (columns) : w.row s k = some row → RowFree s t k →
      Statement s t w (w.update k row columns)
  | delete {k row} : w.row s k = some row → RowFree s t k → Statement s t w (w.write k none)
  | insertUserRole {id} (link) : w.userRole s id = none → LinkFree s t id →
      Statement s t w (w.link id (some link) (.touchUserOfRoleLink link.user none))
  | updateUserRole {id old} (link) : w.userRole s id = some old → LinkFree s t id →
      Statement s t w (w.link id (some link) (.touchUserOfRoleLink link.user (some old.user)))
  | deleteUserRole {id old} : w.userRole s id = some old → LinkFree s t id →
      Statement s t w (w.link id none (.touchUserOfRoleLink old.user none))
  | rolePermission (role) : Statement s t w (w.queue [.touchRolePerm role])
  | customerLedger (customer) : Statement s t w (w.queue [.touchCustomerOfLedger customer])
  | business (b) : Statement s t w (w.queue [.touchSettingsOfBusiness b])

def Transaction.empty : Transaction :=
  { work := ⟨fun _ => none,fun _ => none,[],[]⟩, savepoints := [], committing := false,
    todo := [], drawn := none, counters := fun _ => none, stamped := [] }

/-- `sync_next_seq`: the counter the transaction sees, plus one. -/
def nextSeq (s : State) (x : Transaction) (b : Nat) : Nat := (x.counters b).getD (s.counters b) + 1

/-- Steps of one transaction. While committing it fires the deferred triggers one by one; a stamping
update may be evaluated again after waiting for the row, so a drawn value can be dropped. -/
inductive Progress (s : State) (t : Nat) (x : Transaction) : Transaction → Prop
  | statement {w} : x.committing = false → Statement s t x.work w → Progress s t x { x with work := w }
  | savepoint : x.committing = false → Progress s t x { x with savepoints := x.work :: x.savepoints }
  | rollbackTo {w older} : x.committing = false → x.savepoints = w :: older →
      Progress s t x { x with work := w, savepoints := older }
  | release {w older} : x.committing = false → x.savepoints = w :: older →
      Progress s t x { x with savepoints := older }
  | commit : x.committing = false → Progress s t x { x with committing := true, savepoints := [] }
  | fire {event rest targets} : x.committing = true → x.todo = [] → x.work.pending = event :: rest →
      Targets s x.work event targets →
      Progress s t x { x with work := { x.work with pending := rest }, todo := targets, drawn := none }
  | draw {k rest} : x.todo = k :: rest → (x.work.row s k).isSome → CounterFree s t k.business →
      Progress s t x { x with
        drawn := some (nextSeq s x k.business)
        counters := Function.update x.counters k.business (some (nextSeq s x k.business)) }
  | stamp {k rest n} : x.todo = k :: rest → x.drawn = some n → (x.work.row s k).isSome → RowFree s t k →
      Progress s t x { x with
        work := x.work.write k (some ⟨some n⟩)
        todo := rest
        drawn := none
        stamped := x.stamped ++ [⟨k,n⟩] }
  | skip {k rest} : x.todo = k :: rest → x.work.row s k = none →
      Progress s t x { x with todo := rest, drawn := none }

inductive Action
  | begin (t : Nat)
  | progress (t : Nat)
  | commit (t : Nat)
  | abort (t : Nat)

/-- The state after the commit of `x` becomes visible. -/
def State.committed (s : State) (t : Nat) (x : Transaction) : State :=
  { rows := x.work.row s
    userRoles := x.work.userRole s
    counters := fun b => (x.counters b).getD (s.counters b)
    running := Function.update s.running t none
    history := s.history ++ [x.stamped] }

def Transaction.ready (x : Transaction) : Prop :=
  x.committing = true ∧ x.work.pending = [] ∧ x.todo = []

inductive Step : State → Action → State → Prop
  | begin {s t} : s.running t = none →
      Step s (.begin t) { s with running := Function.update s.running t (some .empty) }
  | progress {s t x y} : s.running t = some x → Progress s t x y →
      Step s (.progress t) { s with running := Function.update s.running t (some y) }
  | commit {s t x} : s.running t = some x → x.ready → Step s (.commit t) (s.committed t x)
  | abort {s t x} : s.running t = some x →
      Step s (.abort t) { s with running := Function.update s.running t none }

/-- The rows that existed before the migration, with no counter and no transaction running. -/
def State.unstamped : State :=
  { rows := fun _ => none, userRoles := fun _ => none, counters := fun _ => 0,
    running := fun _ => none, history := [] }

/-- Backfill of one table: rows numbered per business from the counter on, in the order listed. -/
def State.backfill (s : State) (keys : List Key) : State :=
  { s with
    rows := fun k => if k ∈ keys then
        some ⟨some (s.counters k.business + ((keys.filter (·.business = k.business)).idxOf k + 1))⟩
      else s.rows k
    counters := fun b => s.counters b + (keys.filter (·.business = b)).length }

/-- The state in which the migration leaves the tables, whatever rows they held. -/
def Initial (s : State) : Prop :=
  ∃ (tables : List (List Key)) (links : Nat → Option UserRole), tables.flatten.Nodup ∧
    s = { tables.foldl State.backfill State.unstamped with userRoles := links }

end ChangeSequence
