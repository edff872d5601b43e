import SasBackend.Library.Decimal
import SasBackend.Library.RowLocks
import SasBackend.Library.Service
import SasBackend.Library.Transition

/-! Manual journal entries: created as drafts, updated, deleted and posted, statement by statement.
An entry's id is its place in the table; its lines stand with it, in the order they were inserted. A statement sees the
committed rows with what its own transaction wrote, and row locks are held to the end of the transaction.
-/
namespace JournalEntries
open RowLocks
open Outcome (refuseIf)
open Service (HTTPException)

inductive JournalEntryStatus
  | draft | posted | voided
  deriving DecidableEq

def JournalEntryStatus.value : JournalEntryStatus → String
  | .draft => "draft"
  | .posted => "posted"
  | .voided => "voided"

structure JournalLine where
  id : Nat
  accountId : Nat
  debitAmount : ℚ
  creditAmount : ℚ
  description : Option String
  lineOrder : Int
  deriving DecidableEq

structure JournalEntry where
  businessId : Nat
  branchId : Option Nat
  status : JournalEntryStatus
  entryDate : Int
  description : Option String
  postedAt : Option Int
  deletedAt : Option Int
  lines : List JournalLine
  deriving DecidableEq

structure JournalLineInput where
  accountId : Nat
  debitAmount : ℚ
  creditAmount : ℚ
  description : Option String
  lineOrder : Int

structure CreateJournalEntryRequest where
  entryDate : Option Int
  description : Option String
  branchId : Option Nat
  lines : List JournalLineInput

structure UpdateJournalEntryRequest where
  entryDate : Option Int
  description : Option String
  branchId : Option Nat
  lines : Option (List JournalLineInput)

/-- What a statement sees of the other tables: the active accounts and the branches of the business. -/
structure Surroundings where
  accounts : List Nat
  branches : List Nat
  today : Int
  now : Int

def lineTotals (lines : List JournalLine) : ℚ × ℚ :=
  ((lines.map (·.debitAmount)).sum,(lines.map (·.creditAmount)).sum)

def assertDraft (entry : JournalEntry) (action : String) : Except HTTPException Unit :=
  refuseIf (entry.status ≠ .draft) ⟨400,"Cannot " ++ action ++ " " ++ entry.status.value ++ " journal entries"⟩

def assertBalancedForPost (lines : List JournalLine) : Except HTTPException Unit := do
  refuseIf (lines.length < 2) ⟨400,"Journal entry must have at least two lines to post"⟩
  let (totalDebit,totalCredit) := lineTotals lines
  refuseIf (Decimal.halfEven 2 totalDebit ≠ Decimal.halfEven 2 totalCredit)
    ⟨400,"Journal entry is not balanced; debits must equal credits"⟩

def getJournalEntryRow (entries : List JournalEntry) (entryId businessId : Nat) : Except HTTPException JournalEntry :=
  match entries[entryId]?.filter fun entry => entry.businessId = businessId && entry.deletedAt.isNone with
  | some entry => .ok entry
  | none => .error ⟨404,"Journal entry not found"⟩

def validateAccounts (around : Surroundings) (accountIds : List Nat) : Except HTTPException Unit :=
  refuseIf (accountIds.any fun id => !around.accounts.contains id) ⟨400,"One or more accounts are invalid or inactive"⟩

def verifyBranch (around : Surroundings) (branchId : Option Nat) : Except HTTPException Unit :=
  refuseIf (branchId.any fun id => !around.branches.contains id) ⟨400,"Branch not found"⟩

/-- The rows to insert, with the ids drawn for them; the amount columns have two decimal places. -/
def newLines (ids : Nat → Nat) (lines : List JournalLineInput) : List JournalLine :=
  lines.mapIdx fun index data =>
    ⟨ids index,data.accountId,Decimal.quantize 2 data.debitAmount,Decimal.quantize 2 data.creditAmount,
      data.description,if data.lineOrder ≠ 0 then data.lineOrder else index⟩

/-- The new entry; until its commit nobody else sees it. -/
def createJournalEntry (businessId : Nat) (data : CreateJournalEntryRequest) (ids : Nat → Nat) (around : Surroundings) :
    Except HTTPException JournalEntry := do
  validateAccounts around (data.lines.map (·.accountId))
  verifyBranch around data.branchId
  return ⟨businessId,data.branchId,.draft,data.entryDate.getD around.today,data.description,none,none,
    newLines ids data.lines⟩

inductive Request
  | update (data : UpdateJournalEntryRequest)
  | delete
  | post

structure Call where
  entryId : Nat
  businessId : Nat
  request : Request
  ids : Nat → Nat

inductive Statement
  | readLines
  | validateAccounts
  | verifyBranch
  /-- `UPDATE journal_entries`. -/
  | updateEntry
  /-- `DELETE FROM journal_lines` takes its snapshot, then effect. -/
  | findLines
  | deleteLines
  | insertLines
  deriving DecidableEq

/-- An open transaction after the read it begins with. -/
structure Transaction where
  call : Call
  loaded : JournalEntry
  todo : List Statement
  found : List Nat
  own : JournalEntry → JournalEntry

/-- The attributes that the request changes. -/
def UpdateJournalEntryRequest.dirty (data : UpdateJournalEntryRequest) (loaded : JournalEntry) : Bool :=
  data.entryDate.any (· ≠ loaded.entryDate) || data.description.any (some · ≠ loaded.description) ||
    data.branchId.any (some · ≠ loaded.branchId)

/-- What the `UPDATE` sets: an attribute that was set to the loaded value is left out. -/
def UpdateJournalEntryRequest.change (data : UpdateJournalEntryRequest) (loaded entry : JournalEntry) : JournalEntry :=
  { entry with
    entryDate := (data.entryDate.filter (· ≠ loaded.entryDate)).getD entry.entryDate
    description := (data.description.filter (some · ≠ loaded.description)).or entry.description
    branchId := (data.branchId.filter (some · ≠ loaded.branchId)).or entry.branchId }

def Request.change (now : Int) (loaded : JournalEntry) : Request → JournalEntry → JournalEntry
  | .update data, entry => data.change loaded entry
  | .delete, entry => { entry with deletedAt := some now }
  | .post, entry => { entry with status := .posted, postedAt := some now }

/-- The statements after the first read. The `DELETE` flushes a changed entry. -/
def updateStatements (data : UpdateJournalEntryRequest) (loaded : JournalEntry) : List Statement :=
  (if data.lines.isSome then [.validateAccounts] else []) ++ (if data.branchId.isSome then [.verifyBranch] else []) ++
    (if data.lines.isSome then
      (if data.dirty loaded then [.updateEntry] else []) ++ [.findLines,.deleteLines,.insertLines] else []) ++
    [.updateEntry]

/-- The first read; only the one of a post locks the row. -/
def start (entries : List JournalEntry) (call : Call) : Except HTTPException Transaction := do
  let entry ← getJournalEntryRow entries call.entryId call.businessId
  match call.request with
  | .update data =>
    assertDraft entry "update"
    return ⟨call,entry,updateStatements data entry,[],id⟩
  | .delete =>
    assertDraft entry "delete"
    return ⟨call,entry,[.findLines,.deleteLines,.updateEntry],[],id⟩
  | .post => return ⟨call,entry,[.readLines,.validateAccounts,.updateEntry],[],id⟩

def Request.lines (loaded : JournalEntry) : Request → List Nat
  | .update data => (data.lines.getD []).map (·.accountId)
  | _ => loaded.lines.map (·.accountId)

def Request.branchId : Request → Option Nat
  | .update data => data.branchId
  | _ => none

/-- One statement and what the code does up to the next. -/
def perform (row : JournalEntry) (around : Surroundings) (x : Transaction) : Statement → Except HTTPException Transaction
  | .readLines => do
    let entry := { x.loaded with lines := row.lines }
    assertDraft entry "post"
    assertBalancedForPost entry.lines
    return { x with loaded := entry }
  | .validateAccounts => do
    validateAccounts around (x.call.request.lines x.loaded)
    return x
  | .verifyBranch => do
    verifyBranch around x.call.request.branchId
    return x
  | .updateEntry => return { x with own := x.call.request.change around.now x.loaded ∘ x.own }
  | .findLines => return { x with found := row.lines.map (·.id) }
  | .deleteLines =>
    let gone (line : JournalLine) : Bool := x.found.contains line.id
    return { x with own := fun entry => { x.own entry with lines := (x.own entry).lines.filter (!gone ·) } }
  | .insertLines =>
    let added := match x.call.request with
      | .update data => newLines x.call.ids (data.lines.getD [])
      | _ => []
    return { x with own := fun entry => { x.own entry with lines := (x.own entry).lines ++ added } }

/-- The lock a statement takes on the entry's row; an inserted line takes one through its foreign key. -/
def Statement.mode : Statement → Option Mode
  | .updateEntry => some .noKeyUpdate
  | .insertLines => some .keyShare
  | _ => none

def Request.mode : Request → Option Mode
  | .post => some .update
  | _ => none

structure State where
  entries : List JournalEntry
  locks : List (Held Nat)
  transactions : Nat → Option Transaction

inductive Action
  | create (businessId : Nat) (data : CreateJournalEntryRequest) (ids : Nat → Nat) (around : Surroundings)
  | start (t : Nat) (call : Call)
  | execute (t : Nat) (around : Surroundings)
  | commit (t : Nat)
  | abort (t : Nat)

def State.put (s : State) (t : Nat) (x : Transaction) : State :=
  { s with transactions := Function.update s.transactions t (some x) }

def State.finish (s : State) (t : Nat) (entries : List JournalEntry) : State :=
  ⟨entries,releaseAll s.locks t,Function.update s.transactions t none⟩

/-- The lock is taken, or the statement waits. -/
def State.lock (s : State) (t entryId : Nat) : Option Mode → Option State
  | none => some s
  | some mode => if grantable s.locks t entryId mode then some { s with locks := acquire s.locks t entryId mode } else none

def next (s : State) : Action → Option State
  | .create businessId data ids around =>
    (createJournalEntry businessId data ids around).toOption.map fun entry => { s with entries := s.entries ++ [entry] }
  | .start t call => do
    if (s.transactions t).isNone then
      let locked ← s.lock t call.entryId call.request.mode
      let x ← (start s.entries call).toOption
      some (locked.put t x)
    else none
  | .execute t around => do
    let x ← s.transactions t
    let statement ← x.todo.head?
    let row ← s.entries[x.call.entryId]?
    let locked ← s.lock t x.call.entryId statement.mode
    let x ← (perform (x.own row) around x statement).toOption
    some (locked.put t { x with todo := x.todo.tail })
  | .commit t => do
    let x ← s.transactions t
    if x.todo = [] then some (s.finish t (s.entries.modify x.call.entryId x.own)) else none
  | .abort t => do
    let _ ← s.transactions t
    some (s.finish t s.entries)

def Initial (s : State) : Prop := s.entries = [] ∧ s.locks = [] ∧ s.transactions = fun _ => none

/-- At least two lines, and the debits are the credits. -/
def Balanced (entry : JournalEntry) : Prop :=
  2 ≤ entry.lines.length ∧ (lineTotals entry.lines).1 = (lineTotals entry.lines).2

/-- A posted entry as it was, not deleted. -/
structure Unchanged (entry later : JournalEntry) : Prop where
  lines : later.lines = entry.lines
  entryDate : later.entryDate = entry.entryDate
  description : later.description = entry.description
  standing : later.deletedAt = none

/-- The request gives lines, a date or a description to write, or deletes. -/
def Request.alters : Request → Bool
  | .update data => data.lines.isSome || data.entryDate.isSome || data.description.isSome
  | .delete => true
  | .post => false

/-- The status that an update or deletion has read is still the stored one when it takes the row for its `UPDATE`. -/
def current (s : State) : Action → Bool
  | .execute t _ => match s.transactions t with
    | some x => x.todo.head? ≠ some .updateEntry || !x.call.request.alters ||
      s.entries[x.call.entryId]?.all fun entry => entry.status = x.loaded.status
    | none => true
  | _ => true

end JournalEntries
