import Mathlib.Data.List.Sort
import SasBackend.Library.Forest
import SasBackend.Library.Service

/-! The chart of accounts, in a table that businesses share. An account's id is its place in the table.
-/
namespace ChartOfAccounts
open Outcome (refuseIf)

structure ChartOfAccount where
  businessId : Nat
  parentId : Option Nat
  accountCode : String
  accountName : String
  accountType : String
  accountSubtype : Option String
  description : Option String
  isSystem : Bool
  isActive : Bool
  deletedAt : Option Int

/-- The accounts, and the account of every journal line. -/
structure State where
  accounts : List ChartOfAccount
  journalLines : List Nat

/-- A request that is refused, or that never answers. -/
inductive Failure
  | http (status : Nat) (detail : String)
  | endless

structure CreateChartOfAccountRequest where
  accountCode : String
  accountName : String
  accountType : String
  accountSubtype : Option String
  parentId : Option Nat
  description : Option String
  isActive : Bool

/-- The parent is given when the field is set, be it to no account. -/
structure UpdateChartOfAccountRequest where
  accountCode : Option String
  accountName : Option String
  accountType : Option String
  accountSubtype : Option String
  parentId : Option (Option Nat)
  description : Option String
  isActive : Option Bool

def validAccountTypes : List String := ["asset","liability","equity","income","expense"]

def validAccountSubtypes : List String :=
  ["cash","bank","accounts_receivable","accounts_payable","inventory","cogs","sales_revenue","tax_payable","other"]

def validateAccountType (accountType : String) : Except Failure Unit :=
  refuseIf (!validAccountTypes.contains accountType) (.http 400 ("Invalid account_type: " ++ accountType))

def validateAccountSubtype (accountSubtype : Option String) : Except Failure Unit :=
  refuseIf (accountSubtype.any fun value => !validAccountSubtypes.contains value)
    (.http 400 ("Invalid account_subtype: " ++ accountSubtype.getD ""))

def findAccount (s : State) (accountId businessId : Nat) : Option ChartOfAccount :=
  s.accounts[accountId]?.filter fun account => account.businessId = businessId && account.deletedAt.isNone

def getAccountRow (s : State) (accountId businessId : Nat) : Except Failure ChartOfAccount :=
  match findAccount s accountId businessId with
  | some account => .ok account
  | none => .error (.http 404 "Chart of accounts entry not found")

/-- The live accounts of the business that meet the condition, by id. -/
def selectAccounts (s : State) (businessId : Nat) (condition : Nat → ChartOfAccount → Bool) : List Nat :=
  (List.range s.accounts.length).filter fun id => (findAccount s id businessId).any (condition id)

def assertUniqueAccountCode (s : State) (businessId : Nat) (accountCode : String) (excludeId : Option Nat) :
    Except Failure Unit :=
  refuseIf (!(selectAccounts s businessId fun id account => account.accountCode = accountCode && excludeId ≠ some id).isEmpty)
    (.http 409 ("Account code already exists: " ++ accountCode))

/-- The unique index on the codes, which also has the deleted accounts in it. -/
def assertUniqueIndex (s : State) (businessId : Nat) (accountCode : String) (excludeId : Option Nat) : Except Failure Unit :=
  refuseIf ((List.range s.accounts.length).any fun id => excludeId ≠ some id && s.accounts[id]?.any fun account =>
    account.businessId = businessId && account.accountCode = accountCode) (.http 500 "Internal Server Error")

def hasJournalLines (s : State) (accountId : Nat) : Bool := s.journalLines.contains accountId

def childrenOf (s : State) (businessId accountId : Nat) : List Nat :=
  selectAccounts s businessId fun _ account => account.parentId = some accountId

def hasActiveChildren (s : State) (accountId businessId : Nat) : Bool := !(childrenOf s businessId accountId).isEmpty

/-- The search below an account for its new parent: `toVisit` is a stack, and there is no answer once the fuel is used up. -/
def assertNoParentCycle (s : State) (businessId parentId : Nat) : Nat → List Nat → Option (Except Failure Unit)
  | _,[] => some (.ok ())
  | 0,_ :: _ => none
  | fuel + 1,current :: toVisit =>
    let descendants := childrenOf s businessId current
    if descendants.contains parentId then
      some (.error (.http 400 "Parent assignment would create a cycle in chart of accounts hierarchy"))
    else assertNoParentCycle s businessId parentId fuel (descendants.reverse ++ toVisit)

/-- Visits that are enough when no account is visited twice. -/
def visits (s : State) : Nat := s.accounts.length + 1

def validateParent (s : State) (businessId : Nat) (parentId accountId : Option Nat) : Except Failure Unit :=
  match parentId,accountId with
  | none,_ => .ok ()
  | some parentId,none => do
    let _ ← getAccountRow s parentId businessId
    return ()
  | some parentId,some accountId => do
    refuseIf (parentId = accountId) (.http 400 "Account cannot be its own parent")
    let _ ← getAccountRow s parentId businessId
    (assertNoParentCycle s businessId parentId (visits s) [accountId]).getD (.error .endless)

def createChartOfAccount (s : State) (businessId : Nat) (data : CreateChartOfAccountRequest) : Except Failure State := do
  validateAccountType data.accountType
  validateAccountSubtype data.accountSubtype
  validateParent s businessId data.parentId none
  assertUniqueAccountCode s businessId data.accountCode none
  assertUniqueIndex s businessId data.accountCode none
  return { s with accounts := s.accounts ++ [⟨businessId,data.parentId,data.accountCode,data.accountName,data.accountType,
    data.accountSubtype,data.description,false,data.isActive,none⟩] }

def checkParent (s : State) (businessId accountId : Nat) (parentId : Option (Option Nat)) : Except Failure Unit :=
  match parentId with
  | none => .ok ()
  | some parentId => validateParent s businessId parentId (some accountId)

def checkCode (s : State) (businessId accountId : Nat) (account : ChartOfAccount) (accountCode : Option String) :
    Except Failure Unit :=
  match accountCode with
  | none => .ok ()
  | some accountCode => do
    refuseIf account.isSystem (.http 400 "Cannot change account_code on system accounts")
    assertUniqueAccountCode s businessId accountCode (some accountId)

def checkType (hasLines : Bool) (account : ChartOfAccount) (accountType : Option String) : Except Failure Unit :=
  match accountType with
  | none => .ok ()
  | some accountType => do
    validateAccountType accountType
    refuseIf (hasLines && accountType ≠ account.accountType)
      (.http 400 "Cannot change account_type on accounts with journal lines")

def checkSubtype (hasLines : Bool) (account : ChartOfAccount) (accountSubtype : Option String) : Except Failure Unit :=
  match accountSubtype with
  | none => .ok ()
  | some accountSubtype => do
    validateAccountSubtype (some accountSubtype)
    refuseIf (hasLines && account.accountSubtype ≠ some accountSubtype)
      (.http 400 "Cannot change account_subtype on accounts with journal lines")

def applyUpdate (account : ChartOfAccount) (data : UpdateChartOfAccountRequest) : ChartOfAccount :=
  { account with
    parentId := data.parentId.getD account.parentId
    accountCode := data.accountCode.getD account.accountCode
    accountName := data.accountName.getD account.accountName
    description := data.description.or account.description
    isActive := data.isActive.getD account.isActive
    accountType := data.accountType.getD account.accountType
    accountSubtype := data.accountSubtype.or account.accountSubtype }

def updateChartOfAccount (s : State) (accountId businessId : Nat) (data : UpdateChartOfAccountRequest) :
    Except Failure State := do
  let account ← getAccountRow s accountId businessId
  let hasLines := hasJournalLines s accountId
  checkParent s businessId accountId data.parentId
  checkCode s businessId accountId account data.accountCode
  checkType hasLines account data.accountType
  checkSubtype hasLines account data.accountSubtype
  let account := applyUpdate account data
  assertUniqueIndex s businessId account.accountCode (some accountId)
  return { s with accounts := s.accounts.set accountId account }

def deleteChartOfAccount (s : State) (accountId businessId : Nat) (now : Int) : Except Failure State := do
  let account ← getAccountRow s accountId businessId
  refuseIf account.isSystem (.http 400 "Cannot delete system accounts")
  refuseIf (hasActiveChildren s accountId businessId) (.http 400 "Cannot delete account with child accounts")
  refuseIf (hasJournalLines s accountId) (.http 400 "Cannot delete account with journal lines")
  return { s with accounts := s.accounts.set accountId { account with deletedAt := some now } }

structure DefaultAccount where
  accountCode : String
  accountName : String
  accountType : String
  accountSubtype : String

def defaultChartAccounts : List DefaultAccount :=
  [⟨"1000","Cash on Hand","asset","cash"⟩,⟨"1010","Bank","asset","bank"⟩,
    ⟨"1100","Accounts Receivable","asset","accounts_receivable"⟩,⟨"1200","Inventory","asset","inventory"⟩,
    ⟨"2000","Accounts Payable","liability","accounts_payable"⟩,⟨"2100","Sales Tax Payable","liability","tax_payable"⟩,
    ⟨"3000","Owner's Capital","equity","other"⟩,⟨"3100","Owner's Drawings","equity","other"⟩,
    ⟨"4000","Sales Revenue","income","sales_revenue"⟩,⟨"5000","Cost of Goods Sold","expense","cogs"⟩,
    ⟨"6000","Operating Expenses","expense","other"⟩,⟨"6100","Rent Expense","expense","other"⟩,
    ⟨"6200","Utilities Expense","expense","other"⟩,⟨"6300","Salaries & Wages","expense","other"⟩]

def DefaultAccount.row (businessId : Nat) (account : DefaultAccount) : ChartOfAccount :=
  ⟨businessId,none,account.accountCode,account.accountName,account.accountType,some account.accountSubtype,none,true,true,none⟩

def insertDefault (businessId : Nat) (s : State) (account : DefaultAccount) : Except Failure State := do
  assertUniqueIndex s businessId account.accountCode none
  return { s with accounts := s.accounts ++ [account.row businessId] }

def seedDefaultChartOfAccounts (s : State) (businessId : Nat) : Except Failure State :=
  if (selectAccounts s businessId fun _ _ => true).isEmpty then defaultChartAccounts.foldlM (insertDefault businessId) s
  else .ok s

inductive Request
  | create (businessId : Nat) (data : CreateChartOfAccountRequest)
  | update (accountId businessId : Nat) (data : UpdateChartOfAccountRequest)
  | delete (accountId businessId : Nat) (now : Int)
  | seed (businessId : Nat)
  /-- Another request changes the journal. -/
  | setJournalLines (journalLines : List Nat)

def answer (s : State) : Request → Except Failure State
  | .create businessId data => createChartOfAccount s businessId data
  | .update accountId businessId data => updateChartOfAccount s accountId businessId data
  | .delete accountId businessId now => deleteChartOfAccount s accountId businessId now
  | .seed businessId => seedDefaultChartOfAccounts s businessId
  | .setJournalLines journalLines => .ok { s with journalLines := journalLines }

def served : State → Request → State := Service.served answer

def State.init : State := ⟨[],[]⟩

/-- The nodes of a tree, by the account's id: those at its top, and those in the list of each node. -/
structure Tree where
  roots : List Nat
  children : Nat → List Nat

def place (known : List Nat) (tree : Tree) (account : Nat × Option Nat) : Tree :=
  match account.2 with
  | some parent =>
    if known.contains parent then
      { tree with children := Function.update tree.children parent (tree.children parent ++ [account.1]) }
    else { tree with roots := tree.roots ++ [account.1] }
  | none => { tree with roots := tree.roots ++ [account.1] }

def buildTree (accounts : List (Nat × Option Nat)) : Tree :=
  accounts.foldl (place (accounts.map (·.1))) ⟨[],fun _ => []⟩

/-- The order of a listing; `collate` compares codes as the database does. -/
def before (collate : String → String → Bool) (s : State) (first second : Nat) : Prop :=
  match s.accounts[first]?,s.accounts[second]? with
  | some a,some b => collate a.accountCode b.accountCode = true
  | _,_ => True

instance (collate : String → String → Bool) (s : State) : DecidableRel (before collate s) := fun first second => by
  unfold before
  split <;> infer_instance

/-- `list_chart_of_accounts`, of active and inactive accounts, as a tree. -/
def listTree (collate : String → String → Bool) (s : State) (businessId : Nat) : Tree :=
  buildTree (((selectAccounts s businessId fun _ _ => true).insertionSort (before collate s)).map fun id =>
    (id,(s.accounts[id]?).bind (·.parentId)))

/-- The accounts in a tree, down to a depth. -/
def Tree.accounts (tree : Tree) (depth : Nat) : List Nat := Forest.traverse tree.children depth tree.roots

/-- The live accounts of a business and their parents. -/
def links (s : State) (businessId : Nat) : Forest.Links Nat := fun id => (findAccount s id businessId).map (·.parentId)

end ChartOfAccounts
