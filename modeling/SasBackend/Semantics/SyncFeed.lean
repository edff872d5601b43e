import SasBackend.Library.ChangeLog
import SasBackend.Library.Paging
import SasBackend.Library.Reader
import SasBackend.Library.Transition
import SasBackend.Semantics.ChangeSequence

/-! Pull and snapshot of the change feed of one business, each statement with its own view.
A row version stands for the columns the feed decides by; the JSON it is materialised to is not kept.
-/
namespace SyncFeed
open ChangeSequence (SyncedTable)
open Paging

inductive Permission
  | registersView | shiftsOpen | shiftsClose | salesCreate | salesView | productsView | inventoryView
  | rolesView | usersView | customersView | discountsView
  deriving DecidableEq, Repr

inductive Entity
  | settings | branch | cashRegister | role | user | category | brand | unit | taxRate | product
  | productVariation | barcode | priceList | priceListItem | customer | discountScheme | stockLevel
  deriving DecidableEq, Repr

def Entity.table : Entity → SyncedTable
  | .settings => .businessConfigs
  | .branch => .branches
  | .cashRegister => .cashRegisters
  | .role => .roles
  | .user => .users
  | .category => .categories
  | .brand => .brands
  | .unit => .units
  | .taxRate => .taxRates
  | .product => .products
  | .productVariation => .productVariations
  | .barcode => .barcodes
  | .priceList => .priceLists
  | .priceListItem => .priceListItems
  | .customer => .customers
  | .discountScheme => .discountSchemes
  | .stockLevel => .stockLevels

def catalogPerms : List Permission := [.productsView,.salesCreate,.salesView,.inventoryView]

/-- Any one of these shows the entity; `none` shows it to every signed-in user. -/
def Entity.perms : Entity → Option (List Permission)
  | .settings | .branch => none
  | .cashRegister => some [.registersView,.shiftsOpen,.salesCreate]
  | .role => some [.rolesView,.salesCreate,.shiftsOpen]
  | .user => some [.usersView,.salesCreate,.shiftsOpen]
  | .customer => some [.customersView,.salesCreate]
  | .discountScheme => some [.discountsView,.salesCreate]
  | .stockLevel => some [.inventoryView,.salesCreate]
  | .category | .brand | .unit | .taxRate | .product | .productVariation | .barcode | .priceList
  | .priceListItem => some catalogPerms

/-- ENTITIES, in snapshot order. -/
def entities : List Entity :=
  [.settings,.branch,.cashRegister,.role,.user,.category,.brand,.unit,.taxRate,.product,
    .productVariation,.barcode,.priceList,.priceListItem,.customer,.discountScheme,.stockLevel]

def restrictedEntities : List Entity := [.settings]

structure User where
  id : Nat
  business : Nat
  permissions : List Permission
  permissionsVersion : Nat
  allowedBranches : Option (List Nat)

def visibleEntities (user : User) (restricted : Bool) : List Entity :=
  entities.filter fun entity =>
    (!restricted || restrictedEntities.contains entity) &&
    match entity.perms with
    | none => true
    | some perms => perms.any (user.permissions.contains ·)

/-- A committed version of a synced row; `branch` is its branch column, or the default branch of a user. -/
structure Version where
  entity : Entity
  id : Nat
  seq : Nat
  isDeleted : Bool
  branch : Option Nat
  deriving DecidableEq, Repr

def rowKey (v : Version) : Entity × Nat := (v.entity,v.id)

/-- Committed versions in commit order, the business counter and the subscription state. -/
structure Database where
  log : List Version
  lastSeq : Nat
  blocked : Bool
  deriving DecidableEq, Repr

inductive Write
  | commit (versions : List Version) (lastSeq : Nat)
  | subscription (blocked : Bool)
  deriving DecidableEq, Repr

/-- A commit adds versions stamped in order above the counter and moves the counter past them. -/
def Database.write (d : Database) : Write → Option Database
  | .commit versions lastSeq =>
    if versions.Pairwise (·.seq < ·.seq) ∧ (∀ v ∈ versions, d.lastSeq < v.seq ∧ v.seq ≤ lastSeq) ∧
        d.lastSeq ≤ lastSeq then
      some { d with log := d.log ++ versions, lastSeq := lastSeq }
    else none
  | .subscription blocked => some { d with blocked := blocked }

def Database.rows (d : Database) (entity : Entity) : List Version :=
  (ChangeLog.table rowKey d.log).filter (·.entity = entity)

structure Scope where
  userId : Nat
  branches : Option (List Nat)
  deriving DecidableEq, Repr

inductive Failure
  | foreignBranch
  | invalidCursor
  deriving DecidableEq, Repr

def buildScope (user : User) (branchId : Option Nat) : Except Failure Scope :=
  match branchId, user.allowedBranches with
  | some branch, some allowed =>
    if allowed.contains branch then .ok ⟨user.id,some [branch]⟩ else .error .foreignBranch
  | some branch, none => .ok ⟨user.id,some [branch]⟩
  | none, allowed => .ok ⟨user.id,allowed⟩

def inScope (scope : Scope) (v : Version) : Bool :=
  match scope.branches with
  | none => true
  | some branches => match v.entity with
    | .branch => branches.contains v.id
    | .cashRegister | .stockLevel => v.branch.any (branches.contains ·)
    | .user => v.branch.isNone || v.branch.any (branches.contains ·) || v.id = scope.userId
    | _ => true

/-- `_select_rows` of a pull. -/
def selectChanges (scope : Scope) (since : Int) (limit : Nat) (entity : Entity) (d : Database) :
    List Version :=
  (sortBy Version.seq ((d.rows entity).filter fun v => since < v.seq && inScope scope v)).take limit

/-- `_select_rows` of a snapshot. -/
def selectLive (scope : Scope) (afterId : Option Nat) (limit : Nat) (entity : Entity) (d : Database) :
    List Version :=
  (sortBy Version.id ((d.rows entity).filter fun v =>
    !v.isDeleted && afterId.all (· < v.id) && inScope scope v)).take limit

inductive Op
  | upsert | delete
  deriving DecidableEq, Repr

structure Change where
  entity : Entity
  id : Nat
  op : Op
  seq : Nat
  deriving DecidableEq, Repr

def change (v : Version) : Change := ⟨v.entity,v.id,if v.isDeleted then .delete else .upsert,v.seq⟩

/-- Signed tokens: what the server issued, with the fields it reads back. -/
inductive Token
  | pull (business user seq issued permissions : Nat)
  | snap (business user start entity : Nat) (after : Option Nat) (permissions : Nat)
  deriving DecidableEq, Repr

inductive Reason
  | cursorExpired | permissionsChanged | userChanged | cursorAheadOfServer
  deriving DecidableEq, Repr

/-- The sequence a token resumes from. -/
def Token.seq : Token → Nat
  | .pull _ _ seq _ _ => seq
  | .snap _ _ start _ _ _ => start

def cursorFor (user : User) (seq now : Nat) : Token :=
  .pull user.business user.id seq now user.permissionsVersion

def clamp (limit : Option Int) : Nat :=
  let wanted := match limit with
    | none | some 0 => 500
    | some n => n
  (max 1 (min wanted 1000)).toNat

/-- A request's cursor: absent, not verifiable, or a token. -/
abbrev Cursor := Option (Option Token)

def Cursor.seq (since : Cursor) : Nat := ((since.bind id).map Token.seq).getD 0

/-- Where the pull resumes, and why it has to be refused in favour of a snapshot. -/
def resume (retention : Nat) (user : User) (since : Cursor) (now head : Nat) :
    Except Failure (Nat × Option Reason) :=
  match since with
  | none => .ok (0,none)
  | some none => .error .invalidCursor
  | some (some (.snap ..)) => .error .invalidCursor
  | some (some (.pull business owner seq issued permissions)) =>
    if business ≠ user.business then .error .invalidCursor
    else .ok (seq,
      if now - issued > retention then some .cursorExpired
      else if owner ≠ user.id then some .userChanged
      else if permissions ≠ user.permissionsVersion then some .permissionsChanged
      else if seq > head then some .cursorAheadOfServer
      else none)

structure PullResponse where
  entities : List Entity
  restricted : Bool
  changes : List Change
  nextCursor : Option Token
  hasMore : Bool
  fullResyncReason : Option Reason
  deriving DecidableEq, Repr

/-- The page merged from the rows each entity's statement returned: its changes, the last sequence it
delivers and whether rows are left. -/
def mergePage (entities : List Entity) (limit sinceSeq : Nat) (groups : List (List Version)) :
    List Change × Nat × Bool :=
  let merged := sortBy Version.seq groups.flatten
  let page := merged.take limit
  let changes := sortBy Change.seq
    (entities.flatMap fun entity => (page.filter (·.entity = entity)).map change)
  (changes,(changes.getLast?.map Change.seq).getD sinceSeq,decide (merged.length > limit))

def pull (retention : Nat) (user : User) (since : Cursor) (limit : Option Int) (branchId : Option Nat)
    (now : Nat) : Reader Database (Except Failure PullResponse) := do
  let restricted ← .select Database.blocked
  let limit := clamp limit
  let entities := visibleEntities user restricted
  match buildScope user branchId with
  | .error failure => pure (.error failure)
  | .ok scope =>
    let head ← .select Database.lastSeq
    match resume retention user since now head with
    | .error failure => pure (.error failure)
    | .ok (_,some reason) => pure (.ok ⟨entities,restricted,[],none,false,some reason⟩)
    | .ok (sinceSeq,none) =>
      if restricted then
        let groups ← entities.mapM fun entity => .select (selectChanges scope (-1) 1 entity)
        pure (.ok ⟨entities,restricted,groups.flatten.map change,
          some ((since.bind id).getD (cursorFor user 0 now)),false,none⟩)
      else
        let groups ← entities.mapM fun entity => .select (selectChanges scope sinceSeq (limit + 1) entity)
        let (changes,nextSeq,hasMore) := mergePage entities limit sinceSeq groups
        pure (.ok ⟨entities,restricted,changes,some (cursorFor user nextSeq now),hasMore,none⟩)

structure SnapshotResponse where
  entities : List Entity
  restricted : Bool
  changes : List Change
  nextPageToken : Option Token
  cursor : Token
  deriving DecidableEq, Repr

def SnapshotResponse.hasMore (r : SnapshotResponse) : Bool := r.nextPageToken.isSome

/-- The loop over the entities still to page through, the first of them from `afterId` on. -/
def snapshotPage (scope : Scope) (limit : Nat) (token : Nat → Option Nat → Token) :
    List Entity → Nat → Option Nat → List Change → Reader Database (List Change × Option Token)
  | [], _, _, changes => pure (changes,none)
  | entity :: rest, index, afterId, changes =>
    let need := limit - changes.length
    if need = 0 then pure (changes,some (token index afterId))
    else do
      let rows ← .select (selectLive scope afterId (need + 1) entity)
      let kept := rows.take need
      let changes := changes ++ kept.map change
      if rows.length > need then pure (changes,some (token index (kept.getLast?.map Version.id)))
      else snapshotPage scope limit token rest (index + 1) none changes

/-- Start sequence, entity index and last id a page token stands for. -/
def pageStart (user : User) : Token → Except Failure (Nat × Nat × Option Nat)
  | .pull .. => .error .invalidCursor
  | .snap business owner start entity after permissions =>
    if business = user.business ∧ owner = user.id ∧ permissions = user.permissionsVersion then
      .ok (start,entity,after)
    else .error .invalidCursor

def snapshotFrom (user : User) (limit : Option Int) (scope : Scope) (restricted : Bool) (now : Nat)
    (start index : Nat) (afterId : Option Nat) : Reader Database (Except Failure SnapshotResponse) := do
  let entities := visibleEntities user restricted
  let token index after := Token.snap user.business user.id start index after user.permissionsVersion
  let (changes,next) ← snapshotPage scope (clamp limit) token (entities.drop index) index afterId []
  pure (.ok ⟨entities,restricted,changes,next,cursorFor user start now⟩)

def snapshot (user : User) (pageToken : Cursor) (limit : Option Int) (branchId : Option Nat) (now : Nat) :
    Reader Database (Except Failure SnapshotResponse) := do
  let restricted ← .select Database.blocked
  match buildScope user branchId with
  | .error failure => pure (.error failure)
  | .ok scope => match pageToken with
    | none => do
      let start ← .select Database.lastSeq
      snapshotFrom user limit scope restricted now start 0 none
    | some none => pure (.error .invalidCursor)
    | some (some token) => match pageStart user token with
      | .error failure => pure (.error failure)
      | .ok (start,index,afterId) => snapshotFrom user limit scope restricted now start index afterId

end SyncFeed
