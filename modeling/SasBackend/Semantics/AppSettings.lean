import Mathlib.Data.List.Sort
import Mathlib.Data.String.Basic
import SasBackend.Library.Service
import SasBackend.Library.UniqueKeys

/-! Settings of a business and of its branches, which go before those of the business. A row's id is its place in its table,
and a value is any document.
-/
namespace AppSettings
open Service (Refusal refuseIf scalarOneOrNone)
open UniqueKeys (taken)

variable {α : Type}

structure AppSetting (α : Type) where
  businessId : Nat
  branchId : Option Nat
  settingKey : String
  settingValue : α
  deletedAt : Option Int

/-- The settings, and the live branches with their businesses. -/
structure State (α : Type) where
  settings : List (AppSetting α)
  branches : List (Nat × Nat)

def State.init : State α := ⟨[],[]⟩

/-- Settings of a business as a whole never collide. -/
def AppSetting.key (row : AppSetting α) : Option (Nat × Nat × String) :=
  row.branchId.map fun branchId => (row.businessId,branchId,row.settingKey)

def businessSettings : List String :=
  ["business.name","business.currency","business.timezone","business.tax_inclusive","business.logo_url"]

def saleSettings : List String :=
  ["sale.require_customer","sale.allow_discount","sale.max_discount_pct","sale.require_shift"]

def posReadablePrefixes : List String := ["receipt.","tax."]

def isPosReadableSetting (settingKey : String) : Bool :=
  settingKey ∈ businessSettings ++ saleSettings || posReadablePrefixes.any (·.isPrefixOf settingKey)

def canReadAllSettings (permissionKeys : List String) : Bool :=
  "settings.view" ∈ permissionKeys || "settings.manage" ∈ permissionKeys

def mayRead (permissionKeys : List String) (settingKey : String) : Bool :=
  canReadAllSettings permissionKeys || isPosReadableSetting settingKey

def AppSetting.isFor (businessId : Nat) (settingKey : String) (branchId : Option Nat) (row : AppSetting α) : Bool :=
  row.businessId = businessId && row.settingKey = settingKey && row.branchId = branchId && row.deletedAt.isNone

def findSetting (s : State α) (businessId : Nat) (settingKey : String) (branchId : Option Nat) :
    Except Refusal (Option (AppSetting α × Nat)) :=
  scalarOneOrNone (s.settings.zipIdx.filter fun row => row.1.isFor businessId settingKey branchId)

def branchSetting (s : State α) (businessId : Nat) (settingKey : String) : Option Nat → Except Refusal (Option (AppSetting α × Nat))
  | none => .ok none
  | some branchId => findSetting s businessId settingKey (some branchId)

def getSetting (s : State α) (businessId : Nat) (settingKey : String) (branchId : Option Nat) :
    Except Refusal (Option (AppSetting α)) := do
  let own ← branchSetting s businessId settingKey branchId
  if own.isSome then return own.map (·.1)
  else (findSetting s businessId settingKey none).map fun found => found.map (·.1)

def settingsOf (s : State α) (businessId : Nat) (branchId : Option Nat) : List (AppSetting α) :=
  s.settings.filter fun row => row.businessId = businessId && row.branchId = branchId && row.deletedAt.isNone

/-- In the order of the database. -/
def ordered (collate : String → String → Bool) (rows : List (AppSetting α)) : List (AppSetting α) :=
  rows.mergeSort fun a b => collate a.settingKey b.settingKey

def getSettings (collate : String → String → Bool) (s : State α) (businessId : Nat) : Option Nat → List (AppSetting α)
  | none => ordered collate (settingsOf s businessId none)
  | some branchId =>
    let branchSettings := settingsOf s businessId (some branchId)
    let inherited := (ordered collate (settingsOf s businessId none)).filter
      (·.settingKey ∉ branchSettings.map AppSetting.settingKey)
    ordered (fun a b => a ≤ b) (branchSettings ++ inherited)

def listSettings (collate : String → String → Bool) (s : State α) (businessId : Nat) (branchId : Option Nat)
    (permissionKeys : List String) : List (AppSetting α) :=
  (getSettings collate s businessId branchId).filter fun row => mayRead permissionKeys row.settingKey

def presentOr404 : Option (AppSetting α) → Except Refusal (AppSetting α)
  | some setting => .ok setting
  | none => .error (.http 404 "Setting not found")

def getSettingEndpoint (s : State α) (businessId : Nat) (settingKey : String) (branchId : Option Nat)
    (permissionKeys : List String) : Except Refusal (AppSetting α) := do
  refuseIf (!mayRead permissionKeys settingKey) 403 "Permission required: settings.view"
  let setting ← getSetting s businessId settingKey branchId
  presentOr404 setting

structure UpsertSettingRequest (α : Type) where
  settingKey : String
  settingValue : α
  branchId : Option Nat

def UpsertSettingRequest.valid (data : UpsertSettingRequest α) : Bool :=
  1 ≤ data.settingKey.length && data.settingKey.length ≤ 100

def verifyBranch (s : State α) (businessId : Nat) (branchId : Option Nat) : Except Refusal Unit :=
  refuseIf (branchId.any fun branch => (businessId,branch) ∉ s.branches) 400 "Branch not found"

def insertSetting (s : State α) (row : AppSetting α) : Except Refusal (State α) :=
  if taken AppSetting.key s.settings row then .error .uncaught else .ok { s with settings := s.settings ++ [row] }

def putSetting (s : State α) (businessId : Nat) (data : UpsertSettingRequest α) :
    Option (AppSetting α × Nat) → Except Refusal (State α)
  | some (existing,i) => .ok { s with settings := s.settings.set i { existing with settingValue := data.settingValue } }
  | none => insertSetting s ⟨businessId,data.branchId,data.settingKey,data.settingValue,none⟩

def upsert (s : State α) (businessId : Nat) (data : UpsertSettingRequest α) : Except Refusal (State α) := do
  verifyBranch s businessId data.branchId
  let existing ← findSetting s businessId data.settingKey data.branchId
  putSetting s businessId data existing

def upsertSetting (s : State α) (businessId : Nat) (data : UpsertSettingRequest α) : Except Refusal (State α) := do
  refuseIf (!data.valid) 422 "Unprocessable Entity"
  upsert s businessId data

/-- A setting of the list is found again by the next one. -/
def bulkUpsertSettings (s : State α) (businessId : Nat) (settings : List (UpsertSettingRequest α)) : Except Refusal (State α) := do
  refuseIf (settings.isEmpty || !settings.all UpsertSettingRequest.valid) 422 "Unprocessable Entity"
  settings.foldlM (fun t data => upsert t businessId data) s

def removeSetting (s : State α) (now : Int) : Option (AppSetting α × Nat) → Except Refusal (State α)
  | some (setting,i) => .ok { s with settings := s.settings.set i { setting with deletedAt := some now } }
  | none => .error (.http 404 "Setting not found")

def deleteSetting (s : State α) (businessId : Nat) (settingKey : String) (branchId : Option Nat) (now : Int) :
    Except Refusal (State α) := do
  let setting ← findSetting s businessId settingKey branchId
  removeSetting s now setting

inductive Request (α : Type)
  | upsertSetting (businessId : Nat) (data : UpsertSettingRequest α)
  | bulkUpsertSettings (businessId : Nat) (settings : List (UpsertSettingRequest α))
  | deleteSetting (businessId : Nat) (settingKey : String) (branchId : Option Nat) (now : Int)
  /-- Branches come and go. -/
  | others (branches : List (Nat × Nat))

def answer (s : State α) : Request α → Except Refusal (State α)
  | .upsertSetting businessId data => upsertSetting s businessId data
  | .bulkUpsertSettings businessId settings => bulkUpsertSettings s businessId settings
  | .deleteSetting businessId settingKey branchId now => deleteSetting s businessId settingKey branchId now
  | .others branches => .ok { s with branches := branches }

def reached (requests : List (Request α)) : State α := Service.run answer .init requests

/-- The value a business has for a key, or one of its branches. -/
def View (α : Type) : Type := Nat → Option Nat → String → Option α

def View.set (view : View α) (businessId : Nat) (branchId : Option Nat) (settingKey : String) (value : Option α) : View α :=
  fun business branch key =>
    if business = businessId ∧ branch = branchId ∧ key = settingKey then value else view business branch key

def View.put (businessId : Nat) (view : View α) (data : UpsertSettingRequest α) : View α :=
  view.set businessId data.branchId data.settingKey (some data.settingValue)

/-- What a branch goes by: its own value, or that of the business. -/
def View.resolve (view : View α) (businessId : Nat) (branchId : Option Nat) (settingKey : String) : Option α :=
  (view businessId branchId settingKey).or (view businessId none settingKey)

def Request.effect (view : View α) : Request α → View α
  | .upsertSetting businessId data => view.put businessId data
  | .bulkUpsertSettings businessId settings => settings.foldl (View.put businessId) view
  | .deleteSetting businessId settingKey branchId _ => view.set businessId branchId settingKey none
  | .others _ => view

end AppSettings
