import SasBackend.Library.Service
import SasBackend.Library.UniqueKeys
import SasBackend.Semantics.Billing

/-! Price lists with their prices, and what a sale may charge by them. A row's id is its place in its table.
-/
namespace Prices
open Service (Refusal refuseIf scalarOneOrNone)
open UniqueKeys (taken)
open Billing (CreateSaleLineRequest CreateSaleRequest PricePreview)

inductive PriceListType
  | retail | wholesale | dineIn | delivery | custom
  deriving DecidableEq

structure PriceList where
  businessId : Nat
  name : String
  listType : PriceListType
  isDefault : Bool
  validFrom : Option Int
  validTo : Option Int
  deletedAt : Option Int
  deriving DecidableEq

structure PriceListItem where
  businessId : Nat
  priceListId : Nat
  productId : Nat
  variationId : Option Nat
  unitPrice : ℚ
  minQty : ℚ
  deletedAt : Option Int
  deriving DecidableEq

structure AuditLog where
  businessId : Nat
  userId : Nat
  action : String
  recordId : Nat
  oldPrice : Option ℚ
  newPrice : ℚ
  newMinQty : ℚ
  deriving DecidableEq

/-- The live products with their businesses, and the variations there are. -/
structure State where
  lists : List PriceList
  items : List PriceListItem
  products : List (Nat × Nat)
  variations : List Nat
  auditLogs : List AuditLog

def State.init : State := ⟨[],[],[],[],[]⟩

def PriceList.key (row : PriceList) : Option (Nat × String) := some (row.businessId,row.name)

/-- Rows without a variation never collide. -/
def PriceListItem.key (row : PriceListItem) : Option (Nat × Nat × Nat × Nat × ℚ) :=
  row.variationId.map fun variationId => (row.businessId,row.priceListId,row.productId,variationId,row.minQty)

def PriceListItem.checked (row : PriceListItem) : Bool := 0 ≤ row.unitPrice && 0 < row.minQty

def insertPriceList (s : State) (row : PriceList) : Except Refusal State :=
  if taken PriceList.key s.lists row then .error .uncaught else .ok { s with lists := s.lists ++ [row] }

def insertItem (s : State) (row : PriceListItem) : Except Refusal State :=
  if taken PriceListItem.key s.items row || !row.checked || row.variationId.any (· ∉ s.variations) then .error .uncaught
  else .ok { s with items := s.items ++ [row] }

def setItem (s : State) (i : Nat) (row : PriceListItem) : Except Refusal State :=
  if taken PriceListItem.key (s.items.eraseIdx i) row || !row.checked then .error .uncaught
  else .ok { s with items := s.items.set i row }

structure CreatePriceListRequest where
  name : String
  listType : PriceListType
  isDefault : Bool
  validFrom : Option Int
  validTo : Option Int

def CreatePriceListRequest.valid (data : CreatePriceListRequest) : Bool :=
  2 ≤ data.name.length && data.name.length ≤ 100 &&
    !(data.validFrom.any fun start => data.validTo.any fun stop => stop ≤ start)

def PriceList.demoted (businessId : Nat) (row : PriceList) : PriceList :=
  if row.businessId = businessId ∧ row.deletedAt = none ∧ row.isDefault = true then { row with isDefault := false } else row

def createPriceList (s : State) (businessId : Nat) (data : CreatePriceListRequest) : Except Refusal State := do
  refuseIf (!data.valid) 422 "Unprocessable Entity"
  let lists := if data.isDefault then s.lists.map (PriceList.demoted businessId) else s.lists
  insertPriceList { s with lists := lists }
    ⟨businessId,data.name,data.listType,data.isDefault,data.validFrom,data.validTo,none⟩

def getPriceListById (s : State) (priceListId businessId : Nat) : Except Refusal PriceList :=
  match s.lists[priceListId]?.filter fun row => row.businessId = businessId && row.deletedAt.isNone with
  | some row => .ok row
  | none => .error (.http 404 "Price list not found")

def verifyProduct (s : State) (productId businessId : Nat) : Except Refusal Unit :=
  refuseIf (!s.products.contains (businessId,productId)) 400 "Product not found"

structure SetPriceRequest where
  productId : Nat
  variationId : Option Nat
  unitPrice : ℚ
  minQty : ℚ

def SetPriceRequest.valid (data : SetPriceRequest) : Bool := 0 ≤ data.unitPrice && 0 < data.minQty

def PriceListItem.isFor (priceListId productId businessId : Nat) (variationId : Option Nat) (row : PriceListItem) : Bool :=
  row.priceListId = priceListId && row.productId = productId && row.businessId = businessId && row.deletedAt.isNone &&
    row.variationId = variationId

def State.itemsFor (s : State) (priceListId productId businessId : Nat) (variationId : Option Nat) :
    List (PriceListItem × Nat) :=
  s.items.zipIdx.filter fun row => row.1.isFor priceListId productId businessId variationId

/-- The state with the price, and the id of its row. -/
def putPrice (s : State) (priceListId businessId : Nat) (data : SetPriceRequest) :
    Option (PriceListItem × Nat) → Except Refusal (State × Nat)
  | some (item,i) => (setItem s i { item with
      unitPrice := Decimal.quantize 2 data.unitPrice, minQty := Decimal.quantize 4 data.minQty }).map (·,i)
  | none => (insertItem s ⟨businessId,priceListId,data.productId,data.variationId,Decimal.quantize 2 data.unitPrice,
      Decimal.quantize 4 data.minQty,none⟩).map (·,s.items.length)

def setPrice (s : State) (priceListId businessId : Nat) (data : SetPriceRequest) (createdBy : Nat) : Except Refusal State := do
  refuseIf (!data.valid) 422 "Unprocessable Entity"
  let _ ← getPriceListById s priceListId businessId
  verifyProduct s data.productId businessId
  refuseIf (data.unitPrice < 0) 400 "Price cannot be negative"
  let item ← scalarOneOrNone (s.itemsFor priceListId data.productId businessId data.variationId)
  let (t,i) ← putPrice s priceListId businessId data item
  let oldPrice := item.map (·.1.unitPrice)
  return { t with auditLogs := t.auditLogs ++
    [⟨businessId,createdBy,if oldPrice.isSome then "update" else "create",i,oldPrice,data.unitPrice,data.minQty⟩] }

/-- The default list where none is asked for. -/
def targetList (s : State) (businessId : Nat) : Option Nat → Except Refusal (Option Nat)
  | some priceListId => (getPriceListById s priceListId businessId).map fun _ => some priceListId
  | none => (scalarOneOrNone (s.lists.zipIdx.filter fun row => row.1.businessId = businessId && row.1.deletedAt.isNone &&
      row.1.isDefault)).map fun found => found.map (·.2)

def priceIn (s : State) (businessId productId : Nat) (variationId : Option Nat) : Option Nat → Except Refusal (Option ℚ)
  | none => .ok none
  | some priceListId => (scalarOneOrNone (s.itemsFor priceListId productId businessId variationId)).map fun found =>
      found.map (·.1.unitPrice)

def getProductPrice (s : State) (businessId productId : Nat) (variationId priceListId : Option Nat) :
    Except Refusal (Option ℚ) := do
  let list ← targetList s businessId priceListId
  priceIn s businessId productId variationId list

def PriceListItem.swept (productId businessId : Nat) (now : Int) (row : PriceListItem) : PriceListItem :=
  if row.productId = productId ∧ row.businessId = businessId ∧ row.deletedAt = none then { row with deletedAt := some now }
  else row

/-- A product goes with its prices. -/
def deleteProduct (s : State) (productId businessId : Nat) (now : Int) : Except Refusal State := do
  refuseIf (!s.products.contains (businessId,productId)) 404 "Product not found"
  return { s with
    items := s.items.map (PriceListItem.swept productId businessId now),
    products := s.products.filter (· ≠ (businessId,productId)) }

inductive Request
  | createPriceList (businessId : Nat) (data : CreatePriceListRequest)
  | setPrice (priceListId businessId : Nat) (data : SetPriceRequest) (createdBy : Nat)
  | deleteProduct (productId businessId : Nat) (now : Int)
  /-- New products and variations. -/
  | others (products : List (Nat × Nat)) (variations : List Nat)

def answer (s : State) : Request → Except Refusal State
  | .createPriceList businessId data => createPriceList s businessId data
  | .setPrice priceListId businessId data createdBy => setPrice s priceListId businessId data createdBy
  | .deleteProduct productId businessId now => deleteProduct s productId businessId now
  | .others products variations =>
    .ok { s with products := s.products ++ products, variations := s.variations ++ variations }

/-- The state after the requests. -/
def reached (requests : List Request) : State := Service.run answer .init requests

/-- The permissions refuse the request, or the pricing does. -/
inductive SaleRefusal
  | request (refusal : Refusal)
  | pricing (refusal : Billing.Refusal)
  deriving DecidableEq

def enforceLine (s : State) (businessId : Nat) (priceListId : Option Nat) (line : CreateSaleLineRequest) : Except Refusal Unit := do
  let catalogPrice ← getProductPrice s businessId line.productId line.variationId priceListId
  refuseIf (catalogPrice.any fun price => Pricing.invoiceRound2 line.unitPrice ≠ Pricing.invoiceRound2 price) 403
    "Permission required: sales.override_price"

def enforceLines (s : State) (businessId : Nat) (priceListId : Option Nat) : List CreateSaleLineRequest → Except Refusal Unit
  | [] => .ok ()
  | line :: rest => do
    enforceLine s businessId priceListId line
    enforceLines s businessId priceListId rest

def enforceSalePricingPermissions (s : State) (businessId : Nat) (priceListId : Option Nat)
    (lines : List CreateSaleLineRequest) (permissionKeys : List String) : Except Refusal Unit := do
  refuseIf (lines.any (fun line => Discounts.hasManualDiscount line.input) && "sales.apply_discount" ∉ permissionKeys) 403
    "Permission required: sales.apply_discount"
  if "sales.override_price" ∈ permissionKeys then .ok () else enforceLines s businessId priceListId lines

def computeSalePricing (s : State) (catalogue : Billing.Catalogue) (businessId : Nat) (priceListId : Option Nat)
    (data : CreateSaleRequest) (permissionKeys : List String) : Except SaleRefusal PricePreview := do
  (enforceSalePricingPermissions s businessId priceListId data.lines permissionKeys).mapError .request
  (Billing.computeSalePricing catalogue ("sales.override_tax" ∈ permissionKeys) data).mapError .pricing

end Prices
