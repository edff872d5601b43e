import Mathlib.Data.Rat.Defs
import SasBackend.Library.Service
import SasBackend.Library.UniqueKeys

/-! Products with their variations and barcodes, of all businesses in the same tables. A row's id is its place in its table.
A request that is refused leaves everything as it was.
-/
namespace Catalogue
open Service (Refusal refuseIf)
open UniqueKeys (taken)

structure Details where
  name : String
  isSellable : Bool
  isPurchasable : Bool
  description : Option String
  imageUrl : Option String
  shelfLifeDays : Option Int
  minStockLevel : Option ℚ
  maxStockLevel : Option ℚ

structure Product where
  businessId : Nat
  categoryId : Option Nat
  brandId : Option Nat
  baseUnitId : Nat
  sku : Option String
  productType : String
  trackingType : String
  details : Details
  isActive : Bool
  deletedAt : Option Int

structure Variation where
  businessId : Nat
  productId : Nat
  name : String
  sku : Option String
  unitId : Option Nat
  isDefault : Bool
  isActive : Bool
  weightGrams : Option ℚ
  deletedAt : Option Int

structure Barcode where
  businessId : Nat
  productId : Nat
  variationId : Option Nat
  barcode : String
  barcodeType : String
  isPrimary : Bool
  deletedAt : Option Int

/-- A product's place at a branch, or its price in a list. -/
structure Dependent where
  businessId : Nat
  productId : Nat
  deletedAt : Option Int

/-- The live categories, brands and units, each with its business. -/
structure References where
  categories : List (Nat × Nat)
  brands : List (Nat × Nat)
  units : List (Nat × Nat)

structure State where
  products : List Product
  variations : List Variation
  barcodes : List Barcode
  locations : List Dependent
  prices : List Dependent
  references : References

def State.init : State := ⟨[],[],[],[],[],⟨[],[],[]⟩⟩

def Product.key (p : Product) : Option (Nat × String) := p.sku.map (p.businessId,·)

def Variation.key (v : Variation) : Option (Nat × String) := v.sku.map (v.businessId,·)

def Barcode.key (b : Barcode) : Option (Nat × String) := some (b.businessId,b.barcode)

section Tables
variable {α κ : Type} [DecidableEq κ] (key : α → Option κ)

/-- The unique constraint counts deleted rows as well. -/
def insertRow (rows : List α) (row : α) : Except Refusal (List α) :=
  if taken key rows row then .error .uncaught else .ok (rows ++ [row])

def setRow (rows : List α) (id : Nat) (row : α) : Except Refusal (List α) :=
  if taken key (rows.eraseIdx id) row then .error .uncaught else .ok (rows.set id row)

end Tables

/-- What `scalar_one_or_none` says of so many rows. -/
def expectNone (found : Nat) (detail : String) : Except Refusal Unit :=
  match found with
  | 0 => .ok ()
  | 1 => .error (.http 409 detail)
  | _ => .error .uncaught

def checkSkuUnique (s : State) (businessId : Nat) (sku : String) (excludeProductId : Option Nat) : Except Refusal Unit :=
  expectNone (s.products.zipIdx.countP fun row => row.1.businessId = businessId && row.1.sku = some sku &&
    row.1.deletedAt.isNone && some row.2 ≠ excludeProductId) "SKU already exists"

def checkVariationSkuUnique (s : State) (businessId : Nat) (sku : String) (excludeVariationId : Option Nat) :
    Except Refusal Unit :=
  expectNone (s.variations.zipIdx.countP fun row => row.1.businessId = businessId && row.1.sku = some sku &&
    row.1.deletedAt.isNone && some row.2 ≠ excludeVariationId) "Variation SKU already exists"

def liveCode (businessId : Nat) (value : String) (b : Barcode) : Bool :=
  b.businessId = businessId && b.barcode = value && b.deletedAt.isNone

def checkBarcodeUnique (s : State) (businessId : Nat) (value : String) : Except Refusal Unit :=
  expectNone (s.barcodes.countP (liveCode businessId value)) "Barcode already exists"

def verify (rows : List (Nat × Nat)) (businessId : Nat) (id : Option Nat) (detail : String) : Except Refusal Unit :=
  match id with
  | none => .ok ()
  | some id => refuseIf (!rows.contains (businessId,id)) 400 detail

/-- A SKU that is not the empty text. -/
def truthy (sku : Option String) : Option String := sku.filter (· ≠ "")

def checkGiven (check : String → Except Refusal Unit) (sku : Option String) : Except Refusal Unit :=
  match truthy sku with
  | some sku => check sku
  | none => .ok ()

def checkChanged (check : String → Except Refusal Unit) (old new : Option String) : Except Refusal Unit :=
  match new with
  | some sku => if some sku ≠ old then check sku else .ok ()
  | none => .ok ()

def verifyCategory (s : State) (id : Option Nat) (businessId : Nat) : Except Refusal Unit :=
  verify s.references.categories businessId id "Category not found"

def verifyBrand (s : State) (id : Option Nat) (businessId : Nat) : Except Refusal Unit :=
  verify s.references.brands businessId id "Brand not found"

def verifyUnit (s : State) (id : Option Nat) (businessId : Nat) : Except Refusal Unit :=
  verify s.references.units businessId id "Unit not found"

def findProduct (s : State) (productId businessId : Nat) : Option Product :=
  s.products[productId]?.filter fun product => product.businessId = businessId && product.deletedAt.isNone

def getProductById (s : State) (productId businessId : Nat) : Except Refusal Product :=
  match findProduct s productId businessId with
  | some product => .ok product
  | none => .error (.http 404 "Product not found")

def findVariation (s : State) (variationId productId businessId : Nat) : Option Variation :=
  s.variations[variationId]?.filter fun variation => variation.productId = productId &&
    variation.businessId = businessId && variation.deletedAt.isNone

def getVariation (s : State) (variationId productId businessId : Nat) : Except Refusal Variation :=
  match findVariation s variationId productId businessId with
  | some variation => .ok variation
  | none => .error (.http 404 "Variation not found")

structure CreateVariationRequest where
  name : String
  sku : Option String
  unitId : Option Nat
  isDefault : Bool
  weightGrams : Option ℚ

def Variation.unset (productId businessId : Nat) (variation : Variation) : Variation :=
  if variation.productId = productId ∧ variation.businessId = businessId ∧ variation.deletedAt = none ∧
    variation.isDefault = true then { variation with isDefault := false } else variation

def unsetDefaultVariations (s : State) (productId businessId : Nat) : State :=
  { s with variations := s.variations.map (Variation.unset productId businessId) }

def insertVariation (s : State) (variation : Variation) : Except Refusal State := do
  let variations ← insertRow Variation.key s.variations variation
  return { s with variations := variations }

/-- Whether the variation is the default, and whether a default is assigned after it. -/
def chosenDefault (all : List CreateVariationRequest) (assigned : Bool) (index : Nat) (data : CreateVariationRequest) :
    Bool × Bool :=
  if all.length = 1 then (true,assigned)
  else if !assigned && data.isDefault then (true,true)
  else if !assigned && index = 0 && !all.any (·.isDefault) then (true,true)
  else (false,assigned)

def createEach (all : List CreateVariationRequest) (productId businessId : Nat) :
    State → Bool → Nat → List CreateVariationRequest → Except Refusal State
  | s, _, _, [] => .ok s
  | s, assigned, index, data :: rest => do
    checkGiven (checkVariationSkuUnique s businessId · none) data.sku
    verifyUnit s data.unitId businessId
    let chosen := chosenDefault all assigned index data
    let cleared := if chosen.1 then unsetDefaultVariations s productId businessId else s
    let t ← insertVariation cleared
      ⟨businessId,productId,data.name,data.sku,data.unitId,chosen.1,true,data.weightGrams,none⟩
    createEach all productId businessId t chosen.2 (index + 1) rest

def createVariations (s : State) (productId businessId baseUnitId : Nat) (data : List CreateVariationRequest) :
    Except Refusal State :=
  if data.isEmpty then
    insertVariation s ⟨businessId,productId,"Default",none,some baseUnitId,true,true,none,none⟩
  else createEach data productId businessId s false 0 data

structure CreateProductRequest where
  categoryId : Option Nat
  brandId : Option Nat
  baseUnitId : Nat
  sku : Option String
  productType : String
  trackingType : String
  details : Details
  variations : List CreateVariationRequest

def createProduct (s : State) (businessId : Nat) (data : CreateProductRequest) : Except Refusal State := do
  verifyCategory s data.categoryId businessId
  verifyBrand s data.brandId businessId
  refuseIf (!s.references.units.contains (businessId,data.baseUnitId)) 400
    "Unit not found or does not belong to this business"
  checkGiven (checkSkuUnique s businessId · none) data.sku
  let products ← insertRow Product.key s.products ⟨businessId,data.categoryId,data.brandId,data.baseUnitId,data.sku,
    data.productType,data.trackingType,data.details,true,none⟩
  createVariations { s with products := products } s.products.length businessId data.baseUnitId data.variations

structure UpdateProductRequest where
  categoryId : Option Nat
  brandId : Option Nat
  sku : Option String
  name : Option String
  isSellable : Option Bool
  isPurchasable : Option Bool
  isActive : Option Bool
  description : Option String
  imageUrl : Option String
  shelfLifeDays : Option Int
  minStockLevel : Option ℚ
  maxStockLevel : Option ℚ

def updated (product : Product) (data : UpdateProductRequest) : Product :=
  { product with
    categoryId := data.categoryId.or product.categoryId
    brandId := data.brandId.or product.brandId
    sku := data.sku.or product.sku
    isActive := data.isActive.getD product.isActive
    details := ⟨data.name.getD product.details.name,data.isSellable.getD product.details.isSellable,
      data.isPurchasable.getD product.details.isPurchasable,data.description.or product.details.description,
      data.imageUrl.or product.details.imageUrl,data.shelfLifeDays.or product.details.shelfLifeDays,
      data.minStockLevel.or product.details.minStockLevel,data.maxStockLevel.or product.details.maxStockLevel⟩ }

def updateProduct (s : State) (productId businessId : Nat) (data : UpdateProductRequest) : Except Refusal State := do
  let product ← getProductById s productId businessId
  verifyCategory s data.categoryId businessId
  verifyBrand s data.brandId businessId
  checkChanged (checkSkuUnique s businessId · (some productId)) product.sku data.sku
  let products ← setRow Product.key s.products productId (updated product data)
  return { s with products := products }

def addVariation (s : State) (productId businessId : Nat) (data : CreateVariationRequest) : Except Refusal State := do
  let _ ← getProductById s productId businessId
  checkGiven (checkVariationSkuUnique s businessId · none) data.sku
  verifyUnit s data.unitId businessId
  insertVariation (if data.isDefault then unsetDefaultVariations s productId businessId else s)
    ⟨businessId,productId,data.name,data.sku,data.unitId,data.isDefault,true,data.weightGrams,none⟩

structure UpdateVariationRequest where
  name : Option String
  sku : Option String
  unitId : Option Nat
  isActive : Option Bool
  weightGrams : Option ℚ

def updatedVariation (variation : Variation) (data : UpdateVariationRequest) : Variation :=
  { variation with
    name := data.name.getD variation.name
    sku := data.sku.or variation.sku
    unitId := data.unitId.or variation.unitId
    isActive := data.isActive.getD variation.isActive
    weightGrams := data.weightGrams.or variation.weightGrams }

def updateVariation (s : State) (variationId productId businessId : Nat) (data : UpdateVariationRequest) :
    Except Refusal State := do
  let _ ← getProductById s productId businessId
  let variation ← getVariation s variationId productId businessId
  checkChanged (checkVariationSkuUnique s businessId · (some variationId)) variation.sku data.sku
  -- The new SKU reaches the table before the unit is looked up.
  let variations ← setRow Variation.key s.variations variationId (updatedVariation variation data)
  verifyUnit s data.unitId businessId
  return { s with variations := variations }

structure CreateBarcodeRequest where
  barcode : String
  barcodeType : String
  variationId : Option Nat
  isPrimary : Bool

def Barcode.unset (productId businessId : Nat) (code : Barcode) : Barcode :=
  if code.productId = productId ∧ code.businessId = businessId ∧ code.deletedAt = none ∧ code.isPrimary = true then
    { code with isPrimary := false } else code

def addBarcode (s : State) (productId businessId : Nat) (data : CreateBarcodeRequest) : Except Refusal State := do
  let _ ← getProductById s productId businessId
  checkBarcodeUnique s businessId data.barcode
  refuseIf (data.variationId.any fun id => (findVariation s id productId businessId).isNone) 400
    "Variation not found for this product"
  let barcodes ← insertRow Barcode.key
    (if data.isPrimary then s.barcodes.map (Barcode.unset productId businessId) else s.barcodes)
    ⟨businessId,productId,data.variationId,data.barcode,data.barcodeType,data.isPrimary,none⟩
  return { s with barcodes := barcodes }

/-- The id of the product that has the barcode, and the product. -/
def searchByBarcode (s : State) (businessId : Nat) (value : String) : Except Refusal (Nat × Product) :=
  match s.barcodes.filter (liveCode businessId value) with
  | [] => .error (.http 404 "Product not found for barcode")
  | [code] => (getProductById s code.productId businessId).map fun product => (code.productId,product)
  | _ => .error .uncaught

def Dependent.sweep (productId businessId : Nat) (now : Int) (row : Dependent) : Dependent :=
  if row.productId = productId ∧ row.businessId = businessId ∧ row.deletedAt = none then
    { row with deletedAt := some now } else row

def Barcode.sweep (productId businessId : Nat) (now : Int) (code : Barcode) : Barcode :=
  if code.productId = productId ∧ code.businessId = businessId ∧ code.deletedAt = none then
    { code with deletedAt := some now } else code

def Variation.sweep (productId businessId : Nat) (now : Int) (variation : Variation) : Variation :=
  if variation.productId = productId ∧ variation.businessId = businessId ∧ variation.deletedAt = none then
    { variation with deletedAt := some now } else variation

def deleteProduct (s : State) (productId businessId : Nat) (now : Int) : Except Refusal State := do
  let product ← getProductById s productId businessId
  return { s with
    locations := s.locations.map (Dependent.sweep productId businessId now)
    prices := s.prices.map (Dependent.sweep productId businessId now)
    barcodes := s.barcodes.map (Barcode.sweep productId businessId now)
    variations := s.variations.map (Variation.sweep productId businessId now)
    products := s.products.set productId { product with deletedAt := some now } }

inductive Request
  | createProduct (businessId : Nat) (data : CreateProductRequest)
  | updateProduct (productId businessId : Nat) (data : UpdateProductRequest)
  | addVariation (productId businessId : Nat) (data : CreateVariationRequest)
  | updateVariation (variationId productId businessId : Nat) (data : UpdateVariationRequest)
  | addBarcode (productId businessId : Nat) (data : CreateBarcodeRequest)
  | deleteProduct (productId businessId : Nat) (now : Int)
  /-- Other requests change categories, brands, units, places and prices. -/
  | others (references : References) (locations prices : List Dependent)

def answer (s : State) : Request → Except Refusal State
  | .createProduct businessId data => createProduct s businessId data
  | .updateProduct productId businessId data => updateProduct s productId businessId data
  | .addVariation productId businessId data => addVariation s productId businessId data
  | .updateVariation variationId productId businessId data => updateVariation s variationId productId businessId data
  | .addBarcode productId businessId data => addBarcode s productId businessId data
  | .deleteProduct productId businessId now => deleteProduct s productId businessId now
  | .others references locations prices => .ok { s with references := references, locations := locations, prices := prices }

def served : State → Request → State := Service.served answer

end Catalogue
