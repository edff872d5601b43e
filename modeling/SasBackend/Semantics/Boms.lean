import SasBackend.Library.Service
import SasBackend.Library.UniqueKeys
import SasBackend.Semantics.Stock

/-! Bills of materials with their versions and lines, and what production takes of them. A row's id is its place in its table.
-/
namespace Boms
open Service (Refusal refuseIf)

structure BomHeader where
  businessId : Nat
  productId : Nat
  variationId : Option Nat
  name : String
  outputQty : ℚ
  isActive : Bool
  version : Nat
  deletedAt : Option Int
  deriving DecidableEq

structure BomLine where
  businessId : Nat
  bomHeaderId : Nat
  ingredientProductId : Nat
  ingredientVariationId : Option Nat
  qtyRequired : ℚ
  unitId : Option Nat
  wastagePct : ℚ
  sortOrder : Int
  deletedAt : Option Int
  deriving DecidableEq

structure Product where
  businessId : Nat
  id : Nat
  productType : String
  deriving DecidableEq

/-- The live products, variations (of a business and a product) and units. -/
structure Surroundings where
  products : List Product
  variations : List (Nat × Nat × Nat)
  units : List (Nat × Nat)

structure State where
  headers : List BomHeader
  lines : List BomLine
  around : Surroundings

def State.init : State := ⟨[],[],⟨[],[],[]⟩⟩

def findProduct (s : State) (productId businessId : Nat) : Option Product :=
  s.around.products.find? fun product => product.id = productId && product.businessId = businessId

def verifyProduct (s : State) (productId businessId : Nat) : Except Refusal Product :=
  match findProduct s productId businessId with
  | some product => .ok product
  | none => .error (.http 400 "Product not found")

def verifyVariation (s : State) (productId businessId : Nat) (variationId : Option Nat) : Except Refusal Unit :=
  refuseIf (variationId.any fun id => !s.around.variations.contains (businessId,productId,id)) 400 "Variation not found for product"

def verifyUnit (s : State) (businessId : Nat) (unitId : Option Nat) : Except Refusal Unit :=
  refuseIf (unitId.any fun id => !s.around.units.contains (businessId,id)) 400 "Unit not found"

def verifyManufacturedProduct (s : State) (productId businessId : Nat) (variationId : Option Nat) : Except Refusal Unit := do
  let product ← verifyProduct s productId businessId
  refuseIf (product.productType ≠ "manufactured") 400 "BOM finished product must have product_type 'manufactured'"
  verifyVariation s productId businessId variationId

structure BomLineRequest where
  ingredientProductId : Nat
  ingredientVariationId : Option Nat
  qtyRequired : ℚ
  unitId : Option Nat
  wastagePct : ℚ
  sortOrder : Int

def BomLineRequest.valid (line : BomLineRequest) : Bool :=
  0 < line.qtyRequired && 0 ≤ line.wastagePct && line.wastagePct ≤ 100

def BomLineRequest.ingredient (line : BomLineRequest) : Nat × Option Nat := (line.ingredientProductId,line.ingredientVariationId)

def validateLine (s : State) (businessId finishedProductId : Nat) (seen : List (Nat × Option Nat)) (line : BomLineRequest) :
    Except Refusal Unit := do
  refuseIf (line.ingredientProductId = finishedProductId) 400 "BOM ingredient cannot be the same as the finished product"
  refuseIf (line.ingredient ∈ seen) 400 "Duplicate ingredient line in BOM"
  let _ ← verifyProduct s line.ingredientProductId businessId
  verifyVariation s line.ingredientProductId businessId line.ingredientVariationId
  verifyUnit s businessId line.unitId

def validateEach (s : State) (businessId finishedProductId : Nat) :
    List (Nat × Option Nat) → List BomLineRequest → Except Refusal Unit
  | _,[] => .ok ()
  | seen,line :: rest => do
    validateLine s businessId finishedProductId seen line
    validateEach s businessId finishedProductId (line.ingredient :: seen) rest

def validateBomLines (s : State) (businessId finishedProductId : Nat) (lines : List BomLineRequest) : Except Refusal Unit := do
  refuseIf lines.isEmpty 400 "BOM must have at least one ingredient line"
  validateEach s businessId finishedProductId [] lines

def BomHeader.isFor (businessId productId : Nat) (variationId : Option Nat) (header : BomHeader) : Bool :=
  header.businessId = businessId && header.productId = productId && header.deletedAt.isNone && header.variationId = variationId

def nextBomVersion (s : State) (businessId productId : Nat) (variationId : Option Nat) : Nat :=
  ((s.headers.filter (BomHeader.isFor businessId productId variationId)).map BomHeader.version).foldr max 0 + 1

def BomHeader.deactivated (header : BomHeader) : BomHeader := { header with isActive := false }

def deactivateOtherActiveBoms (s : State) (businessId productId : Nat) (variationId excludeBomId : Option Nat) : State :=
  { s with headers := s.headers.mapIdx fun i header =>
      if header.isFor businessId productId variationId && header.isActive && some i ≠ excludeBomId then header.deactivated
      else header }

/-- The check of the column. -/
def checkOutputQty (header : BomHeader) : Except Refusal Unit := if 0 < header.outputQty then .ok () else .error .uncaught

def BomLine.retired (bomHeaderId : Nat) (now : Int) (line : BomLine) : BomLine :=
  if line.bomHeaderId = bomHeaderId ∧ line.deletedAt = none then { line with deletedAt := some now } else line

def newLine (businessId bomHeaderId : Nat) (line : BomLineRequest) : BomLine :=
  ⟨businessId,bomHeaderId,line.ingredientProductId,line.ingredientVariationId,Decimal.quantize 4 line.qtyRequired,line.unitId,
    Decimal.quantize 2 line.wastagePct,line.sortOrder,none⟩

/-- The checks of the table. -/
def BomLine.checked (line : BomLine) : Bool := 0 < line.qtyRequired && 0 ≤ line.wastagePct && line.wastagePct ≤ 100

def replaceBomLines (s : State) (businessId bomHeaderId : Nat) (lines : List BomLineRequest) (now : Int) : Except Refusal State :=
  if (lines.map (newLine businessId bomHeaderId)).all BomLine.checked then
    .ok { s with lines := s.lines.map (BomLine.retired bomHeaderId now) ++ lines.map (newLine businessId bomHeaderId) }
  else .error .uncaught

def findBom (s : State) (bomId businessId : Nat) : Option BomHeader :=
  s.headers[bomId]?.filter fun header => header.businessId = businessId && header.deletedAt.isNone

def getBomHeader (s : State) (bomId businessId : Nat) : Except Refusal BomHeader :=
  match findBom s bomId businessId with
  | some header => .ok header
  | none => .error (.http 404 "BOM not found")

structure CreateBomRequest where
  productId : Nat
  variationId : Option Nat
  name : String
  outputQty : ℚ
  isActive : Bool
  lines : List BomLineRequest

/-- The name comes without the white space around it. -/
def CreateBomRequest.valid (data : CreateBomRequest) : Bool :=
  1 ≤ data.name.length && data.name.length ≤ 255 && 0 < data.outputQty && !data.lines.isEmpty &&
    data.lines.all BomLineRequest.valid

def createBomHeader (s : State) (businessId : Nat) (data : CreateBomRequest) (now : Int) : Except Refusal State := do
  refuseIf (!data.valid) 422 "Unprocessable Entity"
  verifyManufacturedProduct s data.productId businessId data.variationId
  validateBomLines s businessId data.productId data.lines
  let version := nextBomVersion s businessId data.productId data.variationId
  let t := if data.isActive then deactivateOtherActiveBoms s businessId data.productId data.variationId none else s
  let header : BomHeader := ⟨businessId,data.productId,data.variationId,data.name,Decimal.quantize 4 data.outputQty,
    data.isActive,version,none⟩
  checkOutputQty header
  replaceBomLines { t with headers := t.headers ++ [header] } businessId s.headers.length data.lines now

structure UpdateBomRequest where
  name : Option String
  outputQty : Option ℚ
  isActive : Option Bool
  lines : Option (List BomLineRequest)

def UpdateBomRequest.valid (data : UpdateBomRequest) : Bool :=
  data.name.all (fun name => 1 ≤ name.length && name.length ≤ 255) && data.outputQty.all (0 < ·) &&
    data.lines.all (·.all BomLineRequest.valid)

def updateLines (s : State) (businessId bomId productId : Nat) (now : Int) : Option (List BomLineRequest) → Except Refusal State
  | none => .ok s
  | some lines => do
    validateBomLines s businessId productId lines
    replaceBomLines s businessId bomId lines now

def updateBomHeader (s : State) (bomId businessId : Nat) (data : UpdateBomRequest) (now : Int) : Except Refusal State := do
  refuseIf (!data.valid) 422 "Unprocessable Entity"
  let header ← getBomHeader s bomId businessId
  let changed := { header with
    name := data.name.getD header.name
    outputQty := (data.outputQty.map (Decimal.quantize 4)).getD header.outputQty
    isActive := data.isActive.getD header.isActive }
  checkOutputQty changed
  let t := { s with headers := s.headers.set bomId changed }
  let u := if data.isActive = some true then
      deactivateOtherActiveBoms t businessId header.productId header.variationId (some bomId)
    else t
  updateLines u businessId bomId header.productId now data.lines

def deleteBomHeader (s : State) (bomId businessId : Nat) (now : Int) : Except Refusal State := do
  let header ← getBomHeader s bomId businessId
  return { s with
    headers := s.headers.set bomId { header with deletedAt := some now, isActive := false }
    lines := s.lines.map (BomLine.retired bomId now) }

inductive Request
  | createBomHeader (businessId : Nat) (data : CreateBomRequest) (now : Int)
  | updateBomHeader (bomId businessId : Nat) (data : UpdateBomRequest) (now : Int)
  | deleteBomHeader (bomId businessId : Nat) (now : Int)
  /-- Products, variations and units come and go. -/
  | others (around : Surroundings)

def answer (s : State) : Request → Except Refusal State
  | .createBomHeader businessId data now => createBomHeader s businessId data now
  | .updateBomHeader bomId businessId data now => updateBomHeader s bomId businessId data now
  | .deleteBomHeader bomId businessId now => deleteBomHeader s bomId businessId now
  | .others around => .ok { s with around := around }

def reached (requests : List Request) : State := Service.run answer .init requests

def activeBomLines (s : State) (bomId : Nat) : List BomLine :=
  s.lines.filter fun line => line.bomHeaderId = bomId && line.deletedAt.isNone

def verifyActiveBom (s : State) (bomId businessId : Nat) : Except Refusal BomHeader :=
  match findBom s bomId businessId with
  | none => .error (.http 400 "BOM not found")
  | some bom =>
    if !bom.isActive then .error (.http 400 "Production order requires an active BOM")
    else if (activeBomLines s bomId).isEmpty then .error (.http 400 "BOM has no ingredient lines")
    else .ok bom

/-- Lines of one order stay in the order of their ids. -/
def getBomLinesForProduction (s : State) (bomId businessId : Nat) : Except Refusal (List BomLine) :=
  let lines := ((activeBomLines s bomId).filter (·.businessId = businessId)).mergeSort fun a b => a.sortOrder ≤ b.sortOrder
  if lines.isEmpty then .error (.http 400 "BOM has no ingredient lines") else .ok lines

def BomLine.recipe (line : BomLine) : Stock.BomLine :=
  ⟨line.ingredientProductId,line.ingredientVariationId,line.qtyRequired,line.wastagePct⟩

/-- The quantity per unit and in all, or an exception. -/
def computeIngredientQty (outputQty qtyToProduce : ℚ) (line : BomLine) : Except Refusal (ℚ × ℚ) :=
  if outputQty ≤ 0 then .error .uncaught
  else .ok (Stock.perUnit line.recipe outputQty,Stock.computeIngredientQtyForProduction line.recipe outputQty qtyToProduce)

def previewBomRequirements (s : State) (businessId bomId : Nat) (qtyToProduce : ℚ) : Except Refusal (List (BomLine × ℚ × ℚ)) := do
  let bom ← getBomHeader s bomId businessId
  (activeBomLines s bomId).mapM fun line =>
    (computeIngredientQty bom.outputQty qtyToProduce line).map fun quantities => (line,quantities)

end Boms
