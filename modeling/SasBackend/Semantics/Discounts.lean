import SasBackend.Library.Decimal

/-! How a discount scheme is spread over the lines of a sale.
-/
namespace Discounts

/-- `invoice_service._round2`, which rounds ties to the even cent. -/
def round2 (value : ℚ) : ℚ := Decimal.quantizeHalfEven 2 value

structure SaleLineInput where
  qty : ℚ
  unitPrice : ℚ
  discountPct : ℚ
  discountAmount : ℚ
  productId : Nat
  deriving DecidableEq

def hasManualDiscount (line : SaleLineInput) : Bool := line.discountPct > 0 || line.discountAmount > 0

def lineSubtotal (qty unitPrice : ℚ) : ℚ := round2 (qty * unitPrice)

structure AppliesToJson where
  scope : Option String
  productIds : List Nat
  categoryIds : List Nat
  deriving DecidableEq

structure Applies where
  scope : String
  productIds : List Nat
  categoryIds : List Nat
  deriving DecidableEq

/-- A scope that is missing or empty means all lines. -/
def parseAppliesTo : Option AppliesToJson → Applies
  | none => ⟨"all",[],[]⟩
  | some json => ⟨(json.scope.filter (· ≠ "")).getD "all",json.productIds,json.categoryIds⟩

def isLineScopeEligible (productId : Nat) (categoryId : Option Nat) (applies : Applies) : Bool :=
  if applies.scope = "all" then true
  else if applies.scope = "product" then applies.productIds.contains productId
  else if applies.scope = "category" then categoryId.any applies.categoryIds.contains
  else false

inductive DiscountType
  | percentage
  | fixedAmount
  | other (name : String)
  deriving DecidableEq

structure DiscountScheme where
  discountType : DiscountType
  discountValue : ℚ
  minPurchaseAmount : Option ℚ
  appliesToJson : Option AppliesToJson
  deriving DecidableEq

structure LineDiscount where
  discountPct : ℚ
  discountAmount : ℚ
  deriving DecidableEq

/-- The refusals of a scheme, and the two exceptions of a decimal division by zero. -/
inductive Failure
  | badRequest (detail : String)
  | invalidOperation
  | divisionByZero
  deriving DecidableEq

def divide (value divisor : ℚ) : Except Failure ℚ :=
  if divisor = 0 then .error (if value = 0 then .invalidOperation else .divisionByZero) else .ok (value / divisor)

/-- Which lines the scheme is for; `categoryOf` is the category of each product found. -/
def eligible (scheme : DiscountScheme) (categoryOf : Nat → Option Nat) (line : SaleLineInput) : Bool :=
  !hasManualDiscount line &&
    isLineScopeEligible line.productId (categoryOf line.productId) (parseAppliesTo scheme.appliesToJson)

def eligibleIndices (scheme : DiscountScheme) (categoryOf : Nat → Option Nat) (lines : List SaleLineInput) : List Nat :=
  (lines.zipIdx.filter fun entry => eligible scheme categoryOf entry.1).map Prod.snd

def lineDiscount (totalDiscount allocated lineTotal eligibleSubtotal : ℚ) : (lastLine : Bool) → Except Failure ℚ
  | true => .ok (round2 (totalDiscount - allocated))
  | false => do
    let share ← divide (totalDiscount * lineTotal) eligibleSubtotal
    .ok (round2 share)

/-- The loop over the eligible lines, of which the last one takes the remainder. -/
def allocate (totalDiscount eligibleSubtotal : ℚ) (subtotals : List ℚ) :
    List Nat → ℚ → List LineDiscount → Except Failure (List LineDiscount)
  | [],_,results => .ok results
  | index :: rest,allocated,results => do
    let lineTotal := subtotals.getD index 0
    let discount ← lineDiscount totalDiscount allocated lineTotal eligibleSubtotal rest.isEmpty
    allocate totalDiscount eligibleSubtotal subtotals rest (allocated + discount)
      (results.set index ⟨0,min discount lineTotal⟩)

def applyDiscountScheme (scheme : DiscountScheme) (lines : List SaleLineInput) (categoryOf : Nat → Option Nat) :
    Except Failure (List LineDiscount) :=
  let subtotals := lines.map fun line => lineSubtotal line.qty line.unitPrice
  let indices := eligibleIndices scheme categoryOf lines
  if indices.isEmpty then .error (.badRequest "No sale lines eligible for discount scheme")
  else
    let eligibleSubtotal := round2 (indices.map fun index => subtotals.getD index 0).sum
    if scheme.minPurchaseAmount.any (eligibleSubtotal < ·) then
      .error (.badRequest "Minimum purchase amount not met for discount scheme")
    else
      let results := lines.map fun _ => ⟨0,0⟩
      match scheme.discountType with
      | .percentage => .ok (indices.foldl (fun results index => results.set index ⟨scheme.discountValue,0⟩) results)
      | .fixedAmount =>
        allocate (min scheme.discountValue eligibleSubtotal) eligibleSubtotal subtotals indices 0 results
      | .other name => .error (.badRequest ("Unsupported discount scheme type: " ++ name))

end Discounts
