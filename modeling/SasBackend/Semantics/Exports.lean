import SasBackend.Library.Calendar
import SasBackend.Library.Csv
import SasBackend.Library.DecimalText
import SasBackend.Library.Digits

/-! Sales and stock as comma-separated values, with text that a spreadsheet would take for a formula neutralised.
The rows are those the statements return.
-/
namespace Exports
open Csv (Text)
open DecimalText (Decimal)

/-- What Python does with digits outside of ASCII and with `%Y`. -/
structure Platform where
  isDigit : Char → Bool
  ascii : ∀ c, c.toNat < 128 → isDigit c = c.isDigit
  yearText : Nat → Text

variable (platform : Platform)

def formulaTriggers : List Char := ['=','+','-','@','\t','\r']

def triggered (value : Text) : Bool := value.head?.any (formulaTriggers.contains ·)

def unsigned (value : Text) : Text :=
  match value with
  | '+' :: rest => rest
  | '-' :: rest => rest
  | _ => value

/-- `$` also matches before a line feed at the very end. -/
def atEnd (rest : Text) : Bool := rest = [] || rest = ['\n']

def fractional (rest : Text) : Bool :=
  match rest with
  | '.' :: more => more.takeWhile platform.isDigit ≠ [] && atEnd (more.dropWhile platform.isDigit)
  | _ => false

def plainNumber (value : Text) : Bool :=
  let body := unsigned value
  body.takeWhile platform.isDigit ≠ [] &&
    (atEnd (body.dropWhile platform.isDigit) || fractional platform (body.dropWhile platform.isDigit))

def sanitizeCell (value : Text) : Text :=
  if triggered value && !plainNumber platform value then '\'' :: value else value

def safeRow (values : List Text) : List Text := values.map (sanitizeCell platform)

def salesHeaders : List Text :=
  ["Sale Number","Date","Branch","Customer","Sale Type","Status","Subtotal","Discount","Tax","Total Amount","Total Paid",
    "Balance Due","Payment Methods","Cashier"].map String.toList

structure SalesRow where
  saleNumber : Text
  soldAt : Option Calendar.Moment
  branchName : Text
  customerName : Text
  saleType : Text
  status : Text
  subtotal : Decimal
  discount : Decimal
  tax : Decimal
  totalAmount : Decimal
  totalPaid : Decimal
  balanceDue : Decimal
  paymentMethods : Text
  cashierName : Text

/-- `%Y-%m-%d %H:%M`. -/
def dateText (moment : Calendar.Moment) : Text :=
  let minutes := moment.time / 60000000
  platform.yearText moment.year ++ '-' :: Digits.padded 2 moment.month ++ '-' :: Digits.padded 2 moment.day ++
    ' ' :: Digits.padded 2 (minutes / 60) ++ ':' :: Digits.padded 2 (minutes % 60)

def salesRowToList (row : SalesRow) : List Text :=
  [row.saleNumber,(row.soldAt.map (dateText platform)).getD [],row.branchName,row.customerName,row.saleType,row.status,
    DecimalText.str row.subtotal,DecimalText.str row.discount,DecimalText.str row.tax,DecimalText.str row.totalAmount,
    DecimalText.str row.totalPaid,DecimalText.str row.balanceDue,row.paymentMethods,row.cashierName]

def exportSalesCsv (rows : List SalesRow) : Text :=
  Csv.write (salesHeaders :: rows.map fun row => safeRow platform (salesRowToList platform row))

def inventoryHeaders : List Text :=
  ["Product","Variation","Category","Branch","Current Qty","Unit","Cost Price","Total Value"].map String.toList

structure InventoryRow where
  productName : Text
  variationName : Text
  categoryName : Text
  branchName : Text
  currentQty : Decimal
  unitSymbol : Text
  costPrice : Decimal
  totalValue : Decimal

def inventoryRowToList (row : InventoryRow) : List Text :=
  [row.productName,row.variationName,row.categoryName,row.branchName,DecimalText.str row.currentQty,row.unitSymbol,
    DecimalText.str row.costPrice,DecimalText.str row.totalValue]

def exportInventoryCsv (rows : List InventoryRow) : Text :=
  Csv.write (inventoryHeaders :: rows.map fun row => safeRow platform (inventoryRowToList row))

/-- The cells of the Excel sheets, row by row. -/
def salesSheet (rows : List SalesRow) : List (List Text) :=
  salesHeaders :: rows.map fun row => (salesRowToList platform row).map (sanitizeCell platform)

def inventorySheet (rows : List InventoryRow) : List (List Text) :=
  inventoryHeaders :: rows.map fun row => (inventoryRowToList row).map (sanitizeCell platform)

end Exports
