import Mathlib.Data.List.Sort
import SasBackend.Library.Grouping
import SasBackend.Library.IsoDate
import SasBackend.Semantics.Enums
import SasBackend.Semantics.FifoCost

/-! The reports, as queries of the tables and what is made of the rows they give. A row's id is its place in its table.
The session's time zone shows an instant on the calendar; dates are numbers of days.
-/
namespace Reports
open SasBackend Grouping
open Calendar (Moment)

structure Sale where
  businessId : Nat
  branchId : Nat
  customerId : Option Nat
  createdBy : Nat
  saleNumber : String
  saleType : SaleType
  status : SaleStatus
  soldAt : Int
  deletedAt : Option Int
  deriving DecidableEq

structure SaleLine where
  businessId : Nat
  saleId : Nat
  productId : Nat
  variationId : Option Nat
  qty : ℚ
  unitPrice : ℚ
  discountAmount : ℚ
  taxRate : ℚ
  taxAmount : ℚ
  costPerUnit : ℚ
  deletedAt : Option Int
  deriving DecidableEq

structure SalePayment where
  businessId : Nat
  saleId : Nat
  paymentMethod : PaymentMethod
  status : PaymentStatus
  amount : ℚ
  deletedAt : Option Int
  deriving DecidableEq

structure SaleReturn where
  businessId : Nat
  branchId : Nat
  createdBy : Nat
  returnedAt : Int
  deletedAt : Option Int

structure SaleReturnLine where
  businessId : Nat
  saleReturnId : Nat
  qty : ℚ
  unitPrice : ℚ
  taxAmount : ℚ
  deletedAt : Option Int

structure Expense where
  businessId : Nat
  branchId : Nat
  expenseCategoryId : Nat
  amount : ℚ
  taxAmount : ℚ
  expenseDate : Nat
  deletedAt : Option Int

structure ExpenseCategory where
  name : String
  deletedAt : Option Int

/-- A branch or a customer. -/
structure Party where
  businessId : Nat
  name : String

/-- Foreign keys see to it that the users, branches, customers and products that rows name are there. -/
structure Database where
  sales : List Sale
  saleLines : List SaleLine
  salePayments : List SalePayment
  saleReturns : List SaleReturn
  saleReturnLines : List SaleReturnLine
  expenses : List Expense
  expenseCategories : List ExpenseCategory
  categoryOf : Nat → Option Nat
  branch : Nat → Party
  customer : Nat → Party
  userName : Nat → String
  productName : Nat → String
  variationName : Nat → String
  categoryName : Nat → String

/-- The days from the year 1 up to this one; the first was a Monday. -/
def dayNumber (m : Moment) : Nat :=
  365 * (m.year - 1) + (m.year - 1) / 4 - (m.year - 1) / 100 + (m.year - 1) / 400 +
    ((List.range (m.month - 1)).map fun k => Calendar.daysIn m.year (k + 1)).sum + m.day

def midnight (m : Moment) : Moment :=
  Calendar.midnight m.year m.month m.day ⟨⟨m.year_pos,m.year_le⟩,⟨m.month_pos,m.month_le⟩,m.day_pos,m.day_le⟩

/-- The day before, which the first day of the calendar has not. -/
def dayBefore (m : Moment) : Moment :=
  if more : 1 < m.day then
    { m with day := m.day - 1, day_pos := by omega, day_le := (Nat.sub_le _ _).trans m.day_le }
  else if months : 1 < m.month then
    { m with
      month := m.month - 1
      day := Calendar.daysIn m.year (m.month - 1)
      month_pos := by omega
      month_le := (Nat.sub_le _ _).trans m.month_le
      day_pos := (by decide : 1 ≤ 28).trans (Calendar.daysIn_ge _ _)
      day_le := le_rfl }
  else if years : 1 < m.year then
    { m with
      year := m.year - 1
      month := 12
      day := 31
      year_pos := by omega
      year_le := (Nat.sub_le _ _).trans m.year_le
      month_pos := by decide
      month_le := by decide
      day_pos := by decide
      day_le := le_rfl }
  else m

inductive Unit
  | day | week | month
  deriving DecidableEq

def Unit.truncate : Unit → Moment → Moment
  | .day, m => midnight m
  | .week, m => Nat.iterate dayBefore ((dayNumber m + 6) % 7) (midnight m)
  | .month, m => Calendar.midnight m.year m.month 1
    ⟨⟨m.year_pos,m.year_le⟩,⟨m.month_pos,m.month_le⟩,Nat.le_refl 1,m.day_pos.trans m.day_le⟩

def Unit.label (unit : Unit) (m : Moment) : List Char :=
  let text := IsoDate.isoformat ⟨m.year,m.month,m.day,⟨m.year_pos,m.year_le⟩,⟨m.month_pos,m.month_le⟩,m.day_pos,m.day_le⟩
  match unit with
  | .month => text.take 7
  | _ => text

/-- The unit of a period; another text counts as daily. -/
def truncMap (period : String) : Unit :=
  if period = "weekly" then .week else if period = "monthly" then .month else .day

def hourOf (m : Moment) : Nat := m.time / 3600000000

/-- Sunday is 0. -/
def dayOfWeek (m : Moment) : Nat := dayNumber m % 7

def hourLabel (hour : Nat) : List Char := Digits.padded 2 hour ++ ":00".toList

def dayNames : List String := ["Sunday","Monday","Tuesday","Wednesday","Thursday","Friday","Saturday"]

structure Query where
  businessId : Nat
  branchId : Option Nat
  dateFrom : Nat
  dateTo : Nat

structure Row where
  line : SaleLine
  sale : Sale
  deriving DecidableEq

def Sale.active (sale : Sale) : Bool := sale.status ≠ .cancelled && sale.status ≠ .voided

def lineRevenue (line : SaleLine) : ℚ := line.qty * line.unitPrice - line.discountAmount

def lineCost (line : SaleLine) : ℚ := line.qty * line.costPerUnit

namespace Row

def revenue (row : Row) : ℚ := lineRevenue row.line

def cost (row : Row) : ℚ := lineCost row.line

def saleId (row : Row) : Nat := row.line.saleId

end Row

def branchClause (branchId : Option Nat) (branch : Nat) : Bool := branchId.all (· = branch)

section
variable (db : Database) (zone : Int → Moment)

/-- Lines with their sales. -/
def saleJoin : List Row :=
  db.saleLines.filterMap fun line => (db.sales[line.saleId]?).bind fun sale =>
    if sale.businessId = line.businessId then some ⟨line,sale⟩ else none

def liveRows (businessId : Nat) : List Row :=
  (saleJoin db).filter fun row =>
    row.line.businessId = businessId && row.line.deletedAt.isNone && row.sale.deletedAt.isNone

def baseSaleJoins (businessId : Nat) : List Row := (liveRows db businessId).filter fun row => row.sale.active

def during (q : Query) (instant : Int) : Bool :=
  q.dateFrom ≤ dayNumber (zone instant) && dayNumber (zone instant) ≤ q.dateTo

def Query.chooses (q : Query) (row : Row) : Bool :=
  branchClause q.branchId row.sale.branchId && during zone q row.sale.soldAt

/-- The rows of a report over a period. -/
def periodRows (q : Query) : List Row := (baseSaleJoins db q.businessId).filter (q.chooses zone)

def average (revenue : ℚ) (count : Nat) : ℚ :=
  Decimal.quantizeHalfEven 2 (if 0 < count then revenue / count else 0)

def marginPct (profit revenue : ℚ) : ℚ :=
  if revenue ≤ 0 then 0 else Decimal.quantizeHalfEven 2 (profit / revenue * 100)

def changePct (current previous : ℚ) : ℚ :=
  if previous ≤ 0 then 0 else Decimal.quantizeHalfEven 2 ((current - previous) / previous * 100)

structure SalesSummary where
  totalRevenue : ℚ
  totalCost : ℚ
  grossProfit : ℚ
  grossMarginPct : ℚ
  totalTransactions : Nat
  avgOrderValue : ℚ
  totalDiscount : ℚ
  totalTax : ℚ
  totalReturns : ℚ
  netRevenue : ℚ

def returned (q : Query) : ℚ :=
  ((db.saleReturnLines.filterMap fun line => (db.saleReturns[line.saleReturnId]?).bind fun ret =>
      if ret.businessId = line.businessId && line.businessId = q.businessId && line.deletedAt.isNone &&
          ret.deletedAt.isNone && during zone q ret.returnedAt && branchClause q.branchId ret.branchId then
        some (line.qty * line.unitPrice + line.taxAmount)
      else none)).sum

def getSalesSummary (q : Query) : SalesSummary :=
  let rows := periodRows db zone q
  let totalRevenue := total Row.revenue rows
  let totalCost := total Row.cost rows
  let transactions := distinct Row.saleId rows
  let totalReturns := returned db zone q
  ⟨totalRevenue,totalCost,totalRevenue - totalCost,marginPct (totalRevenue - totalCost) totalRevenue,transactions,
    average totalRevenue transactions,total (·.line.discountAmount) rows,total (·.line.taxAmount) rows,totalReturns,
    totalRevenue - totalReturns⟩

structure TrendItem where
  period : List Char
  revenue : ℚ
  transactions : Nat
  avgOrderValue : ℚ

def trendItem (unit : Unit) (group : Moment × List Row) : TrendItem :=
  let revenue := total Row.revenue group.2
  let transactions := distinct Row.saleId group.2
  ⟨unit.label group.1,revenue,transactions,average revenue transactions⟩

def getSalesTrend (period : String) (q : Query) : List TrendItem :=
  let unit := truncMap period
  ((groups (fun row => unit.truncate (zone row.sale.soldAt)) (periodRows db zone q)).insertionSort
    fun a b => a.1 ≤ b.1).map (trendItem unit)

structure BranchItem where
  branchId : Nat
  branchName : String
  totalRevenue : ℚ
  totalTransactions : Nat
  avgOrderValue : ℚ
  totalProfit : ℚ

def branchItem (group : (Nat × String) × List Row) : BranchItem :=
  let revenue := total Row.revenue group.2
  let transactions := distinct Row.saleId group.2
  ⟨group.1.1,group.1.2,revenue,transactions,average revenue transactions,total (fun row => row.revenue - row.cost) group.2⟩

def getBranchComparison (q : Query) : List BranchItem :=
  ((groups (fun row => (row.sale.branchId,(db.branch row.sale.branchId).name))
    (periodRows db zone { q with branchId := none })).map branchItem).insertionSort
      fun a b => b.totalRevenue ≤ a.totalRevenue

structure PeakItem where
  slot : Nat
  label : List Char
  totalRevenue : ℚ
  transactionCount : Nat
  avgOrderValue : ℚ

/-- The slots in order of their transactions, those without rows filled in. -/
def peaks (slotOf : Moment → Nat) (slots : Nat) (label : Nat → List Char) (q : Query) : List PeakItem :=
  let bySlot := (groups (fun row => slotOf (zone row.sale.soldAt)) (periodRows db zone q)).map fun group =>
    (group.1,total Row.revenue group.2,distinct Row.saleId group.2)
  ((List.range slots).map fun slot =>
    let found := (bySlot.lookup slot).getD (0,0)
    (⟨slot,label slot,found.1,found.2,average found.1 found.2⟩ : PeakItem)).insertionSort
      fun a b => b.transactionCount ≤ a.transactionCount

def getPeakHours (q : Query) : List PeakItem := peaks db zone hourOf 24 hourLabel q

def getPeakDays (q : Query) : List PeakItem := peaks db zone dayOfWeek 7 (fun day => (dayNames.getD day "").toList) q

structure TaxByRate where
  taxRate : ℚ
  totalSalesAmount : ℚ
  totalTaxAmount : ℚ
  transactionCount : Nat

structure TaxSummary where
  totalTaxableSales : ℚ
  totalTaxCollected : ℚ
  taxByRate : List TaxByRate

def rateItem (group : ℚ × List Row) : TaxByRate :=
  ⟨group.1,total Row.revenue group.2,total (·.line.taxAmount) group.2,distinct Row.saleId group.2⟩

def getTaxSummary (q : Query) : TaxSummary :=
  let rows := periodRows db zone q
  ⟨total Row.revenue rows,total (·.line.taxAmount) rows,
    ((groups (·.line.taxRate) rows).insertionSort fun a b => a.1 ≤ b.1).map rateItem⟩

structure CashierItem where
  userId : Nat
  userName : String
  totalSales : Nat
  totalRevenue : ℚ
  totalReturns : Nat
  totalVoids : Nat
  totalDiscounts : ℚ
  avgOrderValue : ℚ
  rank : Nat

structure CashierStats where
  userId : Nat
  userName : String
  totalSales : Nat
  totalRevenue : ℚ
  totalVoids : Nat
  totalDiscounts : ℚ

def cashierStats (group : (Nat × String) × List Row) : CashierStats :=
  let kept := group.2.filter fun row => row.sale.active
  ⟨group.1.1,group.1.2,distinct Row.saleId kept,total Row.revenue kept,
    distinct Row.saleId (group.2.filter fun row => !row.sale.active),total (·.line.discountAmount) kept⟩

def returnCount (q : Query) (userId : Nat) : Nat :=
  db.saleReturns.countP fun ret => ret.businessId = q.businessId && ret.deletedAt.isNone &&
    during zone q ret.returnedAt && branchClause q.branchId ret.branchId && ret.createdBy = userId

def getCashierPerformance (q : Query) : List CashierItem :=
  let stats := (groups (fun row => (row.sale.createdBy,db.userName row.sale.createdBy))
    ((liveRows db q.businessId).filter (q.chooses zone))).map cashierStats
  (stats.map fun s => (⟨s.userId,s.userName,s.totalSales,s.totalRevenue,returnCount db zone q s.userId,s.totalVoids,
    s.totalDiscounts,average s.totalRevenue s.totalSales,denseRank CashierStats.totalRevenue stats s⟩ : CashierItem)).insertionSort
      fun a b => a.rank < b.rank ∨ a.rank = b.rank ∧ b.totalRevenue ≤ a.totalRevenue

structure ProductKey where
  productId : Nat
  variationId : Option Nat
  productName : String
  variationName : Option String
  deriving DecidableEq

structure ProductStats where
  key : ProductKey
  totalQtySold : ℚ
  totalRevenue : ℚ
  totalCost : ℚ

structure ProductItem where
  productId : Nat
  productName : String
  variationName : Option String
  totalQtySold : ℚ
  totalRevenue : ℚ
  totalCost : ℚ
  grossProfit : ℚ
  rank : Nat

def productKey (row : Row) : ProductKey :=
  ⟨row.line.productId,row.line.variationId,db.productName row.line.productId,row.line.variationId.map db.variationName⟩

def productStats (q : Query) : List ProductStats :=
  (groups (productKey db) (periodRows db zone q)).map fun group =>
    ⟨group.1,total (·.line.qty) group.2,total Row.revenue group.2,total Row.cost group.2⟩

def ranked (stats : List ProductStats) : List ProductItem :=
  stats.map fun s => ⟨s.key.productId,s.key.productName,s.key.variationName,s.totalQtySold,s.totalRevenue,s.totalCost,
    s.totalRevenue - s.totalCost,denseRank ProductStats.totalRevenue stats s⟩

def getTopProducts (q : Query) (limit : Nat) : List ProductItem :=
  ((ranked (productStats db zone q)).filter fun item => item.rank ≤ limit).insertionSort
    fun a b => a.rank < b.rank ∨ a.rank = b.rank ∧ b.totalRevenue ≤ a.totalRevenue

structure CategoryItem where
  categoryId : Nat
  categoryName : String
  totalRevenue : ℚ
  totalTransactions : Nat
  percentageOfTotal : ℚ

/-- The database's share of a whole, where both show so many places. -/
def sharePct (places : Nat) (part whole : ℚ) : ℚ :=
  if 0 < whole then
    ((Stock.Numeric.div Stock.selectDivScale ⟨part,places⟩ ⟨whole,places⟩).mul ⟨100,0⟩ |>.round 2).value
  else 0

def getCategoryPerformance (q : Query) : List CategoryItem :=
  let rows := (periodRows db zone q).filterMap fun row => (db.categoryOf row.line.productId).map (·,row)
  let stats := (groups (fun row => (row.1,db.categoryName row.1)) rows).map fun group =>
    (group.1,total (fun row => row.2.revenue) group.2,distinct (fun row => row.2.saleId) group.2)
  let grand := (stats.map fun s => s.2.1).sum
  (stats.map fun s => (⟨s.1.1,s.1.2,s.2.1,s.2.2,sharePct 6 s.2.1 grand⟩ : CategoryItem)).insertionSort
    fun a b => b.totalRevenue ≤ a.totalRevenue

structure PaymentItem where
  paymentMethod : PaymentMethod
  totalAmount : ℚ
  transactionCount : Nat
  percentage : ℚ

def paymentRows (q : Query) : List SalePayment :=
  db.salePayments.filter fun payment => (db.sales[payment.saleId]?).any fun sale =>
    sale.businessId = payment.businessId && payment.businessId = q.businessId && payment.deletedAt.isNone &&
      sale.deletedAt.isNone && payment.status = .completed && sale.active && branchClause q.branchId sale.branchId &&
      during zone q sale.soldAt

def paymentItem (grandTotal : ℚ) (group : PaymentMethod × List SalePayment) : PaymentItem :=
  let amount := total SalePayment.amount group.2
  ⟨group.1,amount,distinct SalePayment.saleId group.2,
    if 0 < grandTotal then Decimal.quantizeHalfEven 2 (amount / grandTotal * 100) else 0⟩

def getPaymentBreakdown (q : Query) : List PaymentItem :=
  let rows := paymentRows db zone q
  ((groups SalePayment.paymentMethod rows).map (paymentItem (total SalePayment.amount rows))).insertionSort
    fun a b => b.totalAmount ≤ a.totalAmount

structure ExpenseItem where
  categoryId : Nat
  categoryName : String
  totalAmount : ℚ
  transactionCount : Nat
  percentageOfTotal : ℚ

/-- Expenses with their categories, as long as these are not deleted. -/
def expenseRows (q : Query) : List (Expense × ExpenseCategory) :=
  db.expenses.filterMap fun expense => (db.expenseCategories[expense.expenseCategoryId]?).bind fun category =>
    if expense.businessId = q.businessId && expense.deletedAt.isNone && category.deletedAt.isNone &&
        (q.dateFrom ≤ expense.expenseDate && expense.expenseDate ≤ q.dateTo) && branchClause q.branchId expense.branchId then
      some (expense,category)
    else none

def spent (row : Expense × ExpenseCategory) : ℚ := row.1.amount + row.1.taxAmount

def getExpenseSummary (q : Query) : List ExpenseItem :=
  let stats := (groups (fun row => (row.1.expenseCategoryId,row.2.name)) (expenseRows db q)).map fun group =>
    (group.1,total spent group.2,group.2.length)
  let grand := (stats.map fun s => s.2.1).sum
  (stats.map fun s => (⟨s.1.1,s.1.2,s.2.1,s.2.2,sharePct 2 s.2.1 grand⟩ : ExpenseItem)).insertionSort
    fun a b => b.totalAmount ≤ a.totalAmount

structure ProfitLoss where
  totalRevenue : ℚ
  totalCogs : ℚ
  grossProfit : ℚ
  grossMarginPct : ℚ
  totalExpenses : ℚ
  netProfit : ℚ
  netMarginPct : ℚ
  expenseBreakdown : List ExpenseItem

def getProfitLoss (q : Query) : ProfitLoss :=
  let rows := periodRows db zone q
  let revenue := total Row.revenue rows
  let cogs := total Row.cost rows
  let breakdown := getExpenseSummary db q
  let expenses := (breakdown.map (·.totalAmount)).sum
  ⟨revenue,cogs,revenue - cogs,marginPct (revenue - cogs) revenue,expenses,revenue - cogs - expenses,
    marginPct (revenue - cogs - expenses) revenue,breakdown⟩

structure DailyMetrics where
  revenue : ℚ
  transactions : Nat
  profit : ℚ
  avgOrder : ℚ

def dailySaleMetrics (businessId : Nat) (targetDate : Nat) (branchId : Option Nat) : DailyMetrics :=
  let rows := (baseSaleJoins db businessId).filter fun row =>
    branchClause branchId row.sale.branchId && dayNumber (zone row.sale.soldAt) = targetDate
  let revenue := total Row.revenue rows
  let transactions := distinct Row.saleId rows
  ⟨revenue,transactions,revenue - total Row.cost rows,average revenue transactions⟩

structure TodayVsYesterday where
  today : DailyMetrics
  yesterday : DailyMetrics
  revenueChangePct : ℚ
  transactionChangePct : ℚ
  profitChangePct : ℚ

def getTodayVsYesterday (businessId : Nat) (branchId : Option Nat) (now : Int) : TodayVsYesterday :=
  let day := dayNumber (zone now)
  let today := dailySaleMetrics db zone businessId day branchId
  let yesterday := dailySaleMetrics db zone businessId (day - 1) branchId
  ⟨today,yesterday,changePct today.revenue yesterday.revenue,changePct today.transactions yesterday.transactions,
    changePct today.profit yesterday.profit⟩

/-- The figures of the dashboard that come from sales, and the expenses of the day. -/
structure DashboardSales where
  today : DailyMetrics
  todayExpenses : ℚ
  monthRevenue : ℚ
  monthProfit : ℚ
  revenueVsYesterdayPct : ℚ

def monthStart (m : Moment) : Nat := dayNumber m - (m.day - 1)

def getEnhancedDashboard (businessId : Nat) (branchId : Option Nat) (now : Int) : DashboardSales :=
  let day := dayNumber (zone now)
  let rows := (baseSaleJoins db businessId).filter fun row =>
    branchClause branchId row.sale.branchId && monthStart (zone now) ≤ dayNumber (zone row.sale.soldAt)
  let today := dailySaleMetrics db zone businessId day branchId
  let yesterday := dailySaleMetrics db zone businessId (day - 1) branchId
  let expenses := (db.expenses.filter fun expense => expense.businessId = businessId && expense.deletedAt.isNone &&
    expense.expenseDate = day && branchClause branchId expense.branchId)
  ⟨today,total (fun expense => expense.amount + expense.taxAmount) expenses,total Row.revenue rows,
    total Row.revenue rows - total Row.cost rows,changePct today.revenue yesterday.revenue⟩

structure RecentItem where
  saleId : Nat
  saleNumber : String
  saleType : SaleType
  status : SaleStatus
  soldAt : Int
  branchName : String
  customerName : Option String
  cashierName : String
  totalAmount : ℚ
  paymentMethods : List PaymentMethod

/-- The rows of a left join: none on the right where nothing matches. -/
def leftRows {α : Type} (rows : List α) : List (Option α) := if rows.isEmpty then [none] else rows.map some

def linesOf (saleId : Nat) (sale : Sale) : List SaleLine :=
  db.saleLines.filter fun line => line.saleId = saleId && line.businessId = sale.businessId && line.deletedAt.isNone

def paymentsOf (saleId : Nat) (sale : Sale) : List SalePayment :=
  db.salePayments.filter fun payment => payment.saleId = saleId && payment.businessId = sale.businessId &&
    payment.deletedAt.isNone

/-- Every line goes with every payment. -/
def recentRows (saleId : Nat) (sale : Sale) : List (Option SaleLine × Option SalePayment) :=
  (leftRows (linesOf db saleId sale)).flatMap fun line => (leftRows (paymentsOf db saleId sale)).map fun payment => (line,payment)

/-- The payment methods in the order of their texts, as the distinct values of an aggregate come. -/
def methodsByText : List PaymentMethod := [.bankTransfer,.card,.cash,.cheque,.credit,.other,.upi,.wallet]

def recentItem (saleId : Nat) (sale : Sale) : RecentItem :=
  let rows := recentRows db saleId sale
  let customer := (sale.customerId.map db.customer).filter fun customer => customer.businessId = sale.businessId
  ⟨saleId,sale.saleNumber,sale.saleType,sale.status,sale.soldAt,(db.branch sale.branchId).name,customer.map Party.name,
    db.userName sale.createdBy,(rows.map fun row => (row.1.map lineRevenue).getD 0).sum,
    methodsByText.filter fun method => rows.any fun row => row.2.any (·.paymentMethod = method)⟩

def getRecentTransactions (businessId : Nat) (branchId : Option Nat) (limit : Nat) : List RecentItem :=
  let chosen := db.sales.zipIdx.filter fun entry => entry.1.businessId = businessId && entry.1.deletedAt.isNone &&
    entry.1.active && branchClause branchId entry.1.branchId &&
    (db.branch entry.1.branchId).businessId = entry.1.businessId
  ((chosen.map fun entry => recentItem db entry.2 entry.1).insertionSort fun a b => b.soldAt ≤ a.soldAt).take limit

end

end Reports
