import SasBackend.Semantics.Reports

/-! The reports over a period agree with each other: each one divides the same rows.
-/
namespace Reports
open SasBackend Grouping
open Calendar (Moment)

variable {db : Database} {zone : Int → Moment} {q : Query} {row : Row} {α κ : Type}

theorem sum_sorted {M : Type} [AddCommMonoid M] (r : α → α → Prop) [DecidableRel r] (f : α → M) (items : List α) :
    ((items.insertionSort r).map f).sum = (items.map f).sum :=
  ((List.perm_insertionSort r items).map f).sum_eq

theorem sale_of_join (inside : row ∈ saleJoin db) : db.sales[row.saleId]? = some row.sale := by
  obtain ⟨line,_,found⟩ := List.mem_filterMap.mp inside
  obtain ⟨sale,there,joined⟩ := Option.bind_eq_some_iff.mp found
  split at joined
  · cases joined
    exact there
  · cases joined

theorem goes_with_sale {rows : List Row} (among : ∀ row ∈ rows, row ∈ saleJoin db) (key : Sale → κ) :
    ∀ a ∈ rows, ∀ b ∈ rows, a.saleId = b.saleId → key a.sale = key b.sale := by
  intro a here b there same
  have first := sale_of_join (among a here)
  have second := sale_of_join (among b there)
  rw [same] at first
  rw [Option.some.inj (first.symm.trans second)]

theorem join_of_live {businessId : Nat} (inside : row ∈ liveRows db businessId) : row ∈ saleJoin db :=
  List.mem_of_mem_filter inside

theorem join_of_base {businessId : Nat} (inside : row ∈ baseSaleJoins db businessId) : row ∈ saleJoin db :=
  join_of_live (List.mem_of_mem_filter inside)

theorem join_of_period (inside : row ∈ periodRows db zone q) : row ∈ saleJoin db :=
  join_of_base (List.mem_of_mem_filter inside)

theorem trend_sums (period : String) :
    ((getSalesTrend db zone period q).map TrendItem.revenue).sum = (getSalesSummary db zone q).totalRevenue ∧
      ((getSalesTrend db zone period q).map TrendItem.transactions).sum =
        (getSalesSummary db zone q).totalTransactions := by
  simp only [getSalesTrend,List.map_map]
  rw [sum_sorted,sum_sorted]
  exact ⟨total_groups,distinct_groups (goes_with_sale (fun _ => join_of_period) fun sale =>
    (truncMap period).truncate (zone sale.soldAt))⟩

theorem peak_found (slotOf : Moment → Nat) (slot : Nat) :
    ((((groups (fun row => slotOf (zone row.sale.soldAt)) (periodRows db zone q)).map fun group =>
        (group.1,total Row.revenue group.2,distinct Row.saleId group.2)).lookup slot).getD (0,0)) =
      (total Row.revenue ((periodRows db zone q).filter fun row => slotOf (zone row.sale.soldAt) = slot),
        distinct Row.saleId ((periodRows db zone q).filter fun row => slotOf (zone row.sale.soldAt) = slot)) := by
  rw [lookup_groups fun rows => (total Row.revenue rows,distinct Row.saleId rows)]
  split
  · rfl
  next absent =>
    have nothing : ((periodRows db zone q).filter fun row => slotOf (zone row.sale.soldAt) = slot) = [] := by
      rw [List.filter_eq_nil_iff]
      intro row inside found
      exact absent (List.mem_map.mpr ⟨row,inside,of_decide_eq_true found⟩)
    rw [nothing]
    rfl

theorem peak_sums {slotOf : Moment → Nat} {slots : Nat} (label : Nat → List Char) (below : ∀ m, slotOf m < slots) :
    ((peaks db zone slotOf slots label q).map PeakItem.totalRevenue).sum = (getSalesSummary db zone q).totalRevenue ∧
      ((peaks db zone slotOf slots label q).map PeakItem.transactionCount).sum =
        (getSalesSummary db zone q).totalTransactions := by
  have covers : ∀ row ∈ periodRows db zone q, slotOf (zone row.sale.soldAt) ∈ List.range slots :=
    fun row _ => List.mem_range.mpr (below _)
  simp only [peaks,peak_found]
  rw [sum_sorted,sum_sorted,List.map_map,List.map_map]
  exact ⟨total_over List.nodup_range covers,distinct_over List.nodup_range covers
    (goes_with_sale (fun _ => join_of_period) fun sale => slotOf (zone sale.soldAt))⟩

theorem hourOf_lt (m : Moment) : hourOf m < 24 := by
  have bound := m.time_lt
  unfold hourOf
  simp only [Calendar.dayLength] at bound
  omega

theorem dayOfWeek_lt (m : Moment) : dayOfWeek m < 7 := Nat.mod_lt _ (by decide)

theorem branch_sums (every : q.branchId = none) :
    ((getBranchComparison db zone q).map BranchItem.totalRevenue).sum = (getSalesSummary db zone q).totalRevenue ∧
      ((getBranchComparison db zone q).map BranchItem.totalTransactions).sum =
        (getSalesSummary db zone q).totalTransactions ∧
      ((getBranchComparison db zone q).map BranchItem.totalProfit).sum = (getSalesSummary db zone q).grossProfit := by
  have same : { q with branchId := none } = q := by
    rw [← every]
  simp only [getBranchComparison,same]
  rw [sum_sorted,sum_sorted,sum_sorted]
  simp only [List.map_map]
  refine ⟨total_groups,distinct_groups (goes_with_sale (fun _ => join_of_period) fun sale =>
    (sale.branchId,(db.branch sale.branchId).name)),?_⟩
  have profits := Tally.sum_map_sub Row.revenue Row.cost (periodRows db zone q)
  have parts : ((groups (fun row => (row.sale.branchId,(db.branch row.sale.branchId).name)) (periodRows db zone q)).map
      fun group => total (fun row => row.revenue - row.cost) group.2).sum =
        total (fun row => row.revenue - row.cost) (periodRows db zone q) := total_groups
  exact parts.trans profits

theorem tax_sums :
    (getTaxSummary db zone q).totalTaxableSales = (getSalesSummary db zone q).totalRevenue ∧
      (getTaxSummary db zone q).totalTaxCollected = (getSalesSummary db zone q).totalTax ∧
      ((getTaxSummary db zone q).taxByRate.map TaxByRate.totalSalesAmount).sum =
        (getSalesSummary db zone q).totalRevenue ∧
      ((getTaxSummary db zone q).taxByRate.map TaxByRate.totalTaxAmount).sum = (getSalesSummary db zone q).totalTax ∧
      (getSalesSummary db zone q).totalTransactions ≤
        ((getTaxSummary db zone q).taxByRate.map TaxByRate.transactionCount).sum := by
  simp only [getTaxSummary,List.map_map]
  rw [sum_sorted,sum_sorted,sum_sorted]
  exact ⟨rfl,rfl,total_groups,total_groups,distinct_le_groups⟩

theorem period_of_live : ((liveRows db q.businessId).filter (q.chooses zone)).filter (fun row => row.sale.active) =
    periodRows db zone q := List.filter_comm _ _ _

theorem cashier_sums :
    ((getCashierPerformance db zone q).map CashierItem.totalRevenue).sum = (getSalesSummary db zone q).totalRevenue ∧
      ((getCashierPerformance db zone q).map CashierItem.totalSales).sum =
        (getSalesSummary db zone q).totalTransactions ∧
      ((getCashierPerformance db zone q).map CashierItem.totalDiscounts).sum =
        (getSalesSummary db zone q).totalDiscount := by
  have among : ∀ row ∈ ((liveRows db q.businessId).filter (q.chooses zone)).filter (fun row => row.sale.active),
      row ∈ saleJoin db := fun row inside => join_of_live (List.mem_of_mem_filter (List.mem_of_mem_filter inside))
  simp only [getCashierPerformance]
  rw [sum_sorted,sum_sorted,sum_sorted]
  simp only [List.map_map]
  refine ⟨?_,?_,?_⟩
  · exact (total_groups_filter _).trans (congrArg (total Row.revenue) period_of_live)
  · exact (distinct_groups_filter _ (goes_with_sale among fun sale => (sale.createdBy,db.userName sale.createdBy))).trans
      (congrArg (distinct Row.saleId) period_of_live)
  · exact (total_groups_filter _).trans (congrArg (total fun row => row.line.discountAmount) period_of_live)

/-- The products up to a rank and the others, all of which sold for less. -/
theorem product_sums (limit : Nat) : ∃ others,
    (getTopProducts db zone q limit ++ others).Perm (ranked (productStats db zone q)) ∧
      ((getTopProducts db zone q limit).map ProductItem.totalRevenue).sum + (others.map ProductItem.totalRevenue).sum =
        (getSalesSummary db zone q).totalRevenue ∧
      ((getTopProducts db zone q limit).map ProductItem.grossProfit).sum + (others.map ProductItem.grossProfit).sum =
        (getSalesSummary db zone q).grossProfit ∧
      distinct ProductItem.totalRevenue (getTopProducts db zone q limit) ≤ limit ∧
      ∀ top ∈ getTopProducts db zone q limit, ∀ other ∈ others, other.totalRevenue < top.totalRevenue := by
  generalize stats_eq : productStats db zone q = stats
  have top_perm : (getTopProducts db zone q limit).Perm ((ranked stats).filter fun item => item.rank ≤ limit) := by
    rw [getTopProducts,stats_eq]
    exact List.perm_insertionSort _ _
  have perm : (getTopProducts db zone q limit ++ (ranked stats).filter fun item => !decide (item.rank ≤ limit)).Perm
      (ranked stats) := (top_perm.append_right _).trans (List.filter_append_perm _ _)
  have revenue : ((ranked stats).map ProductItem.totalRevenue).sum = (getSalesSummary db zone q).totalRevenue := by
    rw [ranked,List.map_map,← stats_eq,productStats,List.map_map]
    exact total_groups
  have profit : ((ranked stats).map ProductItem.grossProfit).sum = (getSalesSummary db zone q).grossProfit := by
    rw [ranked,List.map_map,← stats_eq,productStats,List.map_map]
    have each := Tally.sum_map_sub (fun group => total Row.revenue group.2) (fun group => total Row.cost group.2)
      (groups (productKey db) (periodRows db zone q))
    rw [total_groups,total_groups] at each
    exact each
  refine ⟨_,perm,?_,?_,?_,?_⟩
  · rw [← List.sum_append,← List.map_append,(perm.map _).sum_eq,revenue]
  · rw [← List.sum_append,← List.map_append,(perm.map _).sum_eq,profit]
  · have scores : distinct ProductItem.totalRevenue (getTopProducts db zone q limit) =
        distinct ProductStats.totalRevenue (stats.filter fun s => denseRank ProductStats.totalRevenue stats s ≤ limit) := by
      rw [distinct_perm top_perm,ranked,List.filter_map,distinct,distinct,List.map_map]
      rfl
    rw [scores]
    exact distinct_ranked limit
  · intro top first other second
    obtain ⟨a,_,rfl⟩ := List.mem_map.mp (List.mem_of_mem_filter (top_perm.subset first))
    obtain ⟨b,_,rfl⟩ := List.mem_map.mp (List.mem_of_mem_filter second)
    have kept := of_decide_eq_true (List.mem_filter.mp (top_perm.subset first)).2
    have left := (List.mem_filter.mp second).2
    simp only [Bool.not_eq_true',decide_eq_false_iff_not] at left
    by_contra above
    have order : denseRank ProductStats.totalRevenue stats b ≤ denseRank ProductStats.totalRevenue stats a :=
      denseRank_le (not_lt.mp above)
    exact left (order.trans kept)

/-- Categories have what products without one leave. -/
theorem category_sums :
    ((getCategoryPerformance db zone q).map CategoryItem.totalRevenue).sum +
        total Row.revenue ((periodRows db zone q).filter fun row => (db.categoryOf row.line.productId).isNone) =
      (getSalesSummary db zone q).totalRevenue := by
  simp only [getCategoryPerformance]
  rw [sum_sorted]
  simp only [List.map_map]
  have parts : ((groups (fun row => (row.1,db.categoryName row.1)) ((periodRows db zone q).filterMap fun row =>
      (db.categoryOf row.line.productId).map (·,row))).map fun group => total (fun row => row.2.revenue) group.2).sum =
        total (fun row => row.2.revenue) ((periodRows db zone q).filterMap fun row =>
          (db.categoryOf row.line.productId).map (·,row)) := total_groups
  refine (congrArg (· + _) parts).trans ?_
  simp only [getSalesSummary]
  induction periodRows db zone q with
  | nil => exact add_zero _
  | cons row rows induction =>
    cases category : db.categoryOf row.line.productId with
    | none =>
      simp only [List.filterMap_cons,category,Option.map_none,List.filter_cons,Option.isNone_none,if_true]
      simp only [total,List.map_cons,List.sum_cons] at induction ⊢
      rw [← induction]
      exact add_left_comm _ _ _
    | some c =>
      simp only [List.filterMap_cons,category,Option.map_some,List.filter_cons,Option.isNone_some]
      simp only [total,List.map_cons,List.sum_cons] at induction ⊢
      rw [← induction]
      exact add_assoc _ _ _

theorem abs_sum_sub_le (f g : α → ℚ) {bound : ℚ} (near : ∀ a, |f a - g a| ≤ bound) (items : List α) :
    |(items.map f).sum - (items.map g).sum| ≤ items.length * bound := by
  induction items with
  | nil => simp
  | cons a items induction =>
    simp only [List.map_cons,List.sum_cons,List.length_cons,Nat.cast_add,Nat.cast_one]
    rw [add_sub_add_comm,add_mul,one_mul,add_comm ((items.length : ℚ) * bound)]
    exact (abs_add_le _ _).trans (add_le_add (near a) induction)

/-- The shares of the methods come to 100 up to the rounding of each. -/
theorem payment_sums :
    ((getPaymentBreakdown db zone q).map PaymentItem.totalAmount).sum = total SalePayment.amount (paymentRows db zone q) ∧
      (0 < total SalePayment.amount (paymentRows db zone q) →
        |((getPaymentBreakdown db zone q).map PaymentItem.percentage).sum - 100| ≤
          (getPaymentBreakdown db zone q).length * (1 / 200)) := by
  simp only [getPaymentBreakdown]
  rw [sum_sorted,sum_sorted,List.length_insertionSort,List.length_map,List.map_map,List.map_map]
  generalize paymentRows db zone q = rows
  have whole : ((groups SalePayment.paymentMethod rows).map fun group => total SalePayment.amount group.2).sum =
      total SalePayment.amount rows := total_groups
  refine ⟨whole,?_⟩
  intro positive
  have shares : ((groups SalePayment.paymentMethod rows).map fun group =>
      total SalePayment.amount group.2 / total SalePayment.amount rows * 100).sum = 100 := by
    simp only [div_eq_mul_inv]
    rw [List.sum_map_mul_right,List.sum_map_mul_right,whole,mul_inv_cancel₀ positive.ne',one_mul]
  have near : ∀ group : PaymentMethod × List SalePayment, |(paymentItem (total SalePayment.amount rows) group).percentage -
      total SalePayment.amount group.2 / total SalePayment.amount rows * 100| ≤ 1 / 200 := by
    intro group
    rw [paymentItem,if_pos positive,abs_sub_comm]
    refine (Decimal.abs_quantizeHalfEven_sub_le 2 _).trans_eq ?_
    norm_num [Decimal.unit]
  have close := abs_sum_sub_le _ _ near (groups SalePayment.paymentMethod rows)
  rwa [shares] at close

theorem profit_sums : (getProfitLoss db zone q).totalRevenue = (getSalesSummary db zone q).totalRevenue ∧
    (getProfitLoss db zone q).grossProfit = (getSalesSummary db zone q).grossProfit ∧
    (getProfitLoss db zone q).totalExpenses = total spent (expenseRows db q) ∧
    (getProfitLoss db zone q).netProfit = (getSalesSummary db zone q).grossProfit - total spent (expenseRows db q) := by
  have expenses : ((getExpenseSummary db q).map ExpenseItem.totalAmount).sum = total spent (expenseRows db q) := by
    simp only [getExpenseSummary]
    rw [sum_sorted]
    simp only [List.map_map]
    exact total_groups
  exact ⟨rfl,rfl,expenses,congrArg (_ - ·) expenses⟩

/-- What the reports over one period have in common. -/
structure Agree (db : Database) (zone : Int → Moment) (q : Query) : Prop where
  trend : ∀ period,
    ((getSalesTrend db zone period q).map TrendItem.revenue).sum = (getSalesSummary db zone q).totalRevenue ∧
      ((getSalesTrend db zone period q).map TrendItem.transactions).sum = (getSalesSummary db zone q).totalTransactions
  hours : ((getPeakHours db zone q).map PeakItem.totalRevenue).sum = (getSalesSummary db zone q).totalRevenue ∧
    ((getPeakHours db zone q).map PeakItem.transactionCount).sum = (getSalesSummary db zone q).totalTransactions
  days : ((getPeakDays db zone q).map PeakItem.totalRevenue).sum = (getSalesSummary db zone q).totalRevenue ∧
    ((getPeakDays db zone q).map PeakItem.transactionCount).sum = (getSalesSummary db zone q).totalTransactions
  branches : q.branchId = none →
    ((getBranchComparison db zone q).map BranchItem.totalRevenue).sum = (getSalesSummary db zone q).totalRevenue ∧
      ((getBranchComparison db zone q).map BranchItem.totalTransactions).sum =
        (getSalesSummary db zone q).totalTransactions ∧
      ((getBranchComparison db zone q).map BranchItem.totalProfit).sum = (getSalesSummary db zone q).grossProfit
  cashiers : ((getCashierPerformance db zone q).map CashierItem.totalRevenue).sum =
      (getSalesSummary db zone q).totalRevenue ∧
    ((getCashierPerformance db zone q).map CashierItem.totalSales).sum = (getSalesSummary db zone q).totalTransactions ∧
    ((getCashierPerformance db zone q).map CashierItem.totalDiscounts).sum = (getSalesSummary db zone q).totalDiscount
  /-- A sale with several rates counts for each. -/
  taxes : (getTaxSummary db zone q).totalTaxableSales = (getSalesSummary db zone q).totalRevenue ∧
    (getTaxSummary db zone q).totalTaxCollected = (getSalesSummary db zone q).totalTax ∧
    ((getTaxSummary db zone q).taxByRate.map TaxByRate.totalSalesAmount).sum = (getSalesSummary db zone q).totalRevenue ∧
    ((getTaxSummary db zone q).taxByRate.map TaxByRate.totalTaxAmount).sum = (getSalesSummary db zone q).totalTax ∧
    (getSalesSummary db zone q).totalTransactions ≤
      ((getTaxSummary db zone q).taxByRate.map TaxByRate.transactionCount).sum
  products : ∀ limit, ∃ others,
    (getTopProducts db zone q limit ++ others).Perm (ranked (productStats db zone q)) ∧
      ((getTopProducts db zone q limit).map ProductItem.totalRevenue).sum + (others.map ProductItem.totalRevenue).sum =
        (getSalesSummary db zone q).totalRevenue ∧
      ((getTopProducts db zone q limit).map ProductItem.grossProfit).sum + (others.map ProductItem.grossProfit).sum =
        (getSalesSummary db zone q).grossProfit ∧
      distinct ProductItem.totalRevenue (getTopProducts db zone q limit) ≤ limit ∧
      ∀ top ∈ getTopProducts db zone q limit, ∀ other ∈ others, other.totalRevenue < top.totalRevenue
  categories : ((getCategoryPerformance db zone q).map CategoryItem.totalRevenue).sum +
      total Row.revenue ((periodRows db zone q).filter fun row => (db.categoryOf row.line.productId).isNone) =
    (getSalesSummary db zone q).totalRevenue
  payments :
    ((getPaymentBreakdown db zone q).map PaymentItem.totalAmount).sum = total SalePayment.amount (paymentRows db zone q) ∧
      (0 < total SalePayment.amount (paymentRows db zone q) →
        |((getPaymentBreakdown db zone q).map PaymentItem.percentage).sum - 100| ≤
          (getPaymentBreakdown db zone q).length * (1 / 200))
  profit : (getProfitLoss db zone q).totalRevenue = (getSalesSummary db zone q).totalRevenue ∧
    (getProfitLoss db zone q).grossProfit = (getSalesSummary db zone q).grossProfit ∧
    (getProfitLoss db zone q).totalExpenses = total spent (expenseRows db q) ∧
    (getProfitLoss db zone q).netProfit = (getSalesSummary db zone q).grossProfit - total spent (expenseRows db q)

/-- Whatever a report divides the sales by, its parts come to the summary. -/
theorem reports_agree (db : Database) (zone : Int → Moment) (q : Query) : Agree db zone q where
  trend := trend_sums
  hours := peak_sums hourLabel hourOf_lt
  days := peak_sums _ dayOfWeek_lt
  branches := branch_sums
  cashiers := cashier_sums
  taxes := tax_sums
  products := product_sums
  categories := category_sums
  payments := payment_sums
  profit := profit_sums

/-- What a summary adds up. -/
structure SalesSummary.Adds (first second whole : SalesSummary) : Prop where
  revenue : first.totalRevenue + second.totalRevenue = whole.totalRevenue
  cost : first.totalCost + second.totalCost = whole.totalCost
  profit : first.grossProfit + second.grossProfit = whole.grossProfit
  transactions : first.totalTransactions + second.totalTransactions = whole.totalTransactions
  discount : first.totalDiscount + second.totalDiscount = whole.totalDiscount
  tax : first.totalTax + second.totalTax = whole.totalTax
  returns : first.totalReturns + second.totalReturns = whole.totalReturns
  net : first.netRevenue + second.netRevenue = whole.netRevenue

def Query.upTo (q : Query) (day : Nat) : Query := { q with dateTo := day }

def Query.after (q : Query) (day : Nat) : Query := { q with dateFrom := day + 1 }

section Adjacent
variable {day : Nat} (start : q.dateFrom ≤ day + 1) (stop : day ≤ q.dateTo)
include start stop

theorem during_split (instant : Int) :
    during zone q instant = (during zone (q.upTo day) instant || during zone (q.after day) instant) ∧
      ¬(during zone (q.upTo day) instant = true ∧ during zone (q.after day) instant = true) := by
  have bounds : ∀ r : Query, during zone r instant = true ↔
      r.dateFrom ≤ dayNumber (zone instant) ∧ dayNumber (zone instant) ≤ r.dateTo := by
    simp [during]
  have first : (q.upTo day).dateFrom = q.dateFrom ∧ (q.upTo day).dateTo = day := ⟨rfl,rfl⟩
  have second : (q.after day).dateFrom = day + 1 ∧ (q.after day).dateTo = q.dateTo := ⟨rfl,rfl⟩
  rw [Bool.eq_iff_iff,Bool.or_eq_true]
  simp only [bounds,first,second]
  omega

theorem rows_split : (periodRows db zone (q.upTo day) ++ periodRows db zone (q.after day)).Perm (periodRows db zone q) := by
  simp only [periodRows]
  have parts : ∀ row : Row, q.chooses zone row = ((q.upTo day).chooses zone row || (q.after day).chooses zone row) ∧
      ¬((q.upTo day).chooses zone row = true ∧ (q.after day).chooses zone row = true) := by
    intro row
    obtain ⟨split,apart⟩ := @during_split zone q day start stop row.sale.soldAt
    simp only [Query.chooses,split,Bool.and_eq_true]
    refine ⟨Bool.and_or_distrib_left _ _ _,fun both => apart ⟨both.1.2,both.2.2⟩⟩
  have business : (q.upTo day).businessId = q.businessId ∧ (q.after day).businessId = q.businessId := ⟨rfl,rfl⟩
  rw [business.1,business.2]
  induction baseSaleJoins db q.businessId with
  | nil => exact .nil
  | cons row rows induction =>
    obtain ⟨either,apart⟩ := parts row
    cases first : (q.upTo day).chooses zone row <;> cases second : (q.after day).chooses zone row
    · simpa [List.filter_cons,either,first,second] using induction
    · simp only [List.filter_cons,either,first,second]
      exact List.perm_middle.trans (induction.cons row)
    · simp only [List.filter_cons,either,first,second]
      exact induction.cons row
    · exact absurd ⟨first,second⟩ apart

theorem returned_split : returned db zone (q.upTo day) + returned db zone (q.after day) = returned db zone q := by
  have flat : ∀ (f : SaleReturnLine → Option ℚ) (lines : List SaleReturnLine),
      (lines.filterMap f).sum = (lines.map fun line => (f line).getD 0).sum := by
    intro f lines
    induction lines with
    | nil => rfl
    | cons line lines induction => cases found : f line <;> simp [found,induction]
  simp only [returned,flat]
  rw [← List.sum_map_add]
  refine congrArg List.sum (List.map_congr_left fun line _ => ?_)
  cases db.saleReturns[line.saleReturnId]? with
  | none => exact add_zero 0
  | some ret =>
    obtain ⟨either,apart⟩ := @during_split zone q day start stop ret.returnedAt
    have business : (q.upTo day).businessId = q.businessId ∧ (q.after day).businessId = q.businessId := ⟨rfl,rfl⟩
    have branch : (q.upTo day).branchId = q.branchId ∧ (q.after day).branchId = q.branchId := ⟨rfl,rfl⟩
    simp only [Option.bind_some,business,branch,either]
    cases first : during zone (q.upTo day) ret.returnedAt <;> cases second : during zone (q.after day) ret.returnedAt
    · simp
    · simp only [Bool.and_false,Bool.false_and,Bool.false_eq_true,if_false,Option.getD_none,zero_add,Bool.false_or]
    · simp only [Bool.and_false,Bool.false_and,Bool.false_eq_true,if_false,Option.getD_none,add_zero,Bool.or_false]
    · exact absurd ⟨first,second⟩ apart

/-- Two periods next to each other, each sale in one of them. -/
theorem summary_adds :
    SalesSummary.Adds (getSalesSummary db zone (q.upTo day)) (getSalesSummary db zone (q.after day))
      (getSalesSummary db zone q) := by
  have rows := @rows_split db zone q day start stop
  have money : ∀ weight : Row → ℚ, total weight (periodRows db zone (q.upTo day)) +
      total weight (periodRows db zone (q.after day)) = total weight (periodRows db zone q) :=
    fun weight => total_append.symm.trans (total_perm rows)
  have returns := @returned_split db zone q day start stop
  have apart : ∀ a ∈ periodRows db zone (q.upTo day), ∀ b ∈ periodRows db zone (q.after day), a.saleId ≠ b.saleId := by
    intro a here b there same
    have first := sale_of_join (join_of_period here)
    have second := sale_of_join (join_of_period there)
    rw [same] at first
    have sales := Option.some.inj (first.symm.trans second)
    have early := List.mem_filter.mp here
    have late := List.mem_filter.mp there
    simp only [Query.chooses,Bool.and_eq_true] at early late
    rw [sales] at early
    exact (during_split start stop b.sale.soldAt).2 ⟨early.2.2,late.2.2⟩
  refine ⟨money _,money _,?_,(distinct_append apart).symm.trans (distinct_perm rows),money _,money _,returns,?_⟩
  · simp only [getSalesSummary]
    rw [← money Row.revenue,← money Row.cost]
    ring
  · simp only [getSalesSummary]
    rw [← money Row.revenue,← returns]
    ring

end Adjacent

theorem daily_rows (businessId day : Nat) (branchId : Option Nat) :
    ((baseSaleJoins db businessId).filter fun row =>
      branchClause branchId row.sale.branchId && dayNumber (zone row.sale.soldAt) = day) =
      periodRows db zone ⟨businessId,branchId,day,day⟩ := by
  refine List.filter_congr fun row _ => ?_
  have same : (decide (dayNumber (zone row.sale.soldAt) = day)) = during zone ⟨businessId,branchId,day,day⟩ row.sale.soldAt := by
    rw [Bool.eq_iff_iff]
    simp only [during,Bool.and_eq_true,decide_eq_true_eq]
    omega
  rw [same]
  rfl

theorem daily_summary (businessId day : Nat) (branchId : Option Nat) : dailySaleMetrics db zone businessId day branchId =
    let summary := getSalesSummary db zone ⟨businessId,branchId,day,day⟩
    ⟨summary.totalRevenue,summary.totalTransactions,summary.grossProfit,summary.avgOrderValue⟩ := by
  simp only [dailySaleMetrics,daily_rows,getSalesSummary]

theorem month_summary (businessId last : Nat) (branchId : Option Nat) (now : Int)
    (latest : ∀ sale ∈ db.sales, dayNumber (zone sale.soldAt) ≤ last) :
    let dashboard := getEnhancedDashboard db zone businessId branchId now
    let summary := getSalesSummary db zone ⟨businessId,branchId,monthStart (zone now),last⟩
    dashboard.monthRevenue = summary.totalRevenue ∧ dashboard.monthProfit = summary.grossProfit := by
  have rows : ((baseSaleJoins db businessId).filter fun row =>
      branchClause branchId row.sale.branchId && monthStart (zone now) ≤ dayNumber (zone row.sale.soldAt)) =
      periodRows db zone ⟨businessId,branchId,monthStart (zone now),last⟩ := by
    refine List.filter_congr fun row inside => ?_
    have bound := latest row.sale (List.mem_of_getElem? (sale_of_join (join_of_base inside)))
    simp [Query.chooses,during,bound]
  simp only [getEnhancedDashboard,getSalesSummary,rows,and_self]

/-- Summaries of adjacent periods add up, and the figures of the dashboards are summaries: of the day, of the day before, and
of the month as far as there are sales. -/
theorem periods_add (db : Database) (zone : Int → Moment) (q : Query) :
    (∀ day, q.dateFrom ≤ day + 1 → day ≤ q.dateTo →
      SalesSummary.Adds (getSalesSummary db zone (q.upTo day)) (getSalesSummary db zone (q.after day))
        (getSalesSummary db zone q)) ∧
    (∀ now, let today := getSalesSummary db zone ⟨q.businessId,q.branchId,dayNumber (zone now),dayNumber (zone now)⟩
      let yesterday := getSalesSummary db zone ⟨q.businessId,q.branchId,dayNumber (zone now) - 1,dayNumber (zone now) - 1⟩
      getTodayVsYesterday db zone q.businessId q.branchId now =
          ⟨⟨today.totalRevenue,today.totalTransactions,today.grossProfit,today.avgOrderValue⟩,
            ⟨yesterday.totalRevenue,yesterday.totalTransactions,yesterday.grossProfit,yesterday.avgOrderValue⟩,
            changePct today.totalRevenue yesterday.totalRevenue,
            changePct today.totalTransactions yesterday.totalTransactions,
            changePct today.grossProfit yesterday.grossProfit⟩ ∧
        (getEnhancedDashboard db zone q.businessId q.branchId now).today =
          ⟨today.totalRevenue,today.totalTransactions,today.grossProfit,today.avgOrderValue⟩) ∧
    ∀ now last, (∀ sale ∈ db.sales, dayNumber (zone sale.soldAt) ≤ last) →
      let dashboard := getEnhancedDashboard db zone q.businessId q.branchId now
      let summary := getSalesSummary db zone ⟨q.businessId,q.branchId,monthStart (zone now),last⟩
      dashboard.monthRevenue = summary.totalRevenue ∧ dashboard.monthProfit = summary.grossProfit := by
  refine ⟨fun day start stop => summary_adds start stop,?_,?_⟩
  · intro now
    simp only [getTodayVsYesterday,getEnhancedDashboard,daily_summary,and_self]
  · intro now last latest
    exact month_summary q.businessId last q.branchId now latest

private def firstDays (instant : Int) : Moment :=
  if instant = 0 then Calendar.midnight 1 1 1 (by decide) else Calendar.midnight 1 1 2 (by decide)

private def oneSale : Database where
  sales := [⟨1,1,none,1,"S-1",.pos,.completed,1,none⟩]
  saleLines := [⟨1,0,1,none,2,50,0,0,0,30,none⟩]
  salePayments := []
  saleReturns := []
  saleReturnLines := []
  expenses := []
  expenseCategories := []
  categoryOf _ := none
  branch _ := ⟨1,"Main"⟩
  customer _ := ⟨1,"Guest"⟩
  userName _ := "Cashier"
  productName _ := "Tea"
  variationName _ := ""
  categoryName _ := ""

/-- Two days, with a sale on the second. -/
theorem periods_add_sample : SalesSummary.Adds (getSalesSummary oneSale firstDays ⟨1,none,1,1⟩)
      (getSalesSummary oneSale firstDays ⟨1,none,2,2⟩) (getSalesSummary oneSale firstDays ⟨1,none,1,2⟩) ∧
    (getEnhancedDashboard oneSale firstDays 1 none 0).monthRevenue = (getSalesSummary oneSale firstDays ⟨1,none,1,2⟩).totalRevenue := by
  obtain ⟨adds,-,month⟩ := periods_add oneSale firstDays ⟨1,none,1,2⟩
  have dated : ∀ sale ∈ oneSale.sales, dayNumber (firstDays sale.soldAt) ≤ 2 := by decide
  exact ⟨adds 1 (by decide) (by decide),(month 0 2 dated).1⟩

theorem length_leftRows (rows : List α) : (leftRows rows).length = max 1 rows.length := by
  cases rows with
  | nil => rfl
  | cons a rows => simp [leftRows]

theorem sum_leftRows (weight : α → ℚ) (rows : List α) :
    ((leftRows rows).map fun row => (row.map weight).getD 0).sum = (rows.map weight).sum := by
  cases rows with
  | nil => simp [leftRows]
  | cons a rows => simp [leftRows,Function.comp_def]

theorem recent_total (saleId : Nat) (sale : Sale) : (recentItem db saleId sale).totalAmount =
    max 1 (paymentsOf db saleId sale).length * ((linesOf db saleId sale).map lineRevenue).sum := by
  have each : ∀ lines : List (Option SaleLine),
      ((lines.flatMap fun line => (leftRows (paymentsOf db saleId sale)).map fun payment => (line,payment)).map
        fun row => (row.1.map lineRevenue).getD 0).sum =
      max 1 (paymentsOf db saleId sale).length * (lines.map fun line => (line.map lineRevenue).getD 0).sum := by
    intro lines
    induction lines with
    | nil => simp
    | cons line lines induction =>
      rw [List.flatMap_cons,List.map_append,List.sum_append,induction,List.map_map,List.map_cons,List.sum_cons,mul_add]
      congr 1
      have constant : ((fun row : Option SaleLine × Option SalePayment => (row.1.map lineRevenue).getD 0) ∘
          fun payment => (line,payment)) = fun _ => (line.map lineRevenue).getD 0 := rfl
      rw [constant,List.map_const',List.sum_replicate,length_leftRows,nsmul_eq_mul,Nat.cast_max,Nat.cast_one]
  rw [recentItem,recentRows,each,sum_leftRows]

/-- The rows of one sale in the other reports. -/
theorem rows_of_sale {saleId : Nat} {sale : Sale} (found : db.sales[saleId]? = some sale) (alive : sale.deletedAt = none)
    (active : sale.active = true) : (baseSaleJoins db sale.businessId).filter (fun row => row.saleId = saleId) =
      (linesOf db saleId sale).map fun line => ⟨line,sale⟩ := by
  rw [baseSaleJoins,liveRows,saleJoin,linesOf,List.filter_filter,List.filter_filter,List.filter_filterMap,
    ← List.filterMap_eq_map,List.filterMap_filter]
  refine List.filterMap_congr fun line _ => ?_
  by_cases mine : line.saleId = saleId
  · rw [mine,found]
    by_cases business : sale.businessId = line.businessId
    · cases living : line.deletedAt <;>
        simp [business,Option.filter,Row.saleId,mine,active,alive,living]
    · have other : ¬line.businessId = sale.businessId := fun same => business same.symm
      simp [business,other]
  · have elsewhere : ∀ row ∈ (db.sales[line.saleId]?).bind (fun sale =>
        if sale.businessId = line.businessId then some (⟨line,sale⟩ : Row) else none), row.saleId ≠ saleId := by
      intro row inside
      obtain ⟨other,_,joined⟩ := Option.bind_eq_some_iff.mp inside
      split at joined <;> cases joined
      exact mine
    simp only [mine,decide_false,Bool.false_and,Bool.false_eq_true,if_false]
    rw [Option.filter_eq_none_iff]
    intro row inside
    simp [elsewhere row inside]

theorem mem_recent {businessId limit : Nat} {branchId : Option Nat} {item : RecentItem}
    (inside : item ∈ getRecentTransactions db businessId branchId limit) : ∃ (i : Nat) (sale : Sale),
      db.sales[i]? = some sale ∧ sale.businessId = businessId ∧ sale.deletedAt = none ∧ sale.active = true ∧
        item = recentItem db i sale := by
  have listed := (List.perm_insertionSort _ _).subset (List.mem_of_mem_take inside)
  obtain ⟨entry,chosen,rfl⟩ := List.mem_map.mp listed
  obtain ⟨there,shown⟩ := List.mem_filter.mp chosen
  simp only [Bool.and_eq_true,decide_eq_true_eq,Option.isNone_iff_eq_none] at shown
  obtain ⟨⟨⟨⟨business,alive⟩,active⟩,_⟩,_⟩ := shown
  exact ⟨entry.2,entry.1,List.mem_zipIdx_iff_getElem?.mp there,business,alive,active,rfl⟩

theorem among_first {score : α → Int} {items : List α} {a : α} (limit : Nat) (inside : a ∈ items) :
    a ∈ (items.insertionSort fun a b => score b ≤ score a).take limit ∨
      ((items.insertionSort fun a b => score b ≤ score a).take limit).length = limit ∧
        ∀ b ∈ (items.insertionSort fun a b => score b ≤ score a).take limit, score a ≤ score b := by
  have sorted_inside := (List.perm_insertionSort (fun a b => score b ≤ score a) items).mem_iff.mpr inside
  have total : Std.Total fun a b : α => score b ≤ score a := ⟨fun a b => le_total (score b) (score a)⟩
  have trans : IsTrans α fun a b => score b ≤ score a := ⟨fun _ _ _ first second => second.trans first⟩
  have descending := List.pairwise_insertionSort (fun a b => score b ≤ score a) items
  generalize items.insertionSort (fun a b => score b ≤ score a) = sorted at *
  rw [← List.take_append_drop limit sorted] at sorted_inside descending
  rcases List.mem_append.mp sorted_inside with kept | left
  · exact .inl kept
  · refine .inr ⟨?_,fun b there => (List.pairwise_append.mp descending).2.2 b there a left⟩
    have long : limit ≤ sorted.length := by
      by_contra short
      rw [List.drop_eq_nil_of_le (Nat.le_of_not_le short)] at left
      cases left
    rw [List.length_take,Nat.min_eq_left long]

theorem listed_or_earlier {businessId : Nat} {branchId : Option Nat} {i : Nat} {sale : Sale} (limit : Nat)
    (found : db.sales[i]? = some sale) (business : sale.businessId = businessId) (alive : sale.deletedAt = none)
    (active : sale.active = true) (branch : branchClause branchId sale.branchId = true)
    (own : (db.branch sale.branchId).businessId = sale.businessId) :
    recentItem db i sale ∈ getRecentTransactions db businessId branchId limit ∨
      (getRecentTransactions db businessId branchId limit).length = limit ∧
        ∀ item ∈ getRecentTransactions db businessId branchId limit, sale.soldAt ≤ item.soldAt := by
  refine among_first limit (List.mem_map.mpr ⟨(sale,i),List.mem_filter.mpr ⟨List.mem_zipIdx_iff_getElem?.mpr found,?_⟩,rfl⟩)
  simp [business,alive,active,branch,own]

theorem shown_once {shown amount : ℚ} {payments : Nat} (times : shown = max 1 payments * amount) :
    shown = amount ↔ amount = 0 ∨ payments ≤ 1 := by
  rw [times]
  constructor
  · intro same
    by_cases nothing : amount = 0
    · exact .inl nothing
    · have once : ((max 1 payments : Nat) : ℚ) = 1 := mul_right_cancel₀ nothing (same.trans (one_mul _).symm)
      have most : max 1 payments = 1 := by exact_mod_cast once
      exact .inr (most ▸ le_max_right 1 payments)
  · rintro (rfl | few)
    · rw [mul_zero]
    · rw [Nat.max_eq_left few,Nat.cast_one,one_mul]

/-- The latest sales are listed, each with the revenue that the other reports count for it times its payments, or once if
it has none. -/
theorem recent_transactions (db : Database) (businessId : Nat) (branchId : Option Nat) (limit : Nat) :
    (∀ item ∈ getRecentTransactions db businessId branchId limit, ∃ sale, db.sales[item.saleId]? = some sale ∧
      let revenue := total Row.revenue ((baseSaleJoins db businessId).filter fun row => row.saleId = item.saleId)
      item.totalAmount = max 1 (paymentsOf db item.saleId sale).length * revenue ∧
        (item.totalAmount = revenue ↔ revenue = 0 ∨ (paymentsOf db item.saleId sale).length ≤ 1)) ∧
    ∀ (i : Nat) (sale : Sale), db.sales[i]? = some sale → sale.businessId = businessId → sale.deletedAt = none →
      sale.active = true → branchClause branchId sale.branchId = true →
      (db.branch sale.branchId).businessId = sale.businessId →
      recentItem db i sale ∈ getRecentTransactions db businessId branchId limit ∨
        (getRecentTransactions db businessId branchId limit).length = limit ∧
          ∀ item ∈ getRecentTransactions db businessId branchId limit, sale.soldAt ≤ item.soldAt := by
  refine ⟨?_,fun _ _ found business alive active branch own =>
    listed_or_earlier limit found business alive active branch own⟩
  intro item inside
  obtain ⟨i,sale,found,rfl,alive,active,rfl⟩ := mem_recent inside
  have revenue : total Row.revenue ((baseSaleJoins db sale.businessId).filter fun row => row.saleId = i) =
      ((linesOf db i sale).map lineRevenue).sum := by
    rw [rows_of_sale found alive active,total,List.map_map]
    rfl
  have shown := @recent_total db i sale
  rw [← revenue] at shown
  exact ⟨sale,found,shown,shown_once shown⟩

end Reports
