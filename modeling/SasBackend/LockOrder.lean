import Mathlib.Data.List.Lex
import SasBackend.Semantics.LockOrder

/-! Locks taken in one order, and requests that never wait for each other in a circle.
A row is waited for only by requests that hold rows before it.
-/
namespace LockOrder
open RowLocks Deadlock Transition SasBackend
open Stock (Position)
open Refunds (LineId)

def Row.key : Row → List Nat
  | .sale _ => [0]
  | .shift _ => [1]
  | .saleLine id => [2,id.saleId,id.index]
  | .customer _ => [3]
  | .position p => [4,p.branchId,p.productId,p.variationId.elim 0 (· + 1)]
  | .layer _ _ => [5]

def Row.level (row : Row) : Nat := row.key.headI

def Row.isLayer : Row → Bool
  | .layer _ _ => true
  | _ => false

/-- The one order of the rows, in which layers are all alike. -/
def Precedes (b a : Row) : Prop := b.key < a.key ∨ b.isLayer = true ∧ a.isLayer = true

/-- Whatever a request asks for is free, or comes after all it holds; and nobody waits in a circle. -/
structure LockedInOrder (s : State Request Row) : Prop where
  inOrder : ∀ t session a rest, s.session t = some session → session.remaining = a :: rest →
    grantable s.locks t a.1 a.2 = true ∨ ∀ b ∈ session.taken, Precedes b.1 a.1
  acyclic : ¬Deadlocked s

def oneRow (xs : Acquisitions) : Bool := xs.all fun a => xs.all fun b => a.1 = b.1

/-- A sale names a customer to put something on account, a return names a sale by its lines, a void or cancel has one row to lock
after the sale, and production comes to a position with the lower ones locked and no layer. -/
def Request.orderly (sales : Sales) : Request → Bool
  | .createSale r => r.customerId.isNone || 0 < r.creditAmount
  | .createSaleReturn r => r.saleId.isNone || !r.lineIds.isEmpty
  | .voidSale r => (sales r.saleId).all fun sale => oneRow (restoreAllSaleLineInventory sale r ++ refundCredit sale r)
  | .cancelSale r => (sales r.saleId).all fun sale =>
      oneRow ((if skipInventoryRestore r.saleType r.status then [] else restoreAllSaleLineInventory sale r.toUndoSaleRequest) ++
        refundCredit sale r.toUndoSaleRequest)
  | .completeProductionOrder ingredients =>
      ingredients.Pairwise fun a b => a.position = b.position ∨ a.layers = [] ∧ a.position.before b.position = true
  | _ => true

/-- The sales whose rows or lines it locks. -/
def Request.sales : Request → List Nat
  | .completeTab r => [r.saleId]
  | .createSaleReturn r => r.lineIds.map (·.saleId) ++ r.returnedSale.toList
  | .voidSale r => [r.saleId]
  | .cancelSale r => [r.saleId]
  | _ => []

def Request.completes : Request → Option Nat
  | .completeTab r => some r.saleId
  | _ => none

/-- One completes a tab that the other one returns, voids or cancels. -/
def disturbs (r other : Request) : Bool := other.completes.isNone && r.completes.any (· ∈ other.sales)

def mayRunBeside (r other : Request) : Bool := !disturbs r other && !disturbs other r

def careful (sales : Sales) (s : State Request Row) : Label Request → Bool
  | .start request => request.orderly sales &&
      s.sessions.all fun session => session.all fun x => mayRunBeside request x.request
  | _ => true

theorem key_lt_of_level {b a : Row} (lower : b.level < a.level) : b.key < a.key := by
  cases b <;> cases a <;> simp_all [Row.level,Row.key,List.cons_lt_cons_iff]

theorem precedes_of_level {b a : Row} (lower : b.level < a.level) : Precedes b a := .inl (key_lt_of_level lower)

theorem level_le (row : Row) : row.level ≤ 5 := by
  cases row <;> simp [Row.level,Row.key]

theorem isLayer_iff {row : Row} : row.isLayer = true ↔ row.level = 5 := by
  cases row <;> simp [Row.isLayer,Row.level,Row.key]

theorem precedes_layer (b : Row) (p : Position) (id : Nat) : Precedes b (.layer p id) := by
  rcases Nat.lt_or_ge b.level 5 with lower | layer
  · exact precedes_of_level lower
  · exact .inr ⟨isLayer_iff.mpr (Nat.le_antisymm (level_le b) layer),rfl⟩

theorem precedes_position {p q : Position} (before : p.before q = true) (different : p ≠ q) :
    Precedes (.position p) (.position q) := by
  obtain ⟨b,i,v⟩ := p
  obtain ⟨c,j,w⟩ := q
  left
  cases v <;> cases w <;> simp_all [Position.before,Row.key,List.cons_lt_cons_iff] <;> omega

theorem precedes_saleLine {i j : LineId} (before : lineBefore i j = true) (different : i ≠ j) :
    Precedes (.saleLine i) (.saleLine j) := by
  obtain ⟨s,n⟩ := i
  obtain ⟨t,m⟩ := j
  left
  simp_all [lineBefore,Row.key,List.cons_lt_cons_iff]
  omega

theorem sorted_distinct {β : Type} [DecidableEq β] {before : β → β → Bool}
    (total : ∀ a b, before a b = true ∨ before b a = true)
    (transitive : ∀ a b c, before a b = true → before b c = true → before a c = true) (xs : List β) :
    (xs.dedup.insertionSort (before · ·)).Pairwise fun a b => before a b = true ∧ a ≠ b := by
  have : Std.Total (before · ·) := ⟨total⟩
  have : IsTrans β (before · ·) := ⟨transitive⟩
  have distinct : (xs.dedup.insertionSort (before · ·)).Nodup :=
    (List.perm_insertionSort _ _).nodup_iff.mpr (List.nodup_dedup xs)
  exact (List.pairwise_insertionSort _ _).and distinct

theorem before_total (p q : Position) : p.before q = true ∨ q.before p = true := by
  obtain ⟨b,i,v⟩ := p
  obtain ⟨c,j,w⟩ := q
  cases v <;> cases w <;> simp [Position.before] <;> omega

theorem before_trans (p q r : Position) (first : p.before q = true) (second : q.before r = true) : p.before r = true := by
  obtain ⟨b,i,v⟩ := p
  obtain ⟨c,j,w⟩ := q
  obtain ⟨d,k,x⟩ := r
  cases v <;> cases w <;> cases x <;> simp_all [Position.before] <;> omega

theorem lineBefore_total (i j : LineId) : lineBefore i j = true ∨ lineBefore j i = true := by
  simp only [lineBefore,Bool.or_eq_true,Bool.and_eq_true,decide_eq_true_eq]
  omega

theorem lineBefore_trans (i j k : LineId) (first : lineBefore i j = true) (second : lineBefore j k = true) :
    lineBefore i k = true := by
  simp only [lineBefore,Bool.or_eq_true,Bool.and_eq_true,decide_eq_true_eq] at *
  omega

variable {sales : Sales} {r : Request} {known later taken rest : Acquisitions} {a : Acquisition Row}

/-- A sale is referred to under one of its lines, and locked under all of them. -/
def SaleGuard (sales : Sales) (taken : Acquisitions) (saleId : Nat) (mode : Mode) : Prop :=
  mode = .keyShare ∧ (∃ id, id.saleId = saleId ∧ (sales.line id).isSome = true ∧ (.saleLine id,.update) ∈ taken) ∨
    mode = .update ∧ ∀ id, id.saleId = saleId → (sales.line id).isSome = true → (.saleLine id,.update) ∈ taken

/-- Why an acquisition is in order, or need not be. -/
inductive Placed (sales : Sales) (r : Request) (taken : Acquisitions) (a : Acquisition Row) : Prop
  | after (lower : ∀ b ∈ taken, Precedes b.1 a.1)
  | again (held : (a.1,.update) ∈ taken)
  | shift (id : Nat) (reference : a = (.shift id,.keyShare))
  | underLine (id : LineId) (row : a.1 = .sale id.saleId) (there : (sales.line id).isSome = true)
      (held : (.saleLine id,.update) ∈ taken) (other : r.completes = none)
  | underSale (id : LineId) (row : a.1 = .saleLine id) (held : (.sale id.saleId,.update) ∈ taken)
      (completes : r.completes = some id.saleId)

/-- What is known of one acquisition of a request, from those before and after. -/
structure Fits (sales : Sales) (r : Request) (taken : Acquisitions) (a : Acquisition Row) (rest : Acquisitions) : Prop where
  placed : Placed sales r taken a
  sale : ∀ id, a.1 = .sale id → id ∈ r.sales ∧ (r.completes = some id ∨ SaleGuard sales taken id a.2)
  line : ∀ id, a.1 = .saleLine id → id.saleId ∈ r.sales ∧ (sales.line id).isSome = true ∧
    (r.completes = none ∨ r.completes = some id.saleId ∧ (.sale id.saleId,.update) ∈ taken)
  shift : ∀ id, a.1 = .shift id → a.2 ≠ .update
  layer : ∀ p id, a.1 = .layer p id → a.2 = .update ∧ ((.position p,.update) ∈ taken ∨
    (∀ b ∈ taken, ∀ q, b.1 ≠ .position q) ∧ ∀ b ∈ rest, b.1 = a.1 ∨ ∃ shift, b = (.shift shift,.keyShare))

/-- All rows are below a level. -/
def Below (n : Nat) (xs : Acquisitions) : Prop := ∀ b ∈ xs, b.1.level < n

theorem below_append {n : Nat} {xs ys : Acquisitions} : Below n (xs ++ ys) ↔ Below n xs ∧ Below n ys := by
  simp only [Below,List.mem_append,or_imp,forall_and]

theorem below_nil {n : Nat} : Below n [] := by
  simp [Below]

theorem below_requireCallerShift {n shift : Nat} (lower : 1 < n) : Below n (requireCallerShift shift) := by
  simpa [Below,requireCallerShift,Row.level,Row.key]

theorem below_lockSale {n saleId : Nat} (lower : 0 < n) : Below n (lockSale saleId) := by
  simpa [Below,lockSale,Row.level,Row.key]

theorem mem_lockSaleLines {ids : List LineId} : a ∈ lockSaleLines ids ↔ ∃ id ∈ ids, a = (.saleLine id,.update) := by
  simp only [lockSaleLines,List.mem_map,List.mem_insertionSort,List.mem_dedup,@eq_comm _ a]

theorem mem_lockStockPositions {positions : List Position} :
    a ∈ lockStockPositions positions ↔ ∃ p ∈ positions, a = (.position p,.update) := by
  simp only [lockStockPositions,List.mem_map,List.mem_insertionSort,List.mem_dedup,@eq_comm _ a]

theorem mem_lockLayers {p : Position} {layers : List Nat} :
    a ∈ lockLayers p layers ↔ ∃ id ∈ layers, a = (.layer p id,.update) := by
  simp only [lockLayers,List.mem_map,@eq_comm _ a]

theorem below_lockSaleLines {n : Nat} {ids : List LineId} (lower : 2 < n) : Below n (lockSaleLines ids) := by
  intro b member
  obtain ⟨id,_,rfl⟩ := mem_lockSaleLines.mp member
  exact lower

theorem below_customers {n : Nat} {customerId : Option Nat} (lower : 3 < n) :
    Below n (customerId.toList.flatMap lockCustomer) := by
  cases customerId with
  | none => exact below_nil
  | some id => simpa [Below,lockCustomer,Row.level,Row.key]

theorem below_assertCreditAvailable {n : Nat} {customerId : Option Nat} {creditAmount : ℚ} (lower : 3 < n) :
    Below n (assertCreditAvailable customerId creditAmount) := by
  unfold assertCreditAvailable
  split
  · exact below_customers lower
  · exact below_nil

theorem precedes_along {xs before : Acquisitions} (low : ∀ b ∈ known, ∀ x ∈ xs, Precedes b.1 x.1)
    (sorted : xs.Pairwise fun b x => Precedes b.1 x.1) (split : xs = before ++ a :: rest) :
    ∀ b ∈ known ++ before, Precedes b.1 a.1 := by
  subst split
  intro b member
  rcases List.mem_append.mp member with old | new
  · exact low b old a (by simp)
  · exact (List.pairwise_append.mp sorted).2.2 b new a List.mem_cons_self

theorem fits_requireCallerShift {shift : Nat} (low : Below 1 known) :
    Along (Fits sales r) known (requireCallerShift shift) later := by
  rw [requireCallerShift,along_singleton]
  exact ⟨.after fun b member => precedes_of_level (low b member),by simp,by simp,by simp,by simp⟩

theorem fits_customers {customerId : Option Nat} (low : Below 3 known) :
    Along (Fits sales r) known (customerId.toList.flatMap lockCustomer) later := by
  cases customerId with
  | none => exact along_nil
  | some id =>
    rw [Option.toList_some,List.flatMap_singleton,lockCustomer,along_singleton]
    exact ⟨.after fun b member => precedes_of_level (low b member),by simp,by simp,by simp,by simp⟩

theorem fits_assertCreditAvailable {customerId : Option Nat} {creditAmount : ℚ} (low : Below 3 known) :
    Along (Fits sales r) known (assertCreditAvailable customerId creditAmount) later := by
  unfold assertCreditAvailable
  split
  · exact fits_customers low
  · exact along_nil

theorem fits_lockStockPositions {positions : List Position} (low : Below 4 known) :
    Along (Fits sales r) known (lockStockPositions positions) later := by
  have sorted : (lockStockPositions positions).Pairwise fun b x => Precedes b.1 x.1 :=
    List.pairwise_map.mpr ((sorted_distinct before_total before_trans positions).imp fun both => precedes_position both.1 both.2)
  intro before x rest same
  have member : x ∈ lockStockPositions positions := by simp [same]
  obtain ⟨p,_,rfl⟩ := mem_lockStockPositions.mp member
  have above : ∀ b ∈ known, ∀ y ∈ lockStockPositions positions, Precedes b.1 y.1 := by
    intro b old y new
    obtain ⟨q,_,rfl⟩ := mem_lockStockPositions.mp new
    exact precedes_of_level (low b old)
  exact ⟨.after (precedes_along above sorted same),by simp,by simp,by simp,by simp⟩

theorem fits_lockSaleLines {ids : List LineId} (low : Below 2 known) (other : r.completes = none)
    (there : ∀ id ∈ ids, id.saleId ∈ r.sales ∧ (sales.line id).isSome = true) :
    Along (Fits sales r) known (lockSaleLines ids) later := by
  have sorted : (lockSaleLines ids).Pairwise fun b x => Precedes b.1 x.1 :=
    List.pairwise_map.mpr ((sorted_distinct lineBefore_total lineBefore_trans ids).imp fun both => precedes_saleLine both.1 both.2)
  intro before x rest same
  have member : x ∈ lockSaleLines ids := by simp [same]
  obtain ⟨id,listed,rfl⟩ := mem_lockSaleLines.mp member
  have above : ∀ b ∈ known, ∀ y ∈ lockSaleLines ids, Precedes b.1 y.1 := by
    intro b old y new
    obtain ⟨i,_,rfl⟩ := mem_lockSaleLines.mp new
    exact precedes_of_level (low b old)
  refine ⟨.after (precedes_along above sorted same),by simp,?_,by simp,by simp⟩
  rintro _ ⟨⟩
  exact ⟨(there id listed).1,(there id listed).2,.inl other⟩

theorem fits_lockLayers {p : Position} {layers : List Nat} (held : (.position p,.update) ∈ known) :
    Along (Fits sales r) known (lockLayers p layers) later := by
  intro before x rest same
  have member : x ∈ lockLayers p layers := by simp [same]
  obtain ⟨id,_,rfl⟩ := mem_lockLayers.mp member
  refine ⟨.after fun b _ => precedes_layer b.1 p id,by simp,by simp,by simp,?_⟩
  rintro _ _ ⟨⟩
  exact ⟨rfl,.inl (List.mem_append_left _ held)⟩

theorem fits_allocate {lines : List StockLine} (locked : ∀ line ∈ lines, (.position line.position,.update) ∈ known) :
    Along (Fits sales r) known (lines.flatMap allocateSaleLineFifo) later := by
  apply along_flatMap
  intro before line rest same
  have member : line ∈ lines := by simp [same]
  exact fits_lockLayers (List.mem_append_left _ (locked line member))

theorem fits_createSale {sale : CreateSaleRequest} (orderly : (Request.createSale sale).orderly sales = true) :
    Along (Fits sales (.createSale sale)) [] (createSale sale) [] := by
  simp only [createSale,along_append]
  refine ⟨⟨⟨⟨fits_requireCallerShift below_nil,fits_assertCreditAvailable ?_⟩,fits_lockStockPositions ?_⟩,
    fits_allocate ?_⟩,?_⟩
  · simp [below_requireCallerShift]
  · simp [below_append,below_requireCallerShift,below_assertCreditAvailable]
  · intro line member
    have locked : (.position line.position,.update) ∈ lockStockPositions (sale.lines.map (·.position)) :=
      mem_lockStockPositions.mpr ⟨_,List.mem_map_of_mem member,rfl⟩
    simp [locked]
  · simp only [Request.orderly,Bool.or_eq_true,Option.isNone_iff_eq_none,decide_eq_true_eq] at orderly
    cases named : sale.customerId with
    | none => exact along_nil
    | some id =>
      have credit : 0 < sale.creditAmount := orderly.resolve_left (by simp [named])
      have held : (.customer id,.update) ∈ assertCreditAvailable sale.customerId sale.creditAmount := by
        simp [assertCreditAvailable,credit,named,lockCustomer]
      rw [Option.toList_some,List.flatMap_singleton,references,along_singleton]
      exact ⟨.again (by simp [← named,held]),by simp,by simp,by simp,by simp⟩

theorem mem_linesWith {sale : Sale} {saleId : Nat} {layers : List (List Nat)} {line : LineId × StockLine}
    (member : line ∈ sale.linesWith saleId layers) :
    ∃ x, line.1.saleId = saleId ∧ sale.lines[line.1.index]? = some x ∧ line.2.position = x.position sale.branchId := by
  obtain ⟨⟨x,i⟩,there,rfl⟩ := List.mem_map.mp member
  exact ⟨x,rfl,List.mem_zipIdx_iff_getElem?.mp there,rfl⟩

theorem fits_completeTab {tab : CompleteTabRequest} :
    Along (Fits sales (.completeTab tab)) [] (completeTab sales tab) [] := by
  unfold completeTab
  split
  · exact along_nil
  next sale found =>
  simp only [along_append]
  refine ⟨⟨⟨⟨?_,fits_requireCallerShift ?_⟩,fits_assertCreditAvailable ?_⟩,fits_lockStockPositions ?_⟩,along_flatMap ?_⟩
  · rw [lockSale,along_singleton]
    refine ⟨.after (by simp),?_,by simp,by simp,by simp⟩
    rintro _ ⟨⟩
    exact ⟨List.mem_singleton_self _,.inl rfl⟩
  · simp [below_lockSale]
  · simp [below_append,below_lockSale,below_requireCallerShift]
  · simp [below_append,below_lockSale,below_requireCallerShift,below_assertCreditAvailable]
  · intro before line rest same
    obtain ⟨x,saleId,there,position⟩ := mem_linesWith (by rw [same]; simp : line ∈ sale.linesWith tab.saleId tab.layers)
    have locked : (.position line.2.position,.update) ∈ lockStockPositions (sale.lines.map (·.position sale.branchId)) :=
      mem_lockStockPositions.mpr ⟨_,List.mem_map_of_mem (List.mem_of_getElem? there),by rw [position]⟩
    rw [completeTabLine,along_append,along_singleton]
    refine ⟨fits_lockLayers ?_,.underSale line.1 rfl ?_ ?_,by simp,?_,by simp,by simp⟩
    · simp [locked]
    · simp [saleId,lockSale]
    · simp [saleId,Request.completes]
    · rintro _ ⟨⟩
      refine ⟨by simp [saleId,Request.sales],?_,.inr ⟨by simp [saleId,Request.completes],by simp [saleId,lockSale]⟩⟩
      simp [Sales.line,saleId,found,there]

theorem fits_consumeLines {lines : List StockLine} : Along (Fits sales r) [] (consumeLines lines) [] := by
  rw [consumeLines,along_append]
  refine ⟨fits_lockStockPositions below_nil,fits_allocate fun line member => ?_⟩
  exact mem_lockStockPositions.mpr ⟨_,List.mem_map_of_mem member,rfl⟩

theorem fits_createStockAdjustment {lines : List AdjustmentLine} :
    Along (Fits sales r) [] (createStockAdjustment lines) [] := by
  rw [createStockAdjustment,along_append]
  refine ⟨fits_lockStockPositions below_nil,along_flatMap fun before line rest same => ?_⟩
  have member : line ∈ lines := by simp [same]
  unfold adjustLine
  split
  · exact along_nil
  · apply fits_lockLayers
    apply List.mem_append_left
    exact mem_lockStockPositions.mpr ⟨_,List.mem_map_of_mem member,rfl⟩

theorem fits_completeProductionOrder {ingredients : List StockLine}
    (orderly : (Request.completeProductionOrder ingredients).orderly sales = true) :
    Along (Fits sales (.completeProductionOrder ingredients)) [] (completeProductionOrder ingredients) [] := by
  have apart : ingredients.Pairwise fun a b => a.position = b.position ∨ a.layers = [] ∧ a.position.before b.position = true :=
    of_decide_eq_true orderly
  refine along_flatMap fun before line rest same => ?_
  rw [List.nil_append,consumeIngredientFifo,along_append]
  refine ⟨?_,fits_lockLayers (by simp [lockStockPositions])⟩
  rw [show lockStockPositions [line.position] = [(.position line.position,.update)] by simp [lockStockPositions],along_singleton]
  refine ⟨?_,by simp,by simp,by simp,by simp⟩
  by_cases earlier : ∃ x ∈ before, x.position = line.position
  · obtain ⟨x,member,here⟩ := earlier
    apply Placed.again
    exact List.mem_flatMap.mpr ⟨x,member,by simp [consumeIngredientFifo,lockStockPositions,here]⟩
  · apply Placed.after
    intro b member
    obtain ⟨x,inside,locked⟩ := List.mem_flatMap.mp member
    have different : x.position ≠ line.position := fun here => earlier ⟨x,inside,here⟩
    rw [same] at apart
    have lower := ((List.pairwise_append.mp apart).2.2 x inside line List.mem_cons_self).resolve_left different
    simp only [consumeIngredientFifo,allocateSaleLineFifo,lockLayers,lockStockPositions,lower.1,List.map_nil,
      List.append_nil,List.dedup_cons_of_notMem (List.not_mem_nil),List.dedup_nil,List.insertionSort_cons,
      List.insertionSort_nil,List.orderedInsert_nil,List.map_cons,List.mem_singleton] at locked
    subst locked
    exact precedes_position lower.2 different

theorem oneRow_iff {xs : Acquisitions} : oneRow xs = true ↔ ∀ a ∈ xs, ∀ b ∈ xs, a.1 = b.1 := by
  simp [oneRow]

/-- What a void or cancel restores is locked in layers. -/
def OfLayers (xs : Acquisitions) : Prop := ∀ b ∈ xs, ∃ p id, b = (.layer p id,.update)

theorem ofLayers_restore (sale : Sale) (undo : UndoSaleRequest) : OfLayers (restoreAllSaleLineInventory sale undo) := by
  intro b member
  obtain ⟨line,_,locked⟩ := List.mem_flatMap.mp member
  obtain ⟨id,_,rfl⟩ := mem_lockLayers.mp locked
  exact ⟨_,id,rfl⟩

theorem refundCredit_cases (sale : Sale) (undo : UndoSaleRequest) :
    refundCredit sale undo = [] ∨ ∃ id, refundCredit sale undo = [(.customer id,.keyShare)] := by
  unfold refundCredit
  split
  · cases sale.customerId with
    | none => exact .inl rfl
    | some id => exact .inr ⟨id,rfl⟩
  · exact .inl rfl

/-- A void or cancel: all lines, the sale, and one row at most. -/
theorem fits_undo {sale : Sale} {undo : UndoSaleRequest} {restored : Acquisitions} (found : sales undo.saleId = some sale)
    (own : undo.saleId ∈ r.sales) (other : r.completes = none) (layers : OfLayers restored)
    (single : oneRow (restored ++ refundCredit sale undo) = true) :
    Along (Fits sales r) [] (lockSaleLinesForUpdate sale undo.saleId ++ lockSale undo.saleId ++ restored ++
      reverseCompletedSaleSettlements sale undo) [] := by
  have exists_ (i : Nat) : (sales.line ⟨undo.saleId,i⟩).isSome = true ↔ i < sale.lines.length := by
    simp [Sales.line,found]
  have lines (i : Nat) : (.saleLine ⟨undo.saleId,i⟩,.update) ∈ lockSaleLinesForUpdate sale undo.saleId ↔ i < sale.lines.length := by
    simp [lockSaleLinesForUpdate,mem_lockSaleLines]
  have same := oneRow_iff.mp single
  simp only [along_append,reverseCompletedSaleSettlements]
  refine ⟨⟨⟨?_,?_⟩,?_⟩,?_,?_⟩
  · apply fits_lockSaleLines below_nil other
    intro id member
    obtain ⟨i,inside,rfl⟩ := List.mem_map.mp member
    exact ⟨own,(exists_ i).mpr (List.mem_range.mp inside)⟩
  · rw [lockSale,along_singleton]
    refine ⟨?_,?_,by simp,by simp,by simp⟩
    · rcases Nat.eq_zero_or_pos sale.lines.length with none | some
      · apply Placed.after
        simp [lockSaleLinesForUpdate,none,lockSaleLines]
      · exact .underLine ⟨undo.saleId,0⟩ rfl ((exists_ 0).mpr some) (List.mem_append_right _ ((lines 0).mpr some)) other
    · rintro _ ⟨⟩
      refine ⟨own,.inr (.inr ⟨rfl,?_⟩)⟩
      rintro ⟨_,i⟩ rfl there
      exact List.mem_append_right _ ((lines i).mpr ((exists_ i).mp there))
  · intro before a rest split
    have inside : a ∈ restored := by simp [split]
    obtain ⟨p,id,rfl⟩ := layers a inside
    refine ⟨.after fun b _ => precedes_layer b.1 p id,by simp,by simp,by simp,?_⟩
    rintro _ _ ⟨⟩
    refine ⟨rfl,.inr ⟨?_,?_⟩⟩
    · intro b member q
      simp only [List.nil_append,List.mem_append,lockSale,List.mem_singleton] at member
      rcases member with (member | rfl) | member
      · obtain ⟨i,_,rfl⟩ := mem_lockSaleLines.mp member
        simp
      · simp
      · obtain ⟨p,id,rfl⟩ := layers b (by simp [split,member])
        simp
    · intro b member
      simp only [List.append_nil,List.mem_append] at member
      rcases member with member | member | member
      · exact .inl (same b (by simp [split,member]) _ (by simp [inside]))
      · obtain ⟨shift,_,referred⟩ := List.mem_flatMap.mp member
        exact .inr ⟨shift,List.mem_singleton.mp referred⟩
      · exact .inl (same b (by simp [member]) _ (by simp [inside]))
  · cases undo.registerShiftId with
    | none => exact along_nil
    | some shift =>
      rw [Option.toList_some,List.flatMap_singleton,references,along_singleton]
      exact ⟨.shift shift rfl,by simp,by simp,by simp,by simp⟩
  · rcases refundCredit_cases sale undo with none | ⟨id,refund⟩
    · rw [none]
      exact along_nil
    · rw [refund] at same ⊢
      have nothing (b : Acquisition Row) (member : b ∈ restored) : False := by
        obtain ⟨p,layer,rfl⟩ := layers b member
        have equal := same _ (List.mem_append_left _ member) (.customer id,.keyShare) (by simp)
        cases equal
      rw [along_singleton]
      refine ⟨.after fun b member => ?_,by simp,by simp,by simp,by simp⟩
      apply precedes_of_level
      simp only [List.nil_append,List.mem_append,lockSale,List.mem_singleton] at member
      rcases member with ((member | rfl) | member) | member
      · obtain ⟨i,_,rfl⟩ := mem_lockSaleLines.mp member
        exact Nat.lt_succ_self 2
      · exact Nat.succ_pos 2
      · exact (nothing b member).elim
      · obtain ⟨shift,_,referred⟩ := List.mem_flatMap.mp member
        cases List.mem_singleton.mp referred
        exact Nat.one_lt_succ_succ 1

theorem fits_voidSale {undo : UndoSaleRequest} (orderly : (Request.voidSale undo).orderly sales = true) :
    Along (Fits sales (.voidSale undo)) [] (voidSale sales undo) [] := by
  unfold voidSale
  split
  · exact along_nil
  · next sale found =>
    simp only [Request.orderly,found,Option.all_some] at orderly
    exact fits_undo found (List.mem_singleton_self _) rfl (ofLayers_restore sale undo) orderly

theorem fits_cancelSale {cancel : CancelSaleRequest} (orderly : (Request.cancelSale cancel).orderly sales = true) :
    Along (Fits sales (.cancelSale cancel)) [] (cancelSale sales cancel) [] := by
  unfold cancelSale
  split
  · exact along_nil
  · next sale found =>
    simp only [Request.orderly,found,Option.all_some] at orderly
    refine fits_undo found (List.mem_singleton_self _) rfl ?_ orderly
    split
    · simp [OfLayers]
    · exact ofLayers_restore sale cancel.toUndoSaleRequest

theorem fits_returnAgainst {back : CreateSaleReturnRequest} {original : Option (Nat × Sale)} (low : Below 3 known)
    (resolves : back.resolves sales = true) (guarded : ∀ sale ∈ original, back.returnedSale = some sale.1 ∧
      ∃ id, id.saleId = sale.1 ∧ (sales.line id).isSome = true ∧ (.saleLine id,.update) ∈ known) :
    Along (Fits sales (.createSaleReturn back)) known (returnAgainst sales back original) [] := by
  simp only [returnAgainst,along_append]
  refine ⟨⟨⟨fits_customers low,fits_lockStockPositions ?_⟩,?_⟩,along_flatMap ?_⟩
  · exact below_append.mpr ⟨fun b member => Nat.lt_succ_of_lt (low b member),below_customers (Nat.lt_succ_self 3)⟩
  · cases original with
    | none => exact along_nil
    | some sale =>
      obtain ⟨named,⟨_,i⟩,rfl,there,held⟩ := guarded sale rfl
      rw [Option.toList_some,List.flatMap_singleton,references,along_singleton]
      refine ⟨.underLine ⟨sale.1,i⟩ rfl there (by simp [held]) rfl,?_,by simp,by simp,by simp⟩
      rintro _ ⟨⟩
      refine ⟨by simp [Request.sales,named],.inr (.inl ⟨rfl,⟨sale.1,i⟩,rfl,there,?_⟩)⟩
      simp [held]
  · intro before line rest same
    have member : line ∈ back.lines := by simp [same]
    cases line with
    | ofProduct productId variationId => exact along_nil
    | ofSaleLine id layers =>
      have listed : id ∈ back.lineIds := List.mem_filterMap.mpr ⟨_,member,rfl⟩
      have there : (sales.line id).isSome = true := by
        have each := List.all_eq_true.mp resolves id listed
        exact (Bool.and_eq_true _ _ ▸ each).1
      obtain ⟨x,found⟩ := Option.isSome_iff_exists.mp there
      have locked : (.position (x.position back.branchId),.update) ∈
          lockStockPositions (back.lines.filterMap (·.position sales back.branchId)) :=
        mem_lockStockPositions.mpr ⟨_,List.mem_filterMap.mpr ⟨_,member,by simp [ReturnLine.position,found]⟩,rfl⟩
      have restored : restoreReturnLine sales back.branchId (.ofSaleLine id layers) =
          lockLayers (x.position back.branchId) layers := by
        simp [restoreReturnLine,ReturnLine.position,found]
      rw [restored]
      exact fits_lockLayers (by simp only [List.mem_append,locked,true_or,or_true])

theorem fits_createSaleReturn {back : CreateSaleReturnRequest}
    (orderly : (Request.createSaleReturn back).orderly sales = true) :
    Along (Fits sales (.createSaleReturn back)) [] (createSaleReturn sales back) [] := by
  simp only [createSaleReturn,along_append]
  refine ⟨⟨fits_requireCallerShift below_nil,fits_lockSaleLines ?_ rfl ?_⟩,?_⟩
  · simp [below_requireCallerShift]
  · intro id member
    obtain ⟨listed,there⟩ := List.mem_filter.mp member
    exact ⟨List.mem_append_left _ (List.mem_map_of_mem listed),there⟩
  · have low : Below 3 ([] ++ (requireCallerShift back.shift ++
        lockSaleLines (back.lineIds.filter fun id => (sales.line id).isSome))) := by
      simp [below_append,below_requireCallerShift,below_lockSaleLines]
    split
    · next resolves =>
      split
      · exact fits_returnAgainst low resolves (by simp)
      · next saleId named =>
        split
        · exact along_nil
        · next sale found =>
          split
          · refine fits_returnAgainst low resolves ?_
            rintro _ ⟨⟩
            refine ⟨named,?_⟩
            have nonempty : back.lineIds ≠ [] := by
              intro empty
              simp only [Request.orderly,empty,List.isEmpty_nil,Bool.not_true,Bool.or_false,Option.isNone_iff_eq_none] at orderly
              simp [CreateSaleReturnRequest.returnedSale,orderly,empty] at named
            obtain ⟨id,listed⟩ := List.exists_mem_of_ne_nil _ nonempty
            have each := List.all_eq_true.mp resolves id listed
            simp only [Bool.and_eq_true,decide_eq_true_eq,named,Option.some.injEq] at each
            refine ⟨id,each.2.symm,each.1,?_⟩
            simp [mem_lockSaleLines,listed,each.1]
          · exact along_nil
    · exact along_nil

theorem fits_acquisitions (orderly : r.orderly sales = true) (split : acquisitions sales r = taken ++ a :: rest) :
    Fits sales r taken a rest := by
  have all : Along (Fits sales r) [] (acquisitions sales r) [] := by
    cases r with
    | createSale sale => exact fits_createSale orderly
    | completeTab tab => exact fits_completeTab
    | createSaleReturn back => exact fits_createSaleReturn orderly
    | voidSale undo => exact fits_voidSale orderly
    | cancelSale cancel => exact fits_cancelSale orderly
    | createStockTransfer lines => exact fits_consumeLines
    | createWasteEntry lines => exact fits_consumeLines
    | createStockAdjustment lines => exact fits_createStockAdjustment
    | completeProductionOrder ingredients => exact fits_completeProductionOrder orderly
  have here := all taken a rest split
  rwa [List.nil_append,List.append_nil] at here

theorem SaleGuard.mono {saleId : Nat} {mode : Mode} {more : Acquisitions} (guard : SaleGuard sales taken saleId mode)
    (held : ∀ b ∈ taken, b ∈ more) : SaleGuard sales more saleId mode := by
  rcases guard with ⟨share,id,own,there,member⟩ | ⟨update,all⟩
  · exact .inl ⟨share,id,own,there,held _ member⟩
  · exact .inr ⟨update,fun id own there => held _ (all id own there)⟩

/-- The locks are as the lists say, every request keeps to the order, and no tab is completed beside an undoing of it. -/
structure Invariant (sales : Sales) (s : State Request Row) : Prop where
  locked : Deadlock.Invariant (acquisitions sales) s
  orderly : ∀ t session, s.session t = some session → session.request.orderly sales = true
  apart : ∀ t u session other, t ≠ u → s.session t = some session → s.session u = some other →
    disturbs session.request other.request = false

variable {s s' : State Request Row} {t u v : Nat} {session other : Session Request Row}

theorem update_conflicts (mode : Mode) : Mode.update.conflicts mode = true := by
  cases mode <;> rfl

theorem eq_update_of_conflicts_keyShare {mode : Mode} (conflict : mode.conflicts .keyShare = true) : mode = .update := by
  cases mode with
  | update => rfl
  | _ => cases conflict

theorem Invariant.guards_agree (invariant : Invariant sales s) (there : s.session t = some session)
    (running : s.session u = some other) (different : t ≠ u) {id : LineId} {mine theirs : Mode}
    (line : (sales.line id).isSome = true) (held : (.saleLine id,.update) ∈ session.taken)
    (guard : SaleGuard sales session.taken id.saleId mine) (guarded : SaleGuard sales other.taken id.saleId theirs) :
    theirs.conflicts mine = false := by
  have clash (i : LineId) (one : (.saleLine i,.update) ∈ session.taken) (two : (.saleLine i,.update) ∈ other.taken) : False := by
    have free := invariant.locked.exclusive there running different one two
    cases free
  rcases guard with ⟨rfl,_⟩ | ⟨rfl,all⟩ <;> rcases guarded with ⟨rfl,i,own,exists_,two⟩ | ⟨rfl,every⟩
  · rfl
  · exact (clash id held (every id rfl line)).elim
  · exact (clash i (all i own exists_) two).elim
  · exact (clash id held (every id rfl line)).elim

theorem Invariant.fits_next (invariant : Invariant sales s) (there : s.session t = some session)
    (first : session.remaining.head? = some a) : ∃ rest, Fits sales session.request session.taken a rest := by
  obtain ⟨rest,next⟩ := List.head?_eq_some_iff.mp first
  exact ⟨rest,fits_acquisitions (invariant.orderly t session there) (next ▸ invariant.locked.listed t session there)⟩

theorem Invariant.fits_taken (invariant : Invariant sales s) (there : s.session t = some session) (held : a ∈ session.taken) :
    ∃ before rest, Fits sales session.request before a (rest ++ session.remaining) ∧ ∀ b ∈ before, b ∈ session.taken := by
  have listed := invariant.locked.listed t session there
  obtain ⟨before,rest,split⟩ := List.append_of_mem held
  refine ⟨before,rest,fits_acquisitions (invariant.orderly t session there) ?_,fun b inside => ?_⟩
  · rw [listed,split,List.append_assoc,List.cons_append]
  · rw [split]
    exact List.mem_append_left _ inside

/-- Who waits asks for a row after all it holds. -/
theorem Invariant.waits_after (invariant : Invariant sales s) (waits : Waits s t u) :
    ∃ session other a mode, s.session t = some session ∧ s.session u = some other ∧ session.remaining.head? = some a ∧
      u ≠ t ∧ (a.1,mode) ∈ other.taken ∧ mode.conflicts a.2 = true ∧ ∀ b ∈ session.taken, Precedes b.1 a.1 := by
  obtain ⟨session,other,a,mode,there,running,first,different,held,conflict⟩ := invariant.locked.waits_for waits
  refine ⟨session,other,a,mode,there,running,first,different,held,conflict,?_⟩
  obtain ⟨_,fits⟩ := invariant.fits_next there first
  obtain ⟨_,_,theirs,kept⟩ := invariant.fits_taken running held
  cases fits.placed with
  | after lower => exact lower
  | again mine =>
    have free := invariant.locked.exclusive there running (Ne.symm different) mine held
    rw [update_conflicts] at free
    cases free
  | shift id reference =>
    subst reference
    exact absurd (eq_update_of_conflicts_keyShare conflict) (theirs.shift id rfl)
  | underLine id row exists_ mine undone =>
    obtain ⟨own,guard⟩ := fits.sale _ row
    rcases guard with completes | guard
    · rw [undone] at completes
      cases completes
    rcases (theirs.sale _ row).2 with completes | guarded
    · have beside := invariant.apart u t other session different running there
      simp [disturbs,undone,completes,own] at beside
    · have free := invariant.guards_agree there running (Ne.symm different) exists_ mine guard (guarded.mono kept)
      rw [free] at conflict
      cases conflict
  | underSale id row mine completes =>
    obtain ⟨own,_,undone | ⟨_,locked⟩⟩ := theirs.line id row
    · have beside := invariant.apart t u session other (Ne.symm different) there running
      simp [disturbs,undone,completes,own] at beside
    · have free := invariant.locked.exclusive there running (Ne.symm different) mine (kept _ locked)
      cases free

/-- The layer asked for is of a position the request has locked. -/
def guardedBy (taken : Acquisitions) : Row → Bool
  | .layer p _ => (.position p,.update) ∈ taken
  | _ => false

/-- How far a waiting request has come: to a row, or to a layer under its position. -/
def progress (s : State Request Row) (t : Nat) : List Nat :=
  match s.session t with
  | none => []
  | some session => match session.remaining.head? with
    | none => []
    | some a => if guardedBy session.taken a.1 then [6] else a.1.key

theorem progress_eq {a : Acquisition Row} (there : s.session t = some session) (first : session.remaining.head? = some a) :
    progress s t = if guardedBy session.taken a.1 then [6] else a.1.key := by
  simp only [progress,there,first]

theorem layer_lt_guarded : ([5] : List Nat) < [6] := by
  simp [List.cons_lt_cons_iff]

theorem key_le_layer (row : Row) : row.key ≤ [5] := by
  rcases Nat.lt_or_ge row.level 5 with lower | layer
  · exact le_of_lt (key_lt_of_level (a := .layer ⟨0,0,none⟩ 0) lower)
  · cases row <;> simp_all [Row.level,Row.key]

theorem key_le_progress {a : Acquisition Row} (there : s.session t = some session)
    (first : session.remaining.head? = some a) : a.1.key ≤ progress s t := by
  rw [progress_eq there first]
  split
  · exact (key_le_layer a.1).trans layer_lt_guarded.le
  · exact le_rfl

theorem Invariant.climbs (invariant : Invariant sales s) (first : Waits s t u) (second : Waits s u v) :
    progress s t < progress s u := by
  obtain ⟨session,other,a,mode,there,running,asked,different,held,conflict,_⟩ := invariant.waits_after first
  obtain ⟨_,last,b,mode',same,ending,wanted,apart,taken,against,lower⟩ := invariant.waits_after second
  cases running.symm.trans same
  rcases lower _ held with below | ⟨layer,above⟩
  · have unguarded : guardedBy session.taken a.1 = false := by
      rcases a with ⟨row,_⟩
      cases row with
      | layer p id => exact absurd below (not_lt_of_ge (key_le_layer b.1))
      | _ => rfl
    rw [progress_eq there asked,unguarded]
    exact lt_of_lt_of_le below (key_le_progress running wanted)
  -- both ask for layers: the one waited for holds the position of the first and comes to its own under a lock, too
  · obtain ⟨_ | _ | _ | _ | _ | ⟨p,i⟩,_⟩ := a <;> try cases layer
    obtain ⟨_ | _ | _ | _ | _ | ⟨q,j⟩,_⟩ := b <;> try cases above
    obtain ⟨before,rest,theirs,kept⟩ := invariant.fits_taken running held
    obtain ⟨update,position | ⟨_,last⟩⟩ := theirs.layer p i rfl
    · have unguarded : guardedBy session.taken (.layer p i) = false := by
        apply decide_eq_false
        intro mine
        have free := invariant.locked.exclusive there running (Ne.symm different) mine (kept _ position)
        cases free
      have guarded : guardedBy other.taken (.layer q j) = true := by
        obtain ⟨_,fits⟩ := invariant.fits_next running wanted
        obtain ⟨_,mine | ⟨none,_⟩⟩ := fits.layer q j rfl
        · exact decide_eq_true mine
        · exact absurd rfl (none _ (kept _ position) p)
      rw [progress_eq there asked,unguarded,progress_eq running wanted,guarded]
      exact layer_lt_guarded
    · rcases last _ (List.mem_append_right _ (List.mem_of_mem_head? wanted)) with again | ⟨_,shift⟩
      · rw [← again] at held
        have free := invariant.locked.exclusive running ending (Ne.symm apart) held taken
        rw [show mode = .update from update,update_conflicts] at free
        cases free
      · cases shift

theorem Invariant.lockedInOrder (invariant : Invariant sales s) : LockedInOrder s := by
  constructor
  · intro t session a rest there next
    by_cases granted : grantable s.locks t a.1 a.2 = true
    · exact .inl granted
    · rw [grantable_iff] at granted
      push Not at granted
      obtain ⟨h,held,different,row,conflict⟩ := granted
      have waits : Waits s t h.tx := by
        refine ⟨a,by simp [State.awaited,there,next],different,h,held,rfl,row,?_⟩
        simpa using conflict
      obtain ⟨session',_,a',_,there',_,first,_,_,_,lower⟩ := invariant.waits_after waits
      cases there.symm.trans there'
      rw [next] at first
      cases first
      exact .inr lower
  · rintro ⟨t,cycle⟩
    have climbs (t u v : Nat) (first : Waits s t u) (second : Waits s u v) : progress s t < progress s u :=
      invariant.climbs first second
    exact not_transGen_self climbs t cycle

theorem Invariant.initial (fresh : Fresh s) : Invariant sales s := by
  refine ⟨.initial fresh,?_,?_⟩ <;> simp [State.session,fresh.2]

theorem Invariant.replace (invariant : Invariant sales s) {locks : List (Held Row)} {x : Option (Session Request Row)}
    (locked : Deadlock.Invariant (acquisitions sales) (⟨locks,s.sessions.set t x⟩ : State Request Row))
    (there : s.session t = some session) (same : ∀ y ∈ x, y.request = session.request) :
    Invariant sales ⟨locks,s.sessions.set t x⟩ := by
  have request (u : Nat) (y : Session Request Row) (found : State.session ⟨locks,s.sessions.set t x⟩ u = some y) :
      ∃ old, s.session u = some old ∧ y.request = old.request := by
    rw [session_set there] at found
    split at found
    · next here =>
      subst here
      exact ⟨session,there,same y found⟩
    · exact ⟨y,found,rfl⟩
  refine ⟨locked,fun u y found => ?_,fun u w y z different found running => ?_⟩
  · obtain ⟨old,was,equal⟩ := request u y found
    rw [equal]
    exact invariant.orderly u old was
  · obtain ⟨old,was,equal⟩ := request u y found
    obtain ⟨older,before,equally⟩ := request w z running
    rw [equal,equally]
    exact invariant.apart u w old older different was before

theorem Invariant.step {label : Label Request} (invariant : Invariant sales s) (allowed : careful sales s label = true)
    (taken : next (acquisitions sales) s label = some s') : Invariant sales s' := by
  have locked := invariant.locked.step taken
  cases label with
  | start request =>
    simp only [careful,Bool.and_eq_true] at allowed
    cases taken
    refine ⟨locked,fun t session there => ?_,fun t u session other different there running => ?_⟩
    · rw [session_append] at there
      split at there
      · cases there
        exact allowed.1
      · exact invariant.orderly t session there
    · have beside (v : Nat) (x : Session Request Row) (found : s.session v = some x) :
          disturbs request x.request = false ∧ disturbs x.request request = false := by
        have member : some x ∈ s.sessions := List.mem_of_getElem? (Option.join_eq_some_iff.mp found)
        have fine := List.all_eq_true.mp allowed.2 (some x) member
        simpa [mayRunBeside] using fine
      rw [session_append] at there running
      split at there <;> split at running
      · next one two => exact absurd (one.trans two.symm) different
      · cases there
        exact (beside u other running).1
      · cases running
        exact (beside t session there).2
      · exact invariant.apart t u session other different there running
  | acquire t =>
    obtain ⟨session,there,moved⟩ := Option.bind_eq_some_iff.mp taken
    unfold acquireNext at moved
    split at moved
    · cases moved
    · next row mode rest asked =>
      split at moved
      · cases moved
        exact invariant.replace locked there (by simp)
      · cases moved
  | finish t =>
    obtain ⟨session,there,rfl⟩ := Option.map_eq_some_iff.mp taken
    exact invariant.replace locked there (by simp)

/-- A sale of two products at one branch. -/
def shop : Sales := fun id => if id = 0 then some ⟨0,some 5,[⟨7,none⟩,⟨8,none⟩]⟩ else none

def tea : Position := ⟨0,7,none⟩

def milk : Position := ⟨0,8,none⟩

def idle : State Request Row := ⟨[],[]⟩

theorem fresh_idle : Fresh idle := ⟨rfl,rfl⟩

def acquires (t n : Nat) : List (Label Request) := List.replicate n (.acquire t)

/-- A sale that has allocated its milk comes to the tea layer a void restores. -/
def waitingRun : List (Label Request) :=
  [.start (.createSale ⟨3,none,0,[⟨milk,[2]⟩,⟨tea,[1]⟩]⟩),.start (.voidSale ⟨0,some 3,0,[[1],[]]⟩)] ++ acquires 1 4 ++ acquires 0 4

/-- Two bills of materials that name their ingredients in different orders. -/
def productionRun : List (Label Request) :=
  [.start (.completeProductionOrder [⟨tea,[1]⟩,⟨milk,[2]⟩]),.start (.completeProductionOrder [⟨milk,[2]⟩,⟨tea,[1]⟩])] ++
    acquires 0 2 ++ acquires 1 2

/-- A void restores tea and then milk, a sale has allocated milk and comes to tea. -/
def voidRun : List (Label Request) :=
  [.start (.voidSale ⟨0,some 3,0,[[1],[2]]⟩),.start (.createSale ⟨3,none,0,[⟨milk,[2]⟩,⟨tea,[1]⟩]⟩)] ++ acquires 0 4 ++ acquires 1 4

/-- A tab is completed and cancelled at once: one locks the sale first, the other one its lines. -/
def tabRun : List (Label Request) :=
  [.start (.completeTab ⟨0,3,0,[[1],[2]]⟩),.start (.cancelSale ⟨⟨0,none,0,[]⟩,.dineIn,.held⟩)] ++ acquires 0 1 ++ acquires 1 2 ++
    acquires 0 4

/-- A cash sale that names a customer refers to him with stock locked, a sale on his account has him locked and comes to stock. -/
def customerRun : List (Label Request) :=
  [.start (.createSale ⟨3,some 5,0,[⟨tea,[1]⟩]⟩),.start (.createSale ⟨4,some 5,10,[⟨tea,[1]⟩]⟩)] ++ acquires 0 3 ++ acquires 1 2

theorem deadlocked_of_run {labels : List (Label Request)}
    (circle : (execute (next (acquisitions shop)) idle labels).map (fun s => decide (Waits s 0 1 ∧ Waits s 1 0)) = some true) :
    ∃ s, Reachable Fresh (OfNext (next (acquisitions shop))) s ∧ Deadlocked s := by
  obtain ⟨s,reached,both⟩ := reachable_of_execute _ (fun s => decide (Waits s 0 1 ∧ Waits s 1 0)) labels fresh_idle circle
  obtain ⟨there,back⟩ := of_decide_eq_true both
  exact ⟨s,reached,0,.tail (.single there) back⟩

end LockOrder
