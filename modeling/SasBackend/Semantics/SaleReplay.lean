import SasBackend.Library.Decimal
import SasBackend.Semantics.Enums
import SasBackend.Semantics.SyncPush

/-! The replay of an offline sale.
A sale that the server already has is recognised by its id or its receipt number. What follows for a new
one is kept as far as the sale's own rows go; its checks and its effects on other tables are parameters.
-/
namespace SaleReplay
open SasBackend SyncPush

structure SaleLinePayload where
  productId : Nat
  variationId : Option Nat
  qty : ℚ
  unitPrice : ℚ
  discountAmount : ℚ
  taxAmount : ℚ
  deriving DecidableEq

structure SalePaymentPayload where
  paymentMethod : PaymentMethod
  amount : ℚ
  deriving DecidableEq

structure SaleCreatePayload where
  id : Nat
  clientReceiptNo : String
  branchId : Nat
  customerId : Option Nat
  lines : List SaleLinePayload
  payments : List SalePaymentPayload
  deriving DecidableEq

inductive Payload
  | saleCreate (payload : SaleCreatePayload)
  | other (encoded : String)
  deriving DecidableEq

structure SaleLine where
  productId : Nat
  variationId : Option Nat
  qty : ℚ
  unitPrice : ℚ
  discountAmount : ℚ
  taxAmount : ℚ
  deriving DecidableEq

structure SalePayment where
  paymentMethod : PaymentMethod
  amount : ℚ
  deriving DecidableEq

structure Sale where
  id : Nat
  businessId : Nat
  branchId : Nat
  customerId : Option Nat
  saleNumber : String
  clientReceiptNo : Option String
  syncFlags : List Flag
  lines : List SaleLine
  payments : List SalePayment
  deriving DecidableEq

/-- `rest` are the other tables. -/
structure Store (ρ : Type) where
  sales : List Sale
  rest : ρ
  distinct : (sales.map Sale.id).Nodup

/-- What stands between an unknown sale and its rows: refusals before them, and the official number, the
flags and the other tables after them. -/
structure Acceptance (ρ : Type) where
  refusal : SaleCreatePayload → Store ρ → Option OpReject
  effects : SaleCreatePayload → Store ρ → String × List Flag × ρ

/-- Columns with four places for quantities and two for money. -/
def SaleLinePayload.stored (line : SaleLinePayload) : SaleLine where
  productId := line.productId
  variationId := line.variationId
  qty := Decimal.quantize 4 line.qty
  unitPrice := Decimal.quantize 2 line.unitPrice
  discountAmount := Decimal.quantize 2 line.discountAmount
  taxAmount := Decimal.quantize 2 line.taxAmount

def SalePaymentPayload.stored (payment : SalePaymentPayload) : SalePayment :=
  ⟨payment.paymentMethod,Decimal.quantize 2 payment.amount⟩

def SaleCreatePayload.sale (p : SaleCreatePayload) (businessId : Nat) (saleNumber : String) (flags : List Flag) : Sale where
  id := p.id
  businessId := businessId
  branchId := p.branchId
  customerId := p.customerId
  saleNumber := saleNumber
  clientReceiptNo := some p.clientReceiptNo
  syncFlags := flags
  lines := p.lines.map SaleLinePayload.stored
  payments := p.payments.map SalePaymentPayload.stored

variable {ρ : Type}

def byId (store : Store ρ) (p : SaleCreatePayload) : Option Sale := store.sales.find? (·.id = p.id)

def byReceipt (businessId : Nat) (store : Store ρ) (p : SaleCreatePayload) : Option Sale :=
  store.sales.find? fun sale => sale.businessId = businessId && sale.clientReceiptNo = some p.clientReceiptNo

def existing (businessId : Nat) (store : Store ρ) (p : SaleCreatePayload) : Option Sale :=
  (byId store p).or (byReceipt businessId store p)

/-- What the code compares before it calls a sale the same. -/
def sameSale (sale : Sale) (p : SaleCreatePayload) : Bool :=
  sale.id = p.id && sale.clientReceiptNo = some p.clientReceiptNo && sale.branchId = p.branchId

theorem distinct_insert {store : Store ρ} {p : SaleCreatePayload} {sale : Sale} (new : byId store p = none)
    (named : sale.id = p.id) : ((store.sales ++ [sale]).map Sale.id).Nodup := by
  have absent : p.id ∉ store.sales.map Sale.id := by
    intro member
    obtain ⟨other,listed,same⟩ := List.mem_map.mp member
    exact List.find?_eq_none.mp new other listed (decide_eq_true same)
  rw [List.map_append,List.nodup_append]
  refine ⟨store.distinct,List.nodup_singleton _,fun id listed other only same => absent ?_⟩
  rw [List.map_cons,List.map_nil,List.mem_singleton] at only
  rw [← named,← only,← same]
  exact listed

def hSaleCreate (businessId : Nat) (acceptance : Acceptance ρ) (p : SaleCreatePayload) (store : Store ρ) :
    HandlerResult (Store ρ) :=
  if (byId store p).any (·.businessId ≠ businessId) then
    .reject ⟨.idConflict,"This sale id belongs to another business",false,false⟩
  else match found : existing businessId store p with
    | some sale =>
      if sameSale sale p then .done ⟨some sale.id,some sale.saleNumber,sale.syncFlags,true⟩ store
      else .reject ⟨.other "duplicate_receipt",
        s!"Receipt {p.clientReceiptNo} was already synced with different content",false,false⟩
    | none => match acceptance.refusal p store with
      | some rejection => .reject rejection
      | none =>
        let (saleNumber,flags,rest) := acceptance.effects p store
        let sale := p.sale businessId saleNumber flags
        .done ⟨some sale.id,some saleNumber,flags,false⟩
          ⟨store.sales ++ [sale],rest,distinct_insert (Option.or_eq_none_iff.mp found).1 rfl⟩

end SaleReplay
