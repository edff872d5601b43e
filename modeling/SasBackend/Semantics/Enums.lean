/-! Enumerations of the stored models. -/
namespace SasBackend

inductive UserStatus
  | active | inactive | locked
  deriving DecidableEq, Repr

inductive SaleStatus
  | draft | held | completed | partiallyPaid | cancelled | voided
  deriving DecidableEq, Repr

inductive SaleType
  | pos | invoice | dineIn | takeaway | delivery | online
  deriving DecidableEq, Repr

inductive PaymentMethod
  | cash | card | upi | bankTransfer | wallet | credit | cheque | other
  deriving DecidableEq, Repr

inductive PaymentStatus
  | pending | completed | failed | refunded
  deriving DecidableEq, Repr

inductive ShiftStatus
  | opened | closed
  deriving DecidableEq, Repr

inductive RegisterTxType
  | sale | saleReturn | expense | cashIn | cashOut | openingFloat | closingCount
  deriving DecidableEq, Repr

end SasBackend
