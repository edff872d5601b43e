import SasBackend.Semantics.Licensing

/-! The subscription lease of a business, issued by the server and checked against the clock of a device.
Moments are microseconds since 1970. Adding days fails where Python cannot hold the duration or the sum.
-/
namespace Leases
open Licensing

inductive SubscriptionStatus
  | trial | active | pastDue | suspended | cancelled
  deriving DecidableEq

structure Business where
  id : Nat
  subscriptionStatus : SubscriptionStatus
  trialEndsAt : Option Int
  subscriptionEndsAt : Option Int
  deriving DecidableEq

inductive Status
  | trial | active | grace | expired | suspended | cancelled
  deriving DecidableEq

structure SubscriptionState where
  status : Status
  trialEndsAt : Option Int
  subscriptionEndsAt : Option Int
  expiresAt : Option Int
  daysLeft : Option Int
  inGrace : Bool
  deriving DecidableEq

/-- Code for a full block, or none. -/
def SubscriptionState.blockedCode (state : SubscriptionState) : Option String :=
  match state.status with
  | .expired => some "subscription_expired"
  | .suspended => some "subscription_suspended"
  | .cancelled => some "subscription_cancelled"
  | _ => none

def day : Int := 86400 * 1000000

/-- The first moment of year 1 and the last one of year 9999. -/
def earliest : Int := -62135596800000000

def latest : Int := 253402300799999999

inductive OverflowError
  | days
  | date
  deriving DecidableEq

def timedelta (days : Int) : Except OverflowError Int :=
  if days.natAbs ≤ 999999999 then .ok (days * day) else .error .days

def plus (moment duration : Int) : Except OverflowError Int :=
  if earliest ≤ moment + duration ∧ moment + duration ≤ latest then .ok (moment + duration) else .error .date

/-- Rounded away from the end: up before it, down after it. -/
def daysLeft (ends : Option Int) (now : Int) : Option Int :=
  ends.map fun ends => if 0 ≤ ends - now then -(-(ends - now) / day) else (ends - now) / day

/-- Whether the end is over. -/
def after (now : Int) (ends : Option Int) : Bool := ends.any (· < now)

def computeState (business : Business) (now graceDays : Int) : Except OverflowError SubscriptionState := do
  let grace ← timedelta graceDays
  let trialEnd := business.trialEndsAt
  let subEnd := business.subscriptionEndsAt
  match business.subscriptionStatus with
  | .suspended => return ⟨.suspended,trialEnd,subEnd,none,none,false⟩
  | .cancelled => return ⟨.cancelled,trialEnd,subEnd,none,none,false⟩
  | .trial => return ⟨if after now trialEnd then .expired else .trial,trialEnd,subEnd,trialEnd,daysLeft trialEnd now,false⟩
  | .active | .pastDue =>
    match subEnd with
    | none => return ⟨.active,trialEnd,subEnd,subEnd,daysLeft subEnd now,false⟩
    | some ends =>
      if now ≤ ends then return ⟨.active,trialEnd,subEnd,subEnd,daysLeft subEnd now,false⟩
      -- the sum is made only for a paid period that is over
      let graceEnd ← plus ends grace
      return ⟨if now ≤ graceEnd then .grace else .expired,trialEnd,subEnd,subEnd,daysLeft subEnd now,now ≤ graceEnd⟩

/-- `leasePrivateKey`: the key of the leases, else the one of the licences. -/
structure Settings (scheme : Scheme) where
  leasePrivateKey : Option scheme.PrivateKey
  leaseDays : Int
  graceDays : Int

/-- The lease days from now, capped by when the subscription stops being usable. -/
def computeValidUntil {scheme : Scheme} (settings : Settings scheme) (business : Business) (now : Int) :
    Except OverflowError Int := do
  let state ← computeState business now settings.graceDays
  match state.status with
  | .expired | .suspended | .cancelled => return now
  | .trial =>
    let horizon ← plus now (← timedelta settings.leaseDays)
    return (state.expiresAt.map (min horizon)).getD horizon
  | .active | .grace =>
    let horizon ← plus now (← timedelta settings.leaseDays)
    match state.expiresAt with
    | none => return horizon
    | some ends => return min horizon (← plus ends (← timedelta settings.graceDays))

structure LeaseDocument where
  v : Nat
  businessId : Nat
  validUntil : Int
  serverTime : Int
  deriving DecidableEq

structure SignedLease where
  document : LeaseDocument
  signature : Bytes
  deriving DecidableEq

def leaseVersion : Nat := 1

def clockSkew : Int := 5 * 60 * 1000000

def buildLeaseDocument (businessId : Nat) (validUntil serverTime : Int) : LeaseDocument :=
  ⟨leaseVersion,businessId,utcIso validUntil,utcIso serverTime⟩

variable {scheme : Scheme} (canonicalJson : LeaseDocument → Bytes)

/-- None where no key is configured. -/
def issueLease (settings : Settings scheme) (business : Business) (now : Int) : Except OverflowError (Option SignedLease) :=
  match settings.leasePrivateKey with
  | none => return none
  | some key => do
    let document := buildLeaseDocument business.id (← computeValidUntil settings business now) now
    return some ⟨document,scheme.sign key (canonicalJson document)⟩

inductive LeaseError
  | malformed (detail : String)
  | badSignature
  | wrongBusiness
  | clockRolledBack
  | expired
  deriving DecidableEq

structure Lease where
  v : Nat
  businessId : Nat
  validUntil : Int
  serverTime : Int
  deriving DecidableEq

/-- The checks in their order: signature, version, business, clock, expiry. -/
def verifyLease (publicKey : scheme.PublicKey) (lease : SignedLease) (now : Int) (businessId : Option Nat) :
    Except LeaseError Lease :=
  let document := lease.document
  let parsed : Lease := ⟨document.v,document.businessId,parseTime document.validUntil,parseTime document.serverTime⟩
  if !scheme.verify publicKey (canonicalJson document) lease.signature then .error .badSignature
  else if document.v ≠ leaseVersion then .error (.malformed ("Unsupported lease version " ++ toString document.v))
  else if businessId.any (· ≠ parsed.businessId) then .error .wrongBusiness
  else if now < parsed.serverTime - clockSkew then .error .clockRolledBack
  else if now ≥ parsed.validUntil then .error .expired
  else .ok parsed

/-- The stored dates and status do not allow trading at the moment. -/
def Lapsed (business : Business) (graceDays moment : Int) : Prop :=
  match business.subscriptionStatus with
  | .suspended | .cancelled => True
  | .trial => ∃ ends ∈ business.trialEndsAt, ends < moment
  | .active | .pastDue =>
    ∃ ends ∈ business.subscriptionEndsAt, ends < moment ∧ ∃ graceEnd, plus ends (graceDays * day) = .ok graceEnd ∧ graceEnd < moment

/-- A lease is signed and looked at by a device of the business, whose clock is behind the second of the issue but no
more than the tolerated skew, and the business has lapsed by that clock already. -/
def Backdated (settings : Settings scheme) (business : Business) (now moment : Int) (device : Option Nat) : Prop :=
  settings.leasePrivateKey ≠ none ∧ settings.graceDays.natAbs ≤ 999999999 ∧ (∀ id ∈ device, id = business.id) ∧
    Lapsed business settings.graceDays moment ∧ parseTime (utcIso now) - clockSkew ≤ moment ∧ moment < parseTime (utcIso now)

end Leases
