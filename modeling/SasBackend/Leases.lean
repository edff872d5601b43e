import Mathlib.Data.Option.Basic
import SasBackend.Library.Outcome
import SasBackend.Semantics.Leases

/-! A lease is accepted while the business has lapsed exactly on a clock shortly before its issue.
A lease of a business that may trade ends no later than the trial, or the paid period with its grace; that of a lapsed
business ends at its issue, which a device clock within the tolerated skew has still ahead.
-/
namespace Leases
open Licensing

variable {scheme : Scheme} {canonicalJson : LeaseDocument → Bytes} {settings : Settings scheme} {business : Business}
  {now moment graceDays : Int} {device : Option Nat} {signed : SignedLease} {key : scheme.PrivateKey}

theorem timedelta_ok {days duration : Int} :
    timedelta days = .ok duration ↔ days.natAbs ≤ 999999999 ∧ duration = days * day := by
  unfold timedelta
  split <;> simp [*,eq_comm]

theorem plus_ok {duration sum : Int} :
    plus moment duration = .ok sum ↔ sum = moment + duration ∧ earliest ≤ sum ∧ sum ≤ latest := by
  unfold plus
  split
  next fits => exact ⟨fun same => by cases same; exact ⟨rfl,fits⟩,fun ⟨same,_⟩ => by rw [same]⟩
  next outside => exact ⟨nofun,fun ⟨same,fits⟩ => absurd (same ▸ fits) outside⟩

theorem days_of_state {state : SubscriptionState} (found : computeState business now graceDays = .ok state) :
    graceDays.natAbs ≤ 999999999 := by
  obtain ⟨_,duration,_⟩ := Outcome.bind_ok_iff.mp found
  exact (timedelta_ok.mp duration).1

theorem stopped_state (fits : graceDays.natAbs ≤ 999999999)
    (stopped : business.subscriptionStatus = .suspended ∨ business.subscriptionStatus = .cancelled) :
    computeState business now graceDays =
      .ok ⟨if business.subscriptionStatus = .suspended then .suspended else .cancelled,business.trialEndsAt,
        business.subscriptionEndsAt,none,none,false⟩ := by
  rcases stopped with stored | stored <;> simp [computeState,timedelta_ok.mpr ⟨fits,rfl⟩,stored]

theorem trial_state (fits : graceDays.natAbs ≤ 999999999) (trial : business.subscriptionStatus = .trial) :
    computeState business now graceDays =
      .ok ⟨if after now business.trialEndsAt then .expired else .trial,business.trialEndsAt,business.subscriptionEndsAt,
        business.trialEndsAt,daysLeft business.trialEndsAt now,false⟩ := by
  simp only [computeState,timedelta_ok.mpr ⟨fits,rfl⟩,trial,Outcome.ok_bind]
  rfl

theorem active_state (fits : graceDays.natAbs ≤ 999999999)
    (paid : business.subscriptionStatus = .active ∨ business.subscriptionStatus = .pastDue)
    (running : ∀ ends ∈ business.subscriptionEndsAt, now ≤ ends) :
    computeState business now graceDays =
      .ok ⟨.active,business.trialEndsAt,business.subscriptionEndsAt,business.subscriptionEndsAt,
        daysLeft business.subscriptionEndsAt now,false⟩ := by
  obtain ⟨id,stored,trialEnd,subEnd⟩ := business
  rcases paid with rfl | rfl <;> cases subEnd with
  | none => simp only [computeState,timedelta_ok.mpr ⟨fits,rfl⟩,Outcome.ok_bind]; rfl
  | some ends =>
    simp only [computeState,timedelta_ok.mpr ⟨fits,rfl⟩,Outcome.ok_bind,if_pos (running ends rfl)]
    rfl

theorem over_state {ends : Int} (fits : graceDays.natAbs ≤ 999999999)
    (paid : business.subscriptionStatus = .active ∨ business.subscriptionStatus = .pastDue)
    (stored : business.subscriptionEndsAt = some ends) (beyond : ends < now) :
    computeState business now graceDays = plus ends (graceDays * day) >>= fun graceEnd =>
      .ok ⟨if now ≤ graceEnd then .grace else .expired,business.trialEndsAt,some ends,some ends,
        daysLeft (some ends) now,now ≤ graceEnd⟩ := by
  obtain ⟨id,status,trialEnd,subEnd⟩ := business
  subst stored
  rcases paid with rfl | rfl <;>
    simp only [computeState,timedelta_ok.mpr ⟨fits,rfl⟩,Outcome.ok_bind,if_neg (Int.not_le.mpr beyond)] <;> rfl

theorem lapsed_paid (paid : business.subscriptionStatus = .active ∨ business.subscriptionStatus = .pastDue) :
    Lapsed business graceDays moment ↔ ∃ ends ∈ business.subscriptionEndsAt, ends < moment ∧
      ∃ graceEnd, plus ends (graceDays * day) = .ok graceEnd ∧ graceEnd < moment := by
  rcases paid with paid | paid <;> simp only [Lapsed,paid]

theorem paid_blocked (fits : graceDays.natAbs ≤ 999999999)
    (paid : business.subscriptionStatus = .active ∨ business.subscriptionStatus = .pastDue) :
    (∃ state, computeState business moment graceDays = .ok state ∧ state.blockedCode ≠ none) ↔
      Lapsed business graceDays moment := by
  rw [lapsed_paid paid]
  by_cases running : ∀ ends ∈ business.subscriptionEndsAt, moment ≤ ends
  · rw [active_state fits paid running]
    constructor
    · rintro ⟨_,⟨⟩,blocked⟩
      exact absurd rfl blocked
    · rintro ⟨ends,stored,beyond,_⟩
      exact absurd (running ends stored) (Int.not_le.mpr beyond)
  · obtain ⟨ends,stored,beyond⟩ : ∃ ends ∈ business.subscriptionEndsAt, ends < moment := by simpa using running
    rw [over_state fits paid stored beyond]
    constructor
    · rintro ⟨state,found,blocked⟩
      obtain ⟨graceEnd,sum,same⟩ := Outcome.bind_ok_iff.mp found
      cases same
      refine ⟨ends,stored,beyond,graceEnd,sum,?_⟩
      by_contra within
      rw [if_pos (Int.not_lt.mp within)] at blocked
      exact blocked rfl
    · rintro ⟨_,same,_,graceEnd,sum,graceOver⟩
      cases stored.symm.trans same
      rw [sum]
      refine ⟨_,rfl,?_⟩
      rw [if_neg (Int.not_le.mpr graceOver)]
      exact nofun

theorem blocked_iff : (∃ state, computeState business moment graceDays = .ok state ∧ state.blockedCode ≠ none) ↔
    graceDays.natAbs ≤ 999999999 ∧ Lapsed business graceDays moment := by
  by_cases fits : graceDays.natAbs ≤ 999999999
  · rw [and_iff_right fits]
    cases chosen : business.subscriptionStatus with
    | suspended => simp [stopped_state fits (.inl chosen),Lapsed,SubscriptionState.blockedCode,chosen]
    | cancelled => simp [stopped_state fits (.inr chosen),Lapsed,SubscriptionState.blockedCode,chosen]
    | trial =>
      rw [trial_state fits chosen]
      cases stored : business.trialEndsAt with
      | none => simp [Lapsed,chosen,stored,SubscriptionState.blockedCode,after]
      | some ends =>
        by_cases beyond : ends < moment <;> simp [Lapsed,chosen,stored,SubscriptionState.blockedCode,after,beyond]
    | active => exact paid_blocked fits (.inl chosen)
    | pastDue => exact paid_blocked fits (.inr chosen)
  · exact ⟨fun ⟨_,found,_⟩ => absurd (days_of_state found) fits,fun ⟨held,_⟩ => absurd held fits⟩

theorem Lapsed.later {then_ : Int} (lapsed : Lapsed business graceDays moment) (later : moment ≤ then_) :
    Lapsed business graceDays then_ := by
  unfold Lapsed at lapsed ⊢
  split at lapsed
  · trivial
  · trivial
  · obtain ⟨ends,stored,beyond⟩ := lapsed
    exact ⟨ends,stored,by omega⟩
  all_goals
    obtain ⟨ends,stored,beyond,graceEnd,sum,graceOver⟩ := lapsed
    exact ⟨ends,stored,by omega,graceEnd,sum,by omega⟩

theorem validUntil_of_lapsed (fits : settings.graceDays.natAbs ≤ 999999999) (lapsed : Lapsed business settings.graceDays now) :
    computeValidUntil settings business now = .ok now := by
  obtain ⟨state,found,blocked⟩ := blocked_iff.mpr ⟨fits,lapsed⟩
  rw [computeValidUntil,found,Outcome.ok_bind]
  cases status : state.status <;> simp_all [SubscriptionState.blockedCode] <;> rfl

theorem validUntil_state {expiry : Int} (found : computeValidUntil settings business now = .ok expiry) :
    ∃ state, computeState business now settings.graceDays = .ok state := by
  obtain ⟨state,there,_⟩ := Outcome.bind_ok_iff.mp found
  exact ⟨state,there⟩

theorem validUntil_trial {ends expiry : Int} (found : computeValidUntil settings business now = .ok expiry)
    (trial : business.subscriptionStatus = .trial) (stored : business.trialEndsAt = some ends) (running : now ≤ ends) :
    expiry ≤ ends := by
  obtain ⟨state,there⟩ := validUntil_state found
  have known := @trial_state _ now _ (days_of_state there) trial
  rw [stored,if_neg (by simpa [after] using running)] at known
  rw [computeValidUntil,known,Outcome.ok_bind] at found
  dsimp only at found
  obtain ⟨_,_,found⟩ := Outcome.bind_ok_iff.mp found
  obtain ⟨horizon,_,found⟩ := Outcome.bind_ok_iff.mp found
  cases found
  exact Int.min_le_right _ _

/-- The lease of a paid period, running or in its grace, ends with the grace at the latest, and so there is an end of it. -/
theorem validUntil_paid {ends expiry : Int} (found : computeValidUntil settings business now = .ok expiry)
    (paid : business.subscriptionStatus = .active ∨ business.subscriptionStatus = .pastDue)
    (stored : business.subscriptionEndsAt = some ends) :
    ∃ graceEnd, plus ends (settings.graceDays * day) = .ok graceEnd ∧ (now ≤ ends ∨ now ≤ graceEnd → expiry ≤ graceEnd) := by
  obtain ⟨state,there⟩ := validUntil_state found
  have fits := days_of_state there
  have trades : state.status = .active ∨ state.status = .grace → state.expiresAt = some ends →
      ∃ graceEnd, plus ends (settings.graceDays * day) = .ok graceEnd ∧ expiry ≤ graceEnd := by
    intro usable known
    rw [computeValidUntil,there] at found
    rcases usable with status | status <;>
    · simp only [Outcome.ok_bind,status,known,timedelta_ok.mpr ⟨fits,rfl⟩] at found
      obtain ⟨_,_,found⟩ := Outcome.bind_ok_iff.mp found
      obtain ⟨horizon,_,found⟩ := Outcome.bind_ok_iff.mp found
      obtain ⟨graceEnd,sum,found⟩ := Outcome.bind_ok_iff.mp found
      cases found
      exact ⟨graceEnd,sum,Int.min_le_right _ _⟩
  by_cases running : now ≤ ends
  · rw [active_state fits paid (by simp [stored,running])] at there
    cases there
    obtain ⟨graceEnd,sum,least⟩ := trades (.inl rfl) stored
    exact ⟨graceEnd,sum,fun _ => least⟩
  · rw [over_state fits paid stored (Int.not_le.mp running)] at there
    obtain ⟨graceEnd,sum,same⟩ := Outcome.bind_ok_iff.mp there
    cases same
    refine ⟨graceEnd,sum,fun either => ?_⟩
    obtain ⟨_,again,least⟩ := trades (.inr (if_pos (either.resolve_left running))) rfl
    cases sum.symm.trans again
    exact least

theorem state_of_validUntil {expiry : Int} (found : computeValidUntil settings business now = .ok expiry) (moment : Int) :
    ∃ state, computeState business moment settings.graceDays = .ok state := by
  obtain ⟨state,there⟩ := validUntil_state found
  have fits := days_of_state there
  have paidState (paid : business.subscriptionStatus = .active ∨ business.subscriptionStatus = .pastDue) :
      ∃ state, computeState business moment settings.graceDays = .ok state := by
    by_cases running : ∀ ends ∈ business.subscriptionEndsAt, moment ≤ ends
    · exact ⟨_,active_state fits paid running⟩
    · obtain ⟨ends,stored,beyond⟩ : ∃ ends ∈ business.subscriptionEndsAt, ends < moment := by simpa using running
      obtain ⟨graceEnd,sum,_⟩ := validUntil_paid found paid stored
      rw [over_state fits paid stored beyond,sum]
      exact ⟨_,rfl⟩
  cases chosen : business.subscriptionStatus with
  | suspended => exact ⟨_,stopped_state fits (.inl chosen)⟩
  | cancelled => exact ⟨_,stopped_state fits (.inr chosen)⟩
  | trial => exact ⟨_,trial_state fits chosen⟩
  | active => exact paidState (.inl chosen)
  | pastDue => exact paidState (.inr chosen)

/-- Any other lease ends before the business lapses. -/
theorem validUntil_not_lapsed {expiry : Int} (found : computeValidUntil settings business now = .ok expiry)
    (trades : ¬Lapsed business settings.graceDays now) (before : moment < expiry) :
    ¬Lapsed business settings.graceDays moment := by
  have paidTrades (paid : business.subscriptionStatus = .active ∨ business.subscriptionStatus = .pastDue) :
      ¬Lapsed business settings.graceDays moment := by
    rw [lapsed_paid paid] at trades ⊢
    rintro ⟨ends,stored,beyond,graceEnd,sum,graceOver⟩
    obtain ⟨_,again,least⟩ := validUntil_paid found paid stored
    cases sum.symm.trans again
    have usable : now ≤ ends ∨ now ≤ graceEnd := by
      by_contra lapsed
      exact trades ⟨ends,stored,by omega,graceEnd,sum,by omega⟩
    have least := least usable
    omega
  cases chosen : business.subscriptionStatus with
  | suspended | cancelled => exact absurd (by simp only [Lapsed,chosen]) trades
  | trial =>
    simp only [Lapsed,chosen] at trades ⊢
    rintro ⟨ends,stored,beyond⟩
    have running : now ≤ ends := by
      by_contra lapsed
      exact trades ⟨ends,stored,by omega⟩
    have least := validUntil_trial found chosen stored running
    omega
  | active => exact paidTrades (.inl chosen)
  | pastDue => exact paidTrades (.inr chosen)

theorem issueLease_ok (held : settings.leasePrivateKey = some key)
    (issued : issueLease canonicalJson settings business now = .ok (some signed)) :
    ∃ expiry, computeValidUntil settings business now = .ok expiry ∧
      signed = ⟨buildLeaseDocument business.id expiry now,
        scheme.sign key (canonicalJson (buildLeaseDocument business.id expiry now))⟩ := by
  rw [issueLease,held] at issued
  obtain ⟨expiry,found,same⟩ := Outcome.bind_ok_iff.mp issued
  cases same
  exact ⟨expiry,found,rfl⟩

theorem ownDevice_iff {id : Nat} : device.any (· ≠ id) = false ↔ ∀ other ∈ device, other = id := by
  cases device <;> simp

theorem verifyLease_ok {lease : Lease} {publicKey : scheme.PublicKey}
    (accepted : verifyLease canonicalJson publicKey signed moment device = .ok lease) :
    (∀ id ∈ device, id = signed.document.businessId) ∧ parseTime signed.document.serverTime - clockSkew ≤ moment ∧
      moment < parseTime signed.document.validUntil := by
  unfold verifyLease at accepted
  dsimp only at accepted
  split at accepted
  · simp at accepted
  split at accepted
  · simp at accepted
  split at accepted
  · simp at accepted
  next own =>
    split at accepted
    · simp at accepted
    split at accepted
    · simp at accepted
    next clock ended => exact ⟨ownDevice_iff.mp (by simpa using own),by omega,by omega⟩

theorem verifyLease_issued {expiry : Int} (own : ∀ id ∈ device, id = business.id)
    (clock : parseTime (utcIso now) - clockSkew ≤ moment) (running : moment < parseTime (utcIso expiry)) :
    ∃ lease, verifyLease canonicalJson (scheme.publicKeyFor key)
      ⟨buildLeaseDocument business.id expiry now,scheme.sign key (canonicalJson (buildLeaseDocument business.id expiry now))⟩
      moment device = .ok lease := by
  have forward : ¬moment < parseTime (utcIso now) - clockSkew := by omega
  have open_ : ¬moment ≥ parseTime (utcIso expiry) := by omega
  cases device with
  | none => simp [verifyLease,scheme.genuine,buildLeaseDocument,forward,open_]
  | some id => simp [verifyLease,scheme.genuine,buildLeaseDocument,own id rfl,forward,open_]

theorem lease_sound_unless_backdated (scheme : Scheme) (canonicalJson : LeaseDocument → Bytes)
    (settings : Settings scheme) (business : Business) (now moment : Int) (device : Option Nat) :
    (∀ key signed lease, settings.leasePrivateKey = some key →
        issueLease canonicalJson settings business now = .ok (some signed) →
        verifyLease canonicalJson (scheme.publicKeyFor key) signed moment device = .ok lease →
        ∃ state, computeState business moment settings.graceDays = .ok state ∧ state.blockedCode = none) ↔
      ¬Backdated settings business now moment device := by
  constructor
  · intro sound backdated
    obtain ⟨configured,fits,own,lapsed,clock,before⟩ := backdated
    obtain ⟨key,held⟩ := Option.ne_none_iff_exists'.mp configured
    have whole := parseTime_utcIso_le now
    have ended := validUntil_of_lapsed fits (lapsed.later (by omega : moment ≤ now))
    have issued : issueLease canonicalJson settings business now =
        .ok (some ⟨buildLeaseDocument business.id now now,scheme.sign key (canonicalJson (buildLeaseDocument business.id now now))⟩) := by
      rw [issueLease,held,ended]
      rfl
    obtain ⟨lease,accepted⟩ := @verifyLease_issued scheme canonicalJson business now moment device key now own clock before
    obtain ⟨state,found,trades⟩ := sound key _ lease held issued accepted
    obtain ⟨_,again,blocked⟩ := blocked_iff.mpr ⟨fits,lapsed⟩
    cases found.symm.trans again
    exact blocked trades
  · intro timely key signed lease held issued accepted
    obtain ⟨own,clock,running⟩ := verifyLease_ok accepted
    obtain ⟨expiry,valid,rfl⟩ := issueLease_ok held issued
    obtain ⟨state,found⟩ := state_of_validUntil valid moment
    refine ⟨state,found,?_⟩
    by_contra blocked
    obtain ⟨fits,lapsed⟩ := blocked_iff.mp ⟨state,found,blocked⟩
    have whole := parseTime_utcIso_le expiry
    by_cases trades : Lapsed business settings.graceDays now
    · cases valid.symm.trans (validUntil_of_lapsed fits trades)
      exact timely ⟨by simp [held],fits,own,lapsed,clock,running⟩
    · simp only [buildLeaseDocument] at running
      exact validUntil_not_lapsed valid trades (by omega) lapsed

/-- A key signs by itself; enough for one device. -/
def plainScheme : Scheme where
  PrivateKey := Bytes
  PublicKey := Bytes
  publicKeyFor key := key
  sign key message := key ++ message
  verify key message signature := signature == key ++ message
  genuine := by simp

def plainJson (document : LeaseDocument) : Bytes :=
  (toString document.businessId ++ toString document.validUntil ++ toString document.serverTime).toUTF8.toList

def plainSettings : Settings plainScheme := ⟨some [1],7,3⟩

/-- Lapsed at any time. -/
def suspendedBusiness : Business := ⟨1,.suspended,none,none⟩

/-- The device of a suspended business, four minutes behind the server, takes the lease it was just given. -/
theorem suspended_lease_accepted :
    ∃ signed lease state, issueLease plainJson plainSettings suspendedBusiness (600 * 1000000) = .ok (some signed) ∧
      verifyLease plainJson (plainScheme.publicKeyFor [1]) signed (360 * 1000000) (some 1) = .ok lease ∧
      computeState suspendedBusiness (360 * 1000000) plainSettings.graceDays = .ok state ∧
      state.blockedCode = some "subscription_suspended" := by
  obtain ⟨lease,accepted⟩ := @verifyLease_issued plainScheme plainJson suspendedBusiness (600 * 1000000) (360 * 1000000) (some 1) [1]
    (600 * 1000000) (by simp [suspendedBusiness]) (by decide +kernel) (by decide +kernel)
  exact ⟨_,lease,_,rfl,accepted,rfl,rfl⟩

end Leases
