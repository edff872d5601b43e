import SasBackend.Semantics.Subscriptions

/-! What a payment buys, over every history of manual edits, suspensions and payments.
-/
namespace Subscriptions
open Calendar Leases

namespace Business

theorem periodStart_ge_end {business : Business} {ends : Moment} (now : Moment) (paid : business.subscriptionEndsAt = some ends) :
    ends ≤ business.periodStart now := by
  unfold periodStart
  rw [paid]
  cases business.trialEndsAt <;> simp only [Option.elim] <;> split <;> simp

theorem fits_periodStart {business : Business} {now : Moment} {months : Nat} :
    Fits (business.periodStart now) months ↔ Fits now months ∧ (∀ ends ∈ business.subscriptionEndsAt, Fits ends months) ∧
      (business.subscriptionStatus = .trial → ∀ ends ∈ business.trialEndsAt, Fits ends months) := by
  unfold periodStart
  cases business.subscriptionEndsAt <;> cases business.trialEndsAt <;> simp only [Option.elim] <;> split <;>
    simp_all [fits_max,and_assoc]

theorem entitlement_cases (business : Business) (now : Moment) :
    business.entitlementEnd now = business.periodStart now ∨
    (∃ ends ∈ business.trialEndsAt, now < ends ∧ business.subscriptionStatus = .suspended ∧
      business.subscriptionEndsAt = none ∧ business.entitlementEnd now = ends ∧ business.periodStart now = now) ∨
    (∃ paid ∈ business.subscriptionEndsAt, ∃ ends ∈ business.trialEndsAt, max now paid < ends ∧
      business.subscriptionStatus = .trial ∧ business.entitlementEnd now = max now paid ∧
        business.periodStart now = ends) := by
  obtain ⟨status,trialEnds,subscriptionEnds⟩ := business
  cases trialEnds with
  | none => simp [entitlementEnd,periodStart]
  | some ends =>
    cases subscriptionEnds with
    | none =>
      rcases le_or_gt ends now with beyond | left
      · cases status <;> simp [entitlementEnd,periodStart,InTrial,max_eq_left beyond]
      · cases status <;> simp [entitlementEnd,periodStart,InTrial,left,max_eq_right left.le]
    | some paid =>
      rcases le_or_gt ends (max now paid) with beyond | left
      · cases status <;> simp [entitlementEnd,periodStart,InTrial,max_eq_left beyond]
      · cases status <;> simp [entitlementEnd,periodStart,InTrial,max_lt_iff.mp left,max_eq_right left.le]

theorem fits_entitlementEnd {business : Business} {now : Moment} {months : Nat} :
    Fits (business.entitlementEnd now) months ↔ Fits now months ∧ (∀ ends ∈ business.subscriptionEndsAt, Fits ends months) ∧
      (business.InTrial → ∀ ends ∈ business.trialEndsAt, Fits ends months) := by
  unfold entitlementEnd
  cases business.subscriptionEndsAt <;> cases business.trialEndsAt <;> simp only [Option.elim] <;> split <;>
    simp_all [fits_max,and_assoc]

theorem withinCalendar_iff {business : Business} {now : Moment} {months : Nat} : WithinCalendar business now months ↔
    Fits (business.periodStart now) months ∧ Fits (business.entitlementEnd now) months := by
  rw [fits_periodStart,fits_entitlementEnd,WithinCalendar,or_imp]
  tauto

theorem not_lost_of_same {business : Business} {now : Moment} (months : Nat)
    (same : business.entitlementEnd now = business.periodStart now) :
    ¬LosesTrial business now months ∧ ¬LosesHours business now months := by
  constructor
  · rintro ⟨suspended,unpaid,ends,trial,left,_⟩
    simp [entitlementEnd,periodStart,InTrial,suspended,unpaid,Option.mem_def.mp trial] at same
    exact absurd left (not_lt.mpr same)
  · rintro ⟨onTrial,paid,stored,ends,trial,left,_⟩
    simp [entitlementEnd,periodStart,InTrial,onTrial,Option.mem_def.mp stored,Option.mem_def.mp trial] at same
    exact absurd left (not_lt.mpr (le_max_iff.mpr same))

theorem recordPayment_eq_some {business after : Business} {now : Moment} {data : PaymentCreate}
    {payment : SubscriptionPayment} : business.recordPayment now data = some (payment,after) ↔
      addMonths (business.periodStart now) data.periodMonths = some payment.periodEnd ∧
      payment.periodStart = business.periodStart now ∧ payment.periodMonths = data.periodMonths ∧
      after = { business with subscriptionEndsAt := some payment.periodEnd, subscriptionStatus := .active } := by
  obtain ⟨months,start,ends⟩ := payment
  simp only [recordPayment,Option.map_eq_some_iff,Prod.mk.injEq,SubscriptionPayment.mk.injEq]
  constructor
  · rintro ⟨ends,there,⟨rfl,rfl,rfl⟩,rfl⟩
    exact ⟨there,rfl,rfl,rfl⟩
  · rintro ⟨there,rfl,rfl,rfl⟩
    exact ⟨ends,there,⟨rfl,rfl,rfl⟩,rfl⟩

theorem patchSubscription_end {business after : Business} {now ends : Moment} {data : SubscriptionPatch}
    (done : business.patchSubscription now data = some after) (paid : business.subscriptionEndsAt = some ends)
    (forward : ∀ replaced ∈ data.subscriptionEndsAt, ends ≤ replaced) : ∃ later ∈ after.subscriptionEndsAt, ends ≤ later := by
  obtain ⟨before,there,later⟩ : ∃ before ∈ ((business.withStatus data.status).withEnd data.subscriptionEndsAt).subscriptionEndsAt,
      ends ≤ before := by
    cases replaced : data.subscriptionEndsAt with
    | none => exact ⟨ends,paid,le_rfl⟩
    | some replacement => exact ⟨replacement,rfl,forward replacement replaced⟩
  unfold patchSubscription extended at done
  split at done
  · cases done
    exact ⟨before,there,later⟩
  · split at done
    · obtain ⟨_,_,rfl⟩ := Option.map_eq_some_iff.mp done
      exact ⟨before,there,later⟩
    · obtain ⟨moved,added,rfl⟩ := Option.map_eq_some_iff.mp done
      rw [there] at added
      exact ⟨moved,rfl,later.trans ((le_max_right now before).trans (addDays_ge added))⟩

theorem setSuspended_end {business after : Business} {suspend : Bool} (done : business.setSuspended suspend = some after) :
    after.subscriptionEndsAt = business.subscriptionEndsAt := by
  unfold setSuspended at done
  split_ifs at done <;> cases done <;> rfl

end Business

namespace History

/-- The paid end is not before the end of the newest period, unless it was moved back. -/
def Covered (history : History) : Prop :=
  history.movedBack = false → ∀ newest ∈ history.payments.head?,
    ∃ ends ∈ history.business.subscriptionEndsAt, newest.periodEnd ≤ ends

theorem covered_next {history after : History} {request : Moment × Request} (covered : history.Covered)
    (done : history.next request = some after) : after.Covered := by
  obtain ⟨now,request⟩ := request
  cases request with
  | patchSubscription data =>
    obtain ⟨business,patched,rfl⟩ := Option.map_eq_some_iff.mp done
    intro still newest first
    obtain ⟨unmoved,forward⟩ := Bool.or_eq_false_iff.mp still
    obtain ⟨ends,paid,before⟩ := covered unmoved newest first
    have later : ∀ replaced ∈ data.subscriptionEndsAt, ends ≤ replaced := by
      intro replaced given
      simpa [movesBack,Option.mem_def.mp given,Option.mem_def.mp paid] using forward
    obtain ⟨moved,there,order⟩ := Business.patchSubscription_end patched paid later
    exact ⟨moved,there,before.trans order⟩
  | recordPayment data =>
    obtain ⟨⟨payment,business⟩,recorded,rfl⟩ := Option.map_eq_some_iff.mp done
    obtain ⟨_,_,_,rfl⟩ := Business.recordPayment_eq_some.mp recorded
    intro _ newest first
    cases Option.some.inj first
    exact ⟨payment.periodEnd,rfl,le_rfl⟩
  | setSuspended suspend =>
    obtain ⟨business,suspended,rfl⟩ := Option.map_eq_some_iff.mp done
    intro still newest first
    obtain ⟨ends,paid,before⟩ := covered still newest first
    exact ⟨ends,(Business.setSuspended_end suspended).trans paid,before⟩

theorem Reached.covered {history : History} (reached : history.Reached) : history.Covered := by
  apply reached.invariant
  · rintro start ⟨_,_,none_yet,_⟩ _ newest first
    simp [none_yet] at first
  · exact fun _ _ _ covered done => covered_next covered done

end History

theorem paidInFull_iff_ends {history : History} {now : Moment} {data : PaymentCreate} (covered : history.Covered) :
    PaidInFull history now data ↔
      ∃ ends ∈ addMonths (history.business.periodStart now) data.periodMonths,
        ∃ due ∈ addMonths (history.business.entitlementEnd now) data.periodMonths, due ≤ ends := by
  constructor
  · rintro ⟨⟨payment,after⟩,recorded,⟨due,sum,ends,stored,order⟩,_⟩
    obtain ⟨there,_,_,rfl⟩ := Business.recordPayment_eq_some.mp recorded
    cases Option.some.inj stored
    exact ⟨payment.periodEnd,there,due,sum,order⟩
  · rintro ⟨ends,there,due,sum,order⟩
    have recorded : history.business.recordPayment now data =
        some (⟨data.periodMonths,history.business.periodStart now,ends⟩,
          { history.business with subscriptionEndsAt := some ends, subscriptionStatus := .active }) :=
      Business.recordPayment_eq_some.mpr ⟨there,rfl,rfl,rfl⟩
    refine ⟨_,recorded,⟨due,sum,ends,rfl,order⟩,addMonths_ge data.in_range.1 there,?_⟩
    intro unmoved newest first shared
    obtain ⟨paid,stored,before⟩ := covered unmoved newest first
    have apart : newest.periodEnd ≤ history.business.periodStart now :=
      before.trans (Business.periodStart_ge_end now stored)
    exact absurd ((le_max_right _ _).trans_lt (shared.trans_le (min_le_left _ _))) (not_lt.mpr apart)

/-- In every history, a payment takes no days and overlaps no period exactly when its dates stay in the calendar and the
business neither is suspended with time left on its trial nor came back to a trial that ends earlier in the day. -/
theorem paid_in_full_iff (history : History) (reached : history.Reached) (now : Moment) (data : PaymentCreate) :
    PaidInFull history now data ↔ WithinCalendar history.business now data.periodMonths ∧
      ¬LosesTrial history.business now data.periodMonths ∧ ¬LosesHours history.business now data.periodMonths := by
  rw [paidInFull_iff_ends reached.covered,Business.withinCalendar_iff]
  rcases history.business.entitlement_cases now with same |
    ⟨ends,trial,left,suspended,unpaid,entitled,start⟩ | ⟨paid,stored,ends,trial,left,onTrial,entitled,start⟩
  · rw [same,and_self,and_iff_left (Business.not_lost_of_same data.periodMonths same)]
    constructor
    · rintro ⟨ends,there,_⟩
      exact addMonths_isSome_iff.mp ⟨ends,there⟩
    · intro fits
      obtain ⟨ends,there⟩ := addMonths_isSome_iff.mpr fits
      exact ⟨ends,there,ends,there,le_rfl⟩
  · have noHours : ¬LosesHours history.business now data.periodMonths := by
      rintro ⟨onTrial,_⟩
      rw [suspended] at onTrial
      cases onTrial
    have lost : LosesTrial history.business now data.periodMonths ↔
        ¬(SameDayAfter now ends data.periodMonths ∧ ends.time ≤ now.time) := by
      simp [LosesTrial,suspended,unpaid,Option.mem_def.mp trial,left]
    rw [entitled,start,addMonths_covers_of_lt left,lost,not_not,and_iff_left noHours]
  · have noTrial : ¬LosesTrial history.business now data.periodMonths := by
      rintro ⟨suspended,_⟩
      rw [onTrial] at suspended
      cases suspended
    have lost : LosesHours history.business now data.periodMonths ↔
        SameDayAfter (max now paid) ends data.periodMonths ∧ ends.time < (max now paid).time := by
      simp [LosesHours,onTrial,Option.mem_def.mp stored,Option.mem_def.mp trial,max_lt_iff.mp left]
    rw [entitled,start,lost,addMonths_covers_of_gt left,and_iff_right noTrial]

/-- The first of January 2026 and of the month after. -/
def newYear : Moment := midnight 2026 1 1 (by decide)

def february : Moment := midnight 2026 2 1 (by decide)

def registered : History := ⟨⟨.trial,some february,none⟩,[],false⟩

theorem registered_reached : registered.Reached := .initial ⟨rfl,rfl,rfl,rfl⟩

/-- A payment in the trial starts when the trial ends. -/
theorem paid_in_full_on_trial : PaidInFull registered newYear ⟨1,by decide⟩ :=
  (paid_in_full_iff registered registered_reached newYear ⟨1,by decide⟩).mpr (by decide)

/-- Suspended in its trial and paid for on the same day, a business loses the month of trial it had left. -/
theorem trial_lost : ¬∀ history : History, history.Reached → ∀ now data, PaidInFull history now data := by
  intro always
  have suspended : (registered.next (newYear,.setSuspended true)) = some ⟨⟨.suspended,some february,none⟩,[],false⟩ := rfl
  have lost : ¬PaidInFull ⟨⟨.suspended,some february,none⟩,[],false⟩ newYear ⟨1,by decide⟩ := by decide
  exact lost (always _ (registered_reached.next suspended) newYear ⟨1,by decide⟩)

end Subscriptions
