import Mathlib.Order.Basic
import Mathlib.Tactic.SplitIfs
import SasBackend.Leases
import SasBackend.Semantics.TenantStatus

/-! The status of a business: the same in SQL and in Python where Python can hold the end of the grace, driven forward by time, and
lost by a suspension where the dates do not say what was stored.
-/
namespace TenantStatus
open Leases ThreeValued

variable {business : Tenant} {stored : Business} {now later graceDays : Int}

theorem effectiveStatus_ok {state : SubscriptionState} : effectiveStatus business now graceDays = .ok state ↔
    ∃ computed, computeState business.toBusiness now graceDays = .ok computed ∧
      state = if !business.isActive then ⟨.suspended,computed.trialEndsAt,computed.subscriptionEndsAt,none,none,false⟩ else computed := by
  rw [effectiveStatus,Outcome.bind_ok_iff]
  exact exists_congr fun computed => and_congr_right fun _ => ⟨fun same => by cases same; rfl,fun same => by rw [same]; rfl⟩

/-- The branches for a duration that can be held. -/
theorem statusCase_of_days (fits : graceDays.natAbs ≤ 999999999) : statusCase business now graceDays =
    if business.isActive = false then .ok .suspended
    else match business.subscriptionStatus with
      | .suspended => .ok .suspended
      | .cancelled => .ok .cancelled
      | .trial => .ok (if after now business.trialEndsAt then .expired else .trial)
      | .active | .pastDue => match business.subscriptionEndsAt with
        | none => .ok .active
        | some ends => if now ≤ ends then .ok .active
          else (timestampPlus ends (graceDays * day)).map fun graceEnd => if now ≤ graceEnd then .grace else .expired := by
  obtain ⟨⟨id,status,trialEnd,subEnd⟩,isActive⟩ := business
  simp only [statusCase,timedelta_ok.mpr ⟨fits,rfl⟩,Except.mapError,Outcome.ok_bind,caseWhen_cons]
  cases isActive with
  | false => simp
  | true =>
    cases status with
    | suspended | cancelled => simp
    | trial => cases trialEnd <;> simp [after,apply_ite]
    | active | pastDue =>
      cases subEnd with
      | none => simp
      | some ends =>
        by_cases running : now ≤ ends
        · simp [running]
        · cases sum : timestampPlus ends (graceDays * day) with
          | error failure => simp [running,inGrace,sum,Except.map,caseWhen_error]
          | ok graceEnd => simp [running,inGrace,sum,Except.map,caseWhen_cons,caseWhen_nil,apply_ite]

theorem timestampPlus_ok {moment interval sum : Int} (there : plus moment interval = .ok sum) :
    timestampPlus moment interval = .ok sum := by
  obtain ⟨rfl,least,most⟩ := plus_ok.mp there
  unfold earliest at least
  unfold latest at most
  rw [timestampPlus,if_pos (by unfold firstTimestamp endTimestamp; omega)]

theorem plus_cases (moment duration : Int) :
    (∃ sum, plus moment duration = .ok sum ∧ earliest ≤ moment + duration ∧ moment + duration ≤ latest) ∨
      plus moment duration = .error .date ∧ ¬(earliest ≤ moment + duration ∧ moment + duration ≤ latest) := by
  by_cases fits : earliest ≤ moment + duration ∧ moment + duration ≤ latest
  · exact .inl ⟨_,if_pos fits,fits⟩
  · exact .inr ⟨if_neg fits,fits⟩

theorem agrees_paid (fits : graceDays.natAbs ≤ 999999999)
    (paid : business.subscriptionStatus = .active ∨ business.subscriptionStatus = .pastDue) :
    Agrees business now graceDays ↔ ¬∃ ends ∈ business.subscriptionEndsAt, ends < now ∧
      ¬(earliest ≤ ends + graceDays * day ∧ ends + graceDays * day ≤ latest) := by
  simp only [Agrees,effectiveStatus_ok]
  by_cases running : ∀ ends ∈ business.subscriptionEndsAt, now ≤ ends
  · refine iff_of_true ⟨_,⟨_,active_state fits paid running,rfl⟩,?_⟩ ?_
    · rw [statusCase_of_days fits]
      obtain ⟨⟨id,status,trialEnd,subEnd⟩,isActive⟩ := business
      rcases paid with rfl | rfl <;> cases isActive <;> cases subEnd <;> simp_all
    · rintro ⟨ends,stored,beyond,_⟩
      exact absurd (running ends stored) (Int.not_le.mpr beyond)
  · obtain ⟨ends,stored,beyond⟩ : ∃ ends ∈ business.subscriptionEndsAt, ends < now := by simpa using running
    rw [over_state fits paid stored beyond,statusCase_of_days fits]
    rcases plus_cases ends (graceDays * day) with ⟨graceEnd,sum,within⟩ | ⟨sum,outside⟩
    · rw [sum]
      refine iff_of_true ⟨_,⟨_,rfl,rfl⟩,?_⟩ ?_
      · obtain ⟨⟨id,status,trialEnd,subEnd⟩,isActive⟩ := business
        cases stored
        rcases paid with rfl | rfl <;> cases isActive <;>
          simp [Int.not_le.mpr beyond,timestampPlus_ok sum,Except.map]
      · rintro ⟨_,again,_,outside⟩
        cases stored.symm.trans again
        exact outside within
    · rw [sum]
      refine iff_of_false ?_ (not_not_intro ⟨ends,stored,beyond,outside⟩)
      rintro ⟨_,⟨_,none_,_⟩,_⟩
      cases none_

theorem agrees_iff : Agrees business now graceDays ↔ ¬Overflows business now graceDays := by
  by_cases fits : graceDays.natAbs ≤ 999999999
  · have within : ¬999999999 < graceDays := by omega
    rw [Overflows,or_iff_right (Nat.not_lt.mpr fits)]
    cases chosen : business.subscriptionStatus with
    | active | pastDue =>
      simp only [reduceCtorEq,or_true,true_and,or_false]
      exact agrees_paid fits (by simp [chosen])
    | suspended | cancelled =>
      refine iff_of_true ⟨_,effectiveStatus_ok.mpr ⟨_,stopped_state fits (by simp [chosen]),rfl⟩,?_⟩ (by simp)
      cases active : business.isActive <;> simp [statusCase_of_days fits,chosen,active]
    | trial =>
      refine iff_of_true ⟨_,effectiveStatus_ok.mpr ⟨_,trial_state fits chosen,rfl⟩,?_⟩ (by simp)
      cases active : business.isActive <;> simp [statusCase_of_days fits,chosen,active]
  · refine iff_of_false ?_ (not_not_intro (.inl (by omega)))
    rintro ⟨state,told,_⟩
    obtain ⟨computed,there,_⟩ := effectiveStatus_ok.mp told
    exact fits (days_of_state there)

theorem after_mono {ends : Option Int} (before : now ≤ later) (beyond : after now ends = true) : after later ends = true := by
  simp only [after,Option.any_eq_true,decide_eq_true_eq] at beyond ⊢
  obtain ⟨ends,stored,less⟩ := beyond
  exact ⟨ends,stored,Int.lt_of_lt_of_le less before⟩

theorem paid_status {state : SubscriptionState} (paid : stored.subscriptionStatus = .active ∨ stored.subscriptionStatus = .pastDue)
    (told : computeState stored now graceDays = .ok state) :
    state.expiresAt = stored.subscriptionEndsAt ∧
      (state.status = .active ∧ (∀ ends ∈ stored.subscriptionEndsAt, now ≤ ends) ∨
      ∃ ends ∈ stored.subscriptionEndsAt, ends < now ∧ ∃ graceEnd, plus ends (graceDays * day) = .ok graceEnd ∧
        state.status = if now ≤ graceEnd then .grace else .expired) := by
  have fits := days_of_state told
  by_cases running : ∀ ends ∈ stored.subscriptionEndsAt, now ≤ ends
  · rw [active_state fits paid running] at told
    cases told
    exact ⟨rfl,.inl ⟨rfl,running⟩⟩
  · obtain ⟨ends,there,beyond⟩ : ∃ ends ∈ stored.subscriptionEndsAt, ends < now := by simpa using running
    rw [over_state fits paid there beyond] at told
    obtain ⟨graceEnd,sum,same⟩ := Outcome.bind_ok_iff.mp told
    cases same
    exact ⟨there.symm,.inr ⟨ends,there,beyond,graceEnd,sum,rfl⟩⟩

theorem paid_advances {state next : SubscriptionState} (before : now ≤ later)
    (paid : stored.subscriptionStatus = .active ∨ stored.subscriptionStatus = .pastDue)
    (told : computeState stored now graceDays = .ok state) (toldLater : computeState stored later graceDays = .ok next) :
    Advances state.status next.status := by
  obtain ⟨_,⟨first,running⟩ | ⟨ends,there,beyond,graceEnd,sum,first⟩⟩ := paid_status paid told
  · obtain ⟨_,⟨second,_⟩ | ⟨_,_,_,graceEnd,_,second⟩⟩ := paid_status paid toldLater
    · rw [first,second]
      exact .same _
    · rw [first,second]
      split
      · exact .paidOver
      · exact .bothOver
  · obtain ⟨_,⟨_,running⟩ | ⟨_,again,_,_,sumAgain,second⟩⟩ := paid_status paid toldLater
    · have := running ends there
      omega
    · cases there.symm.trans again
      cases sum.symm.trans sumAgain
      rw [first,second]
      by_cases within : now ≤ graceEnd
      · rw [if_pos within]
        split
        · exact .same _
        · exact .graceOver
      · rw [if_neg within,if_neg (by omega)]
        exact .same _

theorem computeState_advances {state next : SubscriptionState} (before : now ≤ later)
    (told : computeState stored now graceDays = .ok state) (toldLater : computeState stored later graceDays = .ok next) :
    Advances state.status next.status := by
  have fits := days_of_state told
  cases chosen : stored.subscriptionStatus with
  | suspended | cancelled =>
    rw [stopped_state fits (by simp [chosen])] at told toldLater
    cases told
    cases toldLater
    exact .same _
  | trial =>
    rw [trial_state fits chosen] at told toldLater
    cases told
    cases toldLater
    cases beyond : after now stored.trialEndsAt with
    | true =>
      rw [after_mono before beyond]
      exact .same _
    | false => cases after later stored.trialEndsAt with
      | true => exact .trialOver
      | false => exact .same _
  | active | pastDue => exact paid_advances before (by simp [chosen]) told toldLater

/-- The console and the till see one status wherever no sum overflows, and time only moves it forward. -/
theorem status_agrees_iff_and_advances (business : Tenant) (graceDays : Int) :
    (∀ now, Agrees business now graceDays ↔ ¬Overflows business now graceDays) ∧
      ∀ now later state next, now ≤ later → effectiveStatus business now graceDays = .ok state →
        effectiveStatus business later graceDays = .ok next → Advances state.status next.status := by
  refine ⟨fun now => agrees_iff,fun now later state next before told toldLater => ?_⟩
  obtain ⟨computed,there,rfl⟩ := effectiveStatus_ok.mp told
  obtain ⟨computedLater,thereLater,rfl⟩ := effectiveStatus_ok.mp toldLater
  cases business.isActive with
  | false => exact .same _
  | true => exact computeState_advances before there thereLater

/-- A paid month with three days of grace. -/
theorem status_agrees_paid : Agrees ⟨⟨0,.pastDue,none,some (30 * day)⟩,true⟩ (31 * day) 3 ∧
    ∃ state next, effectiveStatus ⟨⟨0,.pastDue,none,some (30 * day)⟩,true⟩ (31 * day) 3 = .ok state ∧
      effectiveStatus ⟨⟨0,.pastDue,none,some (30 * day)⟩,true⟩ (34 * day) 3 = .ok next ∧
      Advances state.status next.status ∧ state.status = .grace ∧ next.status = .expired := by
  obtain ⟨same,advances⟩ := status_agrees_iff_and_advances ⟨⟨0,.pastDue,none,some (30 * day)⟩,true⟩ 3
  refine ⟨(same _).mpr ?_,_,_,rfl,rfl,advances (31 * day) (34 * day) _ _ (by decide) rfl rfl,rfl,rfl⟩
  rintro (long | ⟨_,ends,⟨⟩,_,outside⟩)
  · exact absurd long (by decide)
  · exact outside (by decide)

/-- With three million days of grace the database tells of a grace where Python fails. -/
theorem grace_overflows : statusCase ⟨⟨0,.active,none,some 0⟩,true⟩ day 3000000 = .ok .grace ∧
    effectiveStatus ⟨⟨0,.active,none,some 0⟩,true⟩ day 3000000 = .error .date ∧
    ¬Agrees ⟨⟨0,.active,none,some 0⟩,true⟩ day 3000000 := by
  refine ⟨rfl,rfl,?_⟩
  rintro ⟨_,told,_⟩
  cases told

theorem effectiveStatus_active (active : business.isActive = true) :
    effectiveStatus business now graceDays = computeState business.toBusiness now graceDays := by
  rw [effectiveStatus,active]
  cases computeState business.toBusiness now graceDays <;> rfl

theorem undone_iff_same (business : Tenant) (now graceDays : Int) : Undone business now graceDays ↔
    (effectiveStatus { business with subscriptionStatus := if business.subscriptionEndsAt.isSome then .active else .trial } now
        graceDays).map (·.status) = (effectiveStatus business now graceDays).map (·.status) ∧
      (computeState { business.toBusiness with subscriptionStatus := if business.subscriptionEndsAt.isSome then .active else .trial }
        now graceDays).map (·.expiresAt) = (computeState business.toBusiness now graceDays).map (·.expiresAt) := by
  simp [Undone,setSuspended]

/-- Back from a trial with a paid end: the status has to be expired on both sides, and the end the same. -/
theorem undone_trial {ends : Int} (fits : graceDays.natAbs ≤ 999999999) (id : Nat) (trialEnd : Option Int) :
    Undone ⟨⟨id,.trial,trialEnd,some ends⟩,true⟩ now graceDays ↔ Derivable ⟨⟨id,.trial,trialEnd,some ends⟩,true⟩ now graceDays := by
  rw [undone_iff_same,effectiveStatus_active rfl,effectiveStatus_active rfl]
  simp only [Option.isSome_some,if_true,Derivable]
  rw [@trial_state ⟨id,.trial,trialEnd,some ends⟩ _ _ fits rfl]
  by_cases beyond : ends < now
  · rw [over_state fits (.inl rfl) rfl beyond]
    cases sum : plus ends (graceDays * day) with
    | error failure => simp [bind,Except.bind,Except.map]
    | ok graceEnd =>
      simp only [Outcome.ok_bind,Except.map,Except.ok.injEq,exists_eq_left',beyond,true_and]
      constructor
      · rintro ⟨status,expires⟩
        subst expires
        refine ⟨rfl,?_⟩
        by_contra within
        rw [if_pos (Int.not_lt.mp within)] at status
        split at status <;> cases status
      · rintro ⟨rfl,graceOver⟩
        rw [if_neg (Int.not_le.mpr graceOver),if_pos (by simpa [after] using beyond)]
        exact ⟨rfl,rfl⟩
  · rw [active_state fits (.inl rfl) (by simpa using Int.not_lt.mp beyond)]
    simp only [Except.map,Except.ok.injEq,beyond,false_and,and_false,iff_false]
    rintro ⟨status,_⟩
    split at status <;> cases status

/-- A suspension is undone exactly where the dates tell the status, for a business that was neither suspended nor cancelled. -/
theorem suspension_undone_iff {state : SubscriptionState} (told : effectiveStatus business now graceDays = .ok state)
    (notSuspended : state.status ≠ .suspended) (notCancelled : state.status ≠ .cancelled) :
    Undone business now graceDays ↔ Derivable business now graceDays := by
  obtain ⟨computed,there,rfl⟩ := effectiveStatus_ok.mp told
  have fits := days_of_state there
  obtain ⟨⟨id,stored,trialEnd,subEnd⟩,isActive⟩ := business
  cases isActive with
  | false => exact absurd rfl notSuspended
  | true =>
    cases stored with
    | suspended =>
      cases (stopped_state fits (.inl rfl)).symm.trans there
      exact absurd rfl notSuspended
    | cancelled =>
      cases (stopped_state fits (.inr rfl)).symm.trans there
      exact absurd rfl notCancelled
    | active | pastDue =>
      cases subEnd with
      | none =>
        rw [undone_iff_same,effectiveStatus_active rfl,effectiveStatus_active rfl]
        simp only [Option.isSome_none,Bool.false_eq_true,if_false,Derivable,iff_false]
        rw [@trial_state ⟨id,.trial,trialEnd,none⟩ _ _ fits rfl,active_state fits (by simp) (by simp)]
        rintro ⟨status,_⟩
        simp only [Except.map,Except.ok.injEq] at status
        split at status <;> cases status
      | some ends => simp [undone_iff_same,effectiveStatus,computeState,Derivable]
    | trial =>
      cases subEnd with
      | none => simp [undone_iff_same,Derivable]
      | some ends => exact undone_trial fits id trialEnd

/-- A paid month that has been cut off and is given back. -/
theorem suspension_undone_paid : Undone ⟨⟨0,.active,none,some (30 * day)⟩,true⟩ 0 3 :=
  (suspension_undone_iff rfl (by decide) (by decide)).mpr trivial

/-- A business without an end of its paid period comes back on a trial that is over. -/
theorem suspension_not_undone :
    (∃ state, effectiveStatus ⟨⟨0,.active,some 0,none⟩,true⟩ day 3 = .ok state ∧ state.status = .active) ∧
    (∀ suspended ∈ setSuspended ⟨⟨0,.active,some 0,none⟩,true⟩ true, ∀ activated ∈ setSuspended suspended false,
      ∃ state, effectiveStatus activated day 3 = .ok state ∧ state.status = .expired) ∧
    ¬Undone ⟨⟨0,.active,some 0,none⟩,true⟩ day 3 := by
  refine ⟨⟨_,rfl,rfl⟩,?_,?_⟩
  · rintro _ ⟨⟩ _ ⟨⟩
    exact ⟨_,rfl,rfl⟩
  · rw [undone_iff_same]
    rintro ⟨status,_⟩
    cases status

end TenantStatus
