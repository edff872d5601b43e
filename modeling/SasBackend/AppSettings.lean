import SasBackend.Semantics.AppSettings

/-! Settings are a map of two levels: what a branch reads is what was last set for it and not deleted, or else what was set
for its business.
-/
namespace AppSettings
open Outcome (bind_ok_iff)
open Service (Refusal refuseIf_ok scalarOneOrNone)
open UniqueKeys (Distinct lookup lookup_append lookup_eq_none lookup_key lookup_mem)

variable {α : Type} {s t u : State α} {businessId i : Nat} {branchId : Option Nat} {settingKey : String} {row : AppSetting α}

def AppSetting.liveKey (row : AppSetting α) : Option (Nat × Option Nat × String) :=
  if row.deletedAt = none then some (row.businessId,row.branchId,row.settingKey) else none

/-- The setting of one level. -/
def State.at (s : State α) (businessId : Nat) (branchId : Option Nat) (settingKey : String) : Option (AppSetting α) :=
  lookup AppSetting.liveKey s.settings (businessId,branchId,settingKey)

def State.view (s : State α) : View α := fun businessId branchId settingKey =>
  (s.at businessId branchId settingKey).map AppSetting.settingValue

structure Sound (s : State α) : Prop where
  keys : Distinct AppSetting.key s.settings
  live : Distinct AppSetting.liveKey s.settings

theorem isFor_iff : row.isFor businessId settingKey branchId = true ↔ row.liveKey = some (businessId,branchId,settingKey) := by
  unfold AppSetting.isFor AppSetting.liveKey
  by_cases live : row.deletedAt = none
  · simp [live,and_assoc,and_comm]
  · simp [live]

theorem liveKey_iff : row.liveKey = some (businessId,branchId,settingKey) ↔
    row.deletedAt = none ∧ row.businessId = businessId ∧ row.branchId = branchId ∧ row.settingKey = settingKey := by
  unfold AppSetting.liveKey
  by_cases live : row.deletedAt = none <;> simp [live]

theorem findSetting_cases (sound : Sound s) (businessId : Nat) (settingKey : String) (branchId : Option Nat) :
    findSetting s businessId settingKey branchId = .ok none ∧ s.at businessId branchId settingKey = none ∨
      ∃ i row, s.settings[i]? = some row ∧ findSetting s businessId settingKey branchId = .ok (some (row,i)) ∧
        s.at businessId branchId settingKey = some row ∧ row.liveKey = some (businessId,branchId,settingKey) := by
  rcases sound.live.places fun _ => isFor_iff with ⟨nothing,absent⟩ | ⟨i,row,there,single,found,keyed⟩
  · refine .inl ⟨?_,absent⟩
    rw [findSetting,nothing]
    rfl
  · refine .inr ⟨i,row,there,?_,found,keyed⟩
    rw [findSetting,single]
    rfl

theorem findSetting_map (sound : Sound s) (businessId : Nat) (branchId : Option Nat) (settingKey : String) :
    (findSetting s businessId settingKey branchId).map (fun found => found.map (·.1)) = .ok (s.at businessId branchId settingKey) := by
  rcases findSetting_cases sound businessId settingKey branchId with ⟨read,absent⟩ | ⟨i,row,_,read,found,_⟩
  · rw [read,absent]
    rfl
  · rw [read,found]
    rfl

/-- The setting a branch goes by. -/
def State.resolved (s : State α) (businessId : Nat) (branchId : Option Nat) (settingKey : String) : Option (AppSetting α) :=
  (s.at businessId branchId settingKey).or (s.at businessId none settingKey)

theorem getSetting_eq (sound : Sound s) : getSetting s businessId settingKey branchId = .ok (s.resolved businessId branchId settingKey) := by
  have inherited := findSetting_map sound businessId none settingKey
  unfold getSetting State.resolved
  cases branchId with
  | none =>
    rw [Option.or_self]
    exact inherited
  | some branch =>
    rcases findSetting_cases sound businessId settingKey (some branch) with ⟨read,absent⟩ | ⟨i,row,_,read,found,_⟩
    · rw [branchSetting,read,absent]
      exact inherited
    · rw [branchSetting,read,found]
      rfl

theorem view_resolve (s : State α) : s.view.resolve businessId branchId settingKey =
    (s.resolved businessId branchId settingKey).map AppSetting.settingValue := by
  simp only [View.resolve,State.view,State.resolved]
  cases s.at businessId branchId settingKey <;> rfl

theorem mem_settingsOf : row ∈ settingsOf s businessId branchId ↔
    row ∈ s.settings ∧ row.liveKey = some (businessId,branchId,row.settingKey) := by
  rw [settingsOf,List.mem_filter,liveKey_iff]
  simp [and_assoc,and_comm,and_left_comm]

theorem mem_settingsOf_iff (sound : Sound s) : row ∈ settingsOf s businessId branchId ↔ s.at businessId branchId row.settingKey = some row := by
  rw [mem_settingsOf]
  exact ⟨fun ⟨inside,keyed⟩ => sound.live.lookup_of_mem inside keyed,fun found => ⟨lookup_mem found,lookup_key found⟩⟩

theorem key_mem_settingsOf (sound : Sound s) : settingKey ∈ (settingsOf s businessId branchId).map AppSetting.settingKey ↔
    s.at businessId branchId settingKey ≠ none := by
  rw [List.mem_map,Option.ne_none_iff_exists']
  constructor
  · rintro ⟨row,inside,rfl⟩
    exact ⟨row,(mem_settingsOf_iff sound).mp inside⟩
  · rintro ⟨row,found⟩
    have same := (liveKey_iff.mp (lookup_key found)).2.2.2
    exact ⟨row,(mem_settingsOf_iff sound).mpr (same ▸ found),same⟩

theorem nodup_settingsOf (sound : Sound s) : ((settingsOf s businessId branchId).map AppSetting.settingKey).Nodup := by
  have apart := List.pairwise_filterMap.mp sound.live
  refine List.pairwise_map.mpr ((apart.filter _).imp_of_mem ?_)
  intro first second here there different same
  have left := (mem_settingsOf.mp here).2
  have right := (mem_settingsOf.mp there).2
  exact different _ left _ right (by rw [same])

theorem ordered_perm (collate : String → String → Bool) (rows : List (AppSetting α)) : (ordered collate rows).Perm rows :=
  List.mergeSort_perm rows _

variable {collate : String → String → Bool}

theorem mem_getSettings (sound : Sound s) : row ∈ getSettings collate s businessId branchId ↔
    s.resolved businessId branchId row.settingKey = some row := by
  unfold State.resolved
  cases branchId with
  | none =>
    rw [getSettings,(ordered_perm _ _).mem_iff,Option.or_self]
    exact mem_settingsOf_iff sound
  | some branch =>
    rw [getSettings,(ordered_perm _ _).mem_iff,List.mem_append,List.mem_filter,(ordered_perm _ _).mem_iff,
      mem_settingsOf_iff sound,mem_settingsOf_iff sound,decide_eq_true_eq,key_mem_settingsOf sound,not_not]
    cases s.at businessId (some branch) row.settingKey <;> simp

theorem nodup_getSettings (sound : Sound s) : ((getSettings collate s businessId branchId).map AppSetting.settingKey).Nodup := by
  cases branchId with
  | none =>
    rw [getSettings,((ordered_perm _ _).map _).nodup_iff]
    exact nodup_settingsOf sound
  | some branch =>
    rw [getSettings,((ordered_perm _ _).map _).nodup_iff,List.map_append,List.nodup_append']
    refine ⟨nodup_settingsOf sound,?_,?_⟩
    · have inherited : ((ordered collate (settingsOf s businessId none)).map AppSetting.settingKey).Nodup :=
        ((ordered_perm _ _).map _).nodup_iff.mpr (nodup_settingsOf sound)
      exact inherited.sublist (List.filter_sublist.map _)
    · intro key here there
      obtain ⟨row,inside,rfl⟩ := List.mem_map.mp there
      exact of_decide_eq_true (List.mem_filter.mp inside).2 here

theorem mem_listSettings (sound : Sound s) {permissionKeys : List String} :
    row ∈ listSettings collate s businessId branchId permissionKeys ↔
      getSettingEndpoint s businessId row.settingKey branchId permissionKeys = .ok row := by
  rw [listSettings,List.mem_filter,mem_getSettings sound]
  simp only [getSettingEndpoint,getSetting_eq sound,Outcome.ok_bind]
  cases mayRead permissionKeys row.settingKey with
  | false => simp [Service.refuseIf,Outcome.error_bind]
  | true =>
    cases s.resolved businessId branchId row.settingKey <;> simp [Service.refuseIf,Outcome.ok_bind,presentOr404]

variable {data : UpsertSettingRequest α}

/-- What was deleted stays as it is. -/
def Lasting (s t : State α) : Prop :=
  ∀ (i : Nat) (row : AppSetting α), s.settings[i]? = some row → row.deletedAt ≠ none → t.settings[i]? = some row

theorem Lasting.refl (s : State α) : Lasting s s := fun _ _ found _ => found

theorem Lasting.trans (first : Lasting s t) (second : Lasting t u) : Lasting s u :=
  fun i row found deleted => second i row (first i row found deleted) deleted

/-- What a request leaves. -/
structure Kept (s t : State α) (view : View α) : Prop where
  sound : Sound t
  view : t.view = view
  lasting : Lasting s t

theorem Lasting.set {later : AppSetting α} (found : s.settings[i]? = some row) (live : row.deletedAt = none) :
    Lasting s { s with settings := s.settings.set i later } := by
  intro j other there deleted
  by_cases same : i = j
  · subst same
    cases found.symm.trans there
    exact absurd live deleted
  · exact (List.getElem?_set_ne same).trans there

theorem keyed_iff {business : Nat} {branch : Option Nat} {key : String} (keyed : row.liveKey = some (businessId,branchId,settingKey)) :
    row.liveKey = some (business,branch,key) ↔ business = businessId ∧ branch = branchId ∧ key = settingKey := by
  rw [keyed]
  simp [eq_comm]

/-- A live setting gives way to another of its key, or to one that is deleted. -/
theorem kept_set (later : AppSetting α) (sound : Sound s) (found : s.settings[i]? = some row)
    (keyed : row.liveKey = some (businessId,branchId,settingKey)) (own : later.key = row.key)
    (kept : later.liveKey = row.liveKey ∨ later.liveKey = none) : Kept s { s with settings := s.settings.set i later }
      (s.view.set businessId branchId settingKey (if later.deletedAt = none then some later.settingValue else none)) := by
  have live : row.deletedAt = none := (liveKey_iff.mp keyed).1
  refine ⟨⟨sound.keys.set_same found own,sound.live.set_of found kept⟩,?_,Lasting.set found live⟩
  · funext business branch key
    simp only [State.view,State.at,View.set]
    rw [sound.live.lookup_set found kept]
    simp only [keyed_iff keyed]
    split
    next same =>
      rcases kept with held | gone
      · rw [if_pos ((held.trans keyed).trans (by simp [same])),if_pos (liveKey_iff.mp (held.trans keyed)).1]
        rfl
      · have deleted : later.deletedAt ≠ none := by
          intro alive
          rw [AppSetting.liveKey,if_pos alive] at gone
          cases gone
        rw [if_neg (by simp [gone]),if_neg deleted]
        rfl
    · rfl

theorem kept_append (sound : Sound s) (live : row.deletedAt = none) (free : UniqueKeys.taken AppSetting.key s.settings row = false)
    (absent : s.at row.businessId row.branchId row.settingKey = none) : Kept s { s with settings := s.settings ++ [row] }
      (s.view.set row.businessId row.branchId row.settingKey (some row.settingValue)) := by
  have keyed : row.liveKey = some (row.businessId,row.branchId,row.settingKey) := if_pos live
  refine ⟨⟨sound.keys.append free,?_⟩,?_,?_⟩
  · refine sound.live.append ?_
    rw [UniqueKeys.taken,Bool.and_eq_false_iff]
    right
    rw [List.any_eq_false]
    exact fun other inside same => lookup_eq_none.mp absent other inside ((of_decide_eq_true same).trans keyed)
  · funext business branch key
    simp only [State.view,State.at,View.set]
    rw [lookup_append]
    simp only [keyed_iff keyed]
    split
    next same =>
      obtain ⟨rfl,rfl,rfl⟩ := same
      rw [show lookup AppSetting.liveKey s.settings (row.businessId,row.branchId,row.settingKey) = none from absent]
      rfl
    · rw [Option.or_none]
  · intro j other there _
    exact (List.getElem?_append_left (List.getElem?_eq_some_iff.mp there).1).trans there

theorem insertSetting_ok (done : insertSetting s row = .ok t) :
    UniqueKeys.taken AppSetting.key s.settings row = false ∧ t = { s with settings := s.settings ++ [row] } := by
  unfold insertSetting at done
  split at done
  · cases done
  next free =>
    cases done
    exact ⟨Bool.eq_false_iff.mpr free,rfl⟩

theorem kept_upsert (sound : Sound s) (done : upsert s businessId data = .ok t) : Kept s t (s.view.put businessId data) := by
  obtain ⟨_,_,done⟩ := bind_ok_iff.mp done
  obtain ⟨existing,read,done⟩ := bind_ok_iff.mp done
  rcases findSetting_cases sound businessId data.settingKey data.branchId with ⟨nothing,absent⟩ | ⟨i,row,there,single,_,keyed⟩
  · cases nothing.symm.trans read
    obtain ⟨free,rfl⟩ := insertSetting_ok done
    exact kept_append sound rfl free absent
  · cases single.symm.trans read
    cases done
    have kept := kept_set { row with settingValue := data.settingValue } sound there keyed rfl (.inl rfl)
    rwa [if_pos (liveKey_iff.mp keyed).1] at kept

theorem kept_bulk {settings : List (UpsertSettingRequest α)} (sound : Sound s)
    (done : settings.foldlM (fun u data => upsert u businessId data) s = .ok t) : Kept s t (settings.foldl (View.put businessId) s.view) := by
  induction settings generalizing s with
  | nil =>
    cases done
    exact ⟨sound,rfl,.refl _⟩
  | cons data settings induction =>
    rw [List.foldlM_cons] at done
    obtain ⟨u,first,rest⟩ := bind_ok_iff.mp done
    have here := kept_upsert sound first
    have later := induction here.sound rest
    refine ⟨later.sound,?_,here.lasting.trans later.lasting⟩
    rw [later.view,here.view]
    rfl

theorem kept_delete {now : Int} (sound : Sound s) (done : deleteSetting s businessId settingKey branchId now = .ok t) :
    Kept s t (s.view.set businessId branchId settingKey none) := by
  obtain ⟨existing,read,done⟩ := bind_ok_iff.mp done
  rcases findSetting_cases sound businessId settingKey branchId with ⟨nothing,_⟩ | ⟨i,row,there,single,_,keyed⟩
  · cases nothing.symm.trans read
    cases done
  · cases single.symm.trans read
    cases done
    have kept := kept_set { row with deletedAt := some now } sound there keyed rfl (.inr rfl)
    rwa [if_neg (Option.some_ne_none now)] at kept

theorem kept_answer {request : Request α} (sound : Sound s) (done : answer s request = .ok t) :
    Kept s t (Request.effect s.view request) := by
  cases request with
  | upsertSetting businessId data =>
    obtain ⟨_,_,done⟩ := bind_ok_iff.mp done
    exact kept_upsert sound done
  | bulkUpsertSettings businessId settings =>
    obtain ⟨_,_,done⟩ := bind_ok_iff.mp done
    exact kept_bulk sound done
  | deleteSetting businessId settingKey branchId now => exact kept_delete sound done
  | others branches =>
    cases done
    exact ⟨⟨sound.keys,sound.live⟩,rfl,fun _ _ found _ => found⟩

theorem sound_reached (requests : List (Request α)) : Sound (reached requests) :=
  Service.run_invariant (fun _ _ _ sound done => (kept_answer sound done).sound) ⟨Distinct.nil,Distinct.nil⟩ requests

theorem lasting_reached (requests more : List (Request α)) : Lasting (reached requests) (reached (requests ++ more)) := by
  rw [reached,reached,Service.run_append]
  exact Service.run_relation Lasting.refl (fun _ _ _ => Lasting.trans)
    (fun _ _ _ sound done => ⟨(kept_answer sound done).sound,(kept_answer sound done).lasting⟩) (sound_reached requests) more

/-- A setting of a branch that was deleted holds its key for good. -/
theorem deleted_stays {branch : Nat} (sound : Sound s) (found : s.settings[i]? = some row) (deleted : row.deletedAt ≠ none)
    (own : row.branchId = some branch) : s.view row.businessId (some branch) row.settingKey = none ∧
      ∀ value t, upsertSetting s row.businessId ⟨row.settingKey,value,some branch⟩ ≠ .ok t := by
  have keyed : row.key = some (row.businessId,branch,row.settingKey) := by rw [AppSetting.key,own]; rfl
  have absent : s.at row.businessId (some branch) row.settingKey = none := by
    cases held : s.at row.businessId (some branch) row.settingKey with
    | none => rfl
    | some other =>
      obtain ⟨live,business,same,key⟩ := liveKey_iff.mp (lookup_key held)
      obtain ⟨j,there⟩ := List.mem_iff_getElem?.mp (lookup_mem held)
      have otherKeyed : other.key = some (row.businessId,branch,row.settingKey) := by
        rw [AppSetting.key,same,business,key]
        rfl
      cases sound.keys.place found there keyed otherKeyed
      cases found.symm.trans there
      exact absurd live deleted
  refine ⟨by rw [State.view,absent]; rfl,fun value t done => ?_⟩
  obtain ⟨_,_,done⟩ := bind_ok_iff.mp done
  obtain ⟨_,_,done⟩ := bind_ok_iff.mp done
  obtain ⟨existing,read,done⟩ := bind_ok_iff.mp done
  rcases findSetting_cases sound row.businessId row.settingKey (some branch) with ⟨nothing,_⟩ | ⟨_,_,_,_,here,_⟩
  · cases nothing.symm.trans read
    obtain ⟨free,_⟩ := insertSetting_ok done
    refine Bool.eq_false_iff.mp free ?_
    rw [UniqueKeys.taken,Bool.and_eq_true,List.any_eq_true]
    exact ⟨rfl,row,List.mem_of_getElem? found,decide_eq_true keyed⟩
  · rw [absent] at here
    cases here

/-- In every run, a branch reads a map of two levels: its own value or that of its business, which each request changes as it
says. The listing shows, of what may be read, each key once with what reading it gives. What was deleted for a branch is read
from the business for good, since it cannot be set again. -/
theorem settings_resolve (collate : String → String → Bool) (requests : List (Request α)) (businessId : Nat)
    (branchId : Option Nat) :
    (∀ settingKey, (getSetting (reached requests) businessId settingKey branchId).map (fun found => found.map AppSetting.settingValue) =
      .ok ((reached requests).view.resolve businessId branchId settingKey)) ∧
    (∀ permissionKeys row, row ∈ listSettings collate (reached requests) businessId branchId permissionKeys ↔
      getSettingEndpoint (reached requests) businessId row.settingKey branchId permissionKeys = .ok row) ∧
    (∀ permissionKeys, ((listSettings collate (reached requests) businessId branchId permissionKeys).map
      AppSetting.settingKey).Nodup) ∧
    (∀ request t, answer (reached requests) request = .ok t → t.view = Request.effect (reached requests).view request) ∧
    (∀ (i : Nat) (row : AppSetting α) (branch : Nat), (reached requests).settings[i]? = some row → row.deletedAt ≠ none →
      row.branchId = some branch → ∀ more,
        (reached (requests ++ more)).view.resolve row.businessId (some branch) row.settingKey =
          (reached (requests ++ more)).view row.businessId none row.settingKey ∧
        ∀ value t, upsertSetting (reached (requests ++ more)) row.businessId ⟨row.settingKey,value,some branch⟩ ≠ .ok t) := by
  have sound := sound_reached requests
  refine ⟨fun settingKey => ?_,fun _ _ => mem_listSettings sound,fun permissionKeys => ?_,fun request t done => ?_,?_⟩
  · rw [getSetting_eq sound,view_resolve]
    rfl
  · exact (nodup_getSettings sound).sublist (List.filter_sublist.map _)
  · exact (kept_answer sound done).view
  · intro i row branch found deleted own more
    have later := lasting_reached requests more i row found deleted
    obtain ⟨unset,refused⟩ := deleted_stays (sound_reached (requests ++ more)) later deleted own
    refine ⟨?_,refused⟩
    rw [View.resolve,unset,Option.none_or]

end AppSettings
