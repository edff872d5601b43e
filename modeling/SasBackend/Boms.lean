import SasBackend.Semantics.Boms

/-! One active bill of materials for each product, with numbered versions, and every bill that is not deleted can be produced
from.
-/
namespace Boms
open Outcome (bind_ok_iff)
open Service (refuseIf_ok)
open UniqueKeys (Distinct)

variable {s t u : State} {businessId productId bomId i j : Nat} {variationId : Option Nat} {header changed : BomHeader} {line : BomLine}
  {now : Int}

def BomHeader.activeKey (header : BomHeader) : Option (Nat × Nat × Option Nat) :=
  if header.deletedAt = none ∧ header.isActive = true then some (header.businessId,header.productId,header.variationId) else none

def BomHeader.versionKey (header : BomHeader) : Option (Nat × Nat × Option Nat × Nat) :=
  if header.deletedAt = none then some (header.businessId,header.productId,header.variationId,header.version) else none

def BomLine.ingredient (line : BomLine) : Nat × Option Nat := (line.ingredientProductId,line.ingredientVariationId)

/-- Lines a product can be made by: some, none of them the product itself, and none twice. -/
structure Recipe (businessId productId : Nat) (lines : List BomLine) : Prop where
  nonempty : lines ≠ []
  each : ∀ line ∈ lines, line.businessId = businessId ∧ line.ingredientProductId ≠ productId ∧ line.checked = true
  distinct : (lines.map BomLine.ingredient).Nodup

structure Sound (s : State) : Prop where
  active : Distinct BomHeader.activeKey s.headers
  versions : Distinct BomHeader.versionKey s.headers
  recipes : ∀ (i : Nat) (header : BomHeader), s.headers[i]? = some header → header.deletedAt = none →
    0 < header.outputQty ∧ Recipe header.businessId header.productId (activeBomLines s i)
  placed : ∀ line ∈ s.lines, line.deletedAt = none →
    ∃ header, s.headers[line.bomHeaderId]? = some header ∧ header.deletedAt = none

/-- What was deleted stays so. -/
def Lasting (s t : State) : Prop :=
  ∀ (i : Nat) (header : BomHeader), s.headers[i]? = some header → header.deletedAt ≠ none → t.headers[i]? = some header

theorem validateEach_ok {seen : List (Nat × Option Nat)} {lines : List BomLineRequest} {done : Unit}
    (passed : validateEach s businessId productId seen lines = .ok done) :
    (∀ line ∈ lines, line.ingredientProductId ≠ productId ∧ line.ingredient ∉ seen) ∧
      (lines.map BomLineRequest.ingredient).Nodup := by
  induction lines generalizing seen with
  | nil => exact ⟨fun line inside => (List.not_mem_nil inside).elim,List.nodup_nil⟩
  | cons line lines induction =>
    obtain ⟨_,first,rest⟩ := bind_ok_iff.mp passed
    obtain ⟨_,other,first⟩ := bind_ok_iff.mp first
    obtain ⟨_,new,_⟩ := bind_ok_iff.mp first
    obtain ⟨later,distinct⟩ := induction rest
    have apart : line.ingredientProductId ≠ productId := of_decide_eq_false (refuseIf_ok.mp other)
    have unseen : line.ingredient ∉ seen := of_decide_eq_false (refuseIf_ok.mp new)
    refine ⟨List.forall_mem_cons.mpr ⟨⟨apart,unseen⟩,fun next inside => ?_⟩,?_⟩
    · exact ⟨(later next inside).1,fun there => (later next inside).2 (List.mem_cons_of_mem _ there)⟩
    · refine List.nodup_cons.mpr ⟨fun there => ?_,distinct⟩
      obtain ⟨next,inside,same⟩ := List.mem_map.mp there
      exact (later next inside).2 (same ▸ List.mem_cons_self)

theorem recipe_of_valid {lines : List BomLineRequest} {done : Unit}
    (passed : validateBomLines s businessId productId lines = .ok done)
    (checked : (lines.map (newLine businessId bomId)).all BomLine.checked = true) :
    Recipe businessId productId (lines.map (newLine businessId bomId)) := by
  obtain ⟨_,some_line,passed⟩ := bind_ok_iff.mp passed
  obtain ⟨apart,distinct⟩ := validateEach_ok passed
  have nonempty : lines ≠ [] := by simpa using refuseIf_ok.mp some_line
  refine ⟨by simpa using nonempty,?_,?_⟩
  · intro line inside
    have fits := List.all_eq_true.mp checked line inside
    obtain ⟨request,there,rfl⟩ := List.mem_map.mp inside
    exact ⟨rfl,(apart request there).1,fits⟩
  · rw [List.map_map]
    exact distinct

theorem replaceBomLines_ok {lines : List BomLineRequest} (done : replaceBomLines s businessId bomId lines now = .ok t) :
    (lines.map (newLine businessId bomId)).all BomLine.checked = true ∧
      t = { s with lines := s.lines.map (BomLine.retired bomId now) ++ lines.map (newLine businessId bomId) } := by
  unfold replaceBomLines at done
  split at done
  next checked =>
    cases done
    exact ⟨checked,rfl⟩
  · cases done

theorem retired_kept (bomId : Nat) (line : BomLine) (now : Int) : (line.retired bomId now).bomHeaderId = line.bomHeaderId ∧
    ((line.retired bomId now).deletedAt = none ↔ line.deletedAt = none ∧ line.bomHeaderId ≠ bomId) := by
  unfold BomLine.retired
  by_cases target : line.bomHeaderId = bomId ∧ line.deletedAt = none
  · simp [target]
  · rw [if_neg target]
    refine ⟨rfl,fun live => ⟨live,fun same => target ⟨same,live⟩⟩,And.left⟩

/-- The lines of a bill go, those of the others stay. -/
theorem filter_retired (lines : List BomLine) (i : Nat) :
    (lines.map (BomLine.retired bomId now)).filter (fun line => line.bomHeaderId = i && line.deletedAt.isNone) =
      if i = bomId then [] else lines.filter fun line => line.bomHeaderId = i && line.deletedAt.isNone := by
  by_cases same : i = bomId
  · rw [if_pos same,List.filter_eq_nil_iff]
    intro line inside live
    obtain ⟨before,_,rfl⟩ := List.mem_map.mp inside
    simp only [Bool.and_eq_true,decide_eq_true_eq,Option.isNone_iff_eq_none] at live
    obtain ⟨place,gone⟩ := retired_kept bomId before now
    exact (gone.mp live.2).2 (place.symm.trans (live.1.trans same))
  · rw [if_neg same]
    induction lines with
    | nil => rfl
    | cons line lines induction =>
      rw [List.map_cons,List.filter_cons,List.filter_cons,induction]
      by_cases mine : line.bomHeaderId = bomId
      · have other : line.bomHeaderId ≠ i := fun at_ => same (at_.symm.trans mine)
        have place := (retired_kept bomId line now).1
        simp [place,other]
      · have left : line.retired bomId now = line := if_neg fun both => mine both.1
        rw [left]

theorem activeBomLines_replaced {lines : List BomLineRequest} {headers : List BomHeader} :
    activeBomLines { s with headers := headers
                            lines := s.lines.map (BomLine.retired bomId now) ++ lines.map (newLine businessId bomId) } i =
      if i = bomId then lines.map (newLine businessId bomId) else activeBomLines s i := by
  simp only [activeBomLines,List.filter_append,filter_retired]
  by_cases same : i = bomId
  · rw [if_pos same,if_pos same,List.nil_append,List.filter_eq_self]
    intro line inside
    obtain ⟨request,_,rfl⟩ := List.mem_map.mp inside
    simp [newLine,same]
  · have nothing : (lines.map (newLine businessId bomId)).filter (fun line => line.bomHeaderId = i && line.deletedAt.isNone) = [] := by
      rw [List.filter_eq_nil_iff]
      intro line inside
      obtain ⟨request,_,rfl⟩ := List.mem_map.mp inside
      simp [newLine,Ne.symm same]
    rw [if_neg same,if_neg same,nothing,List.append_nil]

theorem findBom_some : findBom s bomId businessId = some header ↔
    s.headers[bomId]? = some header ∧ header.businessId = businessId ∧ header.deletedAt = none := by
  simp [findBom,Option.filter_eq_some_iff]

theorem getBomHeader_ok : getBomHeader s bomId businessId = .ok header ↔ findBom s bomId businessId = some header := by
  unfold getBomHeader
  split <;> simp_all

variable {active : Bool}

/-- What a bill becomes when another of its product is made active. -/
def stoodDown (active : Bool) (businessId productId : Nat) (variationId : Option Nat) (header : BomHeader) : BomHeader :=
  if active && header.isFor businessId productId variationId && header.isActive then header.deactivated else header

theorem map_stoodDown_false (headers : List BomHeader) : headers.map (stoodDown false businessId productId variationId) = headers :=
  List.map_id headers

theorem deactivate_all : (deactivateOtherActiveBoms s businessId productId variationId none).headers =
    s.headers.map (stoodDown true businessId productId variationId) := by
  refine List.ext_getElem? fun i => ?_
  rw [deactivateOtherActiveBoms,List.getElem?_mapIdx,List.getElem?_map]
  refine congrArg (Option.map · _) (funext fun header => ?_)
  simp [stoodDown]

theorem deactivate_others : (deactivateOtherActiveBoms { s with headers := s.headers.set bomId changed } businessId productId
      variationId (some bomId)).headers = (s.headers.map (stoodDown true businessId productId variationId)).set bomId changed := by
  refine List.ext_getElem? fun i => ?_
  rw [deactivateOtherActiveBoms,List.getElem?_mapIdx,List.getElem?_set,List.getElem?_set,List.getElem?_map,List.length_map]
  by_cases same : bomId = i
  · subst same
    by_cases inside : bomId < s.headers.length <;> simp [inside]
  · rw [if_neg same,if_neg same]
    refine congrArg (Option.map · _) (funext fun header => ?_)
    simp [Ne.symm same,stoodDown]

theorem stoodDown_kept (header : BomHeader) : (stoodDown active businessId productId variationId header).versionKey = header.versionKey ∧
    (stoodDown active businessId productId variationId header).deletedAt = header.deletedAt ∧
    (stoodDown active businessId productId variationId header).outputQty = header.outputQty ∧
    (stoodDown active businessId productId variationId header).businessId = header.businessId ∧
    (stoodDown active businessId productId variationId header).productId = header.productId := by
  unfold stoodDown
  split <;> exact ⟨rfl,rfl,rfl,rfl,rfl⟩

theorem stoodDown_active (header : BomHeader) :
    (stoodDown active businessId productId variationId header).activeKey = none ∨
      (stoodDown active businessId productId variationId header).activeKey = header.activeKey ∧
        (active = true → header.activeKey ≠ some (businessId,productId,variationId)) := by
  unfold stoodDown
  split
  · exact .inl (by simp [BomHeader.activeKey,BomHeader.deactivated])
  next kept =>
    refine .inr ⟨rfl,fun chosen same => kept ?_⟩
    unfold BomHeader.activeKey at same
    split at same
    next live =>
      cases same
      simp [BomHeader.isFor,live,chosen]
    · cases same

theorem stoodDown_distinct (sound : Sound s) (active : Bool) (businessId productId : Nat) (variationId : Option Nat) :
    Distinct BomHeader.activeKey (s.headers.map (stoodDown active businessId productId variationId)) ∧
    Distinct BomHeader.versionKey (s.headers.map (stoodDown active businessId productId variationId)) ∧
    (active = true → ∀ header ∈ s.headers.map (stoodDown active businessId productId variationId),
      header.activeKey ≠ some (businessId,productId,variationId)) := by
  refine ⟨?_,sound.versions.map fun header => (stoodDown_kept header).1,?_⟩
  · exact sound.active.map_of fun header => (stoodDown_active header).symm.imp_left And.left
  · intro chosen header inside same
    obtain ⟨before,_,rfl⟩ := List.mem_map.mp inside
    rcases stoodDown_active before with gone | ⟨kept,apart⟩
    · rw [gone] at same
      cases same
    · exact apart chosen (kept.symm.trans same)

theorem version_fresh {header : BomHeader} (inside : header ∈ s.headers)
    (keyed : header.versionKey = some (businessId,productId,variationId,j)) : j < nextBomVersion s businessId productId variationId := by
  unfold BomHeader.versionKey at keyed
  split at keyed
  next live =>
    cases keyed
    have listed : header.version ∈
        (s.headers.filter (BomHeader.isFor header.businessId header.productId header.variationId)).map BomHeader.version :=
      List.mem_map_of_mem (List.mem_filter.mpr ⟨inside,by simp [BomHeader.isFor,live]⟩)
    have bounded : ∀ versions : List Nat, ∀ version ∈ versions, version ≤ versions.foldr max 0 := by
      intro versions
      induction versions with
      | nil => exact fun version there => (List.not_mem_nil there).elim
      | cons first versions induction =>
        rw [List.foldr_cons]
        exact List.forall_mem_cons.mpr ⟨le_max_left _ _,fun version there => (induction version there).trans (le_max_right _ _)⟩
    exact Nat.lt_succ_of_le (bounded _ _ listed)
  · cases keyed

theorem checkOutputQty_ok {done : Unit} : checkOutputQty header = .ok done ↔ 0 < header.outputQty := by
  unfold checkOutputQty
  split
  next positive => simp [positive]
  next small => simp [small]

theorem createBomHeader_ok {data : CreateBomRequest} (done : createBomHeader s businessId data now = .ok t) :
    0 < Decimal.quantize 4 data.outputQty ∧
    Recipe businessId data.productId (data.lines.map (newLine businessId s.headers.length)) ∧
    t = { s with
      headers := s.headers.map (stoodDown data.isActive businessId data.productId data.variationId) ++
        [⟨businessId,data.productId,data.variationId,data.name,Decimal.quantize 4 data.outputQty,data.isActive,
          nextBomVersion s businessId data.productId data.variationId,none⟩]
      lines := s.lines.map (BomLine.retired s.headers.length now) ++ data.lines.map (newLine businessId s.headers.length) } := by
  obtain ⟨_,_,done⟩ := bind_ok_iff.mp done
  obtain ⟨_,_,done⟩ := bind_ok_iff.mp done
  obtain ⟨_,passed,done⟩ := bind_ok_iff.mp done
  obtain ⟨_,positive,done⟩ := bind_ok_iff.mp done
  obtain ⟨checked,rfl⟩ := replaceBomLines_ok done
  refine ⟨checkOutputQty_ok.mp positive,recipe_of_valid passed checked,?_⟩
  cases data.isActive with
  | false =>
    rw [map_stoodDown_false]
    rfl
  | true =>
    simp only [if_true,deactivate_all]
    rfl

/-- New lines for a bill, or the old ones. -/
def Lined (s t : State) (businessId bomId productId : Nat) (now : Int) : Option (List BomLineRequest) → Prop
  | none => t.lines = s.lines
  | some lines => Recipe businessId productId (lines.map (newLine businessId bomId)) ∧
      t.lines = s.lines.map (BomLine.retired bomId now) ++ lines.map (newLine businessId bomId)

theorem updateLines_ok {lines : Option (List BomLineRequest)} (done : updateLines s businessId bomId productId now lines = .ok t) :
    t.headers = s.headers ∧ Lined s t businessId bomId productId now lines := by
  cases lines with
  | none =>
    cases done
    exact ⟨rfl,rfl⟩
  | some lines =>
    obtain ⟨_,passed,done⟩ := bind_ok_iff.mp done
    obtain ⟨checked,rfl⟩ := replaceBomLines_ok done
    exact ⟨rfl,recipe_of_valid passed checked,rfl⟩

def updated (header : BomHeader) (data : UpdateBomRequest) : BomHeader :=
  { header with
    name := data.name.getD header.name
    outputQty := (data.outputQty.map (Decimal.quantize 4)).getD header.outputQty
    isActive := data.isActive.getD header.isActive }

theorem updateBomHeader_ok {data : UpdateBomRequest} (done : updateBomHeader s bomId businessId data now = .ok t) :
    ∃ header, s.headers[bomId]? = some header ∧ header.businessId = businessId ∧ header.deletedAt = none ∧
      0 < (updated header data).outputQty ∧ Lined s t businessId bomId header.productId now data.lines ∧
      t.headers = (s.headers.map (stoodDown (data.isActive = some true) businessId header.productId header.variationId)).set bomId
        (updated header data) := by
  obtain ⟨_,_,done⟩ := bind_ok_iff.mp done
  obtain ⟨header,read,done⟩ := bind_ok_iff.mp done
  obtain ⟨_,positive,done⟩ := bind_ok_iff.mp done
  obtain ⟨there,own,live⟩ := findBom_some.mp (getBomHeader_ok.mp read)
  obtain ⟨headers,lined⟩ := updateLines_ok done
  refine ⟨header,there,own,live,checkOutputQty_ok.mp positive,?_,?_⟩
  · by_cases active : data.isActive = some true
    · rw [if_pos active] at lined
      exact lined
    · rw [if_neg active] at lined
      exact lined
  · rw [headers]
    by_cases active : data.isActive = some true
    · rw [if_pos active,decide_eq_true active]
      exact deactivate_others
    · rw [if_neg active,decide_eq_false active,map_stoodDown_false]
      rfl

theorem activeBomLines_lined {lines : Option (List BomLineRequest)} (lined : Lined s t businessId bomId productId now lines) :
    activeBomLines t i = activeBomLines s i ∨ i = bomId ∧ Recipe businessId productId (activeBomLines t i) := by
  cases lines with
  | none => exact .inl (by rw [activeBomLines,activeBomLines,show t.lines = s.lines from lined])
  | some lines =>
    obtain ⟨recipe,rows⟩ := lined
    have shown := @activeBomLines_replaced s businessId bomId i now lines s.headers
    have same : activeBomLines t i = activeBomLines { s with
        lines := s.lines.map (BomLine.retired bomId now) ++ lines.map (newLine businessId bomId) } i := by
      rw [activeBomLines,activeBomLines,rows]
    rw [same]
    by_cases mine : i = bomId
    · rw [if_pos mine] at shown
      refine .inr ⟨mine,?_⟩
      rw [shown]
      exact recipe
    · rw [if_neg mine] at shown
      exact .inl shown

theorem getElem?_grown {α : Type} {rows : List α} {row other : α} :
    (rows ++ [row])[i]? = some other ↔ rows[i]? = some other ∨ i = rows.length ∧ row = other := by
  rcases Nat.lt_trichotomy i rows.length with below | rfl | above
  · simp [List.getElem?_append_left below,below.ne]
  · simp
  · have outside : rows[i]? = none := List.getElem?_eq_none above.le
    simp [List.getElem?_append_right above.le,outside,above.ne',Nat.sub_ne_zero_of_lt above]

theorem taken_false {κ : Type} [DecidableEq κ] {key : BomHeader → Option κ} {rows : List BomHeader}
    (apart : ∀ row ∈ rows, key row ≠ key header ∨ key header = none) : UniqueKeys.taken key rows header = false := by
  rw [UniqueKeys.taken,Bool.and_eq_false_iff]
  cases keyed : key header with
  | none => exact .inl rfl
  | some k =>
    right
    rw [List.any_eq_false]
    intro row inside same
    rcases apart row inside with different | gone
    · exact different ((of_decide_eq_true same).trans keyed.symm)
    · rw [keyed] at gone
      cases gone

theorem line_of_retired (sound : Sound s) (inside : line ∈ s.lines.map (BomLine.retired bomId now)) (live : line.deletedAt = none) :
    line.bomHeaderId ≠ bomId ∧ ∃ header, s.headers[line.bomHeaderId]? = some header ∧ header.deletedAt = none := by
  obtain ⟨before,there,rfl⟩ := List.mem_map.mp inside
  obtain ⟨place,gone⟩ := retired_kept bomId before now
  obtain ⟨alive,other⟩ := gone.mp live
  rw [place]
  exact ⟨other,sound.placed before there alive⟩

theorem sound_create {data : CreateBomRequest} (sound : Sound s) (done : createBomHeader s businessId data now = .ok t) :
    Sound t ∧ Lasting s t := by
  obtain ⟨positive,recipe,rfl⟩ := createBomHeader_ok done
  obtain ⟨active,versions,gone⟩ := stoodDown_distinct sound data.isActive businessId data.productId data.variationId
  refine ⟨⟨active.append ?_,versions.append ?_,?_,?_⟩,?_⟩
  · refine taken_false fun row inside => ?_
    cases chosen : data.isActive with
    | false => exact .inr (by simp [BomHeader.activeKey])
    | true => exact .inl (gone chosen row (chosen ▸ inside))
  · refine taken_false fun row inside => .inl fun same => ?_
    obtain ⟨before,there,rfl⟩ := List.mem_map.mp inside
    exact lt_irrefl _ (version_fresh there ((stoodDown_kept before).1.symm.trans same))
  · intro i header found live
    have shown := @activeBomLines_replaced s businessId s.headers.length i now data.lines
      (s.headers.map (stoodDown data.isActive businessId data.productId data.variationId) ++
        [⟨businessId,data.productId,data.variationId,data.name,Decimal.quantize 4 data.outputQty,data.isActive,
          nextBomVersion s businessId data.productId data.variationId,none⟩])
    rw [shown]
    rcases getElem?_grown.mp found with old | ⟨rfl,rfl⟩
    · rw [List.getElem?_map] at old
      obtain ⟨before,there,rfl⟩ := Option.map_eq_some_iff.mp old
      obtain ⟨_,deleted,output,business,product⟩ := @stoodDown_kept businessId data.productId data.variationId data.isActive before
      rw [if_neg (List.getElem?_eq_some_iff.mp there).1.ne,output,business,product]
      exact sound.recipes i before there (deleted.symm.trans live)
    · rw [if_pos (List.length_map _)]
      exact ⟨positive,recipe⟩
  · intro line inside live
    rcases List.mem_append.mp inside with old | new
    · obtain ⟨_,header,there,alive⟩ := line_of_retired sound old live
      refine ⟨stoodDown data.isActive businessId data.productId data.variationId header,getElem?_grown.mpr (.inl ?_),
        (stoodDown_kept header).2.1.trans alive⟩
      rw [List.getElem?_map,there]
      rfl
    · obtain ⟨request,_,rfl⟩ := List.mem_map.mp new
      exact ⟨_,getElem?_grown.mpr (.inr ⟨(List.length_map _).symm,rfl⟩),rfl⟩
  · intro i header found deleted
    have same : stoodDown data.isActive businessId data.productId data.variationId header = header := by
      simp [stoodDown,BomHeader.isFor,deleted]
    refine getElem?_grown.mpr (.inl ?_)
    rw [List.getElem?_map,found,Option.map_some,same]

theorem updated_kept (header : BomHeader) (data : UpdateBomRequest) : (updated header data).versionKey = header.versionKey ∧
    (updated header data).deletedAt = header.deletedAt ∧ (updated header data).businessId = header.businessId ∧
    (updated header data).productId = header.productId := ⟨rfl,rfl,rfl,rfl⟩

theorem sound_update {data : UpdateBomRequest} (sound : Sound s) (done : updateBomHeader s bomId businessId data now = .ok t) :
    Sound t ∧ Lasting s t := by
  obtain ⟨header,there,own,live,positive,lined,headers⟩ := updateBomHeader_ok done
  obtain ⟨active,versions,gone⟩ :=
    stoodDown_distinct sound (data.isActive = some true) businessId header.productId header.variationId
  have down : (s.headers.map (stoodDown (data.isActive = some true) businessId header.productId header.variationId))[bomId]? =
      some (stoodDown (data.isActive = some true) businessId header.productId header.variationId header) := by
    rw [List.getElem?_map,there]
    rfl
  have own_place : t.headers[bomId]? = some (updated header data) := by
    rw [headers]
    exact List.getElem?_set_self (List.getElem?_eq_some_iff.mp down).1
  have other_place : ∀ i, i ≠ bomId → t.headers[i]? = (s.headers[i]?).map
      (stoodDown (data.isActive = some true) businessId header.productId header.variationId) := by
    intro i apart
    rw [headers,List.getElem?_set_ne (Ne.symm apart),List.getElem?_map]
  have stands : ∀ (i : Nat) (before : BomHeader), s.headers[i]? = some before → before.deletedAt = none →
      ∃ later : BomHeader, t.headers[i]? = some later ∧ later.deletedAt = none := by
    intro i before here alive
    by_cases same : i = bomId
    · exact ⟨updated header data,same ▸ own_place,live⟩
    · refine ⟨stoodDown (data.isActive = some true) businessId header.productId header.variationId before,?_,
        (stoodDown_kept before).2.1.trans alive⟩
      rw [other_place i same,here]
      rfl
  refine ⟨⟨?_,?_,?_,?_⟩,?_⟩
  · rw [headers]
    cases chosen : data.isActive with
    | none =>
      have same : (updated header data).activeKey = header.activeKey := by simp [BomHeader.activeKey,updated,chosen]
      rw [decide_eq_false (by simp),map_stoodDown_false]
      exact sound.active.set_same there same
    | some active_now =>
      cases active_now with
      | false =>
        rw [decide_eq_false (by simp),map_stoodDown_false]
        exact sound.active.set_of there (.inr (by simp [BomHeader.activeKey,updated,chosen]))
      | true =>
        rw [chosen] at active gone
        refine active.set (taken_false fun row inside => .inl ?_)
        have keyed : (updated header data).activeKey = some (businessId,header.productId,header.variationId) := by
          simp [BomHeader.activeKey,updated,chosen,live,own]
        rw [keyed]
        exact gone (decide_eq_true rfl) row (List.mem_of_mem_eraseIdx inside)
  · rw [headers]
    exact versions.set_same down ((updated_kept header data).1.trans (stoodDown_kept header).1.symm)
  · intro i later found alive
    by_cases same : i = bomId
    · subst same
      cases own_place.symm.trans found
      refine ⟨positive,?_⟩
      rcases activeBomLines_lined lined (i := i) with kept | ⟨_,recipe⟩
      · rw [kept]
        exact (sound.recipes i header there live).2
      · exact own ▸ recipe
    · rw [other_place i same] at found
      obtain ⟨before,here,rfl⟩ := Option.map_eq_some_iff.mp found
      obtain ⟨_,deleted,output,business,product⟩ :=
        @stoodDown_kept businessId header.productId header.variationId (data.isActive = some true) before
      have kept : activeBomLines t i = activeBomLines s i := (activeBomLines_lined lined).resolve_right fun both => same both.1
      rw [kept,output,business,product]
      exact sound.recipes i before here (deleted.symm.trans alive)
  · intro line inside alive
    cases given : data.lines with
    | none =>
      rw [given] at lined
      rw [show t.lines = s.lines from lined] at inside
      obtain ⟨before,here,standing⟩ := sound.placed line inside alive
      exact stands _ before here standing
    | some lines =>
      rw [given] at lined
      rw [lined.2] at inside
      rcases List.mem_append.mp inside with old | new
      · obtain ⟨_,before,here,standing⟩ := line_of_retired sound old alive
        exact stands _ before here standing
      · obtain ⟨request,_,rfl⟩ := List.mem_map.mp new
        exact stands _ header there live
  · intro i before found deleted
    have apart : i ≠ bomId := by
      rintro rfl
      cases there.symm.trans found
      exact deleted live
    have same : stoodDown (data.isActive = some true) businessId header.productId header.variationId before = before := by
      simp [stoodDown,BomHeader.isFor,deleted]
    rw [other_place i apart,found,Option.map_some,same]

theorem sound_delete (sound : Sound s) (done : deleteBomHeader s bomId businessId now = .ok t) : Sound t ∧ Lasting s t := by
  obtain ⟨header,read,done⟩ := bind_ok_iff.mp done
  obtain ⟨there,own,live⟩ := findBom_some.mp (getBomHeader_ok.mp read)
  cases done
  have shown : ∀ i, i ≠ bomId → activeBomLines { s with
      headers := s.headers.set bomId { header with deletedAt := some now, isActive := false }
      lines := s.lines.map (BomLine.retired bomId now) } i = activeBomLines s i := by
    intro i apart
    simp only [activeBomLines,filter_retired,if_neg apart]
  refine ⟨⟨?_,?_,?_,?_⟩,?_⟩
  · exact sound.active.set_of there (.inr (by simp [BomHeader.activeKey]))
  · exact sound.versions.set_of there (.inr (by simp [BomHeader.versionKey]))
  · intro i later found alive
    by_cases same : bomId = i
    · subst same
      rw [List.getElem?_set_self (List.getElem?_eq_some_iff.mp there).1] at found
      cases found
      cases alive
    · rw [List.getElem?_set_ne same] at found
      rw [shown i (Ne.symm same)]
      exact sound.recipes i later found alive
  · intro line inside alive
    obtain ⟨apart,before,here,standing⟩ := line_of_retired sound inside alive
    exact ⟨before,(List.getElem?_set_ne (Ne.symm apart)).trans here,standing⟩
  · intro i before found deleted
    have apart : bomId ≠ i := by
      rintro rfl
      cases there.symm.trans found
      exact deleted live
    exact (List.getElem?_set_ne apart).trans found

theorem sound_answer {request : Request} (sound : Sound s) (done : answer s request = .ok t) : Sound t ∧ Lasting s t := by
  cases request with
  | createBomHeader businessId data now => exact sound_create sound done
  | updateBomHeader bomId businessId data now => exact sound_update sound done
  | deleteBomHeader bomId businessId now => exact sound_delete sound done
  | others around =>
    cases done
    exact ⟨⟨sound.active,sound.versions,sound.recipes,sound.placed⟩,fun _ _ found _ => found⟩

theorem sound_reached (requests : List Request) : Sound (reached requests) := by
  refine Service.run_invariant (fun _ _ _ sound done => (sound_answer sound done).1) ⟨Distinct.nil,Distinct.nil,?_,?_⟩ requests
  · intro i header found
    cases found
  · intro line inside
    cases inside

theorem lasting_reached (requests more : List Request) : Lasting (reached requests) (reached (requests ++ more)) := by
  rw [reached,reached,Service.run_append]
  refine Service.run_relation (fun _ _ _ found _ => found) ?_ (fun _ _ _ sound done => sound_answer sound done)
    (sound_reached requests) more
  exact fun s t u first second i header found deleted => second i header (first i header found deleted) deleted

theorem verifyActiveBom_eq (sound : Sound s) (found : findBom s bomId businessId = some header) :
    verifyActiveBom s bomId businessId =
      if header.isActive then .ok header else .error (.http 400 "Production order requires an active BOM") := by
  obtain ⟨there,_,live⟩ := findBom_some.mp found
  have lines : (activeBomLines s bomId).isEmpty = false := by
    rw [List.isEmpty_eq_false_iff]
    exact (sound.recipes bomId header there live).2.nonempty
  rw [verifyActiveBom,found]
  simp only [lines]
  cases header.isActive <;> rfl

theorem production_lines (sound : Sound s) (found : findBom s bomId businessId = some header) :
    ∃ lines, getBomLinesForProduction s bomId businessId = .ok lines ∧ lines.Perm (activeBomLines s bomId) := by
  obtain ⟨there,own,live⟩ := findBom_some.mp found
  have recipe := (sound.recipes bomId header there live).2
  have all_own : (activeBomLines s bomId).filter (·.businessId = businessId) = activeBomLines s bomId := by
    rw [List.filter_eq_self]
    intro line inside
    exact decide_eq_true ((recipe.each line inside).1.trans own)
  have perm := List.mergeSort_perm (activeBomLines s bomId) fun a b => decide (a.sortOrder ≤ b.sortOrder)
  refine ⟨_,?_,perm⟩
  rw [getBomLinesForProduction,all_own]
  refine if_neg ?_
  rw [List.isEmpty_iff]
  intro nothing
  rw [nothing] at perm
  exact recipe.nonempty perm.nil_eq.symm

theorem preview_eq (sound : Sound s) (found : findBom s bomId businessId = some header) (qtyToProduce : ℚ) :
    ∃ rows, previewBomRequirements s businessId bomId qtyToProduce = .ok rows ∧
      rows.map (fun row => (row.1,row.2.2)) = (activeBomLines s bomId).map fun line =>
        (line,Stock.computeIngredientQtyForProduction line.recipe header.outputQty qtyToProduce) := by
  obtain ⟨there,_,live⟩ := findBom_some.mp found
  have positive := (sound.recipes bomId header there live).1
  rw [previewBomRequirements,getBomHeader_ok.mpr found]
  simp only [Outcome.ok_bind,computeIngredientQty,if_neg positive.not_ge,Except.map]
  generalize activeBomLines s bomId = lines
  induction lines with
  | nil => exact ⟨[],rfl,rfl⟩
  | cons line lines induction =>
    obtain ⟨rows,done,same⟩ := induction
    rw [List.mapM_cons,Outcome.ok_bind,done]
    exact ⟨_,rfl,congrArg _ same⟩

theorem deleted_unproducible (sound : Sound s) (found : s.headers[bomId]? = some header) (deleted : header.deletedAt ≠ none)
    (businessId : Nat) : verifyActiveBom s bomId businessId = .error (.http 400 "BOM not found") ∧
      getBomLinesForProduction s bomId businessId = .error (.http 400 "BOM has no ingredient lines") := by
  have unfound : findBom s bomId businessId = none := by
    cases there : findBom s bomId businessId with
    | none => rfl
    | some other =>
      obtain ⟨here,_,live⟩ := findBom_some.mp there
      cases found.symm.trans here
      exact absurd live deleted
  have bare : activeBomLines s bomId = [] := by
    rw [activeBomLines,List.filter_eq_nil_iff]
    intro line inside chosen
    simp only [Bool.and_eq_true,decide_eq_true_eq,Option.isNone_iff_eq_none] at chosen
    obtain ⟨other,here,live⟩ := sound.placed line inside chosen.2
    rw [chosen.1] at here
    cases found.symm.trans here
    exact deleted live
  rw [verifyActiveBom,unfound,getBomLinesForProduction,bare]
  exact ⟨rfl,by simp⟩

/-- In every run two bills of one product are neither both active nor of one version. Every bill that is not deleted has a
recipe: production asks only whether it is active, takes all its lines, and takes of each what the preview said. A deleted one
is produced from no more. -/
theorem boms_kept (requests more : List Request) :
    (∀ (i j : Nat) (first second : BomHeader), (reached requests).headers[i]? = some first → (reached requests).headers[j]? = some second →
      first.deletedAt = none → second.deletedAt = none → first.businessId = second.businessId →
      first.productId = second.productId → first.variationId = second.variationId →
      first.isActive = true ∧ second.isActive = true ∨ first.version = second.version → i = j) ∧
    (∀ (bomId businessId : Nat) (bom : BomHeader), findBom (reached requests) bomId businessId = some bom →
      0 < bom.outputQty ∧ Recipe businessId bom.productId (activeBomLines (reached requests) bomId) ∧
      verifyActiveBom (reached requests) bomId businessId =
        (if bom.isActive then .ok bom else .error (.http 400 "Production order requires an active BOM")) ∧
      (∃ lines, getBomLinesForProduction (reached requests) bomId businessId = .ok lines ∧
        lines.Perm (activeBomLines (reached requests) bomId)) ∧
      ∀ qtyToProduce, ∃ rows, previewBomRequirements (reached requests) businessId bomId qtyToProduce = .ok rows ∧
        rows.map (fun row => (row.1,row.2.2)) = (activeBomLines (reached requests) bomId).map fun line =>
          (line,Stock.computeIngredientQtyForProduction line.recipe bom.outputQty qtyToProduce)) ∧
    (∀ (bomId : Nat) (bom : BomHeader) (businessId : Nat), (reached requests).headers[bomId]? = some bom → bom.deletedAt ≠ none →
      verifyActiveBom (reached (requests ++ more)) bomId businessId = .error (.http 400 "BOM not found") ∧
      getBomLinesForProduction (reached (requests ++ more)) bomId businessId =
        .error (.http 400 "BOM has no ingredient lines")) := by
  have sound := sound_reached requests
  refine ⟨?_,?_,?_⟩
  · intro i j first second here there live alive business product variation alike
    rcases alike with ⟨left,right⟩ | version
    · exact sound.active.place here there (if_pos ⟨live,left⟩)
        ((if_pos ⟨alive,right⟩).trans (by rw [business,product,variation]))
    · exact sound.versions.place here there (if_pos live) ((if_pos alive).trans (by rw [business,product,variation,version]))
  · intro bomId businessId bom found
    obtain ⟨there,own,live⟩ := findBom_some.mp found
    obtain ⟨positive,recipe⟩ := sound.recipes bomId bom there live
    exact ⟨positive,own ▸ recipe,verifyActiveBom_eq sound found,production_lines sound found,preview_eq sound found⟩
  · intro bomId bom businessId found deleted
    exact deleted_unproducible (sound_reached (requests ++ more)) (lasting_reached requests more bomId bom found deleted) deleted
      businessId

end Boms
