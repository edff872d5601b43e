import SasBackend.Library.Decimal
import SasBackend.Semantics.Prices

/-! A price is found in one place, its changes are all told, and who may not override it charges it.
-/
namespace Prices
open Outcome (bind_ok_iff)
open Service (Refusal refuseIf_ok map_ok_iff mapError_ok_iff scalarOneOrNone)
open UniqueKeys (Distinct lookup lookup_append lookup_eq_none lookup_key lookup_mem)
open Billing (CreateSaleLineRequest CreateSaleRequest PricePreview)

variable {s t : State} {businessId productId listId i : Nat} {variationId : Option Nat} {item row : PriceListItem} {price : ℚ}

def PriceList.defaultKey (row : PriceList) : Option Nat :=
  if row.deletedAt = none ∧ row.isDefault = true then some row.businessId else none

def PriceListItem.liveKey (row : PriceListItem) : Option (Nat × Nat × Nat × Option Nat) :=
  if row.deletedAt = none then some (row.priceListId,row.productId,row.businessId,row.variationId) else none

/-- The price a row has by the audit log alone; nothing where an entry does not go on from the price before it. -/
def recordedOne (i : Nat) (before : Option ℚ) (entry : AuditLog) : Option (Option ℚ) :=
  if entry.recordId ≠ i then some before
  else if entry.oldPrice = before then some (some (Decimal.quantize 2 entry.newPrice)) else none

def recorded (i : Nat) (entries : List AuditLog) : Option (Option ℚ) := entries.foldlM (recordedOne i) none

structure Sound (s : State) : Prop where
  defaults : Distinct PriceList.defaultKey s.lists
  live : Distinct PriceListItem.liveKey s.items
  scaled : ∀ row ∈ s.items, row.unitPrice ∈ Decimal.grid 2
  audited : ∀ i, recorded i s.auditLogs = some (s.items[i]?.map PriceListItem.unitPrice)

theorem isFor_iff : row.isFor listId productId businessId variationId = true ↔
    row.liveKey = some (listId,productId,businessId,variationId) := by
  unfold PriceListItem.isFor PriceListItem.liveKey
  by_cases live : row.deletedAt = none
  · simp [live,and_assoc]
  · simp [live]

def priceAt (s : State) (listId productId businessId : Nat) (variationId : Option Nat) : Option ℚ :=
  (lookup PriceListItem.liveKey s.items (listId,productId,businessId,variationId)).map PriceListItem.unitPrice

theorem itemsFor_cases (sound : Sound s) (listId productId businessId : Nat) (variationId : Option Nat) :
    s.itemsFor listId productId businessId variationId = [] ∧
        lookup PriceListItem.liveKey s.items (listId,productId,businessId,variationId) = none ∨
      ∃ i row, s.items[i]? = some row ∧ s.itemsFor listId productId businessId variationId = [(row,i)] ∧
        lookup PriceListItem.liveKey s.items (listId,productId,businessId,variationId) = some row ∧
        row.liveKey = some (listId,productId,businessId,variationId) :=
  sound.live.places fun _ => isFor_iff

theorem priceIn_some (sound : Sound s) : priceIn s businessId productId variationId (some listId) =
    .ok (priceAt s listId productId businessId variationId) := by
  rcases itemsFor_cases sound listId productId businessId variationId with ⟨nothing,absent⟩ | ⟨i,row,_,single,found,_⟩
  · rw [priceIn,priceAt,nothing,absent]
    rfl
  · rw [priceIn,priceAt,single,found]
    rfl

def isDefaultOf (businessId : Nat) (row : PriceList) : Bool :=
  row.businessId = businessId && row.deletedAt.isNone && row.isDefault

theorem isDefaultOf_iff {row : PriceList} : isDefaultOf businessId row = true ↔ row.defaultKey = some businessId := by
  unfold isDefaultOf PriceList.defaultKey
  by_cases target : row.deletedAt = none ∧ row.isDefault = true
  · simp [target]
  · rw [if_neg target]
    simp only [Bool.and_eq_true,decide_eq_true_eq,Option.isNone_iff_eq_none,reduceCtorEq,iff_false]
    exact fun all => target ⟨all.1.2,all.2⟩

theorem targetList_none : targetList s businessId none =
    (scalarOneOrNone (s.lists.zipIdx.filter fun row => isDefaultOf businessId row.1)).map fun found => found.map (·.2) := rfl

theorem insertItem_ok (done : insertItem s row = .ok t) : t = { s with items := s.items ++ [row] } := by
  unfold insertItem at done
  split at done <;> cases done
  rfl

theorem setItem_ok (done : setItem s i row = .ok t) : t = { s with items := s.items.set i row } := by
  unfold setItem at done
  split at done <;> cases done
  rfl

/-- The price of a row that is there. -/
def priced (item : PriceListItem) (data : SetPriceRequest) : PriceListItem :=
  { item with unitPrice := Decimal.quantize 2 data.unitPrice, minQty := Decimal.quantize 4 data.minQty }

def newItem (listId businessId : Nat) (data : SetPriceRequest) : PriceListItem :=
  ⟨businessId,listId,data.productId,data.variationId,Decimal.quantize 2 data.unitPrice,Decimal.quantize 4 data.minQty,none⟩

/-- A row changed or a new one, with its entry. -/
theorem setPrice_ok {data : SetPriceRequest} {user : Nat} (sound : Sound s)
    (done : setPrice s listId businessId data user = .ok t) :
    (∃ item i, s.items[i]? = some item ∧ item.liveKey = some (listId,data.productId,businessId,data.variationId) ∧
      t = { s with
        items := s.items.set i (priced item data),
        auditLogs := s.auditLogs ++
          [⟨businessId,user,"update",i,some item.unitPrice,data.unitPrice,data.minQty⟩] }) ∨
    (lookup PriceListItem.liveKey s.items (listId,data.productId,businessId,data.variationId) = none ∧
      t = { s with
        items := s.items ++ [newItem listId businessId data],
        auditLogs := s.auditLogs ++
          [⟨businessId,user,"create",s.items.length,none,data.unitPrice,data.minQty⟩] }) := by
  obtain ⟨_,_,done⟩ := bind_ok_iff.mp done
  obtain ⟨_,_,done⟩ := bind_ok_iff.mp done
  obtain ⟨_,_,done⟩ := bind_ok_iff.mp done
  obtain ⟨_,_,done⟩ := bind_ok_iff.mp done
  obtain ⟨found,read,done⟩ := bind_ok_iff.mp done
  obtain ⟨⟨u,j⟩,put,done⟩ := bind_ok_iff.mp done
  cases done
  rcases itemsFor_cases sound listId data.productId businessId data.variationId with
    ⟨nothing,absent⟩ | ⟨i,item,there,single,_,keyed⟩
  · rw [nothing] at read
    cases read
    obtain ⟨v,written,same⟩ := map_ok_iff.mp put
    cases same
    cases insertItem_ok written
    exact .inr ⟨absent,rfl⟩
  · rw [single] at read
    cases read
    obtain ⟨v,written,same⟩ := map_ok_iff.mp put
    cases same
    cases setItem_ok written
    exact .inl ⟨item,_,there,keyed,rfl⟩

theorem recorded_append {entries : List AuditLog} {entry : AuditLog} :
    recorded i (entries ++ [entry]) = (recorded i entries).bind fun before => recordedOne i before entry := by
  simp [recorded,List.foldlM_append]

theorem liveKey_priced (item : PriceListItem) (data : SetPriceRequest) : (priced item data).liveKey = item.liveKey := rfl

theorem sound_setPrice {data : SetPriceRequest} {user : Nat} (sound : Sound s)
    (done : setPrice s listId businessId data user = .ok t) : Sound t := by
  have rounded := Decimal.quantize_mem_grid 2 data.unitPrice
  rcases setPrice_ok sound done with ⟨item,i,there,_,rfl⟩ | ⟨absent,rfl⟩
  · refine ⟨sound.defaults,sound.live.set_same there (liveKey_priced item data),?_,?_⟩
    · intro row inside
      rcases List.mem_or_eq_of_mem_set inside with old | rfl
      · exact sound.scaled row old
      · exact rounded
    · intro j
      rw [recorded_append,sound.audited j,List.getElem?_set]
      obtain ⟨bound,held⟩ := List.getElem?_eq_some_iff.mp there
      by_cases same : i = j
      · subst same
        simp [recordedOne,held,bound,priced]
      · simp [recordedOne,same]
  · refine ⟨sound.defaults,?_,?_,?_⟩
    · refine sound.live.append ?_
      rw [UniqueKeys.taken,Bool.and_eq_false_iff]
      right
      rw [List.any_eq_false]
      exact fun row inside same => lookup_eq_none.mp absent row inside (of_decide_eq_true same)
    · intro row inside
      rcases List.mem_append.mp inside with old | new
      · exact sound.scaled row old
      · cases List.mem_singleton.mp new
        exact rounded
    · intro j
      rw [recorded_append,sound.audited j]
      rcases Nat.lt_trichotomy j s.items.length with below | rfl | above
      · have apart : s.items.length ≠ j := below.ne'
        simp [recordedOne,apart,List.getElem?_append_left below]
      · simp [recordedOne,newItem]
      · have apart : s.items.length ≠ j := above.ne
        have outside : s.items[j]? = none := List.getElem?_eq_none above.le
        simp [recordedOne,apart,outside,List.getElem?_append_right above.le,Nat.sub_ne_zero_of_lt above]

theorem demoted_kept (row : PriceList) : (row.demoted businessId).defaultKey = if row.defaultKey = some businessId then none else row.defaultKey := by
  unfold PriceList.demoted PriceList.defaultKey
  by_cases target : row.deletedAt = none ∧ row.isDefault = true
  · by_cases own : row.businessId = businessId
    · simp [target,own]
    · simp [target,own]
  · have left : ¬(row.businessId = businessId ∧ row.deletedAt = none ∧ row.isDefault = true) := fun all => target all.2
    simp [target]

theorem distinct_demoted {lists : List PriceList} (distinct : Distinct PriceList.defaultKey lists) :
    Distinct PriceList.defaultKey (lists.map (PriceList.demoted businessId)) ∧
      ∀ row ∈ lists.map (PriceList.demoted businessId), row.defaultKey ≠ some businessId := by
  have gone : ∀ row ∈ lists.map (PriceList.demoted businessId), row.defaultKey ≠ some businessId := by
    intro row inside same
    obtain ⟨before,_,rfl⟩ := List.mem_map.mp inside
    rw [demoted_kept] at same
    split at same
    · cases same
    · exact absurd same (by assumption)
  refine ⟨?_,gone⟩
  have kept : (lists.map (PriceList.demoted businessId)).filterMap PriceList.defaultKey =
      (lists.filterMap PriceList.defaultKey).filter (· ≠ businessId) := by
    rw [List.filterMap_map,List.filter_filterMap]
    refine List.filterMap_congr fun row _ => ?_
    rw [Function.comp,demoted_kept]
    cases row.defaultKey with
    | none => simp
    | some key => by_cases same : key = businessId <;> simp [same,Option.filter]
  rw [Distinct,kept]
  exact distinct.filter _

theorem insertPriceList_ok {list : PriceList} (done : insertPriceList s list = .ok t) : t = { s with lists := s.lists ++ [list] } := by
  unfold insertPriceList at done
  split at done <;> cases done
  rfl

theorem createPriceList_ok {data : CreatePriceListRequest} (done : createPriceList s businessId data = .ok t) :
    t = { s with lists := (if data.isDefault then s.lists.map (PriceList.demoted businessId) else s.lists) ++
      [⟨businessId,data.name,data.listType,data.isDefault,data.validFrom,data.validTo,none⟩] } := by
  obtain ⟨_,_,done⟩ := bind_ok_iff.mp done
  exact insertPriceList_ok done

theorem sound_createPriceList {data : CreatePriceListRequest} (sound : Sound s)
    (done : createPriceList s businessId data = .ok t) : Sound t := by
  cases createPriceList_ok done
  refine ⟨?_,sound.live,sound.scaled,sound.audited⟩
  cases chosen : data.isDefault with
  | false =>
    refine Distinct.append sound.defaults ?_
    simp [UniqueKeys.taken,PriceList.defaultKey]
  | true =>
    obtain ⟨distinct,gone⟩ := @distinct_demoted businessId _ sound.defaults
    refine distinct.append ?_
    rw [UniqueKeys.taken,Bool.and_eq_false_iff]
    right
    rw [List.any_eq_false]
    intro row inside same
    exact gone row inside (of_decide_eq_true same)

theorem swept_kept (row : PriceListItem) (now : Int) : (row.swept productId businessId now).unitPrice = row.unitPrice ∧
    ((row.swept productId businessId now).liveKey = row.liveKey ∨ (row.swept productId businessId now).liveKey = none) := by
  unfold PriceListItem.swept
  split
  · exact ⟨rfl,.inr (by simp [PriceListItem.liveKey])⟩
  · exact ⟨rfl,.inl rfl⟩

theorem sound_deleteProduct {now : Int} (sound : Sound s) (done : deleteProduct s productId businessId now = .ok t) : Sound t := by
  obtain ⟨_,_,done⟩ := bind_ok_iff.mp done
  cases done
  refine ⟨sound.defaults,?_,?_,fun i => ?_⟩
  · exact sound.live.map_of fun row => (swept_kept row now).2
  · intro row inside
    obtain ⟨before,there,rfl⟩ := List.mem_map.mp inside
    rw [(swept_kept before now).1]
    exact sound.scaled before there
  · rw [sound.audited i,List.getElem?_map,Option.map_map]
    have same : PriceListItem.unitPrice ∘ PriceListItem.swept productId businessId now = PriceListItem.unitPrice :=
      funext fun row => (swept_kept row now).1
    rw [same]

theorem sound_answer {request : Request} (sound : Sound s) (done : answer s request = .ok t) : Sound t := by
  cases request with
  | createPriceList businessId data => exact sound_createPriceList sound done
  | setPrice listId businessId data user => exact sound_setPrice sound done
  | deleteProduct productId businessId now => exact sound_deleteProduct sound done
  | others products variations =>
    cases done
    exact ⟨sound.defaults,sound.live,sound.scaled,sound.audited⟩

theorem sound_init : Sound .init :=
  ⟨Distinct.nil,Distinct.nil,fun _ inside => (List.not_mem_nil inside).elim,fun _ => rfl⟩

theorem sound_reached (requests : List Request) : Sound (reached requests) :=
  Service.run_invariant (fun _ _ _ sound done => sound_answer sound done) sound_init requests

/-- The new price, at the place it was set for and nowhere else. -/
theorem priceAt_setPrice {data : SetPriceRequest} {user : Nat} (sound : Sound s)
    (done : setPrice s listId businessId data user = .ok t) (otherList otherProduct otherBusiness : Nat) (otherVariation : Option Nat) :
    priceAt t otherList otherProduct otherBusiness otherVariation =
      if (listId,data.productId,businessId,data.variationId) = (otherList,otherProduct,otherBusiness,otherVariation) then
        some (Decimal.quantize 2 data.unitPrice)
      else priceAt s otherList otherProduct otherBusiness otherVariation := by
  rcases setPrice_ok sound done with ⟨item,i,there,keyed,rfl⟩ | ⟨absent,rfl⟩
  · have changed := (liveKey_priced item data).trans keyed
    simp only [priceAt]
    rw [sound.live.lookup_set there (.inl (liveKey_priced item data))]
    simp only [changed,keyed,Option.some_inj]
    split <;> rfl
  · have keyed : (newItem listId businessId data).liveKey = some (listId,data.productId,businessId,data.variationId) := rfl
    simp only [priceAt]
    rw [lookup_append]
    simp only [keyed,Option.some_inj]
    split
    next same =>
      rw [← same,absent]
      rfl
    · rw [Option.or_none]

theorem getProductPrice_eq (sound : Sound s) (asked : Option Nat) : getProductPrice s businessId productId variationId asked =
    (targetList s businessId asked).map fun list => list.bind fun listId => priceAt s listId productId businessId variationId := by
  unfold getProductPrice
  cases targetList s businessId asked with
  | error refusal => rfl
  | ok list =>
    cases list with
    | none => rfl
    | some listId => exact priceIn_some sound

theorem targetList_congr (same : t.lists = s.lists) (asked : Option Nat) :
    targetList t businessId asked = targetList s businessId asked := by
  cases asked <;> simp only [targetList,getPriceListById,same]

/-- The prices of the product are gone, and no others. -/
theorem priceAt_deleteProduct {now : Int} (sound : Sound s) (done : deleteProduct s productId businessId now = .ok t)
    (otherList otherProduct otherBusiness : Nat) (otherVariation : Option Nat) :
    priceAt t otherList otherProduct otherBusiness otherVariation =
      if otherProduct = productId ∧ otherBusiness = businessId then none
      else priceAt s otherList otherProduct otherBusiness otherVariation := by
  obtain ⟨_,_,done⟩ := bind_ok_iff.mp done
  cases done
  simp only [priceAt]
  rw [sound.live.lookup_map fun row => (swept_kept row now).2]
  cases found : lookup PriceListItem.liveKey s.items (otherList,otherProduct,otherBusiness,otherVariation) with
  | none => simp
  | some row =>
    have keyed := isFor_iff.mpr (lookup_key found)
    simp only [PriceListItem.isFor,Bool.and_eq_true,decide_eq_true_eq,Option.isNone_iff_eq_none] at keyed
    obtain ⟨⟨⟨⟨_,product⟩,business⟩,alive⟩,_⟩ := keyed
    by_cases gone : otherProduct = productId ∧ otherBusiness = businessId
    · simp [PriceListItem.swept,PriceListItem.liveKey,product,business,alive,gone]
    · have kept : row.swept productId businessId now = row := by
        rw [PriceListItem.swept,if_neg]
        rw [product,business]
        exact fun all => gone ⟨all.1,all.2.1⟩
      simp [kept,lookup_key found,gone]

theorem targetList_createPriceList {data : CreatePriceListRequest} (sound : Sound s)
    (done : createPriceList s businessId data = .ok t) :
    targetList t businessId none = if data.isDefault then .ok (some s.lists.length) else targetList s businessId none := by
  cases createPriceList_ok done
  rw [targetList_none,targetList_none,List.zipIdx_append,List.filter_append]
  cases chosen : data.isDefault with
  | false => simp [isDefaultOf]
  | true =>
    obtain ⟨_,gone⟩ := @distinct_demoted businessId _ sound.defaults
    have nothing : (s.lists.map (PriceList.demoted businessId)).zipIdx.filter (fun row => isDefaultOf businessId row.1) = [] := by
      refine List.filter_eq_nil_iff.mpr fun entry inside own => ?_
      exact gone entry.1 (List.mem_of_getElem? (List.mem_zipIdx_iff_getElem?.mp inside)) (isDefaultOf_iff.mp own)
    simp only [if_true,nothing]
    simp [isDefaultOf,scalarOneOrNone,Except.map]

/-- The default list of another business stays. -/
theorem targetList_other {data : CreatePriceListRequest} {business : Nat} (other : business ≠ businessId)
    (done : createPriceList s businessId data = .ok t) : targetList t business none = targetList s business none := by
  cases createPriceList_ok done
  have kept : ∀ row : PriceList, isDefaultOf business (row.demoted businessId) = isDefaultOf business row ∧
      (isDefaultOf business row = true → row.demoted businessId = row) := by
    intro row
    unfold PriceList.demoted
    split
    next all => simp [isDefaultOf,all.1,other.symm]
    · simp
  have demoted : ((s.lists.map (PriceList.demoted businessId)).zipIdx.filter fun row => isDefaultOf business row.1) =
      s.lists.zipIdx.filter fun row => isDefaultOf business row.1 := by
    rw [List.zipIdx_map,List.filter_map]
    have same : ((fun row : PriceList × Nat => isDefaultOf business row.1) ∘ Prod.map (PriceList.demoted businessId) id) =
        fun row => isDefaultOf business row.1 := funext fun row => (kept row.1).1
    rw [same]
    refine (List.map_congr_left fun row inside => ?_).trans (List.map_id _)
    exact Prod.ext ((kept row.1).2 (List.mem_filter.mp inside).2) rfl
  have new : isDefaultOf business ⟨businessId,data.name,data.listType,data.isDefault,data.validFrom,data.validTo,none⟩ = false := by
    simp [isDefaultOf,other.symm]
  rw [targetList_none,targetList_none,List.zipIdx_append,List.filter_append]
  simp only [List.zipIdx_cons,List.zipIdx_nil,List.filter_cons,new,List.filter_nil,Bool.false_eq_true,if_false,List.append_nil]
  split
  · rw [demoted]
  · rfl

/-- What the accepted requests come to: the business of each list, the default list of each business, and the price at each
list, product, business and variation. -/
structure Account where
  owners : List Nat
  default : Nat → Option Nat
  prices : Nat × Nat × Nat × Option Nat → Option ℚ

def Account.init : Account := ⟨[],fun _ => none,fun _ => none⟩

def Account.told (account : Account) : Request → Account
  | .createPriceList businessId data => { account with
      owners := account.owners ++ [businessId]
      default := if data.isDefault then Function.update account.default businessId (some account.owners.length)
        else account.default }
  | .setPrice priceListId businessId data _ => { account with
      prices := Function.update account.prices (priceListId,data.productId,businessId,data.variationId)
        (some (Decimal.quantize 2 data.unitPrice)) }
  | .deleteProduct productId businessId _ => { account with
      prices := fun place => if place.2.1 = productId ∧ place.2.2.1 = businessId then none else account.prices place }
  | .others _ _ => account

/-- The price in the list that is asked for, or in the default list. -/
def Account.find (account : Account) (businessId productId : Nat) (variationId : Option Nat) :
    Option Nat → Except Refusal (Option ℚ)
  | some listId =>
    if account.owners[listId]? = some businessId then .ok (account.prices (listId,productId,businessId,variationId))
    else .error (.http 404 "Price list not found")
  | none => .ok ((account.default businessId).bind fun listId => account.prices (listId,productId,businessId,variationId))

def account (requests : List Request) : Account := (Service.accepted answer .init requests).foldl Account.told .init

structure Tells (s : State) (account : Account) : Prop where
  owners : s.lists.map PriceList.businessId = account.owners
  alive : ∀ row ∈ s.lists, row.deletedAt = none
  default : ∀ businessId, targetList s businessId none = .ok (account.default businessId)
  prices : ∀ listId productId businessId variationId,
    priceAt s listId productId businessId variationId = account.prices (listId,productId,businessId,variationId)

theorem Tells.asked {account : Account} (tells : Tells s account) (listId : Nat) : targetList s businessId (some listId) =
    if account.owners[listId]? = some businessId then .ok (some listId) else .error (.http 404 "Price list not found") := by
  rw [targetList,getPriceListById,← tells.owners,List.getElem?_map]
  cases found : s.lists[listId]? with
  | none => rfl
  | some row =>
    have alive := tells.alive row (List.mem_of_getElem? found)
    by_cases own : row.businessId = businessId <;> simp [own,alive,Option.filter,Except.map]

theorem Tells.createPriceList {account : Account} {data : CreatePriceListRequest} (sound : Sound s) (tells : Tells s account)
    (done : createPriceList s businessId data = .ok t) : Tells t (account.told (.createPriceList businessId data)) := by
  have length : s.lists.length = account.owners.length := by rw [← tells.owners,List.length_map]
  refine ⟨?_,?_,fun business => ?_,?_⟩
  · cases createPriceList_ok done
    have own : PriceList.businessId ∘ PriceList.demoted businessId = PriceList.businessId := by
      funext row
      simp only [Function.comp,PriceList.demoted]
      split <;> rfl
    simp only [Account.told,List.map_append,← tells.owners]
    split <;> simp [own]
  · cases createPriceList_ok done
    intro row inside
    rcases List.mem_append.mp inside with old | new
    · split at old
      · obtain ⟨before,there,rfl⟩ := List.mem_map.mp old
        unfold PriceList.demoted
        split
        · exact tells.alive before there
        · exact tells.alive before there
      · exact tells.alive row old
    · rw [List.mem_singleton.mp new]
  · by_cases own : business = businessId
    · subst own
      rw [targetList_createPriceList sound done,tells.default,length]
      cases chosen : data.isDefault <;> simp [Account.told,chosen]
    · rw [targetList_other own done,tells.default]
      cases chosen : data.isDefault <;> simp [Account.told,chosen,own]
  · cases createPriceList_ok done
    exact tells.prices

theorem Tells.setPrice {account : Account} {data : SetPriceRequest} {user : Nat} (sound : Sound s) (tells : Tells s account)
    (done : setPrice s listId businessId data user = .ok t) : Tells t (account.told (.setPrice listId businessId data user)) := by
  have lists : t.lists = s.lists := by
    rcases setPrice_ok sound done with ⟨item,i,_,_,rfl⟩ | ⟨_,rfl⟩ <;> rfl
  refine ⟨by rw [lists]; exact tells.owners,by rw [lists]; exact tells.alive,fun business => ?_,?_⟩
  · rw [targetList_congr lists]
    exact tells.default business
  · intro otherList otherProduct otherBusiness otherVariation
    rw [priceAt_setPrice sound done,tells.prices]
    simp only [Account.told,Function.update_apply]
    exact if_congr eq_comm rfl rfl

theorem Tells.deleteProduct {account : Account} {now : Int} (sound : Sound s) (tells : Tells s account)
    (done : deleteProduct s productId businessId now = .ok t) :
    Tells t (account.told (.deleteProduct productId businessId now)) := by
  have lists : t.lists = s.lists := by
    obtain ⟨_,_,done⟩ := bind_ok_iff.mp done
    cases done
    rfl
  refine ⟨by rw [lists]; exact tells.owners,by rw [lists]; exact tells.alive,fun business => ?_,?_⟩
  · rw [targetList_congr lists]
    exact tells.default business
  · intro otherList otherProduct otherBusiness otherVariation
    rw [priceAt_deleteProduct sound done,tells.prices]
    rfl

theorem tells_answer {account : Account} {request : Request} (sound : Sound s) (tells : Tells s account)
    (done : answer s request = .ok t) : Tells t (account.told request) := by
  cases request with
  | createPriceList businessId data => exact tells.createPriceList sound done
  | setPrice listId businessId data user => exact tells.setPrice sound done
  | deleteProduct productId businessId now => exact tells.deleteProduct sound done
  | others products variations =>
    cases done
    exact ⟨tells.owners,tells.alive,fun business => tells.default business,tells.prices⟩

theorem tells_init : Tells .init .init := ⟨rfl,fun _ inside => (List.not_mem_nil inside).elim,fun _ => rfl,fun _ _ _ _ => rfl⟩

theorem tells_reached (requests : List Request) : Tells (reached requests) (account requests) := by
  refine Service.run_refines ?_ sound_init tells_init requests
  intro s account request t sound tells done
  exact ⟨sound_answer sound done,tells_answer sound tells done⟩

/-- In every run a price is what the accepted requests come to: the last one set at its place, in the list asked for or in the
one made default last. The audit log tells the price of every row. -/
theorem prices_kept (requests : List Request) (businessId productId : Nat) (variationId asked : Option Nat) :
    getProductPrice (reached requests) businessId productId variationId asked =
      (account requests).find businessId productId variationId asked ∧
    ∀ i, recorded i (reached requests).auditLogs = some ((reached requests).items[i]?.map PriceListItem.unitPrice) := by
  have sound := sound_reached requests
  have tells := tells_reached requests
  refine ⟨?_,sound.audited⟩
  rw [getProductPrice_eq sound]
  cases asked with
  | none =>
    rw [tells.default,Account.find]
    simp only [Except.map,tells.prices]
  | some listId =>
    rw [tells.asked,Account.find]
    split
    · simp only [Except.map,Option.bind_some,tells.prices]
    · rfl

theorem enforceLines_ok {asked : Option Nat} {lines : List CreateSaleLineRequest} {done : Unit}
    (passed : enforceLines s businessId asked lines = .ok done) : ∀ line ∈ lines, enforceLine s businessId asked line = .ok () := by
  induction lines with
  | nil => exact fun line inside => (List.not_mem_nil inside).elim
  | cons line lines induction =>
    obtain ⟨_,first,rest⟩ := bind_ok_iff.mp passed
    exact List.forall_mem_cons.mpr ⟨first,induction rest⟩

/-- The price of the line in the catalogue, where there is one. -/
def catalogPrice (s : State) (businessId : Nat) (asked : Option Nat) (line : CreateSaleLineRequest) : Option ℚ :=
  (getProductPrice s businessId line.productId line.variationId asked).toOption.join

theorem catalogPrice_mem_grid (sound : Sound s) {asked : Option Nat} {line : CreateSaleLineRequest}
    (found : catalogPrice s businessId asked line = some price) : price ∈ Decimal.grid 2 := by
  rw [catalogPrice,getProductPrice_eq sound] at found
  cases target : targetList s businessId asked with
  | error refusal =>
    rw [target] at found
    cases found
  | ok list =>
    rw [target] at found
    cases list with
    | none => cases found
    | some listId =>
      have here : priceAt s listId line.productId businessId line.variationId = some price := found
      obtain ⟨row,there,rfl⟩ := Option.map_eq_some_iff.mp here
      exact sound.scaled row (lookup_mem there)

theorem enforceLine_ok (sound : Sound s) {asked : Option Nat} {line : CreateSaleLineRequest}
    (passed : enforceLine s businessId asked line = .ok ()) (found : catalogPrice s businessId asked line = some price) :
    Pricing.invoiceRound2 line.unitPrice = price := by
  have exact_price : Pricing.invoiceRound2 price = price :=
    Decimal.quantizeHalfEven_of_mem_grid (catalogPrice_mem_grid sound found)
  obtain ⟨read,here,passed⟩ := bind_ok_iff.mp passed
  rw [catalogPrice,here] at found
  cases (found : read = some price)
  have same := refuseIf_ok.mp passed
  simpa [exact_price] using same

/-- The line as the catalogue has it: its price where there is one, no discount and no tax of its own. -/
def atCatalogPrice (s : State) (businessId : Nat) (asked : Option Nat) (line : CreateSaleLineRequest) : CreateSaleLineRequest :=
  { line with
    unitPrice := (catalogPrice s businessId asked line).getD line.unitPrice
    discountPct := 0, discountAmount := 0, taxRate := none }

def CreateSaleRequest.atCatalogPrices (s : State) (businessId : Nat) (asked : Option Nat) (data : CreateSaleRequest) :
    CreateSaleRequest :=
  { data with lines := data.lines.map (atCatalogPrice s businessId asked) }

theorem enforce_ok {asked : Option Nat} {lines : List CreateSaleLineRequest} {permissionKeys : List String} {done : Unit}
    (passed : enforceSalePricingPermissions s businessId asked lines permissionKeys = .ok done) :
    ("sales.apply_discount" ∉ permissionKeys → ∀ line ∈ lines, Discounts.hasManualDiscount line.input = false) ∧
    ("sales.override_price" ∉ permissionKeys → ∀ line ∈ lines, enforceLine s businessId asked line = .ok ()) := by
  obtain ⟨_,manual,passed⟩ := bind_ok_iff.mp passed
  constructor
  · intro missing line inside
    have none_manual := refuseIf_ok.mp manual
    simp only [missing,not_false_eq_true,decide_true,Bool.and_true,List.any_eq_false] at none_manual
    exact Bool.eq_false_iff.mpr (none_manual line inside)
  · intro missing
    rw [if_neg missing] at passed
    exact enforceLines_ok passed

theorem honest_line (sound : Sound s) {asked : Option Nat} {line : CreateSaleLineRequest} (valid : line.valid = true)
    (cents : line.unitPrice ∈ Decimal.grid 2) (manual : Discounts.hasManualDiscount line.input = false)
    (passed : enforceLine s businessId asked line = .ok ()) :
    atCatalogPrice s businessId asked line = { line with taxRate := none } := by
  have price : (catalogPrice s businessId asked line).getD line.unitPrice = line.unitPrice := by
    cases found : catalogPrice s businessId asked line with
    | none => rfl
    | some price =>
      have same := enforceLine_ok sound passed found
      rw [Pricing.invoiceRound2,Decimal.quantizeHalfEven_of_mem_grid cents] at same
      exact same.symm
  obtain ⟨pct,amount⟩ : line.discountPct = 0 ∧ line.discountAmount = 0 := by
    simp only [CreateSaleLineRequest.valid,Bool.and_eq_true,decide_eq_true_eq] at valid
    simp only [Discounts.hasManualDiscount,CreateSaleLineRequest.input,Bool.or_eq_false_iff,decide_eq_false_iff_not,not_lt,
      gt_iff_lt] at manual
    exact ⟨le_antisymm manual.1 valid.1.1.1.2,le_antisymm manual.2 valid.1.2⟩
  rw [atCatalogPrice,price]
  cases line
  simp_all

def untaxed (line : CreateSaleLineRequest) : CreateSaleLineRequest := { line with taxRate := none }

theorem pricing_untaxed (catalogue : Billing.Catalogue) (data : CreateSaleRequest) :
    Billing.computeSalePricing catalogue false { data with lines := data.lines.map untaxed } =
      Billing.computeSalePricing catalogue false data := by
  have inputs : (data.lines.map untaxed).map CreateSaleLineRequest.input = data.lines.map CreateSaleLineRequest.input := by
    rw [List.map_map]
    rfl
  have known : (data.lines.map untaxed).all (fun line => (catalogue.product line.productId).isSome) =
      data.lines.all fun line => (catalogue.product line.productId).isSome := by
    rw [List.all_map]
    rfl
  have discounts : Billing.schemeLineDiscounts catalogue { data with lines := data.lines.map untaxed } =
      Billing.schemeLineDiscounts catalogue data := by
    simp only [Billing.schemeLineDiscounts,inputs]
  have lines (given : Option (List Discounts.LineDiscount)) :
      (data.lines.map untaxed).zipIdx.map (fun entry => Billing.priceLine catalogue false (given.bind (·[entry.2]?)) entry.1) =
        data.lines.zipIdx.map fun entry => Billing.priceLine catalogue false (given.bind (·[entry.2]?)) entry.1 := by
    rw [List.zipIdx_map,List.map_map]
    rfl
  simp only [Billing.computeSalePricing,discounts,known,lines]

/-- In every run, who may not override prices charges each line its catalogue price up to half a cent, stored as that price
or a cent more. Who may not give discounts or override taxes either, and asks for whole cents, is charged what the catalogue
says. -/
theorem price_confined (requests : List Request) (catalogue : Billing.Catalogue) (businessId : Nat) (asked : Option Nat)
    (data : CreateSaleRequest) (valid : data.valid = true) (permissionKeys : List String)
    (confined : "sales.override_price" ∉ permissionKeys) (preview : PricePreview)
    (accepted : computeSalePricing (reached requests) catalogue businessId asked data permissionKeys = .ok preview) :
    (∀ line ∈ data.lines, ∀ price, catalogPrice (reached requests) businessId asked line = some price →
      |line.unitPrice - price| ≤ 1/200 ∧
      (Decimal.quantize 2 line.unitPrice = price ∨ Decimal.quantize 2 line.unitPrice = price + 1/100)) ∧
    ("sales.apply_discount" ∉ permissionKeys → "sales.override_tax" ∉ permissionKeys →
      (∀ line ∈ data.lines, line.unitPrice ∈ Decimal.grid 2) →
      Billing.computeSalePricing catalogue false
        (CreateSaleRequest.atCatalogPrices (reached requests) businessId asked data) = .ok preview) := by
  have sound := sound_reached requests
  obtain ⟨_,passed,priced⟩ := bind_ok_iff.mp accepted
  obtain ⟨undiscounted,enforced⟩ := enforce_ok (mapError_ok_iff.mp passed)
  have priced := mapError_ok_iff.mp priced
  have each : ∀ line ∈ data.lines, line.valid = true := by
    simp only [CreateSaleRequest.valid,Bool.and_eq_true,List.all_eq_true] at valid
    exact valid.1.2
  constructor
  · intro line inside price found
    have positive : 0 ≤ line.unitPrice := by
      have held := each line inside
      simp only [CreateSaleLineRequest.valid,Bool.and_eq_true,decide_eq_true_eq] at held
      exact held.1.1.1.1.2
    have same : Decimal.quantizeHalfEven 2 line.unitPrice = price := enforceLine_ok sound (enforced confined line inside) found
    have place : Decimal.unit 2 = 1/100 := by norm_num [Decimal.unit]
    constructor
    · have near := Decimal.abs_quantizeHalfEven_sub_le 2 line.unitPrice
      rw [same,place] at near
      linarith
    · have rounded := Decimal.quantize_eq_or positive (p := 2)
      rwa [same,place] at rounded
  · intro noDiscount noTax cents
    have honest : data.lines.map (atCatalogPrice (reached requests) businessId asked) = data.lines.map untaxed :=
      List.map_congr_left fun line inside => honest_line sound (each line inside) (cents line inside)
        (undiscounted noDiscount line inside) (enforced confined line inside)
    rw [CreateSaleRequest.atCatalogPrices,honest,pricing_untaxed]
    simpa [noTax] using priced

def sampleRequests : List Request :=
  [.others [(0,7)] [],.createPriceList 0 ⟨"Retail",.retail,true,none,none⟩,.setPrice 0 0 ⟨7,none,10,1⟩ 1]

def sampleCatalogue : Billing.Catalogue := ⟨fun id => if id = 7 then some ⟨none,none⟩ else none,fun _ => none⟩

/-- Half a cent too much, which is stored as a cent too much. -/
def sampleLine : CreateSaleLineRequest := ⟨7,none,2,2001/200,0,0,none⟩

theorem price_confined_sample : ∃ preview,
    computeSalePricing (reached sampleRequests) sampleCatalogue 0 none ⟨none,none,[sampleLine],[]⟩ [] = .ok preview ∧
    |sampleLine.unitPrice - 10| ≤ 1/200 ∧
    (Decimal.quantize 2 sampleLine.unitPrice = 10 ∨ Decimal.quantize 2 sampleLine.unitPrice = 10 + 1/100) := by
  have priced : (computeSalePricing (reached sampleRequests) sampleCatalogue 0 none ⟨none,none,[sampleLine],[]⟩ []).toOption.isSome =
      true := by decide +kernel
  obtain ⟨preview,found⟩ := Option.isSome_iff_exists.mp priced
  have accepted := Outcome.toOption_eq_some.mp found
  have catalogued : catalogPrice (reached sampleRequests) 0 none sampleLine = some 10 := by decide +kernel
  exact ⟨preview,accepted,(price_confined sampleRequests sampleCatalogue 0 none ⟨none,none,[sampleLine],[]⟩ (by decide +kernel) []
    List.not_mem_nil preview accepted).1 sampleLine (List.mem_singleton_self _) 10 catalogued⟩

end Prices
