import SasBackend.Library.Outcome
import SasBackend.Semantics.Catalogue

/-! Every product for sale keeps exactly one default variation, and a barcode belongs to one product for good.
-/
namespace Catalogue
open UniqueKeys (Distinct)
open Outcome (bind_ok_iff)

variable {s t u : State} {productId businessId id other : Nat} {product : Product} {variation : Variation}
  {defaults : Nat → Nat}

def defaultOf (id : Nat) (v : Variation) : Bool := v.productId = id && v.deletedAt = none && v.isDefault

def primaryOf (id : Nat) (code : Barcode) : Bool := code.productId = id && code.deletedAt = none && code.isPrimary

/-- The product is there and not deleted. -/
def Stands (s : State) (id businessId : Nat) : Prop :=
  ∃ product, s.products[id]? = some product ∧ product.deletedAt = none ∧ product.businessId = businessId

/-- Each product has so many defaults; what is not deleted belongs to a product that stands. -/
structure Kept (s : State) (defaults : Nat → Nat) : Prop where
  counted : ∀ id, s.variations.countP (defaultOf id) = defaults id
  variations : ∀ v ∈ s.variations, v.deletedAt = none → Stands s v.productId v.businessId
  barcodes : ∀ code ∈ s.barcodes, code.deletedAt = none → Stands s code.productId code.businessId
  primary : ∀ id, s.barcodes.countP (primaryOf id) ≤ 1
  skus : Distinct Product.key s.products
  variationSkus : Distinct Variation.key s.variations
  codes : Distinct Barcode.key s.barcodes

/-- One default for each product that stands and none for the others. -/
def expected (s : State) (id : Nat) : Nat := if (s.products[id]?).any (·.deletedAt.isNone) then 1 else 0

def Sound (s : State) : Prop := Kept s (expected s)

theorem Stands.unique (first : Stands s id businessId) (second : Stands s id other) : businessId = other := by
  obtain ⟨product,found,_,rfl⟩ := first
  obtain ⟨product',found',_,rfl⟩ := second
  rw [found] at found'
  cases found'
  rfl

theorem Stands.expected (stands : Stands s id businessId) : expected s id = 1 := by
  obtain ⟨product,found,alive,_⟩ := stands
  simp [Catalogue.expected,found,alive]

theorem findProduct_some : findProduct s id businessId = some product ↔
    s.products[id]? = some product ∧ product.businessId = businessId ∧ product.deletedAt = none := by
  simp [findProduct,Option.filter_eq_some_iff]

theorem getProductById_ok : getProductById s id businessId = .ok product ↔ findProduct s id businessId = some product := by
  unfold getProductById
  split <;> simp_all

theorem stands_of_get (read : getProductById s id businessId = .ok product) : Stands s id businessId := by
  obtain ⟨found,same,alive⟩ := findProduct_some.mp (getProductById_ok.mp read)
  exact ⟨product,found,alive,same⟩

section Rows
variable {α κ : Type} [DecidableEq κ] {key : α → Option κ} {rows changed : List α} {row : α}

theorem insertRow_ok : insertRow key rows row = .ok changed ↔
    UniqueKeys.taken key rows row = false ∧ changed = rows ++ [row] := by
  unfold insertRow
  by_cases held : UniqueKeys.taken key rows row = true
  · simp [held]
  · rw [if_neg held]
    simp [held,eq_comm]

theorem setRow_ok : setRow key rows id row = .ok changed ↔
    UniqueKeys.taken key (rows.eraseIdx id) row = false ∧ changed = rows.set id row := by
  unfold setRow
  by_cases held : UniqueKeys.taken key (rows.eraseIdx id) row = true
  · simp [held]
  · rw [if_neg held]
    simp [held,eq_comm]

end Rows

theorem countP_map_of {α : Type} {f : α → α} {p q : α → Bool} {rows : List α} (same : ∀ row ∈ rows, p (f row) = q row) :
    (rows.map f).countP p = rows.countP q := by
  rw [List.countP_map]
  exact List.countP_congr fun row inside => by rw [Function.comp,same row inside]

theorem mark_cleared {α : Type} {marked : Nat → α → Bool} {f : α → α} {row : α}
    (others : ∀ id, id ≠ productId → marked id (f row) = marked id row) (mine : marked productId (f row) = false) :
    marked id (f row) = (marked id row && decide (id ≠ productId)) := by
  by_cases same : id = productId
  · simp [same,mine]
  · simp [same,others id same]

theorem unset_kept (productId businessId : Nat) (v : Variation) : (v.unset productId businessId).productId = v.productId ∧
    (v.unset productId businessId).businessId = v.businessId ∧ (v.unset productId businessId).deletedAt = v.deletedAt ∧
      (v.unset productId businessId).key = v.key := by
  unfold Variation.unset
  split <;> exact ⟨rfl,rfl,rfl,rfl⟩

theorem unset_default (v : Variation) (owned : v.deletedAt = none → v.productId = productId → v.businessId = businessId) :
    defaultOf id (v.unset productId businessId) = (defaultOf id v && decide (id ≠ productId)) := by
  by_cases target : v.productId = productId ∧ v.deletedAt = none ∧ v.isDefault = true
  · obtain ⟨own,alive,default_⟩ := target
    have cleared : v.unset productId businessId = { v with isDefault := false } :=
      if_pos ⟨own,owned alive own,alive,default_⟩
    refine mark_cleared (fun id apart => ?_) ?_
    · simp [cleared,defaultOf,own,Ne.symm apart]
    · simp [cleared,defaultOf]
  · have left : v.unset productId businessId = v := if_neg fun all => target ⟨all.1,all.2.2⟩
    refine mark_cleared (fun id _ => by rw [left]) ?_
    rw [left,defaultOf,Bool.eq_false_iff]
    intro found
    exact target (by simpa [and_assoc] using found)

theorem kept_unset (kept : Kept s defaults) (stands : Stands s productId businessId) :
    Kept (unsetDefaultVariations s productId businessId) (Function.update defaults productId 0) := by
  constructor
  · intro id
    have same : ∀ v ∈ s.variations, defaultOf id (v.unset productId businessId) = (defaultOf id v && decide (id ≠ productId)) :=
      fun v inside => unset_default v fun alive own => (own ▸ kept.variations v inside alive).unique stands
    rw [unsetDefaultVariations,countP_map_of same]
    by_cases mine : id = productId
    · simp [mine]
    · simp [mine,kept.counted id]
  · intro v inside alive
    obtain ⟨before,there,rfl⟩ := List.mem_map.mp inside
    obtain ⟨product,business,deleted,_⟩ := unset_kept productId businessId before
    rw [product,business]
    exact kept.variations before there (deleted.symm.trans alive)
  · exact kept.barcodes
  · exact kept.primary
  · exact kept.skus
  · exact kept.variationSkus.map fun v => (unset_kept productId businessId v).2.2.2
  · exact kept.codes

theorem kept_insert (kept : Kept s defaults) (stands : Stands s variation.productId variation.businessId)
    (alive : variation.deletedAt = none) (inserted : insertVariation s variation = .ok t) :
    Kept t (Function.update defaults variation.productId
      (defaults variation.productId + if variation.isDefault then 1 else 0)) ∧
      t.products = s.products ∧ t.barcodes = s.barcodes := by
  obtain ⟨variations,added,result⟩ := bind_ok_iff.mp inserted
  obtain ⟨free,rfl⟩ := insertRow_ok.mp added
  cases result
  refine ⟨?_,rfl,rfl⟩
  constructor
  · intro id
    rw [List.countP_append,kept.counted]
    by_cases mine : id = variation.productId
    · cases marked : variation.isDefault <;> simp [mine,defaultOf,alive,marked]
    · have apart : ¬variation.productId = id := fun same => mine same.symm
      simp [mine,defaultOf,apart]
  · intro v inside living
    rcases List.mem_append.mp inside with old | new
    · exact kept.variations v old living
    · rw [List.mem_singleton.mp new]
      exact stands
  · exact kept.barcodes
  · exact kept.primary
  · exact kept.skus
  · exact kept.variationSkus.append free
  · exact kept.codes

/-- What adding variations leaves alone. -/
structure Beside (s t : State) : Prop where
  products : t.products = s.products
  barcodes : t.barcodes = s.barcodes

theorem Beside.trans (first : Beside s t) (second : Beside t u) : Beside s u :=
  ⟨second.products.trans first.products,second.barcodes.trans first.barcodes⟩

theorem Stands.beside (stands : Stands s id businessId) (beside : Beside s t) : Stands t id businessId := by
  rwa [Stands,beside.products]

theorem kept_place {name : String} {sku : Option String} {unitId : Option Nat}
    {weightGrams : Option ℚ} {n : Nat} {isDefault : Bool} (kept : Kept s (Function.update defaults productId n))
    (stands : Stands s productId businessId)
    (placed : insertVariation (if isDefault then unsetDefaultVariations s productId businessId else s)
      ⟨businessId,productId,name,sku,unitId,isDefault,true,weightGrams,none⟩ = .ok t) :
    Kept t (Function.update defaults productId (if isDefault then 1 else n)) ∧ Beside s t := by
  cases isDefault with
  | true =>
    have cleared : Stands (unsetDefaultVariations s productId businessId) productId businessId := stands
    obtain ⟨added,products,barcodes⟩ := kept_insert (kept_unset kept stands) cleared rfl placed
    simp only [Function.update_self,Function.update_idem,if_true,Nat.zero_add] at added
    exact ⟨added,products,barcodes⟩
  | false =>
    obtain ⟨added,products,barcodes⟩ := kept_insert kept stands rfl placed
    simp only [Function.update_self,Function.update_idem,Bool.false_eq_true,if_false,Nat.add_zero] at added ⊢
    exact ⟨added,products,barcodes⟩

theorem createEach_cons {all rest : List CreateVariationRequest} {data : CreateVariationRequest} {assigned : Bool}
    {index : Nat} (done : createEach all productId businessId s assigned index (data :: rest) = .ok u) :
    ∃ t, insertVariation
        (if (chosenDefault all assigned index data).1 then unsetDefaultVariations s productId businessId else s)
        ⟨businessId,productId,data.name,data.sku,data.unitId,(chosenDefault all assigned index data).1,true,
          data.weightGrams,none⟩ = .ok t ∧
      createEach all productId businessId t (chosenDefault all assigned index data).2 (index + 1) rest = .ok u := by
  rw [createEach] at done
  obtain ⟨_,_,done⟩ := bind_ok_iff.mp done
  obtain ⟨_,_,done⟩ := bind_ok_iff.mp done
  obtain ⟨t,placed,done⟩ := bind_ok_iff.mp done
  exact ⟨t,placed,done⟩

/-- Of several variations one at most is chosen, and in the end one is. -/
theorem kept_createEach {all rest : List CreateVariationRequest} {assigned : Bool} {index : Nat} (several : all.length ≠ 1)
    (kept : Kept s (Function.update defaults productId assigned.toNat)) (stands : Stands s productId businessId)
    (done : createEach all productId businessId s assigned index rest = .ok u) :
    ∃ chosen : Bool, Kept u (Function.update defaults productId chosen.toNat) ∧ Beside s u ∧
      (assigned = true ∨ rest.any (·.isDefault) = true ∨ index = 0 ∧ rest ≠ [] ∧ all.any (·.isDefault) = false →
        chosen = true) := by
  induction rest generalizing s assigned index with
  | nil =>
    cases done
    exact ⟨assigned,kept,⟨rfl,rfl⟩,by simp⟩
  | cons data rest induction =>
    obtain ⟨t,placed,done⟩ := createEach_cons done
    obtain ⟨next,beside⟩ := kept_place kept stands placed
    have counted : (if (chosenDefault all assigned index data).1 then 1 else assigned.toNat) =
        (chosenDefault all assigned index data).2.toNat := by
      rw [chosenDefault,if_neg several]
      cases assigned <;> split_ifs <;> simp_all
    rw [counted] at next
    obtain ⟨chosen,final,later,settled⟩ := induction next (stands.beside beside) done
    refine ⟨chosen,final,beside.trans later,?_⟩
    intro found
    apply settled
    rw [chosenDefault,if_neg several]
    rcases found with found | found | ⟨first,_,none_default⟩
    · simp [found]
    · by_cases marked : data.isDefault = true
      · cases assigned <;> simp [marked]
      · have later_default : rest.any (·.isDefault) = true := by simpa [marked] using found
        exact .inr (.inl later_default)
    · cases assigned <;> by_cases marked : data.isDefault = true <;> simp [first,none_default,marked]

/-- Whatever variations a product is made with, it has one default. -/
theorem kept_createVariations {data : List CreateVariationRequest} {baseUnitId : Nat}
    (kept : Kept s (Function.update defaults productId 0)) (stands : Stands s productId businessId)
    (done : createVariations s productId businessId baseUnitId data = .ok t) :
    Kept t (Function.update defaults productId 1) ∧ Beside s t := by
  unfold createVariations at done
  cases data with
  | nil =>
    obtain ⟨added,products,barcodes⟩ := kept_insert kept stands rfl done
    simp only [Function.update_self,Function.update_idem,if_true,Nat.zero_add] at added
    exact ⟨added,products,barcodes⟩
  | cons first rest =>
    rw [if_neg (by simp)] at done
    by_cases single : (first :: rest).length = 1
    · obtain rfl : rest = [] := by simpa using single
      obtain ⟨u,placed,done⟩ := createEach_cons done
      cases done
      have chosen : (chosenDefault [first] false 0 first).1 = true := rfl
      rw [chosen] at placed
      exact kept_place kept stands placed
    · obtain ⟨chosen,final,beside,settled⟩ := kept_createEach single kept stands done
      have some_default : chosen = true := by
        apply settled
        cases marked : (first :: rest).any (·.isDefault) with
        | true => exact .inr (.inl rfl)
        | false => exact .inr (.inr ⟨rfl,by simp,rfl⟩)
      rw [some_default] at final
      exact ⟨final,beside⟩

theorem stands_append {new : Product} (stands : Stands s id businessId) :
    Stands { s with products := s.products ++ [new] } id businessId := by
  obtain ⟨product,found,alive,same⟩ := stands
  have small : id < s.products.length := (List.getElem?_eq_some_iff.mp found).1
  exact ⟨product,by rw [List.getElem?_append_left small,found],alive,same⟩

theorem expected_append {new : Product} (alive : new.deletedAt = none) :
    expected { s with products := s.products ++ [new] } = Function.update (expected s) s.products.length 1 := by
  funext id
  by_cases fresh : id = s.products.length
  · simp [expected,fresh,alive]
  · rw [Function.update_of_ne fresh]
    by_cases small : id < s.products.length
    · simp [expected,List.getElem?_append_left small]
    · have past : s.products.length < id := by omega
      have beyond : (s.products ++ [new]).length ≤ id := by
        rw [List.length_append]
        exact past
      simp only [expected,List.getElem?_eq_none beyond,List.getElem?_eq_none past.le]

theorem kept_newProduct {new : Product} (sound : Sound s) (free : UniqueKeys.taken Product.key s.products new = false) :
    Kept { s with products := s.products ++ [new] } (Function.update (expected s) s.products.length 0) := by
  have absent : expected s s.products.length = 0 := by simp [expected]
  rw [← absent,Function.update_eq_self]
  exact ⟨sound.counted,fun v inside alive => stands_append (sound.variations v inside alive),
    fun code inside alive => stands_append (sound.barcodes code inside alive),sound.primary,sound.skus.append free,
    sound.variationSkus,sound.codes⟩

theorem createProduct_ok {data : CreateProductRequest} (done : createProduct s businessId data = .ok t) :
    ∃ new : Product, new.deletedAt = none ∧ new.businessId = businessId ∧
      UniqueKeys.taken Product.key s.products new = false ∧
      createVariations { s with products := s.products ++ [new] } s.products.length businessId data.baseUnitId
        data.variations = .ok t := by
  unfold createProduct at done
  obtain ⟨_,_,done⟩ := bind_ok_iff.mp done
  obtain ⟨_,_,done⟩ := bind_ok_iff.mp done
  obtain ⟨_,_,done⟩ := bind_ok_iff.mp done
  obtain ⟨_,_,done⟩ := bind_ok_iff.mp done
  obtain ⟨products,added,done⟩ := bind_ok_iff.mp done
  obtain ⟨free,rfl⟩ := insertRow_ok.mp added
  exact ⟨_,rfl,rfl,free,done⟩

theorem sound_createProduct {data : CreateProductRequest} (sound : Sound s) (done : createProduct s businessId data = .ok t) :
    Sound t ∧ ∃ new : Product, t.products = s.products ++ [new] ∧ t.barcodes = s.barcodes := by
  obtain ⟨new,alive,own,free,done⟩ := createProduct_ok done
  have stands : Stands { s with products := s.products ++ [new] } s.products.length businessId := ⟨new,by simp,alive,own⟩
  obtain ⟨final,beside⟩ := kept_createVariations (kept_newProduct sound free) stands done
  refine ⟨?_,new,beside.products,beside.barcodes⟩
  have grown : expected t = Function.update (expected s) s.products.length 1 := by
    unfold expected
    rw [beside.products]
    exact expected_append alive
  rw [Sound,grown]
  exact final

theorem countP_set_same {α : Type} {p : α → Bool} {rows : List α} {i : Nat} {old new : α} (found : rows[i]? = some old)
    (same : p new = p old) : (rows.set i new).countP p = rows.countP p := by
  obtain ⟨inside,rfl⟩ := List.getElem?_eq_some_iff.mp found
  rw [(List.set_perm_cons_eraseIdx inside new).countP_eq,(List.getElem_cons_eraseIdx_perm inside).symm.countP_eq,
    List.countP_cons,List.countP_cons,same]

theorem stands_set {old new : Product} (found : s.products[productId]? = some old) (same : new.deletedAt = old.deletedAt)
    (own : new.businessId = old.businessId) :
    Stands { s with products := s.products.set productId new } id businessId ↔ Stands s id businessId := by
  by_cases mine : id = productId
  · subst mine
    obtain ⟨there,rfl⟩ := List.getElem?_eq_some_iff.mp found
    simp [Stands,there,same,own]
  · simp [Stands,List.getElem?_set_ne (Ne.symm mine)]

theorem expected_set {old new : Product} (found : s.products[productId]? = some old) (same : new.deletedAt = old.deletedAt) :
    expected { s with products := s.products.set productId new } = expected s := by
  funext id
  by_cases mine : id = productId
  · subst mine
    obtain ⟨there,rfl⟩ := List.getElem?_eq_some_iff.mp found
    simp [expected,there,same]
  · simp [expected,List.getElem?_set_ne (Ne.symm mine)]

theorem updateProduct_ok {data : UpdateProductRequest} (done : updateProduct s productId businessId data = .ok t) :
    ∃ product, findProduct s productId businessId = some product ∧
      UniqueKeys.taken Product.key (s.products.eraseIdx productId) (updated product data) = false ∧
      t = { s with products := s.products.set productId (updated product data) } := by
  unfold updateProduct at done
  obtain ⟨product,read,done⟩ := bind_ok_iff.mp done
  obtain ⟨_,_,done⟩ := bind_ok_iff.mp done
  obtain ⟨_,_,done⟩ := bind_ok_iff.mp done
  obtain ⟨_,_,done⟩ := bind_ok_iff.mp done
  obtain ⟨products,changed,done⟩ := bind_ok_iff.mp done
  obtain ⟨free,rfl⟩ := setRow_ok.mp changed
  cases done
  exact ⟨product,getProductById_ok.mp read,free,rfl⟩

theorem sound_updateProduct {data : UpdateProductRequest} (sound : Sound s)
    (done : updateProduct s productId businessId data = .ok t) : Sound t := by
  obtain ⟨product,read,free,rfl⟩ := updateProduct_ok done
  have found := (findProduct_some.mp read).1
  have deleted : (updated product data).deletedAt = product.deletedAt := rfl
  have own : (updated product data).businessId = product.businessId := rfl
  rw [Sound,expected_set found deleted]
  exact ⟨sound.counted,fun v inside alive => (stands_set found deleted own).mpr (sound.variations v inside alive),
    fun code inside alive => (stands_set found deleted own).mpr (sound.barcodes code inside alive),sound.primary,
    sound.skus.set free,sound.variationSkus,sound.codes⟩

theorem sound_addVariation {data : CreateVariationRequest} (sound : Sound s)
    (done : addVariation s productId businessId data = .ok t) : Sound t ∧ Beside s t := by
  unfold addVariation at done
  obtain ⟨product,read,done⟩ := bind_ok_iff.mp done
  obtain ⟨_,_,done⟩ := bind_ok_iff.mp done
  obtain ⟨_,_,done⟩ := bind_ok_iff.mp done
  have stands := stands_of_get read
  have kept : Kept s (Function.update (expected s) productId 1) := by
    rw [← stands.expected,Function.update_eq_self]
    exact sound
  obtain ⟨final,beside⟩ := kept_place kept stands done
  refine ⟨?_,beside⟩
  have same : expected t = expected s := by
    unfold expected
    rw [beside.products]
  rw [ite_self,← stands.expected,Function.update_eq_self] at final
  rwa [Sound,same]

theorem updateVariation_ok {data : UpdateVariationRequest} {variationId : Nat}
    (done : updateVariation s variationId productId businessId data = .ok t) :
    ∃ variation, s.variations[variationId]? = some variation ∧
      UniqueKeys.taken Variation.key (s.variations.eraseIdx variationId) (updatedVariation variation data) = false ∧
      t = { s with variations := s.variations.set variationId (updatedVariation variation data) } := by
  unfold updateVariation at done
  obtain ⟨_,_,done⟩ := bind_ok_iff.mp done
  obtain ⟨variation,read,done⟩ := bind_ok_iff.mp done
  obtain ⟨_,_,done⟩ := bind_ok_iff.mp done
  obtain ⟨variations,changed,done⟩ := bind_ok_iff.mp done
  obtain ⟨_,_,done⟩ := bind_ok_iff.mp done
  obtain ⟨free,rfl⟩ := setRow_ok.mp changed
  cases done
  have found : findVariation s variationId productId businessId = some variation := by
    unfold getVariation at read
    split at read <;> simp_all
  exact ⟨variation,(Option.filter_eq_some_iff.mp found).1,free,rfl⟩

theorem sound_updateVariation {data : UpdateVariationRequest} {variationId : Nat} (sound : Sound s)
    (done : updateVariation s variationId productId businessId data = .ok t) : Sound t ∧ Beside s t := by
  obtain ⟨variation,found,free,rfl⟩ := updateVariation_ok done
  refine ⟨⟨?_,?_,sound.barcodes,sound.primary,sound.skus,sound.variationSkus.set free,sound.codes⟩,rfl,rfl⟩
  · intro id
    have same : defaultOf id (updatedVariation variation data) = defaultOf id variation := rfl
    rw [countP_set_same found same]
    exact sound.counted id
  · intro v inside alive
    rcases List.mem_or_eq_of_mem_set inside with old | rfl
    · exact sound.variations v old alive
    · exact sound.variations variation (List.mem_of_getElem? found) alive

theorem unset_code_kept (productId businessId : Nat) (code : Barcode) : (code.unset productId businessId).productId = code.productId ∧
    (code.unset productId businessId).businessId = code.businessId ∧
      (code.unset productId businessId).deletedAt = code.deletedAt ∧
      (code.unset productId businessId).barcode = code.barcode := by
  unfold Barcode.unset
  split <;> exact ⟨rfl,rfl,rfl,rfl⟩

theorem unset_code_key (code : Barcode) : (code.unset productId businessId).key = code.key := by
  obtain ⟨_,own,_,value⟩ := unset_code_kept productId businessId code
  rw [Barcode.key,Barcode.key,own,value]

theorem unset_primary (code : Barcode)
    (owned : code.deletedAt = none → code.productId = productId → code.businessId = businessId) :
    primaryOf id (code.unset productId businessId) = (primaryOf id code && decide (id ≠ productId)) := by
  by_cases target : code.productId = productId ∧ code.deletedAt = none ∧ code.isPrimary = true
  · obtain ⟨own,alive,primary⟩ := target
    have cleared : code.unset productId businessId = { code with isPrimary := false } :=
      if_pos ⟨own,owned alive own,alive,primary⟩
    refine mark_cleared (fun id apart => ?_) ?_
    · simp [cleared,primaryOf,own,Ne.symm apart]
    · simp [cleared,primaryOf]
  · have left : code.unset productId businessId = code := if_neg fun all => target ⟨all.1,all.2.2⟩
    refine mark_cleared (fun id _ => by rw [left]) ?_
    rw [left,primaryOf,Bool.eq_false_iff]
    intro found
    exact target (by simpa [and_assoc] using found)

theorem addBarcode_ok {data : CreateBarcodeRequest} (done : addBarcode s productId businessId data = .ok t) :
    Stands s productId businessId ∧
      ∃ new : Barcode, new.productId = productId ∧ new.businessId = businessId ∧ new.barcode = data.barcode ∧
        new.isPrimary = data.isPrimary ∧ new.deletedAt = none ∧
        UniqueKeys.taken Barcode.key
          (if data.isPrimary then s.barcodes.map (Barcode.unset productId businessId) else s.barcodes) new = false ∧
        t = { s with barcodes :=
          (if data.isPrimary then s.barcodes.map (Barcode.unset productId businessId) else s.barcodes) ++ [new] } := by
  unfold addBarcode at done
  obtain ⟨_,read,done⟩ := bind_ok_iff.mp done
  obtain ⟨_,_,done⟩ := bind_ok_iff.mp done
  obtain ⟨_,_,done⟩ := bind_ok_iff.mp done
  obtain ⟨barcodes,added,done⟩ := bind_ok_iff.mp done
  obtain ⟨free,rfl⟩ := insertRow_ok.mp added
  cases done
  exact ⟨stands_of_get read,_,rfl,rfl,rfl,rfl,rfl,free,rfl⟩

theorem sound_addBarcode {data : CreateBarcodeRequest} (sound : Sound s)
    (done : addBarcode s productId businessId data = .ok t) : Sound t := by
  obtain ⟨stands,new,product,own,_,marked,alive,free,rfl⟩ := addBarcode_ok done
  -- The barcodes before the new one, cleared or not.
  have cleared : ∀ codes, codes = (if data.isPrimary then s.barcodes.map (Barcode.unset productId businessId) else s.barcodes) →
      (∀ code ∈ codes, code.deletedAt = none → Stands s code.productId code.businessId) ∧ Distinct Barcode.key codes ∧
        ∀ id, codes.countP (primaryOf id) + (if primaryOf id new then 1 else 0) ≤ 1 := by
    rintro codes rfl
    cases primary : data.isPrimary with
    | false =>
      have unmarked : ∀ id, primaryOf id new = false := by
        intro id
        simp [primaryOf,marked,primary]
      exact ⟨sound.barcodes,sound.codes,fun id => by simpa [unmarked id] using sound.primary id⟩
    | true =>
      refine ⟨?_,sound.codes.map unset_code_key,?_⟩
      · intro code inside living
        obtain ⟨before,there,rfl⟩ := List.mem_map.mp inside
        obtain ⟨same,business,deleted,_⟩ := unset_code_kept productId businessId before
        rw [same,business]
        exact sound.barcodes before there (deleted.symm.trans living)
      · intro id
        have same : ∀ code ∈ s.barcodes, primaryOf id (code.unset productId businessId) =
            (primaryOf id code && decide (id ≠ productId)) :=
          fun code inside => unset_primary code fun living of_ => (of_ ▸ sound.barcodes code inside living).unique stands
        rw [if_pos rfl,countP_map_of same]
        by_cases mine : id = productId
        · simp only [mine,ne_eq,not_true_eq_false,decide_false,Bool.and_false,List.countP_false]
          split <;> simp
        · have other : primaryOf id new = false := by
            simp [primaryOf,product,Ne.symm mine]
          simpa [mine,other] using sound.primary id
  obtain ⟨owned,distinct,primary⟩ := cleared _ rfl
  refine ⟨sound.counted,sound.variations,?_,?_,sound.skus,sound.variationSkus,distinct.append free⟩
  · intro code inside living
    rcases List.mem_append.mp inside with old | last
    · exact owned code old living
    · rw [List.mem_singleton.mp last,product,own]
      exact stands
  · intro id
    rw [List.countP_append,List.countP_singleton]
    exact primary id

theorem sweep_cases (productId businessId : Nat) (v : Variation) (now : Int) :
    v.sweep productId businessId now = v ∧ ¬(v.productId = productId ∧ v.businessId = businessId ∧ v.deletedAt = none) ∨
      (v.productId = productId ∧ v.businessId = businessId ∧ v.deletedAt = none) ∧
        v.sweep productId businessId now = { v with deletedAt := some now } := by
  unfold Variation.sweep
  by_cases target : v.productId = productId ∧ v.businessId = businessId ∧ v.deletedAt = none
  · exact .inr ⟨target,if_pos target⟩
  · exact .inl ⟨if_neg target,target⟩

theorem sweep_code_cases (productId businessId : Nat) (code : Barcode) (now : Int) :
    code.sweep productId businessId now = code ∧
        ¬(code.productId = productId ∧ code.businessId = businessId ∧ code.deletedAt = none) ∨
      (code.productId = productId ∧ code.businessId = businessId ∧ code.deletedAt = none) ∧
        code.sweep productId businessId now = { code with deletedAt := some now } := by
  unfold Barcode.sweep
  by_cases target : code.productId = productId ∧ code.businessId = businessId ∧ code.deletedAt = none
  · exact .inr ⟨target,if_pos target⟩
  · exact .inl ⟨if_neg target,target⟩

/-- The state after a product is deleted. -/
def without (s : State) (productId businessId : Nat) (product : Product) (now : Int) : State :=
  { s with
    locations := s.locations.map (Dependent.sweep productId businessId now)
    prices := s.prices.map (Dependent.sweep productId businessId now)
    barcodes := s.barcodes.map (Barcode.sweep productId businessId now)
    variations := s.variations.map (Variation.sweep productId businessId now)
    products := s.products.set productId { product with deletedAt := some now } }

theorem deleteProduct_ok {now : Int} (done : deleteProduct s productId businessId now = .ok t) :
    ∃ product, findProduct s productId businessId = some product ∧ t = without s productId businessId product now := by
  obtain ⟨product,read,done⟩ := bind_ok_iff.mp done
  cases done
  exact ⟨product,getProductById_ok.mp read,rfl⟩

theorem stands_without {now : Int} (apart : id ≠ productId) :
    Stands (without s productId businessId product now) id other ↔ Stands s id other := by
  simp [Stands,without,List.getElem?_set_ne (Ne.symm apart)]

theorem expected_without {now : Int} (found : s.products[productId]? = some product) :
    expected (without s productId businessId product now) = Function.update (expected s) productId 0 := by
  funext id
  by_cases mine : id = productId
  · subst mine
    have there : id < s.products.length := (List.getElem?_eq_some_iff.mp found).1
    simp [expected,without,there]
  · simp [expected,without,mine,List.getElem?_set_ne (Ne.symm mine)]

theorem stands_swept {α : Type} {f : α → α} {owner business : α → Nat} {gone : α → Option Int} {rows : List α} {now : Int}
    (swept : ∀ row, f row = row ∧ ¬(owner row = productId ∧ business row = businessId ∧ gone row = none) ∨ gone (f row) ≠ none)
    (stands : Stands s productId businessId) (standing : ∀ row ∈ rows, gone row = none → Stands s (owner row) (business row)) :
    ∀ row ∈ rows.map f, gone row = none →
      Stands (without s productId businessId product now) (owner row) (business row) := by
  intro row inside alive
  obtain ⟨before,there,rfl⟩ := List.mem_map.mp inside
  rcases swept before with ⟨left,spared⟩ | away
  · rw [left] at alive ⊢
    have owned := standing before there alive
    have apart : owner before ≠ productId := fun of_ => spared ⟨of_,(of_ ▸ owned).unique stands,alive⟩
    exact (stands_without apart).mpr owned
  · exact absurd alive away

theorem sweep_default (v : Variation) (now : Int)
    (owned : v.deletedAt = none → v.productId = productId → v.businessId = businessId) :
    defaultOf id (v.sweep productId businessId now) = (defaultOf id v && decide (id ≠ productId)) := by
  rcases sweep_cases productId businessId v now with ⟨left,spared⟩ | ⟨⟨own,_,_⟩,swept⟩
  · refine mark_cleared (fun id _ => by rw [left]) ?_
    rw [left,defaultOf,Bool.eq_false_iff]
    intro found
    simp only [Bool.and_eq_true,decide_eq_true_eq] at found
    obtain ⟨⟨own,alive⟩,_⟩ := found
    exact spared ⟨own,owned alive own,alive⟩
  · refine mark_cleared (fun id apart => ?_) ?_
    · simp [swept,defaultOf,own,Ne.symm apart]
    · simp [swept,defaultOf]

theorem sweep_primary (code : Barcode) (now : Int) (chosen : primaryOf id (code.sweep productId businessId now) = true) :
    primaryOf id code = true := by
  rcases sweep_code_cases productId businessId code now with ⟨left,_⟩ | ⟨_,swept⟩
  · rwa [left] at chosen
  · rw [swept] at chosen
    simp [primaryOf] at chosen

theorem sound_deleteProduct {now : Int} (sound : Sound s) (done : deleteProduct s productId businessId now = .ok t) :
    Sound t := by
  obtain ⟨product,read,rfl⟩ := deleteProduct_ok done
  obtain ⟨found,own,alive⟩ := findProduct_some.mp read
  have stands : Stands s productId businessId := ⟨product,found,alive,own⟩
  rw [Sound,expected_without found]
  refine ⟨?_,?_,?_,?_,sound.skus.set_same found rfl,?_,?_⟩
  · intro id
    have same : ∀ v ∈ s.variations, defaultOf id (v.sweep productId businessId now) =
        (defaultOf id v && decide (id ≠ productId)) :=
      fun v inside => sweep_default v now fun living of_ => (of_ ▸ sound.variations v inside living).unique stands
    rw [without,countP_map_of same]
    by_cases mine : id = productId
    · simp [mine]
    · simpa [mine] using sound.counted id
  · refine stands_swept (fun v => ?_) stands sound.variations
    exact (sweep_cases productId businessId v now).imp_right fun ⟨_,swept⟩ => by rw [swept]; simp
  · refine stands_swept (fun code => ?_) stands sound.barcodes
    exact (sweep_code_cases productId businessId code now).imp_right fun ⟨_,swept⟩ => by rw [swept]; simp
  · intro id
    refine le_trans ?_ (sound.primary id)
    rw [without,List.countP_map]
    exact List.countP_mono_left fun code _ chosen => sweep_primary code now chosen
  · refine sound.variationSkus.map fun v => ?_
    rcases sweep_cases productId businessId v now with ⟨left,_⟩ | ⟨_,swept⟩
    · rw [left]
    · rw [swept]
      rfl
  · refine sound.codes.map fun code => ?_
    rcases sweep_code_cases productId businessId code now with ⟨left,_⟩ | ⟨_,swept⟩
    · rw [left]
    · rw [swept]
      rfl

/-- Products and barcodes stay in their places; a barcode goes with its product only. -/
structure Grows (s t : State) : Prop where
  products : ∀ (id : Nat) (product : Product), s.products[id]? = some product →
    ∃ later, t.products[id]? = some later ∧ later.businessId = product.businessId ∧
      (later.deletedAt = none → product.deletedAt = none)
  codes : ∀ (i : Nat) (code : Barcode), s.barcodes[i]? = some code →
    ∃ later, t.barcodes[i]? = some later ∧ later.businessId = code.businessId ∧ later.productId = code.productId ∧
      later.barcode = code.barcode ∧
      (code.deletedAt = none → later.deletedAt ≠ none → ¬Stands t code.productId code.businessId)

theorem Grows.refl (s : State) : Grows s s :=
  ⟨fun _ product found => ⟨product,found,rfl,id⟩,
    fun _ code found => ⟨code,found,rfl,rfl,rfl,fun alive gone => absurd alive gone⟩⟩

theorem Grows.trans (sound : Sound s) (first : Grows s t) (second : Grows t u) : Grows s u := by
  constructor
  · intro id product found
    obtain ⟨middle,there,own,before⟩ := first.products id product found
    obtain ⟨last,final,business,earlier⟩ := second.products id middle there
    exact ⟨last,final,business.trans own,fun alive => before (earlier alive)⟩
  · intro i code found
    obtain ⟨middle,there,own,product,value,gone⟩ := first.codes i code found
    obtain ⟨last,final,business,of_,text,lost⟩ := second.codes i middle there
    refine ⟨last,final,business.trans own,of_.trans product,text.trans value,?_⟩
    intro alive deleted
    have stood := sound.barcodes code (List.mem_of_getElem? found) alive
    by_cases living : middle.deletedAt = none
    · rw [← product,← own]
      exact lost living deleted
    · intro stands
      obtain ⟨held,there,own,_⟩ := stood
      obtain ⟨product',place,business,_⟩ := first.products _ held there
      obtain ⟨final',place',business',before⟩ := second.products _ product' place
      obtain ⟨found',same,living',mine⟩ := stands
      cases place'.symm.trans same
      exact gone alive living ⟨product',place,before living',business'.symm.trans mine⟩

theorem grows_append {new : Product} (products : t.products = s.products ++ [new]) (barcodes : t.barcodes = s.barcodes) :
    Grows s t := by
  constructor
  · intro id product found
    have small : id < s.products.length := (List.getElem?_eq_some_iff.mp found).1
    exact ⟨product,by rw [products,List.getElem?_append_left small,found],rfl,fun alive => alive⟩
  · intro i code found
    exact ⟨code,by rw [barcodes,found],rfl,rfl,rfl,fun alive gone => absurd alive gone⟩

theorem grows_beside (beside : Beside s t) : Grows s t := by
  constructor
  · intro id product found
    exact ⟨product,by rw [beside.products,found],rfl,fun alive => alive⟩
  · intro i code found
    exact ⟨code,by rw [beside.barcodes,found],rfl,rfl,rfl,fun alive gone => absurd alive gone⟩

theorem grows_updateProduct {data : UpdateProductRequest} (done : updateProduct s productId businessId data = .ok t) :
    Grows s t := by
  obtain ⟨product,read,_,rfl⟩ := updateProduct_ok done
  have found := (findProduct_some.mp read).1
  constructor
  · intro id before there
    by_cases mine : id = productId
    · subst mine
      cases found.symm.trans there
      have small : id < s.products.length := (List.getElem?_eq_some_iff.mp found).1
      exact ⟨updated product data,by simp [small],rfl,fun alive => alive⟩
    · exact ⟨before,by simpa [List.getElem?_set_ne (Ne.symm mine)] using there,rfl,fun alive => alive⟩
  · intro i code there
    exact ⟨code,there,rfl,rfl,rfl,fun alive gone => absurd alive gone⟩

theorem grows_addBarcode {data : CreateBarcodeRequest} (done : addBarcode s productId businessId data = .ok t) :
    Grows s t := by
  obtain ⟨_,new,_,_,_,_,_,_,rfl⟩ := addBarcode_ok done
  refine ⟨fun _ product found => ⟨product,found,rfl,fun alive => alive⟩,?_⟩
  intro i code found
  have small : i < s.barcodes.length := (List.getElem?_eq_some_iff.mp found).1
  cases data.isPrimary with
  | false =>
    refine ⟨code,?_,rfl,rfl,rfl,fun alive gone => absurd alive gone⟩
    simpa [List.getElem?_append_left small] using found
  | true =>
    obtain ⟨product,own,deleted,value⟩ := unset_code_kept productId businessId code
    refine ⟨code.unset productId businessId,?_,own,product,value,fun alive gone => absurd (deleted.trans alive) gone⟩
    show ((s.barcodes.map (Barcode.unset productId businessId)) ++ [new])[i]? = _
    rw [List.getElem?_append_left (by simpa using small),List.getElem?_map,found]
    rfl

theorem grows_deleteProduct {now : Int} (done : deleteProduct s productId businessId now = .ok t) :
    Grows s t := by
  obtain ⟨product,read,rfl⟩ := deleteProduct_ok done
  obtain ⟨found,_,_⟩ := findProduct_some.mp read
  have small : productId < s.products.length := (List.getElem?_eq_some_iff.mp found).1
  constructor
  · intro id before there
    by_cases mine : id = productId
    · subst mine
      cases found.symm.trans there
      exact ⟨{ product with deletedAt := some now },by simp [without,small],rfl,fun alive => by cases alive⟩
    · exact ⟨before,by simpa [without,List.getElem?_set_ne (Ne.symm mine)] using there,rfl,fun alive => alive⟩
  · intro i code there
    have place : (without s productId businessId product now).barcodes[i]? = some (code.sweep productId businessId now) := by
      simp [without,there]
    rcases sweep_code_cases productId businessId code now with ⟨left,_⟩ | ⟨⟨of_,_,_⟩,swept⟩
    · rw [left] at place
      exact ⟨code,place,rfl,rfl,rfl,fun alive gone => absurd alive gone⟩
    · rw [swept] at place
      refine ⟨_,place,rfl,rfl,rfl,?_⟩
      rintro _ _ ⟨gone,final,living,_⟩
      rw [of_] at final
      simp [without,small] at final
      subst final
      cases living

theorem answer_kept {request : Request} (sound : Sound s) (done : answer s request = .ok t) : Sound t ∧ Grows s t := by
  cases request with
  | createProduct businessId data =>
    obtain ⟨kept,new,products,barcodes⟩ := sound_createProduct sound done
    exact ⟨kept,grows_append products barcodes⟩
  | updateProduct productId businessId data => exact ⟨sound_updateProduct sound done,grows_updateProduct done⟩
  | addVariation productId businessId data => exact (sound_addVariation sound done).imp_right grows_beside
  | updateVariation variationId productId businessId data => exact (sound_updateVariation sound done).imp_right grows_beside
  | addBarcode productId businessId data => exact ⟨sound_addBarcode sound done,grows_addBarcode done⟩
  | deleteProduct productId businessId now => exact ⟨sound_deleteProduct sound done,grows_deleteProduct done⟩
  | others references locations prices =>
    cases done
    exact ⟨⟨sound.counted,sound.variations,sound.barcodes,sound.primary,sound.skus,sound.variationSkus,sound.codes⟩,
      grows_beside ⟨rfl,rfl⟩⟩

theorem run_kept (sound : Sound s) (requests : List Request) :
    Sound (requests.foldl served s) ∧ Grows s (requests.foldl served s) := by
  refine Service.run_relation (I := fun _ => True) (R := fun s t => Sound s → Sound t ∧ Grows s t) ?_ ?_ ?_ trivial requests sound
  · exact fun s sound => ⟨sound,Grows.refl s⟩
  · intro s t u first second sound
    obtain ⟨next,step⟩ := first sound
    exact (second next).imp_right fun later => step.trans sound later
  · exact fun s request t _ done => ⟨trivial,fun sound => answer_kept sound done⟩

theorem sound_init : Sound .init := by
  refine ⟨?_,?_,?_,?_,.nil,.nil,.nil⟩ <;> simp [State.init,expected]

theorem key_of_liveCode {value : String} {code : Barcode} (hit : liveCode businessId value code = true) :
    code.key = some (businessId,value) ∧ code.deletedAt = none := by
  simp only [liveCode,Bool.and_eq_true,decide_eq_true_eq,Option.isNone_iff_eq_none] at hit
  obtain ⟨⟨rfl,rfl⟩,alive⟩ := hit
  exact ⟨rfl,alive⟩

/-- A barcode finds its product as long as the product stands. -/
theorem search_code (sound : Sound s) {i : Nat} {code : Barcode} (found : s.barcodes[i]? = some code) :
    (code.deletedAt = none → ∃ product, s.products[code.productId]? = some product ∧ product.deletedAt = none ∧
        searchByBarcode s code.businessId code.barcode = .ok (code.productId,product)) ∧
      (code.deletedAt ≠ none →
        searchByBarcode s code.businessId code.barcode = .error (.http 404 "Product not found for barcode")) := by
  have keyed : ∀ row ∈ s.barcodes, liveCode code.businessId code.barcode row = true →
      row.key = some (code.businessId,code.barcode) := fun row _ hit => (key_of_liveCode hit).1
  have only : ∀ row ∈ s.barcodes, liveCode code.businessId code.barcode row = true → row = code := by
    intro row inside hit
    obtain ⟨j,place⟩ := List.mem_iff_getElem?.mp inside
    have same : j = i := sound.codes.place place found (keyed row inside hit) rfl
    subst same
    exact Option.some.inj (place.symm.trans found)
  constructor
  · intro alive
    have hit : liveCode code.businessId code.barcode code = true := by simp [liveCode,alive]
    have chosen : s.barcodes.filter (liveCode code.businessId code.barcode) = [code] := by
      have inside : code ∈ s.barcodes.filter (liveCode code.businessId code.barcode) :=
        List.mem_filter.mpr ⟨List.mem_of_getElem? found,hit⟩
      rcases sound.codes.filter_cases keyed with nothing | ⟨row,_,_,single⟩
      · rw [nothing] at inside
        cases inside
      · rw [single] at inside
        rw [single,List.mem_singleton.mp inside]
    obtain ⟨product,there,living,own⟩ := sound.barcodes code (List.mem_of_getElem? found) alive
    have read : getProductById s code.productId code.businessId = .ok product :=
      getProductById_ok.mpr (findProduct_some.mpr ⟨there,own,living⟩)
    exact ⟨product,there,living,by simp [searchByBarcode,chosen,read,Except.map]⟩
  · intro gone
    have nothing : s.barcodes.filter (liveCode code.businessId code.barcode) = [] := by
      rw [List.filter_eq_nil_iff]
      intro row inside hit
      have same := only row inside hit
      exact gone (same ▸ (key_of_liveCode hit).2)
    simp [searchByBarcode,nothing]

theorem code_of_search (sound : Sound s) {value : String} (hit : searchByBarcode s businessId value = .ok (productId,product)) :
    ∃ (i : Nat) (code : Barcode), s.barcodes[i]? = some code ∧ code.businessId = businessId ∧ code.barcode = value ∧
      code.productId = productId ∧ code.deletedAt = none := by
  rcases sound.codes.filter_cases (p := liveCode businessId value) fun row _ hit => (key_of_liveCode hit).1 with
    nothing | ⟨code,inside,live,single⟩
  · simp [searchByBarcode,nothing] at hit
  · obtain ⟨i,place⟩ := List.mem_iff_getElem?.mp inside
    obtain ⟨keyed,alive⟩ := key_of_liveCode live
    simp only [Barcode.key,Option.some.injEq,Prod.mk.injEq] at keyed
    refine ⟨i,code,place,keyed.1,keyed.2,?_,alive⟩
    rw [searchByBarcode,single] at hit
    cases read : getProductById s code.productId businessId <;> simp_all [Except.map]

theorem search_caught (sound : Sound s) (businessId : Nat) (value : String) :
    searchByBarcode s businessId value ≠ .error .uncaught := by
  rcases sound.codes.filter_cases (p := liveCode businessId value) fun row _ hit => (key_of_liveCode hit).1 with
    nothing | ⟨code,inside,live,single⟩
  · simp [searchByBarcode,nothing]
  · obtain ⟨i,place⟩ := List.mem_iff_getElem?.mp inside
    obtain ⟨keyed,alive⟩ := key_of_liveCode live
    simp only [Barcode.key,Option.some.injEq,Prod.mk.injEq] at keyed
    obtain ⟨rfl,rfl⟩ := keyed
    obtain ⟨product,_,_,answered⟩ := (search_code sound place).1 alive
    simp [answered]

/-- In every run each product that stands has one default variation, keys are distinct and nothing is left of a deleted
product; a barcode that finds a product finds it until the product is deleted, and nothing from then on. -/
theorem catalogue_kept (requests more : List Request) (businessId : Nat) (value : String) :
    Sound (requests.foldl served .init) ∧
      searchByBarcode (requests.foldl served .init) businessId value ≠ .error .uncaught ∧
      ∀ productId product, searchByBarcode (requests.foldl served .init) businessId value = .ok (productId,product) →
        Stands (requests.foldl served .init) productId businessId ∧
        (Stands ((requests ++ more).foldl served .init) productId businessId →
          ∃ later, searchByBarcode ((requests ++ more).foldl served .init) businessId value = .ok (productId,later)) ∧
        (¬Stands ((requests ++ more).foldl served .init) productId businessId →
          searchByBarcode ((requests ++ more).foldl served .init) businessId value =
            .error (.http 404 "Product not found for barcode")) := by
  obtain ⟨sound,_⟩ := run_kept sound_init requests
  refine ⟨sound,search_caught sound businessId value,?_⟩
  intro productId product hit
  rw [List.foldl_append]
  obtain ⟨final,grows⟩ := run_kept sound more
  obtain ⟨i,code,place,rfl,rfl,rfl,alive⟩ := code_of_search sound hit
  obtain ⟨later,there,own,of_,text,gone⟩ := grows.codes i code place
  have stands := sound.barcodes code (List.mem_of_getElem? place) alive
  refine ⟨stands,?_,?_⟩
  · intro standing
    have living : later.deletedAt = none := by
      by_contra deleted
      exact gone alive deleted standing
    obtain ⟨next,_,_,answered⟩ := (search_code final there).1 living
    rw [own,of_,text] at answered
    exact ⟨next,answered⟩
  · intro fallen
    have deleted : later.deletedAt ≠ none := by
      intro living
      have standing := final.barcodes later (List.mem_of_getElem? there) living
      rw [own,of_] at standing
      exact fallen standing
    have answered := (search_code final there).2 deleted
    rwa [own,text] at answered

end Catalogue
