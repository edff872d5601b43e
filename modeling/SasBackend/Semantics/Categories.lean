import Mathlib.Data.List.Sort
import SasBackend.Library.Forest
import SasBackend.Library.Service

/-! Product categories of a table that businesses share. A category's id is its place in the table.
-/
namespace Categories
open Forest Relation
open Outcome (refuseIf)
open Service (HTTPException)

structure Category where
  businessId : Nat
  parentId : Option Nat
  name : String
  sortOrder : Int
  isActive : Bool
  deletedAt : Option Int

structure Product where
  businessId : Nat
  categoryId : Option Nat
  isActive : Bool
  deletedAt : Option Int

structure State where
  categories : List Category
  products : List Product

structure CreateCategoryRequest where
  name : String
  parentId : Option Nat
  sortOrder : Int

structure UpdateCategoryRequest where
  name : Option String
  parentId : Option Nat
  sortOrder : Option Int
  isActive : Option Bool

def findCategory (s : State) (categoryId businessId : Nat) : Option Category :=
  s.categories[categoryId]?.filter fun category => category.businessId = businessId && category.deletedAt.isNone

def getCategoryById (s : State) (categoryId businessId : Nat) : Except HTTPException Category :=
  match findCategory s categoryId businessId with
  | some category => .ok category
  | none => .error ⟨404,"Category not found"⟩

/-- The order of a listing; `collate` compares names as the database does. -/
def before (collate : String → String → Bool) (s : State) (first second : Nat) : Prop :=
  match s.categories[first]?,s.categories[second]? with
  | some a,some b => a.sortOrder < b.sortOrder ∨ a.sortOrder = b.sortOrder ∧ collate a.name b.name = true
  | _,_ => True

instance (collate : String → String → Bool) (s : State) : DecidableRel (before collate s) := fun first second => by
  unfold before
  split <;> infer_instance

/-- The ids of the categories listed under the parent, or of the roots. -/
def getCategories (collate : String → String → Bool) (s : State) (businessId : Nat) (parentId : Option Nat) : List Nat :=
  ((List.range s.categories.length).filter fun id =>
    (findCategory s id businessId).any fun category => category.parentId = parentId).insertionSort (before collate s)

def checkParent (s : State) (businessId : Nat) (parentId : Option Nat) : Except HTTPException Unit :=
  match parentId with
  | none => .ok ()
  | some parentId => do
    let _ ← getCategoryById s parentId businessId
    return ()

def createCategory (s : State) (businessId : Nat) (data : CreateCategoryRequest) : Except HTTPException State := do
  checkParent s businessId data.parentId
  return { s with categories := s.categories ++ [⟨businessId,data.parentId,data.name,data.sortOrder,true,none⟩] }

def updateCategory (s : State) (categoryId businessId : Nat) (data : UpdateCategoryRequest) : Except HTTPException State := do
  let category ← getCategoryById s categoryId businessId
  refuseIf (data.parentId = some categoryId) ⟨400,"Category cannot be its own parent"⟩
  checkParent s businessId data.parentId
  return { s with categories := s.categories.set categoryId { category with
    parentId := data.parentId.or category.parentId
    name := data.name.getD category.name
    sortOrder := data.sortOrder.getD category.sortOrder
    isActive := data.isActive.getD category.isActive } }

/-- The category has products of the business that are for sale. -/
def hasProducts (s : State) (categoryId businessId : Nat) : Bool :=
  s.products.any fun product => product.categoryId = some categoryId && product.businessId = businessId &&
    product.deletedAt.isNone && product.isActive

def deleteCategory (s : State) (categoryId businessId : Nat) (now : Int) : Except HTTPException State := do
  let category ← getCategoryById s categoryId businessId
  refuseIf (hasProducts s categoryId businessId) ⟨400,"Cannot delete category with active products"⟩
  return { s with categories := s.categories.set categoryId { category with deletedAt := some now } }

inductive Request
  | create (businessId : Nat) (data : CreateCategoryRequest)
  | update (categoryId businessId : Nat) (data : UpdateCategoryRequest)
  | delete (categoryId businessId : Nat) (now : Int)
  /-- Another request changes the products. -/
  | setProducts (products : List Product)

def answer (s : State) : Request → Except HTTPException State
  | .create businessId data => createCategory s businessId data
  | .update categoryId businessId data => updateCategory s categoryId businessId data
  | .delete categoryId businessId now => deleteCategory s categoryId businessId now
  | .setProducts products => .ok { s with products := products }

def served : State → Request → State := Service.served answer

def State.init : State := ⟨[],[]⟩

/-- The live categories of a business and their parents. -/
def links (s : State) (businessId : Nat) : Links Nat := fun id => (findCategory s id businessId).map (·.parentId)

/-- The categories that come back from rounds of calls: for the roots, then for each category of the round before. -/
def browse (collate : String → String → Bool) (s : State) (businessId rounds : Nat) : List Nat :=
  traverse (fun id => getCategories collate s businessId (some id)) rounds (getCategories collate s businessId none)

/-- No live category is above itself, and each comes back exactly once, however long the calls go on. -/
structure Hierarchy (collate : String → String → Bool) (s : State) : Prop where
  acyclic : ∀ businessId id, ¬TransGen (Up (links s businessId)) id id
  once : ∀ businessId id rounds, (findCategory s id businessId).isSome → s.categories.length ≤ rounds →
    (browse collate s businessId rounds).count id = 1

/-- No category goes under one below it, and none with live children is deleted. -/
def Spares (s : State) : Request → Prop
  | .update categoryId businessId data => ∀ parentId, data.parentId = some parentId → parentId ≠ categoryId →
    (findCategory s categoryId businessId).isSome → (findCategory s parentId businessId).isSome →
      ¬TransGen (Up (links s businessId)) parentId categoryId
  | .delete categoryId businessId _ => (findCategory s categoryId businessId).isSome →
    hasProducts s categoryId businessId = false → ∀ child, ¬Up (links s businessId) child categoryId
  | _ => True

end Categories
