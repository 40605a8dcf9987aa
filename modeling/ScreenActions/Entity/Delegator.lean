import ScreenActions.Entity.Condition

/-! Access to stored entities. -/

namespace ScreenActions

/-- A record of an entity. -/
structure Entity where
  name : String
  fields : ValueMap
  deriving Repr

def Entity.value (e : Entity) : Value := .entity e.name e.fields

inductive EntityError
  | unknownEntity (entity : String)
  | unknownRelation (entity relation : String)
  | query (reason : String)
  deriving DecidableEq, Repr

def EntityError.message : EntityError → String
  | .unknownEntity entity => "Unknown entity: " ++ entity
  | .unknownRelation entity relation =>
      "Unknown relation [" ++ relation ++ "] on entity " ++ entity
  | .query reason => "Entity query failed: " ++ reason

/-- A query for a list; no selected fields means all fields. -/
structure EntityQuery where
  entity : String
  condition : Option EntityCondition
  select : List String
  orderBy : List String
  useCache : Bool
  distinct : Bool
  filterByDate : Bool
  deriving Repr

/-- Who answers queries; `ω` is what answering may change. -/
structure Delegator (ω : Type) where
  primaryKey : String → ω → Except EntityError (List String) × ω
  findOne : String → ValueMap → Bool → ω → Except EntityError (Option Entity) × ω
  findList : EntityQuery → ω → Except EntityError (List Entity) × ω
  relatedOne : Entity → String → Bool → ω → Except EntityError (Option Entity) × ω
  /-- Entity, relation, fields that must be equal, order, use of the cache. -/
  related : Entity → String → Option ValueMap → List String → Bool → ω →
    Except EntityError (List Entity) × ω

end ScreenActions
