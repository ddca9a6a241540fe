import LazyMapper.Session.Program

/-!
# Models by the names of their types

An application has one model for each of its types, so an entity or a model met anywhere is the
one that its type name stands for. `models` says which that is. Entities that compare equal are
equal then.
-/

set_option autoImplicit false

namespace LazyMapper

/-- The entity is that of the model its type name stands for. -/
def Entity.Typed (models : String → Model) (entity : Entity) : Prop :=
  (models entity.typeName).entity = entity

/-- The model is the one its type name stands for. -/
def Model.Typed (models : String → Model) (model : Model) : Prop :=
  models model.entity.typeName = model

/-- The entities of the schema belong to models. -/
def Schema.Typed (models : String → Model) (schema : Schema) : Prop :=
  ∀ name entity, schema.find? name = some entity → entity.Typed models

/-- The entities of the statement belong to models. -/
def Statement.Typed (models : String → Model) (statement : Statement) : Prop :=
  ∀ entity ∈ statement.entities, entity.Typed models

namespace Request

/-- The models and statements of the request belong to models. -/
def Typed (models : String → Model) : Request → Prop
  | .all model statement | .first model statement =>
    model.Typed models ∧ statement.Typed models
  | .allPairs left right statement =>
    left.Typed models ∧ right.Typed models ∧ statement.Typed models
  | .get model _ _ | .getByKey model _ _ => model.Typed models
  | .loadRelated parent related statement _ _ =>
    parent.Typed models ∧ related.Typed models ∧ statement.Typed models
  | .compile statement => statement.Typed models
  | _ => True

/-- The models whose instances a request loads from the rows of its query. -/
def loaded : Request → List Model
  | .all model _ | .first model _ | .get model _ _ | .getByKey model _ _ => [model]
  | .allPairs left right _ => [left, right]
  | .loadRelated _ related _ _ _ => [related]
  | _ => []

/-- The instance that a request reads, writes, expires or refreshes. -/
def through? : Request → Option Nat
  | .load number _ | .set number _ _ | .expire number _ | .refresh number => some number
  | _ => none

end Request

variable {models : String → Model}

theorem Model.Typed.entity {model : Model} (typed : model.Typed models) :
    model.entity.Typed models :=
  congrArg Model.entity typed

/-- Models of one type are equal. -/
theorem Model.Typed.eq {model other : Model} (typed : model.Typed models)
    (typed' : other.Typed models) (same : model.entity.typeName = other.entity.typeName) :
    model = other := by
  rw [← typed, same, typed']

theorem Entity.Typed.eq_of_beq {entity other : Entity} (typed : entity.Typed models)
    (typed' : other.Typed models) (alike : (entity == other) = true) : entity = other := by
  have names : entity.typeName = other.typeName := by
    have both : (entity.typeName == other.typeName && entity.table == other.table) = true := alike
    rw [Bool.and_eq_true, beq_iff_eq] at both
    exact both.1
  rw [← typed, names, typed']

theorem Request.Typed.loaded {request : Request} (typed : request.Typed models) {model : Model}
    (member : model ∈ request.loaded) : model.Typed models := by
  cases request with
  | all | first =>
      obtain rfl := List.mem_singleton.mp member
      exact typed.1
  | get | getByKey =>
      obtain rfl := List.mem_singleton.mp member
      exact typed
  | loadRelated =>
      obtain rfl := List.mem_singleton.mp member
      exact typed.2.1
  | allPairs =>
      rcases List.mem_cons.mp member with rfl | member
      · exact typed.1
      · obtain rfl := List.mem_singleton.mp member
        exact typed.2.1
  | compile | begin | commit | rollback | expireAll | expungeAll | enableTracker | disableTracker
  | resetTracker | recordLoad | load | set | expire | refresh | expunge | clone =>
      cases member

end LazyMapper
