/-!
# Directives

A directive changes the load modes of one entity's attributes. As written by the application its
attributes are texts that may carry a relationship path (`WrittenDirective`); once the path is
split off it speaks of attributes of the entity at the end of that path (`Directive`).
-/

set_option autoImplicit false

namespace LazyMapper

/-- Which attributes a directive is about. -/
inductive Selector where
  /-- All attributes of the entity, written as a star. -/
  | all
  | named (name : String)
deriving DecidableEq, Repr

/-- A change to the load modes of one entity's attributes. -/
inductive Directive where
  /-- Leave the attributes out of the row; on access raise an error or load them. -/
  | defer (attributes : Selector) (raising : Bool)
  /-- Load the attributes with the row. -/
  | undefer (attributes : Selector)
  /-- Load the attributes of a deferred group with the row. -/
  | undeferGroup (group : String)
  /-- Leave out of the row all attributes but the named ones and the primary key. -/
  | loadOnly (names : List String) (raising : Bool)
deriving DecidableEq, Repr

namespace Directive

/-- The directive is about all attributes of its entity, or about all but some. -/
def isSweeping : Directive → Bool
  | .defer .all _ | .undefer .all | .loadOnly .. => true
  | .defer (.named _) _ | .undefer (.named _) | .undeferGroup _ => false

end Directive

/-- A directive as written. -/
inductive WrittenDirective where
  | defer (reference : String) (raising : Bool)
  | undefer (reference : String)
  | undeferGroup (reference : String)
  | loadOnly (references : List String) (raising : Bool)
deriving DecidableEq, Repr

namespace WrittenDirective

/-- The directive with its attributes raising on access, or not. Only directives that leave
attributes out of the row can do so. -/
def withRaising (directive : WrittenDirective) (raising : Bool) : WrittenDirective :=
  match directive with
  | .defer reference _ => .defer reference raising
  | .loadOnly references _ => .loadOnly references raising
  | other => other

/-- The text of a directive in messages. -/
def describe : WrittenDirective → String
  | .defer reference true => s!"raiseload({reference})"
  | .defer reference false => s!"defer({reference})"
  | .undefer reference => s!"undefer({reference})"
  | .undeferGroup reference => s!"undefer_group({reference})"
  | .loadOnly references _ =>
    let list := ", ".intercalate references
    s!"load_only({list})"

end WrittenDirective

end LazyMapper
