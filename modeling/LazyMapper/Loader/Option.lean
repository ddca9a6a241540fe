import LazyMapper.Entity.Basic
import LazyMapper.Loader.Directive

/-!
# Loader options

An option is a node with a relationship path relative to its parent, at most one directive, and
nested options whose paths continue its own. The outermost option may name the root entity its
path starts from; otherwise the statement's entities decide. Nothing is checked while an option
is put together.
-/

set_option autoImplicit false

namespace LazyMapper

/-- A loader option. -/
structure LoaderOption where
  /-- The root entity, if the option names it. -/
  root? : Option Entity
  path : String
  directive? : Option WrittenDirective
  children : List LoaderOption

namespace LoaderOption

/-! ## Putting options together -/

/-- The option of a directive at the empty path. -/
def ofDirective (directive : WrittenDirective) : LoaderOption := ⟨none, "", some directive, []⟩

/-- The option that leaves an attribute out of the row. -/
def defer (reference : String) : LoaderOption := ofDirective (.defer reference false)

/-- The option that loads an attribute with the row. -/
def undefer (reference : String) : LoaderOption := ofDirective (.undefer reference)

/-- The option that loads a deferred group with the row. -/
def undeferGroup (reference : String) : LoaderOption := ofDirective (.undeferGroup reference)

/-- The option that leaves all attributes but the named ones out of the row. -/
def loadOnly (references : List String) : LoaderOption :=
  ofDirective (.loadOnly references false)

/-- The option without a directive, which scopes nested options to a path. -/
def atPath (path : String) : LoaderOption := ⟨none, path, none, []⟩

/-- The option without path and directive which names its root entity. -/
def ofRoot (entity : Entity) : LoaderOption := ⟨some entity, "", none, []⟩

/-- The option with its attributes raising on access, or not. -/
def withRaising (option : LoaderOption) (raising : Bool) : LoaderOption :=
  { option with directive? := option.directive?.map (·.withRaising raising) }

/-- The option that leaves an attribute out of the row and raises on access. -/
def raising (reference : String) : LoaderOption := (defer reference).withRaising true

/-- The option with more nested options behind those it has. -/
def nest (option : LoaderOption) (more : List LoaderOption) : LoaderOption :=
  { option with children := option.children ++ more }

/-! ## Texts -/

/-- The text of an option in messages. -/
def describe (option : LoaderOption) : String :=
  let body :=
    match option.directive? with
    | some directive => directive.describe
    | none => if option.path.isEmpty then "" else s!"defaultload({option.path})"
  match option.root? with
  | none => body
  | some entity =>
    if body.isEmpty then s!"Load({entity.table})" else s!"Load({entity.table}).{body}"

/-! ## Equality -/

mutual

/-- Equality of options, their root entities compared as entities. -/
protected def beq : LoaderOption → LoaderOption → Bool
  | ⟨root, path, directive, children⟩, ⟨root', path', directive', children'⟩ =>
    root == root' && path == path' && directive == directive' && beqAll children children'
termination_by structural left => left

/-- Equality of lists of options. -/
def beqAll : List LoaderOption → List LoaderOption → Bool
  | [], [] => true
  | left :: lefts, right :: rights => left.beq right && beqAll lefts rights
  | _, _ => false
termination_by structural lefts => lefts

end

instance : BEq LoaderOption := ⟨LoaderOption.beq⟩

end LoaderOption

end LazyMapper
