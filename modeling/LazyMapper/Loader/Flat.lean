import LazyMapper.Loader.Option
import LazyMapper.Loader.Reference

/-!
# Flattened options

Flattening turns a nested option into the list of its nodes, each with its full path from the
root, in the order in which they are written: a node before its nested options. A node's own
directive may reach beyond its path, its nested options continue from the path alone. Nested
options take their root from the outermost one and must not name another.
-/

set_option autoImplicit false

namespace LazyMapper

/-- A node of an option with its full path. -/
structure FlatOption where
  root? : Option Entity
  path : Path
  directive? : Option Directive
  /-- The text of the node in messages. -/
  label : String

namespace LoaderOption

/-- A node without its nested options. `base` is the path of the node it is nested in. -/
def flattenNode (root? : Option Entity) (path : Path) (option : LoaderOption) :
    Except LoaderFault FlatOption :=
  match option.directive? with
  | none => .ok ⟨root?, path, none, option.describe⟩
  | some written => do
    let (reach, directive) ← written.read
    return ⟨root?, path ++ reach, some directive, written.describe⟩

mutual

/-- The nodes of an option below a path. -/
def flatten (root? : Option Entity) (base : Path) :
    LoaderOption → Except LoaderFault (List FlatOption)
  | ⟨ownRoot, path, directive, children⟩ => do
    let here := base ++ (← Path.read path)
    let node ← flattenNode root? here ⟨ownRoot, path, directive, []⟩
    return node :: (← flattenNested root? here children)
termination_by structural option => option

/-- The nodes of nested options below a path. -/
def flattenNested (root? : Option Entity) (base : Path) :
    List LoaderOption → Except LoaderFault (List FlatOption)
  | [] => .ok []
  | option :: rest => do
    if option.root?.isSome then throw (.nestedRoot option.describe)
    let first ← option.flatten root? base
    return first ++ (← flattenNested root? base rest)
termination_by structural options => options

end

/-- The nodes of a list of outermost options. -/
def flattenAll : List LoaderOption → Except LoaderFault (List FlatOption)
  | [] => .ok []
  | option :: rest => do
    let first ← option.flatten option.root? []
    return first ++ (← flattenAll rest)

end LoaderOption

end LazyMapper
