import LazyMapper.Loader.Target

/-!
# Option trees

The options of a statement come together in one tree per root table, with a node for every
relationship path below which some directive is attached. The directives at a node keep the
order in which they are written. A path at which nothing is attached has no directives, which
means the defaults of the mapping.

Nodes that belong to one parent form a forest, ordered by name and written as first node, nodes
below it, nodes next to it. The roots form a forest as well, named by their tables, so a node is
reached from the top by a path that begins with a table.
-/

set_option autoImplicit false

namespace LazyMapper

/-- The nodes of one parent in the order of their names. -/
inductive OptionForest where
  | empty
  | node (name : String) (directives : List Directive) (below next : OptionForest)
deriving DecidableEq, Repr

/-- What is attached at a path and below it. -/
structure OptionNode where
  directives : List Directive
  below : OptionForest
deriving DecidableEq, Repr

namespace OptionForest

/-- The directives to be attached at the first name of a path when the rest of it is given: none
unless the path ends there. -/
def attachedHere (rest : Path) (directive : Directive) : List Directive :=
  if rest.isEmpty then [directive] else []

/-- The forest of a single path, with a directive at its end. -/
def ofPath (directive : Directive) : Path → OptionForest
  | [] => .empty
  | name :: rest => .node name (attachedHere rest directive) (ofPath directive rest) .empty

/-- The forest with one more directive at a path, behind those that are there. -/
def insert (directive : Directive) : OptionForest → Path → OptionForest
  | forest, [] => forest
  | .empty, path => ofPath directive path
  | .node name directives below next, first :: rest =>
    if first = name then
      .node name (directives ++ attachedHere rest directive) (below.insert directive rest) next
    else if first < name then
      .node first (attachedHere rest directive) (ofPath directive rest)
        (.node name directives below next)
    else .node name directives below (next.insert directive (first :: rest))
termination_by structural forest => forest

/-- The node of a name. -/
def child? (name : String) : OptionForest → Option OptionNode
  | .empty => none
  | .node other directives below next =>
    if name = other then some ⟨directives, below⟩ else next.child? name

/-- The names of the nodes. -/
def names : OptionForest → List String
  | .empty => []
  | .node name _ _ next => name :: next.names

/-- The nodes with their names. -/
def children : OptionForest → List (String × OptionNode)
  | .empty => []
  | .node name directives below next => (name, ⟨directives, below⟩) :: next.children

end OptionForest

namespace OptionNode

/-- The node at a path below a node. -/
def descend (node : OptionNode) : Path → Option OptionNode
  | [] => some node
  | name :: rest => (node.below.child? name).bind (descend · rest)

end OptionNode

/-- The options of a statement by root table and path. -/
structure OptionTree where
  roots : OptionForest
deriving DecidableEq, Repr

namespace OptionTree

/-- The tree with nothing attached. -/
def empty : OptionTree := ⟨.empty⟩

/-- Nothing is attached. -/
def isEmpty (tree : OptionTree) : Bool := tree.roots == .empty

/-- The tree with one more directive at a path below a root table. -/
def insert (tree : OptionTree) (table : String) (path : Path) (directive : Directive) :
    OptionTree :=
  ⟨tree.roots.insert directive (table :: path)⟩

/-- The node at a path below a root table, if something is attached there or below. -/
def subtree? (tree : OptionTree) (table : String) (path : Path) : Option OptionNode :=
  (OptionNode.mk [] tree.roots).descend (table :: path)

/-- The directives at a path below a root table. -/
def directivesAt (tree : OptionTree) (table : String) (path : Path) : List Directive :=
  ((tree.subtree? table path).map OptionNode.directives).getD []

/-- The tree with the directives of flattened options, each at its path below its root. Options
without a directive attach nothing, but their root is looked for as well. -/
def attach (entities : List Entity) (tree : OptionTree) :
    List FlatOption → Except LoaderFault OptionTree
  | [] => .ok tree
  | option :: rest => do
    let root ← option.checkedRoot entities
    match option.directive? with
    | some directive => attach entities (tree.insert root.table option.path directive) rest
    | none => attach entities tree rest

/-- The tree of a statement's options over its entities. -/
def build (entities : List Entity) (options : List LoaderOption) :
    Except LoaderFault OptionTree := do
  attach entities empty (← LoaderOption.flattenAll options)

end OptionTree

end LazyMapper
