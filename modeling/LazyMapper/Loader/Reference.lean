import LazyMapper.Error
import LazyMapper.Loader.Directive
import LazyMapper.Text.Dotted

/-!
# Relationship paths and attribute references

A relationship path is a chain of names joined by dots; the empty text is the empty path. An
attribute reference is a name, or a star for all attributes, behind a relationship path and a
dot. The path in front is what stands before the last dot, so it is read like any other path,
and a reference that begins with its only dot has the empty path.

`WrittenDirective.read` splits the path off a directive as written. The attributes of a
load-only directive must all have the same path.
-/

set_option autoImplicit false

namespace LazyMapper

/-- A chain of relationship names. -/
abbrev Path := List String

namespace Path

/-- A token that must be a name. `raw` is the text it was cut out of. -/
def readName (raw : String) (token : List Char) : Except LoaderFault String :=
  if Text.isName token then .ok (String.ofList token)
  else .error (.malformedToken raw (String.ofList token))

/-- Reads a relationship path. -/
def read (raw : String) : Except LoaderFault Path :=
  if raw.isEmpty then .ok [] else (Text.splitDots raw.toList).mapM (readName raw)

/-- The path as text. -/
def toText (path : Path) : String := ".".intercalate path

/-- The path in front of the last dot of a text, and what stands behind it. -/
def readUpToLeaf (raw : String) : Except LoaderFault (Path × List Char) :=
  match Text.splitLastDot raw.toList with
  | some (front, leaf) => do return (← read (String.ofList front), leaf)
  | none => .ok ([], raw.toList)

end Path

namespace Selector

/-- Reads an attribute reference. -/
def read (raw : String) : Except LoaderFault (Path × Selector) := do
  let (path, leaf) ← Path.readUpToLeaf raw
  if leaf = ['*'] then return (path, .all)
  return (path, .named (← Path.readName raw leaf))

end Selector

namespace WrittenDirective

/-- The names of the attributes of a load-only directive and the path they share, none when there
are no attributes. `path?` is the path of the attributes before, `all` the whole list. -/
def readNames (all : List String) (path? : Option Path) :
    List String → Except LoaderFault (Option Path × List String)
  | [] => .ok (path?, [])
  | reference :: rest => do
    let (path, selector) ← Selector.read reference
    match selector with
    | .all => .error (.starInLoadOnly all)
    | .named name =>
      if path?.any (· != path) then .error (.mixedPaths all)
      else
        let (shared, names) ← readNames all (some (path?.getD path)) rest
        return (shared, name :: names)

/-- Splits the path off a directive. -/
def read : WrittenDirective → Except LoaderFault (Path × Directive)
  | .defer reference raising => do
    let (path, selector) ← Selector.read reference
    return (path, .defer selector raising)
  | .undefer reference => do
    let (path, selector) ← Selector.read reference
    return (path, .undefer selector)
  | .undeferGroup reference => do
    let (path, leaf) ← Path.readUpToLeaf reference
    return (path, .undeferGroup (← Path.readName reference leaf))
  | .loadOnly references raising => do
    let (path?, names) ← readNames references none references
    return (path?.getD [], .loadOnly names raising)

end WrittenDirective

end LazyMapper
