/-!
# Mapped attributes

A `Field` maps one attribute to a column and says how the attribute is loaded when no statement
says otherwise. It is declared once for a model and never changes: statements override load
modes in their own plans.

The functions named for a property return the field with that property changed; the last change
of a property counts.
-/

set_option autoImplicit false

namespace LazyMapper

/-- How an attribute is loaded when no statement says otherwise. -/
inductive LoadMode where
  /-- Together with the row. -/
  | eager
  /-- Alone, on first access. -/
  | deferred
  /-- With all attributes of the group, on first access to one of them. -/
  | deferredGroup (group : String)
  /-- Never: access is an error. -/
  | raiseOnAccess
deriving DecidableEq, Repr

namespace LoadMode

instance : Inhabited LoadMode := ⟨.eager⟩

/-- The attribute is left out of the row. -/
def isDeferred : LoadMode → Bool
  | .eager => false
  | _ => true

/-- The deferred group, if the attribute is in one. -/
def group? : LoadMode → Option String
  | .deferredGroup group => some group
  | _ => none

end LoadMode

/-- The load policy of one attribute. -/
structure LoadPolicy where
  name : String
  defaultMode : LoadMode
deriving DecidableEq, Repr

/-- A mapped attribute. -/
structure Field where
  name : String
  column : String
  nullable : Bool
  primaryKey : Bool
  /-- The SQL text of the default value. -/
  default? : Option String
  /-- The referenced table and column, joined by a dot. -/
  foreignKey? : Option String
  load : LoadMode
deriving DecidableEq, Repr

namespace Field

/-- An attribute that is loaded with the row and has no further property. -/
def ofColumn (name column : String) : Field :=
  ⟨name, column, false, false, none, none, .eager⟩

/-- An attribute of the same name as its column. -/
def named (name : String) : Field := ofColumn name name

def withColumn (field : Field) (column : String) : Field := { field with column }

def withNullable (field : Field) (nullable : Bool) : Field := { field with nullable }

def withPrimaryKey (field : Field) (primaryKey : Bool) : Field := { field with primaryKey }

def withDefault (field : Field) (text : String) : Field := { field with default? := some text }

def withForeignKey (field : Field) (reference : String) : Field :=
  { field with foreignKey? := some reference }

def withLoad (field : Field) (load : LoadMode) : Field := { field with load }

/-- Left out of the row and loaded alone on first access. -/
def deferred (field : Field) : Field := field.withLoad .deferred

/-- Left out of the row and loaded with its group on first access. -/
def deferredIn (field : Field) (group : String) : Field := field.withLoad (.deferredGroup group)

/-- Left out of the row, with access an error. -/
def raising (field : Field) : Field := field.withLoad .raiseOnAccess

/-- The load policy of the attribute. -/
def policy (field : Field) : LoadPolicy := ⟨field.name, field.load⟩

end Field

end LazyMapper
