import LazyMapper.Json.Document
import LazyMapper.Sql.Dialect

/-!
# Session settings

Settings can be read from a JSON text. An object names the settings it changes: unknown names
are passed over, a setting must not be named twice, and `null` does not stand for the default.
An array gives the settings in their order and may leave out the last ones.
-/

set_option autoImplicit false

namespace LazyMapper

/-- The settings of a session. -/
structure Config where
  /-- A transaction is begun before the first query outside one. -/
  autoBegin : Bool
  /-- All instances are expired after a commit. -/
  expireOnCommit : Bool
  /-- The number of lazy loads of one attribute that counts as repeated; zero for none. -/
  lazyLoadThreshold : Nat
  dialect : Sql.Dialect
deriving DecidableEq, Repr

namespace Config

/-- The settings of a session that is given none. -/
def default : Config := ⟨true, true, 3, .postgres⟩

instance : Inhabited Config := ⟨default⟩

def withAutoBegin (config : Config) (autoBegin : Bool) : Config := { config with autoBegin }

def withExpireOnCommit (config : Config) (expireOnCommit : Bool) : Config :=
  { config with expireOnCommit }

def withLazyLoadThreshold (config : Config) (lazyLoadThreshold : Nat) : Config :=
  { config with lazyLoadThreshold }

def withDialect (config : Config) (dialect : Sql.Dialect) : Config := { config with dialect }

/-! ## Reading -/

/-- The settings. -/
inductive Setting where
  | autoBegin
  | expireOnCommit
  | lazyLoadThreshold
  | dialect
deriving DecidableEq, Repr

namespace Setting

/-- The settings in their order. -/
def all : List Setting := [autoBegin, expireOnCommit, lazyLoadThreshold, dialect]

/-- The name of a setting. -/
def name : Setting → String
  | .autoBegin => "auto_begin"
  | .expireOnCommit => "expire_on_commit"
  | .lazyLoadThreshold => "lazy_load_warn_threshold"
  | .dialect => "dialect"

/-- The setting of a name. -/
def ofName? (name : String) : Option Setting := all.find? (·.name == name)

end Setting

/-- A truth value. -/
def readBool : Document → Option Bool
  | .bool flag => some flag
  | _ => none

/-- A natural number of at most 64 bits. -/
def readThreshold : Document → Option Nat
  | .natural value => if value < UInt64.size then some value else none
  | _ => none

/-- The name of a dialect, alone or as the only key of an object with the value `null`. -/
def readDialect : Document → Option Sql.Dialect
  | .string (some name) | .object [(some name, .null)] => Sql.Dialect.ofName? name
  | _ => none

/-- The settings with one of them read from a document. -/
def change (config : Config) (setting : Setting) (document : Document) : Option Config :=
  match setting with
  | .autoBegin => (readBool document).map config.withAutoBegin
  | .expireOnCommit => (readBool document).map config.withExpireOnCommit
  | .lazyLoadThreshold => (readThreshold document).map config.withLazyLoadThreshold
  | .dialect => (readDialect document).map config.withDialect

/-- The settings changed by the entries of an object. `changed` lists those named before. -/
def changeByName (config : Config) (changed : List Setting) :
    List (Option String × Document) → Option Config
  | [] => some config
  | (none, _) :: _ => none
  | (some name, document) :: rest =>
    match Setting.ofName? name with
    | none => changeByName config changed rest
    | some setting =>
      if changed.contains setting then none
      else (config.change setting document).bind fun config =>
        changeByName config (setting :: changed) rest

/-- The settings changed in their order by the items of an array. -/
def changeInOrder (config : Config) : List Setting → List Document → Option Config
  | _, [] => some config
  | [], _ :: _ => none
  | setting :: settings, document :: documents =>
    (config.change setting document).bind fun config =>
      changeInOrder config settings documents

/-- The settings that a document describes. -/
def ofDocument? : Document → Option Config
  | .object entries => default.changeByName [] entries
  | .array items => default.changeInOrder Setting.all items
  | _ => none

/-- The settings that a JSON text describes. -/
def read? (text : String) : Option Config := (Document.read? text).bind ofDocument?

end Config

end LazyMapper
