import LazyMapper.Proofs.Model.Storing
import LazyMapper.Proofs.Session.Keying
import LazyMapper.Proofs.Session.Reaching
import LazyMapper.Proofs.Sql.Parameters
import LazyMapper.Proofs.Sql.SelectList

/-!
# A fixed database behind the connection

A database holds tuples in its tables. A connection speaks for it when the rows that it answers
to a query for columns are those columns of tuples of the table, and to a query by the primary key
of a tuple they are columns of that tuple (`Database.Answers`). Which queries a request sends, and
what is answered to them, shows in the calls that it makes and the script of its connection
(`Program.exchanges`); all that a history was answered is among it (`History.answered`).

A table has one tuple for each primary key. A session finds entries by the hash of a key, so to it
the tuples are different only if the hash tells their keys apart (`Database.Maps.eq_of_key`).
-/

set_option autoImplicit false

namespace LazyMapper

/-! ## Tuples -/

/-- A row of a table, with a value in every column. -/
abbrev Tuple := String → Value

namespace Tuple

variable {tuple : Tuple} {columns : List String} {column : String}

/-- The columns of a tuple as a result row. -/
def row (tuple : Tuple) (columns : List String) : Row := ⟨columns, columns.map tuple⟩

theorem selects_row : (tuple.row columns).selects column = true ↔ column ∈ columns :=
  List.contains_iff_mem

theorem find?_row (member : column ∈ columns) :
    (tuple.row columns).find? column = some (tuple column) := by
  obtain ⟨position, found⟩ : ∃ position, columns.findIdx? (· == column) = some position := by
    rw [← Option.isSome_iff_exists, List.findIdx?_isSome]
    exact List.any_eq_true.mpr ⟨column, member, beq_self_eq_true column⟩
  obtain ⟨inside, named, -⟩ := List.findIdx?_eq_some_iff_getElem.mp found
  have here : columns[position]? = some column := by
    rw [List.getElem?_eq_getElem inside, eq_of_beq named]
  simp only [Row.find?, Row.position?, Row.valueAt?, row, found, Option.bind_some,
    List.getElem?_map, here, Option.map_some]

theorem valueOf_row (member : column ∈ columns) :
    (tuple.row columns).valueOf column = tuple column := by
  rw [Row.valueOf, find?_row member]
  rfl

end Tuple

namespace Entity

/-- The value of an attribute in a tuple of the entity's table. -/
def valueIn (entity : Entity) (tuple : Tuple) (name : String) : Value :=
  tuple (entity.keyColumn name)

/-- The primary key of a tuple of the entity's table. -/
def keyIn (entity : Entity) (tuple : Tuple) : List Value :=
  entity.primaryKey.map (entity.valueIn tuple)

theorem valueIn_of_field? {entity : Entity} {name : String} {field : Field} (tuple : Tuple)
    (mapped : entity.field? name = some field) :
    entity.valueIn tuple name = tuple field.column := by
  rw [valueIn, keyColumn, mapped]
  rfl

theorem Valid.valueIn_eq {entity : Entity} (valid : entity.Valid) {index : Nat} {field : Field}
    (tuple : Tuple) (here : entity.fields[index]? = some field) :
    entity.valueIn tuple field.name = tuple field.column :=
  valueIn_of_field? tuple (valid.field?_eq here)

end Entity

/-! ## Databases -/

/-- The tuples in each table. -/
structure Database where
  tuples : String → List Tuple

namespace Database

/-- The model stores what it is given, and no two tuples of its table have the same primary
key. -/
structure Maps (database : Database) (model : Model) : Prop where
  stores : model.StoresAsGiven
  unique : ∀ tuple ∈ database.tuples model.table, ∀ other ∈ database.tuples model.table,
    List.Forall₂ Value.Identical (model.entity.keyIn tuple) (model.entity.keyIn other) →
      tuple = other

/-- The primary keys in the table of a model. -/
def keys (database : Database) (model : Model) : Set (List Value) :=
  {key | ∃ tuple ∈ database.tuples model.table, model.entity.keyIn tuple = key}

/-- Tuples with one identity are the same if the hash tells the primary keys apart. -/
theorem Maps.eq_of_key [Hashable Digest] {database : Database} {model : Model} {tuple other : Tuple}
    (maps : database.Maps model) (apart : Key.Apart (database.keys model))
    (listed : tuple ∈ database.tuples model.table) (listed' : other ∈ database.tuples model.table)
    (same : Key.ofValues model (model.entity.keyIn tuple) =
      Key.ofValues model (model.entity.keyIn other)) : tuple = other :=
  maps.unique tuple listed other listed'
    ((Key.ofValues_eq_iff apart ⟨tuple, listed, rfl⟩ ⟨other, listed', rfl⟩).mp same).2

/-- The value is that of an attribute's column in the tuple with a primary key. -/
def Holds (database : Database) (model : Model) (key : List Value) (name : String)
    (value : Value) : Prop :=
  ∃ field, model.entity.field? name = some field ∧
    ∃ tuple ∈ database.tuples model.table,
      model.entity.keyIn tuple = key ∧ value = tuple field.column

/-- The rows may be answered to a statement. If it asks for columns of a model's table, they are
these columns of tuples of the table. If it asks for them by the primary key of a tuple, they are
columns of this tuple. -/
structure Answers (database : Database) (models : String → Model) (dialect : Sql.Dialect)
    (statement : String × List Value) (rows : List Row) : Prop where
  selected : ∀ (model : Model) (query : Sql.Query) (columns : List String), model.Typed models →
    query.Selects model.table columns → query.build dialect = statement →
      ∀ row ∈ rows, ∃ tuple ∈ database.tuples model.table, row = tuple.row columns
  identified : ∀ (model : Model) (columns : List String), model.Typed models →
    ∀ tuple ∈ database.tuples model.table,
      (model.entity.queryByKey columns (model.entity.keyIn tuple)).build dialect = statement →
        ∀ row ∈ rows, row = tuple.row columns

variable {models : String → Model} {dialect : Sql.Dialect}

/-- A database with the same tuples in every table answers with one of them, in the columns that
the text of the query tells, unless the parameters are the primary key of another one. -/
theorem answers_row {tuples : List Tuple} {tuple : Tuple} (listed : tuple ∈ tuples)
    {query : Sql.Query} {columns : List String} (items : query.items = columns.map .plain)
    (own : ∀ model : Model, model.Typed models → ∀ other ∈ tuples,
      model.entity.keyIn other = (query.build dialect).2 → other = tuple) :
    (Database.mk fun _ => tuples).Answers models dialect (query.build dialect)
      [tuple.row columns] where
  selected := by
    intro model other columns' _ selects same row member
    obtain rfl := List.mem_singleton.mp member
    obtain rfl := Sql.Query.columns_eq_of_build_eq selects.items items (congrArg Prod.fst same)
    exact ⟨tuple, listed, rfl⟩
  identified := by
    intro model columns' typed other listed' same row member
    obtain rfl := List.mem_singleton.mp member
    have params := (model.entity.params_queryByKey columns' _ dialect).symm.trans
      (congrArg Prod.snd same)
    rw [List.map_snd_zip (by simp [Entity.keyIn])] at params
    rw [own model typed other listed' params,
      Sql.Query.columns_eq_of_build_eq rfl items (congrArg Prod.fst same)]

end Database

/-! ## What a request is answered -/

namespace Connection

/-- The queries among calls, each with the reply that a script has for it. -/
def exchanges : List Call → List (Outcome (List Row)) →
    List ((String × List Value) × Outcome (List Row))
  | [], _ => []
  | .execute _ :: calls, replies => exchanges calls replies
  | .query sql params :: calls, replies =>
    ((sql, params), replies.headD (.ok [])) :: exchanges calls replies.tail

end Connection

/-- The connection after an event. -/
theorem Event.connection_apply (context : Context) (event : Event) :
    (event.apply context).connection =
      match event with
      | .began => (context.connection.execute "BEGIN").2
      | .ended sql => (context.connection.execute sql).2
      | .queried statement _ => (context.connection.query statement.1 statement.2).2
      | _ => context.connection := by
  have executed (sql : String) (inTransaction : Bool) :
      (execute sql inTransaction context).connection = (context.connection.execute sql).2 := by
    unfold execute
    split <;> (rename_i answered; rw [answered])
  cases event with
  | began => exact executed _ _
  | ended sql => exact executed _ _
  | changed key change =>
      simp only [apply]
      split <;> rfl
  | checked | queried | counted | met | created | expiredAll | detachedAll | issued => rfl

/-- Every answer in a history is one of the script to a call that the history makes. -/
theorem History.answered [Hashable Digest] {models : String → Model} {program : Program}
    {request : Request} {past events : List Event} {context after : Context}
    (history : History (program.Allows models request) past context events after) :
    ∃ calls, after.connection.calls = context.connection.calls ++ calls ∧
      ∀ statement reply, .queried statement reply ∈ events →
        (statement, reply) ∈ Connection.exchanges calls context.connection.queryReplies := by
  induction history with
  | nil => exact ⟨[], by simp, nofun⟩
  | @cons past events context after event allowed later ih =>
      obtain ⟨calls, made, answered⟩ := ih
      rw [Event.connection_apply] at made answered
      cases allowed with
      | queried statement =>
          refine ⟨.query statement.1 statement.2 :: calls, ?_, ?_⟩
          · rw [made]
            simp [Connection.query]
          · intro other reply member
            rw [Connection.exchanges]
            rcases List.mem_cons.mp member with same | member
            · cases same
              exact List.mem_cons_self
            · exact List.mem_cons_of_mem _ (answered other reply member)
      | began idle =>
          refine ⟨.execute "BEGIN" :: calls, ?_, ?_⟩
          · rw [made]
            simp [Connection.execute]
          · intro other reply member
            exact answered other reply (by simpa using member)
      | @ended sql active asked =>
          refine ⟨.execute sql :: calls, ?_, ?_⟩
          · rw [made]
            simp [Connection.execute]
          · intro other reply member
            exact answered other reply (by simpa using member)
      | checked | counted | met | created | changed | expiredAll | detachedAll | issued =>
          refine ⟨calls, made, fun other reply member => answered other reply ?_⟩
          simpa using member

/-- The queries that a request sends, each with its answer. -/
def Program.exchanges [Hashable Digest] (program : Program) (number : Nat) (connection : Connection)
    (request : Request) : List ((String × List Value) × Outcome (List Row)) :=
  Connection.exchanges
    ((program.step number connection request).calls.drop connection.calls.length)
    connection.queryReplies

/-- Every answer in the history of a request is among its exchanges. -/
theorem Program.Step.Leaves.answered [Hashable Digest] {models : String → Model} {program : Program}
    {number : Nat} {session : Session} {connection : Connection} {request : Request}
    {events : List Event} {context : Context}
    (leaves : (program.step number connection request).Leaves program request number events
      context)
    (history : History (program.Allows models request) []
      (program.contextOf session connection) events context)
    {statement : String × List Value} {reply : Outcome (List Row)}
    (member : .queried statement reply ∈ events) :
    (statement, reply) ∈ program.exchanges number connection request := by
  obtain ⟨calls, made, answered⟩ := history.answered
  rcases leaves.calls with same | ⟨none, -⟩
  · rw [exchanges, same, made]
    simpa [contextOf] using answered statement _ member
  · rw [none] at member
    cases member

end LazyMapper
