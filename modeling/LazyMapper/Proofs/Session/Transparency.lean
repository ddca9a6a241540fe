import LazyMapper.Proofs.Session.Backing
import LazyMapper.Proofs.Session.Reading

/-!
# Lazy loading is transparent

A session in front of a fixed database never shows a value that is not in it, provided that the
hash tells the primary keys of each table apart (`Program.Reaches.reads_database`). It does not
matter which attributes a plan loads with the row, which are fetched later or in groups, what has
expired in between and what other rows were merged: all entries and instances of a program stay
backed by the database (`Program.Backed.step`).

Rows whose primary keys have one hash share an entry, and what one of them lacks is taken from the
other: `Catalogue.colliding_novels_mix`.
-/

set_option autoImplicit false

namespace LazyMapper

variable {models : String → Model} {program : Program} {request : Request} {database : Database}

/-! ## Reading runs -/

/-- All entries and instances of a program are backed by a database. -/
structure Program.Backed [Hashable Digest] (database : Database) (models : String → Model)
    (program : Program) : Prop where
  typed : program.WellTyped models
  entries : ∀ session ∈ program.sessions, database.BacksAll session
  instances : ∀ inst ∈ program.instances,
    database.Backs inst.model inst.key inst.record inst.loaded

/-- The request reads through models that the database maps, and its queries are answered by the
database, if they are answered with rows. -/
structure Database.Admits [Hashable Digest] (database : Database) (models : String → Model)
    (program : Program) (number : Nat) (connection : Connection) (request : Request) : Prop where
  typed : request.Typed models
  reads : request.Reads
  maps : ∀ model ∈ request.loaded, database.Maps model
  answers : ∀ session, program.sessions[number]? = some session → ∀ statement rows,
    (statement, .ok rows) ∈ program.exchanges number connection request →
      database.Answers models session.config.dialect statement rows

namespace Program

variable [Hashable Digest] {number : Nat} {connection : Connection} {session : Session}

/-- All answers in the history of an admitted request are those of the database. -/
theorem Step.Leaves.faithful {events : List Event} {context : Context}
    (leaves : (program.step number connection request).Leaves program request number events
      context)
    (history : History (program.Allows models request) []
      (program.contextOf session connection) events context)
    (admits : database.Admits models program number connection request)
    (here : program.sessions[number]? = some session) :
    ∀ event ∈ events, event.Faithful database models session.config.dialect := by
  intro event member
  cases event with
  | queried statement reply =>
      cases reply with
      | error => trivial
      | ok rows =>
          exact admits.answers session here statement rows (leaves.answered history member)
  | _ => trivial

/-- Faithfully answered events keep the entries of a session backed. -/
theorem Backed.history {events : List Event} {context : Context}
    (apart : ∀ name, Key.Apart (database.keys (models name)))
    (backed : program.Backed database models) (reads : request.Reads)
    (typed : request.Typed models) (maps : ∀ model ∈ request.loaded, database.Maps model)
    (here : program.sessions[number]? = some session)
    (history : History (program.Allows models request) []
      (program.contextOf session connection) events context)
    (faithful : ∀ event ∈ events, event.Faithful database models session.config.dialect) :
    database.BacksAll context.session := by
  refine backed.typed.keeps typed here history
    (fun event => event.Faithful database models session.config.dialect)
    (fun context => database.BacksAll context.session) faithful
    (backed.entries session (List.mem_of_getElem? here)) ?_
  intro past context event allowed earlier config instances well holds
  exact allowed.backs apart reads typed maps (config ▸ earlier) instances well holds

/-- **An admitted request keeps a program backed**, if the hash tells the primary keys in the
database apart. -/
theorem Backed.step (apart : ∀ name, Key.Apart (database.keys (models name)))
    (backed : program.Backed database models)
    (admits : database.Admits models program number connection request) :
    (program.step number connection request).program.Backed database models := by
  have well := backed.typed.step admits.typed number connection
  cases here : program.sessions[number]? with
  | none => rwa [step_of_no_session here]
  | some session =>
      obtain ⟨events, context, history, leaves⟩ :=
        step_history backed.typed.schema admits.typed here connection
      have faithful := leaves.faithful history admits here
      refine ⟨well, ?_, ?_⟩
      · rw [leaves.sessions]
        intro other member
        rcases List.mem_or_eq_of_mem_set member with before | rfl
        · exact backed.entries other before
        · exact backed.history apart admits.reads admits.typed admits.maps here history faithful
      · intro inst member
        rcases leaves.instances.mem member with before | issued
        · exact backed.instances inst before
        · obtain ⟨front, back, middle, rfl, earlier, allowed, -⟩ := history.exists_of_mem issued
          obtain ⟨middleWell, keeps⟩ := backed.typed.history admits.typed here earlier
          obtain ⟨-, entry, there, copy⟩ := allowed.issued_fits admits.typed
            (fun inst member => (backed.typed.instances inst member).mono keeps) middleWell
          have holds := backed.history apart admits.reads admits.typed admits.maps here earlier
            (fun event member => faithful event (List.mem_append_left _ member)) _ entry there
          rw [copy]
          exact holds

theorem Reaches.backed {schema : Schema} {configs : List Config}
    (declared : schema.Typed models) (apart : ∀ name, Key.Apart (database.keys (models name)))
    (reached : Reaches (database.Admits models) (ofConfigs schema configs) program) :
    program.Backed database models := by
  refine reached.keeps (·.Backed database models) ⟨wellTyped_ofConfigs declared configs, ?_, nofun⟩
    fun admits backed => backed.step apart admits
  intro session member
  obtain ⟨config, -, rfl⟩ := List.mem_map.mp member
  exact nofun

/-! ## What is read -/

/-- What is read from a backed instance is in the database. -/
theorem Backed.holds (backed : program.Backed database models) {inst : Instance}
    (member : inst ∈ program.instances) {name : String} {value : Value}
    (read : inst.get name = .ok (some value)) :
    database.Holds inst.model inst.primaryKey name value := by
  obtain ⟨maps, tuple, listed, -, shows⟩ := backed.instances inst member
  have fits := backed.typed.instances inst member
  have valid : inst.model.entity.Valid := by
    have known := backed.typed.configured _ fits.checked
    rwa [show models inst.model.entity.typeName = inst.model from fits.typed] at known
  obtain ⟨index, position, loaded, rfl⟩ := Instance.loaded_of_get read
  rw [fits.suits.index?_eq] at position
  obtain ⟨field, here, rfl⟩ := Entity.exists_field_of_index? position
  refine ⟨field, valid.field?_eq here, tuple, listed, (shows.keyOf_eq maps.stores).symm, ?_⟩
  rw [Model.attributeOrNull, shows.loaded _ index position loaded, ← valid.valueIn_eq tuple here]
  rfl

/-- **Lazy loading is transparent** if the hash tells the primary keys in each table of the database
apart. In every program reached by reading requests that a fixed database answers, whatever can be
read from an instance is the value that the database has for the attribute in the row with the
primary key of the instance, and so is whatever a session loads for it. -/
theorem Reaches.reads_database {schema : Schema} {configs : List Config}
    (declared : schema.Typed models) (apart : ∀ name, Key.Apart (database.keys (models name)))
    (reached : Reaches (database.Admits models) (ofConfigs schema configs) program) :
    (∀ inst ∈ program.instances, ∀ name value, inst.get name = .ok (some value) →
      database.Holds inst.model inst.primaryKey name value) ∧
    ∀ number connection held name value,
      database.Admits models program number connection (.load held name) →
      (program.step number connection (.load held name)).outcome = .ok (.value value) →
      ∃ inst, program.instances[held]? = some inst ∧
        database.Holds inst.model inst.primaryKey name value := by
  have backed := reached.backed declared apart
  refine ⟨fun inst member name value read => backed.holds member read, ?_⟩
  intro number connection held name value admits ok
  have after := backed.step apart admits
  obtain ⟨inst, entry, there, left, get⟩ := get_of_load_step ok
  have member := List.mem_of_getElem? left
  have fits := after.typed.instances _ member
  have read := get (fits.size.trans fits.suits.length_eq.symm)
  refine ⟨inst, there, ?_⟩
  -- The copy that the instance has taken shows the same tuple as the one before.
  obtain ⟨maps, tuple, listed, keyed, shows⟩ := backed.instances inst (List.mem_of_getElem? there)
  obtain ⟨-, other, listed', keyed', shows'⟩ := after.instances _ member
  have known : models inst.model.entity.typeName = inst.model :=
    (backed.typed.instances inst (List.mem_of_getElem? there)).typed
  obtain rfl := maps.eq_of_key (known ▸ apart _) listed listed' (keyed.symm.trans keyed')
  have same : inst.primaryKey = (inst.sync entry).primaryKey :=
    (shows.keyOf_eq maps.stores).trans (shows'.keyOf_eq maps.stores).symm
  rw [same]
  exact after.holds member read

end Program

/-! ## A book that is read lazily -/

namespace Catalogue

/-- A row of the table of books with all its columns. -/
def emma : Tuple := fun column =>
  ([("id", .int 1), ("title", .text "Emma"), ("isbn", .text "0141439580"), ("author_id", .int 7),
    ("summary", .text "A matchmaker errs.")].lookup column).getD .null

/-- The database with this book only, whatever the table is. -/
def emmaOnly : Database := ⟨fun _ => [emma]⟩

theorem emmaOnly_maps : emmaOnly.Maps book where
  stores := Model.ofEntity_storesAsGiven
  unique := by
    intro tuple listed other listed' _
    rw [List.mem_singleton.mp listed, List.mem_singleton.mp listed']

/-- A single key is told apart from others. -/
theorem emmaOnly_apart (name : String) : Key.Apart (emmaOnly.keys (modelOf name)) := by
  rintro _ ⟨_, ⟨tuple, listed, rfl⟩, rfl⟩ _ ⟨_, ⟨other, listed', rfl⟩, rfl⟩ _
  rw [List.mem_singleton.mp listed, List.mem_singleton.mp listed']

/-- The bookshop has been answered by the database. -/
theorem bookshop_reached :
    Program.Reaches (emmaOnly.Admits modelOf) (.ofConfigs schema [.default]) bookshop := by
  refine .step .start ⟨everything_typed book rfl, trivial, ?_, ?_⟩
  · intro model member
    obtain rfl := List.mem_singleton.mp member
    exact emmaOnly_maps
  · intro session here statement rows member
    obtain rfl := Option.some.inj here
    obtain ⟨rfl, rows⟩ := Prod.mk.inj (List.mem_singleton.mp member)
    obtain rfl := Except.ok.inj rows
    let query := Sql.Query.select (["id", "title", "isbn", "author_id"].map .plain) ["books"] none
    exact Database.answers_row List.mem_cons_self (show query.items = _ from rfl)
      fun _ _ _ only _ => List.mem_singleton.mp only

/-- What is fetched for the book is in the database. -/
theorem bookshop_loads_summary :
    ∃ inst, bookshop.instances[0]? = some inst ∧
      emmaOnly.Holds inst.model inst.primaryKey "summary" (.text "A matchmaker errs.") := by
  refine (Program.Reaches.reads_database schema_typed emmaOnly_apart bookshop_reached).2 0
    ⟨[.ok [emma.row ["summary"]]], [], []⟩ 0 "summary" _ ⟨trivial, trivial, nofun, ?_⟩ rfl
  intro session here statement rows member
  obtain rfl := Option.some.inj here
  obtain ⟨rfl, rows⟩ := Prod.mk.inj (List.mem_singleton.mp member)
  obtain rfl := Except.ok.inj rows
  let query := bookEntity.queryByKey ["summary"] [.int 1]
  exact Database.answers_row List.mem_cons_self (show query.items = _ from rfl)
    fun _ _ _ only _ => List.mem_singleton.mp only

/-! ## Two novels with one hash -/

/-- A row of the table of books for a novel. -/
def novel (id : Int64) (title summary : String) : Tuple := fun column =>
  ([("id", .bigInt id), ("title", .text title), ("isbn", .text "0141439580"),
    ("author_id", .bigInt 7), ("summary", .text summary)].lookup column).getD .null

def lowest : Tuple := novel (-2733231524329937425) "Emma" "A matchmaker errs."

/-- A novel whose number has the same hash. -/
def highest : Tuple := novel 5792489579705423406 "Persuasion" "A letter is answered."

/-- The database with these novels, whatever the table is. -/
def twoNovels : Database := ⟨fun _ => [lowest, highest]⟩

theorem twoNovels_maps : twoNovels.Maps book where
  stores := Model.ofEntity_storesAsGiven
  unique := by
    intro tuple listed other listed' identical
    have same := Digest.ofValues_eq_iff.mpr identical
    simp only [twoNovels, List.mem_cons, List.not_mem_nil, or_false] at listed listed'
    obtain rfl | rfl := listed <;> obtain rfl | rfl := listed'
    · rfl
    · exact absurd same (by decide)
    · exact absurd same (by decide)
    · rfl

/-- The request for the novel whose number is the lowest, or the highest. -/
def novelBy (descending : Bool) (options : List LoaderOption) : Request :=
  .first book (((Statement.ofEntity bookEntity).withOptions options).orderBy "id" descending)

/-- What is sent for this request. -/
def novelQuery (descending : Bool) (columns : List String) : Sql.Query :=
  ⟨columns.map .plain, ["books"], none, [⟨"id", descending⟩], some 1⟩

/-- A connection that answers with columns of a novel. -/
def novelReply (tuple : Tuple) (columns : List String) : Connection :=
  ⟨[.ok [tuple.row columns]], [], []⟩

/-- The program that has loaded the novel with the lowest number. -/
def novelShop : Program :=
  ((Program.ofConfigs schema [.default]).step 0
    (novelReply lowest ["id", "title", "isbn", "author_id"]) (novelBy false [])).program

/-- The program that has also loaded the one with the highest, and the summary with it. -/
def mixedNovelShop : Program :=
  (novelShop.step 0 (novelReply highest ["id", "title", "isbn", "summary", "author_id"])
    (novelBy true [.undefer "summary"])).program

theorem primaryKey_ne_nil : ∀ item ∈ Catalogue.models, item.2.entity.primaryKey ≠ [] := by
  decide

/-- The database may answer with either novel. -/
theorem novelBy_admits {program : Program} {tuple : Tuple} {columns : List String}
    {descending : Bool} {options : List LoaderOption} (listed : tuple ∈ [lowest, highest])
    (dialect : ∀ session, program.sessions[0]? = some session →
      session.config.dialect = .postgres)
    (sent : program.exchanges 0 (novelReply tuple columns) (novelBy descending options) =
      [((novelQuery descending columns).build .postgres, .ok [tuple.row columns])]) :
    twoNovels.Admits modelOf program 0 (novelReply tuple columns)
      (novelBy descending options) := by
  refine ⟨⟨rfl, fun entity member => ?_⟩, trivial, ?_, ?_⟩
  · obtain rfl := List.mem_singleton.mp member
    rfl
  · intro model member
    obtain rfl := List.mem_singleton.mp member
    exact twoNovels_maps
  · intro session here statement rows member
    rw [sent] at member
    obtain ⟨rfl, rows⟩ := Prod.mk.inj (List.mem_singleton.mp member)
    obtain rfl := Except.ok.inj rows
    rw [dialect session here]
    refine Database.answers_row listed rfl fun model typed other _ same => ?_
    -- The query has no parameters, so it asks for no key.
    have none : model.entity.primaryKey = [] := List.map_eq_nil_iff.mp same
    obtain ⟨item, modelled, known⟩ := exists_modelOf model.entity.typeName
    obtain rfl : item.2 = model := known.trans typed
    exact absurd none (primaryKey_ne_nil item modelled)

theorem novelShop_reached :
    Program.Reaches (twoNovels.Admits modelOf) (.ofConfigs schema [.default]) novelShop := by
  refine .step .start (novelBy_admits List.mem_cons_self (fun session here => ?_) rfl)
  obtain rfl := Option.some.inj here
  rfl

theorem mixedNovelShop_reached :
    Program.Reaches (twoNovels.Admits modelOf) (.ofConfigs schema [.default]) mixedNovelShop := by
  refine .step novelShop_reached
    (novelBy_admits (List.mem_cons_of_mem _ List.mem_cons_self) (fun session here => ?_) rfl)
  obtain rfl := Option.some.inj here
  rfl

/-- The session has one entry for both novels. What it loads as the summary of the first is that of
the other one. -/
theorem colliding_novels_mix :
    Program.Reaches (twoNovels.Admits modelOf) (.ofConfigs schema [.default]) mixedNovelShop ∧
    twoNovels.Admits modelOf mixedNovelShop 0 ⟨[], [], []⟩ (.load 0 "summary") ∧
    (mixedNovelShop.step 0 ⟨[], [], []⟩ (.load 0 "summary")).outcome =
      .ok (.value (.text "A letter is answered.")) ∧
    ∃ inst, mixedNovelShop.instances[0]? = some inst ∧
      ¬ twoNovels.Holds inst.model inst.primaryKey "summary" (.text "A letter is answered.") := by
  refine ⟨mixedNovelShop_reached, ⟨trivial, trivial, nofun, ?_⟩, rfl, _, rfl, ?_⟩
  · intro session _ statement rows member
    cases member
  · rintro ⟨field, mapped, tuple, listed, keyed, value⟩
    obtain rfl := Option.some.inj mapped
    simp only [twoNovels, List.mem_cons, List.not_mem_nil, or_false] at listed
    obtain rfl | rfl := listed
    · exact absurd (Value.text.inj value) (by decide)
    · exact absurd (congrArg Digest.ofValues keyed) (by decide)

end Catalogue

end LazyMapper
