import LazyMapper.Proofs.Session.Database

/-!
# Entries backed by a database

An entry is backed by a database when every attribute that it has loaded holds the value of one
and the same tuple, the one with the key of the entry (`Database.Backs`). A change that takes
values from a row keeps this if the row is one of the database: what is merged has the key of its
tuple, so it is the tuple of the entry if the hash tells the keys of the table apart, and what is
fetched is asked for by this key (`Program.Writes.backs`). A new entry shows the tuple of its row.
So all entries stay backed whatever a reading request does (`Program.Allows.backs`).

Writing attributes would break it, as does loading pairs from rows that are not those of a single
table; requests for both are left out (`Request.Reads`).
-/

set_option autoImplicit false

namespace LazyMapper

/-! ## Records that show a tuple -/

/-- The record has the primary key of a tuple, and holds the values of the tuple in the loaded
attributes. -/
structure Model.Shows (model : Model) (tuple : Tuple) (record : Record) (loaded : AttributeSet) :
    Prop where
  made : model.Makes record
  key : ∀ name ∈ model.entity.primaryKey,
    model.attribute? record name = some (model.entity.valueIn tuple name)
  loaded : ∀ name index, model.entity.index? name = some index → loaded.contains index = true →
    model.attribute? record name = some (model.entity.valueIn tuple name)

namespace Model.Shows

variable {model : Model} {tuple : Tuple} {record : Record} {loaded : AttributeSet}

theorem keyOf_eq (shows : model.Shows tuple record loaded) (stores : model.StoresAsGiven) :
    model.keyOf record = model.entity.keyIn tuple := by
  rw [stores.key shows.made]
  refine List.map_congr_left fun name member => ?_
  rw [attributeOrNull, shows.key name member]
  rfl

/-- Fewer attributes may be loaded. -/
theorem mono {fewer : AttributeSet} (shows : model.Shows tuple record loaded)
    (before : ∀ index, fewer.contains index = true → loaded.contains index = true) :
    model.Shows tuple record fewer :=
  { shows with loaded := fun name index position member =>
      shows.loaded name index position (before index member) }

/-- A record made from a row of a tuple that has the primary key shows what the row selects. -/
theorem ofRow {columns : List String} (stores : model.StoresAsGiven) (valid : model.entity.Valid)
    (made : model.fromRow (tuple.row columns) = .ok record)
    (keyed : ∀ (index : Nat) (field : Field), model.entity.fields[index]? = some field →
      model.entity.isPrimaryKey field.name → field.column ∈ columns) :
    model.Shows tuple record
      (.ofList model.entity.fields.length (model.selectedBy (tuple.row columns))) where
  made := .ofRow made
  key := by
    intro name member
    obtain ⟨field, mapped⟩ := Option.isSome_iff_exists.mp (valid.keyed name member)
    obtain ⟨index, -, here⟩ := Entity.index?_of_field? mapped
    obtain rfl := Entity.name_of_field? mapped
    have selected := keyed index field here (List.contains_iff_mem.mpr member)
    rw [stores.selected made mapped (Tuple.find?_row selected),
      Entity.valueIn_of_field? tuple mapped]
  loaded := by
    intro name index position member
    obtain ⟨field, here, rfl⟩ := Entity.exists_field_of_index? position
    have chosen := ((AttributeSet.contains_ofList _ _ index).mp member).1
    rw [mem_selectedBy_iff here, Tuple.selects_row] at chosen
    have mapped := valid.field?_eq here
    rw [stores.selected made mapped (Tuple.find?_row chosen), valid.valueIn_eq tuple here]

/-- Assigning values of the tuple keeps what a record shows, and adds what is assigned. -/
theorem assignAll {more : AttributeSet} {assignments : List (String × Value)}
    (shows : model.Shows tuple record loaded) (stores : model.StoresAsGiven)
    (given : ∀ assignment ∈ assignments,
      assignment.2 = model.entity.valueIn tuple assignment.1)
    (covers : ∀ name index, model.entity.index? name = some index → more.contains index = true →
      loaded.contains index = true ∨
        name ∈ assignments.map Prod.fst ∧ (model.assignAll record assignments).2 = .ok ()) :
    model.Shows tuple (model.assignAll record assignments).1 more where
  made := shows.made.assignAll assignments
  key := fun name member => stores.assignAll shows.made given name (.inl (shows.key name member))
  loaded := fun name index position member =>
    stores.assignAll shows.made given name
      ((covers name index position member).imp_left (shows.loaded name index position))

/-- An entry to which values of the tuple are assigned shows the tuple still, if it counts no more
as loaded than before or what is assigned. -/
theorem assigning {entry : Entry} {assignments : List (String × Value)} {settle : Entry → Entry}
    (shows : model.Shows tuple entry.record entry.loaded) (stores : model.StoresAsGiven)
    (given : ∀ assignment ∈ assignments,
      assignment.2 = model.entity.valueIn tuple assignment.1)
    (keeps : ∀ after, (settle after).record = after.record)
    (covers : ∀ after, after.loaded = entry.loaded → ∀ name index,
      model.entity.index? name = some index → (settle after).loaded.contains index = true →
        entry.loaded.contains index = true ∨ name ∈ assignments.map Prod.fst) :
    model.Shows tuple (entry.assigning model assignments settle).record
      (entry.assigning model assignments settle).loaded := by
  refine Entry.assigning_induction (fun after => model.Shows tuple after.record after.loaded)
    (shows.assignAll stores given fun _ _ _ member => .inl member) fun ok _ => ?_
  rw [keeps]
  refine shows.assignAll stores given fun name index position member => ?_
  have covered := covers { entry with record := (model.assignAll entry.record assignments).1 } rfl
  exact (covered name index position member).imp_right fun listed => ⟨listed, ok⟩

end Model.Shows

/-! ## Values assigned from the row of a tuple -/

theorem Model.assignments_given {model : Model} {tuple : Tuple} {columns : List String}
    {indices : List Nat} (valid : model.entity.Valid)
    (chosen : indices ⊆ model.selectedBy (tuple.row columns)) :
    ∀ assignment ∈ model.assignments (tuple.row columns) indices,
      assignment.2 = model.entity.valueIn tuple assignment.1 := by
  intro assignment member
  obtain ⟨index, given, field, here, rfl⟩ := mem_assignments.mp member
  have selected := (mem_selectedBy_iff here).mp (chosen given)
  rw [Tuple.selects_row] at selected
  rw [Tuple.valueOf_row selected, valid.valueIn_eq tuple here]

theorem LoadPlan.assignments_given {plan : LoadPlan} {entity : Entity} {tuple : Tuple}
    {columns : List String} {indices : List Nat} (suits : plan.Suits entity) (valid : entity.Valid)
    (selected : ∀ planned ∈ plan.attributesAt indices, planned.column ∈ columns) :
    ∀ assignment ∈ plan.assignments (tuple.row columns) indices,
      assignment.2 = entity.valueIn tuple assignment.1 := by
  intro assignment member
  obtain ⟨index, given, planned, there, rfl⟩ := mem_assignments.mp member
  obtain ⟨field, here, named, mapped⟩ := suits.exists_field there
  have chosen := selected planned (List.mem_filterMap.mpr ⟨index, given, there⟩)
  rw [Tuple.valueOf_row chosen, ← named, ← mapped, valid.valueIn_eq tuple here]

theorem Model.mem_assignments_of_index? {model : Model} {row : Row} {indices : List Nat}
    {name : String} {index : Nat} (position : model.entity.index? name = some index)
    (given : index ∈ indices) : name ∈ (model.assignments row indices).map Prod.fst := by
  obtain ⟨field, here, rfl⟩ := Entity.exists_field_of_index? position
  exact List.mem_map.mpr ⟨_, mem_assignments.mpr ⟨index, given, field, here, rfl⟩, rfl⟩

theorem LoadPlan.mem_assignments_of_index? {plan : LoadPlan} {entity : Entity} {row : Row}
    {indices : List Nat} {name : String} {index : Nat} (suits : plan.Suits entity)
    (position : entity.index? name = some index) (given : index ∈ indices) :
    name ∈ (plan.assignments row indices).map Prod.fst := by
  obtain ⟨field, here, rfl⟩ := Entity.exists_field_of_index? position
  obtain ⟨planned, there, named, -⟩ := suits.exists_planned here
  exact List.mem_map.mpr ⟨_, mem_assignments.mpr ⟨index, given, planned, there, rfl⟩, named⟩

/-- The attributes that a plan loads with the row have their columns selected. -/
theorem LoadPlan.column_mem_eagerColumns {plan : LoadPlan} :
    ∀ planned ∈ plan.attributesAt plan.eagerIndices, planned.column ∈ plan.eagerColumns := by
  intro planned member
  obtain ⟨index, eager, there⟩ := List.mem_filterMap.mp member
  have mode := (List.mem_filter.mp eager).2
  rw [there, Option.any_some] at mode
  exact List.mem_map_of_mem (List.mem_filter.mpr ⟨List.mem_of_getElem? there, mode⟩)

/-! ## Entries backed by a database -/

/-- What is loaded under a key are values of the tuple with this key. -/
structure Database.Backs [Hashable Digest] (database : Database) (model : Model) (key : Key)
    (record : Record) (loaded : AttributeSet) : Prop where
  maps : database.Maps model
  shown : ∃ tuple ∈ database.tuples model.table,
    key = Key.ofValues model (model.entity.keyIn tuple) ∧ model.Shows tuple record loaded

/-- All entries of a session are backed by the database. -/
def Database.BacksAll [Hashable Digest] (database : Database) (session : Session) : Prop :=
  ∀ key entry, session.identities.find? key = some entry →
    database.Backs entry.model key entry.record entry.loaded

/-- The answers of an event are those of a database. -/
def Event.Faithful (database : Database) (models : String → Model) (dialect : Sql.Dialect) :
    Event → Prop
  | .queried statement (.ok rows) => database.Answers models dialect statement rows
  | _ => True

/-- Requests that neither write attributes nor load pairs. -/
def Request.Reads : Request → Prop
  | .set _ _ _ | .allPairs _ _ _ => False
  | _ => True

variable {models : String → Model} {program : Program} {request : Request} {past : List Event}
  {database : Database}

/-- A row that a reading request is delivered is that of a tuple, with its primary key. -/
theorem Request.Delivers.exists_tuple {dialect : Sql.Dialect} {model : Model} {row : Row}
    (delivered : request.Delivers dialect past model row) (reads : request.Reads)
    (typed : request.Typed models)
    (faithful : ∀ event ∈ past, event.Faithful database models dialect) :
    ∃ tuple ∈ database.tuples model.table, ∃ columns, row = tuple.row columns ∧
      ∀ (index : Nat) (field : Field), model.entity.fields[index]? = some field →
        model.entity.isPrimaryKey field.name → field.column ∈ columns := by
  cases delivered with
  | @row _ plan columns query rows _ loads suits selects eager answered member =>
      have answers : database.Answers models dialect _ rows := faithful _ answered
      obtain ⟨tuple, listed, rfl⟩ := answers.selected model query columns
        (typed.loaded (by rw [loads]; exact List.mem_cons_self)) selects rfl row member
      exact ⟨tuple, listed, columns, rfl,
        fun index field here key => eager (suits.mem_eagerColumns here key)⟩
  | part loads =>
      cases request with
      | allPairs => exact reads.elim
      | _ => cases loads

/-- The record made from a row that is delivered shows the tuple of the row, and has its key. -/
theorem Request.Delivers.exists_shows [Hashable Digest] {dialect : Sql.Dialect} {model : Model}
    {row : Row} {record : Record} (delivered : request.Delivers dialect past model row)
    (reads : request.Reads) (typed : request.Typed models)
    (faithful : ∀ event ∈ past, event.Faithful database models dialect)
    (stores : model.StoresAsGiven) (valid : model.entity.Valid)
    (made : model.fromRow row = .ok record) :
    ∃ tuple ∈ database.tuples model.table, ∃ columns, row = tuple.row columns ∧
      Key.ofRecord model record = Key.ofValues model (model.entity.keyIn tuple) ∧
      model.Shows tuple record
        (.ofList model.entity.fields.length (model.selectedBy row)) := by
  obtain ⟨tuple, listed, columns, rfl, selected⟩ := delivered.exists_tuple reads typed faithful
  have shows := Model.Shows.ofRow stores valid made selected
  refine ⟨tuple, listed, columns, rfl, ?_, shows⟩
  rw [Key.ofRecord, shows.keyOf_eq stores]

namespace Program

theorem Attaches.suits {configured : Configured} {number : Nat} {inst : Instance} {key : Key}
    {entry : Entry} (attached : program.Attaches number inst key entry)
    (instances : ∀ inst ∈ program.instances, inst.Fits models configured)
    (fits : entry.Fits models configured key) :
    inst.plan.Suits entry.model.entity := by
  have held := instances inst (List.mem_of_getElem? attached.held)
  rw [← attached.model_eq instances fits]
  exact held.suits

variable [Hashable Digest]

/-- **A change that a reading request causes keeps an entry backed**, if the hash tells the primary
keys in the database apart. -/
theorem Writes.backs {session : Session} {key : Key} {entry : Entry} {change : EntryChange}
    {configured : Configured} (apart : ∀ name, Key.Apart (database.keys (models name)))
    (writes : program.Writes request past session key entry change) (reads : request.Reads)
    (typed : request.Typed models)
    (faithful : ∀ event ∈ past, event.Faithful database models session.config.dialect)
    (instances : ∀ inst ∈ program.instances, inst.Fits models configured)
    (fits : entry.Fits models configured key) (valid : entry.model.entity.Valid)
    (backed : database.Backs entry.model key entry.record entry.loaded) :
    database.Backs (change.apply entry).model key (change.apply entry).record
      (change.apply entry).loaded := by
  rw [EntryChange.apply_model]
  obtain ⟨maps, tuple, listed, keyed, shows⟩ := backed
  refine ⟨maps, tuple, listed, keyed, ?_⟩
  -- What is answered to a query by the key of the record are columns of the tuple.
  have answer {inst : Instance} {number : Nat} {columns : List String} {row : Row}
      {rows : List Row} (attached : program.Attaches number inst key entry)
      (answered : AnsweredByKey session.config.dialect past inst entry columns (row :: rows)) :
      inst.model = entry.model ∧ inst.plan.Suits entry.model.entity ∧
        row = tuple.row columns := by
    have same := attached.model_eq instances fits
    have suits := attached.suits instances fits
    have answers : database.Answers models session.config.dialect _ (row :: rows) :=
      faithful _ answered
    refine ⟨same, suits, answers.identified entry.model columns fits.typed tuple listed ?_ row
      List.mem_cons_self⟩
    rw [suits.owner, same, shows.keyOf_eq maps.stores]
  cases writes with
  | @absorb other row record delivered made named live =>
      obtain rfl := fits.model_eq (typed.loaded delivered.loads) named
      obtain ⟨source, inside, columns, rfl, key, -⟩ :=
        delivered.exists_shows reads typed faithful maps.stores valid made
      have known : models entry.model.entity.typeName = entry.model := fits.typed
      obtain rfl := maps.eq_of_key (known ▸ apart _) listed inside
        (keyed.symm.trans (named.trans key))
      refine shows.assigning maps.stores
        (Model.assignments_given valid List.filter_sublist.subset) (fun _ => rfl) ?_
      intro after before name index position member
      rcases (AttributeSet.contains_insertAll _ _ _).mp member with earlier | ⟨missing, -⟩
      · exact .inl (before ▸ earlier)
      · exact .inr (Model.mem_assignments_of_index? position missing)
  | fetch asked attached position unloaded answered =>
      obtain ⟨same, suits, rfl⟩ := answer attached answered
      rw [EntryChange.apply, same]
      refine shows.assigning maps.stores (LoadPlan.assignments_given suits valid
        fun planned member => List.mem_map_of_mem member) (fun _ => rfl) ?_
      intro after before name index position member
      rcases (AttributeSet.contains_insertAll _ _ _).mp member with earlier | ⟨fetched, -⟩
      · exact .inl (before ▸ earlier)
      · exact .inr (LoadPlan.mem_assignments_of_index? suits position fetched)
  | refresh asked attached answered =>
      obtain ⟨same, suits, rfl⟩ := answer attached answered
      rw [EntryChange.apply, same]
      refine shows.assigning maps.stores (LoadPlan.assignments_given suits valid
        LoadPlan.column_mem_eagerColumns) (fun _ => rfl) ?_
      intro after before name index position member
      exact .inr (LoadPlan.mem_assignments_of_index? suits position
        ((AttributeSet.contains_ofList _ _ _).mp member).1)
  | assign asked =>
      subst asked
      exact reads.elim
  | expire =>
      exact shows.mono fun index member => ((AttributeSet.contains_eraseAll _ _ _).mp member).1
  | expireAll =>
      exact shows.mono fun index member => ((AttributeSet.contains_restrict _ _ _).mp member).1
  | delete | detach => exact shows

/-- **An event that a reading request causes keeps all entries backed**, if the hash tells the
primary keys in the database apart. -/
theorem Allows.backs {context : Context} {event : Event}
    (apart : ∀ name, Key.Apart (database.keys (models name)))
    (allowed : program.Allows models request past context event) (reads : request.Reads)
    (typed : request.Typed models) (maps : ∀ model ∈ request.loaded, database.Maps model)
    (faithful : ∀ event ∈ past, event.Faithful database models context.session.config.dialect)
    (instances : ∀ inst ∈ program.instances, inst.Fits models context.configured)
    (well : context.WellTyped models) (backed : database.BacksAll context.session) :
    database.BacksAll (event.apply context).session := by
  refine Event.entries_apply backed ?_ ?_
  · rintro key model record row rfl
    cases allowed with
    | created delivered loads checked met made keyed absent =>
        have valid := well.valid (typed.loaded loads) checked
        obtain ⟨tuple, listed, columns, rfl, own, shows⟩ :=
          delivered.exists_shows reads typed faithful (maps model loads).stores valid made
        exact ⟨maps model loads, tuple, listed, keyed.trans own, shows⟩
  · intro key entry change there changes before
    have fits := well.entries key entry there
    cases changes with
    | changed =>
        cases allowed with
        | changed found writes =>
            obtain rfl := Option.some.inj (found.symm.trans there)
            exact writes.backs apart reads typed faithful instances fits
              (well.valid fits.typed fits.checked) before
    | expired =>
        obtain ⟨maps, tuple, listed, keyed, shows⟩ := before
        exact ⟨maps, tuple, listed, keyed, shows.mono fun index member =>
          ((AttributeSet.contains_restrict _ _ _).mp member).1⟩
    | detached => exact before

end Program

end LazyMapper
