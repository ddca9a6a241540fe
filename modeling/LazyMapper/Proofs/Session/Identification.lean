import LazyMapper.Proofs.Model.Keeping
import LazyMapper.Proofs.Session.Backing
import LazyMapper.Proofs.Session.Keying
import LazyMapper.Proofs.Session.Making

/-!
# Entries have the keys of their records

The key of an entry is fixed when the entry is made. Its record changes: rows are merged into it,
attributes are fetched, refreshed and written, and the attributes of the primary key are assigned
like all others. A model keeps the key of a record in this if it lets other attributes be assigned
without changing the key, and those of the key with what they hold (`Model.KeepsKey`). It may well
convert what it is given, as null to zero or to an empty text (`Model.ConvertsKey.keepsKey`).

What is assigned to them is what they hold. A row that answers a query by primary key carries the
values asked for (`AnswersCarryKey`), and writing leaves the primary key out. A row that is merged
has the same hash as the record of the entry, and so an identical key if the hash tells the keys of
all rows apart. So the record has the key still, also when the model refuses a value in between
(`Program.Writes.keeps_key`).
-/

set_option autoImplicit false

namespace LazyMapper

/-! ## Keys of records -/

namespace Model

/-- The key of a record has a value for each attribute of the primary key. Assigning keeps it when
another attribute is assigned, or one of the primary key is assigned what it holds: its value in the
key, or the one that it has in a row whose record has an identical key. -/
structure KeepsKey (model : Model) : Prop where
  complete : ∀ {record : Record}, model.Makes record →
    (model.keyOf record).length = model.entity.primaryKey.length
  others : ∀ {record record' : Record} {name : String} {value : Value}, model.Makes record →
    name ∉ model.entity.primaryKey → model.setAttribute record name value = .ok record' →
      model.keyOf record' = model.keyOf record
  held : ∀ {record record' : Record} {name : String} {value : Value}, model.Makes record →
    (name, value) ∈ model.entity.primaryKey.zip (model.keyOf record) →
      model.setAttribute record name value = .ok record' →
        model.keyOf record' = model.keyOf record
  merged : ∀ {record record' source : Record} {row : Row} {field : Field}, model.Makes record →
    model.fromRow row = .ok source →
      List.Forall₂ Value.Identical (model.keyOf source) (model.keyOf record) →
        field.name ∈ model.entity.primaryKey → model.entity.field? field.name = some field →
          row.selects field.column →
            model.setAttribute record field.name (row.valueOf field.column) = .ok record' →
              List.Forall₂ Value.Identical (model.keyOf source) (model.keyOf record')

variable {model : Model} {record : Record} {assignments : List (String × Value)}

/-- What every single assignment keeps is kept when all are made, also when one is refused. -/
theorem assignAll_keeps (holds : Record → Prop) (start : holds record)
    (each : ∀ assignment ∈ assignments, ∀ {before after : Record}, holds before →
      model.setAttribute before assignment.1 assignment.2 = .ok after → holds after) :
    holds (model.assignAll record assignments).1 := by
  induction assignments generalizing record with
  | nil => exact start
  | cons assignment rest ih =>
      obtain ⟨here, later⟩ := List.forall_mem_cons.mp each
      rw [assignAll]
      split
      · rename_i record' ok
        exact ih (here start ok) later
      · exact start

namespace KeepsKey

/-- Assigning keeps the key when what is assigned in the primary key are the values of the key. -/
theorem keyOf_assignAll (keeps : model.KeepsKey) (makes : model.Makes record)
    (held : ∀ assignment ∈ assignments, assignment.1 ∈ model.entity.primaryKey →
      assignment ∈ model.entity.primaryKey.zip (model.keyOf record)) :
    model.keyOf (model.assignAll record assignments).1 = model.keyOf record := by
  refine (assignAll_keeps (fun after => model.Makes after ∧ model.keyOf after = model.keyOf record)
    ⟨makes, rfl⟩ ?_).2
  rintro assignment member before after ⟨made, same⟩ ok
  refine ⟨made.assigned ok, ?_⟩
  by_cases primary : assignment.1 ∈ model.entity.primaryKey
  · exact (keeps.held made (same ▸ held assignment member primary) ok).trans same
  · exact (keeps.others made primary ok).trans same

/-- Assigning what a row selects keeps the key identical to that of the row. -/
theorem identical_assignAll {row : Row} {source : Record} {indices : List Nat}
    (keeps : model.KeepsKey) (makes : model.Makes record) (valid : model.entity.Valid)
    (from_row : model.fromRow row = .ok source) (chosen : indices ⊆ model.selectedBy row)
    (identical : List.Forall₂ Value.Identical (model.keyOf source) (model.keyOf record)) :
    List.Forall₂ Value.Identical (model.keyOf source)
      (model.keyOf (model.assignAll record (model.assignments row indices)).1) := by
  refine (assignAll_keeps (fun after => model.Makes after ∧
    List.Forall₂ Value.Identical (model.keyOf source) (model.keyOf after))
    ⟨makes, identical⟩ ?_).2
  rintro assignment member before after ⟨made, same⟩ ok
  obtain ⟨index, given, field, here, rfl⟩ := mem_assignments.mp member
  refine ⟨made.assigned ok, ?_⟩
  by_cases primary : field.name ∈ model.entity.primaryKey
  · exact keeps.merged made from_row same primary (valid.field?_eq here)
      ((mem_selectedBy_iff here).mp (chosen given)) ok
  · rwa [keeps.others made primary ok]

end KeepsKey

/-- The model makes keys of what it holds for their attributes. That is what it was given, perhaps
converted, as null to zero; what it holds already is not converted any further. -/
structure ConvertsKey (model : Model) (held : Record → String → Value)
    (convert : String → Value → Value) : Prop where
  key : ∀ {record : Record}, model.Makes record →
    model.keyOf record = model.entity.primaryKey.map (held record)
  stable : ∀ {record : Record}, model.Makes record → ∀ name ∈ model.entity.primaryKey,
    convert name (held record name) = held record name
  selected : ∀ {row : Row} {record : Record} {name : String} {field : Field},
    model.fromRow row = .ok record → name ∈ model.entity.primaryKey →
      model.entity.field? name = some field → row.selects field.column →
        held record name = convert name (row.valueOf field.column)
  assigned : ∀ {record record' : Record} {name : String} {value : Value}, model.Makes record →
    model.setAttribute record name value = .ok record' → ∀ other ∈ model.entity.primaryKey,
      held record' other = if other = name then convert name value else held record other

/-- A model that makes keys of converted values keeps them. -/
theorem ConvertsKey.keepsKey {held : Record → String → Value} {convert : String → Value → Value}
    (converts : model.ConvertsKey held convert) : model.KeepsKey where
  complete := fun makes => by rw [converts.key makes, List.length_map]
  others := by
    intro record record' name value makes other ok
    rw [converts.key makes, converts.key (makes.assigned ok)]
    refine List.map_congr_left fun key member => ?_
    rw [converts.assigned makes ok key member, if_neg (ne_of_mem_of_not_mem member other)]
  held := by
    intro record record' name value makes member ok
    rw [converts.key makes] at member ⊢
    rw [← List.map_prod_left_eq_zip] at member
    obtain ⟨own, primary, same⟩ := List.mem_map.mp member
    obtain ⟨rfl, rfl⟩ := Prod.mk.inj same
    rw [converts.key (makes.assigned ok)]
    refine List.map_congr_left fun key listed => ?_
    rw [converts.assigned makes ok key listed]
    split
    · rename_i same
      rw [same, converts.stable makes own primary]
    · rfl
  merged := by
    intro record record' source row field makes from_row identical primary mapped selects ok
    rw [converts.key makes, converts.key (.ofRow from_row), List.forall₂_map_left_iff,
      List.forall₂_map_right_iff, List.forall₂_same] at identical
    rw [converts.key (makes.assigned ok), converts.key (.ofRow from_row),
      List.forall₂_map_left_iff, List.forall₂_map_right_iff, List.forall₂_same]
    intro key member
    rw [converts.assigned makes ok key member]
    split
    · rename_i same
      rw [same, converts.selected from_row primary mapped selects]
      exact .same _
    · exact identical key member

/-- A model that keeps what it is given converts nothing. -/
theorem Keeps.convertsKey {held : Record → String → Value} (keeps : model.Keeps held) :
    model.ConvertsKey held fun _ value => value where
  key := keeps.key
  stable := fun _ _ _ => rfl
  selected := fun made _ => keeps.selected made
  assigned := fun makes ok other _ => keeps.assigned makes ok other

end Model

/-! ## Rows that carry keys -/

/-- The row carries the values of a primary key in those of its columns that were asked for. -/
def Row.Carries (row : Row) (entity : Entity) (columns : List String) (key : List Value) : Prop :=
  ∀ name value, (name, value) ∈ entity.primaryKey.zip key → entity.keyColumn name ∈ columns →
    row.find? (entity.keyColumn name) = some value

/-- If the statement asks for columns by a primary key, the rows answered to it carry the values
asked for in its columns. -/
def AnswersCarryKey (models : String → Model) (dialect : Sql.Dialect)
    (statement : String × List Value) (rows : List Row) : Prop :=
  ∀ (model : Model) (columns : List String) (key : List Value), model.Typed models →
    (model.entity.queryByKey columns key).build dialect = statement →
      ∀ row ∈ rows, row.Carries model.entity columns key

/-- What is assigned in the primary key from a row that carries the key of the record are the values
of the key. -/
theorem LoadPlan.assigned_of_carries {plan : LoadPlan} {entity : Entity} {row : Row}
    {columns : List String} {key : List Value} {indices : List Nat} (valid : entity.Valid)
    (suits : plan.Suits entity) (complete : key.length = entity.primaryKey.length)
    (selected : ∀ planned ∈ plan.attributesAt indices, planned.column ∈ columns)
    (carries : row.Carries entity columns key) :
    ∀ assignment ∈ plan.assignments row indices, assignment.1 ∈ entity.primaryKey →
      assignment ∈ entity.primaryKey.zip key := by
  intro assignment member primary
  obtain ⟨index, given, planned, there, rfl⟩ := mem_assignments.mp member
  obtain ⟨field, here, named, mapped⟩ := suits.exists_field there
  have column : entity.keyColumn planned.name = planned.column := by
    rw [Entity.keyColumn, ← named, valid.field?_eq here]
    exact mapped
  rw [← List.map_fst_zip (Nat.le_of_eq complete.symm)] at primary
  obtain ⟨⟨name, value⟩, asked, same⟩ := List.mem_map.mp primary
  obtain rfl : name = planned.name := same
  have chosen := selected planned (List.mem_filterMap.mpr ⟨index, given, there⟩)
  have found := carries _ _ asked (column ▸ chosen)
  rw [column] at found
  rw [Row.valueOf, found]
  exact asked

/-- The rows make records with primary keys among the given ones, for all models that the request
loads. -/
def Request.KeysIn (request : Request) (keys : String → Set (List Value))
    (rows : List Row) : Prop :=
  ∀ row ∈ rows, ∀ part ∈ row.partsFor request.loaded, ∀ record,
    part.1.fromRow part.2 = .ok record →
      part.1.keyOf record ∈ keys part.1.entity.typeName

/-- A row that is delivered makes a record with one of the listed keys. -/
theorem Request.Delivers.keyOf_mem {request : Request} {dialect : Sql.Dialect} {past : List Event}
    {keys : String → Set (List Value)} {model : Model} {row : Row} {record : Record}
    (delivered : request.Delivers dialect past model row)
    (keysIn : ∀ statement rows, .queried statement (.ok rows) ∈ past → request.KeysIn keys rows)
    (made : model.fromRow row = .ok record) :
    model.keyOf record ∈ keys model.entity.typeName := by
  cases delivered with
  | row loads suits selects eager answered member =>
      refine keysIn _ _ answered row member (model, row) ?_ record made
      rw [loads]
      exact List.mem_cons_self
  | part loads which answered member =>
      refine keysIn _ _ answered _ member (model, _) ?_ record made
      rw [loads]
      exact List.mem_map_of_mem which

/-! ## Changes keep the key -/

section Keyed

variable [Hashable Digest] {keys : String → Set (List Value)}

/-- The key is that of the record, and the primary key has the digest of a listed one. -/
structure Entry.IsKeyed (keys : String → Set (List Value)) (key : Key) (entry : Entry) : Prop where
  key : key = Key.ofRecord entry.model entry.record
  listed : Digest.ofValues entry.key ∈ Digest.ofValues '' keys entry.model.entity.typeName

/-- An entry with the same digest has the same key. -/
theorem Entry.IsKeyed.of_digest {key : Key} {entry after : Entry} (keyed : entry.IsKeyed keys key)
    (model : after.model = entry.model)
    (same : Digest.ofValues after.key = Digest.ofValues entry.key) : after.IsKeyed keys key where
  key := by
    rw [Entry.key, Entry.key] at same
    rw [keyed.key, Key.ofRecord, Key.ofRecord, Key.ofValues, Key.ofValues, ← same, model]
  listed := by
    rw [same, model]
    exact keyed.listed

/-- The keys of all entries of a session are those of their records. -/
def Session.Keyed (keys : String → Set (List Value)) (session : Session) : Prop :=
  ∀ key entry, session.identities.find? key = some entry → entry.IsKeyed keys key

end Keyed

namespace Program

variable [Hashable Digest] {models : String → Model} {program : Program} {request : Request}
  {past : List Event} {keys : String → Set (List Value)}

/-- **A change that a request causes keeps the key of the record**, if the model does, rows that
answer queries by primary key carry it, and the hash tells the keys of merged rows apart. -/
theorem Writes.keeps_key {session : Session} {key : Key} {entry : Entry} {change : EntryChange}
    {configured : Configured} (writes : program.Writes request past session key entry change)
    (typed : request.Typed models) (keeps : ∀ name, (models name).KeepsKey)
    (apart : ∀ name, Key.Apart (keys name))
    (answers : ∀ statement rows, .queried statement (.ok rows) ∈ past →
      AnswersCarryKey models session.config.dialect statement rows)
    (keysIn : ∀ statement rows, .queried statement (.ok rows) ∈ past → request.KeysIn keys rows)
    (instances : ∀ inst ∈ program.instances, inst.Fits models configured)
    (fits : entry.Fits models configured key) (valid : entry.model.entity.Valid)
    (made : entry.IsMade) (keyed : entry.IsKeyed keys key) :
    (change.apply entry).IsKeyed keys key := by
  have own : entry.model.KeepsKey := fits.typed ▸ keeps entry.model.entity.typeName
  refine keyed.of_digest (EntryChange.apply_model entry change) ?_
  rw [Entry.key, EntryChange.apply_model]
  -- The row answered to the query of an attached instance carries the key of the record.
  have answer {inst : Instance} {number : Nat} {columns : List String} {row : Row}
      {rows : List Row} (attached : program.Attaches number inst key entry)
      (answered : AnsweredByKey session.config.dialect past inst entry columns (row :: rows)) :
      inst.model = entry.model ∧ inst.plan.Suits entry.model.entity ∧
        row.Carries entry.model.entity columns entry.key := by
    have same := attached.model_eq instances fits
    have suits := attached.suits instances fits
    refine ⟨same, suits, answers _ _ answered entry.model columns _ fits.typed ?_ row
      List.mem_cons_self⟩
    rw [suits.owner, same]
    rfl
  -- Only the record counts, whatever is settled beside it, and also when a value was refused.
  have assigned {assignments : List (String × Value)} {settle : Entry → Entry}
      (settles : ∀ after, (settle after).record = after.record)
      (same : Digest.ofValues (entry.model.keyOf
        (entry.model.assignAll entry.record assignments).1) = Digest.ofValues entry.key) :
      Digest.ofValues (entry.model.keyOf (entry.assigning entry.model assignments settle).record) =
        Digest.ofValues entry.key := by
    rwa [Entry.assigning_record settles]
  cases writes with
  | @absorb model row record delivered from_row named live =>
      obtain rfl := fits.model_eq (typed.loaded delivered.loads) named
      refine assigned (fun _ => rfl) ?_
      have listed := Set.mem_image_of_mem Digest.ofValues (delivered.keyOf_mem keysIn from_row)
      have same := apart _ listed keyed.listed (Key.mk.inj (named.symm.trans keyed.key)).2
      rw [← same]
      exact (Digest.ofValues_eq_iff.mpr (own.identical_assignAll made valid from_row
        List.filter_sublist.subset (Digest.ofValues_eq_iff.mp same))).symm
  | fetch asked attached position unloaded answered =>
      obtain ⟨same, suits, carries⟩ := answer attached answered
      rw [EntryChange.apply, same]
      exact assigned (fun _ => rfl) (congrArg Digest.ofValues (own.keyOf_assignAll made
        (LoadPlan.assigned_of_carries valid suits (own.complete made)
          (fun planned listed => List.mem_map_of_mem listed) carries)))
  | refresh asked attached answered =>
      obtain ⟨same, suits, carries⟩ := answer attached answered
      rw [EntryChange.apply, same]
      exact assigned (fun _ => rfl) (congrArg Digest.ofValues (own.keyOf_assignAll made
        (LoadPlan.assigned_of_carries valid suits (own.complete made)
          LoadPlan.column_mem_eagerColumns carries)))
  | @assign number index name value inst asked attached position free =>
      have same := attached.model_eq instances fits
      have suits := attached.suits instances fits
      rw [EntryChange.apply, same]
      refine assigned (fun _ => rfl) (congrArg Digest.ofValues
        (own.keyOf_assignAll made fun assignment member primary => ?_))
      obtain rfl := List.mem_singleton.mp member
      rw [suits.any_primaryKey position] at free
      exact absurd (List.contains_iff_mem.mpr primary) (ne_true_of_eq_false free)
  | expire | expireAll | delete | detach => rfl

/-- **An allowed event keeps the keys of all entries those of their records**, if models keep keys,
rows that answer queries by primary key carry it, and the hash tells the keys of merged rows
apart. -/
theorem Allows.keyed {context : Context} {event : Event}
    (allowed : program.Allows models request past context event) (typed : request.Typed models)
    (keeps : ∀ name, (models name).KeepsKey) (apart : ∀ name, Key.Apart (keys name))
    (answers : ∀ statement rows, .queried statement (.ok rows) ∈ past →
      AnswersCarryKey models context.session.config.dialect statement rows)
    (keysIn : ∀ statement rows, .queried statement (.ok rows) ∈ past → request.KeysIn keys rows)
    (instances : ∀ inst ∈ program.instances, inst.Fits models context.configured)
    (well : context.WellTyped models) (made : context.session.Makes)
    (keyed : context.session.Keyed keys) : (event.apply context).session.Keyed keys := by
  refine Event.entries_apply keyed ?_ ?_
  · rintro key model record row rfl
    cases allowed with
    | created delivered _ _ _ from_row named _ =>
        exact ⟨named, Set.mem_image_of_mem _ (delivered.keyOf_mem keysIn from_row)⟩
  · intro key entry change there changes here
    have fits := well.entries key entry there
    cases changes with
    | changed =>
        cases allowed with
        | changed found writes =>
            obtain rfl := Option.some.inj (found.symm.trans there)
            exact writes.keeps_key typed keeps apart answers keysIn instances fits
              (well.valid fits.typed fits.checked) (made key _ there) here
    | expired | detached => exact ⟨here.key, here.listed⟩

end Program

end LazyMapper
