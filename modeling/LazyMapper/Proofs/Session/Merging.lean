import LazyMapper.Proofs.Model.Keeping
import LazyMapper.Proofs.Session.Fetching

/-!
# Rows merged one after the other

A query may answer with many rows of one primary key, each with its own columns. They are merged
in their order: the first one makes an entry, or goes into the live one that there is, and the
later ones fill in what is still missing. So an attribute has the value of the first row that has
its column, unless it was loaded before (`Entry.Merges`), and every key has one entry, to which
all instances made of its rows are attached (`Action.mergeRows_first_wins`).

Creating an entry and absorbing a row go through different code. Both give what `Entry.Merges`
says of a single row (`Entry.ofRow_merges`, `Entry.absorb_merges`), and it adds up when more rows
follow (`Entry.Merges.append`), which is the induction over the rows.
-/

set_option autoImplicit false

namespace LazyMapper

/-! ## What rows select -/

namespace Model

variable {model : Model} {row : Row} {index : Nat}

/-- Different positions assign different attributes. -/
theorem nodup_assignments {indices : List Nat} (valid : model.entity.Valid)
    (sorted : indices.Pairwise (· < ·)) (row : Row) :
    ((model.assignments row indices).map Prod.fst).Nodup := by
  have names : (model.assignments row indices).map Prod.fst =
      indices.filterMap ((model.entity.fields.map Field.name)[·]?) := by
    simp only [assignments, List.map_filterMap, List.getElem?_map, Option.map_map]
    rfl
  rw [names]
  exact valid.nodup_names sorted

/-- The attributes assigned are those at the given positions. -/
theorem mem_assigned_iff {indices : List Nat} (valid : model.entity.Valid) {field : Field}
    (here : model.entity.fields[index]? = some field) :
    field.name ∈ (model.assignments row indices).map Prod.fst ↔ index ∈ indices := by
  rw [List.mem_map]
  constructor
  · rintro ⟨assignment, member, named⟩
    obtain ⟨other, given, found, there, rfl⟩ := mem_assignments.mp member
    rwa [← valid.index_unique there here named]
  · intro given
    exact ⟨_, mem_assignments.mpr ⟨index, given, field, here, rfl⟩, rfl⟩

end Model

namespace Entry

variable {model : Model} {row : Row} {entry : Entry} {index : Nat}

theorem missingFrom_sorted (entry : Entry) (model : Model) (row : Row) :
    (entry.missingFrom model row).Pairwise (· < ·) :=
  (List.pairwise_lt_range.filter _).filter _

/-! ## Entries after rows are merged -/

/-- The entry is one of the model: its record is made by it, and its set of loaded attributes is
over its fields. -/
structure IsOf (model : Model) (entry : Entry) : Prop where
  made : model.Makes entry.record
  size : entry.loaded.size = model.entity.fields.length

/-- An entry after rows of its key have been merged into the one that was live before, or into a
fresh one if there was none. What was loaded stays; of what the rows select besides, the first
row counts that has the column. -/
structure Merges (model : Model) (held : Record → String → Value) (unused : Nat)
    (old? : Option Entry) (rows : List Row) (entry : Entry) : Prop where
  state : entry.state = .persistent
  kept : ∀ old ∈ old?, entry.handle = old.handle ∧ entry.version = old.version ∧
    entry.model = old.model
  fresh : old? = none → unused ≤ entry.handle ∧ entry.version = 0 ∧ entry.model = model
  loaded : ∀ index, index ∈ entry.loaded ↔ (∃ old ∈ old?, index ∈ old.loaded) ∨
    ∃ field, model.entity.fields[index]? = some field ∧ ∃ row ∈ rows, row.selects field.column
  before : ∀ old ∈ old?, ∀ index field, model.entity.fields[index]? = some field →
    index ∈ old.loaded → held entry.record field.name = held old.record field.name
  first : ∀ index field, model.entity.fields[index]? = some field →
    (∀ old ∈ old?, index ∉ old.loaded) → ∀ row,
      rows.find? (·.selects field.column) = some row →
        held entry.record field.name = row.valueOf field.column

variable {held : Record → String → Value} {unused : Nat}

/-- An entry made of a row has loaded what the row selects. -/
theorem mem_ofRow {record : Record} {handle : Nat} :
    index ∈ (ofRow model record row handle).loaded ↔
      ∃ field, model.entity.fields[index]? = some field ∧ row.selects field.column := by
  refine (AttributeSet.contains_ofList _ _ index).trans ?_
  rw [Model.mem_selectedBy]
  refine and_iff_left_of_imp ?_
  rintro ⟨field, here, -⟩
  exact (List.getElem?_eq_some_iff.mp here).1

/-- An entry that absorbs a row has loaded what it had loaded and what the row selects. -/
theorem mem_absorb {old : Entry} (size : old.loaded.size = model.entity.fields.length)
    (taken : (model.assignAll old.record
      (model.assignments row (old.missingFrom model row))).2 = .ok ()) :
    index ∈ (EntryChange.apply old (.absorb model row)).loaded ↔ index ∈ old.loaded ∨
      ∃ field, model.entity.fields[index]? = some field ∧ row.selects field.column := by
  rw [EntryChange.apply, assigning_of_ok taken]
  refine (AttributeSet.contains_insertAll _ _ index).trans ?_
  rw [mem_missingFrom]
  constructor
  · rintro (loaded | ⟨⟨selected, -⟩, -⟩)
    · exact .inl loaded
    · exact .inr selected
  · rintro (loaded | ⟨field, here, selects⟩)
    · exact .inl loaded
    · refine or_iff_not_imp_left.mpr fun unloaded => ⟨⟨⟨field, here, selects⟩, unloaded⟩, ?_⟩
      rw [size]
      exact (List.getElem?_eq_some_iff.mp here).1

theorem isOf_ofRow {record : Record} (made : model.fromRow row = .ok record) (handle : Nat) :
    (ofRow model record row handle).IsOf model :=
  ⟨.ofRow made, AttributeSet.size_ofList _ _⟩

theorem IsOf.absorb {old : Entry} (own : old.IsOf model)
    (taken : (model.assignAll old.record
      (model.assignments row (old.missingFrom model row))).2 = .ok ()) :
    (EntryChange.apply old (.absorb model row)).IsOf model := by
  rw [EntryChange.apply, assigning_of_ok taken]
  exact ⟨own.made.assignAll _, (AttributeSet.size_insertAll _ _).trans own.size⟩

/-- The entry made of a row. -/
theorem ofRow_merges {record : Record} {handle : Nat} (keeps : model.Keeps held)
    (valid : model.entity.Valid) (made : model.fromRow row = .ok record)
    (new : unused ≤ handle) :
    Merges model held unused none [row] (ofRow model record row handle) := by
  refine ⟨rfl, nofun, fun _ => ⟨new, rfl, rfl⟩, fun index => ?_, nofun, ?_⟩
  · simp [mem_ofRow]
  · intro index field here _ other found
    obtain rfl := List.mem_singleton.mp (List.mem_of_find?_eq_some found)
    exact keeps.selected made (valid.field?_eq here) (by simpa using List.find?_some found)

/-- A live entry that absorbs a row. -/
theorem absorb_merges {old : Entry} (keeps : model.Keeps held) (valid : model.entity.Valid)
    (own : old.IsOf model)
    (taken : (model.assignAll old.record
      (model.assignments row (old.missingFrom model row))).2 = .ok ()) :
    Merges model held unused (some old) [row] (EntryChange.apply old (.absorb model row)) := by
  have distinct := Model.nodup_assignments valid (old.missingFrom_sorted model row) row
  obtain ⟨given, kept⟩ := keeps.assignAll own.made distinct taken
  have loaded (index : Nat) : index ∈ (EntryChange.apply old (.absorb model row)).loaded ↔
      index ∈ old.loaded ∨
        ∃ field, model.entity.fields[index]? = some field ∧ row.selects field.column :=
    mem_absorb own.size taken
  rw [EntryChange.apply, assigning_of_ok taken] at loaded ⊢
  refine ⟨rfl, ?_, (fun fresh => by cases fresh), ?_, ?_, ?_⟩
  · rintro _ ⟨⟩
    exact ⟨rfl, rfl, rfl⟩
  · intro index
    rw [loaded]
    simp
  · rintro _ ⟨⟩ index field here loaded
    refine kept field.name fun assigned => ?_
    exact (mem_missingFrom.mp ((Model.mem_assigned_iff valid here).mp assigned)).2 loaded
  · intro index field here unloaded other found
    obtain rfl := List.mem_singleton.mp (List.mem_of_find?_eq_some found)
    have selects : other.selects field.column := by simpa using List.find?_some found
    have missing := mem_missingFrom.mpr ⟨⟨field, here, selects⟩, unloaded old rfl⟩
    exact given _ (Model.mem_assignments.mpr ⟨index, missing, field, here, rfl⟩)

theorem Merges.mono {unused' : Nat} {old? : Option Entry} {rows : List Row}
    (merged : Merges model held unused' old? rows entry) (le : unused ≤ unused') :
    Merges model held unused old? rows entry :=
  { merged with fresh := fun none => (merged.fresh none).imp_left (Nat.le_trans le ·) }

/-- Rows merged in two goes. -/
theorem Merges.append {unused' : Nat} {old? : Option Entry} {front back : List Row}
    {middle : Entry} (merged : Merges model held unused old? front middle)
    (more : Merges model held unused' (some middle) back entry) :
    Merges model held unused old? (front ++ back) entry := by
  obtain ⟨handle, version, same⟩ := more.kept middle rfl
  refine ⟨more.state, fun old there => ?_, fun none => ?_, fun index => ?_, ?_, ?_⟩
  · rw [handle, version, same]
    exact merged.kept old there
  · rw [handle, version, same]
    exact merged.fresh none
  · rw [more.loaded]
    constructor
    · rintro (⟨_, ⟨⟩, member⟩ | ⟨field, here, row, listed, selects⟩)
      · refine ((merged.loaded index).mp member).imp_right ?_
        rintro ⟨field, here, row, listed, selects⟩
        exact ⟨field, here, row, List.mem_append_left _ listed, selects⟩
      · exact .inr ⟨field, here, row, List.mem_append_right _ listed, selects⟩
    · rintro (before | ⟨field, here, row, listed, selects⟩)
      · exact .inl ⟨middle, rfl, (merged.loaded index).mpr (.inl before)⟩
      · rcases List.mem_append.mp listed with earlier | later
        · exact .inl ⟨middle, rfl,
            (merged.loaded index).mpr (.inr ⟨field, here, row, earlier, selects⟩)⟩
        · exact .inr ⟨field, here, row, later, selects⟩
  · intro old there index field here loaded
    have member := (merged.loaded index).mpr (.inl ⟨old, there, loaded⟩)
    exact (more.before middle rfl index field here member).trans
      (merged.before old there index field here loaded)
  · intro index field here unloaded row found
    rw [List.find?_append] at found
    cases earlier : front.find? (·.selects field.column) with
    | some first =>
        rw [earlier] at found
        obtain rfl := Option.some.inj found
        have selects : first.selects field.column := by simpa using List.find?_some earlier
        have member := (merged.loaded index).mpr
          (.inr ⟨field, here, first, List.mem_of_find?_eq_some earlier, selects⟩)
        exact (more.before middle rfl index field here member).trans
          (merged.first index field here unloaded first earlier)
    | none =>
        rw [earlier] at found
        refine more.first index field here ?_ row found
        rintro _ ⟨⟩ member
        rcases (merged.loaded index).mp member with ⟨old, there, loaded⟩ |
          ⟨field', here', other, listed, selects⟩
        · exact unloaded old there loaded
        · obtain rfl := Option.some.inj (here.symm.trans here')
          exact List.find?_eq_none.mp earlier other listed selects

end Entry

/-! ## Single rows -/

/-- The key of the record that a model makes of a row. -/
def Model.rowKey? [Hashable Digest] (model : Model) (row : Row) : Option Key :=
  (model.fromRow row).toOption.map (Key.ofRecord model)

/-- The entry of a key that a row is merged into, if there is a live one. -/
def Session.live? (session : Session) (key : Key) : Option Entry :=
  (session.identities.find? key).filter (·.state.isLive)

/-- Every entry keeps its handle number and its state. -/
def Session.KeepsStates (before after : Session) : Prop :=
  ∀ key entry, before.identities.find? key = some entry → ∃ last,
    after.identities.find? key = some last ∧ last.handle = entry.handle ∧
      last.state = entry.state

theorem Session.KeepsStates.of_identities {before after : Session}
    (same : after.identities = before.identities) : before.KeepsStates after :=
  fun _ entry there => ⟨entry, same ▸ there, rfl, rfl⟩

namespace Action

theorem ends_ofExcept {α : Type} {result : Except Error α} {context : Context}
    {good : α → Context → Prop} {bad : Interruption → Context → Prop} :
    Ends (ofExcept result) context good bad ↔
      match result with
      | .ok value => good value context
      | .error error => bad (.failed error) context := by
  cases result <;> exact Iff.rfl

/-- What merging a row comes to when it succeeds: the entry of the row's key is put in its place,
and it is the live one there, which absorbs the row, or a fresh one. -/
structure MergesRow (model : Model) (row : Row) (before after : Context) (key : Key)
    (entry : Entry) : Prop where
  identities : after.session.identities = before.session.identities.insert key entry
  handles : before.nextHandle ≤ after.nextHandle
  absorbs : ∀ old, before.session.live? key = some old →
    entry = EntryChange.apply old (.absorb model row) ∧
      (model.assignAll old.record
        (model.assignments row (old.missingFrom model row))).2 = .ok ()
  creates : before.session.live? key = none → ∃ record, model.fromRow row = .ok record ∧
    entry = .ofRow model record row before.nextHandle

variable [Hashable Digest]

/-- Why a row cannot be merged: the model makes no record of it, or refuses a value for the live
entry of its key. -/
inductive RefusesRow (model : Model) (row : Row) (session : Session) : Interruption → Prop where
  | record {error : Error} (refused : model.fromRow row = .error error) :
      RefusesRow model row session (.failed error)
  | value {record : Record} {old : Entry} {error : Error} (made : model.fromRow row = .ok record)
      (live : session.live? (Key.ofRecord model record) = some old)
      (refused : (model.assignAll old.record
        (model.assignments row (old.missingFrom model row))).2 = .error error) :
      RefusesRow model row session (.failed error)

theorem RefusesRow.of_identities {model : Model} {row : Row} {before after : Session}
    {interruption : Interruption} (same : after.identities = before.identities)
    (refuses : RefusesRow model row after interruption) :
    RefusesRow model row before interruption := by
  cases refuses with
  | record refused => exact .record refused
  | value made live refused =>
      refine .value made ?_ refused
      rwa [Session.live?, same] at live

theorem mergeRecord_ends {model : Model} {row : Row} {record : Record} {key : Key}
    (made : model.fromRow row = .ok record) (keyed : Key.ofRecord model record = key)
    (context : Context) :
    Ends (mergeRecord model row record key) context
      (fun entry after => MergesRow model row context after key entry)
      fun interruption after => context.session.KeepsStates after.session ∧
        RefusesRow model row context.session interruption := by
  unfold mergeRecord
  rw [ends_bind, ends_session]
  cases live : context.session.live? key with
  | some old =>
      rw [show (context.session.identities.find? key).filter (·.state.isLive) = some old from live]
      dsimp only
      rw [EntryChange.absorb_eq, ends_bind]
      refine ends_modify.mpr ?_
      rw [ends_bind, ends_ofExcept]
      dsimp only
      cases taken : (model.assignAll old.record
          (model.assignments row (old.missingFrom model row))).2 with
      | error error =>
          refine ⟨fun other entry there => ?_, .value made (keyed ▸ live) taken⟩
          have found := context.session.find?_withEntry key other
            (EntryChange.apply old (.absorb model row))
          by_cases same : other = key
          · subst same
            obtain rfl : old = entry :=
              Option.some.inj ((Option.filter_eq_some_iff.mp live).1.symm.trans there)
            refine ⟨_, found.trans (if_pos rfl), EntryChange.apply_handle _ _, ?_⟩
            rw [EntryChange.apply, Entry.assigning_of_error taken]
          · exact ⟨entry, (found.trans (if_neg same)).trans there, rfl, rfl⟩
      | ok _ =>
          refine ⟨rfl, Nat.le_refl _, fun other found => ?_, fun missing => ?_⟩
          · obtain rfl := Option.some.inj (live.symm.trans found)
            exact ⟨rfl, taken⟩
          · rw [live] at missing
            cases missing
  | none =>
      rw [show (context.session.identities.find? key).filter (·.state.isLive) = none from live]
      refine ⟨rfl, Nat.le_succ _, fun other found => ?_, fun _ => ⟨record, made, rfl⟩⟩
      rw [live] at found
      cases found

theorem mergeRow_ends (model : Model) (plan : LoadPlan) (row : Row) (context : Context) :
    Ends (mergeRow model plan row) context
      (fun inst after => ∃ key entry, model.rowKey? row = some key ∧
        inst = .ofEntry model key plan entry ∧ MergesRow model row context after key entry)
      fun interruption after => context.session.KeepsStates after.session ∧
        RefusesRow model row context.session interruption := by
  unfold mergeRow
  rw [ends_bind]
  refine ends_modify.mpr ?_
  have same : (context.session.meet model).identities = context.session.identities :=
    context.session.meet_identities model
  rw [ends_bind, ends_ofExcept]
  cases made : model.fromRow row with
  | error error => exact ⟨.of_identities same, .record made⟩
  | ok record =>
      dsimp only
      rw [ends_bind]
      refine (mergeRecord_ends made rfl _).mono ?_ fun _ after ⟨kept, refuses⟩ =>
        ⟨fun key entry there => kept key entry (same ▸ there), refuses.of_identities same⟩
      intro entry after merges
      refine ⟨Key.ofRecord model record, entry, by rw [Model.rowKey?, made]; rfl, rfl, ?_⟩
      obtain ⟨identities, handles, absorbs, creates⟩ := merges
      unfold Session.live? at absorbs creates
      dsimp only at identities absorbs creates
      rw [same] at identities absorbs creates
      exact ⟨identities, handles, absorbs, creates⟩

end Action

/-! ## Rows one after the other -/

/-- What merging rows of a model relies on: every key has one entry, and the entries under the
keys of the model are of it. -/
structure Session.Ready (session : Session) (model : Model) : Prop where
  distinct : session.identities.Distinct
  entries : ∀ key entry, session.identities.find? key = some entry →
    key.typeName = model.entity.typeName → entry.IsOf model

namespace Action

variable {model : Model} {held : Record → String → Value} {row : Row} {before after : Context}
  {key : Key} {entry : Entry}

theorem MergesRow.find?_eq (merges : MergesRow model row before after key entry) (other : Key) :
    after.session.identities.find? other =
      if other = key then some entry else before.session.identities.find? other := by
  rw [merges.identities, IdentityMap.find?_insert]

/-- The entry that a row is merged into is live afterwards. -/
theorem MergesRow.live (merges : MergesRow model row before after key entry) :
    entry.state.isLive = true := by
  cases found : before.session.live? key with
  | some old =>
      obtain ⟨rfl, taken⟩ := merges.absorbs old found
      rw [EntryChange.apply, Entry.assigning_of_ok taken]
      rfl
  | none =>
      obtain ⟨record, -, rfl⟩ := merges.creates found
      rfl

theorem MergesRow.live?_eq (merges : MergesRow model row before after key entry) :
    after.session.live? key = some entry :=
  Option.filter_eq_some_iff.mpr ⟨(merges.find?_eq key).trans (if_pos rfl), merges.live⟩

variable [Hashable Digest]

theorem rowKey?_typeName (keyed : model.rowKey? row = some key) :
    key.typeName = model.entity.typeName := by
  obtain ⟨record, -, rfl⟩ := Option.map_eq_some_iff.mp keyed
  rfl

/-- A session that is ready for a row is ready for the next one. -/
theorem MergesRow.ready (merged : MergesRow model row before after key entry)
    (keyed : model.rowKey? row = some key) (ready : before.session.Ready model) :
    after.session.Ready model where
  distinct := by
    rw [merged.identities]
    exact ready.distinct.insert key entry
  entries := by
    intro other found there named
    rw [merged.find?_eq] at there
    split at there
    · obtain rfl := Option.some.inj there
      cases live : before.session.live? key with
      | some old =>
          obtain ⟨rfl, taken⟩ := merged.absorbs old live
          have earlier := (Option.filter_eq_some_iff.mp live).1
          exact (ready.entries key old earlier (rowKey?_typeName keyed)).absorb taken
      | none =>
          obtain ⟨record, made, rfl⟩ := merged.creates live
          exact Entry.isOf_ofRow made _
    · exact ready.entries other found there named

/-- **A row that is merged goes into the entry of its key.** -/
theorem MergesRow.merges (merged : MergesRow model row before after key entry)
    (keyed : model.rowKey? row = some key) (keeps : model.Keeps held)
    (valid : model.entity.Valid) (ready : before.session.Ready model) :
    entry.Merges model held before.nextHandle (before.session.live? key) [row] := by
  cases live : before.session.live? key with
  | some old =>
      obtain ⟨rfl, taken⟩ := merged.absorbs old live
      have there := (Option.filter_eq_some_iff.mp live).1
      exact Entry.absorb_merges keeps valid
        (ready.entries key old there (rowKey?_typeName keyed)) taken
  | none =>
      obtain ⟨record, made, rfl⟩ := merged.creates live
      exact Entry.ofRow_merges keeps valid made (Nat.le_refl _)

/-- What a row selects is loaded in the entry that it goes into. -/
theorem MergesRow.loads (merged : MergesRow model row before after key entry)
    (keyed : model.rowKey? row = some key) (ready : before.session.Ready model) {index : Nat}
    {field : Field} (here : model.entity.fields[index]? = some field)
    (selects : row.selects field.column) : index ∈ entry.loaded := by
  cases live : before.session.live? key with
  | some old =>
      obtain ⟨rfl, taken⟩ := merged.absorbs old live
      have there := (Option.filter_eq_some_iff.mp live).1
      have own := ready.entries key old there (rowKey?_typeName keyed)
      exact (Entry.mem_absorb own.size taken).mpr (.inr ⟨field, here, selects⟩)
  | none =>
      obtain ⟨record, made, rfl⟩ := merged.creates live
      exact Entry.mem_ofRow.mpr ⟨field, here, selects⟩

/-- The rows of a key. -/
def rowsOf (model : Model) (key : Key) (rows : List Row) : List Row :=
  rows.filter fun row => model.rowKey? row = some key

/-- What merging rows has made of the entry of a key. -/
structure MergesRows (model : Model) (held : Record → String → Value) (rows : List Row)
    (before after : Context) (instances : List Instance) : Prop where
  keys : List.Forall₂ (fun row inst => model.rowKey? row = some inst.key) rows instances
  ready : after.session.Ready model
  others : ∀ key, rowsOf model key rows = [] →
    after.session.identities.find? key = before.session.identities.find? key
  merged : ∀ key, rowsOf model key rows ≠ [] → ∃ entry,
    after.session.identities.find? key = some entry ∧
      entry.Merges model held before.nextHandle (before.session.live? key)
        (rowsOf model key rows) ∧
      ∀ inst ∈ instances, inst.key = key → inst.handle = entry.handle

theorem rowsOf_cons (keyed : model.rowKey? row = some key) (other : Key) (rest : List Row) :
    rowsOf model other (row :: rest) =
      if other = key then row :: rowsOf model other rest else rowsOf model other rest := by
  unfold rowsOf
  rw [List.filter_cons, keyed]
  by_cases same : other = key
  · subst same
    simp
  · rw [if_neg same, decide_eq_false fun found => same (Option.some.inj found).symm]
    rfl

/-- The instances of merged rows have the keys of these rows. -/
theorem MergesRows.rowsOf_ne_nil {rows : List Row} {instances : List Instance} {inst : Instance}
    (merged : MergesRows model held rows before after instances) (member : inst ∈ instances) :
    rowsOf model inst.key rows ≠ [] := by
  obtain ⟨index, inside, rfl⟩ := List.getElem_of_mem member
  have inside' : index < rows.length := by rwa [merged.keys.length_eq]
  have keyed := merged.keys.get inside' inside
  refine List.ne_nil_of_mem (List.mem_filter.mpr ⟨List.getElem_mem inside', ?_⟩)
  exact decide_eq_true keyed

/-- One more row before the others. -/
theorem MergesRows.cons {middle : Context} {rest : List Row} {instances : List Instance}
    {inst : Instance} (keyed : model.rowKey? row = some inst.key)
    (handle : inst.handle = entry.handle)
    (merged : MergesRow model row before middle inst.key entry)
    (first : entry.Merges model held before.nextHandle (before.session.live? inst.key) [row])
    (later : MergesRows model held rest middle after instances) :
    MergesRows model held (row :: rest) before after (inst :: instances) where
  keys := .cons keyed later.keys
  ready := later.ready
  others := by
    intro key absent
    rw [rowsOf_cons keyed] at absent
    split at absent
    · cases absent
    · rename_i apart
      rw [later.others key absent, merged.find?_eq, if_neg apart]
  merged := by
    intro key occurs
    rw [rowsOf_cons keyed] at occurs ⊢
    split
    · rename_i same
      subst same
      have there : middle.session.identities.find? inst.key = some entry := by
        rw [merged.find?_eq, if_pos rfl]
      by_cases last : rowsOf model inst.key rest = []
      · rw [last]
        refine ⟨entry, (later.others _ last).trans there, first, fun other member same => ?_⟩
        rcases List.mem_cons.mp member with rfl | member
        · exact handle
        · exact absurd last (same ▸ later.rowsOf_ne_nil member)
      · obtain ⟨final, found, more, handles⟩ := later.merged _ last
        rw [merged.live?_eq] at more
        refine ⟨final, found, first.append more, fun other member same => ?_⟩
        rcases List.mem_cons.mp member with rfl | member
        · exact handle.trans (more.kept entry rfl).1.symm
        · exact handles other member same
    · rename_i apart
      rw [if_neg apart] at occurs
      obtain ⟨final, found, more, handles⟩ := later.merged key occurs
      have live : middle.session.live? key = before.session.live? key := by
        rw [Session.live?, merged.find?_eq, if_neg apart, Session.live?]
      rw [live] at more
      refine ⟨final, found, more.mono merged.handles, fun other member same => ?_⟩
      rcases List.mem_cons.mp member with rfl | member
      · exact absurd same.symm apart
      · exact handles other member same

/-- **Rows are merged one after the other, each into the entry of its key.** -/
theorem mergeRows_ends (keeps : model.Keeps held) (valid : model.entity.Valid) (plan : LoadPlan)
    {context : Context} (ready : context.session.Ready model) (rows : List Row) :
    Ends (rows.mapM (mergeRow model plan)) context
      (fun instances after => MergesRows model held rows context after instances)
      fun _ _ => True := by
  induction rows generalizing context with
  | nil =>
      rw [List.mapM_nil]
      exact ⟨.nil, ready, fun _ _ => rfl, fun _ occurs => absurd rfl occurs⟩
  | cons row rest ih =>
      rw [List.mapM_cons, ends_bind]
      refine (mergeRow_ends model plan row context).mono ?_ fun _ _ _ => trivial
      rintro inst middle ⟨key, entry, keyed, rfl, merged⟩
      have first := merged.merges keyed keeps valid ready
      rw [ends_bind]
      refine (ih (merged.ready keyed ready)).mono ?_ fun _ _ _ => trivial
      intro instances after later
      exact .cons keyed rfl merged first later

/-- **Merging rows loses and duplicates nothing, and the first value wins.** Every row has an
instance with its key. Keys without rows have the entry they had. A key with rows has exactly one
entry, into which they are merged, and whose handle number all instances with the key have. -/
theorem mergeRows_first_wins {model : Model} {held : Record → String → Value} {plan : LoadPlan}
    {rows : List Row} {context after : Context} {instances : List Instance}
    (keeps : model.Keeps held) (valid : model.entity.Valid)
    (ready : context.session.Ready model)
    (ran : (rows.mapM (mergeRow model plan)).run.run context = (.ok instances, after)) :
    List.Forall₂ (fun row inst => model.rowKey? row = some inst.key) rows instances ∧
      (∀ key, rowsOf model key rows = [] →
        after.session.identities.find? key = context.session.identities.find? key) ∧
      ∀ key, rowsOf model key rows ≠ [] → ∃ entry,
        after.session.identities.entries.filter (·.1 = key) = [(key, entry)] ∧
          entry.Merges model held context.nextHandle (context.session.live? key)
            (rowsOf model key rows) ∧
          ∀ inst ∈ instances, inst.key = key → inst.handle = entry.handle := by
  have ends := mergeRows_ends keeps valid plan ready rows
  unfold Ends at ends
  rw [ran] at ends
  refine ⟨ends.keys, ends.others, fun key occurs => ?_⟩
  obtain ⟨entry, found, merged, handles⟩ := ends.merged key occurs
  exact ⟨entry, ends.ready.distinct.filter_eq found, merged, handles⟩

end Action

/-! ## Reachable sessions are ready -/

namespace Program

variable {models : String → Model} {program : Program}

/-- **The sessions of a program that typed requests lead to are ready** for rows of any of its
models. -/
theorem Reaches.ready [Hashable Digest] {admits : Program → Nat → Connection → Request → Prop}
    {schema : Schema} {configs : List Config} (declared : schema.Typed models)
    (reached : Reaches admits (ofConfigs schema configs) program)
    (typed : ∀ {program number connection request},
      admits program number connection request → request.Typed models)
    {session : Session} (member : session ∈ program.sessions) {model : Model}
    (own : model.Typed models) : session.Ready model where
  distinct := reached.distinct declared typed session member
  entries := by
    intro key entry there named
    have fits := (reached.wellTyped declared typed).entries session member key entry there
    have made := reached.makes declared typed session member key entry there
    obtain rfl := fits.typed.eq own (fits.named.symm.trans named)
    exact ⟨made, fits.size⟩

end Program

/-! ## A book that is merged again -/

namespace Catalogue

/-- Rows of two books, in which the first one occurs twice. -/
def bookRows : List Row :=
  [⟨["id", "title", "summary"], [.int 1, .text "Persuasion", .text "A matchmaker errs."]⟩,
    ⟨["id", "title"], [.int 2, .text "Emma"]⟩,
    ⟨["summary", "id"], [.text "Anne waits.", .int 1]⟩]

/-- The session of the bookshop. -/
def shelf : Session := bookshop.sessions.head (List.cons_ne_nil _ _)

/-- The book keeps the title that was loaded, and has the summary of the first row. -/
theorem bookshop_merges_rows :
    let merged := (bookRows.mapM (Action.mergeRow book (.defaults bookEntity))).run.run
      (bookshop.contextOf shelf ⟨[], [], []⟩)
    ∃ entry, merged.2.session.identities.entries.filter (·.1 = Key.ofValues book [.int 1]) =
        [(Key.ofValues book [.int 1], entry)] ∧ entry.handle = 1 ∧
      Model.heldAt bookEntity entry.record "title" = .text "Emma" ∧
      Model.heldAt bookEntity entry.record "summary" = .text "A matchmaker errs." := by
  intro merged
  have reached : Program.Reaches (fun _ _ _ request => request.Typed modelOf)
      (.ofConfigs schema [.default]) bookshop := .step .start (everything_typed book rfl)
  have member : shelf ∈ bookshop.sessions := List.head_mem _
  have ready : (bookshop.contextOf shelf ⟨[], [], []⟩).session.Ready book :=
    reached.ready schema_typed id member rfl
  have valid : book.entity.Valid := Entity.valid_of_validate (by decide)
  have keeps : book.Keeps (Model.heldAt bookEntity) := Model.ofEntity_keeps
  obtain ⟨instances, succeeds⟩ : ∃ instances, merged.1 = .ok instances := ⟨_, rfl⟩
  have ran : merged = (.ok instances, merged.2) := Prod.ext succeeds rfl
  obtain ⟨-, -, rows⟩ := Action.mergeRows_first_wins keeps valid ready ran
  obtain ⟨entry, only, merges, -⟩ := rows (Key.ofValues book [.int 1]) (by decide)
  have live : shelf.live? (Key.ofValues book [.int 1]) = some _ := rfl
  have found : (Action.rowsOf book (Key.ofValues book [.int 1]) bookRows).find?
      (·.selects "summary") = some _ := rfl
  refine ⟨entry, only, (merges.kept _ live).1, merges.before _ live 1 _ rfl (by decide), ?_⟩
  exact merges.first 3 _ rfl (by rintro _ ⟨⟩; decide) _ found

end Catalogue

end LazyMapper
