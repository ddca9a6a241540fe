import LazyMapper.Proofs.Session.Identification
import LazyMapper.Proofs.Session.Numbering

/-!
# The identity map is consistent

A session finds entries by their keys and tells whether an instance is attached by its handle
number, and it looks up attributes by position in records, plans and sets of loaded attributes.
None of this is checked when it is used. That it fits together is kept by everything that requests
do (`Program.Reaches.consistent`).

The key of an entry is that of its record (`LazyMapper.Proofs.Session.Identification`), if the hash
tells the keys of rows apart. Handle numbers are handed out once
(`LazyMapper.Proofs.Session.Numbering`), so an entry is known by its number in all later programs.
Since the entry is found under the key that it had, its primary key has not changed.

Rows whose keys have one hash are merged into one entry. When the primary key of the entry has
expired it becomes that of the row: `Catalogue.colliding_lite_changes_key`.
-/

set_option autoImplicit false

namespace LazyMapper

/-! ## Keys in runs -/

namespace Program

variable [Hashable Digest] {models : String → Model} {program : Program}
  {keys : String → Set (List Value)}

/-- The request is typed, rows that answer queries by primary key carry it, and rows that are
merged have primary keys among the given ones. -/
structure AnswersKeys (models : String → Model) (keys : String → Set (List Value))
    (program : Program) (number : Nat) (connection : Connection) (request : Request) : Prop where
  typed : request.Typed models
  carry : ∀ session, program.sessions[number]? = some session → ∀ statement rows,
    (statement, .ok rows) ∈ program.exchanges number connection request →
      AnswersCarryKey models session.config.dialect statement rows
  keysIn : ∀ statement rows,
    (statement, .ok rows) ∈ program.exchanges number connection request → request.KeysIn keys rows

/-- The keys of all entries are those of their records. -/
theorem Reaches.keyed {schema : Schema} {configs : List Config} (declared : schema.Typed models)
    (keeps : ∀ name, (models name).KeepsKey) (apart : ∀ name, Key.Apart (keys name))
    (reached : Reaches (AnswersKeys models keys) (ofConfigs schema configs) program) :
    ∀ session ∈ program.sessions, session.Keyed keys := by
  have run : program.WellTyped models ∧
      ∀ session ∈ program.sessions, session.Makes ∧ session.Keyed keys := by
    refine reached.keeps (fun program => program.WellTyped models ∧
      ∀ session ∈ program.sessions, session.Makes ∧ session.Keyed keys)
      ⟨wellTyped_ofConfigs declared configs, ?_⟩ ?_
    · intro session member
      obtain ⟨config, -, rfl⟩ := List.mem_map.mp member
      exact ⟨nofun, nofun⟩
    · intro program number connection request admits ⟨well, before⟩
      refine ⟨well.step admits.typed number connection,
        well.step_sessions admits.typed number connection (fun dialect event =>
          ∀ statement rows, event = .queried statement (.ok rows) →
            AnswersCarryKey models dialect statement rows ∧ request.KeysIn keys rows)
          (fun session => session.Makes ∧ session.Keyed keys) ?_ before ?_⟩
      · rintro session events context here history leaves event member statement rows rfl
        have answered := leaves.answered history member
        exact ⟨admits.carry session here statement rows answered,
          admits.keysIn statement rows answered⟩
      · intro past context event allowed earlier instances fits ⟨made, keyed⟩
        have answers statement rows member := earlier _ member statement rows rfl
        exact ⟨allowed.makes admits.typed instances fits made,
          allowed.keyed admits.typed keeps apart
            (fun statement rows member => (answers statement rows member).1)
            (fun statement rows member => (answers statement rows member).2)
            instances fits made keyed⟩
  exact fun session member => (run.2 session member).2

/-! ## Consistency -/

/-- The entries of all sessions agree with their models, the plans of their instances and their
handle numbers. -/
structure Consistent (program : Program) : Prop where
  distinct : ∀ session ∈ program.sessions, session.identities.Distinct
  sized : ∀ {number key entry}, program.entryAt? number key = some entry →
    entry.loaded.size = entry.model.entity.fields.length
  planned : ∀ {number entry}, ∀ inst ∈ program.instances,
    program.entryAt? number inst.key = some entry →
      entry.loaded.size = inst.plan.attributes.length
  numbered : ∀ {number key entry number' key' entry'}, program.entryAt? number key = some entry →
    program.entryAt? number' key' = some entry' → entry.handle = entry'.handle →
      number = number' ∧ key = key'

/-- The keys of all entries are those of their records. -/
def Keyed (program : Program) : Prop :=
  ∀ {number key entry}, program.entryAt? number key = some entry →
    key = Key.ofRecord entry.model entry.record

/-- Wherever the handle number of an entry is found in a later program, it is on the entry of the
same key and model, which has an identical primary key. -/
def KeepsKeys (before after : Program) : Prop :=
  ∀ {number key entry number' key' entry'}, before.entryAt? number key = some entry →
    after.entryAt? number' key' = some entry' → entry'.handle = entry.handle →
      number' = number ∧ key' = key ∧ entry'.model = entry.model ∧
        List.Forall₂ Value.Identical entry.key entry'.key

/-- **The identity map stays consistent.** Whatever typed requests have led to a program, also
failing ones: the set of loaded attributes of every entry is over the fields of its model and over
the plan of every instance with its key, and no two entries have one handle number. If models keep
keys, rows that answer queries by primary key carry it, and the hash tells the primary keys of all
rows of a type apart, then the key of every entry is that of its record, and no later request
changes the primary key of an entry. -/
theorem Reaches.consistent {schema : Schema} {configs : List Config}
    (declared : schema.Typed models)
    (reached : Reaches (AnswersKeys models keys) (ofConfigs schema configs) program) :
    program.Consistent ∧
      ((∀ name, (models name).KeepsKey) → (∀ name, Key.Apart (keys name)) →
        program.Keyed ∧
          ∀ after, Reaches (AnswersKeys models keys) program after → program.KeepsKeys after) := by
  have well := reached.wellTyped declared AnswersKeys.typed
  have numbered := reached.numbered declared AnswersKeys.typed
  have fits {number : Nat} {key : Key} {entry : Entry}
      (there : program.entryAt? number key = some entry) :
      entry.Fits models program.configured key := by
    obtain ⟨session, here, found⟩ := entryAt?_eq_some.mp there
    exact well.entries session (List.mem_of_getElem? here) key entry found
  refine ⟨⟨reached.distinct declared AnswersKeys.typed, fun there => (fits there).size, ?_,
    numbered.apart⟩, fun keeps apart => ?_⟩
  · intro number entry inst member there
    have own := well.instances inst member
    rw [(fits there).size, own.suits.length_eq, own.model_eq (fits there)]
  · have keyed {program : Program}
        (reached : Reaches (AnswersKeys models keys) (ofConfigs schema configs) program)
        {number : Nat} {key : Key} {entry : Entry}
        (there : program.entryAt? number key = some entry) : entry.IsKeyed keys key := by
      obtain ⟨session, here, found⟩ := entryAt?_eq_some.mp there
      exact reached.keyed declared keeps apart session (List.mem_of_getElem? here) key entry found
    refine ⟨fun there => (keyed reached there).key, ?_⟩
    intro after later number key entry number' key' entry' there there' same
    have continues := later.continues well numbered AnswersKeys.typed
    obtain ⟨old, was, handle, model⟩ | new := continues.entries there'
    · obtain ⟨rfl, rfl⟩ := numbered.apart was there (handle.symm.trans same)
      obtain rfl := Option.some.inj (was.symm.trans there)
      refine ⟨rfl, rfl, model, ?_⟩
      obtain ⟨before, listed⟩ := keyed reached there
      obtain ⟨now, listed'⟩ := keyed (reached.trans later) there'
      have hashes := (Key.mk.inj (before.symm.trans now)).2
      exact Digest.ofValues_eq_iff.mp (apart _ listed (model ▸ listed') hashes)
    · have less := numbered.below there
      omega

end Program

/-! ## A book that is refreshed -/

namespace Catalogue

theorem modelOf_keepsKey (typeName : String) : (modelOf typeName).KeepsKey := by
  obtain ⟨item, member, same⟩ := exists_modelOf typeName
  rw [← same]
  exact (models_keep item member).convertsKey.keepsKey

/-- A query for all instances asks for no key. -/
theorem everything_answersKeys {program : Program} {model : Model} {rows : List Row} {sql : String}
    {keys : String → Set (List Value)} (typed : model.Typed modelOf)
    (sent : program.exchanges 0 ⟨[.ok rows], [], []⟩ (everything model) = [((sql, []), .ok rows)])
    (keysIn : (everything model).KeysIn keys rows) :
    Program.AnswersKeys modelOf keys program 0 ⟨[.ok rows], [], []⟩ (everything model) where
  typed := everything_typed model typed
  carry := by
    intro session _ statement rows member model columns key _ asked row _ name value pair
    rw [sent] at member
    obtain ⟨rfl, -⟩ := Prod.mk.inj (List.mem_singleton.mp member)
    have values := (model.entity.params_queryByKey columns key _).symm.trans
      (congrArg Prod.snd asked)
    rw [List.map_eq_nil_iff.mp values] at pair
    cases pair
  keysIn := by
    intro statement answered member
    rw [sent] at member
    obtain ⟨-, same⟩ := Prod.mk.inj (List.mem_singleton.mp member)
    obtain rfl := Except.ok.inj same
    exact keysIn

/-- The primary keys of the rows that the bookshop is answered. -/
def bookshopKeys (_ : String) : Set (List Value) := {key | key ∈ [[.int 1]]}

theorem bookshop_answersKeys :
    Program.Reaches (Program.AnswersKeys modelOf bookshopKeys) (.ofConfigs schema [.default])
      bookshop := by
  refine .step .start (everything_answersKeys rfl rfl ?_)
  intro row listed part member record made
  obtain rfl := List.mem_singleton.mp listed
  obtain rfl := List.mem_singleton.mp member
  obtain rfl := Except.ok.inj made
  exact List.mem_cons_self

/-- The bookshop after the book was refreshed. -/
def refreshedBookshop : Program :=
  (bookshop.step 0 ⟨[.ok [bookRow "Persuasion"]], [], []⟩ (.refresh 0)).program

/-- Of the columns of a book, only its own is in the primary key of any model. -/
theorem keyColumn_of_mem_bookRow : ∀ item ∈ models, ∀ name ∈ item.2.entity.primaryKey,
    item.2.entity.keyColumn name ∈ ["id", "title", "isbn", "author_id"] →
      item.2.entity.keyColumn name = "id" := by
  decide

theorem refreshedBookshop_answersKeys :
    Program.Reaches (Program.AnswersKeys modelOf bookshopKeys) bookshop refreshedBookshop := by
  refine .step .start ⟨trivial, ?_, fun _ _ _ _ _ _ => nofun⟩
  intro session here statement rows member model columns key typed asked row listed name value pair
    chosen
  obtain rfl := Option.some.inj here
  obtain ⟨rfl, answered⟩ := Prod.mk.inj (List.mem_singleton.mp member)
  obtain rfl := Except.ok.inj answered
  obtain rfl := List.mem_singleton.mp listed
  let query := bookEntity.queryByKey ["id", "title", "isbn", "author_id"] [.int 1]
  obtain rfl := Sql.Query.columns_eq_of_build_eq rfl (show query.items = _ from rfl)
    (congrArg Prod.fst asked)
  have values : (model.entity.primaryKey.zip key).map Prod.snd = [.int 1] :=
    (model.entity.params_queryByKey _ key _).symm.trans (congrArg Prod.snd asked)
  have one : value ∈ [Value.int 1] := by
    rw [← values]
    exact List.mem_map_of_mem pair
  obtain rfl := List.mem_singleton.mp one
  obtain ⟨item, modelled, same⟩ := exists_modelOf model.entity.typeName
  obtain rfl : item.2 = model := same.trans typed
  rw [keyColumn_of_mem_bookRow item modelled name (List.of_mem_zip pair).1 chosen]
  rfl

/-- Refreshing the book changes its title and not its primary key. -/
theorem bookshop_stays_consistent :
    bookshop.Consistent ∧ bookshop.Keyed ∧ ∃ entry entry',
      bookshop.entryAt? 0 (Key.ofValues book [.int 1]) = some entry ∧
      refreshedBookshop.entryAt? 0 (Key.ofValues book [.int 1]) = some entry' ∧
      entry'.model.attribute? entry'.record "title" = some (.text "Persuasion") ∧
      List.Forall₂ Value.Identical entry.key entry'.key := by
  obtain ⟨consistent, keeping⟩ := bookshop_answersKeys.consistent schema_typed
  obtain ⟨keyed, keeps⟩ := keeping modelOf_keepsKey fun _ => Key.apart_of_nodup (by decide)
  have before : bookshop.entryAt? 0 (Key.ofValues book [.int 1]) = some _ := rfl
  have after : refreshedBookshop.entryAt? 0 (Key.ofValues book [.int 1]) = some _ := rfl
  obtain ⟨-, -, -, identical⟩ := keeps _ refreshedBookshop_answersKeys before after rfl
  exact ⟨consistent, keyed, _, _, before, after, rfl, identical⟩

/-! ## Two books with one hash -/

/-- A row of a book as the lighter model has it. -/
def numberedRow (title : String) (id : Int64) : Row := ⟨["title", "id"], [.text title, .bigInt id]⟩

/-- The bookshop that has loaded another book through the lighter model, whose key is its second
attribute. -/
def numberedShop : Program :=
  (bookshop.step 0 ⟨[.ok [numberedRow "Persuasion" (-2733231524329937425)]], [], []⟩
    (everything bookLite)).program

/-- Everything has expired, and with it the key of this book. -/
def expiredShop : Program := (numberedShop.step 0 ⟨[], [], []⟩ .expireAll).program

/-- A book has been loaded whose number has the same hash. -/
def renumberedShop : Program :=
  (expiredShop.step 0 ⟨[.ok [numberedRow "Sanditon" 5792489579705423406]], [], []⟩
    (everything bookLite)).program

theorem everything_answersKeys_univ {program : Program} {model : Model} {rows : List Row}
    {sql : String} (typed : model.Typed modelOf)
    (sent : program.exchanges 0 ⟨[.ok rows], [], []⟩ (everything model) =
      [((sql, []), .ok rows)]) :
    Program.AnswersKeys modelOf (fun _ => Set.univ) program 0 ⟨[.ok rows], [], []⟩
      (everything model) :=
  everything_answersKeys typed sent fun _ _ _ _ _ _ => Set.mem_univ _

/-- A merged row changes the primary key of an entry when the hashes are the same and the key has
expired. -/
theorem colliding_lite_changes_key :
    (∀ name, (modelOf name).KeepsKey) ∧
    Program.Reaches (Program.AnswersKeys modelOf fun _ => Set.univ) (.ofConfigs schema [.default])
      numberedShop ∧
    Program.Reaches (Program.AnswersKeys modelOf fun _ => Set.univ) numberedShop renumberedShop ∧
    ¬ numberedShop.KeepsKeys renumberedShop := by
  have expires : Program.AnswersKeys modelOf (fun _ => Set.univ) numberedShop 0 ⟨[], [], []⟩
      .expireAll := ⟨trivial, fun _ _ _ _ => nofun, fun _ _ => nofun⟩
  refine ⟨modelOf_keepsKey, ?_, ?_, fun keeps => ?_⟩
  · have opened : Program.Reaches (Program.AnswersKeys modelOf fun _ => Set.univ) _ bookshop :=
      .step .start (everything_answersKeys_univ rfl rfl)
    exact .step opened (everything_answersKeys_univ rfl rfl)
  · have expired : Program.Reaches (Program.AnswersKeys modelOf fun _ => Set.univ) numberedShop
        expiredShop := .step .start expires
    exact .step expired (everything_answersKeys_univ rfl rfl)
  · let key := Key.ofValues bookLite [.bigInt (-2733231524329937425)]
    have before : numberedShop.entryAt? 0 key = some _ := rfl
    have after : renumberedShop.entryAt? 0 key = some _ := rfl
    have identical : List.Forall₂ Value.Identical [.bigInt (-2733231524329937425)]
        [.bigInt 5792489579705423406] := (keeps before after rfl).2.2.2
    exact absurd (Digest.ofValues_eq_iff.mpr identical) (by decide)

end Catalogue

end LazyMapper
