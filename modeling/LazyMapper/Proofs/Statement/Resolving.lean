import LazyMapper.Proofs.Loader.Purpose
import LazyMapper.Proofs.Plan.Merging
import LazyMapper.Proofs.Session.Reaching
import LazyMapper.Proofs.Statement.Checking

/-!
# Statements that resolve

Compiling accepts exactly the statements all of whose names resolve
(`Statement.compile_succeeds_iff`). A statement is `Resolvable` when its mappings are valid, its
options flatten and find their roots, and every directive fits the entity that its path leads to
over relationships with declared targets (`Schema.Leads`).

The check walks the option tree instead, and remembers which mappings have passed. What the walk
decides is a predicate over the forest (`OptionForest.Fits`), and over a canonical forest this is
the same as asking every path at which something is attached (`OptionForest.Canonical.fits_iff`).
The memory does not matter as long as it is right (`Configuring.Decides`).
-/

set_option autoImplicit false

namespace LazyMapper

/-! ## Where paths lead -/

/-- The entity has everything that the directive names. -/
def Entity.Admits (entity : Entity) (directive : Directive) : Prop :=
  ∀ subject ∈ directive.subjects, subject.In entity

/-- Directives merge into a plan of a valid mapping when it has everything they name. -/
theorem LoadPlan.merges_iff {entity : Entity} (valid : entity.validate = .ok ())
    (directives : List Directive) : (∃ plan, merge entity directives = .ok plan) ↔
      ∀ directive ∈ directives, entity.Admits directive :=
  merge_succeeds_iff (Entity.valid_of_validate valid).distinct directives

namespace Schema

/-- A relationship of an entity leads to a declared entity, whose mapping is valid. -/
def Hop (schema : Schema) (owner : Entity) (name : String) (target : Entity) : Prop :=
  ∃ relationship, owner.relationship? name = some relationship ∧
    schema.target? relationship = some target ∧ target.validate = .ok ()

/-- A path of relationships leads from an entity to another. -/
inductive Leads (schema : Schema) : Entity → Path → Entity → Prop where
  | here {owner : Entity} : Leads schema owner [] owner
  | hop {owner next target : Entity} {name : String} {rest : Path}
    (first : schema.Hop owner name next) (onwards : Leads schema next rest target) :
    Leads schema owner (name :: rest) target

variable {schema : Schema} {owner target other : Entity} {name : String} {path : Path}

/-- A hop is a declared relationship whose target has a valid mapping. -/
theorem hop_iff_declares : schema.Hop owner name target ↔
    schema.Declares owner name target ∧ target.validate = .ok () := by
  constructor
  · rintro ⟨relationship, owned, leads, valid⟩
    exact ⟨⟨relationship, owned, leads⟩, valid⟩
  · rintro ⟨⟨relationship, owned, leads⟩, valid⟩
    exact ⟨relationship, owned, leads, valid⟩

theorem Hop.unique (hop : schema.Hop owner name target) (hop' : schema.Hop owner name other) :
    target = other :=
  (hop_iff_declares.mp hop).1.unique (hop_iff_declares.mp hop').1

theorem leads_nil : schema.Leads owner [] target ↔ target = owner := by
  refine ⟨fun leads => ?_, ?_⟩
  · cases leads
    rfl
  · rintro rfl
    exact .here

theorem leads_cons {rest : Path} : schema.Leads owner (name :: rest) target ↔
    ∃ next, schema.Hop owner name next ∧ schema.Leads next rest target := by
  refine ⟨fun leads => ?_, fun ⟨next, first, onwards⟩ => .hop first onwards⟩
  cases leads with
  | hop first onwards => exact ⟨_, first, onwards⟩

theorem Leads.unique (leads : schema.Leads owner path target)
    (leads' : schema.Leads owner path other) : target = other := by
  induction leads with
  | here => exact (leads_nil.mp leads').symm
  | hop first onwards ih =>
      obtain ⟨next, first', onwards'⟩ := leads_cons.mp leads'
      obtain rfl := first.unique first'
      exact ih onwards'

/-- Following a relationship finds the next entity; whether its mapping is valid is left to be
checked. -/
theorem hop_iff {label : String} : schema.Hop owner name target ↔
    schema.follow owner name label = .ok target ∧ target.validate = .ok () := by
  rw [follow_eq_ok, hop_iff_declares]

end Schema

/-! ## Forests that fit -/

namespace OptionForest

variable {schema : Schema} {owner : Entity} {forest : OptionForest}

/-- Everything attached below an entity fits the entity that its path leads to, node by node. -/
def Fits (schema : Schema) (owner : Entity) : OptionForest → Prop
  | .empty => True
  | .node name directives below next =>
    (∃ target, schema.Hop owner name target ∧ (∀ directive ∈ directives, target.Admits directive) ∧
      below.Fits schema target) ∧ next.Fits schema owner

/-- Everything attached at a path below an entity fits the entity that the path leads to. -/
def FitsAt (schema : Schema) (owner : Entity) (forest : OptionForest) (path : Path) : Prop :=
  ∀ directive ∈ forest.attached path,
    ∃ target, schema.Leads owner path target ∧ target.Admits directive

/-- **A canonical forest fits when it does at every path.** It has no node without something
attached at or below it, so every relationship that the walk follows is on the path of a
directive. -/
theorem Canonical.fits_iff (canonical : forest.Canonical) :
    forest.Fits schema owner ↔ ∀ path, forest.FitsAt schema owner path := by
  induction forest generalizing owner with
  | empty => exact iff_of_true trivial fun path => by simp [FitsAt]
  | node name directives below next ihBelow ihNext =>
      have first (rest : Path) : (node name directives below next).attached (name :: rest) =
          if rest = [] then directives else below.attached rest := by
        rw [attached_node, if_pos rfl]
      have others {other : String} (apart : other ≠ name) (rest : Path) :
          (node name directives below next).attached (other :: rest) =
            next.attached (other :: rest) := by
        rw [attached_node, if_neg apart]
      rw [Fits, ihNext canonical.2.2.2]
      constructor
      · rintro ⟨⟨target, hop, admits, fits⟩, fitsNext⟩ path directive member
        match path with
        | [] => cases member
        | other :: rest =>
          by_cases same : other = name
          · subst same
            rw [first] at member
            by_cases last : rest = []
            · subst last
              exact ⟨target, .hop hop .here, admits directive member⟩
            · rw [if_neg last] at member
              obtain ⟨final, leads, admits⟩ :=
                (ihBelow canonical.2.2.1).mp fits rest directive member
              exact ⟨final, .hop hop leads, admits⟩
          · rw [others same] at member
            exact fitsNext (other :: rest) directive member
      · intro fits
        obtain ⟨_, bearing⟩ := canonical.exists_attached_first
        obtain ⟨_, attached⟩ := List.exists_mem_of_ne_nil _ bearing
        obtain ⟨_, leads, -⟩ := fits _ _ attached
        obtain ⟨target, hop, -⟩ := Schema.leads_cons.mp leads
        refine ⟨⟨target, hop, ?_, (ihBelow canonical.2.2.1).mpr ?_⟩, ?_⟩
        · intro directive member
          obtain ⟨_, leads, admits⟩ := fits [name] directive (by rwa [first])
          obtain ⟨_, hop', leads⟩ := Schema.leads_cons.mp leads
          obtain rfl := Schema.leads_nil.mp leads
          obtain rfl := hop.unique hop'
          exact admits
        · intro path directive member
          have inside : path ≠ [] := by
            rintro rfl
            cases member
          obtain ⟨final, leads, admits⟩ :=
            fits (name :: path) directive (by rwa [first, if_neg inside])
          obtain ⟨_, hop', leads⟩ := Schema.leads_cons.mp leads
          obtain rfl := hop.unique hop'
          exact ⟨final, leads, admits⟩
        · intro path directive member
          match path with
          | [] => cases member
          | other :: rest =>
            by_cases same : other = name
            · subst same
              rw [canonical.attached_next] at member
              cases member
            · exact fits (other :: rest) directive (by rwa [others same])

end OptionForest

/-! ## What computations decide -/

/-- All mappings that are remembered as checked are valid. -/
def Configured.Sound (models : String → Model) (remembered : Configured) : Prop :=
  ∀ name ∈ remembered, (models name).entity.validate = .ok ()

/-- A computation that checks mappings succeeds exactly when something holds, and leaves a right
memory right. -/
def Configuring.Decides {α : Type} (models : String → Model) (computation : Configuring α)
    (holds : Prop) : Prop :=
  ∀ remembered, Configured.Sound models remembered →
    Ends computation remembered (fun _ after => Configured.Sound models after ∧ holds)
      fun _ after => Configured.Sound models after ∧ ¬ holds

namespace Configuring.Decides

variable {α β : Type} {models : String → Model} {first second : Prop}

theorem pure (result : α) : Decides models (Pure.pure result) True :=
  fun _ sound => ⟨sound, trivial⟩

theorem bind {computation : Configuring α} {next : α → Configuring β}
    (decides : Decides models computation first)
    (continued : first → ∀ result, Decides models (next result) second) :
    Decides models (computation >>= next) (first ∧ second) := by
  intro remembered sound
  refine ends_bind.mpr (Ends.mono (decides remembered sound) ?_ ?_)
  · rintro result after ⟨sound, holds⟩
    refine Ends.mono (continued holds result after sound) ?_ ?_
    · exact fun _ _ ⟨sound, holds'⟩ => ⟨sound, holds, holds'⟩
    · exact fun _ _ ⟨sound, fails⟩ => ⟨sound, fun both => fails both.2⟩
  · exact fun _ after ⟨sound, fails⟩ => ⟨sound, fun both => fails both.1⟩

/-- A computation that begins with one that has a result and no memory. -/
theorem ofExcept_bind {found : Except LoaderFault α} {next : α → Configuring β} {holds : α → Prop}
    (continued : ∀ result, found = .ok result → Decides models (next result) (holds result)) :
    Decides models (Configuring.ofExcept found >>= next)
      (∃ result, found = .ok result ∧ holds result) := by
  intro remembered sound
  refine ends_bind.mpr ?_
  cases found with
  | error fault => exact ⟨sound, fun ⟨_, ok, _⟩ => nomatch ok⟩
  | ok result =>
      have ends := continued result rfl remembered sound
      change Ends (next result) remembered _ _
      refine ends.mono ?_ ?_
      · exact fun _ _ ⟨sound, holds⟩ => ⟨sound, result, rfl, holds⟩
      · rintro _ _ ⟨sound, fails⟩
        refine ⟨sound, fun ⟨_, same, holds⟩ => ?_⟩
        obtain rfl := Except.ok.inj same
        exact fails holds

theorem congr {computation : Configuring α} (decides : Decides models computation first)
    (same : first ↔ second) : Decides models computation second :=
  propext same ▸ decides

end Configuring.Decides

open Configuring

section Deciding

variable {models : String → Model} {schema : Schema}

theorem Entity.configure_decides {entity : Entity} (typed : entity.Typed models) :
    Decides models entity.configure (entity.validate = .ok ()) := by
  intro remembered sound
  unfold Entity.configure
  rw [ends_bind, ends_get]
  by_cases seen : remembered.contains entity.typeName
  · rw [seen]
    refine ⟨sound, ?_⟩
    rw [← sound entity.typeName (List.contains_iff_mem.mp seen), typed]
  · rw [Bool.eq_false_iff.mpr seen]
    cases valid : entity.validate with
    | error fault => exact ⟨sound, nofun⟩
    | ok _ =>
        refine ⟨List.forall_mem_cons.mpr ⟨?_, sound⟩, rfl⟩
        rw [typed, valid]

/-- A check of all items of a list decides whether all of them pass. -/
theorem forM_decides {α : Type} {items : List α} {check : α → Configuring PUnit} {holds : α → Prop}
    (decides : ∀ item ∈ items, Decides models (check item) (holds item)) :
    Decides models (items.forM check) (∀ item ∈ items, holds item) := by
  induction items with
  | nil => exact (Decides.pure _).congr (by simp)
  | cons item rest ih =>
      obtain ⟨first, others⟩ := List.forall_mem_cons.mp decides
      exact (first.bind fun _ _ => ih others).congr List.forall_mem_cons.symm

variable (declared : schema.Typed models)
include declared

/-- **The walk over a forest decides whether it fits.** -/
theorem OptionForest.check_decides (forest : OptionForest) (owner : Entity) (path : String) :
    Decides models (forest.check schema owner path) (forest.Fits schema owner) := by
  induction forest generalizing owner path with
  | empty => exact .pure ()
  | node name directives below next ihBelow ihNext =>
      have checked : Decides models ((node name directives below next).check schema owner path)
          ((∃ target, schema.follow owner name (Path.label (Path.extend path name)) = .ok target ∧
            target.validate = .ok () ∧ (∃ plan, LoadPlan.merge target directives = .ok plan ∧
              below.Fits schema target ∧ next.Fits schema owner))) := by
        refine .ofExcept_bind fun target found => ?_
        obtain ⟨targetName, known⟩ := Schema.exists_of_follow found
        refine (Entity.configure_decides (declared targetName target known)).bind fun _ _ => ?_
        refine .ofExcept_bind fun _ _ => ?_
        exact (ihBelow target _).bind fun _ _ => ihNext owner path
      refine checked.congr ⟨?_, ?_⟩
      · rintro ⟨target, found, valid, plan, merged, fits, fitsNext⟩
        have admits := (LoadPlan.merges_iff valid directives).mp ⟨plan, merged⟩
        exact ⟨⟨target, Schema.hop_iff.mpr ⟨found, valid⟩, admits, fits⟩, fitsNext⟩
      · rintro ⟨⟨target, hop, admits, fits⟩, fitsNext⟩
        obtain ⟨found, valid⟩ := Schema.hop_iff.mp hop
        obtain ⟨plan, merged⟩ := (LoadPlan.merges_iff valid directives).mpr admits
        exact ⟨target, found, valid, plan, merged, fits, fitsNext⟩

/-- Everything below the root tables of the entities fits. -/
theorem Statement.checkPaths_decides (tree : OptionTree) (entities : List Entity) :
    Decides models (checkPaths schema tree entities)
      (∀ entity ∈ entities, ∀ node, tree.subtree? entity.table [] = some node →
        node.below.Fits schema entity) := by
  refine forM_decides fun entity _ => ?_
  cases found : tree.subtree? entity.table [] with
  | none => exact (Decides.pure _).congr (by simp)
  | some node => exact (node.below.check_decides declared entity "").congr (by simp)

end Deciding

/-! ## Statements -/

/-- All names in a statement resolve. -/
structure Statement.Resolvable (schema : Schema) (statement : Statement) : Prop where
  /-- The mappings of the entities are valid. -/
  mapped : ∀ entity ∈ statement.entities, entity.validate = .ok ()
  /-- The options flatten. Each of them starts from one of the entities, and its directive fits
  the entity that its path leads to from there. -/
  options : ∃ flats, LoaderOption.flattenAll statement.options = .ok flats ∧
    ∀ flat ∈ flats, ∃ root ∈ statement.entities, flat.root statement.entities = .ok root ∧
      ∀ directive, flat.directive? = some directive →
        ∃ target, schema.Leads root flat.path target ∧ target.Admits directive

/-- Everything attached below the root table of an entity fits. -/
def OptionTree.FitsUnder (schema : Schema) (tree : OptionTree) (entity : Entity) : Prop :=
  ∀ path, ∀ directive ∈ tree.directivesAt entity.table path,
    ∃ target, schema.Leads entity path target ∧ target.Admits directive

/-- A tree fits under an entity when its root-level directives merge and what is below fits. -/
theorem OptionTree.fitsUnder_iff {schema : Schema} {tree : OptionTree} {entity : Entity}
    (canonical : tree.roots.Canonical) (valid : entity.validate = .ok ()) :
    tree.FitsUnder schema entity ↔
      (∀ node, tree.subtree? entity.table [] = some node → node.below.Fits schema entity) ∧
        ∃ plan, LoadPlan.merge entity (tree.directivesAt entity.table []) = .ok plan := by
  cases found : tree.subtree? entity.table [] with
  | none =>
      have nothing := OptionTree.directivesAt_of_subtree?_eq_none found
      refine iff_of_true (fun path => by simp [nothing]) ⟨fun _ absent => ?_, ?_⟩
      · cases absent
      · exact (LoadPlan.merges_iff valid _).mpr (by simp [nothing])
  | some node =>
      have below := (OptionNode.canonical_of_descend canonical (List.cons_ne_nil _ _) found).below
      have directives := OptionTree.directivesAt_of_subtree? found
      rw [LoadPlan.merges_iff valid]
      constructor
      · intro fits
        refine ⟨fun _ same => ?_, fun directive member => ?_⟩
        · obtain rfl := Option.some.inj same
          refine below.fits_iff.mpr fun path directive member => ?_
          have inside : path ≠ [] := by
            rintro rfl
            cases member
          exact fits path directive (by rwa [directives, if_neg inside])
        · obtain ⟨_, leads, admits⟩ := fits [] directive member
          obtain rfl := Schema.leads_nil.mp leads
          exact admits
      · rintro ⟨fits, admits⟩ path directive member
        by_cases here : path = []
        · subst here
          exact ⟨entity, .here, admits directive member⟩
        · rw [directives, if_neg here] at member
          exact below.fits_iff.mp (fits node rfl) path directive member

section Resolving

variable {models : String → Model} {schema : Schema} {statement : Statement}
  {flats : List FlatOption} (selected : statement.Typed models)
  (named : ∀ option ∈ statement.options, ∀ entity, option.root? = some entity →
    entity.Typed models)
  (purposeful : ∀ option ∈ statement.options, option.Purposeful)
include selected named purposeful

/-- The root of a flattened option is one of the entities of the statement. -/
theorem Statement.mem_of_root (flattened : LoaderOption.flattenAll statement.options = .ok flats)
    {flat : FlatOption} (member : flat ∈ flats) {root : Entity}
    (found : flat.root statement.entities = .ok root) : root ∈ statement.entities := by
  rcases FlatOption.mem_of_root found with member | ⟨given, alike⟩
  · exact member
  · obtain ⟨⟨option, outermost, same⟩, -⟩ :=
      LoaderOption.exists_bearing_of_flattenAll purposeful flattened member
    obtain ⟨entity, member, alike⟩ := List.contains_iff_exists_mem_beq.mp alike
    have typed := named option outermost root (same.symm.trans given)
    rwa [typed.eq_of_beq (selected entity member) alike]

omit selected named in
/-- When names resolve, roots have the relationships that the paths from them begin with. An option
may have no directive, but then one with the same root continues its path. -/
theorem Statement.Resolvable.exists_checkedRoot (resolvable : statement.Resolvable schema)
    (flattened : LoaderOption.flattenAll statement.options = .ok flats) {flat : FlatOption}
    (member : flat ∈ flats) : ∃ root, flat.checkedRoot statement.entities = .ok root := by
  obtain ⟨flats', flattened', resolves⟩ := resolvable.options
  obtain rfl := Except.ok.inj (flattened.symm.trans flattened')
  obtain ⟨root, -, found, -⟩ := resolves flat member
  refine ⟨root, FlatOption.checkedRoot_eq_ok.mpr ⟨found, fun first rest path => ?_⟩⟩
  obtain ⟨bearing, there, bears, same, more, continues⟩ :=
    (LoaderOption.exists_bearing_of_flattenAll purposeful flattened member).2.resolve_left
      (by simp [path])
  rw [path, List.cons_append] at continues
  obtain ⟨directive, given⟩ := Option.isSome_iff_exists.mp bears
  obtain ⟨root', -, found', fits⟩ := resolves bearing there
  obtain rfl := Except.ok.inj
    (found'.symm.trans (FlatOption.root_of_first same.symm path continues.symm found))
  obtain ⟨_, leads, -⟩ := fits directive given
  rw [← continues] at leads
  obtain ⟨_, ⟨relationship, owned, -⟩, -⟩ := Schema.leads_cons.mp leads
  rw [owned]
  rfl

/-- Statements whose names resolve are those whose tree is built and fits. -/
theorem Statement.resolvable_iff (distinct : (statement.entities.map Entity.table).Nodup) :
    statement.Resolvable schema ↔ (∀ entity ∈ statement.entities, entity.validate = .ok ()) ∧
      ∃ tree, OptionTree.build statement.entities statement.options = .ok tree ∧
        ∀ entity ∈ statement.entities, tree.FitsUnder schema entity := by
  constructor
  · intro resolvable
    obtain ⟨flats, flattened, resolves⟩ := resolvable.options
    obtain ⟨tree, attached⟩ := OptionTree.attach_succeeds_iff.mpr fun flat member =>
      resolvable.exists_checkedRoot purposeful flattened member
    have built : OptionTree.build statement.entities statement.options = .ok tree := by
      rw [OptionTree.build, flattened]
      exact attached
    refine ⟨resolvable.mapped, tree, built, fun entity inside path directive attachedThere => ?_⟩
    obtain ⟨flats', flattened', -, -, directives⟩ := OptionTree.directivesAt_build built
    obtain rfl := Except.ok.inj (flattened.symm.trans flattened')
    rw [directives] at attachedThere
    obtain ⟨flat, member, attachedBy⟩ := List.mem_filterMap.mp attachedThere
    obtain ⟨root, found, table, rfl, given⟩ := FlatOption.directiveAt?_eq_some.mp attachedBy
    obtain ⟨root', inside', found', fits⟩ := resolves flat member
    obtain rfl := Except.ok.inj (found.symm.trans found')
    obtain rfl := List.inj_on_of_nodup_map distinct inside' inside table
    exact fits directive given
  · rintro ⟨mapped, tree, built, fits⟩
    obtain ⟨flats, flattened, -, checked, directives⟩ := OptionTree.directivesAt_build built
    refine ⟨mapped, flats, flattened, fun flat member => ?_⟩
    obtain ⟨root, owns⟩ := checked flat member
    have found := (FlatOption.checkedRoot_eq_ok.mp owns).1
    have inside := mem_of_root selected named purposeful flattened member found
    refine ⟨root, inside, found, fun directive given => fits root inside flat.path directive ?_⟩
    rw [directives]
    exact List.mem_filterMap.mpr ⟨flat, member,
      FlatOption.directiveAt?_eq_some.mpr ⟨root, found, rfl, rfl, given⟩⟩

end Resolving

/-- **Compiling decides whether the names of a statement resolve**, and leaves a right memory of
checked mappings right. -/
theorem Statement.compile_decides {models : String → Model} {schema : Schema}
    (dialect : Sql.Dialect) {statement : Statement} (declared : schema.Typed models)
    (selected : statement.Typed models)
    (named : ∀ option ∈ statement.options, ∀ entity, option.root? = some entity →
      entity.Typed models)
    (distinct : (statement.entities.map Entity.table).Nodup)
    (purposeful : ∀ option ∈ statement.options, option.Purposeful) :
    Decides models (statement.compile schema dialect) (statement.Resolvable schema) := by
  have mapped := forM_decides fun entity member =>
    Entity.configure_decides (selected entity member)
  have compiled : Decides models (statement.compile schema dialect)
      ((∀ entity ∈ statement.entities, entity.validate = .ok ()) ∧
        ∃ tree, OptionTree.build statement.entities statement.options = .ok tree ∧
          (∀ entity ∈ statement.entities, ∀ node, tree.subtree? entity.table [] = some node →
            node.below.Fits schema entity) ∧
          ∃ plans, statement.entities.mapM (fun entity =>
            LoadPlan.merge entity (tree.directivesAt entity.table [])) = .ok plans ∧ True) := by
    refine mapped.bind fun _ _ => .ofExcept_bind fun tree _ => ?_
    refine (checkPaths_decides declared tree statement.entities).bind fun _ _ => ?_
    exact .ofExcept_bind fun plans _ => .pure _
  refine compiled.congr ?_
  rw [resolvable_iff selected named purposeful distinct]
  refine and_congr_right fun mapped => exists_congr fun tree => and_congr_right fun built => ?_
  obtain ⟨-, -, canonical, -, -⟩ := OptionTree.directivesAt_build built
  simp only [and_true, mapM_succeeds_iff, ← forall₂_and]
  exact forall₂_congr fun entity member =>
    (tree.fitsUnder_iff canonical (mapped entity member)).symm

/-- **Compiling accepts exactly the statements whose names resolve.** Which mappings are already
remembered as checked is of no account, as long as these are valid; compiling keeps it so. -/
theorem Statement.compile_succeeds_iff {models : String → Model} {schema : Schema}
    (dialect : Sql.Dialect) {statement : Statement} (declared : schema.Typed models)
    (selected : statement.Typed models)
    (named : ∀ option ∈ statement.options, ∀ entity, option.root? = some entity →
      entity.Typed models)
    (distinct : (statement.entities.map Entity.table).Nodup)
    (purposeful : ∀ option ∈ statement.options, option.Purposeful)
    {remembered : Configured} (sound : Configured.Sound models remembered) :
    let ended := (statement.compile schema dialect).run.run remembered
    ((∃ compiled, ended.1 = .ok compiled) ↔ statement.Resolvable schema) ∧
      Configured.Sound models ended.2 := by
  intro ended
  have decided :=
    compile_decides dialect declared selected named distinct purposeful remembered sound
  unfold Ends at decided
  split at decided
  · rename_i compiled after run
    have ended_eq : ended = (.ok compiled, after) := run
    rw [ended_eq]
    exact ⟨iff_of_true ⟨compiled, rfl⟩ decided.2, decided.1⟩
  · rename_i error after run
    have ended_eq : ended = (.error error, after) := run
    rw [ended_eq]
    exact ⟨iff_of_false nofun decided.2, decided.1⟩

open LoaderOption in
/-- Two statements over books and authors. A name at the end of a chain of relationships decides
on the second of them. -/
theorem Catalogue.deep_names_resolve :
    let reading (name : String) : Statement := ⟨[bookEntity, authorEntity],
      [(atPath "author").nest [undefer "bio", (atPath "publisher").nest [defer name]],
        undeferGroup "media"], none, [], none⟩
    (reading "city").Resolvable schema ∧ ¬ (reading "street").Resolvable schema := by
  intro reading
  have leaf (option : LoaderOption) (own : option.directive? ≠ none)
      (childless : option.children = []) : option.Purposeful :=
    .intro (fun none => absurd none own) (by simp [childless])
  have purposeful (name : String) : ∀ option ∈ (reading name).options, option.Purposeful := by
    have scopes (path : String) (child : LoaderOption) (rest : List LoaderOption)
        (own : child.directive?.isSome)
        (nested : ∀ option ∈ child :: rest, option.Purposeful) :
        ((atPath path).nest (child :: rest)).Purposeful :=
      .intro (fun _ _ => .nested List.mem_cons_self (.here own)) nested
    refine List.forall_mem_cons.mpr ⟨?_, List.forall_mem_singleton.mpr (leaf _ nofun rfl)⟩
    refine scopes "author" _ _ rfl (List.forall_mem_cons.mpr ⟨leaf _ nofun rfl, ?_⟩)
    exact List.forall_mem_singleton.mpr
      (scopes "publisher" _ _ rfl (List.forall_mem_singleton.mpr (leaf _ nofun rfl)))
  have unnamed (name : String) : ∀ option ∈ (reading name).options, ∀ entity,
      option.root? = some entity → entity.Typed modelOf :=
    List.forall_mem_cons.mpr ⟨nofun, List.forall_mem_singleton.mpr nofun⟩
  have typed (name : String) : (reading name).Typed modelOf :=
    List.forall_mem_cons.mpr ⟨rfl, List.forall_mem_singleton.mpr rfl⟩
  have distinct : ["books", "authors"].Nodup := by decide
  have known : Configured.Sound modelOf ["Book"] := List.forall_mem_singleton.mpr rfl
  have decided (name : String) := (Statement.compile_succeeds_iff .sqlite schema_typed (typed name)
    (unnamed name) distinct (purposeful name) known).1
  have accepted : (((reading "city").compile schema .sqlite).run.run ["Book"]).1.toOption.isSome :=
    by decide +kernel
  have refused : (((reading "street").compile schema .sqlite).run.run ["Book"]).1.toOption.isNone :=
    by decide +kernel
  constructor
  · refine (decided "city").mp ?_
    cases ended : (((reading "city").compile schema .sqlite).run.run ["Book"]).1 with
    | ok compiled => exact ⟨compiled, rfl⟩
    | error fault =>
        rw [ended] at accepted
        cases accepted
  · intro resolvable
    obtain ⟨compiled, ok⟩ := (decided "street").mpr resolvable
    rw [ok] at refused
    cases refused

end LazyMapper
