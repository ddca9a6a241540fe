import Mathlib.Data.List.Nodup
import LazyMapper.Model.Catalogue
import LazyMapper.Proofs.Loader.Purpose
import LazyMapper.Proofs.Loader.Roots
import LazyMapper.Proofs.Statement.Checking

/-!
# Whom the options of a statement reach

Over several entities every directive without a path is resolved to one of them: the root that
its option names, or the only entity that has the attribute or group in question
(`FlatOption.root_eq_ok_iff`). What an entity should be planned by are its own directives, those
resolved to it.

The option tree files directives by table, and two entities may be mapped to one table. A
directive strays to an entity when it is resolved to another entity of the same table
(`FlatOption.Strays`). The plan of an entity is merged from its own directives, in their order,
exactly as long as none strays to it (`Statement.compile_scopes`), which is always so when the
tables are different. A second model of a table takes over what is meant for the first
(`Catalogue.lite_follows_option_of_book`).
-/

set_option autoImplicit false

namespace LazyMapper

open Configuring

/-- Of two selections from a list, one leaves out some of what the other takes. They agree when
they take the same everywhere. -/
theorem filterMap_eq_iff_of_le {α β : Type} {part whole : α → Option β}
    (le : ∀ item, part item = none ∨ part item = whole item) (items : List α) :
    (items.filterMap part).Sublist (items.filterMap whole) ∧
      (items.filterMap whole = items.filterMap part ↔ ∀ item ∈ items, whole item = part item) := by
  induction items with
  | nil => exact ⟨.slnil, iff_of_true rfl nofun⟩
  | cons item rest ih =>
      obtain ⟨included, same⟩ := ih
      rw [List.forall_mem_cons, ← same]
      cases taken : whole item with
      | none =>
          have nothing : part item = none := (le item).elim id (·.trans taken)
          rw [List.filterMap_cons_none taken, List.filterMap_cons_none nothing, nothing]
          exact ⟨included, by simp⟩
      | some value =>
          rcases le item with nothing | also
          · rw [List.filterMap_cons_some taken, List.filterMap_cons_none nothing, nothing]
            refine ⟨included.cons _, iff_of_false (fun more => ?_) (by simp)⟩
            have shorter := included.length_le
            rw [← more, List.length_cons] at shorter
            omega
          · rw [taken] at also
            rw [List.filterMap_cons_some taken, List.filterMap_cons_some also, also]
            exact ⟨included.cons_cons _, by simp⟩

/-! ## Entities told apart -/

namespace Entity

variable {entity other : Entity}

theorem beq_self (entity : Entity) : (entity == entity) = true :=
  Bool.and_eq_true_iff.mpr ⟨beq_self_eq_true _, beq_self_eq_true _⟩

theorem beq_symm (alike : (entity == other) = true) : (other == entity) = true := by
  obtain ⟨typeName, table⟩ := Bool.and_eq_true_iff.mp alike
  exact Bool.and_eq_true_iff.mpr
    ⟨beq_iff_eq.mpr (eq_of_beq typeName).symm, beq_iff_eq.mpr (eq_of_beq table).symm⟩

theorem table_eq_of_beq (alike : (entity == other) = true) : entity.table = other.table :=
  eq_of_beq (Bool.and_eq_true_iff.mp alike).2

end Entity

namespace FlatOption

variable {entities : List Entity} {entity root : Entity} {option : FlatOption}

/-- **The root of a directive without a path**, over several entities, is the root that its
option names, or else its only owner. -/
theorem root_eq_ok_iff {directive : Directive} (several : 1 < entities.length)
    (pathless : option.path = []) (given : option.directive? = some directive) :
    option.root entities = .ok root ↔
      (option.root? = some root ∧ entities.contains root) ∨
        (option.root? = none ∧ entities.filter directive.ownedBy = [root]) := by
  obtain ⟨root?, path, directive?, label⟩ := option
  subst pathless given
  cases root? with
  | some named =>
      simp only [FlatOption.root]
      split
      · rename_i selected
        refine ⟨fun ok => .inl ?_, ?_⟩
        · obtain rfl := Except.ok.inj ok
          exact ⟨rfl, selected⟩
        · rintro (⟨same, -⟩ | ⟨other, -⟩)
          · rw [Option.some.inj same]
          · cases other
      · rename_i missing
        refine iff_of_false (fun refused => by cases refused) ?_
        rintro (⟨same, selected⟩ | ⟨other, -⟩)
        · rw [Option.some.inj same] at missing
          exact missing selected
        · cases other
  | none =>
      refine (root_eq_ok_iff_ownedBy several rfl).trans ⟨fun only => .inr ⟨rfl, only⟩, ?_⟩
      rintro (⟨other, -⟩ | ⟨-, only⟩)
      · cases other
      · exact only

/-! ## Own directives -/

/-- The directive that an option has for an entity itself: its root compares equal to the entity,
and its path is empty. -/
def ownDirective? (entities : List Entity) (entity : Entity) (option : FlatOption) :
    Option Directive :=
  match option.root entities with
  | .ok root => if root == entity ∧ option.path = [] then option.directive? else none
  | .error _ => none

/-- The option has a directive for another entity of the same table. -/
def Strays (entities : List Entity) (entity : Entity) (option : FlatOption) : Prop :=
  ∃ root, option.root entities = .ok root ∧ root.table = entity.table ∧ (root == entity) = false ∧
    option.path = [] ∧ option.directive?.isSome

/-- What an option attaches to the table of an entity is a directive of the entity's own, unless
it strays. -/
theorem directiveAt?_eq_ownDirective? :
    option.directiveAt? entities entity.table [] = option.ownDirective? entities entity ↔
      ¬ option.Strays entities entity := by
  unfold directiveAt? ownDirective? Strays
  cases option.root entities with
  | error fault => exact iff_of_true rfl fun ⟨_, ok, _⟩ => nomatch ok
  | ok root =>
      cases alike : root == entity with
      | true => simp [alike, Entity.table_eq_of_beq alike]
      | false => cases option.directive? <;> simp [alike]

/-- An entity's own directives are attached to its table. -/
theorem ownDirective?_le (entities : List Entity) (entity : Entity) (option : FlatOption) :
    option.ownDirective? entities entity = none ∨
      option.ownDirective? entities entity = option.directiveAt? entities entity.table [] := by
  by_cases strays : option.Strays entities entity
  · obtain ⟨root, found, -, apart, -⟩ := strays
    exact .inl (by simp [ownDirective?, found, apart])
  · exact .inr (directiveAt?_eq_ownDirective?.mpr strays).symm

/-- Nothing strays between entities of different tables. -/
theorem not_strays (tables : (entities.map Entity.table).Nodup) (member : entity ∈ entities) :
    ¬ option.Strays entities entity := by
  rintro ⟨root, found, same, apart, -⟩
  rcases mem_of_root found with inside | ⟨-, selected⟩
  · obtain rfl := List.inj_on_of_nodup_map tables inside member same
    rw [Entity.beq_self] at apart
    cases apart
  · obtain ⟨chosen, inside, alike⟩ := List.contains_iff_exists_mem_beq.mp selected
    have table := (Entity.table_eq_of_beq alike).symm.trans same
    obtain rfl := List.inj_on_of_nodup_map tables inside member table
    rw [alike] at apart
    cases apart

end FlatOption

/-! ## Plans of the entities of a statement -/

/-- The statement's entities can be told apart. -/
def Statement.Distinct (statement : Statement) : Prop :=
  statement.entities.Pairwise fun first second => (first == second) = false

namespace Statement

theorem ofEntity_distinct (entity : Entity) : (ofEntity entity).Distinct :=
  List.pairwise_singleton _ entity

/-- An entity is added only when it can be told from those before. -/
theorem Distinct.addEntity {statement : Statement} (distinct : statement.Distinct)
    (entity : Entity) : (statement.addEntity entity).Distinct := by
  unfold Statement.addEntity
  split
  · exact distinct
  · rename_i missing
    refine List.pairwise_append.mpr ⟨distinct, List.pairwise_singleton _ entity, ?_⟩
    intro first member second last
    obtain rfl := List.mem_singleton.mp last
    refine Bool.eq_false_iff.mpr fun alike => missing ?_
    exact List.contains_iff_exists_mem_beq.mpr ⟨first, member, Entity.beq_symm alike⟩

/-- What compiling makes of the options: a tree over the entities, for every entity the plan merged
from what the tree has for its table, and the knowledge that what is attached below merges too. -/
theorem compile_merges (schema : Schema) (dialect : Sql.Dialect) (statement : Statement)
    (remembered : Configured) :
    Checks (fun _ => True) (statement.compile schema dialect) remembered fun compiled _ =>
      OptionTree.build statement.entities statement.options = .ok compiled.options ∧
        compiled.entities = statement.entities ∧
        List.Forall₂ (fun entity plan =>
          LoadPlan.merge entity (compiled.options.directivesAt entity.table []) = .ok plan)
          statement.entities compiled.plans ∧
        ∀ entity ∈ statement.entities, ∀ node,
          compiled.options.subtree? entity.table [] = some node →
            node.below.Merges schema entity := by
  refine (configureAll_checks fun _ _ => trivial).bind ?_
  intro _ _ _ _
  refine (Checks.ofExcept _).bind ?_
  intro tree _ _ built
  refine (checkPaths_checks (fun _ _ _ => trivial) tree statement.entities).bind ?_
  intro _ _ _ below
  refine (Checks.ofExcept _).bind ?_
  intro plans _ _ merged
  exact .pure ⟨built, rfl, forall₂_of_mapM_eq_ok merged, below⟩

end Statement

/-- Among the plans of entities that can be told apart, the one found for an entity is its own. -/
theorem LoadPlan.find?_of_distinct {made : Entity → LoadPlan → Prop} {entities : List Entity}
    {plans : List LoadPlan} (owner : ∀ entity plan, made entity plan → plan.entity = entity)
    (distinct : entities.Pairwise fun first second => (first == second) = false)
    (planned : List.Forall₂ made entities plans) {entity : Entity} (member : entity ∈ entities) :
    ∃ plan, plans.find? (·.entity == entity) = some plan ∧ made entity plan := by
  induction planned with
  | nil => cases member
  | @cons first plan rest others here _ ih =>
      obtain ⟨apart, distinct⟩ := List.pairwise_cons.mp distinct
      rw [List.find?_cons, owner first plan here]
      rcases List.mem_cons.mp member with rfl | later
      · rw [Entity.beq_self]
        exact ⟨plan, rfl, here⟩
      · rw [apart entity later]
        exact ih distinct later

/-- **Options reach the entity they are resolved to.** When a statement compiles whose entities
can be told apart, the plan of each entity is merged from the directives attached to its table,
in their order. These are the entity's own directives exactly when none strays to it. Whose a
directive is says its option, or there is only one who can have it. -/
theorem Statement.compile_scopes {schema : Schema} {dialect : Sql.Dialect} {statement : Statement}
    {remembered after : Configured} {compiled : CompiledStatement}
    (ran : (statement.compile schema dialect).run.run remembered = (.ok compiled, after))
    (distinct : statement.Distinct) :
    ∃ flats, LoaderOption.flattenAll statement.options = .ok flats ∧
      (1 < statement.entities.length → ∀ flat ∈ flats, flat.path = [] → ∀ directive,
        flat.directive? = some directive → ∃ root, flat.root statement.entities = .ok root ∧
          ((flat.root? = some root ∧ statement.entities.contains root) ∨
            (flat.root? = none ∧ statement.entities.filter directive.ownedBy = [root]))) ∧
      ∀ entity ∈ statement.entities, ∃ plan, compiled.planFor? entity = some plan ∧
        let attached := compiled.options.directivesAt entity.table []
        let own := flats.filterMap (·.ownDirective? statement.entities entity)
        LoadPlan.merge entity attached = .ok plan ∧ own.Sublist attached ∧
          (attached = own ↔ ∀ flat ∈ flats, ¬ flat.Strays statement.entities entity) ∧
          ((∀ flat ∈ flats, ¬ flat.Strays statement.entities entity) →
            LoadPlan.merge entity own = .ok plan) ∧
          ((statement.entities.map Entity.table).Nodup →
            ∀ flat ∈ flats, ¬ flat.Strays statement.entities entity) := by
  have merges := compile_merges schema dialect statement remembered
  unfold Checks Ends at merges
  rw [ran] at merges
  obtain ⟨-, built, -, planned, -⟩ := merges
  obtain ⟨flats, flattened, -, checked, directives⟩ := OptionTree.directivesAt_build built
  refine ⟨flats, flattened, fun several flat member pathless directive given => ?_,
    fun entity member => ?_⟩
  · obtain ⟨root, owns⟩ := checked flat member
    have found := (FlatOption.checkedRoot_eq_ok.mp owns).1
    exact ⟨root, found, (FlatOption.root_eq_ok_iff several pathless given).mp found⟩
  obtain ⟨plan, found, merged⟩ := LoadPlan.find?_of_distinct
    (fun _ _ merged => (LoadPlan.suits_of_merge merged).owner) distinct planned member
  obtain ⟨included, same⟩ :=
    filterMap_eq_iff_of_le (FlatOption.ownDirective?_le statement.entities entity) flats
  rw [← directives] at included same
  simp only [FlatOption.directiveAt?_eq_ownDirective?] at same
  refine ⟨plan, found, merged, included, same, fun apart => ?_, fun tables flat _ => ?_⟩
  · rwa [same.mpr apart] at merged
  · exact FlatOption.not_strays tables member

open LoaderOption in
/-- Books and authors are loaded each by its own directives. -/
theorem Catalogue.books_and_authors_scoped :
    let statement := ((Statement.ofEntity bookEntity).addEntity authorEntity).withOptions
      [undeferGroup "media", (ofRoot authorEntity).nest [defer "name"]]
    ∃ compiled after plan, (statement.compile schema .sqlite).run.run [] = (.ok compiled, after) ∧
      statement.Distinct ∧ compiled.planFor? authorEntity = some plan ∧
      LoadPlan.merge authorEntity [.defer (.named "name") false] = .ok plan := by
  intro statement
  have distinct : statement.Distinct :=
    (Statement.ofEntity_distinct bookEntity).addEntity authorEntity
  obtain ⟨compiled, after, ran⟩ : ∃ compiled after,
      (statement.compile schema .sqlite).run.run [] = (.ok compiled, after) := ⟨_, _, rfl⟩
  obtain ⟨flats, flattened, -, planned⟩ := Statement.compile_scopes ran distinct
  obtain rfl : _ = flats := Except.ok.inj ((rfl : LoaderOption.flattenAll statement.options = .ok [
    ⟨none, [], some (.undeferGroup "media"), "undefer_group(media)"⟩,
    ⟨some authorEntity, [], none, "Load(authors)"⟩,
    ⟨some authorEntity, [], some (.defer (.named "name") false), "defer(name)"⟩]).symm.trans
      flattened)
  obtain ⟨plan, found, -, -, -, own, apart⟩ :=
    planned authorEntity (List.mem_cons_of_mem _ List.mem_cons_self)
  exact ⟨compiled, after, plan, ran, distinct, found, own (apart (by decide))⟩

open LoaderOption in
/-- **A second model of a table takes over what is meant for the first.** The option names the
entity of the books, and leaves out the title of their shorter form as well, for which there is
no directive. -/
theorem Catalogue.lite_follows_option_of_book :
    let statement := ((Statement.ofEntity bookEntity).addEntity bookLiteEntity).withOptions
      [(ofRoot bookEntity).nest [defer "title"]]
    ∃ compiled after flats plan,
      (statement.compile schema .sqlite).run.run [] = (.ok compiled, after) ∧
      statement.Distinct ∧ flattenAll statement.options = .ok flats ∧
      flats.filterMap (·.ownDirective? statement.entities bookLiteEntity) = [] ∧
      compiled.planFor? bookLiteEntity = some plan ∧
      LoadPlan.merge bookLiteEntity [] ≠ .ok plan := by
  intro statement
  refine ⟨_, _, _, _, rfl, (Statement.ofEntity_distinct bookEntity).addEntity bookLiteEntity, rfl,
    rfl, rfl, fun same => ?_⟩
  have modes := congrArg (·.toOption.map fun plan => plan.attributes.map (·.mode)) same
  revert modes
  decide

end LazyMapper
