import LazyMapper.Proofs.Plan.Shape
import LazyMapper.Statement.Compile

/-!
# What compiling checks

Compiling checks the mappings of the entities it meets: those of the statement and those that
relationships lead to. The type names it has found valid by then stay remembered, also when it
fails (`Learns`). When it succeeds, the mappings of all entities of the statement are among them
and every entity has a plan of its own (`Statement.compile_checks`).
-/

set_option autoImplicit false

namespace LazyMapper

/-- What is remembered afterwards is what was remembered before, and type names of known entities
whose mappings passed the check. -/
structure Learns (known : Entity → Prop) (before after : Configured) : Prop where
  keeps : ∀ name ∈ before, name ∈ after
  checked : ∀ name ∈ after, name ∈ before ∨
    ∃ entity, known entity ∧ entity.typeName = name ∧ entity.validate = .ok ()

namespace Learns

variable {known : Entity → Prop} {first second third : Configured}

theorem refl (names : Configured) : Learns known names names :=
  ⟨fun _ member => member, fun _ member => .inl member⟩

theorem trans (front : Learns known first second) (back : Learns known second third) :
    Learns known first third where
  keeps := fun name member => back.keeps name (front.keeps name member)
  checked := by
    intro name member
    rcases back.checked name member with earlier | checked
    · exact front.checked name earlier
    · exact .inr checked

end Learns

variable {known : Entity → Prop} {remembered : Configured}

/-- A computation that may remember more mappings, whether it succeeds or not. -/
def Configuring.Checks {α : Type} (known : Entity → Prop) (computation : Configuring α)
    (remembered : Configured) (post : α → Configured → Prop) : Prop :=
  Ends computation remembered
    (fun result after => Learns known remembered after ∧ post result after)
    fun _ after => Learns known remembered after

namespace Configuring.Checks

variable {α β : Type} {post : α → Configured → Prop} {computation : Configuring α}

theorem mono {post' : α → Configured → Prop}
    (checks : Checks known computation remembered post)
    (implied : ∀ result after, post result after → post' result after) :
    Checks known computation remembered post' :=
  Ends.mono checks (fun result after holds => ⟨holds.1, implied result after holds.2⟩)
    fun _ _ holds => holds

theorem bind {next : α → Configuring β} {Q : α → Configured → Prop}
    {after : β → Configured → Prop} (checks : Checks known computation remembered Q)
    (continued : ∀ result names, Learns known remembered names → Q result names →
      Checks known (next result) names after) :
    Checks known (computation >>= next) remembered after := by
  refine ends_bind.mpr (Ends.mono checks ?_ fun _ _ learns => learns)
  rintro result names ⟨learns, holds⟩
  exact Ends.mono (continued result names learns holds)
    (fun _ _ later => ⟨learns.trans later.1, later.2⟩) fun _ _ later => learns.trans later

theorem pure {result : α} (holds : post result remembered) :
    Checks known (Pure.pure result) remembered post :=
  ⟨.refl remembered, holds⟩

theorem ofExcept (result : Except LoaderFault α) :
    Checks known (Configuring.ofExcept result) remembered fun value _ => result = .ok value := by
  cases result with
  | ok value => exact ⟨.refl remembered, rfl⟩
  | error fault => exact Learns.refl remembered

/-- What a computation that succeeds leaves. -/
theorem of_run {result : α} {after : Configured}
    (checks : Checks known computation remembered post)
    (ran : computation.run.run remembered = (.ok result, after)) :
    Learns known remembered after ∧ post result after := by
  unfold Checks Ends at checks
  rwa [ran] at checks

end Configuring.Checks

open Configuring

/-! ## Mappings -/

theorem Entity.configure_checks {entity : Entity} (here : known entity) :
    Checks known entity.configure remembered fun _ names => entity.typeName ∈ names := by
  unfold Checks Ends
  rw [Entity.configure_run]
  by_cases seen : entity.typeName ∈ remembered
  · rw [if_pos seen]
    exact ⟨.refl remembered, seen⟩
  · rw [if_neg seen]
    cases valid : entity.validate with
    | error fault => exact .refl remembered
    | ok _ =>
        refine ⟨⟨fun name member => List.mem_cons_of_mem _ member, fun name member => ?_⟩,
          List.mem_cons_self⟩
        rcases List.mem_cons.mp member with rfl | earlier
        · exact .inr ⟨entity, here, rfl, valid⟩
        · exact .inl earlier

theorem configureAll_checks {entities : List Entity} (here : ∀ entity ∈ entities, known entity) :
    Checks known (entities.forM Entity.configure) remembered fun _ names =>
      ∀ entity ∈ entities, entity.typeName ∈ names := by
  induction entities generalizing remembered with
  | nil => exact .pure (by simp)
  | cons entity rest ih =>
      refine (Entity.configure_checks (here entity (by simp))).bind ?_
      intro _ names _ first
      refine Ends.mono (ih fun other member => here other (List.mem_cons_of_mem _ member))
        ?_ fun _ _ learns => learns
      rintro _ after ⟨learns, others⟩
      refine ⟨learns, fun other member => ?_⟩
      rcases List.mem_cons.mp member with rfl | later
      · exact learns.keeps _ first
      · exact others other later

/-! ## Relationship paths -/

namespace Schema

variable {schema : Schema} {owner target other : Entity} {name label : String}

/-- An entity declares where its relationship of a name leads to. The mapping found there may be
invalid. -/
def Declares (schema : Schema) (owner : Entity) (name : String) (target : Entity) : Prop :=
  ∃ relationship, owner.relationship? name = some relationship ∧
    schema.target? relationship = some target

theorem follow_eq_ok :
    schema.follow owner name label = .ok target ↔ schema.Declares owner name target := by
  unfold follow Declares
  cases owner.relationship? name with
  | none => simp
  | some relationship => cases leads : schema.target? relationship <;> simp [leads]

theorem Declares.unique (declares : schema.Declares owner name target)
    (declares' : schema.Declares owner name other) : target = other := by
  obtain ⟨relationship, owned, leads⟩ := declares
  obtain ⟨relationship', owned', leads'⟩ := declares'
  obtain rfl := Option.some.inj (owned.symm.trans owned')
  exact Option.some.inj (leads.symm.trans leads')

theorem exists_of_follow (ok : schema.follow owner name label = .ok target) :
    ∃ targetName, schema.find? targetName = some target := by
  obtain ⟨_, -, there⟩ := follow_eq_ok.mp ok
  obtain ⟨targetName, -, found⟩ := Option.bind_eq_some_iff.mp there
  exact ⟨targetName, found⟩

end Schema

/-- Everything attached below an entity merges into plans, node by node, over the entities that
declared relationships lead to. -/
def OptionForest.Merges (schema : Schema) (owner : Entity) : OptionForest → Prop
  | .empty => True
  | .node name directives below next =>
    (∃ target, schema.Declares owner name target ∧
      (∃ plan, LoadPlan.merge target directives = .ok plan) ∧ below.Merges schema target) ∧
    next.Merges schema owner

section Paths

variable {schema : Schema}
  (declared : ∀ name entity, schema.find? name = some entity → known entity)
include declared

/-- Checking what is attached below an entity merges it, node by node. -/
theorem OptionForest.check_checks (forest : OptionForest) (owner : Entity) (path : String) :
    Checks known (forest.check schema owner path) remembered fun _ _ =>
      forest.Merges schema owner := by
  induction forest generalizing owner path remembered with
  | empty => exact .pure trivial
  | node name directives below next ihBelow ihNext =>
      refine (Checks.ofExcept _).bind ?_
      intro target names _ ok
      obtain ⟨targetName, found⟩ := Schema.exists_of_follow ok
      refine (Entity.configure_checks (declared targetName target found)).bind ?_
      intro _ names _ _
      refine (Checks.ofExcept _).bind ?_
      intro plan names _ merged
      refine (ihBelow target _).bind ?_
      intro _ names _ fits
      refine (ihNext owner path).mono fun _ _ fitsNext => ?_
      exact ⟨⟨target, Schema.follow_eq_ok.mp ok, ⟨plan, merged⟩, fits⟩, fitsNext⟩

theorem Statement.checkPaths_checks (tree : OptionTree) (entities : List Entity) :
    Checks known (checkPaths schema tree entities) remembered fun _ _ =>
      ∀ entity ∈ entities, ∀ node, tree.subtree? entity.table [] = some node →
        node.below.Merges schema entity := by
  induction entities generalizing remembered with
  | nil => exact .pure nofun
  | cons entity rest ih =>
      unfold checkPaths
      rw [List.forM]
      refine Checks.bind (Q := fun _ _ => ∀ node, tree.subtree? entity.table [] = some node →
        node.below.Merges schema entity) ?_ fun _ _ _ here => ?_
      · cases tree.subtree? entity.table [] with
        | none => exact .pure nofun
        | some node =>
            refine (OptionForest.check_checks declared node.below entity "").mono fun _ _ fits => ?_
            rintro _ ⟨⟩
            exact fits
      · exact ih.mono fun _ _ others => List.forall_mem_cons.mpr ⟨here, others⟩

/-! ## Statements -/

/-- What a compiled statement has of the statement it is made from. -/
structure CompiledStatement.Compiles (compiled : CompiledStatement) (dialect : Sql.Dialect)
    (statement : Statement) : Prop where
  dialect : compiled.dialect = dialect
  entities : compiled.entities = statement.entities
  query : compiled.query = statement.query compiled.plans
  plans : List.Forall₂ (fun entity plan => plan.Suits entity) statement.entities compiled.plans

/-- **Compiling remembers the mappings that pass its checks**, and gives a plan for every entity
of the statement. -/
theorem Statement.compile_checks (dialect : Sql.Dialect) (statement : Statement)
    (selected : ∀ entity ∈ statement.entities, known entity) :
    Checks known (statement.compile schema dialect) remembered fun compiled names =>
      compiled.Compiles dialect statement ∧
        ∀ entity ∈ statement.entities, entity.typeName ∈ names := by
  refine (configureAll_checks selected).bind ?_
  intro _ names _ checked
  refine (Checks.ofExcept _).bind ?_
  intro tree names' later _
  refine (Statement.checkPaths_checks declared tree statement.entities).bind ?_
  intro _ names'' latest _
  refine (Checks.ofExcept _).bind ?_
  intro plans names''' last ok
  refine .pure ⟨⟨rfl, rfl, rfl, ?_⟩, ?_⟩
  · exact (forall₂_of_mapM_eq_ok ok).imp fun _ _ merged => LoadPlan.suits_of_merge merged
  · intro entity member
    exact last.keeps _ (latest.keeps _ (later.keeps _ (checked entity member)))

end Paths

/-- A compiled statement is made from its statement, whatever its mappings are. -/
theorem Statement.compiles_of_run {schema : Schema} {dialect : Sql.Dialect} {statement : Statement}
    {after : Configured} {compiled : CompiledStatement}
    (ran : (statement.compile schema dialect).run.run remembered = (.ok compiled, after)) :
    compiled.Compiles dialect statement :=
  ((statement.compile_checks (fun _ _ _ => trivial) dialect fun _ _ => trivial :
    Checks (fun _ => True) _ remembered _).of_run ran).2.1

/-- The plan at a path is one of the target, whose mapping is checked. -/
theorem CompiledStatement.planAt_checks {schema : Schema} (compiled : CompiledStatement)
    (text : String) (parent : Entity) {target : Entity} (here : known target) :
    Checks known (compiled.planAt schema text parent target) remembered fun found names =>
      found.plan.Suits target ∧ target.typeName ∈ names := by
  refine (Checks.ofExcept _).bind ?_
  intro path _ _ _
  refine (Checks.ofExcept _).bind ?_
  rintro ⟨root, relationship⟩ _ _ _
  refine (Entity.configure_checks here).bind ?_
  intro _ names _ checked
  refine (Checks.ofExcept _).bind ?_
  intro plan names' last merged
  exact .pure ⟨LoadPlan.suits_of_merge merged, last.keeps _ checked⟩

namespace CompiledStatement

variable {compiled : CompiledStatement}

/-- The plan found for a model is one of an entity of the statement that compares equal. -/
theorem Compiles.exists_entity {dialect : Sql.Dialect} {statement : Statement}
    (compiles : compiled.Compiles dialect statement) {entity : Entity} {plan : LoadPlan}
    (found : compiled.planFor? entity = some plan) :
    ∃ selected ∈ statement.entities, plan.Suits selected ∧ (selected == entity) = true := by
  have member := List.mem_of_find?_eq_some found
  have alike := List.find?_some found
  obtain ⟨index, here⟩ := List.mem_iff_getElem?.mp member
  obtain ⟨inside, rfl⟩ := List.getElem?_eq_some_iff.mp here
  have inside' : index < statement.entities.length := by rwa [compiles.plans.length_eq]
  have suits := compiles.plans.get inside' inside
  refine ⟨_, List.getElem_mem inside', suits, ?_⟩
  rw [List.get_eq_getElem, List.get_eq_getElem] at suits
  rw [← suits.owner]
  exact alike

end CompiledStatement

end LazyMapper
