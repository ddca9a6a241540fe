import LazyMapper.Proofs.Loader.Nesting
import LazyMapper.Proofs.Statement.Paths

/-!
# Options without a directive

An option may be bare: without a directive of its own or of an option nested in it
(`LoaderOption.Bare`). Its nodes attach nothing, so the tree of the options has nothing of their
paths, and the walk over the tree that checks relationships does not come to them. All that
compiling asks of such an option is that its texts can be read and that each of its nodes has a
root with the first relationship of its path (`LoaderOption.Rooted`). Two of them are
interchangeable in every statement that compiles.

The path of such an option is thus known to lead over declared relationships only as far as another
option attaches a directive on it or beyond (`Statement.compile_checks_scopes`).
-/

set_option autoImplicit false

namespace LazyMapper

/-! ## Walks over what is attached -/

/-- A walk comes to an entity at every beginning of its path. -/
theorem Schema.Walks.exists_front {schema : Schema} {owner target : Entity} {hops rest : Path}
    (walks : schema.Walks owner (hops ++ rest) target) :
    ∃ middle, schema.Walks owner hops middle := by
  induction hops generalizing owner with
  | nil => exact ⟨owner, .here⟩
  | cons name hops ih =>
      obtain ⟨next, first, onwards⟩ := Schema.walks_cons.mp walks
      obtain ⟨middle, walked⟩ := ih onwards
      exact ⟨middle, .hop first walked⟩

/-- Where something is attached, the path leads to an entity. -/
theorem OptionForest.Merges.exists_walks {schema : Schema} {owner : Entity} {forest : OptionForest}
    (merges : forest.Merges schema owner) {path : Path} (attached : forest.attached path ≠ []) :
    ∃ target, schema.Walks owner path target := by
  induction forest generalizing owner path with
  | empty => exact absurd (attached_empty path) attached
  | node name directives below next ihBelow ihNext =>
      obtain ⟨⟨checked, declares, -, fits⟩, fitsNext⟩ := merges
      cases path with
      | nil => exact ⟨owner, .here⟩
      | cons first rest =>
          rw [attached_node] at attached
          split at attached
          · rename_i same
            subst same
            split at attached
            · rename_i last
              subst last
              exact ⟨checked, .hop declares .here⟩
            · obtain ⟨target, onwards⟩ := ihBelow fits attached
              exact ⟨target, .hop declares onwards⟩
          · exact ihNext fitsNext attached

/-- An option attaches a directive, from a root of the table, at a path or beyond it. -/
def FlatOption.Reaches (entities : List Entity) (table : String) (hops : Path)
    (option : FlatOption) : Prop :=
  ∃ root, option.root entities = .ok root ∧ root.table = table ∧ hops <+: option.path ∧
    option.directive?.isSome

/-! ## Bare options -/

namespace LoaderOption

/-- Neither the option nor an option nested in it has a directive. -/
inductive Bare : LoaderOption → Prop where
  | intro {option : LoaderOption} (own : option.directive? = none)
    (nested : ∀ child ∈ option.children, Bare child) : Bare option

/-- All that is asked of a bare option: it can be flattened, and each of its nodes has a root, with
the first relationship of the node's path. -/
def Rooted (entities : List Entity) (option : LoaderOption) : Prop :=
  ∃ nodes, option.flatten option.root? [] = .ok nodes ∧
    ∀ node ∈ nodes, ∃ root, node.checkedRoot entities = .ok root

variable {entities : List Entity} {option other : LoaderOption} {front back : List LoaderOption}
  {tree : OptionTree}

theorem Bare.directive?_of_mem (bare : option.Bare) {root? : Option Entity} {base : Path}
    {nodes : List FlatOption} (ok : option.flatten root? base = .ok nodes) :
    ∀ node ∈ nodes, node.directive? = none := by
  induction bare generalizing base nodes with
  | @intro option own _ ih =>
      obtain ⟨ownRoot, path, directive?, children⟩ := option
      obtain rfl : directive? = none := own
      rw [flatten] at ok
      obtain ⟨hop, -, ok⟩ := exists_of_bind_eq_ok ok
      obtain ⟨node, here, ok⟩ := exists_of_bind_eq_ok ok
      obtain ⟨more, nested, ok⟩ := exists_of_bind_eq_ok ok
      obtain rfl := Except.ok.inj ok
      obtain rfl := Except.ok.inj here
      refine List.forall_mem_cons.mpr ⟨rfl, fun node member => ?_⟩
      obtain ⟨child, inside, own, flat, there⟩ := (mem_flattenNested nested).mp member
      exact ih child inside flat node there

/-- Options flatten one by one, and in the middle of others as well. -/
theorem flattenAll_middle {flats : List FlatOption}
    (ok : flattenAll (front ++ option :: back) = .ok flats) :
    ∃ before nodes after, flattenAll front = .ok before ∧
      option.flatten option.root? [] = .ok nodes ∧ flattenAll back = .ok after ∧
        flats = before ++ (nodes ++ after) := by
  rw [flattenAll_append] at ok
  obtain ⟨before, first, ok⟩ := exists_of_bind_eq_ok ok
  obtain ⟨rest, second, ok⟩ := exists_of_bind_eq_ok ok
  obtain rfl := Except.ok.inj ok
  rw [flattenAll] at second
  obtain ⟨nodes, here, second⟩ := exists_of_bind_eq_ok second
  obtain ⟨after, last, second⟩ := exists_of_bind_eq_ok second
  obtain rfl := Except.ok.inj second
  exact ⟨before, nodes, after, first, here, last, rfl⟩

/-- Nodes without directives attach nothing. -/
theorem Bare.filterMap_directiveAt? (bare : option.Bare) {nodes : List FlatOption}
    (ok : option.flatten option.root? [] = .ok nodes) (table : String) (path : Path) :
    nodes.filterMap (·.directiveAt? entities table path) = [] := by
  refine List.filterMap_eq_nil_iff.mpr fun node member => ?_
  unfold FlatOption.directiveAt?
  rw [bare.directive?_of_mem ok node member]
  cases node.root entities with
  | error fault => rfl
  | ok root => exact ite_self none

/-- **In the place of a bare option any other builds the same tree** if it is rooted. -/
theorem Bare.build_iff (bare : option.Bare) (bare' : other.Bare)
    (built : OptionTree.build entities (front ++ option :: back) = .ok tree) :
    OptionTree.build entities (front ++ other :: back) = .ok tree ↔ other.Rooted entities := by
  obtain ⟨flats, flattened, canonical, checked, directives⟩ := OptionTree.directivesAt_build built
  obtain ⟨before, nodes, after, first, here, last, rfl⟩ := flattenAll_middle flattened
  simp only [List.filterMap_append, bare.filterMap_directiveAt? here, List.nil_append]
    at directives
  constructor
  · intro built'
    obtain ⟨flats', flattened', -, checked', -⟩ := OptionTree.directivesAt_build built'
    obtain ⟨_, nodes', _, -, here', -, rfl⟩ := flattenAll_middle flattened'
    exact ⟨nodes', here', fun node member =>
      checked' node (List.mem_append_right _ (List.mem_append_left _ member))⟩
  · rintro ⟨nodes', here', rooted⟩
    have flattened' : flattenAll (front ++ other :: back) = .ok (before ++ (nodes' ++ after)) := by
      rw [flattenAll_append, first, flattenAll, here', last]
      rfl
    obtain ⟨tree', attached⟩ : ∃ tree', OptionTree.empty.attach entities
        (before ++ (nodes' ++ after)) = .ok tree' := by
      refine OptionTree.attach_succeeds_iff.mpr fun node member => ?_
      simp only [List.mem_append] at member checked
      rcases member with member | member | member
      · exact checked node (.inl member)
      · exact rooted node member
      · exact checked node (.inr (.inr member))
    have built' : OptionTree.build entities (front ++ other :: back) = .ok tree' := by
      rw [OptionTree.build, flattened']
      exact attached
    obtain ⟨_, same, canonical', -, directives'⟩ := OptionTree.directivesAt_build built'
    obtain rfl := Except.ok.inj (flattened'.symm.trans same)
    simp only [List.filterMap_append, bare'.filterMap_directiveAt? here', List.nil_append]
      at directives'
    rw [built']
    refine congrArg Except.ok ((OptionTree.eq_iff_directivesAt canonical' canonical).mpr ?_)
    exact fun table path => (directives' table path).trans (directives table path).symm

end LoaderOption

/-! ## Statements -/

namespace Statement

variable {schema : Schema} {dialect : Sql.Dialect} {statement : Statement}
  {remembered after : Configured} {compiled : CompiledStatement}

/-- Compiling has of the options only the tree that they build. -/
theorem compile_congr {options : List LoaderOption} {tree : OptionTree}
    (built : OptionTree.build statement.entities statement.options = .ok tree)
    (built' : OptionTree.build statement.entities options = .ok tree) :
    { statement with options }.compile schema dialect = statement.compile schema dialect := by
  unfold compile
  rw [built, built']
  rfl

/-- When a statement compiles, a path on which options attach a directive, or beyond it, leads to an
entity. -/
theorem exists_walks_of_reaches {tree : OptionTree} {flats : List FlatOption}
    (directives : ∀ table path, tree.directivesAt table path =
      flats.filterMap (·.directiveAt? statement.entities table path))
    (below : ∀ entity ∈ statement.entities, ∀ node, tree.subtree? entity.table [] = some node →
      node.below.Merges schema entity)
    {entity : Entity} (member : entity ∈ statement.entities) {hops : Path}
    (reached : ∃ flat ∈ flats, flat.Reaches statement.entities entity.table hops) :
    ∃ target, schema.Walks entity hops target := by
  obtain ⟨flat, inside, root, found, table, ⟨rest, path⟩, bears⟩ := reached
  have attached : tree.directivesAt entity.table (hops ++ rest) ≠ [] := by
    rw [directives, FlatOption.filterMap_directiveAt?_ne_nil]
    exact ⟨flat, inside, root, found, table, path.symm, bears⟩
  cases node? : tree.subtree? entity.table [] with
  | none => exact absurd (OptionTree.directivesAt_of_subtree?_eq_none node? _) attached
  | some node =>
      rw [OptionTree.directivesAt_of_subtree? node?] at attached
      split at attached
      · rename_i nowhere
        obtain ⟨rfl, -⟩ := List.append_eq_nil_iff.mp nowhere
        exact ⟨entity, .here⟩
      · obtain ⟨target, walks⟩ := (below entity member node node?).exists_walks attached
        exact walks.exists_front

/-- **What is checked of a bare option.** When a statement compiles, every node of the option has a
root with the first relationship of its path, and the path leads from there over declared
relationships as far as an option with a directive goes the same way. More is not checked: in the
place of the option any bare one that is rooted compiles to the same, wherever its paths lead. -/
theorem compile_checks_scopes
    (ran : (statement.compile schema dialect).run.run remembered = (.ok compiled, after))
    {front back : List LoaderOption} {option : LoaderOption}
    (listed : statement.options = front ++ option :: back) (bare : option.Bare) :
    (∃ flats nodes, LoaderOption.flattenAll statement.options = .ok flats ∧
      option.flatten option.root? [] = .ok nodes ∧ ∀ node ∈ nodes,
        ∃ root, node.root statement.entities = .ok root ∧
          (∀ first rest, node.path = first :: rest → (root.relationship? first).isSome) ∧
          ∀ entity ∈ statement.entities, (root == entity) = true → ∀ hops, hops <+: node.path →
            (∃ flat ∈ flats, flat.Reaches statement.entities entity.table hops) →
              ∃ target, schema.Walks entity hops target) ∧
    ∀ other : LoaderOption, other.Bare →
      (({ statement with options := front ++ other :: back }.compile schema dialect).run.run
          remembered = (.ok compiled, after) ↔ other.Rooted statement.entities) := by
  have merges := compile_merges schema dialect statement remembered
  unfold Configuring.Checks Ends at merges
  rw [ran] at merges
  obtain ⟨-, built, -, -, below⟩ := merges
  have builtHere : OptionTree.build statement.entities (front ++ option :: back) =
      .ok compiled.options := listed ▸ built
  constructor
  · obtain ⟨flats, flattened, -, -, directives⟩ := OptionTree.directivesAt_build built
    obtain ⟨nodes, own, rooted⟩ := (bare.build_iff bare builtHere).mp builtHere
    refine ⟨flats, nodes, flattened, own, fun node member => ?_⟩
    obtain ⟨root, checked⟩ := rooted node member
    obtain ⟨found, owns⟩ := FlatOption.checkedRoot_eq_ok.mp checked
    exact ⟨root, found, owns, fun entity inside _ hops _ reached =>
      exists_walks_of_reaches directives below inside reached⟩
  · intro other bare'
    rw [← bare.build_iff bare' builtHere]
    constructor
    · intro ran'
      have merges' := compile_merges schema dialect
        { statement with options := front ++ other :: back } remembered
      unfold Configuring.Checks Ends at merges'
      rw [ran'] at merges'
      exact merges'.2.1
    · intro built'
      rw [compile_congr built built']
      exact ran

end Statement

namespace Catalogue

open LoaderOption

/-- The publisher of an author is known to be declared because its city has an option, and the
misspelt relationship of another option is not missed. -/
theorem publisher_scope_checked :
    let scope (path : String) : LoaderOption := (atPath "author").nest [atPath path]
    let statement (path : String) : Statement :=
      (Statement.ofEntity bookEntity).withOptions [defer "author.publisher.city", scope path]
    ∃ compiled after,
      ((statement "publisher").compile schema .sqlite).run.run [] = (.ok compiled, after) ∧
      (∃ target, schema.Walks bookEntity ["author", "publisher"] target) ∧
      ((statement "publishr").compile schema .sqlite).run.run [] = (.ok compiled, after) := by
  intro scope statement
  have bare (path : String) : (scope path).Bare := by
    refine .intro rfl fun child member => ?_
    obtain rfl := List.mem_singleton.mp member
    exact .intro rfl nofun
  have accepted :
      (((statement "publisher").compile schema .sqlite).run.run []).1.toOption.isSome := by
    decide +kernel
  obtain ⟨compiled, after, ran⟩ : ∃ compiled after,
      ((statement "publisher").compile schema .sqlite).run.run [] = (.ok compiled, after) := by
    match ((statement "publisher").compile schema .sqlite).run.run [], accepted with
    | (.ok compiled, after), _ => exact ⟨compiled, after, rfl⟩
  have listed : (statement "publisher").options =
      [defer "author.publisher.city"] ++ scope "publisher" :: [] := rfl
  obtain ⟨⟨flats, nodes, flattened, own, checked⟩, alike⟩ :=
    Statement.compile_checks_scopes ran listed (bare "publisher")
  obtain rfl : nodes = [⟨none, ["author"], none, "defaultload(author)"⟩,
      ⟨none, ["author", "publisher"], none, "defaultload(publisher)"⟩] :=
    (Except.ok.inj own).symm
  obtain rfl : flats = ⟨none, ["author", "publisher"], some (.defer (.named "city") false),
      "defer(author.publisher.city)"⟩ :: [⟨none, ["author"], none, "defaultload(author)"⟩,
      ⟨none, ["author", "publisher"], none, "defaultload(publisher)"⟩] :=
    (Except.ok.inj flattened).symm
  obtain ⟨_, found, -, walks⟩ := checked _ (List.mem_cons_of_mem _ List.mem_cons_self)
  obtain rfl := Except.ok.inj found
  refine ⟨compiled, after, ran, ?_, (alike (scope "publishr") (bare _)).mpr ⟨_, rfl, ?_⟩⟩
  · exact walks bookEntity List.mem_cons_self rfl ["author", "publisher"] List.prefix_rfl
      ⟨_, List.mem_cons_self, bookEntity, rfl, rfl, List.prefix_rfl, rfl⟩
  · refine List.forall_mem_cons.mpr ⟨⟨bookEntity, rfl⟩, fun node member => ?_⟩
    obtain rfl := List.mem_singleton.mp member
    exact ⟨bookEntity, rfl⟩

/-- **A misspelt relationship behind the first one is not noticed.** The author of a book has no
relationship of the name, and the statement compiles. -/
theorem misspelt_scope_compiles :
    let statement := (Statement.ofEntity bookEntity).withOptions [atPath "author.publishr"]
    (∃ compiled after, (statement.compile schema .sqlite).run.run [] = (.ok compiled, after)) ∧
      (atPath "author.publishr").Bare ∧
      (atPath "author.publishr").flatten none [] =
        .ok [⟨none, ["author", "publishr"], none, "defaultload(author.publishr)"⟩] ∧
      FlatOption.root statement.entities
        ⟨none, ["author", "publishr"], none, "defaultload(author.publishr)"⟩ = .ok bookEntity ∧
      ¬ ∃ target, schema.Walks bookEntity ["author", "publishr"] target := by
  intro statement
  refine ⟨⟨_, _, rfl⟩, .intro rfl nofun, rfl, rfl, fun ⟨_, walks⟩ => ?_⟩
  obtain ⟨next, first, walks⟩ := Schema.walks_cons.mp walks
  obtain ⟨_, second, -⟩ := Schema.walks_cons.mp walks
  have author : schema.Declares bookEntity "author" authorEntity := ⟨_, rfl, rfl⟩
  obtain rfl := first.unique author
  obtain ⟨_, owned, -⟩ := second
  cases owned

end Catalogue

end LazyMapper
