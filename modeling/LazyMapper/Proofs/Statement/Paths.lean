import LazyMapper.Proofs.Loader.Prefix
import LazyMapper.Proofs.Statement.Scoping

/-!
# Plans at relationship paths

A related load asks a compiled statement for the plan at the end of a relationship path. It walks
the path anew, from the entity that the path starts from (`Statement.StartsAt`) over declared
relationships (`Schema.Walks`), and merges what the options attach there.

Compiling has merged the same directives over the same entity before. Its walk is over the option
tree (`OptionForest.Merges`), which has a node for every path at which something is attached, so
both walks go through the same entities (`OptionForest.Merges.at_walk`). Where nothing is attached
the defaults of the mapping are left, which cannot fail. A statement that compiles therefore has a
plan at every path (`Statement.compile_settles_paths`).

The tree files directives by table. At a path they are nevertheless those of options that start
from the root of the path, also when the statement has another entity of the table: compiling
would have followed the path from that entity too, and the root would not be the only one that has
the first relationship.
-/

set_option autoImplicit false

namespace LazyMapper

/-! ## Walking a path -/

namespace Schema

/-- A path of declared relationships leads from an entity to another. Nothing is asked of the
mappings on the way. -/
inductive Walks (schema : Schema) : Entity → Path → Entity → Prop where
  | here {owner : Entity} : Walks schema owner [] owner
  | hop {owner next target : Entity} {name : String} {rest : Path}
    (first : schema.Declares owner name next) (onwards : Walks schema next rest target) :
    Walks schema owner (name :: rest) target

variable {schema : Schema} {owner target : Entity} {name : String} {path rest : Path}

theorem walks_nil : schema.Walks owner [] target ↔ target = owner := by
  refine ⟨fun walks => ?_, ?_⟩
  · cases walks
    rfl
  · rintro rfl
    exact .here

theorem walks_cons : schema.Walks owner (name :: rest) target ↔
    ∃ next, schema.Declares owner name next ∧ schema.Walks next rest target := by
  refine ⟨fun walks => ?_, fun ⟨next, first, onwards⟩ => .hop first onwards⟩
  cases walks with
  | hop first onwards => exact ⟨_, first, onwards⟩

/-- A walk goes on by a declared relationship of the entity that it has come to. -/
theorem Walks.concat {parent : Entity} (walks : schema.Walks owner path parent)
    (last : schema.Declares parent name target) : schema.Walks owner (path ++ [name]) target := by
  induction walks with
  | here => exact .hop last .here
  | hop first _ ih => exact .hop first (ih last)

theorem Walks.followAll_eq (walks : schema.Walks owner path target) (label : String) :
    CompiledStatement.followAll schema owner label path = .ok target := by
  induction walks with
  | here => rfl
  | hop first _ ih =>
      rw [CompiledStatement.followAll, follow_eq_ok.mpr first]
      exact ih

end Schema

/-- Without a directive the defaults of the mapping are left. -/
theorem LoadPlan.merge_nil (entity : Entity) : merge entity [] = .ok (defaults entity) := rfl

theorem Configuring.ofExcept_ok_bind {α β : Type} (result : α) (next : α → Configuring β) :
    ofExcept (.ok result) >>= next = next result :=
  pure_bind result next

/-- The check of a valid mapping succeeds, whatever is remembered. -/
theorem Entity.configure_of_valid {entity : Entity} (valid : entity.validate = .ok ())
    (names : Configured) : ∃ after, entity.configure.run.run names = (.ok (), after) := by
  rw [entity.configure_run, valid]
  split
  · exact ⟨names, rfl⟩
  · exact ⟨entity.typeName :: names, rfl⟩

namespace OptionForest

variable {schema : Schema} {owner target : Entity} {forest : OptionForest} {first : String}
  {rest : Path}

/-- What is attached at the end of a walk merges over the entity that the walk comes to. -/
theorem Merges.at_walk (merges : forest.Merges schema owner)
    (walks : schema.Walks owner (first :: rest) target) :
    ∃ plan, LoadPlan.merge target (forest.attached (first :: rest)) = .ok plan := by
  induction forest generalizing owner first rest with
  | empty => exact ⟨_, by rw [attached_empty, LoadPlan.merge_nil]⟩
  | node name directives below next ihBelow ihNext =>
      obtain ⟨⟨checked, declares, merged, fits⟩, fitsNext⟩ := merges
      rw [attached_node]
      split
      · rename_i same
        subst same
        obtain ⟨_, declares', onwards⟩ := Schema.walks_cons.mp walks
        obtain rfl := declares.unique declares'
        cases rest with
        | nil =>
            obtain rfl := Schema.walks_nil.mp onwards
            exact merged
        | cons second others => exact ihBelow fits onwards
      · exact ihNext fitsNext walks

/-- Where something is attached, the path begins with a declared relationship. -/
theorem Merges.exists_declares (merges : forest.Merges schema owner)
    (attached : forest.attached (first :: rest) ≠ []) :
    ∃ next, schema.Declares owner first next := by
  induction forest with
  | empty => exact absurd (attached_empty _) attached
  | node name directives below next _ ihNext =>
      obtain ⟨⟨checked, declares, -, -⟩, fitsNext⟩ := merges
      rw [attached_node] at attached
      split at attached
      · rename_i same
        exact ⟨checked, same ▸ declares⟩
      · exact ihNext fitsNext attached

end OptionForest

/-! ## Where paths start -/

/-- Paths that begin with a relationship start from an entity: it is the only one of the statement,
or the only one that has the relationship. -/
def Statement.StartsAt (statement : Statement) (first : String) (root : Entity) : Prop :=
  statement.entities = [root] ∨
    statement.entities.filter (fun entity => (entity.relationship? first).isSome) = [root]

namespace Statement.StartsAt

variable {statement : Statement} {first : String} {root entity : Entity}

theorem rootOfPath_eq (starts : statement.StartsAt first root) (label : String) :
    rootOfPath statement.entities first label = .ok root := by
  rcases starts with only | owner
  · rw [only]
    rfl
  · unfold rootOfPath
    split
    · rename_i alone only
      have member : root ∈ [alone] := by
        rw [← only]
        exact List.mem_of_mem_filter (owner ▸ List.mem_singleton_self root)
      rw [List.mem_singleton.mp member]
    · rw [owner]
      rfl

theorem mem (starts : statement.StartsAt first root) : root ∈ statement.entities :=
  FlatOption.mem_of_rootOfPath (starts.rootOfPath_eq "")

/-- No other entity of the statement has the relationship. -/
theorem unique (starts : statement.StartsAt first root) (member : entity ∈ statement.entities)
    (owns : (entity.relationship? first).isSome) : entity = root := by
  rcases starts with only | owner
  · rw [only] at member
    exact List.mem_singleton.mp member
  · have among : entity ∈ [root] := by
      rw [← owner]
      exact List.mem_filter.mpr ⟨member, owns⟩
    exact List.mem_singleton.mp among

end Statement.StartsAt

namespace FlatOption

variable {entities : List Entity} {root : Entity} {option : FlatOption} {path : Path}

/-- The directive that an option attaches at a path from an entity: the root of the option compares
equal to the entity, and the path is the option's. -/
def directiveFrom? (entities : List Entity) (root : Entity) (path : Path) (option : FlatOption) :
    Option Directive :=
  match option.root entities with
  | .ok own => if own == root ∧ option.path = path then option.directive? else none
  | .error _ => none

/-- The root of an option compares equal to one of the entities. -/
theorem exists_alike_of_root (found : option.root entities = .ok root) :
    ∃ entity ∈ entities, (root == entity) = true := by
  rcases mem_of_root found with member | ⟨-, selected⟩
  · exact ⟨root, member, Entity.beq_self root⟩
  · exact List.contains_iff_exists_mem_beq.mp selected

/-- An option attaches the same from an entity as it does by the entity's table, when the options
with a directive there have their roots at the entity. -/
theorem directiveFrom?_eq (alike : ∀ own directive, option.root entities = .ok own →
      own.table = root.table → option.path = path → option.directive? = some directive →
        (own == root) = true) :
    option.directiveFrom? entities root path = option.directiveAt? entities root.table path := by
  unfold directiveFrom? directiveAt?
  cases found : option.root entities with
  | error fault => rfl
  | ok own =>
      dsimp only
      by_cases same : (own == root) = true ∧ option.path = path
      · rw [if_pos same, if_pos ⟨Entity.table_eq_of_beq same.1, same.2⟩]
      · rw [if_neg same]
        split
        · rename_i there
          cases given : option.directive? with
          | none => rfl
          | some directive =>
              exact absurd ⟨alike own directive found there.1 there.2 given, there.2⟩ same
        · rfl

end FlatOption

/-! ## Plans -/

/-- A path of a statement, with its last relationship apart: where it starts is determined, and it
leads over declared relationships to a target whose mapping is valid. -/
structure Statement.Route (schema : Schema) (statement : Statement) (hops : Path) (last : String)
    (root parent target : Entity) (relationship : Relationship) : Prop where
  named : ∀ name ∈ hops ++ [last], Text.isName name.toList
  starts : statement.StartsAt (hops.headD last) root
  walks : schema.Walks root hops parent
  owned : parent.relationship? last = some relationship
  declared : schema.target? relationship = some target
  table : relationship.table = target.table
  valid : target.validate = .ok ()

namespace Statement

variable {schema : Schema} {statement : Statement} {hops : Path} {last : String}
  {root parent target : Entity} {relationship : Relationship}

/-- The root of a route is where paths that begin with its first relationship start. -/
theorem Route.exists_first
    (route : statement.Route schema hops last root parent target relationship) :
    ∃ first rest, hops ++ [last] = first :: rest ∧ statement.StartsAt first root := by
  cases hops with
  | nil => exact ⟨last, [], rfl, route.starts⟩
  | cons first others => exact ⟨first, others ++ [last], rfl, route.starts⟩

/-- Resolving a route finds its root and its last relationship. -/
theorem Route.resolvePath_eq
    (route : statement.Route schema hops last root parent target relationship)
    {compiled : CompiledStatement} (same : compiled.entities = statement.entities) (text : String) :
    compiled.resolvePath schema text (hops ++ [last]) parent target = .ok (root, relationship) := by
  obtain ⟨first, rest, path, starts⟩ := route.exists_first
  have front : (first :: rest).dropLast = hops := by rw [← path, List.dropLast_concat]
  have final : rest.getLastD first = last := by
    have end' := congrArg List.getLast? path
    rw [List.getLast?_concat, List.getLast?_cons] at end'
    rw [List.getLastD_eq_getLast?, ← Option.some.inj end']
  have apart : (parent != parent) = false := by rw [bne, Entity.beq_self]; rfl
  have alike : (relationship.table != target.table) = false := by rw [route.table]; simp
  rw [path, CompiledStatement.resolvePath]
  simp only [bind, Except.bind, same, starts.rootOfPath_eq, front, final,
    route.walks.followAll_eq, apart, route.owned, alike]
  rfl

/-- **Options attached below the table of a root have the root as theirs.** Another entity of the
table would have been checked for the same path when the statement was compiled, and would have its
first relationship as well. -/
theorem directiveFrom?_of_merges {tree : OptionTree} {flats : List FlatOption}
    (directives : ∀ table path, tree.directivesAt table path =
      flats.filterMap (·.directiveAt? statement.entities table path))
    (below : ∀ entity ∈ statement.entities, ∀ node, tree.subtree? entity.table [] = some node →
      node.below.Merges schema entity)
    {first : String} (rest : Path) (starts : statement.StartsAt first root) :
    tree.directivesAt root.table (first :: rest) =
      flats.filterMap (·.directiveFrom? statement.entities root (first :: rest)) := by
  rw [directives]
  refine List.filterMap_congr fun flat member => ?_
  refine (FlatOption.directiveFrom?_eq fun own directive found table path given => ?_).symm
  obtain ⟨entity, inside, alike⟩ := FlatOption.exists_alike_of_root found
  have same : entity.table = root.table := (Entity.table_eq_of_beq alike).symm.trans table
  have attached : tree.directivesAt entity.table (first :: rest) ≠ [] := by
    rw [directives, FlatOption.filterMap_directiveAt?_ne_nil]
    exact ⟨flat, member, own, found, table.trans same.symm, path,
      Option.isSome_iff_exists.mpr ⟨directive, given⟩⟩
  have owns : (entity.relationship? first).isSome := by
    cases node? : tree.subtree? entity.table [] with
    | none => exact absurd (OptionTree.directivesAt_of_subtree?_eq_none node? _) attached
    | some node =>
        rw [OptionTree.directivesAt_of_subtree? node?, if_neg (List.cons_ne_nil _ _)] at attached
        obtain ⟨_, _, owned, -⟩ := (below entity inside node node?).exists_declares attached
        rw [owned]
        rfl
  rwa [starts.unique inside owns] at alike

/-- What is attached at the end of a walk merges over the entity that the walk comes to. -/
theorem merges_at_walk {tree : OptionTree}
    (below : ∀ entity ∈ statement.entities, ∀ node, tree.subtree? entity.table [] = some node →
      node.below.Merges schema entity)
    {first : String} {rest : Path} (member : root ∈ statement.entities)
    (walks : schema.Walks root (first :: rest) target) :
    ∃ plan, LoadPlan.merge target (tree.directivesAt root.table (first :: rest)) = .ok plan := by
  cases node? : tree.subtree? root.table [] with
  | none => exact ⟨_, by rw [OptionTree.directivesAt_of_subtree?_eq_none node?, LoadPlan.merge_nil]⟩
  | some node =>
      rw [OptionTree.directivesAt_of_subtree? node?, if_neg (List.cons_ne_nil _ _)]
      exact (below root member node node?).at_walk walks

/-- **A statement that compiles has a plan at every path.** Whatever is remembered of checked
mappings by then, asking for the plan along a route succeeds. The plan is merged over the target
from what the options attach at the path from its root, in the order in which it is attached;
without any, it is the plan of the target's defaults. -/
theorem compile_settles_paths {dialect : Sql.Dialect} {remembered after : Configured}
    {compiled : CompiledStatement}
    (ran : (statement.compile schema dialect).run.run remembered = (.ok compiled, after))
    (route : statement.Route schema hops last root parent target relationship)
    (names : Configured) :
    ∃ flats plan, LoaderOption.flattenAll statement.options = .ok flats ∧
      let attached := flats.filterMap (·.directiveFrom? statement.entities root (hops ++ [last]))
      LoadPlan.merge target attached = .ok plan ∧
        (attached = [] → plan = LoadPlan.defaults target) ∧
        ((compiled.planAt schema (Path.toText (hops ++ [last])) parent target).run.run names).1 =
          .ok ⟨root, relationship, plan⟩ := by
  have merges := compile_merges schema dialect statement remembered
  unfold Configuring.Checks Ends at merges
  rw [ran] at merges
  obtain ⟨-, built, same, -, below⟩ := merges
  obtain ⟨flats, flattened, -, -, directives⟩ := OptionTree.directivesAt_build built
  have walks := route.walks.concat ⟨relationship, route.owned, route.declared⟩
  have read := Path.read_toText (List.concat_ne_nil last hops) route.named
  have resolved := route.resolvePath_eq same (Path.toText (hops ++ [last]))
  obtain ⟨first, rest, path, starts⟩ := route.exists_first
  rw [path] at walks read resolved ⊢
  obtain ⟨plan, merged⟩ := merges_at_walk below starts.mem walks
  have attached := directiveFrom?_of_merges directives below rest starts
  refine ⟨flats, plan, flattened, attached ▸ merged, fun nothing => ?_, ?_⟩
  · rw [attached, nothing, LoadPlan.merge_nil] at merged
    exact (Except.ok.inj merged).symm
  · obtain ⟨learned, configured⟩ := Entity.configure_of_valid route.valid names
    unfold CompiledStatement.planAt
    rw [read, Configuring.ofExcept_ok_bind, resolved, Configuring.ofExcept_ok_bind, run_bind,
      configured, merged]
    rfl

end Statement

open LoaderOption in
/-- Below the author of a book, the city of the publisher is loaded as an option says, and the
author of another book of the author, for which there is no option, by the defaults. -/
theorem Catalogue.publisher_of_author_settled :
    let statement : Statement := ⟨[bookEntity, authorEntity],
      [(atPath "author").nest [undefer "bio", (atPath "publisher").nest [undefer "city"]]],
      none, [], none⟩
    ∃ compiled after, (statement.compile schema .sqlite).run.run [] = (.ok compiled, after) ∧
      (∃ relationship plan,
        LoadPlan.merge publisherEntity [.undefer (.named "city")] = .ok plan ∧
        ((compiled.planAt schema "author.publisher" authorEntity publisherEntity).run.run
          ["Book"]).1 = .ok ⟨bookEntity, relationship, plan⟩) ∧
      ∃ relationship,
        ((compiled.planAt schema "author.books.author" bookEntity authorEntity).run.run []).1 =
          .ok ⟨bookEntity, relationship, LoadPlan.defaults authorEntity⟩ := by
  intro statement
  have accepted : ((statement.compile schema .sqlite).run.run []).1.toOption.isSome := by
    decide +kernel
  obtain ⟨compiled, after, ran⟩ : ∃ compiled after,
      (statement.compile schema .sqlite).run.run [] = (.ok compiled, after) := by
    match (statement.compile schema .sqlite).run.run [], accepted with
    | (.ok compiled, after), _ => exact ⟨compiled, after, rfl⟩
  have author : schema.Declares bookEntity "author" authorEntity := ⟨_, rfl, rfl⟩
  have books : schema.Declares authorEntity "books" bookEntity := ⟨_, rfl, rfl⟩
  have toPublisher : statement.Route schema ["author"] "publisher" bookEntity authorEntity
      publisherEntity _ :=
    ⟨by decide +kernel, .inr rfl, .hop author .here, rfl, rfl, rfl, rfl⟩
  have toAuthor : statement.Route schema ["author", "books"] "author" bookEntity bookEntity
      authorEntity _ :=
    ⟨by decide +kernel, .inr rfl, .hop author (.hop books .here), rfl, rfl, rfl, rfl⟩
  have attached (path : Path) (directives : List Directive) {flats : List FlatOption}
      (flattened : flattenAll statement.options = .ok flats)
      (given : (flattenAll statement.options).toOption.map
        (·.filterMap (·.directiveFrom? statement.entities bookEntity path)) = some directives) :
      flats.filterMap (·.directiveFrom? statement.entities bookEntity path) = directives := by
    rw [flattened] at given
    exact Option.some.inj given
  obtain ⟨_, plan, flattened, merged, -, found⟩ :=
    Statement.compile_settles_paths ran toPublisher ["Book"]
  obtain ⟨_, _, flattened', -, defaults, found'⟩ :=
    Statement.compile_settles_paths ran toAuthor []
  have text : Path.toText (["author"] ++ ["publisher"]) = "author.publisher" := by decide +kernel
  have text' : Path.toText (["author", "books"] ++ ["author"]) = "author.books.author" := by
    decide +kernel
  rw [text] at found
  rw [text', defaults (attached _ [] flattened' (by decide +kernel))] at found'
  rw [attached _ [.undefer (.named "city")] flattened (by decide +kernel)] at merged
  exact ⟨compiled, after, ran, ⟨_, plan, merged, found⟩, ⟨_, found'⟩⟩

end LazyMapper
