import LazyMapper.Model.Catalogue
import LazyMapper.Proofs.Loader.Forest
import LazyMapper.Proofs.Loader.Places

/-!
# Option trees as an index

A built tree answers for every root table and path which directives the flattened options attach
there (`OptionTree.directivesAt_build`). It is canonical, so it has a node only where something
is attached there or below, and two built trees with the same answers are the same tree
(`OptionTree.build_indexes`).
-/

set_option autoImplicit false

namespace LazyMapper

namespace FlatOption

/-- The directive that an option attaches at a path below a root table, if it attaches one
there. -/
def directiveAt? (entities : List Entity) (table : String) (path : Path) (option : FlatOption) :
    Option Directive :=
  match option.root entities with
  | .ok root => if root.table = table ∧ option.path = path then option.directive? else none
  | .error _ => none

theorem directiveAt?_eq_some {entities : List Entity} {table : String} {path : Path}
    {option : FlatOption} {directive : Directive} :
    option.directiveAt? entities table path = some directive ↔
      ∃ root, option.root entities = .ok root ∧ root.table = table ∧ option.path = path ∧
        option.directive? = some directive := by
  unfold directiveAt?
  cases option.root entities with
  | error fault => exact iff_of_false nofun fun ⟨_, ok, _⟩ => nomatch ok
  | ok root => simp [and_assoc]

/-- Something is attached at a path when it is the path of an option that has a directive. -/
theorem filterMap_directiveAt?_ne_nil {entities : List Entity} {table : String} {path : Path}
    {flats : List FlatOption} :
    flats.filterMap (·.directiveAt? entities table path) ≠ [] ↔
      ∃ flat ∈ flats, ∃ root, flat.root entities = .ok root ∧ root.table = table ∧
        flat.path = path ∧ flat.directive?.isSome := by
  constructor
  · intro there
    obtain ⟨directive, attached⟩ := List.exists_mem_of_ne_nil _ there
    obtain ⟨flat, member, attachedBy⟩ := List.mem_filterMap.mp attached
    obtain ⟨root, found, same, here, given⟩ := directiveAt?_eq_some.mp attachedBy
    exact ⟨flat, member, root, found, same, here, Option.isSome_iff_exists.mpr ⟨_, given⟩⟩
  · rintro ⟨flat, member, root, found, same, here, bears⟩
    obtain ⟨directive, given⟩ := Option.isSome_iff_exists.mp bears
    exact List.ne_nil_of_mem (List.mem_filterMap.mpr
      ⟨flat, member, directiveAt?_eq_some.mpr ⟨root, found, same, here, given⟩⟩)

/-- The checked root of an option is its root, which has the first relationship of the path. -/
theorem checkedRoot_eq_ok {entities : List Entity} {option : FlatOption} {root : Entity} :
    option.checkedRoot entities = .ok root ↔ option.root entities = .ok root ∧
      ∀ first rest, option.path = first :: rest → (root.relationship? first).isSome := by
  unfold checkedRoot
  cases option.root entities with
  | error fault => exact iff_of_false nofun fun both => nomatch both.1
  | ok entity =>
      cases path : option.path with
      | nil => exact ⟨fun ok => ⟨ok, nofun⟩, And.left⟩
      | cons first rest =>
          simp only [bind, Except.bind]
          cases missing : entity.relationship? first with
          | none =>
              refine iff_of_false nofun fun ⟨same, owns⟩ => ?_
              obtain rfl := Except.ok.inj same
              simpa [missing] using owns first rest rfl
          | some relationship =>
              refine ⟨fun ok => ?_, And.left⟩
              obtain rfl := Except.ok.inj ok
              refine ⟨rfl, fun first rest same => ?_⟩
              obtain ⟨rfl, -⟩ := List.cons.inj same
              rw [missing]
              rfl

end FlatOption

namespace OptionTree

variable {entities : List Entity} {tree after : OptionTree} {options : List FlatOption}

theorem directivesAt_insert (canonical : tree.roots.Canonical) (table asked : String)
    (path query : Path) (directive : Directive) :
    (tree.insert table path directive).directivesAt asked query =
      tree.directivesAt asked query ++
        if table = asked ∧ path = query then [directive] else [] := by
  refine (canonical.attached_insert directive (table :: path) (asked :: query)).trans ?_
  refine congrArg (tree.directivesAt asked query ++ ·) (if_congr ?_ rfl rfl)
  simp [eq_comm]

/-- The directives below a root table are those at the node of the table and below it. -/
theorem directivesAt_of_subtree? {table : String} {node : OptionNode}
    (found : tree.subtree? table [] = some node) (path : Path) : tree.directivesAt table path =
      if path = [] then node.directives else node.below.attached path := by
  refine Eq.trans ?_ (OptionNode.attached_eq node.directives node.below path)
  unfold subtree? at found
  rw [OptionNode.descend] at found
  obtain ⟨_, child, same⟩ := Option.bind_eq_some_iff.mp found
  obtain rfl := Option.some.inj same
  unfold directivesAt subtree?
  rw [OptionNode.descend, child]
  rfl

theorem directivesAt_of_subtree?_eq_none {table : String}
    (nothing : tree.subtree? table [] = none) (path : Path) :
    tree.directivesAt table path = [] := by
  unfold subtree? at nothing
  rw [OptionNode.descend] at nothing
  unfold directivesAt subtree?
  rw [OptionNode.descend]
  cases child : tree.roots.child? table with
  | none => rfl
  | some node =>
      rw [child] at nothing
      cases nothing

/-- Attaching succeeds when the root of every option is found and owns what it should. -/
theorem attach_succeeds_iff : (∃ after, tree.attach entities options = .ok after) ↔
    ∀ option ∈ options, ∃ root, option.checkedRoot entities = .ok root := by
  induction options generalizing tree with
  | nil => exact iff_of_true ⟨tree, rfl⟩ nofun
  | cons option rest ih =>
      rw [attach, List.forall_mem_cons]
      cases option.checkedRoot entities with
      | error fault => exact iff_of_false nofun fun both => nomatch both.1
      | ok root =>
          rw [and_iff_right ⟨root, rfl⟩]
          cases option.directive? with
          | none => exact ih
          | some directive => exact ih

/-- **Attaching options adds their directives in their order**, each at its path below its root,
and keeps a tree canonical. -/
theorem directivesAt_attach (canonical : tree.roots.Canonical)
    (ok : tree.attach entities options = .ok after) :
    after.roots.Canonical ∧ ∀ table path, after.directivesAt table path =
      tree.directivesAt table path ++ options.filterMap (·.directiveAt? entities table path) := by
  induction options generalizing tree with
  | nil =>
      obtain rfl := Except.ok.inj ok
      exact ⟨canonical, fun table path => (List.append_nil _).symm⟩
  | cons option rest ih =>
      obtain ⟨root, checked, ok⟩ := exists_of_bind_eq_ok ok
      have found := (FlatOption.checkedRoot_eq_ok.mp checked).1
      cases given : option.directive? with
      | none =>
          rw [given] at ok
          obtain ⟨canonical', attached⟩ := ih canonical ok
          refine ⟨canonical', fun table path => ?_⟩
          have nothing : option.directiveAt? entities table path = none := by
            simp [FlatOption.directiveAt?, found, given]
          rw [attached, List.filterMap_cons_none nothing]
      | some directive =>
          rw [given] at ok
          have grown : (tree.insert root.table option.path directive).roots.Canonical :=
            canonical.insert _ _
          obtain ⟨canonical', attached⟩ := ih grown ok
          refine ⟨canonical', fun table path => ?_⟩
          rw [attached, directivesAt_insert canonical, List.append_assoc]
          refine congrArg (tree.directivesAt table path ++ ·) ?_
          by_cases here : root.table = table ∧ option.path = path
          · have added : option.directiveAt? entities table path = some directive := by
              simp [FlatOption.directiveAt?, found, given, here]
            rw [if_pos here, List.filterMap_cons_some added, List.singleton_append]
          · have nothing : option.directiveAt? entities table path = none := by
              simp [FlatOption.directiveAt?, found, here]
            rw [if_neg here, List.filterMap_cons_none nothing, List.nil_append]

/-- What a built tree holds, over the flattened options. -/
theorem directivesAt_build {written : List LoaderOption}
    (built : build entities written = .ok tree) :
    ∃ flats, LoaderOption.flattenAll written = .ok flats ∧ tree.roots.Canonical ∧
      (∀ flat ∈ flats, ∃ root, flat.checkedRoot entities = .ok root) ∧
      ∀ table path, tree.directivesAt table path =
        flats.filterMap (·.directiveAt? entities table path) := by
  obtain ⟨flats, flat, attached⟩ := exists_of_bind_eq_ok built
  have start : empty.roots.Canonical := trivial
  obtain ⟨canonical, directives⟩ := directivesAt_attach start attached
  refine ⟨flats, flat, canonical, attach_succeeds_iff.mp ⟨tree, attached⟩, fun table path => ?_⟩
  rw [directives]
  rfl

/-- Two canonical trees are the same when they have the same directives everywhere. -/
theorem eq_iff_directivesAt {other : OptionTree} (canonical : tree.roots.Canonical)
    (canonical' : other.roots.Canonical) : tree = other ↔
      ∀ table path, tree.directivesAt table path = other.directivesAt table path := by
  refine ⟨fun same _ _ => by rw [same], fun same => ?_⟩
  obtain ⟨roots⟩ := tree
  obtain ⟨roots'⟩ := other
  refine congrArg OptionTree.mk (canonical.ext canonical' fun path => ?_)
  cases path with
  | nil => rfl
  | cons table rest => exact same table rest

/-- **A built tree is a faithful index of its options.** -/
theorem build_indexes {written : List LoaderOption} (built : build entities written = .ok tree) :
    ∃ flats, LoaderOption.flattenAll written = .ok flats ∧
      List.Forall₂ LoaderOption.Place.Gives (LoaderOption.placesAll written) flats ∧
      (∀ flat ∈ flats, ∃ root, flat.root entities = .ok root) ∧
      (∀ table path, tree.directivesAt table path =
        flats.filterMap (·.directiveAt? entities table path)) ∧
      (∀ table path, (tree.subtree? table path).isSome ↔
        ∃ flat ∈ flats, ∃ root, flat.root entities = .ok root ∧ root.table = table ∧
          path <+: flat.path ∧ flat.directive?.isSome) ∧
      (tree.isEmpty ↔ ∀ flat ∈ flats, flat.directive? = none) ∧
      ∀ {entities' : List Entity} {written' : List LoaderOption} {other : OptionTree},
        build entities' written' = .ok other →
          (tree = other ↔
            ∀ table path, tree.directivesAt table path = other.directivesAt table path) := by
  obtain ⟨flats, flattened, canonical, checked, directives⟩ := directivesAt_build built
  have rooted : ∀ flat ∈ flats, ∃ root, flat.root entities = .ok root := by
    intro flat member
    obtain ⟨root, found⟩ := checked flat member
    exact ⟨root, (FlatOption.checkedRoot_eq_ok.mp found).1⟩
  have attached (table : String) (path : Path) : tree.directivesAt table path ≠ [] ↔
      ∃ flat ∈ flats, ∃ root, flat.root entities = .ok root ∧ root.table = table ∧
        flat.path = path ∧ flat.directive?.isSome := by
    rw [directives]
    exact FlatOption.filterMap_directiveAt?_ne_nil
  refine ⟨flats, flattened, LoaderOption.flattenAll_places flattened, rooted, directives,
    fun table path => ?_, ?_, fun built' => ?_⟩
  · refine (canonical.isSome_descend_iff (List.cons_ne_nil table path)).trans ⟨?_, ?_⟩
    · rintro ⟨rest, there⟩
      obtain ⟨flat, member, root, found, same, here, bears⟩ :=
        (attached table (path ++ rest)).mp there
      exact ⟨flat, member, root, found, same, ⟨rest, here.symm⟩, bears⟩
    · rintro ⟨flat, member, root, found, same, ⟨rest, here⟩, bears⟩
      exact ⟨rest, (attached table (path ++ rest)).mpr
        ⟨flat, member, root, found, same, here.symm, bears⟩⟩
  · rw [isEmpty, beq_iff_eq, canonical.eq_empty_iff]
    refine ⟨fun nothing flat member => ?_, fun nothing path => ?_⟩
    · obtain ⟨root, found⟩ := rooted flat member
      by_contra bears
      exact (attached root.table flat.path).mpr
        ⟨flat, member, root, found, rfl, rfl, Option.isSome_iff_ne_none.mpr bears⟩
        (nothing (root.table :: flat.path))
    · cases path with
      | nil => rfl
      | cons table path =>
          by_contra there
          obtain ⟨flat, member, -, -, -, -, bears⟩ := (attached table path).mp there
          rw [nothing flat member] at bears
          cases bears
  · obtain ⟨-, -, canonical', -, -⟩ := directivesAt_build built'
    exact eq_iff_directivesAt canonical canonical'

end OptionTree

open LoaderOption in
/-- A flat option and a nested one meet at the author of a book, in the order in which they are
written. -/
theorem Catalogue.book_options_indexed :
    ∃ tree, OptionTree.build [bookEntity] [defer "author.bio", undeferGroup "media",
        (atPath "author").nest [undefer "photo", loadOnly ["publisher.name"]]] = .ok tree ∧
      tree.directivesAt "books" ["author"] =
        [.defer (.named "bio") false, .undefer (.named "photo")] ∧
      ¬ tree.isEmpty := by
  have flattened : flattenAll [defer "author.bio", undeferGroup "media",
      (atPath "author").nest [undefer "photo", loadOnly ["publisher.name"]]] = .ok [
        ⟨none, ["author"], some (.defer (.named "bio") false), "defer(author.bio)"⟩,
        ⟨none, [], some (.undeferGroup "media"), "undefer_group(media)"⟩,
        ⟨none, ["author"], none, "defaultload(author)"⟩,
        ⟨none, ["author"], some (.undefer (.named "photo")), "undefer(photo)"⟩,
        ⟨none, ["author", "publisher"], some (.loadOnly ["name"] false),
          "load_only(publisher.name)"⟩] := rfl
  obtain ⟨tree, built⟩ : ∃ tree, OptionTree.build [bookEntity] [defer "author.bio",
      undeferGroup "media", (atPath "author").nest [undefer "photo",
        loadOnly ["publisher.name"]]] = .ok tree := ⟨_, rfl⟩
  obtain ⟨flats, flattened', -, -, directives, -, nothing, -⟩ := OptionTree.build_indexes built
  obtain rfl := Except.ok.inj (flattened.symm.trans flattened')
  refine ⟨tree, built, directives "books" ["author"], fun empty => ?_⟩
  cases nothing.mp empty _ List.mem_cons_self

end LazyMapper
