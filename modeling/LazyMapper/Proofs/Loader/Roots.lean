import LazyMapper.Model.Catalogue
import LazyMapper.Proofs.Loader.Alike
import LazyMapper.Proofs.Loader.Indexing

/-!
# The choice of a root

An option that names no root starts from one of the statement's entities. Among several the root
is the only one that has what the option is about: the first relationship of its path or, without
a path, the attribute or group of its directive (`FlatOption.root_eq_ok_iff_ownedBy`). Where
nobody has it, or more than one, the option is refused.

So nothing is ever chosen among candidates, and the order in which the entities are given has no
say: the options make the same tree, or they are refused for a reason of one kind
(`OptionTree.build_perm`).
-/

set_option autoImplicit false

namespace LazyMapper

/-! ## Owners -/

/-- The entity has the attribute or group that a directive is about. Nobody owns the directives
about all attributes. -/
def Directive.ownedBy (directive : Directive) (entity : Entity) : Bool :=
  match directive with
  | .defer (.named name) _ | .undefer (.named name) => (entity.field? name).isSome
  | .undeferGroup group => entity.hasGroup group
  | .defer .all _ | .undefer .all | .loadOnly .. => false

/-- Nobody owns a directive about all attributes. -/
theorem Directive.isSweeping_eq_false_of_ownedBy {directive : Directive} {entity : Entity}
    (owned : directive.ownedBy entity) : directive.isSweeping = false := by
  match directive with
  | .defer (.named _) _ | .undefer (.named _) | .undeferGroup _ => rfl
  | .defer .all _ | .undefer .all | .loadOnly .. => cases owned

namespace FlatOption

/-- The entity has what an option is about: the first relationship of its path or, without a path,
what its directive is about. -/
def ownedBy (option : FlatOption) (entity : Entity) : Bool :=
  match option.path, option.directive? with
  | first :: _, _ => (entity.relationship? first).isSome
  | [], some directive => directive.ownedBy entity
  | [], none => false

variable {entities permuted : List Entity} {root : Entity} {option : FlatOption}

theorem onlyOne_eq_ok {candidates : List Entity} {nobody : LoaderFault}
    {several : List String → LoaderFault} :
    onlyOne candidates nobody several = .ok root ↔ candidates = [root] := by
  unfold onlyOne
  split <;> simp_all

theorem mem_of_filter_eq_singleton {owns : Entity → Bool}
    (only : entities.filter owns = [root]) : root ∈ entities ∧ owns root :=
  List.mem_filter.mp (only ▸ List.mem_singleton_self root)

/-- The owner of a directive is the only entity that has what it is about. -/
theorem ownerOf_eq_ok {label : String} {directive : Directive} :
    ownerOf entities label directive = .ok root ↔ entities.filter directive.ownedBy = [root] := by
  unfold ownerOf
  split
  case h_4 | h_5 | h_6 =>
      refine iff_of_false nofun fun only => ?_
      cases (mem_of_filter_eq_singleton only).2
  all_goals exact onlyOne_eq_ok

/-- **The root of an option that names none**, among several entities, is the only one that has
what the option is about. -/
theorem root_eq_ok_iff_ownedBy (several : 1 < entities.length) (unnamed : option.root? = none) :
    option.root entities = .ok root ↔ entities.filter option.ownedBy = [root] := by
  obtain ⟨root?, path, directive?, label⟩ := option
  obtain rfl : root? = none := unnamed
  have apart : entities.length ≠ 1 := Nat.ne_of_gt several
  rw [root_of_length_ne_one apart]
  match path, directive? with
  | first :: rest, _ =>
    simp only [rootOfPath_of_length_ne_one apart]
    exact onlyOne_eq_ok
  | [], some directive => exact ownerOf_eq_ok
  | [], none =>
    refine iff_of_false nofun fun only => ?_
    cases (mem_of_filter_eq_singleton only).2

/-- Without a path, what an option is about is that of a directive which is not about all
attributes. -/
theorem exists_directive_of_ownedBy (pathless : option.path = [])
    (only : entities.filter option.ownedBy = [root]) :
    ∃ directive, option.directive? = some directive ∧ directive.isSweeping = false ∧
      entities.filter directive.ownedBy = [root] := by
  obtain ⟨root?, path, directive?, label⟩ := option
  obtain rfl : path = [] := pathless
  have owned := (mem_of_filter_eq_singleton only).2
  cases directive? with
  | none => cases owned
  | some directive =>
      exact ⟨directive, rfl, Directive.isSweeping_eq_false_of_ownedBy owned, only⟩

end FlatOption

/-! ## Entities in another order -/

namespace OptionTree

variable {entities permuted : List Entity}

/-- Attaching options does not depend on the order of the entities. -/
theorem attach_alike (same : entities.Perm permuted) (tree : OptionTree)
    (flats : List FlatOption) :
    EndsAlike (· = ·) (tree.attach entities flats) (tree.attach permuted flats) := by
  induction flats generalizing tree with
  | nil => exact .ok rfl
  | cons flat rest ih =>
      rw [attach, attach]
      refine (FlatOption.checkedRoot_alike same rfl rfl fun _ => rfl).bind ?_
      rintro root _ rfl
      cases flat.directive? with
      | none => exact ih tree
      | some directive => exact ih _

/-- A built tree holds the directive of every option at its path below its root. -/
theorem mem_directivesAt_of_build {tree : OptionTree} {options : List LoaderOption}
    {flats : List FlatOption} (built : build entities options = .ok tree)
    (flattened : LoaderOption.flattenAll options = .ok flats) {flat : FlatOption}
    (member : flat ∈ flats) :
    ∃ root, flat.root entities = .ok root ∧ ∀ directive, flat.directive? = some directive →
      directive ∈ tree.directivesAt root.table flat.path := by
  obtain ⟨flats', flattened', -, checked, directives⟩ := directivesAt_build built
  obtain rfl := Except.ok.inj (flattened.symm.trans flattened')
  obtain ⟨root, owns⟩ := checked flat member
  have found := (FlatOption.checkedRoot_eq_ok.mp owns).1
  refine ⟨root, found, fun directive given => ?_⟩
  rw [directives]
  exact List.mem_filterMap.mpr ⟨flat, member,
    FlatOption.directiveAt?_eq_some.mpr ⟨root, found, rfl, rfl, given⟩⟩

/-- **The order of the entities does not matter for the options.** They make the same tree over
the entities in any order, or are refused for a reason of one kind. Among several entities the
root of an option that names none is the only one that owns the first relationship of its path or,
without a path, the attribute or group of its directive; its directive is attached there. A
directive about all attributes is refused without a path. -/
theorem build_perm (same : entities.Perm permuted) (options : List LoaderOption) :
    EndsAlike (· = ·) (build entities options) (build permuted options) ∧
      (1 < entities.length → ∀ flats, LoaderOption.flattenAll options = .ok flats →
        List.Forall₂ LoaderOption.Place.Gives (LoaderOption.placesAll options) flats ∧
        (∀ tree, build entities options = .ok tree → ∀ flat ∈ flats, flat.root? = none →
          ∃ root ∈ entities, flat.root entities = .ok root ∧
            (∀ directive, flat.directive? = some directive →
              directive ∈ tree.directivesAt root.table flat.path) ∧
            (∀ first rest, flat.path = first :: rest →
              entities.filter (fun entity => (entity.relationship? first).isSome) = [root]) ∧
            (flat.path = [] → ∃ directive, flat.directive? = some directive ∧
              entities.filter directive.ownedBy = [root])) ∧
        ∀ flat ∈ flats, flat.root? = none → flat.path = [] →
          ∀ directive, flat.directive? = some directive → directive.isSweeping →
            ∃ fault, build entities options = .error fault) := by
  refine ⟨(EndsAlike.refl _).bind ?_, fun several flats flattened => ?_⟩
  · rintro flats _ rfl
    exact attach_alike same empty flats
  -- In a built tree every unnamed root is the only owner.
  have attached : ∀ tree, build entities options = .ok tree → ∀ flat ∈ flats,
      flat.root? = none → ∃ root, flat.root entities = .ok root ∧
        entities.filter flat.ownedBy = [root] ∧ ∀ directive, flat.directive? = some directive →
          directive ∈ tree.directivesAt root.table flat.path := by
    intro tree built flat member unnamed
    obtain ⟨root, found, directives⟩ := mem_directivesAt_of_build built flattened member
    exact ⟨root, found, (FlatOption.root_eq_ok_iff_ownedBy several unnamed).mp found, directives⟩
  refine ⟨LoaderOption.flattenAll_places flattened, ?_, ?_⟩
  · intro tree built flat member unnamed
    obtain ⟨root, found, only, directives⟩ := attached tree built flat member unnamed
    refine ⟨root, (FlatOption.mem_of_filter_eq_singleton only).1, found, directives, ?_, ?_⟩
    · intro first rest path
      have owns : flat.ownedBy = fun entity => (entity.relationship? first).isSome := by
        funext entity
        simp only [FlatOption.ownedBy, path]
      rwa [owns] at only
    · intro pathless
      obtain ⟨directive, given, -, owner⟩ :=
        FlatOption.exists_directive_of_ownedBy pathless only
      exact ⟨directive, given, owner⟩
  · intro flat member unnamed pathless directive given sweeping
    cases built : build entities options with
    | error fault => exact ⟨fault, rfl⟩
    | ok tree =>
        obtain ⟨root, -, only, -⟩ := attached tree built flat member unnamed
        obtain ⟨directive', given', plain, -⟩ :=
          FlatOption.exists_directive_of_ownedBy pathless only
        obtain rfl := Option.some.inj (given.symm.trans given')
        rw [plain] at sweeping
        cases sweeping

end OptionTree

open LoaderOption in
/-- Books and authors in either order: an attribute of books, a group of authors and a path from
books find their roots, which loading some attributes only does not. -/
theorem Catalogue.books_and_authors_permuted :
    let options := [defer "isbn", undeferGroup "profile", undefer "author.photo"]
    ∃ tree, [bookEntity, authorEntity].Perm [authorEntity, bookEntity] ∧
      OptionTree.build [bookEntity, authorEntity] options = .ok tree ∧
      OptionTree.build [authorEntity, bookEntity] options = .ok tree ∧
      (∃ root ∈ [bookEntity, authorEntity],
        [bookEntity, authorEntity].filter (Directive.undeferGroup "profile").ownedBy = [root] ∧
          .undeferGroup "profile" ∈ tree.directivesAt root.table []) ∧
      ∃ fault,
        OptionTree.build [bookEntity, authorEntity] [defer "isbn", loadOnly ["bio"]] =
          .error fault := by
  intro options
  have same : [bookEntity, authorEntity].Perm [authorEntity, bookEntity] := .swap _ _ _
  obtain ⟨tree, built⟩ : ∃ tree, OptionTree.build [bookEntity, authorEntity] options = .ok tree :=
    ⟨_, rfl⟩
  obtain ⟨alike, choice⟩ := OptionTree.build_perm same options
  have either : OptionTree.build [authorEntity, bookEntity] options = .ok tree := by
    rw [built] at alike
    generalize OptionTree.build [authorEntity, bookEntity] options = other at alike ⊢
    cases alike with
    | ok results => rw [results]
  obtain ⟨-, chosen, -⟩ := choice (by decide) _ rfl
  obtain ⟨root, member, -, directives, -, owner⟩ :=
    chosen tree built ⟨none, [], some (.undeferGroup "profile"), "undefer_group(profile)"⟩
      (.tail _ (.head _)) rfl
  obtain ⟨directive, given, only⟩ := owner rfl
  obtain rfl := Option.some.inj given
  obtain ⟨-, refused⟩ := OptionTree.build_perm same [defer "isbn", loadOnly ["bio"]]
  obtain ⟨-, -, refused⟩ := refused (by decide) _ rfl
  refine ⟨tree, same, built, either, ⟨root, member, only, directives _ rfl⟩, ?_⟩
  exact refused ⟨none, [], some (.loadOnly ["bio"] false), "load_only(bio)"⟩ (.tail _ (.head _))
    rfl rfl _ rfl rfl

end LazyMapper
