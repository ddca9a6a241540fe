import LazyMapper.Model.Catalogue
import LazyMapper.Proofs.Loader.Prefix

/-!
# Flat and nested options

An option for attributes of related entities can be written in two ways: flat, with the whole
path in front of every attribute, or nested in options that only have a path. The flat form of
an option lists its directives in the order in which they are written, each as an option of its
own with the full path of the nodes around it.

Both forms build the same tree, or are refused for a reason of the same kind
(`build_nested_alike_flat`).

The nested form has more to check than the flat one, since a node without a directive looks for
its root as well. It cannot fail on its own account: the node begins with the same relationship
as the next directive below it, so the two find the same root or none (`Thins`).
-/

set_option autoImplicit false

namespace LazyMapper

namespace LoaderOption

/-! ## The flat form -/

mutual

/-- The directives of an option, each as an option with its full path written out. `base` is the
path of the nodes around the option. -/
def flatForm (base : String) : LoaderOption → List LoaderOption
  | ⟨_, path, directive?, children⟩ =>
    let here := if path.isEmpty then base else Path.extend base path
    (directive?.map fun directive => ofDirective (directive.under here)).toList ++
      flatForms here children
termination_by structural option => option

/-- The directives of a list of options, each with its full path written out. -/
def flatForms (base : String) : List LoaderOption → List LoaderOption
  | [] => []
  | option :: rest => option.flatForm base ++ flatForms base rest
termination_by structural options => options

end

/-- Options nested for the sake of their paths alone. Outer nodes have a path, which is a chain of
names, and something below it; the innermost ones have a directive that names some attribute or
group. -/
inductive IsNested : LoaderOption → Prop where
  | leaf (directive : WrittenDirective) (given : directive.references ≠ [])
      (plain : ∀ reference ∈ directive.references, reference.toList.head? ≠ some '.') :
      IsNested (ofDirective directive)
  | scope {path : Path} {children : List LoaderOption} (hops : path ≠ [])
      (names : ∀ name ∈ path, Text.isName name.toList) (bearing : children ≠ [])
      (inner : ∀ child ∈ children, IsNested child) :
      IsNested ((atPath path.toText).nest children)

theorem IsNested.root?_eq_none {option : LoaderOption} (nested : option.IsNested) :
    option.root? = none := by
  cases nested <;> rfl

theorem flattenAll_append (first second : List LoaderOption) :
    flattenAll (first ++ second) = do
      let nodes ← flattenAll first
      return nodes ++ (← flattenAll second) := by
  induction first with
  | nil =>
      simp only [List.nil_append, flattenAll]
      cases flattenAll second <;> rfl
  | cons option rest ih =>
      simp only [List.cons_append, flattenAll, ih]
      cases option.flatten option.root? [] with
      | error fault => rfl
      | ok nodes =>
          cases flattenAll rest with
          | error fault => rfl
          | ok more =>
              cases flattenAll second with
              | error fault => rfl
              | ok others => simp [bind, Except.bind, pure, Except.pure]

end LoaderOption

/-! ## Nodes without a directive -/

/-- The second list has the directives of the first one at the same paths. A node of the first
list without a directive has the first relationship of the next node of the second. -/
inductive Thins : List FlatOption → List FlatOption → Prop where
  | nil : Thins [] []
  | both {node node' : FlatOption} {rest rest' : List FlatOption} (roots : node.root? = node'.root?)
      (paths : node.path = node'.path) (directives : node.directive? = node'.directive?)
      (thins : Thins rest rest') : Thins (node :: rest) (node' :: rest')
  | bare {node next : FlatOption} {rest rest' : List FlatOption} (roots : node.root? = next.root?)
      (bare : node.directive? = none) (away : node.path ≠ [])
      (hops : node.path.head? = next.path.head?) (thins : Thins rest (next :: rest')) :
      Thins (node :: rest) (next :: rest')

theorem Thins.append {first first' second second' : List FlatOption} (front : Thins first first')
    (back : Thins second second') : Thins (first ++ second) (first' ++ second') := by
  induction front with
  | nil => exact back
  | both roots paths directives _ ih => exact .both roots paths directives ih
  | bare roots bare away hops _ ih => exact .bare roots bare away hops ih

/-- Attaching either list to a tree gives the same tree, or fails for a reason of one kind. -/
theorem Thins.attach_alike (entities : List Entity) {nodes nodes' : List FlatOption}
    (thins : Thins nodes nodes') (tree : OptionTree) :
    EndsAlike (· = ·) (tree.attach entities nodes) (tree.attach entities nodes') := by
  induction thins generalizing tree with
  | nil => exact .ok rfl
  | @both node node' rest rest' roots paths directives _ ih =>
      have hops : node.path.head? = node'.path.head? := by rw [paths]
      simp only [OptionTree.attach]
      refine (FlatOption.checkedRoot_alike (.refl entities) roots hops fun _ => directives).bind ?_
      rintro root _ rfl
      simp only [directives, paths]
      split
      · exact ih _
      · exact ih _
  | @bare node next rest rest' roots bare away hops _ ih =>
      have alike : EndsAlike (· = ·) (node.checkedRoot entities) (next.checkedRoot entities) :=
        FlatOption.checkedRoot_alike (.refl entities) roots hops fun empty => absurd empty away
      rw [OptionTree.attach, bare]
      cases found : node.checkedRoot entities with
      | ok root => exact ih tree
      | error fault =>
          rw [found] at alike
          simp only [OptionTree.attach]
          generalize next.checkedRoot entities = other at alike ⊢
          cases alike with
          | error kinds => exact .error kinds

/-! ## Flattening the two forms -/

/-- The nodes of nested options below a path against those of the flat form, which all continue
the path. -/
structure Flattens (base : Path) (nodes nodes' : List FlatOption) : Prop where
  thins : Thins nodes nodes'
  rootless : ∀ node ∈ nodes', node.root? = none
  continues : ∀ node ∈ nodes', base <+: node.path

namespace Flattens

theorem append {base : Path} {first first' second second' : List FlatOption}
    (front : Flattens base first first') (back : Flattens base second second') :
    Flattens base (first ++ second) (first' ++ second') where
  thins := front.thins.append back.thins
  rootless := fun node member =>
    (List.mem_append.mp member).elim (front.rootless node) (back.rootless node)
  continues := fun node member =>
    (List.mem_append.mp member).elim (front.continues node) (back.continues node)

/-- A node without a directive in front, whose path the nodes of the flat form continue. -/
theorem scope {base path : Path} {nodes nodes' : List FlatOption} (label : String)
    (hops : path ≠ []) (flattens : Flattens (base ++ path) nodes nodes') (some : nodes' ≠ []) :
    Flattens base (⟨none, base ++ path, none, label⟩ :: nodes) nodes' where
  thins := by
    obtain ⟨next, rest, rfl⟩ := List.exists_cons_of_ne_nil some
    have away : base ++ path ≠ [] := by simp [hops]
    obtain ⟨more, whole⟩ := flattens.continues next (by simp)
    refine .bare (flattens.rootless next (by simp)).symm rfl away ?_ flattens.thins
    rw [← whole, List.head?_append_of_ne_nil _ away]
  rootless := flattens.rootless
  continues := fun node member =>
    (List.prefix_append base path).trans (flattens.continues node member)

end Flattens

namespace LoaderOption

/-- A directive that stands alone, below a path and with the path written out. -/
theorem flatten_directive_alike {base : String} {front : Path}
    (readable : Path.read base = .ok front) (directive : WrittenDirective)
    (given : directive.references ≠ [])
    (plain : ∀ reference ∈ directive.references, reference.toList.head? ≠ some '.') :
    EndsAlike (fun nodes nodes' => Flattens front nodes nodes' ∧ nodes' ≠ [])
      ((ofDirective directive).flatten none front)
      (flattenAll [ofDirective (directive.under base)]) := by
  have alike := WrittenDirective.read_under readable directive given plain
  simp only [flattenAll, ofDirective, flatten, flattenNode, flattenNested, Path.read]
  generalize directive.read = own at alike ⊢
  generalize (directive.under base).read = whole at alike ⊢
  cases alike with
  | error kinds => exact .error kinds
  | @ok named whole same =>
      subst same
      refine .ok ⟨⟨?_, ?_, ?_⟩, by simp⟩
      · exact .both rfl (by simp) rfl .nil
      · simp
      · simp

/-- A list of options, each of which flattens like its flat form. -/
theorem flattenNested_alike {base : String} {front : Path} {children : List LoaderOption}
    (nested : ∀ child ∈ children, child.IsNested)
    (alike : ∀ child ∈ children,
      EndsAlike (fun nodes nodes' => Flattens front nodes nodes' ∧ nodes' ≠ [])
        (child.flatten none front) (flattenAll (child.flatForm base))) :
    EndsAlike (fun nodes nodes' => Flattens front nodes nodes' ∧ (children ≠ [] → nodes' ≠ []))
      (flattenNested none front children) (flattenAll (flatForms base children)) := by
  induction children with
  | nil => exact .ok ⟨⟨.nil, by simp, by simp⟩, by simp⟩
  | cons child rest ih =>
      have rootless := (nested child (by simp)).root?_eq_none
      have rest := ih (fun other member => nested other (List.mem_cons_of_mem _ member))
        fun other member => alike other (List.mem_cons_of_mem _ member)
      simp only [flattenNested, flatForms, flattenAll_append, rootless]
      refine (alike child (by simp)).bind ?_
      rintro nodes nodes' ⟨first, some⟩
      refine rest.bind ?_
      rintro more more' ⟨others, -⟩
      exact .ok ⟨first.append others, by simp [some]⟩

/-- **Nested options and their flat form have the same directives at the same paths**, or are
refused for a reason of one kind. -/
theorem flatten_alike {option : LoaderOption} (nested : option.IsNested) :
    ∀ {base : String} {front : Path}, Path.read base = .ok front →
      EndsAlike (fun nodes nodes' => Flattens front nodes nodes' ∧ nodes' ≠ [])
        (option.flatten none front) (flattenAll (option.flatForm base)) := by
  induction nested with
  | leaf directive given plain =>
      intro base front readable
      have form : (ofDirective directive).flatForm base =
          [ofDirective (directive.under base)] := by
        simp [ofDirective, flatForm, flatForms]
      rw [form]
      exact flatten_directive_alike readable directive given plain
  | @scope path children hops names bearing inner ih =>
      intro base front readable
      have written := Path.toText_ne_empty hops names
      have hop := Path.read_toText hops names
      obtain ⟨whole, there, rfl⟩ : ∃ whole, Path.read (Path.extend base path.toText) = .ok whole ∧
          whole = front ++ path := by
        have alike := Path.read_extend readable written
        rw [hop] at alike
        generalize Path.read (Path.extend base path.toText) = whole at alike ⊢
        cases alike with
        | ok same => exact ⟨_, rfl, same⟩
      have form : ((atPath path.toText).nest children).flatForm base =
          flatForms (Path.extend base path.toText) children := by
        simp [atPath, nest, flatForm, written]
      have below := flattenNested_alike inner fun child member => ih child member there
      rw [form]
      simp only [atPath, nest, List.nil_append, flatten, flattenNode, hop]
      generalize flattenAll (flatForms (Path.extend base path.toText) children) = flat at below ⊢
      generalize nodes : flattenNested none (front ++ path) children = inside at below ⊢
      simp only [bind, Except.bind, nodes]
      cases below with
      | error kinds => exact .error kinds
      | ok related =>
          obtain ⟨flattens, some⟩ := related
          exact .ok ⟨flattens.scope _ hops (some bearing), some bearing⟩

/-- The outermost options of a statement flatten like their flat forms. -/
theorem flattenAll_alike {forest : List LoaderOption}
    (nested : ∀ option ∈ forest, option.IsNested) :
    EndsAlike Thins (flattenAll forest) (flattenAll (flatForms "" forest)) := by
  induction forest with
  | nil => exact .ok .nil
  | cons option rest ih =>
      have rootless := (nested option (by simp)).root?_eq_none
      simp only [flatForms, flattenAll_append]
      rw [flattenAll, rootless]
      refine (flatten_alike (nested option (by simp)) rfl).bind ?_
      rintro nodes nodes' ⟨first, -⟩
      refine (ih fun other member => nested other (List.mem_cons_of_mem _ member)).bind ?_
      rintro more more' others
      exact .ok (first.thins.append others)

end LoaderOption

/-! ## The trees of the two forms -/

namespace OptionTree

/-- **Nested options mean what their flat form means**: over any entities both build the same
tree, or both are refused for a reason of one kind. -/
theorem build_nested_alike_flat (entities : List Entity) (forest : List LoaderOption)
    (nested : ∀ option ∈ forest, option.IsNested) :
    EndsAlike (· = ·) (build entities forest)
      (build entities (LoaderOption.flatForms "" forest)) := by
  refine (LoaderOption.flattenAll_alike nested).bind ?_
  intro nodes nodes' thins
  exact thins.attach_alike entities empty

open LoaderOption in
/-- Two directives below one relationship, and one that stands alone. -/
theorem build_author_options_alike :
    EndsAlike (· = ·)
      (build [Catalogue.bookEntity]
        [(atPath "author").nest [defer "bio", loadOnly ["publisher.name", "publisher.city"]],
          undeferGroup "media"])
      (build [Catalogue.bookEntity]
        [defer "author.bio", loadOnly ["author.publisher.name", "author.publisher.city"],
          undeferGroup "media"]) := by
  have leaves : ∀ option ∈ [defer "bio", loadOnly ["publisher.name", "publisher.city"]],
      option.IsNested := by
    simp only [List.mem_cons, List.not_mem_nil, or_false, forall_eq_or_imp, forall_eq]
    exact ⟨.leaf _ (by decide) (by decide), .leaf _ (by decide) (by decide)⟩
  have scope : ((atPath "author").nest
      [defer "bio", loadOnly ["publisher.name", "publisher.city"]]).IsNested :=
    have hops : ["author"] ≠ [] := by decide
    .scope hops (by decide) (by simp) leaves
  refine build_nested_alike_flat [Catalogue.bookEntity] [_, undeferGroup "media"] ?_
  simp only [List.mem_cons, List.not_mem_nil, or_false, forall_eq_or_imp, forall_eq]
  exact ⟨scope, .leaf _ (by decide) (by decide)⟩

end OptionTree

end LazyMapper
