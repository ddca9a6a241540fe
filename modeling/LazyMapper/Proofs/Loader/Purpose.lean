import LazyMapper.Proofs.Loader.Indexing

/-!
# Options with a purpose

An option with a path and no directive of its own only scopes the options nested in it. Nested
options have a purpose when every such option has a directive somewhere below it
(`LoaderOption.Purposeful`). Flattened, each of their nodes with a path then has a node with a
directive whose path continues its own (`LoaderOption.Purposeful.exists_bearing`).

The root of a path depends on its first relationship only (`FlatOption.root_of_first`), so the two
nodes have the same root. It is one of the entities of the statement, or named by the option and
equal to one as far as entities are compared (`FlatOption.mem_of_root`).
-/

set_option autoImplicit false

namespace LazyMapper

namespace LoaderOption

/-- The option or an option nested in it has a directive. -/
inductive Bears : LoaderOption → Prop where
  | here {option : LoaderOption} (own : option.directive?.isSome) : Bears option
  | nested {option child : LoaderOption} (member : child ∈ option.children)
    (bears : Bears child) : Bears option

/-- Every option that has a path and no directive, here or below, has a directive below it. -/
inductive Purposeful : LoaderOption → Prop where
  | intro {option : LoaderOption}
    (scopes : option.directive? = none → option.path ≠ "" → option.Bears)
    (nested : ∀ child ∈ option.children, Purposeful child) : Purposeful option

/-! ## Nodes of nested options -/

variable {option : LoaderOption} {options : List LoaderOption} {root? : Option Entity}
  {base : Path} {nodes : List FlatOption}

/-- A flattened option has the node of the option itself, then those of its nested options. -/
theorem flatten_eq_ok (ok : option.flatten root? base = .ok nodes) :
    ∃ hop node more, Path.read option.path = .ok hop ∧ base ++ hop <+: node.path ∧
      node.root? = root? ∧ (option.directive?.isSome → node.directive?.isSome) ∧
      (node.directive? = none → node.path = base ++ hop) ∧
      flattenNested root? (base ++ hop) option.children = .ok more ∧ nodes = node :: more := by
  obtain ⟨ownRoot, path, directive?, children⟩ := option
  rw [flatten] at ok
  obtain ⟨hop, read, ok⟩ := exists_of_bind_eq_ok ok
  obtain ⟨node, own, ok⟩ := exists_of_bind_eq_ok ok
  obtain ⟨more, nested, ok⟩ := exists_of_bind_eq_ok ok
  obtain rfl := Except.ok.inj ok
  refine ⟨hop, node, more, read, ?_, ?_, ?_, ?_, nested, rfl⟩
  all_goals
    cases directive? with
    | none =>
        obtain rfl := Except.ok.inj own
        simp
    | some written =>
        obtain ⟨⟨reach, directive⟩, -, own⟩ := exists_of_bind_eq_ok own
        obtain rfl := Except.ok.inj own
        simp

/-- The nodes of nested options are those of each of them. -/
theorem mem_flattenNested (ok : flattenNested root? base options = .ok nodes) {node : FlatOption} :
    node ∈ nodes ↔
      ∃ child ∈ options, ∃ own, child.flatten root? base = .ok own ∧ node ∈ own := by
  induction options generalizing nodes with
  | nil =>
      obtain rfl := Except.ok.inj ok
      simp
  | cons first rest ih =>
      rw [flattenNested] at ok
      split at ok
      · cases ok
      · obtain ⟨here, flat, ok⟩ := exists_of_bind_eq_ok ok
        obtain ⟨more, later, ok⟩ := exists_of_bind_eq_ok ok
        obtain rfl := Except.ok.inj ok
        simp [ih later, flat]

/-- Nested options are flattened one by one. -/
theorem exists_of_flattenNested (ok : flattenNested root? base options = .ok nodes)
    {child : LoaderOption} (member : child ∈ options) :
    ∃ own, child.flatten root? base = .ok own ∧ own ⊆ nodes := by
  induction options generalizing nodes with
  | nil => cases member
  | cons first rest ih =>
      rw [flattenNested] at ok
      split at ok
      · cases ok
      · obtain ⟨here, flat, ok⟩ := exists_of_bind_eq_ok ok
        obtain ⟨more, later, ok⟩ := exists_of_bind_eq_ok ok
        obtain rfl := Except.ok.inj ok
        rcases List.mem_cons.mp member with rfl | member
        · exact ⟨here, flat, List.subset_append_left _ _⟩
        · obtain ⟨own, flat', included⟩ := ih later member
          exact ⟨own, flat', fun _ inside => List.mem_append_right _ (included inside)⟩

theorem mem_flattenAll (ok : flattenAll options = .ok nodes) {node : FlatOption} :
    node ∈ nodes ↔
      ∃ option ∈ options, ∃ own, option.flatten option.root? [] = .ok own ∧ node ∈ own := by
  induction options generalizing nodes with
  | nil =>
      obtain rfl := Except.ok.inj ok
      simp
  | cons first rest ih =>
      rw [flattenAll] at ok
      obtain ⟨here, flat, ok⟩ := exists_of_bind_eq_ok ok
      obtain ⟨more, later, ok⟩ := exists_of_bind_eq_ok ok
      obtain rfl := Except.ok.inj ok
      simp [ih later, flat]

/-! ## Nodes with directives -/

/-- An option that bears a directive has a node with one, whose path continues that of the
option. -/
theorem Bears.exists_bearing (bears : option.Bears) (ok : option.flatten root? base = .ok nodes)
    {hop : Path} (read : Path.read option.path = .ok hop) :
    ∃ bearing ∈ nodes, bearing.directive?.isSome ∧ base ++ hop <+: bearing.path := by
  induction bears generalizing base nodes hop with
  | here own =>
      obtain ⟨_, node, _, read', continues, -, bears, -, -, rfl⟩ := flatten_eq_ok ok
      obtain rfl := Except.ok.inj (read.symm.trans read')
      exact ⟨node, List.mem_cons_self, bears own, continues⟩
  | nested member _ ih =>
      obtain ⟨_, _, _, read', -, -, -, -, nested, rfl⟩ := flatten_eq_ok ok
      obtain rfl := Except.ok.inj (read.symm.trans read')
      obtain ⟨own, flat, included⟩ := exists_of_flattenNested nested member
      obtain ⟨_, _, _, readChild, -⟩ := flatten_eq_ok flat
      obtain ⟨bearing, there, bears, continues⟩ := ih flat readChild
      exact ⟨bearing, List.mem_cons_of_mem _ (included there), bears,
        (List.prefix_append _ _).trans continues⟩

/-- **Below every node of a purposeful option there is one with a directive**, unless the path of
the node adds nothing to that of the option around. -/
theorem Purposeful.exists_bearing (purposeful : option.Purposeful)
    (ok : option.flatten root? base = .ok nodes) :
    ∀ node ∈ nodes, node.path = base ∨
      ∃ bearing ∈ nodes, bearing.directive?.isSome ∧ node.path <+: bearing.path := by
  induction purposeful generalizing base nodes with
  | @intro option scopes _ ih =>
      intro node member
      obtain ⟨hop, first, more, read, continues, -, bears, scope, nested, rfl⟩ := flatten_eq_ok ok
      -- This holds of the path of the option, which its own node and nested ones may repeat.
      have whole : base ++ hop = base ∨ ∃ bearing ∈ first :: more,
          bearing.directive?.isSome ∧ base ++ hop <+: bearing.path := by
        cases own : option.directive? with
        | some directive =>
            exact .inr ⟨first, List.mem_cons_self, bears (by rw [own]; rfl), continues⟩
        | none =>
            by_cases pathless : option.path = ""
            · rw [pathless] at read
              obtain rfl : [] = hop := Except.ok.inj read
              exact .inl (List.append_nil _)
            · exact .inr ((scopes own pathless).exists_bearing ok read)
      rcases List.mem_cons.mp member with rfl | later
      · cases own : node.directive? with
        | some directive => exact .inr ⟨node, member, by rw [own]; rfl, List.prefix_rfl⟩
        | none => rwa [scope own]
      · obtain ⟨child, inside, own, flat, here⟩ := (mem_flattenNested nested).mp later
        rcases ih child inside flat node here with same | ⟨bearing, there, bears, continues⟩
        · rwa [same]
        · refine .inr ⟨bearing, List.mem_cons_of_mem _ ?_, bears, continues⟩
          exact (mem_flattenNested nested).mpr ⟨child, inside, own, flat, there⟩

/-- All nodes of an option have its root. -/
theorem Purposeful.root?_of_mem (purposeful : option.Purposeful)
    (ok : option.flatten root? base = .ok nodes) : ∀ node ∈ nodes, node.root? = root? := by
  induction purposeful generalizing base nodes with
  | intro _ _ ih =>
      intro node member
      obtain ⟨_, own, _, -, -, root, -, -, nested, rfl⟩ := flatten_eq_ok ok
      rcases List.mem_cons.mp member with rfl | later
      · exact root
      · obtain ⟨child, inside, _, flat, here⟩ := (mem_flattenNested nested).mp later
        exact ih child inside flat node here

/-- The nodes of purposeful options: each has the root of an outermost option and, if it has a
path, a node with the same root that has a directive and continues the path. -/
theorem exists_bearing_of_flattenAll (purposeful : ∀ option ∈ options, option.Purposeful)
    (ok : flattenAll options = .ok nodes) {node : FlatOption} (member : node ∈ nodes) :
    (∃ option ∈ options, node.root? = option.root?) ∧ (node.path = [] ∨
      ∃ bearing ∈ nodes, bearing.directive?.isSome ∧ bearing.root? = node.root? ∧
        node.path <+: bearing.path) := by
  obtain ⟨option, outermost, own, flat, here⟩ := (mem_flattenAll ok).mp member
  have root := (purposeful option outermost).root?_of_mem flat
  refine ⟨⟨option, outermost, root node here⟩, ?_⟩
  rcases (purposeful option outermost).exists_bearing flat node here with
    pathless | ⟨bearing, there, bears, continues⟩
  · exact .inl pathless
  · refine .inr ⟨bearing, ?_, bears, ?_, continues⟩
    · exact (mem_flattenAll ok).mpr ⟨option, outermost, own, flat, there⟩
    · rw [root bearing there, root node here]

end LoaderOption

/-! ## Roots -/

namespace FlatOption

variable {entities : List Entity} {option other : FlatOption} {root : Entity}

/-- The candidate that is found is one of the candidates. -/
theorem mem_of_onlyOne {candidates : List Entity} {nobody : LoaderFault}
    {several : List String → LoaderFault} (ok : onlyOne candidates nobody several = .ok root) :
    root ∈ candidates := by
  match candidates, ok with
  | [entity], ok =>
      obtain rfl := Except.ok.inj ok
      exact List.mem_singleton_self _

theorem mem_of_rootOfPath {first label : String} (ok : rootOfPath entities first label = .ok root) :
    root ∈ entities := by
  unfold rootOfPath at ok
  split at ok
  · obtain rfl := Except.ok.inj ok
    exact List.mem_singleton_self _
  · exact List.mem_of_mem_filter (mem_of_onlyOne ok)

theorem mem_of_ownerOf {label : String} {directive : Directive}
    (ok : ownerOf entities label directive = .ok root) : root ∈ entities := by
  unfold ownerOf at ok
  split at ok
  · exact List.mem_of_mem_filter (mem_of_onlyOne ok)
  · exact List.mem_of_mem_filter (mem_of_onlyOne ok)
  · exact List.mem_of_mem_filter (mem_of_onlyOne ok)
  all_goals cases ok

/-- **The root of an option is one of the entities**, or the root that it names and one of the
entities compares equal to. -/
theorem mem_of_root (ok : option.root entities = .ok root) :
    root ∈ entities ∨ option.root? = some root ∧ entities.contains root := by
  unfold FlatOption.root at ok
  split at ok
  · rename_i named
    split at ok
    · rename_i selected
      obtain rfl := Except.ok.inj ok
      exact .inr ⟨named, selected⟩
    · cases ok
  · obtain rfl := Except.ok.inj ok
    exact .inl (List.mem_singleton_self _)
  · exact .inl (mem_of_rootOfPath ok)
  · cases ok
  · exact .inl (mem_of_ownerOf ok)

/-- The label is of no account for the root of a path. -/
theorem rootOfPath_eq_ok {first label : String} (label' : String) :
    rootOfPath entities first label = .ok root → rootOfPath entities first label' = .ok root := by
  unfold rootOfPath onlyOne
  split
  · exact id
  · split
    · exact nofun
    · exact id
    · exact nofun

/-- The root of a path depends on its first relationship only. -/
theorem root_of_first {first : String} {rest rest' : Path} (named : option.root? = other.root?)
    (path : option.path = first :: rest) (path' : other.path = first :: rest')
    (ok : option.root entities = .ok root) : other.root entities = .ok root := by
  obtain ⟨root?, _, directive?, label⟩ := option
  obtain ⟨_, _, directive?', label'⟩ := other
  subst named path path'
  match root?, entities, ok with
  | some entity, entities, ok =>
      simp only [FlatOption.root] at ok ⊢
      split at ok
      · rename_i selected
        rwa [if_pos selected]
      · cases ok
  | none, [entity], ok => exact ok
  | none, [], ok => cases ok
  | none, one :: two :: more, ok =>
      have path : rootOfPath (one :: two :: more) first label = .ok root := ok
      exact rootOfPath_eq_ok label' path

end FlatOption

end LazyMapper
