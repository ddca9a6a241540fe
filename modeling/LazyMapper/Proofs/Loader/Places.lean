import LazyMapper.Loader.Flat
import LazyMapper.Proofs.Sequence

/-!
# Options where they stand

A place is a node of a nested option together with the path texts around it. The places of
options are listed a node before the nodes nested in it and these in their order, which is the
order in which directives are attached. Flattening gives one node for each place, in this order
(`LoaderOption.flattenAll_places`): its path is that of its place, with the reach of its own
directive behind it.
-/

set_option autoImplicit false

namespace LazyMapper

/-- A node of an option where it stands. -/
structure LoaderOption.Place where
  /-- The root entity that the outermost option names. -/
  root? : Option Entity
  /-- The texts of the paths of the nodes around the node and of its own, outermost first. -/
  paths : List String
  directive? : Option WrittenDirective

/-- The flattened node of a place. -/
inductive LoaderOption.Place.Gives : LoaderOption.Place → FlatOption → Prop where
  | scope {root? : Option Entity} {paths : List String} {hops : List Path} {label : String}
      (read : paths.mapM Path.read = .ok hops) :
      Gives ⟨root?, paths, none⟩ ⟨root?, hops.flatten, none, label⟩
  | directive {root? : Option Entity} {paths : List String} {hops : List Path} {label : String}
      {written : WrittenDirective} {reach : Path} {directive : Directive}
      (read : paths.mapM Path.read = .ok hops) (reads : written.read = .ok (reach, directive)) :
      Gives ⟨root?, paths, some written⟩ ⟨root?, hops.flatten ++ reach, some directive, label⟩

namespace LoaderOption

mutual

/-- The places of an option, itself first. -/
def places (root? : Option Entity) (outer : List String) : LoaderOption → List Place
  | ⟨_, path, directive?, children⟩ =>
    ⟨root?, outer ++ [path], directive?⟩ :: placesNested root? (outer ++ [path]) children
termination_by structural option => option

/-- The places of nested options in their order. -/
def placesNested (root? : Option Entity) (outer : List String) : List LoaderOption → List Place
  | [] => []
  | option :: rest => option.places root? outer ++ placesNested root? outer rest
termination_by structural options => options

end

/-- The places of outermost options, each with the root that it names. -/
def placesAll (options : List LoaderOption) : List Place :=
  options.flatMap fun option => option.places option.root? []

/-- Path texts read one behind another. -/
theorem mapM_read_concat {outer : List String} {hops : List Path} {path : String} {hop : Path}
    (read : outer.mapM Path.read = .ok hops) (last : Path.read path = .ok hop) :
    (outer ++ [path]).mapM Path.read = .ok (hops ++ [hop]) := by
  rw [List.mapM_append, read, List.mapM_cons, last]
  rfl

mutual

/-- Below the paths read so far, an option gives a node for each of its places. -/
theorem flatten_places {root? : Option Entity} : ∀ {option : LoaderOption} {outer : List String}
    {hops : List Path} {nodes : List FlatOption}, outer.mapM Path.read = .ok hops →
      option.flatten root? hops.flatten = .ok nodes →
        List.Forall₂ Place.Gives (option.places root? outer) nodes
  | ⟨ownRoot, path, directive?, children⟩, outer, hops, nodes, read, ok => by
      rw [flatten] at ok
      obtain ⟨hop, here, ok⟩ := exists_of_bind_eq_ok ok
      obtain ⟨node, own, ok⟩ := exists_of_bind_eq_ok ok
      obtain ⟨more, nested, ok⟩ := exists_of_bind_eq_ok ok
      obtain rfl := Except.ok.inj ok
      have whole := mapM_read_concat read here
      have path_eq : hops.flatten ++ hop = (hops ++ [hop]).flatten := by simp
      rw [path_eq] at own nested
      refine .cons ?_ (flattenNested_places whole nested)
      cases directive? with
      | none =>
          obtain rfl := Except.ok.inj own
          exact .scope whole
      | some written =>
          obtain ⟨⟨reach, directive⟩, reads, own⟩ := exists_of_bind_eq_ok own
          obtain rfl := Except.ok.inj own
          exact .directive whole reads

theorem flattenNested_places {root? : Option Entity} : ∀ {options : List LoaderOption}
    {outer : List String} {hops : List Path} {nodes : List FlatOption},
      outer.mapM Path.read = .ok hops → flattenNested root? hops.flatten options = .ok nodes →
        List.Forall₂ Place.Gives (placesNested root? outer options) nodes
  | [], outer, hops, nodes, read, ok => by
      obtain rfl := Except.ok.inj ok
      exact .nil
  | option :: rest, outer, hops, nodes, read, ok => by
      rw [flattenNested] at ok
      split at ok
      · cases ok
      · obtain ⟨first, here, ok⟩ := exists_of_bind_eq_ok ok
        obtain ⟨more, later, ok⟩ := exists_of_bind_eq_ok ok
        obtain rfl := Except.ok.inj ok
        exact List.rel_append (flatten_places read here) (flattenNested_places read later)

end

/-- **Flattening gives one node for each place of the options, in their order.** -/
theorem flattenAll_places {options : List LoaderOption} {nodes : List FlatOption}
    (ok : flattenAll options = .ok nodes) :
    List.Forall₂ Place.Gives (placesAll options) nodes := by
  induction options generalizing nodes with
  | nil =>
      obtain rfl := Except.ok.inj ok
      exact .nil
  | cons option rest ih =>
      rw [flattenAll] at ok
      obtain ⟨first, here, ok⟩ := exists_of_bind_eq_ok ok
      obtain ⟨more, later, ok⟩ := exists_of_bind_eq_ok ok
      obtain rfl := Except.ok.inj ok
      exact List.rel_append (flatten_places rfl here) (ih later)

end LoaderOption

end LazyMapper
