import LazyMapper.Loader.Tree

/-!
# Directives at paths

A forest is told by the directives that are attached at each path (`OptionForest.attached`).
Inserting a directive adds it behind those at its path and changes no other path
(`Canonical.attached_insert`).

Insertion keeps the names of the nodes in order and makes no node with nothing attached at or
below it (`Canonical.insert`). In such forests something is attached below every node
(`Canonical.isSome_descend_iff`), and two of them with the same directives at every path
are the same forest (`Canonical.ext`).
-/

set_option autoImplicit false

namespace LazyMapper

/-- The directives at a path below a node. -/
def OptionNode.attached (node : OptionNode) (path : Path) : List Directive :=
  ((node.descend path).map OptionNode.directives).getD []

/-- The directives at a path that begins with the name of a node of the forest. There are none at
the empty path. -/
def OptionForest.attached (forest : OptionForest) (path : Path) : List Directive :=
  (OptionNode.mk [] forest).attached path

theorem OptionNode.attached_eq (directives : List Directive) (below : OptionForest)
    (path : Path) :
    (OptionNode.mk directives below).attached path =
      if path = [] then directives else below.attached path := by
  cases path <;> rfl

namespace OptionForest

variable {name first : String} {directives : List Directive} {below next forest : OptionForest}
  {rest path : Path} {directive : Directive}

@[simp] theorem attached_nil (forest : OptionForest) : forest.attached [] = [] := rfl

@[simp] theorem attached_empty (path : Path) : empty.attached path = [] := by
  cases path <;> rfl

theorem attached_node : (node name directives below next).attached (first :: rest) =
    if first = name then if rest = [] then directives else below.attached rest
    else next.attached (first :: rest) := by
  by_cases same : first = name
  · rw [if_pos same, ← OptionNode.attached_eq]
    unfold attached OptionNode.attached
    rw [OptionNode.descend, child?, if_pos same]
    rfl
  · unfold attached OptionNode.attached
    rw [if_neg same, OptionNode.descend, child?, if_neg same]
    rfl

theorem attached_of_not_mem (absent : first ∉ forest.names) :
    forest.attached (first :: rest) = [] := by
  induction forest with
  | empty => exact attached_empty _
  | node name directives below next _ ih =>
      obtain ⟨apart, absent⟩ : first ≠ name ∧ first ∉ next.names := by simpa [names] using absent
      rw [attached_node, if_neg apart, ih absent]

/-! ## Canonical forests -/

/-- The names of the nodes are in order, and every node has something attached at or below it. -/
def Canonical : OptionForest → Prop
  | .empty => True
  | .node name directives below next =>
    (∀ other ∈ next.names, name < other) ∧ (directives ≠ [] ∨ below ≠ .empty) ∧
      below.Canonical ∧ next.Canonical

/-- The only path of a forest of a single path has the directive. -/
theorem attached_ofPath (directive : Directive) (path query : Path) :
    (ofPath directive path).attached query =
      if query = path ∧ path ≠ [] then [directive] else [] := by
  induction path generalizing query with
  | nil => simp [ofPath]
  | cons name rest ih =>
      cases query with
      | nil => simp
      | cons first others =>
          rw [ofPath, attached_node, ih, attached_empty]
          by_cases same : first = name
          · subst same
            cases others <;> cases rest <;> simp [attachedHere]
          · simp [same]

theorem Canonical.ofPath (directive : Directive) (path : Path) :
    (ofPath directive path).Canonical := by
  induction path with
  | nil => trivial
  | cons name rest ih =>
      refine ⟨nofun, ?_, ih, trivial⟩
      cases rest <;> simp [attachedHere, OptionForest.ofPath]

theorem insert_nil (directive : Directive) (forest : OptionForest) :
    forest.insert directive [] = forest := by
  cases forest <;> rfl

theorem mem_names_insert {other : String}
    (member : other ∈ (forest.insert directive (first :: rest)).names) :
    other = first ∨ other ∈ forest.names := by
  induction forest with
  | empty => exact .inl (by simpa [insert, OptionForest.ofPath, names] using member)
  | node name directives below next _ ih =>
      rw [insert] at member
      split at member
      · exact .inr member
      · split at member
        · exact List.mem_cons.mp member
        · rcases List.mem_cons.mp member with rfl | member
          · exact .inr List.mem_cons_self
          · exact (ih member).imp_right (List.mem_cons_of_mem _)

theorem insert_ne_empty : forest.insert directive (first :: rest) ≠ empty := by
  cases forest with
  | empty => simp [insert, OptionForest.ofPath]
  | node name directives below next =>
      rw [insert]
      split
      · simp
      · split <;> simp

/-- Where a new name goes behind another one, it is the greater. -/
theorem lt_of_not_lt {first name : String} (apart : first ≠ name) (behind : ¬ first < name) :
    name < first :=
  Std.lt_of_le_of_ne (String.not_lt.mp behind) apart.symm

namespace Canonical

/-- **Insertion keeps a forest canonical.** -/
protected theorem insert (canonical : forest.Canonical) (directive : Directive) (path : Path) :
    (forest.insert directive path).Canonical := by
  induction forest generalizing path with
  | empty =>
      cases path with
      | nil => trivial
      | cons first rest => exact Canonical.ofPath directive (first :: rest)
  | node name directives below next ihBelow ihNext =>
      obtain ⟨ordered, bearing, canonicalBelow, canonicalNext⟩ := canonical
      cases path with
      | nil => exact ⟨ordered, bearing, canonicalBelow, canonicalNext⟩
      | cons first rest =>
          rw [OptionForest.insert]
          split
          · refine ⟨ordered, ?_, ihBelow canonicalBelow rest, canonicalNext⟩
            cases rest with
            | nil => exact .inl (by simp [attachedHere])
            | cons => exact .inr insert_ne_empty
          · rename_i apart
            split
            · rename_i before
              refine ⟨?_, ?_, Canonical.ofPath directive rest, ordered, bearing, canonicalBelow,
                canonicalNext⟩
              · intro other member
                rcases List.mem_cons.mp member with rfl | member
                · exact before
                · exact String.lt_trans before (ordered other member)
              · cases rest <;> simp [attachedHere, OptionForest.ofPath]
            · rename_i behind
              refine ⟨?_, bearing, canonicalBelow, ihNext canonicalNext (first :: rest)⟩
              intro other member
              rcases mem_names_insert member with rfl | member
              · exact lt_of_not_lt apart behind
              · exact ordered other member

/-- **Insertion adds the directive at its path** and changes nothing at other paths. -/
theorem attached_insert (canonical : forest.Canonical) (directive : Directive) (path query : Path) :
    (forest.insert directive path).attached query =
      forest.attached query ++ if query = path ∧ path ≠ [] then [directive] else [] := by
  induction forest generalizing path query with
  | empty =>
      cases path with
      | nil => simp [insert_nil]
      | cons first rest =>
          rw [attached_empty, List.nil_append]
          exact attached_ofPath directive (first :: rest) query
  | node name directives below next ihBelow ihNext =>
      obtain ⟨ordered, -, canonicalBelow, canonicalNext⟩ := canonical
      cases path with
      | nil => simp [insert_nil]
      | cons first rest =>
          cases query with
          | nil => simp
          | cons asked others =>
              rw [OptionForest.insert]
              split
              · rename_i same
                subst same
                rw [attached_node, attached_node, ihBelow canonicalBelow]
                by_cases here : asked = first
                · subst here
                  cases others <;> cases rest <;> simp [attachedHere]
                · simp [here]
              · rename_i apart
                split
                · rename_i before
                  rw [attached_node, attached_ofPath]
                  by_cases here : asked = first
                  · subst here
                    have absent : asked ∉ (node name directives below next).names := by
                      intro member
                      rcases List.mem_cons.mp member with same | member
                      · exact apart same
                      · exact String.lt_irrefl _ (String.lt_trans before (ordered asked member))
                    rw [attached_of_not_mem absent]
                    cases others <;> cases rest <;> simp [attachedHere]
                  · simp [here]
                · rw [attached_node, attached_node, ihNext canonicalNext]
                  by_cases here : asked = name
                  · subst here
                    simp [Ne.symm apart]
                  · simp [here]

/-- Something is attached at or below the first node of a canonical forest. -/
theorem exists_attached_first (canonical : (node name directives below next).Canonical) :
    ∃ rest, (node name directives below next).attached (name :: rest) ≠ [] := by
  induction below generalizing name directives next with
  | empty =>
      obtain ⟨-, here | inside, -⟩ := canonical
      · exact ⟨[], by rwa [attached_node, if_pos rfl, if_pos rfl]⟩
      · exact absurd rfl inside
  | node other directives' below' next' ih =>
      obtain ⟨-, -, canonicalBelow, -⟩ := canonical
      obtain ⟨rest, there⟩ := ih canonicalBelow
      exact ⟨other :: rest, by rwa [attached_node, if_pos rfl, if_neg (List.cons_ne_nil _ _)]⟩

theorem eq_empty_iff (canonical : forest.Canonical) :
    forest = .empty ↔ ∀ path, forest.attached path = [] := by
  cases forest with
  | empty => exact iff_of_true rfl attached_empty
  | node name directives below next =>
      obtain ⟨rest, there⟩ := canonical.exists_attached_first
      exact iff_of_false nofun fun none => there (none _)

/-- Only the first node of a canonical forest has its name. -/
theorem attached_next (canonical : (node name directives below next).Canonical) :
    next.attached (name :: rest) = [] :=
  attached_of_not_mem fun member => String.lt_irrefl _ (canonical.1 name member)

/-- The first names of canonical forests with the same directives are the same. Were one of them
less than the other, the forest of the other would have nothing attached there. -/
theorem not_lt_of_attached_eq {name' : String} {directives' : List Directive}
    {below' next' : OptionForest} (canonical : (node name directives below next).Canonical)
    (canonical' : (node name' directives' below' next').Canonical)
    (same : ∀ path, (node name directives below next).attached path =
      (node name' directives' below' next').attached path) : ¬ name < name' := by
  intro before
  obtain ⟨rest, there⟩ := canonical.exists_attached_first
  rw [same] at there
  refine there (attached_of_not_mem fun member => ?_)
  rcases List.mem_cons.mp member with rfl | member
  · exact String.lt_irrefl _ before
  · exact String.lt_irrefl _ (String.lt_trans before (canonical'.1 name member))

/-- **Canonical forests with the same directives at every path are the same.** -/
protected theorem ext {other : OptionForest} (canonical : forest.Canonical)
    (canonical' : other.Canonical)
    (same : ∀ path, forest.attached path = other.attached path) : forest = other := by
  induction forest generalizing other with
  | empty =>
      have nothing : other = .empty :=
        canonical'.eq_empty_iff.mpr fun path => (same path).symm.trans (attached_empty path)
      exact nothing.symm
  | node name directives below next ihBelow ihNext =>
      cases other with
      | empty =>
          exact canonical.eq_empty_iff.mpr fun path => (same path).trans (attached_empty path)
      | node name' directives' below' next' =>
          obtain rfl : name = name' := String.le_antisymm
            (String.not_lt.mp (canonical'.not_lt_of_attached_eq canonical fun path =>
              (same path).symm))
            (String.not_lt.mp (canonical.not_lt_of_attached_eq canonical' same))
          have sameHere : directives = directives' := by
            simpa [attached_node] using same [name]
          have sameBelow : below = below' := by
            refine ihBelow canonical.2.2.1 canonical'.2.2.1 fun path => ?_
            cases path with
            | nil => rfl
            | cons first rest => simpa [attached_node] using same (name :: first :: rest)
          have sameNext : next = next' := by
            refine ihNext canonical.2.2.2 canonical'.2.2.2 fun path => ?_
            cases path with
            | nil => rfl
            | cons first rest =>
                by_cases here : first = name
                · subst here
                  rw [canonical.attached_next, canonical'.attached_next]
                · simpa [attached_node, here] using same (first :: rest)
          rw [sameHere, sameBelow, sameNext]

end Canonical

end OptionForest

/-! ## Nodes -/

namespace OptionNode

variable {node found : OptionNode}

/-- The node has something attached at or below it, and so has every node below it. -/
structure Canonical (node : OptionNode) : Prop where
  bearing : node.directives ≠ [] ∨ node.below ≠ .empty
  below : node.below.Canonical

theorem Canonical.exists_attached (canonical : node.Canonical) :
    ∃ path, node.attached path ≠ [] := by
  obtain ⟨directives, below⟩ := node
  obtain ⟨here | inside, canonical⟩ := canonical
  · exact ⟨[], here⟩
  · cases below with
    | empty => exact absurd rfl inside
    | node name =>
        obtain ⟨rest, there⟩ := canonical.exists_attached_first
        exact ⟨name :: rest, there⟩

theorem canonical_of_child? {forest : OptionForest} {name : String} (canonical : forest.Canonical)
    (child : forest.child? name = some node) : node.Canonical := by
  induction forest with
  | empty => cases child
  | node other directives below next _ ih =>
      obtain ⟨-, bearing, canonicalBelow, canonicalNext⟩ := canonical
      rw [OptionForest.child?] at child
      split at child
      · obtain rfl := Option.some.inj child
        exact ⟨bearing, canonicalBelow⟩
      · exact ih canonicalNext child

theorem canonical_of_descend {forest : OptionForest} {directives : List Directive} {path : Path}
    (canonical : forest.Canonical) (given : path ≠ [])
    (there : (OptionNode.mk directives forest).descend path = some found) : found.Canonical := by
  induction path generalizing forest directives with
  | nil => exact absurd rfl given
  | cons name rest ih =>
      obtain ⟨child, here, there⟩ := Option.bind_eq_some_iff.mp there
      have canonicalChild := canonical_of_child? canonical here
      cases rest with
      | nil =>
          obtain rfl := Option.some.inj there
          exact canonicalChild
      | cons => exact ih canonicalChild.below (List.cons_ne_nil _ _) there

theorem descend_append (node : OptionNode) (first second : Path) :
    node.descend (first ++ second) = (node.descend first).bind (·.descend second) := by
  induction first generalizing node with
  | nil => rfl
  | cons name rest ih =>
      rw [List.cons_append, descend, descend, Option.bind_assoc]
      exact congrArg (Option.bind _) (funext ih)

end OptionNode

/-- There is a node at a path below a canonical forest exactly when something is attached there or
below. -/
theorem OptionForest.Canonical.isSome_descend_iff {forest : OptionForest}
    (canonical : forest.Canonical) {path : Path} (given : path ≠ []) :
    ((OptionNode.mk [] forest).descend path).isSome ↔
      ∃ rest, forest.attached (path ++ rest) ≠ [] := by
  have below (rest : Path) : forest.attached (path ++ rest) =
      ((((OptionNode.mk [] forest).descend path).bind (·.descend rest)).map
        OptionNode.directives).getD [] := by
    rw [← OptionNode.descend_append]
    rfl
  cases there : (OptionNode.mk [] forest).descend path with
  | none => simp [below, there]
  | some found =>
      obtain ⟨rest, attached⟩ :=
        (OptionNode.canonical_of_descend canonical given there).exists_attached
      refine iff_of_true rfl ⟨rest, ?_⟩
      rw [below, there]
      exact attached

end LazyMapper
