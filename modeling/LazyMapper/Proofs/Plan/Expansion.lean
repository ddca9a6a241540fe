import LazyMapper.Plan.Merge

/-!
# Load-only directives in simpler terms

A directive that loads some attributes only is short for one that leaves all attributes out of the
row and one for each of these that loads it again (`Directive.expand`). A merger looks all names up
before it changes a mode, while the simpler directives look up each name after the changes for the
names before it. A change of modes has no say in what a name stands for, so both ways come to the
same modes or to the same fault (`Merger.applyAll_expand`), wherever the directive stands
(`LoadPlan.merge_loadOnly`).
-/

set_option autoImplicit false

namespace LazyMapper

/-- The directive in terms of directives that do not except single attributes. -/
def Directive.expand : Directive → List Directive
  | .loadOnly names raising =>
    .defer .all raising :: names.map fun name => .undefer (.named name)
  | other => [other]

namespace Merger

theorem applyAll_append (merger : Merger) (first second : List Directive) :
    merger.applyAll (first ++ second) =
      merger.applyAll first >>= fun middle => middle.applyAll second := by
  induction first generalizing merger with
  | nil => rfl
  | cons directive rest ih =>
      rw [List.cons_append, applyAll, applyAll]
      cases merger.apply directive with
      | error fault => rfl
      | ok middle => exact ih middle

theorem applyAll_singleton (merger : Merger) (directive : Directive) :
    merger.applyAll [directive] = merger.apply directive := by
  rw [applyAll]
  cases merger.apply directive <;> rfl

/-- Attributes that are loaded with the row again, one after the other. -/
theorem applyAll_undefer (merger : Merger) (names : List String) :
    merger.applyAll (names.map fun name => .undefer (.named name)) =
      (names.mapM merger.index).map merger.undeferAt := by
  induction names generalizing merger with
  | nil => rfl
  | cons name rest ih =>
      rw [List.map_cons, applyAll, apply, List.mapM_cons]
      cases merger.index name with
      | error fault => rfl
      | ok index =>
          -- The names behind are looked up in the same entity.
          have later := ih (merger.setAt index .eager)
          have same : (merger.setAt index .eager).index = merger.index := rfl
          rw [same] at later
          refine later.trans ?_
          cases rest.mapM merger.index <;> rfl

/-- **A directive does what its expansion does**, and is refused with the same fault. -/
theorem applyAll_expand (merger : Merger) (directive : Directive) :
    merger.applyAll directive.expand = merger.apply directive := by
  match directive with
  | .defer .. | .undefer _ | .undeferGroup _ => exact merger.applyAll_singleton _
  | .loadOnly names raising =>
      refine ((merger.deferAll raising).applyAll_undefer names).trans ?_
      have same : (merger.deferAll raising).index = merger.index := rfl
      rw [same, apply]
      cases names.mapM merger.index <;> rfl

/-- Any number of directives may be expanded. -/
theorem applyAll_flatMap_expand (merger : Merger) (directives : List Directive) :
    merger.applyAll (directives.flatMap Directive.expand) = merger.applyAll directives := by
  induction directives generalizing merger with
  | nil => rfl
  | cons directive rest ih =>
      rw [List.flatMap_cons, applyAll_append, applyAll_expand, applyAll]
      exact congrArg (merger.apply directive >>= ·) (funext ih)

end Merger

namespace LoadPlan

/-- **Load-only directives can be done without**: all of them may be expanded at once. -/
theorem merge_flatMap_expand (entity : Entity) (directives : List Directive) :
    merge entity (directives.flatMap Directive.expand) = merge entity directives := by
  rw [merge, Merger.applyAll_flatMap_expand, merge]

/-- **Loading some attributes only is leaving all of them out of the row and loading each of these
again.** The plan is the same, or the fault is, whatever directives come before and behind, and
whether the names are known or not, in the primary key or repeated. -/
theorem merge_loadOnly (entity : Entity) (before after : List Directive) (names : List String)
    (raising : Bool) :
    merge entity (before ++ [.loadOnly names raising] ++ after) =
      merge entity (before ++
        (.defer .all raising :: names.map fun name => .undefer (.named name)) ++ after) := by
  have expanded (merger : Merger) :
      merger.applyAll (.defer .all raising :: names.map fun name => .undefer (.named name)) =
        merger.applyAll [.loadOnly names raising] :=
    (merger.applyAll_expand (.loadOnly names raising)).trans (merger.applyAll_singleton _).symm
  simp only [merge, Merger.applyAll_append, expanded]

end LoadPlan

end LazyMapper
