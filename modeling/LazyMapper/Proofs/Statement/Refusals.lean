import LazyMapper.Proofs.Entity.Validity
import LazyMapper.Statement.Compile

/-!
# How compiling fails

Compiling a statement, and looking for the plan at one of its paths, fail in one way: an option or
a path cannot be resolved, or a mapping is refused (`Statement.compile_refuses`,
`CompiledStatement.planAt_refuses`).
-/

set_option autoImplicit false

namespace LazyMapper

/-- An option or a path that cannot be resolved, or a mapping that is refused. -/
def Error.IsResolution : Error → Prop
  | .loader _ | .mapping _ => True
  | .raiseOnAccess .. | .detached _ | .objectDeleted .. | .usage _ | .custom _ => False

/-- Whatever is remembered, a computation that fails does so because something cannot be
resolved. -/
def Configuring.Refuses {α : Type} (computation : Configuring α) : Prop :=
  ∀ remembered, Ends computation remembered (fun _ _ => True) fun error _ => error.IsResolution

namespace Configuring.Refuses

variable {α β : Type} {computation : Configuring α}

theorem pure (result : α) : Refuses (Pure.pure result) := fun _ => trivial

theorem bind {next : α → Configuring β} (first : Refuses computation)
    (later : ∀ result, Refuses (next result)) : Refuses (computation >>= next) := by
  intro remembered
  refine ends_bind.mpr ((first remembered).mono ?_ fun _ _ resolution => resolution)
  exact fun result names _ => later result names

theorem ofExcept (result : Except LoaderFault α) : Refuses (Configuring.ofExcept result) := by
  cases result <;> exact fun _ => trivial

theorem forM {step : β → Configuring Unit} (each : ∀ item, Refuses (step item))
    (items : List β) : Refuses (items.forM step) := by
  induction items with
  | nil => exact .pure ()
  | cons item rest ih =>
      rw [List.forM]
      exact (each item).bind fun _ => ih

/-- The error of a computation that fails. -/
theorem isResolution (refuses : Refuses computation) {remembered after : Configured}
    {error : Error} (ran : computation.run.run remembered = (.error error, after)) :
    error.IsResolution := by
  have ends := refuses remembered
  unfold Ends at ends
  rwa [ran] at ends

end Configuring.Refuses

open Configuring

theorem Entity.configure_refuses (entity : Entity) : Refuses entity.configure := by
  intro remembered
  unfold Ends
  rw [entity.configure_run]
  by_cases seen : entity.typeName ∈ remembered
  · rw [if_pos seen]
    trivial
  · rw [if_neg seen]
    cases entity.validate <;> trivial

theorem OptionForest.check_refuses (schema : Schema) (forest : OptionForest) (owner : Entity)
    (path : String) : Refuses (forest.check schema owner path) := by
  induction forest generalizing owner path with
  | empty => exact .pure ()
  | node name directives below next ihBelow ihNext =>
      refine (Refuses.ofExcept _).bind fun target => ?_
      refine target.configure_refuses.bind fun _ => ?_
      refine (Refuses.ofExcept _).bind fun _ => ?_
      exact (ihBelow target _).bind fun _ => ihNext owner path

/-- **A statement that does not compile has an option that cannot be resolved, or a mapping that
is refused.** -/
theorem Statement.compile_refuses (schema : Schema) (dialect : Sql.Dialect)
    (statement : Statement) : Refuses (statement.compile schema dialect) := by
  refine (Refuses.forM Entity.configure_refuses _).bind fun _ => ?_
  refine (Refuses.ofExcept _).bind fun tree => ?_
  refine Refuses.bind (.forM (fun entity => ?_) _) fun _ => ?_
  · split
    · exact OptionForest.check_refuses schema _ entity ""
    · exact .pure ()
  · exact (Refuses.ofExcept _).bind fun _ => .pure _

/-- **A path without a plan cannot be resolved, or its target's mapping is refused.** -/
theorem CompiledStatement.planAt_refuses (schema : Schema) (compiled : CompiledStatement)
    (text : String) (parent target : Entity) :
    Refuses (compiled.planAt schema text parent target) := by
  refine (Refuses.ofExcept _).bind fun path => ?_
  refine (Refuses.ofExcept _).bind fun found => ?_
  refine target.configure_refuses.bind fun _ => ?_
  exact (Refuses.ofExcept _).bind fun _ => .pure _

end LazyMapper
