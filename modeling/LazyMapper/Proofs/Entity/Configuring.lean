import LazyMapper.Model.Catalogue
import LazyMapper.Proofs.Statement.Checking

/-!
# Checking mappings again

A mapping that passed its check is remembered by its type name, and the check is skipped from then
on. Nobody can tell: as long as a type name stands for one mapping, every check in a sequence gives
what it would give by itself (`validate_exact_and_configureEach_eq`).

The reason is an invariant of the memory. Every name in it is that of a mapping of the sequence that
passes its check (`Learns`), and a check learns nothing else, whether it is skipped, succeeds or
fails. So a name is found only where the check would succeed.
-/

set_option autoImplicit false

namespace LazyMapper.Entity

variable {entity : Entity} {known : Entity → Prop} {remembered : Configured}

/-- Mappings are checked one after the other, with one memory. A check that fails does not keep the
next from being made. -/
def configureEach (entities : List Entity) : StateM Configured (List (Except Error Unit)) :=
  entities.mapM fun entity => entity.configure.run

/-! ## One check -/

/-- Where a remembered name means that the check succeeds, the result is that of the check. -/
theorem configure_result (sound : entity.typeName ∈ remembered → entity.validate = .ok ()) :
    (entity.configure.run.run remembered).1 = entity.validate.mapError .mapping := by
  rw [configure_run]
  split
  · rename_i seen
    rw [sound seen]
    rfl
  · cases entity.validate <;> rfl

/-- A check of a known mapping keeps the memory to names of known mappings that pass. -/
theorem learns_configure (learns : Learns known [] remembered) (here : known entity) :
    Learns known [] (entity.configure.run.run remembered).2 := by
  have checks : Configuring.Checks known entity.configure remembered _ := configure_checks here
  unfold Configuring.Checks Ends at checks
  split at checks
  · rename_i ran
    rw [ran]
    exact learns.trans checks.1
  · rename_i ran
    rw [ran]
    exact learns.trans checks

/-- A name that was learnt from known mappings is that of a mapping that passes, if it is that of a
known one at all. -/
theorem validate_of_learns (learns : Learns known [] remembered)
    (alike : ∀ first second, known first → known second →
      first.typeName = second.typeName → first = second)
    (here : known entity) (seen : entity.typeName ∈ remembered) : entity.validate = .ok () := by
  rcases learns.checked _ seen with earlier | ⟨other, there, named, valid⟩
  · cases earlier
  · rwa [alike entity other here there named.symm]

/-! ## A sequence of checks -/

theorem configureEach_cons_run (entity : Entity) (rest : List Entity) (remembered : Configured) :
    ((configureEach (entity :: rest)).run remembered).1 =
      (entity.configure.run.run remembered).1 ::
        ((configureEach rest).run (entity.configure.run.run remembered).2).1 := by
  rw [configureEach, List.mapM_cons]
  rfl

/-- Checks of known mappings give what they give by themselves, whatever was learnt from known
mappings before. -/
theorem configureEach_of_learns {entities : List Entity} (learns : Learns known [] remembered)
    (alike : ∀ first second, known first → known second →
      first.typeName = second.typeName → first = second)
    (here : ∀ entity ∈ entities, known entity) :
    ((configureEach entities).run remembered).1 =
      entities.map fun entity => entity.validate.mapError .mapping := by
  induction entities generalizing remembered with
  | nil => rfl
  | cons entity rest ih =>
      obtain ⟨this, others⟩ := List.forall_mem_cons.mp here
      rw [configureEach_cons_run, List.map_cons,
        configure_result (validate_of_learns learns alike this),
        ih (learns_configure learns this) others]

/-- **The check is exact and its memory is invisible.** A mapping passes its check exactly when it
is consistent; and where equal type names mean equal mappings, every check in a sequence gives what
it gives by itself, whatever was checked before. -/
theorem validate_exact_and_configureEach_eq :
    (∀ entity : Entity, entity.validate = .ok () ↔ entity.Consistent) ∧
      ∀ entities : List Entity,
        (∀ first ∈ entities, ∀ second ∈ entities,
          first.typeName = second.typeName → first = second) →
        ((configureEach entities).run []).1 =
          entities.map fun entity => entity.validate.mapError .mapping := by
  refine ⟨fun entity => validate_eq_ok_iff, fun entities alike => ?_⟩
  exact configureEach_of_learns (.refl [])
    (fun first second here there => alike first here second there) fun _ member => member

open Catalogue in
/-- A mapping that is refused is refused again, and one that passed passes again. -/
theorem broken_refused_again :
    ((configureEach [brokenEntity, bookEntity, brokenEntity, bookEntity]).run []).1 =
      [.error (.mapping (.deferredKey "brokens" "id")), .ok (),
        .error (.mapping (.deferredKey "brokens" "id")), .ok ()] := by
  refine (validate_exact_and_configureEach_eq.2 _ ?_).trans rfl
  have apart : brokenEntity.typeName ≠ bookEntity.typeName := by decide
  intro first here second there same
  simp only [List.mem_cons, List.not_mem_nil, or_false] at here there
  rcases here with rfl | rfl | rfl | rfl <;> rcases there with rfl | rfl | rfl | rfl
  all_goals first | rfl | exact absurd same apart | exact absurd same.symm apart

end LazyMapper.Entity
