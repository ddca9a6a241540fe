import LazyMapper.Plan.InPlace
import LazyMapper.Proofs.Plan.Merging
import LazyMapper.Proofs.Plan.Shape

/-!
# Refused directives change nothing

A directive that is applied in place looks up all that it names before it writes the first mode. So
it does to the merger what it does as a function of mergers, and a directive that is refused leaves
the merger as it was (`Directive.merge_run`). What it is refused for does not depend on the modes
(`Merger.apply_outcome`), and a directive that is not refused writes the modes of the attributes it
touches and of no others (`Merger.apply_keeps`).

A merger goes on after a refusal. The induction over its directives carries that it is sound and
that the function of mergers leads to it by the directives that were not refused
(`Merger.Sound.mergeEach`), which gives `Directive.refused_or_applied`.
-/

set_option autoImplicit false

namespace LazyMapper

/-! ## Looking up and writing -/

namespace Merging

variable {merger : Merger}

/-- A computation that begins by reading the merger. -/
theorem get_bind_run {α : Type} (next : Merger → Merging α) (merger : Merger) :
    (get >>= next).run.run merger = (next merger).run.run merger := rfl

theorem index_run (merger : Merger) (name : String) :
    (index name).run.run merger = (merger.index name, merger) := by
  refine (get_bind_run _ merger).trans ?_
  cases merger.index name <;> rfl

theorem indices_run (merger : Merger) (names : List String) :
    (names.mapM index).run.run merger = (names.mapM merger.index, merger) := by
  induction names with
  | nil => rfl
  | cons name rest ih =>
      rw [List.mapM_cons, List.mapM_cons, run_bind, index_run]
      cases merger.index name with
      | error fault => rfl
      | ok position =>
          refine (run_bind _ _ merger).trans ?_
          rw [ih]
          cases rest.mapM merger.index <;> rfl

theorem undeferAt_run (merger : Merger) (indices : List Nat) :
    (indices.forM fun index => write index .eager).run.run merger =
      (.ok (), merger.undeferAt indices) := by
  induction indices generalizing merger with
  | nil => rfl
  | cons index rest ih => exact (run_bind_of_ok rfl).trans (ih (merger.setAt index .eager))

/-- Writing from some field on leaves the modes in front as they are. -/
theorem writeEach_run_from (mode? : Field → Option ResolvedMode) (entity : Entity)
    (fields : List Field) (front modes : List ResolvedMode)
    (complete : modes.length = fields.length) :
    ((fields.zipIdx front.length).forM fun (field, index) =>
        match mode? field with
        | some mode => write index mode
        | none => return ()).run.run ⟨entity, front ++ modes⟩ =
      (.ok (), ⟨entity, front ++
        List.zipWith (fun field mode => (mode? field).getD mode) fields modes⟩) := by
  induction fields generalizing front modes with
  | nil =>
      obtain rfl := List.eq_nil_of_length_eq_zero complete
      rfl
  | cons field rest ih =>
      obtain ⟨mode, modes, rfl⟩ := List.exists_cons_of_length_eq_add_one complete
      have written := ih (front ++ [(mode? field).getD mode]) modes (Nat.succ.inj complete)
      simp only [List.length_append, List.length_singleton, List.append_assoc,
        List.singleton_append] at written
      rw [List.zipIdx_cons, List.zipWith_cons_cons, ← written]
      refine run_bind_of_ok (?_ : _ = (Except.ok (), _))
      dsimp only
      cases mode? field with
      | none => rfl
      | some other =>
          have replaced : (front ++ mode :: modes).set front.length other =
              front ++ other :: modes := by simp
          exact congrArg (fun modes => (Except.ok (), Merger.mk entity modes)) replaced

theorem writeEach_run (complete : merger.modes.length = merger.entity.fields.length)
    {mode? : Field → Option ResolvedMode} {rule : Field → ResolvedMode → ResolvedMode}
    (same : ∀ field mode, (mode? field).getD mode = rule field mode) :
    (writeEach mode?).run.run merger = (.ok (), merger.changeEach rule) := by
  obtain rfl : (fun field mode => (mode? field).getD mode) = rule :=
    funext fun field => funext (same field)
  exact (get_bind_run _ merger).trans
    (writeEach_run_from mode? merger.entity merger.entity.fields [] merger.modes complete)

theorem deferAll_run (complete : merger.modes.length = merger.entity.fields.length)
    (raising : Bool) :
    (deferAll raising).run.run merger = (.ok (), merger.deferAll raising) :=
  (get_bind_run _ merger).trans
    (writeEach_run complete fun field mode => by split <;> rfl)

end Merging

/-! ## Directives -/

namespace Merger

/-- What has become of a merger by a directive with the given result. -/
def settle (merger : Merger) (result : Except LoaderFault Merger) :
    Except LoaderFault Unit × Merger :=
  (result.map fun _ => (), result.toOption.getD merger)

/-- What begins by looking up a name and writes when it is known. -/
theorem run_lookup_bind {α : Type} {found : Except LoaderFault α} {look : Merging α}
    {merger : Merger} {next : α → Merging Unit} {change : α → Except LoaderFault Merger}
    (reads : look.run.run merger = (found, merger))
    (writes : ∀ result, found = .ok result →
      (next result).run.run merger = merger.settle (change result)) :
    (look >>= next).run.run merger = merger.settle (found >>= change) := by
  rw [run_bind, reads]
  cases found with
  | error fault => rfl
  | ok result => exact writes result rfl

end Merger

/-- **A directive does in place what it does as a function**, and when it is refused the merger is
what it was. -/
theorem Directive.merge_run {merger : Merger}
    (complete : merger.modes.length = merger.entity.fields.length) (directive : Directive) :
    directive.merge.run.run merger = merger.settle (merger.apply directive) := by
  match directive with
  | .defer .all raising => exact Merging.deferAll_run complete raising
  | .defer (.named name) raising =>
      refine Merger.run_lookup_bind (Merging.index_run merger name) fun position _ => ?_
      refine (Merging.get_bind_run _ merger).trans ?_
      by_cases key : merger.entity.isPrimaryKey name
      · simp only [key]
        rfl
      · simp only [key]
        cases merger.entity.fields[position]? <;> rfl
  | .undefer .all =>
      have everyField : ∀ (_ : Field) (mode : ResolvedMode), (some .eager).getD mode = .eager :=
        fun _ _ => rfl
      exact Merging.writeEach_run complete everyField
  | .undefer (.named name) =>
      exact Merger.run_lookup_bind (Merging.index_run merger name) fun position _ => rfl
  | .undeferGroup group =>
      refine (Merging.get_bind_run _ merger).trans ?_
      rw [Merger.apply]
      by_cases known : merger.entity.hasGroup group
      · rw [if_pos known]
        simp only [known]
        exact Merging.writeEach_run complete fun field mode => by split <;> rfl
      · rw [if_neg known]
        simp only [known]
        rfl
  | .loadOnly names raising =>
      refine Merger.run_lookup_bind (Merging.indices_run merger names) fun kept _ => ?_
      refine (run_bind_of_ok (Merging.deferAll_run complete raising)).trans ?_
      exact Merging.undeferAt_run _ kept

/-! ## What a directive leaves alone -/

namespace Merger

variable {merger after : Merger} {directive : Directive} {index : Nat} {field : Field}

theorem changeEach_keeps {rule : Field → ResolvedMode → ResolvedMode}
    (here : merger.entity.fields[index]? = some field) (keeps : ∀ mode, rule field mode = mode) :
    (merger.changeEach rule).modes[index]? = merger.modes[index]? := by
  simp only [changeEach, List.getElem?_zipWith, here]
  cases merger.modes[index]? <;> simp [keeps]

/-- Replacing the mode of one attribute keeps those of the others. -/
theorem setAt_keeps {name : String} {position : Nat} {mode : ResolvedMode}
    (found : merger.index name = .ok position)
    (here : merger.entity.fields[index]? = some field) (other : field.name ≠ name) :
    (merger.setAt position mode).modes[index]? = merger.modes[index]? := by
  obtain ⟨same, there, named⟩ := Entity.exists_field_of_index? (index?_of_index_eq_ok found)
  refine List.getElem?_set_ne fun at_index => other ?_
  rw [at_index, here] at there
  rw [Option.some.inj there, named]

/-- **A directive keeps the mode of an attribute that it does not touch.** -/
theorem apply_keeps (ok : merger.apply directive = .ok after)
    (here : merger.entity.fields[index]? = some field)
    (untouched : directive.touches field = false) :
    after.modes[index]? = merger.modes[index]? := by
  match directive with
  | .defer .all _ | .undefer .all | .loadOnly .. => cases untouched
  | .defer (.named name) raising =>
      have other : field.name ≠ name := by simpa [Directive.touches] using untouched
      obtain ⟨position, found, ok⟩ := exists_of_bind_eq_ok ok
      split at ok
      · rw [← Except.ok.inj ok]
      · split at ok
        · rw [← Except.ok.inj ok]
          exact setAt_keeps found here other
        · rw [← Except.ok.inj ok]
  | .undefer (.named name) =>
      have other : field.name ≠ name := by simpa [Directive.touches] using untouched
      obtain ⟨position, found, ok⟩ := exists_of_bind_eq_ok ok
      rw [← Except.ok.inj ok]
      exact setAt_keeps found here other
  | .undeferGroup group =>
      have outside : field.load.group? ≠ some group := by
        intro grouped
        cases load : field.load <;> simp_all [Directive.touches, LoadMode.group?]
      rw [apply] at ok
      split at ok
      · rw [← Except.ok.inj ok]
        exact changeEach_keeps here fun mode => if_neg outside
      · cases ok

/-! ## What a directive is refused for -/

theorem index_outcome (merger : Merger) (name : String) :
    (merger.index name).map (fun _ => ()) =
      Subject.checkAll merger.entity [.attribute name] := by
  rw [Subject.checkAll, Merger.index]
  cases found : merger.entity.index? name with
  | none => rw [if_neg (by simp [Entity.attribute_in_iff, found])]; rfl
  | some position => rw [if_pos (Entity.attribute_in_iff.mpr ⟨position, found⟩)]; rfl

theorem indices_outcome (merger : Merger) (names : List String) :
    (names.mapM merger.index).map (fun _ => ()) =
      Subject.checkAll merger.entity (names.map .attribute) := by
  induction names with
  | nil => rfl
  | cons name rest ih =>
      have split : (name :: rest).map Subject.attribute =
          [.attribute name] ++ rest.map .attribute := rfl
      rw [List.mapM_cons, split, Subject.checkAll_append, ← index_outcome, ← ih]
      cases merger.index name with
      | error fault => rfl
      | ok position => cases rest.mapM merger.index <;> rfl

/-- **A directive is refused for the first thing it names that the entity lacks**, whatever the
modes are. -/
theorem apply_outcome (merger : Merger) (directive : Directive) :
    (merger.apply directive).map (fun _ => ()) =
      Subject.checkAll merger.entity directive.subjects := by
  match directive with
  | .defer .all _ | .undefer .all => rfl
  | .defer (.named name) raising =>
      rw [Directive.subjects, ← index_outcome, apply, deferOne]
      cases merger.index name with
      | error fault => rfl
      | ok position =>
          by_cases key : merger.entity.isPrimaryKey name
          · exact congrArg (Except.map _) (if_pos key)
          · refine (congrArg (Except.map _) (if_neg key)).trans ?_
            split <;> rfl
  | .undefer (.named name) =>
      rw [Directive.subjects, ← index_outcome, apply]
      cases merger.index name <;> rfl
  | .undeferGroup group =>
      rw [Directive.subjects, Subject.checkAll, apply]
      by_cases known : merger.entity.hasGroup group
      · rw [if_pos known, if_pos (Entity.hasGroup_iff.mp known)]; rfl
      · rw [if_neg known, if_neg (mt Entity.hasGroup_iff.mpr known)]; rfl
  | .loadOnly names raising =>
      rw [Directive.subjects, ← indices_outcome, apply]
      cases names.mapM merger.index <;> rfl

end Merger

/-! ## Going on after refusals -/

/-- Directives applied to a merger in place, one after the other. One that is refused does not keep
the next from being applied. -/
def mergeEach (directives : List Directive) : StateM Merger (List (Except LoaderFault Unit)) :=
  directives.mapM fun directive => directive.merge.run

/-- Those of the directives that were not refused. -/
def accepted (directives : List Directive) (outcomes : List (Except LoaderFault Unit)) :
    List Directive :=
  ((directives.zip outcomes).filter (·.2.isOk)).map Prod.fst

theorem mergeEach_cons_run (merger : Merger) (directive : Directive) (rest : List Directive) :
    (mergeEach (directive :: rest)).run merger =
      ((directive.merge.run.run merger).1 ::
          ((mergeEach rest).run (directive.merge.run.run merger).2).1,
        ((mergeEach rest).run (directive.merge.run.run merger).2).2) := by
  rw [mergeEach, List.mapM_cons]
  rfl

section Histories

variable {merger after : Merger} {directive : Directive} {outcome : Except LoaderFault Unit}

/-- **A directive is refused and changes nothing, or does what it does as a function.** -/
theorem Directive.merge_cases (complete : merger.modes.length = merger.entity.fields.length)
    (ran : directive.merge.run.run merger = (outcome, after)) :
    (∃ fault, outcome = .error fault ∧ after = merger) ∨
      outcome = .ok () ∧ merger.apply directive = .ok after := by
  rw [merge_run complete, Merger.settle] at ran
  cases applied : merger.apply directive with
  | error fault =>
      rw [applied] at ran
      obtain ⟨rfl, rfl⟩ := Prod.mk.inj ran
      exact .inl ⟨fault, rfl, rfl⟩
  | ok next =>
      rw [applied] at ran
      obtain ⟨rfl, rfl⟩ := Prod.mk.inj ran
      exact .inr ⟨rfl, rfl⟩

/-- One directive keeps one mode per field and the primary key loaded with the row. -/
theorem Merger.Sound.merge (sound : merger.Sound)
    (ran : directive.merge.run.run merger = (outcome, after)) :
    after.Sound ∧ after.entity = merger.entity := by
  rcases directive.merge_cases sound.complete ran with ⟨_, -, rfl⟩ | ⟨-, ok⟩
  · exact ⟨sound, rfl⟩
  · exact sound.apply ok

/-- **Directives applied one after the other come to what those come to that are not refused.** -/
theorem Merger.Sound.mergeEach (sound : merger.Sound) {directives : List Directive}
    {outcomes : List (Except LoaderFault Unit)}
    (ran : (mergeEach directives).run merger = (outcomes, after)) :
    after.Sound ∧ after.entity = merger.entity ∧
      merger.applyAll (accepted directives outcomes) = .ok after := by
  induction directives generalizing merger outcomes with
  | nil =>
      obtain ⟨rfl, rfl⟩ := Prod.mk.inj ran
      exact ⟨sound, rfl, rfl⟩
  | cons directive rest ih =>
      rw [mergeEach_cons_run] at ran
      rcases first : directive.merge.run.run merger with ⟨outcome, next⟩
      rw [first] at ran
      obtain ⟨rfl, rfl⟩ := Prod.mk.inj ran
      obtain ⟨soundNext, same⟩ := sound.merge first
      obtain ⟨soundAfter, last, later⟩ := ih soundNext rfl
      refine ⟨soundAfter, last.trans same, ?_⟩
      rcases directive.merge_cases sound.complete first with ⟨fault, rfl, rfl⟩ | ⟨rfl, ok⟩
      · exact later
      · refine Eq.trans ?_ later
        change merger.applyAll (directive :: accepted rest _) = _
        rw [Merger.applyAll, ok]
        rfl

theorem Merger.Sound.eager_of_key (sound : merger.Sound) {index : Nat} {field : Field}
    (here : merger.entity.fields[index]? = some field)
    (key : merger.entity.isPrimaryKey field.name) : merger.modes[index]? = some .eager := by
  obtain ⟨inside, -⟩ := List.getElem?_eq_some_iff.mp here
  have there := List.getElem?_eq_getElem (sound.complete ▸ inside)
  rw [there, sound.keyed here there key]

/-- **Applying a directive is all or nothing.** Let a merger be reached from the defaults of an
entity by any directives, some of which may have been refused, and apply one more. It is refused for
the first thing it names that the entity lacks, and then the merger is what it was; if it is not
refused, every attribute that it does not touch keeps its mode. Either way there is one mode per
field, and the primary key is loaded with the row. So the plan reached is the one that is merged
from the directives that were not refused. -/
theorem Directive.refused_or_applied (entity : Entity) {history : List Directive}
    {outcomes : List (Except LoaderFault Unit)}
    (reached : (mergeEach history).run (.start entity) = (outcomes, merger))
    (ran : directive.merge.run.run merger = (outcome, after)) :
    (∀ fault, outcome = .error fault → after.modes = merger.modes) ∧
    (outcome = .ok () → ∀ (index : Nat) (field : Field), entity.fields[index]? = some field →
      directive.touches field = false → after.modes[index]? = merger.modes[index]?) ∧
    (after.modes.length = entity.fields.length ∧
      ∀ (index : Nat) (field : Field), entity.fields[index]? = some field →
        entity.isPrimaryKey field.name → after.modes[index]? = some .eager) ∧
    outcome = Subject.checkAll entity directive.subjects ∧
    LoadPlan.merge entity (accepted history outcomes) = .ok merger.finish := by
  obtain ⟨sound, (whole : merger.entity = entity), merged⟩ :=
    (Merger.sound_start entity).mergeEach reached
  obtain ⟨soundAfter, same⟩ := sound.merge ran
  have wholeAfter := same.trans whole
  refine ⟨fun fault refused => ?_, fun ok index field here untouched => ?_, ⟨?_, ?_⟩, ?_, ?_⟩
  · rcases directive.merge_cases sound.complete ran with ⟨_, -, rfl⟩ | ⟨accepted, -⟩
    · rfl
    · rw [refused] at accepted
      cases accepted
  · rcases directive.merge_cases sound.complete ran with ⟨_, refused, -⟩ | ⟨-, applied⟩
    · rw [ok] at refused
      cases refused
    · exact Merger.apply_keeps applied (whole.symm ▸ here) untouched
  · rw [soundAfter.complete, wholeAfter]
  · rw [← wholeAfter]
    exact fun index field => soundAfter.eager_of_key
  · rw [Directive.merge_run sound.complete] at ran
    rw [← (Prod.mk.inj ran).1, ← whole]
    exact Merger.apply_outcome merger directive
  · rw [LoadPlan.merge, merged]
    rfl

open Directive in
/-- Books lack a group and an attribute. The directive that names the group leaves no trace in the
plan, and the one that names the attribute leaves the modes as they are, though it could have
been applied to the other attribute it names. -/
theorem Catalogue.book_goes_on_after_refusals :
    let history := [defer (.named "title") true, undeferGroup "profile", undefer (.named "summary")]
    let kept := ((mergeEach history).run (.start bookEntity)).2
    let last := (loadOnly ["isbn", "covers"] false).merge.run.run kept
    last.1 = .error (.unknownAttribute "books" "covers") ∧ last.2.modes = kept.modes ∧
      LoadPlan.merge bookEntity [defer (.named "title") true, undefer (.named "summary")] =
        .ok kept.finish := by
  intro history kept last
  have reached : (mergeEach history).run (.start bookEntity) =
      ([.ok (), .error (.unknownGroup "books" "profile"), .ok ()], kept) := by rfl
  have refused : (loadOnly ["isbn", "covers"] false).merge.run.run kept =
      (.error (.unknownAttribute "books" "covers"), last.2) := by rfl
  obtain ⟨unchanged, -, -, -, plan⟩ := Directive.refused_or_applied bookEntity reached refused
  exact ⟨congrArg Prod.fst refused, unchanged _ rfl, plan⟩

end Histories

end LazyMapper
