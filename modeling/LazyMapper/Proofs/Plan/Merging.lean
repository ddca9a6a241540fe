import Mathlib.Data.List.Nodup
import LazyMapper.Model.Catalogue
import LazyMapper.Plan.Merge
import LazyMapper.Proofs.Entity.Validity

/-!
# The last directive wins

What a merged plan is, said without merging. A directive names attributes and groups, which its
entity must have; the first that it does not have is the fault (`Subject.checkAll`). A directive
touches fields and gives each of them a mode, whatever mode the field had before. So the mode of
a field outside the primary key is the one that the last directive touching it gives
(`Field.modeUnder`), and that of its mapping when no directive touches it.

Merging does both for each directive in turn (`Merger.apply_under`). The induction over the
directives keeps the modes in the form of the directives merged so far
(`Merger.applyAll_under`).
-/

set_option autoImplicit false

namespace LazyMapper

/-! ## What directives name -/

/-- What a directive names: an attribute or a deferred group. -/
inductive Subject where
  | attribute (name : String)
  | group (name : String)
deriving DecidableEq

namespace Subject

/-- The entity has the attribute, or some attribute in the group. -/
def In (entity : Entity) : Subject → Prop
  | .attribute name => ∃ field ∈ entity.fields, field.name = name
  | .group name => ∃ field ∈ entity.fields, field.load = .deferredGroup name

instance (entity : Entity) : (subject : Subject) → Decidable (subject.In entity)
  | .attribute name => inferInstanceAs (Decidable (∃ field ∈ entity.fields, field.name = name))
  | .group name =>
    inferInstanceAs (Decidable (∃ field ∈ entity.fields, field.load = .deferredGroup name))

/-- The fault of naming what the entity does not have. -/
def fault (entity : Entity) : Subject → LoaderFault
  | .attribute name => .unknownAttribute entity.table name
  | .group name => .unknownGroup entity.table name

/-- The entity has all the subjects, or the fault of the first that it does not have. -/
def checkAll (entity : Entity) : List Subject → Except LoaderFault Unit
  | [] => .ok ()
  | subject :: rest =>
    if subject.In entity then checkAll entity rest else .error (subject.fault entity)

variable {entity : Entity} {subject : Subject} {subjects : List Subject}

theorem checkAll_append (first second : List Subject) :
    checkAll entity (first ++ second) =
      checkAll entity first >>= fun _ => checkAll entity second := by
  induction first with
  | nil => rfl
  | cons subject rest ih =>
      rw [List.cons_append, checkAll, checkAll, ih]
      split <;> rfl

theorem checkAll_eq_ok :
    checkAll entity subjects = .ok () ↔ ∀ subject ∈ subjects, subject.In entity := by
  induction subjects with
  | nil => simp [checkAll]
  | cons subject rest ih =>
      rw [checkAll, List.forall_mem_cons]
      split
      · rename_i here
        rw [ih, and_iff_right here]
      · rename_i missing
        exact ⟨nofun, fun all => absurd all.1 missing⟩

/-- The check fails for the first subject that the entity does not have. -/
theorem checkAll_eq_error {fault : LoaderFault} : checkAll entity subjects = .error fault ↔
    ∃ front missing back, subjects = front ++ missing :: back ∧
      (∀ subject ∈ front, subject.In entity) ∧ ¬ missing.In entity ∧
        fault = missing.fault entity := by
  constructor
  · intro failed
    induction subjects with
    | nil => cases failed
    | cons subject rest ih =>
        rw [checkAll] at failed
        split at failed
        · rename_i here
          obtain ⟨front, missing, back, rfl, known, unknown, rfl⟩ := ih failed
          exact ⟨subject :: front, missing, back, rfl,
            List.forall_mem_cons.mpr ⟨here, known⟩, unknown, rfl⟩
        · rename_i missing
          exact ⟨[], subject, rest, rfl, nofun, missing, (Except.error.inj failed).symm⟩
  · rintro ⟨front, missing, back, rfl, known, unknown, rfl⟩
    rw [checkAll_append, checkAll_eq_ok.mpr known]
    exact if_neg unknown

end Subject

namespace Directive

/-- What a directive names, in the order in which it is looked for. -/
def subjects : Directive → List Subject
  | .defer .all _ | .undefer .all => []
  | .defer (.named name) _ | .undefer (.named name) => [.attribute name]
  | .undeferGroup group => [.group group]
  | .loadOnly names _ => names.map .attribute

/-! ## What directives say of a field -/

/-- The directive has a say in the mode of a field. -/
def touches (field : Field) : Directive → Bool
  | .defer .all _ | .undefer .all | .loadOnly .. => true
  | .defer (.named name) _ | .undefer (.named name) => field.name == name
  | .undeferGroup group => field.load == .deferredGroup group

/-- The mode that the directive gives a field that it touches. A field that is left out of the
row stays in the group of its mapping. -/
def modeFor (field : Field) : Directive → ResolvedMode
  | .undefer _ | .undeferGroup _ => .eager
  | .defer _ raising => if raising then .raising else .deferred field.load.group?
  | .loadOnly names raising =>
    if field.name ∈ names then .eager
    else if raising then .raising else .deferred field.load.group?

end Directive

/-- What the last of the directives that touch a field says of its mode, and what its mapping says
if there is none. -/
def Field.modeUnder (field : Field) (directives : List Directive) : ResolvedMode :=
  match (directives.filter (·.touches field)).getLast? with
  | some directive => directive.modeFor field
  | none => .ofLoadMode field.load

theorem Field.modeUnder_concat (field : Field) (directives : List Directive)
    (directive : Directive) :
    field.modeUnder (directives ++ [directive]) =
      if directive.touches field then directive.modeFor field else field.modeUnder directives := by
  unfold modeUnder
  rw [List.filter_append, List.filter_singleton]
  cases directive.touches field <;> simp

namespace LoadPlan

/-- The mode of a field in the plan of an entity under directives. -/
def modeUnder (entity : Entity) (directives : List Directive) (field : Field) : ResolvedMode :=
  if entity.isPrimaryKey field.name then .eager else field.modeUnder directives

/-- The attribute of a field in the plan of an entity under directives. -/
def attributeUnder (entity : Entity) (directives : List Directive) (field : Field) :
    PlannedAttribute :=
  ⟨field.name, field.column, modeUnder entity directives field, entity.isPrimaryKey field.name⟩

end LoadPlan

/-! ## Fields by name -/

namespace Entity

variable {entity : Entity} {name : String}

theorem attribute_in_iff :
    (Subject.attribute name).In entity ↔ ∃ index, entity.index? name = some index := by
  rw [← Option.isSome_iff_exists, index?, List.findIdx?_isSome]
  simp [Subject.In]

theorem hasGroup_iff : entity.hasGroup name ↔ (Subject.group name).In entity := by
  simp only [hasGroup, Subject.In, List.any_eq_true, beq_iff_eq]
  refine exists_congr fun field => and_congr_right fun _ => ?_
  cases field.load <;> simp [LoadMode.group?]

/-- Replacing the item of the field that is found under a name. -/
theorem map_set_index? {α : Type} (distinct : (entity.fields.map Field.name).Nodup) {index : Nat}
    (found : entity.index? name = some index) (ofField : Field → α) (item : α) :
    (entity.fields.map ofField).set index item =
      entity.fields.map fun field => if field.name = name then item else ofField field := by
  obtain ⟨field, here, rfl⟩ := exists_field_of_index? found
  apply List.ext_getElem?
  intro position
  rw [List.getElem?_set, List.getElem?_map, List.getElem?_map, List.length_map]
  by_cases same : index = position
  · subst same
    rw [if_pos rfl, if_pos (List.getElem?_eq_some_iff.mp here).1, here, Option.map_some,
      if_pos rfl]
  · rw [if_neg same]
    cases there : entity.fields[position]? with
    | none => rfl
    | some other =>
        have apart : other.name ≠ field.name := fun named => by
          have first : (entity.fields.map Field.name)[index]? = some field.name := by simp [here]
          have second : (entity.fields.map Field.name)[position]? = some field.name := by
            simp [there, named]
          have inside := (List.getElem?_eq_some_iff.mp first).1
          exact same ((List.getElem?_inj inside distinct).mp (first.trans second.symm))
        rw [Option.map_some, Option.map_some, if_neg apart]

end Entity

/-! ## Merging -/

namespace Merger

variable {entity : Entity} {name : String} {mode : Field → ResolvedMode}

/-- The merger of an entity in which every field has its mode under directives. -/
def under (entity : Entity) (directives : List Directive) : Merger :=
  ⟨entity, entity.fields.map (LoadPlan.modeUnder entity directives)⟩

/-- Modes given field by field are those under one more directive. -/
theorem eq_under_concat {directives : List Directive} {directive : Directive}
    (same : ∀ field ∈ entity.fields, mode field =
      if entity.isPrimaryKey field.name then .eager
      else if directive.touches field then directive.modeFor field
      else field.modeUnder directives) :
    Merger.mk entity (entity.fields.map mode) = under entity (directives ++ [directive]) := by
  refine congrArg (Merger.mk entity) (List.map_congr_left fun field member => ?_)
  rw [same field member, LoadPlan.modeUnder, Field.modeUnder_concat]

theorem changeEach_map (rule : Field → ResolvedMode → ResolvedMode) :
    (Merger.mk entity (entity.fields.map mode)).changeEach rule =
      ⟨entity, entity.fields.map fun field => rule field (mode field)⟩ := by
  simp only [changeEach, List.zipWith_map_right, List.zipWith_self]

/-- What is done at the position of an attribute is done when the entity has it. -/
theorem index_bind {merger after : Merger} {next : Nat → Except LoaderFault Merger}
    (done : ∀ index, merger.entity.index? name = some index → next index = .ok after) :
    merger.index name >>= next =
      (Subject.checkAll merger.entity [.attribute name]).map fun _ => after := by
  rw [Subject.checkAll]
  unfold Merger.index
  cases found : merger.entity.index? name with
  | none =>
      have unknown : ¬ (Subject.attribute name).In merger.entity := by
        simp [Entity.attribute_in_iff, found]
      rw [if_neg unknown]
      rfl
  | some index =>
      rw [if_pos (Entity.attribute_in_iff.mpr ⟨index, found⟩)]
      exact done index found

/-- Replacing the mode of one attribute, by what a directive that touches only this one says. -/
theorem set_under (distinct : (entity.fields.map Field.name).Nodup) (directives : List Directive)
    {directive : Directive} (single : ∀ field, directive.touches field = (field.name == name))
    {index : Nat} (found : entity.index? name = some index) {mode : ResolvedMode}
    (given : ∀ field ∈ entity.fields, field.name = name →
      mode = if entity.isPrimaryKey name then .eager else directive.modeFor field) :
    (under entity directives).setAt index mode = under entity (directives ++ [directive]) := by
  refine (congrArg (Merger.mk entity) (Entity.map_set_index? distinct found _ _)).trans
    (eq_under_concat fun field member => ?_)
  by_cases same : field.name = name
  · simp [single, same, given field member same]
  · simp [single, same, LoadPlan.modeUnder]

/-- Loading the named attributes with the row. -/
theorem undefer_names (merger : Merger) (distinct : (merger.entity.fields.map Field.name).Nodup)
    (names : List String) (mode : Field → ResolvedMode) :
    (names.mapM merger.index).map
        (Merger.mk merger.entity (merger.entity.fields.map mode)).undeferAt =
      (Subject.checkAll merger.entity (names.map .attribute)).map fun _ =>
        ⟨merger.entity, merger.entity.fields.map fun field =>
          if field.name ∈ names then .eager else mode field⟩ := by
  induction names generalizing mode with
  | nil => simp [Subject.checkAll, Except.map, undeferAt, pure, Except.pure]
  | cons name rest ih =>
      rw [List.mapM_cons, List.map_cons, Subject.checkAll, Merger.index]
      cases found : merger.entity.index? name with
      | none =>
          have unknown : ¬ (Subject.attribute name).In merger.entity := by
            simp [Entity.attribute_in_iff, found]
          rw [if_neg unknown]
          rfl
      | some index =>
          have later := ih fun field => if field.name = name then .eager else mode field
          have replaced (kept : List Nat) :
              (Merger.mk merger.entity (merger.entity.fields.map mode)).undeferAt
                  (index :: kept) =
                (Merger.mk merger.entity (merger.entity.fields.map fun field =>
                  if field.name = name then .eager else mode field)).undeferAt kept := by
            rw [← Entity.map_set_index? distinct found]
            rfl
          have members (field : Field) :
              (if field.name ∈ rest then .eager
                else if field.name = name then .eager else mode field) =
                if field.name ∈ name :: rest then .eager else mode field := by
            by_cases same : field.name = name
            · simp [same]
            · simp [same]
          rw [if_pos (Entity.attribute_in_iff.mpr ⟨index, found⟩)]
          simp only [members] at later
          rw [← later]
          cases rest.mapM merger.index with
          | error fault => rfl
          | ok kept => exact congrArg Except.ok (replaced kept)

theorem deferAll_under (directives : List Directive) (raising : Bool) :
    (under entity directives).deferAll raising = ⟨entity, entity.fields.map fun field =>
      if entity.isPrimaryKey field.name then .eager else leftOut field raising⟩ := by
  rw [deferAll, under, changeEach_map]
  refine congrArg (Merger.mk entity) (List.map_congr_left fun field _ => ?_)
  rw [LoadPlan.modeUnder]
  split <;> rfl

theorem deferOne_under (distinct : (entity.fields.map Field.name).Nodup)
    (directives : List Directive) (name : String) (raising : Bool) :
    (under entity directives).deferOne name raising =
      (Subject.checkAll entity [.attribute name]).map fun _ =>
        under entity (directives ++ [.defer (.named name) raising]) := by
  refine index_bind fun index found => ?_
  obtain ⟨field, here, named⟩ := Entity.exists_field_of_index? found
  by_cases key : entity.isPrimaryKey name
  · refine (if_pos key).trans (congrArg Except.ok (eq_under_concat fun other _ => ?_))
    rw [LoadPlan.modeUnder]
    split
    · rfl
    · rename_i outside
      have apart : other.name ≠ name := fun same => outside (same ▸ key)
      rw [if_neg (by simpa [Directive.touches] using apart)]
  · have read : (under entity directives).entity.fields[index]? = some field := here
    refine (if_neg key).trans ?_
    simp only [read]
    refine congrArg Except.ok
      (set_under distinct directives (fun _ => rfl) found fun other member same => ?_)
    obtain rfl : other = field := List.inj_on_of_nodup_map distinct member
      (List.mem_of_getElem? here) (same.trans named.symm)
    rw [if_neg key]
    rfl

/-- **One more directive is refused for the first thing it names that the entity lacks**, and is
the last to touch the fields it touches otherwise. -/
theorem apply_under (distinct : (entity.fields.map Field.name).Nodup)
    (directives : List Directive) (directive : Directive) :
    (under entity directives).apply directive =
      (Subject.checkAll entity directive.subjects).map fun _ =>
        under entity (directives ++ [directive]) := by
  match directive with
  | .defer .all raising =>
    refine congrArg Except.ok ((deferAll_under directives raising).trans ?_)
    exact eq_under_concat fun field _ => rfl
  | .undefer .all =>
    refine congrArg Except.ok ((changeEach_map _).trans (eq_under_concat fun field _ => ?_))
    exact (ite_self _).symm
  | .defer (.named name) raising => exact deferOne_under distinct directives name raising
  | .undefer (.named name) =>
    refine index_bind fun index found => congrArg Except.ok ?_
    exact set_under distinct directives (fun _ => rfl) found fun _ _ _ => (ite_self _).symm
  | .undeferGroup group =>
    simp only [apply, Directive.subjects, Subject.checkAll]
    by_cases known : (Subject.group group).In entity
    · rw [if_pos known]
      refine (if_pos (Entity.hasGroup_iff.mpr known)).trans ?_
      refine congrArg Except.ok ((changeEach_map _).trans (eq_under_concat fun field _ => ?_))
      have grouped : field.load.group? = some group ↔ field.load = .deferredGroup group := by
        cases field.load <;> simp [LoadMode.group?]
      by_cases member : field.load = .deferredGroup group
      · simp [member, LoadMode.group?, Directive.touches, Directive.modeFor]
      · simp [grouped, member, Directive.touches, LoadPlan.modeUnder]
    · rw [if_neg known]
      exact if_neg (mt Entity.hasGroup_iff.mp known)
  | .loadOnly names raising =>
    have undeferred := undefer_names (under entity directives) distinct names fun field =>
      if entity.isPrimaryKey field.name then .eager else leftOut field raising
    simp only [apply, deferAll_under, Directive.subjects]
    refine Eq.trans ?_ (undeferred.trans ?_)
    · cases names.mapM (under entity directives).index <;> rfl
    · refine congrArg (Except.map · _) (funext fun _ => eq_under_concat fun field _ => ?_)
      by_cases member : field.name ∈ names
      · simp [member, Directive.touches, Directive.modeFor]
      · simp [member, Directive.touches, Directive.modeFor, leftOut, under]

/-- Directives merged one after the other. -/
theorem applyAll_under (distinct : (entity.fields.map Field.name).Nodup)
    (before directives : List Directive) :
    (under entity before).applyAll directives =
      (Subject.checkAll entity (directives.flatMap Directive.subjects)).map fun _ =>
        under entity (before ++ directives) := by
  induction directives generalizing before with
  | nil => simp [applyAll, Subject.checkAll, Except.map]
  | cons directive rest ih =>
      rw [applyAll, apply_under distinct, List.flatMap_cons, Subject.checkAll_append]
      cases Subject.checkAll entity directive.subjects with
      | error fault => rfl
      | ok _ =>
          have later := ih (before ++ [directive])
          rw [List.append_assoc, List.singleton_append] at later
          exact later

theorem finish_under (entity : Entity) (directives : List Directive) :
    (under entity directives).finish =
      ⟨entity, entity.fields.map (LoadPlan.attributeUnder entity directives)⟩ := by
  simp only [finish, under, List.zipWith_map_right, List.zipWith_self]
  rfl

end Merger

namespace LoadPlan

variable {entity : Entity}

/-- Merging as a check of what the directives name, and a plan that says of every field what the
last directive touching it does. -/
theorem merge_eq (distinct : (entity.fields.map Field.name).Nodup)
    (directives : List Directive) :
    merge entity directives =
      (Subject.checkAll entity (directives.flatMap Directive.subjects)).map fun _ =>
        ⟨entity, entity.fields.map (attributeUnder entity directives)⟩ := by
  have merged := Merger.applyAll_under distinct [] directives
  rw [List.nil_append] at merged
  rw [merge, show Merger.start entity = Merger.under entity [] from rfl, merged,
    ← Merger.finish_under]
  cases Subject.checkAll entity (directives.flatMap Directive.subjects) <;> rfl

/-- Merging succeeds when everything that the directives name is there. -/
theorem merge_succeeds_iff (distinct : (entity.fields.map Field.name).Nodup)
    (directives : List Directive) :
    (∃ plan, merge entity directives = .ok plan) ↔
      ∀ directive ∈ directives, ∀ subject ∈ directive.subjects, subject.In entity := by
  rw [← List.forall_mem_flatMap, ← Subject.checkAll_eq_ok, merge_eq distinct]
  cases Subject.checkAll entity (directives.flatMap Directive.subjects) <;> simp [Except.map]

/-- **The last directive that touches an attribute decides on it.** Merging fails for the first
thing that the directives name and the entity does not have. If there is none, the plan lists the
fields of the entity in their order; those of the primary key are loaded with the row, and each
other one is loaded as the last directive that touches it says, or as its mapping says if none
does. -/
theorem merge_last_wins (distinct : (entity.fields.map Field.name).Nodup)
    (directives : List Directive) :
    ((∃ plan, merge entity directives = .ok plan) ↔
      ∀ directive ∈ directives, ∀ subject ∈ directive.subjects, subject.In entity) ∧
    (∀ fault, merge entity directives = .error fault ↔
      ∃ front missing back, directives.flatMap Directive.subjects = front ++ missing :: back ∧
        (∀ subject ∈ front, subject.In entity) ∧ ¬ missing.In entity ∧
          fault = missing.fault entity) ∧
    ∀ plan, merge entity directives = .ok plan → plan.entity = entity ∧
      plan.attributes = entity.fields.map fun field =>
        ⟨field.name, field.column,
          if entity.isPrimaryKey field.name then .eager else field.modeUnder directives,
          entity.isPrimaryKey field.name⟩ := by
  refine ⟨merge_succeeds_iff distinct directives, fun fault => ?_, fun plan merged => ?_⟩
  · rw [← Subject.checkAll_eq_error, merge_eq distinct]
    cases Subject.checkAll entity (directives.flatMap Directive.subjects) <;> simp [Except.map]
  · rw [merge_eq distinct] at merged
    cases known : Subject.checkAll entity (directives.flatMap Directive.subjects) with
    | error fault =>
        rw [known] at merged
        cases merged
    | ok _ =>
        rw [known] at merged
        obtain rfl := Except.ok.inj merged
        exact ⟨rfl, rfl⟩

end LoadPlan

/-- Sweeping directives, a group and single attributes on a book, and a name that no book has. -/
theorem Catalogue.book_last_wins :
    (∃ plan, LoadPlan.merge bookEntity [.defer .all false, .undeferGroup "media",
        .loadOnly ["title", "cover"] true, .defer (.named "cover") false] = .ok plan ∧
      plan.attributes.map PlannedAttribute.mode = [.eager, .eager, .raising, .raising,
        .deferred (some "media"), .raising, .raising]) ∧
    LoadPlan.merge bookEntity [.undefer .all, .loadOnly ["title", "covers", "pages"] false] =
      .error (.unknownAttribute "books" "covers") := by
  have distinct : (bookEntity.fields.map Field.name).Nodup := by decide
  constructor
  · obtain ⟨succeeds, -, modes⟩ := LoadPlan.merge_last_wins distinct [.defer .all false,
      .undeferGroup "media", .loadOnly ["title", "cover"] true, .defer (.named "cover") false]
    obtain ⟨plan, merged⟩ := succeeds.mpr (by decide)
    exact ⟨plan, merged, by rw [(modes plan merged).2]; decide⟩
  · refine ((LoadPlan.merge_last_wins distinct _).2.1 _).mpr
      ⟨[.attribute "title"], .attribute "covers", [.attribute "pages"], rfl, ?_, ?_, rfl⟩
    · decide
    · decide

end LazyMapper
