import LazyMapper.Loader.Tree

/-!
# Readings that end alike

Two ways of writing the same options do not fail with the same fault, since a fault quotes what
was written. They end alike: both with related results, or both with faults of one kind. Ending
alike is kept by sequencing (`EndsAlike.bind`).

The root entity of an option depends on the root it names, the first relationship of its path
and, without a path, on its directive. Options that agree on these find roots that end alike,
and so they do when the entities are given in another order (`FlatOption.checkedRoot_alike`).
-/

set_option autoImplicit false

namespace LazyMapper

/-- Two readings of options end with related results, or with faults of one kind. -/
inductive EndsAlike {α β : Type} (related : α → β → Prop) :
    Except LoaderFault α → Except LoaderFault β → Prop where
  | ok {left : α} {right : β} (results : related left right) :
      EndsAlike related (.ok left) (.ok right)
  | error {left right : LoaderFault} (kinds : left.kind = right.kind) :
      EndsAlike related (.error left) (.error right)

namespace EndsAlike

variable {α β γ δ : Type}

theorem refl (reading : Except LoaderFault α) : EndsAlike (· = ·) reading reading := by
  cases reading with
  | ok result => exact .ok rfl
  | error fault => exact .error rfl

theorem mono {related weaker : α → β → Prop} {left : Except LoaderFault α}
    {right : Except LoaderFault β} (alike : EndsAlike related left right)
    (implied : ∀ first second, related first second → weaker first second) :
    EndsAlike weaker left right := by
  cases alike with
  | ok results => exact .ok (implied _ _ results)
  | error kinds => exact .error kinds

/-- Readings that end alike, continued in ways that end alike on related results. -/
theorem bind {related : α → β → Prop} {after : γ → δ → Prop} {left : Except LoaderFault α}
    {right : Except LoaderFault β} {next : α → Except LoaderFault γ}
    {next' : β → Except LoaderFault δ} (alike : EndsAlike related left right)
    (continued : ∀ first second, related first second →
      EndsAlike after (next first) (next' second)) :
    EndsAlike after (left >>= next) (right >>= next') := by
  cases alike with
  | ok results => exact continued _ _ results
  | error kinds => exact .error kinds

end EndsAlike

/-! ## The root of an option -/

theorem onlyOne_alike {candidates candidates' : List Entity} (same : candidates.Perm candidates')
    {nobody nobody' : LoaderFault} {several several' : List String → LoaderFault}
    (none : nobody.kind = nobody'.kind)
    (many : ∀ tables tables', (several tables).kind = (several' tables').kind) :
    EndsAlike (· = ·) (onlyOne candidates nobody several)
      (onlyOne candidates' nobody' several') := by
  match candidates with
  | [] =>
    obtain rfl := same.nil_eq
    exact .error none
  | [entity] =>
    obtain rfl := List.singleton_perm.mp same
    exact .ok rfl
  | one :: two :: more =>
    match candidates', same.length_eq with
    | _ :: _ :: _, _ => exact .error (many _ _)

/-- Entities in two orders are one entity, or none or several both times. -/
theorem single_or_not {entities entities' : List Entity} (same : entities.Perm entities') :
    (∃ entity, entities = [entity] ∧ entities' = [entity]) ∨
      (entities.length ≠ 1 ∧ entities'.length ≠ 1) := by
  by_cases single : entities.length = 1
  · obtain ⟨entity, rfl⟩ := List.length_eq_one_iff.mp single
    exact .inl ⟨entity, rfl, (List.singleton_perm.mp same).symm⟩
  · exact .inr ⟨single, same.length_eq ▸ single⟩

theorem rootOfPath_of_length_ne_one {entities : List Entity} (apart : entities.length ≠ 1)
    (first label : String) :
    rootOfPath entities first label =
      onlyOne (entities.filter fun entity => (entity.relationship? first).isSome)
        (.noRelationshipOwner label first) (.manyRelationshipOwners label first) := by
  unfold rootOfPath
  split
  · exact absurd rfl apart
  · rfl

/-- The root of a path depends neither on the order of the entities nor on the label of what asks
for it. -/
theorem rootOfPath_alike {entities entities' : List Entity} (same : entities.Perm entities')
    (first label label' : String) :
    EndsAlike (· = ·) (rootOfPath entities first label) (rootOfPath entities' first label') := by
  rcases single_or_not same with ⟨entity, rfl, rfl⟩ | ⟨apart, apart'⟩
  · exact .ok rfl
  · rw [rootOfPath_of_length_ne_one apart, rootOfPath_of_length_ne_one apart']
    exact onlyOne_alike (same.filter _) rfl fun _ _ => rfl

namespace FlatOption

variable {entities entities' : List Entity}

theorem ownerOf_alike (same : entities.Perm entities') (label label' : String)
    (directive : Directive) :
    EndsAlike (· = ·) (ownerOf entities label directive)
      (ownerOf entities' label' directive) := by
  match directive with
  | .defer (.named name) _ | .undefer (.named name) =>
    exact onlyOne_alike (same.filter _) (by rfl) fun _ _ => by rfl
  | .undeferGroup group => exact onlyOne_alike (same.filter _) (by rfl) fun _ _ => by rfl
  | .defer .all _ | .undefer .all | .loadOnly .. => exact .error rfl

theorem contains_of_perm (same : entities.Perm entities') (entity : Entity) :
    entities.contains entity = entities'.contains entity := by
  rw [Bool.eq_iff_iff, List.contains_iff_exists_mem_beq, List.contains_iff_exists_mem_beq]
  simp only [same.mem_iff]

/-- What an option without a named root asks among none or several entities. -/
theorem root_of_length_ne_one (apart : entities.length ≠ 1) {path : Path}
    {directive? : Option Directive} {label : String} :
    root entities ⟨none, path, directive?, label⟩ =
      match path, directive? with
      | first :: _, _ => rootOfPath entities first label
      | [], none => .error (.emptyOption label)
      | [], some directive => ownerOf entities label directive := by
  match entities, path, directive? with
  | [_], _, _ => exact absurd rfl apart
  | [], [], none | [], [], some _ | [], _ :: _, _ => rfl
  | _ :: _ :: _, [], none | _ :: _ :: _, [], some _ | _ :: _ :: _, _ :: _, _ => rfl

variable {left right : FlatOption}

theorem root_alike (same : entities.Perm entities') (roots : left.root? = right.root?)
    (hops : left.path.head? = right.path.head?)
    (directives : left.path = [] → left.directive? = right.directive?) :
    EndsAlike (· = ·) (left.root entities) (right.root entities') := by
  obtain ⟨root?, path, directive?, label⟩ := left
  obtain ⟨root?', path', directive?', label'⟩ := right
  obtain rfl : root? = root?' := roots
  cases root? with
  | some entity =>
      simp only [root, contains_of_perm same]
      split
      · exact .ok rfl
      · exact .error rfl
  | none =>
      rcases single_or_not same with ⟨entity, rfl, rfl⟩ | ⟨apart, apart'⟩
      · exact .ok rfl
      rw [root_of_length_ne_one apart, root_of_length_ne_one apart']
      match path, path' with
      | [], [] =>
        obtain rfl : directive? = directive?' := directives rfl
        cases directive? with
        | none => exact .error rfl
        | some directive => exact ownerOf_alike same label label' directive
      | first :: _, first' :: _ =>
        obtain rfl : first = first' := by simpa using hops
        exact rootOfPath_alike same first label label'

/-- Options that name the same root, have the same first relationship in their paths and, without
one, the same directive, find roots that end alike, in whatever order the entities are given. -/
theorem checkedRoot_alike (same : entities.Perm entities') (roots : left.root? = right.root?)
    (hops : left.path.head? = right.path.head?)
    (directives : left.path = [] → left.directive? = right.directive?) :
    EndsAlike (· = ·) (left.checkedRoot entities) (right.checkedRoot entities') := by
  refine (root_alike same roots hops directives).bind ?_
  rintro entity _ rfl
  match leftPath : left.path, rightPath : right.path with
  | [], [] => exact .ok rfl
  | first :: _, [] | [], first :: _ => simp [leftPath, rightPath] at hops
  | first :: _, first' :: _ =>
    obtain rfl : first = first' := by simpa [leftPath, rightPath] using hops
    by_cases missing : (entity.relationship? first).isNone
    · simp only [missing]
      exact .error rfl
    · simp only [missing]
      exact .ok rfl

end FlatOption

end LazyMapper
