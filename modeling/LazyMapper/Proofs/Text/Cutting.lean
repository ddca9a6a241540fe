import LazyMapper.Text.Dotted

/-!
# Cutting a text behind a dot

What becomes of the parts of a text when another text and a dot are put in front of it. The
parts between the dots come behind those of the front (`splitDots_append_dot`). The cut at the
last dot stays where it is when the text has a dot, and otherwise falls at the new one
(`splitLastDot_append_dot`). Names have no dots, so a chain of names is cut into these names.

Nothing is lost in cutting: joined by dots, the parts are the text again (`joinDots_splitDots`),
and behind the last dot stands all that has no dot (`splitLastDot_eq_some_iff`).
-/

set_option autoImplicit false

namespace LazyMapper.Text

theorem splitDots_ne_nil (text : List Char) : splitDots text ≠ [] := by
  induction text with
  | nil => simp [splitDots]
  | cons char rest ih =>
      by_cases dot : char = '.'
      · simp [splitDots, dot]
      · obtain ⟨part, parts, split⟩ := List.exists_cons_of_ne_nil ih
        simp [splitDots, dot, split]

/-- The parts of two texts joined by a dot are those of the one and those of the other. -/
theorem splitDots_append_dot (front rest : List Char) :
    splitDots (front ++ '.' :: rest) = splitDots front ++ splitDots rest := by
  induction front with
  | nil => simp [splitDots]
  | cons char front ih =>
      by_cases dot : char = '.'
      · simp [splitDots, dot, ih]
      · obtain ⟨part, parts, split⟩ := List.exists_cons_of_ne_nil (splitDots_ne_nil front)
        simp [splitDots, dot, ih, split]

theorem splitDots_of_dotless {text : List Char} (dotless : '.' ∉ text) :
    splitDots text = [text] := by
  induction text with
  | nil => rfl
  | cons char rest ih =>
      rw [List.mem_cons, not_or] at dotless
      have other : char ≠ '.' := fun same => dotless.1 same.symm
      simp [splitDots, other, ih dotless.2]

theorem dotless_of_isName {token : List Char} (name : isName token) : '.' ∉ token := by
  cases token with
  | nil => simp
  | cons first rest =>
      obtain ⟨start, more⟩ : isNameStart first = true ∧ ∀ char ∈ rest, isNameRest char = true := by
        simpa [isName] using name
      intro dot
      rcases List.mem_cons.mp dot with same | later
      · rw [← same] at start
        exact absurd start (by decide)
      · exact absurd (more '.' later) (by decide)

/-- A text that is cut at its last dot is the two parts joined by a dot. -/
theorem eq_append_dot_of_splitLastDot {text front leaf : List Char}
    (cut : splitLastDot text = some (front, leaf)) : text = front ++ '.' :: leaf := by
  induction text generalizing front with
  | nil => simp [splitLastDot] at cut
  | cons char rest ih =>
      cases later : splitLastDot rest with
      | some found =>
          obtain ⟨rfl, rfl⟩ : char :: found.1 = front ∧ found.2 = leaf := by
            simpa [splitLastDot, later] using cut
          rw [ih later, List.cons_append]
      | none =>
          obtain ⟨rfl, rfl, rfl⟩ : char = '.' ∧ [] = front ∧ rest = leaf := by
            simpa [splitLastDot, later] using cut
          rfl

/-- The last dot of a text behind another one and a dot. -/
theorem splitLastDot_append_dot (front rest : List Char) :
    splitLastDot (front ++ '.' :: rest) =
      match splitLastDot rest with
      | some cut => some (front ++ '.' :: cut.1, cut.2)
      | none => some (front, rest) := by
  induction front with
  | nil =>
      cases later : splitLastDot rest with
      | some cut => simp [splitLastDot, later]
      | none => simp [splitLastDot, later]
  | cons char front ih =>
      cases later : splitLastDot rest with
      | some cut => simp [splitLastDot, ih, later]
      | none => simp [splitLastDot, ih, later]

theorem splitLastDot_eq_none_iff {text : List Char} : splitLastDot text = none ↔ '.' ∉ text := by
  induction text with
  | nil => simp [splitLastDot]
  | cons char rest ih =>
      rw [List.mem_cons, not_or, ← ih]
      cases later : splitLastDot rest with
      | some cut => simp [splitLastDot, later]
      | none => simp [splitLastDot, later, eq_comm]

/-- A text is cut at its last dot in front of what has no dot. -/
theorem splitLastDot_eq_some_iff {text front leaf : List Char} :
    splitLastDot text = some (front, leaf) ↔ text = front ++ '.' :: leaf ∧ '.' ∉ leaf := by
  constructor
  · intro cut
    obtain rfl := eq_append_dot_of_splitLastDot cut
    refine ⟨rfl, splitLastDot_eq_none_iff.mp ?_⟩
    rw [splitLastDot_append_dot] at cut
    cases later : splitLastDot leaf with
    | none => rfl
    | some found =>
        -- What stands behind a dot of the leaf would be the leaf itself.
        simp only [later, Option.some.injEq, Prod.mk.injEq] at cut
        have longer := congrArg List.length (eq_append_dot_of_splitLastDot later)
        simp only [cut.2, List.length_append, List.length_cons] at longer
        omega
  · rintro ⟨rfl, dotless⟩
    rw [splitLastDot_append_dot, splitLastDot_eq_none_iff.mpr dotless]

/-- A text is cut at its first dot behind what has no dot. -/
theorem splitFirstDot_append_dot {front : List Char} (dotless : '.' ∉ front) (rest : List Char) :
    splitFirstDot (front ++ '.' :: rest) = some (front, rest) := by
  induction front with
  | nil => simp [splitFirstDot]
  | cons char front ih =>
      rw [List.mem_cons, not_or] at dotless
      have other : char ≠ '.' := fun same => dotless.1 same.symm
      simp [splitFirstDot, other, ih dotless.2]

theorem splitFirstDot_of_dotless {text : List Char} (dotless : '.' ∉ text) :
    splitFirstDot text = none := by
  induction text with
  | nil => rfl
  | cons char rest ih =>
      rw [List.mem_cons, not_or] at dotless
      have other : char ≠ '.' := fun same => dotless.1 same.symm
      simp [splitFirstDot, other, ih dotless.2]

/-! ## Joining what was cut -/

/-- Joined by dots, the parts of a text are the text. -/
theorem joinDots_splitDots (text : List Char) : joinDots (splitDots text) = text := by
  induction text with
  | nil => rfl
  | cons char rest ih =>
      obtain ⟨part, parts, split⟩ := List.exists_cons_of_ne_nil (splitDots_ne_nil rest)
      rw [split] at ih
      by_cases dot : char = '.'
      · simp [splitDots, dot, split, joinDots, ih]
      · cases parts with
        | nil => simpa [splitDots, dot, split, joinDots] using ih
        | cons next parts => simpa [splitDots, dot, split, joinDots] using ih

theorem dotless_of_mem_splitDots {text part : List Char} (member : part ∈ splitDots text) :
    '.' ∉ part := by
  induction text generalizing part with
  | nil =>
      obtain rfl := List.mem_singleton.mp member
      exact List.not_mem_nil
  | cons char rest ih =>
      obtain ⟨first, parts, split⟩ := List.exists_cons_of_ne_nil (splitDots_ne_nil rest)
      by_cases dot : char = '.'
      · rw [splitDots, if_pos dot] at member
        rcases List.mem_cons.mp member with rfl | later
        · exact List.not_mem_nil
        · exact ih later
      · simp only [splitDots, if_neg dot, split] at member
        rcases List.mem_cons.mp member with rfl | later
        · have dotless := ih (split ▸ List.mem_cons_self)
          simpa [List.mem_cons, eq_comm] using And.intro dot dotless
        · exact ih (split ▸ List.mem_cons_of_mem first later)

/-- The parts between the dots of a text are the only texts without dots that joined by dots are
the text. -/
theorem splitDots_eq_iff {text : List Char} {parts : List (List Char)} :
    splitDots text = parts ↔
      parts ≠ [] ∧ (∀ part ∈ parts, '.' ∉ part) ∧ joinDots parts = text := by
  constructor
  · rintro rfl
    exact ⟨splitDots_ne_nil text, fun _ => dotless_of_mem_splitDots, joinDots_splitDots text⟩
  · rintro ⟨some, dotless, rfl⟩
    induction parts with
    | nil => exact absurd rfl some
    | cons part parts ih =>
        obtain ⟨here, later⟩ := List.forall_mem_cons.mp dotless
        cases parts with
        | nil => exact splitDots_of_dotless here
        | cons next parts =>
            rw [joinDots, splitDots_append_dot, splitDots_of_dotless here,
              ih (List.cons_ne_nil next parts) later]
            · rfl
            · exact nofun

theorem joinDots_concat {parts : List (List Char)} (some : parts ≠ []) (last : List Char) :
    joinDots (parts ++ [last]) = joinDots parts ++ '.' :: last := by
  induction parts with
  | nil => exact absurd rfl some
  | cons part parts ih =>
      cases parts with
      | nil => rfl
      | cons next parts =>
          have later := ih (List.cons_ne_nil next parts)
          simp only [List.cons_append] at later ⊢
          simp only [joinDots, later, List.append_assoc, List.cons_append]

end LazyMapper.Text
