import Mathlib.Computability.Language
import LazyMapper.Proofs.Loader.Grammar

/-!
# Relationship paths as a language

The texts that can be read as relationship paths, described without reading them. A name is a
letter or an underscore, followed by letters, digits and underscores (`Text.nameLanguage`). A chain
is the empty text, or names with a single dot between each two (`Text.chainLanguage`).

Reading accepts exactly the chains, and undoes the joining of names by dots. Every other text is
refused as an invalid path, for its first part between dots that is not a name
(`Path.read_round_trip`).
-/

set_option autoImplicit false

namespace LazyMapper

open scoped Computability

/-! ## Names and chains of names -/

namespace Text

/-- The texts of one character of a range. -/
def oneFrom (first last : Char) : Language Char :=
  {text | ∃ char, text = [char] ∧ first ≤ char ∧ char ≤ last}

/-- What a name can begin with. -/
def nameStartLanguage : Language Char := oneFrom 'A' 'Z' + oneFrom 'a' 'z' + {['_']}

/-- What can follow in a name. -/
def nameRestLanguage : Language Char := nameStartLanguage + oneFrom '0' '9'

def nameLanguage : Language Char := nameStartLanguage * nameRestLanguage∗

/-- The empty text, and names with a single dot between each two. -/
def chainLanguage : Language Char := 1 + nameLanguage * ({['.']} * nameLanguage)∗

theorem mem_nameStartLanguage {text : List Char} :
    text ∈ nameStartLanguage ↔ ∃ char, text = [char] ∧ isNameStart char := by
  have members : text ∈ nameStartLanguage ↔
      (text ∈ oneFrom 'A' 'Z' ∨ text ∈ oneFrom 'a' 'z') ∨ text = ['_'] := Iff.rfl
  rw [members]
  constructor
  · rintro ((⟨char, rfl, low, high⟩ | ⟨char, rfl, low, high⟩) | rfl)
    · exact ⟨char, rfl, by simp [isNameStart, low, high]⟩
    · exact ⟨char, rfl, by simp [isNameStart, low, high]⟩
    · exact ⟨'_', rfl, rfl⟩
  · rintro ⟨char, rfl, start⟩
    simp only [isNameStart, Bool.or_eq_true, Bool.and_eq_true, decide_eq_true_eq,
      beq_iff_eq] at start
    rcases start with (lower | upper) | rfl
    · exact .inl (.inr ⟨char, rfl, lower⟩)
    · exact .inl (.inl ⟨char, rfl, upper⟩)
    · exact .inr rfl

theorem mem_nameRestLanguage {text : List Char} :
    text ∈ nameRestLanguage ↔ ∃ char, text = [char] ∧ isNameRest char := by
  rw [nameRestLanguage, Language.mem_add, mem_nameStartLanguage]
  constructor
  · rintro (⟨char, rfl, start⟩ | ⟨char, rfl, low, high⟩)
    · exact ⟨char, rfl, by simp [isNameRest, start]⟩
    · exact ⟨char, rfl, by simp [isNameRest, low, high]⟩
  · rintro ⟨char, rfl, rest⟩
    simp only [isNameRest, Bool.or_eq_true, Bool.and_eq_true, decide_eq_true_eq] at rest
    rcases rest with start | digit
    · exact .inl ⟨char, rfl, start⟩
    · exact .inr ⟨char, rfl, digit⟩

/-- Any number of texts of one character. -/
theorem mem_kstar_nameRestLanguage {text : List Char} :
    text ∈ nameRestLanguage∗ ↔ text.all isNameRest := by
  rw [Language.mem_kstar]
  constructor
  · rintro ⟨pieces, rfl, members⟩
    simp only [List.all_eq_true, List.mem_flatten]
    rintro char ⟨piece, member, inside⟩
    obtain ⟨other, rfl, rest⟩ := mem_nameRestLanguage.mp (members piece member)
    rwa [List.mem_singleton.mp inside]
  · intro all
    have pieces : text = (text.map ([·])).flatten := by
      rw [← List.flatMap_def, List.flatMap_singleton']
    refine ⟨_, pieces, fun piece member => ?_⟩
    obtain ⟨char, inside, rfl⟩ := List.mem_map.mp member
    exact mem_nameRestLanguage.mpr ⟨char, rfl, List.all_eq_true.mp all char inside⟩

theorem mem_nameLanguage {text : List Char} : text ∈ nameLanguage ↔ isName text := by
  rw [nameLanguage, Language.mem_mul]
  constructor
  · rintro ⟨first, start, rest, others, rfl⟩
    obtain ⟨char, rfl, here⟩ := mem_nameStartLanguage.mp start
    simpa [isName, here] using mem_kstar_nameRestLanguage.mp others
  · intro named
    cases text with
    | nil => cases named
    | cons char rest =>
        obtain ⟨start, others⟩ := Bool.and_eq_true_iff.mp named
        exact ⟨[char], mem_nameStartLanguage.mpr ⟨char, rfl, start⟩, rest,
          mem_kstar_nameRestLanguage.mpr others, rfl⟩

theorem joinDots_cons (part : List Char) (parts : List (List Char)) :
    joinDots (part :: parts) = part ++ (parts.map ('.' :: ·)).flatten := by
  induction parts generalizing part with
  | nil => simp [joinDots]
  | cons next parts ih =>
      rw [joinDots.eq_3 part (next :: parts) (List.cons_ne_nil next parts), ih next]
      rfl

/-- Names with a dot in front of each. -/
theorem exists_map_dot {pieces : List (List Char)}
    (members : ∀ piece ∈ pieces, piece ∈ ({['.']} * nameLanguage : Language Char)) :
    ∃ parts : List (List Char),
      (∀ part ∈ parts, part ∈ nameLanguage) ∧ parts.map ('.' :: ·) = pieces := by
  induction pieces with
  | nil => exact ⟨[], nofun, rfl⟩
  | cons piece pieces ih =>
      obtain ⟨here, later⟩ := List.forall_mem_cons.mp members
      obtain ⟨_, rfl, part, named, rfl⟩ := Language.mem_mul.mp here
      obtain ⟨parts, all, rfl⟩ := ih later
      exact ⟨part :: parts, List.forall_mem_cons.mpr ⟨named, all⟩, rfl⟩

/-- Chains are names joined by dots. -/
theorem mem_chainLanguage {text : List Char} :
    text ∈ chainLanguage ↔
      ∃ parts : List (List Char),
        (∀ part ∈ parts, part ∈ nameLanguage) ∧ text = joinDots parts := by
  rw [chainLanguage, Language.mem_add, Language.mem_one, Language.mem_mul]
  constructor
  · rintro (rfl | ⟨first, named, rest, others, rfl⟩)
    · exact ⟨[], nofun, rfl⟩
    · obtain ⟨pieces, rfl, members⟩ := Language.mem_kstar.mp others
      obtain ⟨parts, all, rfl⟩ := exists_map_dot members
      exact ⟨first :: parts, List.forall_mem_cons.mpr ⟨named, all⟩, (joinDots_cons _ _).symm⟩
  · rintro ⟨parts, all, rfl⟩
    cases parts with
    | nil => exact .inl rfl
    | cons first parts =>
        obtain ⟨named, others⟩ := List.forall_mem_cons.mp all
        refine .inr ⟨first, named, _, Language.mem_kstar.mpr ⟨_, rfl, ?_⟩,
          (joinDots_cons _ _).symm⟩
        intro piece member
        obtain ⟨part, inside, rfl⟩ := List.mem_map.mp member
        exact ⟨['.'], rfl, part, others part inside, rfl⟩

end Text

/-! ## Reading -/

namespace Path

open Text

theorem readName_eq_error_iff {raw : String} {token : List Char} {fault : LoaderFault} :
    readName raw token = .error fault ↔
      token ∉ nameLanguage ∧ fault = .malformedToken raw (String.ofList token) := by
  rw [mem_nameLanguage, readName]
  by_cases named : isName token
  · rw [if_pos named]
    exact iff_of_false (by simp) fun refused => refused.1 named
  · rw [if_neg named, and_iff_right named, Except.error.injEq, eq_comm]

/-- A text is refused for its first part between dots that is not a name. -/
theorem read_eq_error_iff {text : String} {fault : LoaderFault} :
    read text = .error fault ↔ text ≠ "" ∧
      ∃ front token back, splitDots text.toList = front ++ token :: back ∧
        (∀ part ∈ front, part ∈ nameLanguage) ∧ token ∉ nameLanguage ∧
          fault = .malformedToken text (String.ofList token) := by
  by_cases empty : text = ""
  · subst empty
    exact iff_of_false nofun fun refused => refused.1 rfl
  · have readable (part : List Char) :
        (∃ name, readName text part = .ok name) ↔ part ∈ nameLanguage := by
      simp only [readName_eq_ok_iff, mem_nameLanguage]
      exact ⟨fun ⟨_, _, named⟩ => named, fun named => ⟨String.ofList part, by simp, named⟩⟩
    rw [read_of_ne_empty empty, mapM_eq_error_iff, and_iff_right empty]
    simp only [readable, readName_eq_error_iff]

/-- A text is a chain when it is what some names are written as. -/
theorem toList_mem_chainLanguage {text : String} :
    text.toList ∈ chainLanguage ↔
      ∃ path : Path, (∀ name ∈ path, name.toList ∈ nameLanguage) ∧ toText path = text := by
  rw [mem_chainLanguage]
  constructor
  · rintro ⟨parts, named, joined⟩
    refine ⟨parts.map String.ofList, by simpa using named, String.toList_inj.mp ?_⟩
    rw [toList_toText, joined, List.map_map]
    simp
  · rintro ⟨path, named, rfl⟩
    exact ⟨path.map String.toList, by simpa using named, toList_toText path⟩

/-- **Reading a relationship path undoes the joining of names by dots.** A text is read exactly
when it is a chain, and as the names that joined by dots are the text; so each list of names is
read from its text. Every other text is refused as an invalid path, and the fault names the first
of the parts between its dots that is not a name. -/
theorem read_round_trip (text : String) :
    ((∃ path, read text = .ok path) ↔ text.toList ∈ chainLanguage) ∧
    (∀ path, read text = .ok path ↔
      (∀ name ∈ path, name.toList ∈ nameLanguage) ∧ ".".intercalate path = text) ∧
    ((∃ fault, read text = .error fault ∧ fault.kind = .invalidPath) ↔
      text.toList ∉ chainLanguage) ∧
    ∀ fault, read text = .error fault ↔ text ≠ "" ∧ ∃ front token back,
      (∀ part ∈ front ++ token :: back, '.' ∉ part) ∧
        joinDots (front ++ token :: back) = text.toList ∧
        (∀ part ∈ front, part ∈ nameLanguage) ∧ token ∉ nameLanguage ∧
          fault = .malformedToken text (String.ofList token) := by
  have paths (path : Path) : read text = .ok path ↔
      (∀ name ∈ path, name.toList ∈ nameLanguage) ∧ ".".intercalate path = text := by
    simp only [read_eq_ok_iff, mem_nameLanguage]
    exact and_congr_right fun _ => eq_comm
  have chains : (∃ path, read text = .ok path) ↔ text.toList ∈ chainLanguage :=
    (exists_congr paths).trans toList_mem_chainLanguage.symm
  refine ⟨chains, paths, ?_, fun fault => ?_⟩
  · rw [← chains]
    cases result : read text with
    | ok path => exact iff_of_false (by simp) (by simp)
    | error fault =>
        exact iff_of_true ⟨fault, rfl, RefusesAsPath.read text fault result⟩ (by simp)
  · rw [read_eq_error_iff]
    refine and_congr_right fun _ => exists₃_congr fun front token back => ?_
    rw [splitDots_eq_iff, and_assoc, and_assoc, and_iff_right (by simp)]

/-- A line break behind the last name is not passed over, and neither is a second dot. -/
example : read "author.city\n" = .error (.malformedToken "author.city\n" "city\n") ∧
    read "author..city" = .error (.malformedToken "author..city" "") := ⟨rfl, rfl⟩

end Path

end LazyMapper
