import LazyMapper.Sql.Query
import Mathlib.Data.List.Basic

/-!
# The select list of a query can be read off its text

A quoted identifier is read back as it was, whatever stands behind it except another mark, and
nothing else is read as one (`readQuoted_eq_some_iff`, `Dialect.readIdentifier_eq_some_iff`). Quoted
identifiers with commas between them are read one after the other, up to the space behind the list
(`readList_listChars`). So the text of a query for columns under their own names tells these
columns, whatever its condition, its order and its limit are (`Query.readSelectList_build`), and
queries with the same text ask for the same columns (`Query.columns_eq_of_build_eq`).
-/

set_option autoImplicit false

namespace LazyMapper.Sql

/-! ## Quoted identifiers -/

variable {mark : Char}

theorem readInside_doubleMarks (name rest : List Char) (apart : rest.head? ≠ some mark) :
    readInside mark (doubleMarks mark name ++ mark :: rest) = some (name, rest) := by
  induction name with
  | nil =>
      cases rest with
      | nil => simp [doubleMarks, readInside]
      | cons next rest =>
          have other : next ≠ mark := by simpa using apart
          simp [doubleMarks, readInside, other]
  | cons char name ih =>
      rw [doubleMarks]
      by_cases same : char = mark
      · subst same
        simp [readInside, ih]
      · rw [if_neg same]
        cases inside : doubleMarks mark name ++ mark :: rest with
        | nil => simp at inside
        | cons next others =>
            rw [inside] at ih
            rw [List.cons_append, inside, readInside, if_neg same, ih]
            rfl

/-- **A quoted identifier is read back**, and what stands behind it is left. -/
theorem readQuoted_quoteChars (name rest : List Char) (apart : rest.head? ≠ some mark) :
    readQuoted mark (quoteChars mark name ++ rest) = some (name, rest) := by
  have whole : quoteChars mark name ++ rest = mark :: (doubleMarks mark name ++ mark :: rest) := by
    simp [quoteChars]
  rw [whole, readQuoted, if_pos rfl]
  exact readInside_doubleMarks name rest apart

/-- What is read up to a mark was written with its own marks doubled. -/
theorem eq_of_readInside {text name rest : List Char}
    (read : readInside mark text = some (name, rest)) :
    text = doubleMarks mark name ++ mark :: rest ∧ rest.head? ≠ some mark := by
  induction text using readInside.induct mark generalizing name with
  | case1 => cases read
  | case2 =>
      obtain ⟨rfl, rfl⟩ : [] = name ∧ [] = rest := by simpa [readInside] using read
      exact ⟨rfl, nofun⟩
  | case3 char other => simp [readInside, other] at read
  | case4 others ih =>
      rw [readInside, if_pos rfl, if_pos rfl] at read
      obtain ⟨⟨inner, _⟩, later, same⟩ := Option.map_eq_some_iff.mp read
      obtain ⟨rfl, rfl⟩ := Prod.mk.inj same
      obtain ⟨rfl, apart⟩ := ih later
      exact ⟨by simp [doubleMarks], apart⟩
  | case5 next others other =>
      obtain ⟨rfl, rfl⟩ : [] = name ∧ next :: others = rest := by
        simpa [readInside, other] using read
      exact ⟨rfl, by simpa using other⟩
  | case6 char next others other ih =>
      rw [readInside, if_neg other] at read
      obtain ⟨⟨inner, _⟩, later, same⟩ := Option.map_eq_some_iff.mp read
      obtain ⟨rfl, rfl⟩ := Prod.mk.inj same
      obtain ⟨text, apart⟩ := ih later
      exact ⟨by rw [text, doubleMarks, if_neg other, List.cons_append], apart⟩

/-- **Reading accepts exactly what quoting writes**, in front of anything but another mark. -/
theorem readQuoted_eq_some_iff {text name rest : List Char} :
    readQuoted mark text = some (name, rest) ↔
      text = quoteChars mark name ++ rest ∧ rest.head? ≠ some mark := by
  constructor
  · intro read
    cases text with
    | nil => cases read
    | cons first others =>
        rw [readQuoted] at read
        split at read
        · rename_i same
          obtain ⟨rfl, apart⟩ := eq_of_readInside read
          exact ⟨by simp [quoteChars, same], apart⟩
        · cases read
  · rintro ⟨rfl, apart⟩
    exact readQuoted_quoteChars name rest apart

theorem length_of_readQuoted {text name rest : List Char}
    (read : readQuoted mark text = some (name, rest)) : rest.length < text.length := by
  obtain ⟨rfl, -⟩ := readQuoted_eq_some_iff.mp read
  simp only [quoteChars, List.length_append, List.length_cons]
  omega

/-! ## Lists of quoted identifiers -/

/-- Quoted identifiers with commas between them. -/
def listChars (mark : Char) (names : List (List Char)) : List Char :=
  [',', ' '].intercalate (names.map (quoteChars mark))

theorem listChars_cons_cons (name next : List Char) (names : List (List Char)) :
    listChars mark (name :: next :: names) =
      quoteChars mark name ++ ',' :: ' ' :: listChars mark (next :: names) := by
  simp [listChars]

/-- Reads quoted identifiers with commas between them, and returns them with what follows. -/
def readNames (mark : Char) (text : List Char) : Option (List (List Char) × List Char) :=
  match _ : readQuoted mark text with
  | none => none
  | some (name, ',' :: ' ' :: rest) =>
    (readNames mark rest).map fun read => (name :: read.1, read.2)
  | some (name, rest) => some ([name], rest)
termination_by text.length
decreasing_by
  have shorter := length_of_readQuoted (by assumption)
  simp only [List.length_cons] at shorter
  omega

/-- Reads a list of quoted identifiers up to a space. Where it stands at once, there is none. -/
def readList (mark : Char) : List Char → Option (List (List Char) × List Char)
  | ' ' :: rest => some ([], ' ' :: rest)
  | text => readNames mark text

theorem readNames_listChars (space : mark ≠ ' ') (comma : mark ≠ ',') (name : List Char)
    (names : List (List Char)) (rest : List Char) :
    readNames mark (listChars mark (name :: names) ++ ' ' :: rest) =
      some (name :: names, ' ' :: rest) := by
  induction names generalizing name with
  | nil =>
      have read :
          readQuoted mark (quoteChars mark name ++ ' ' :: rest) = some (name, ' ' :: rest) :=
        readQuoted_quoteChars name (' ' :: rest) (by simpa using space.symm)
      have only : listChars mark [name] = quoteChars mark name := by simp [listChars]
      rw [only, readNames, read]
      rfl
  | cons next names ih =>
      have read (others : List Char) :
          readQuoted mark (quoteChars mark name ++ ',' :: others) = some (name, ',' :: others) :=
        readQuoted_quoteChars name (',' :: others) (by simpa using comma.symm)
      rw [listChars_cons_cons, List.append_assoc, readNames]
      simp only [List.cons_append]
      rw [read]
      simp [ih]

theorem readList_listChars (space : mark ≠ ' ') (comma : mark ≠ ',') (names : List (List Char))
    (rest : List Char) :
    readList mark (listChars mark names ++ ' ' :: rest) = some (names, ' ' :: rest) := by
  cases names with
  | nil => rfl
  | cons name names =>
      have first : ∃ others, listChars mark (name :: names) ++ ' ' :: rest = mark :: others := by
        cases names with
        | nil => exact ⟨_, by simp [listChars, quoteChars]; rfl⟩
        | cons => exact ⟨_, by rw [listChars_cons_cons, quoteChars]; rfl⟩
      have read := readNames_listChars space comma name names rest
      obtain ⟨others, text⟩ := first
      rw [text] at read ⊢
      rw [readList, read]
      exact fun _ same => space (List.cons.inj same).1

/-! ## Texts of dialects -/

namespace Dialect

variable (dialect : Dialect)

theorem quoteMark_ne : dialect.quoteMark ≠ ' ' ∧ dialect.quoteMark ≠ ',' := by
  cases dialect <;> decide

/-- Reads a quoted identifier at the front of a text, and returns it with what follows. -/
def readIdentifier (text : String) : Option (String × String) :=
  (readQuoted dialect.quoteMark text.toList).map fun read =>
    (String.ofList read.1, String.ofList read.2)

/-- Reads the columns that a query selects under their own names, and returns them with what
follows. -/
def readSelectList (sql : String) : Option (List String × String) := do
  let text ← sql.toList.dropPrefix? "SELECT ".toList
  let (names, rest) ← readList dialect.quoteMark text
  return (names.map String.ofList, String.ofList rest)

/-- **Reading an identifier accepts exactly what quoting writes.** -/
theorem readIdentifier_eq_some_iff {text name rest : String} :
    dialect.readIdentifier text = some (name, rest) ↔
      text = dialect.quote name ++ rest ∧ rest.toList.head? ≠ some dialect.quoteMark := by
  have chars : text = dialect.quote name ++ rest ↔
      text.toList = quoteChars dialect.quoteMark name.toList ++ rest.toList := by
    rw [← String.toList_inj, String.toList_append, quote, String.toList_ofList]
  rw [chars, ← readQuoted_eq_some_iff, readIdentifier, Option.map_eq_some_iff]
  constructor
  · rintro ⟨⟨name, rest⟩, read, same⟩
    obtain ⟨rfl, rfl⟩ := Prod.mk.inj same
    simpa using read
  · intro read
    exact ⟨_, read, by simp⟩

/-- A select list is read up to the space behind it. -/
theorem readSelectList_append (columns : List String) (rest : String) :
    dialect.readSelectList
        ("SELECT " ++ ", ".intercalate (columns.map dialect.quote) ++ (" " ++ rest)) =
      some (columns, " " ++ rest) := by
  have names : (", ".intercalate (columns.map dialect.quote)).toList =
      listChars dialect.quoteMark (columns.map String.toList) := by
    rw [String.toList_intercalate, listChars]
    simp [Function.comp_def, quote]
  have read := readList_listChars dialect.quoteMark_ne.1 dialect.quoteMark_ne.2
    (columns.map String.toList) rest.toList
  rw [readSelectList, String.toList_append, String.toList_append, List.append_assoc,
    List.dropPrefix?_append_of_beq _ (beq_self_eq_true _), Option.bind_eq_bind, Option.bind_some,
    names, String.toList_append]
  rw [show " ".toList ++ rest.toList = ' ' :: rest.toList from rfl, read]
  simp

end Dialect

/-! ## Queries -/

namespace Query

/-- The text behind the tables of a query: its condition, its order and its limit. -/
def clausesText (dialect : Dialect) (query : Query) : String :=
  Fragment.toText dialect ((renderCondition dialect query.condition?).1 ++
    renderOrder dialect query.order ++ renderLimit query.limit?)

theorem build_text (dialect : Dialect) (query : Query) :
    (query.build dialect).1 = "SELECT " ++ query.selectListText dialect ++ " FROM " ++
      ", ".intercalate query.tables ++ query.clausesText dialect := by
  simp [build, render, clausesText, Fragment.toText, Piece.toText]

/-- **The columns that a query asks for under their own names are read off its text.** -/
theorem readSelectList_build (dialect : Dialect) {query : Query} {columns : List String}
    (items : query.items = columns.map .plain) :
    dialect.readSelectList (query.build dialect).1 = some (columns,
      " FROM " ++ ", ".intercalate query.tables ++ query.clausesText dialect) := by
  have list : query.selectListText dialect = ", ".intercalate (columns.map dialect.quote) := by
    rw [selectListText, items, List.map_map]
    rfl
  have read := dialect.readSelectList_append columns
    ("FROM " ++ ", ".intercalate query.tables ++ query.clausesText dialect)
  have space : " FROM " = " " ++ "FROM " := rfl
  simpa only [build_text, list, space, String.append_assoc] using read

/-- **The text of a query tells its columns.** -/
theorem columns_eq_of_build_eq {dialect : Dialect} {first second : Query}
    {columns columns' : List String} (items : first.items = columns.map .plain)
    (items' : second.items = columns'.map .plain)
    (same : (first.build dialect).1 = (second.build dialect).1) : columns = columns' := by
  have read := readSelectList_build dialect items
  rw [same, readSelectList_build dialect items'] at read
  exact (Prod.mk.inj (Option.some.inj read)).1.symm

end Query

end LazyMapper.Sql
