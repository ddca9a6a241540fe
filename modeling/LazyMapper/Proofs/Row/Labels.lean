import LazyMapper.Row
import Mathlib.Data.List.Basic

/-!
# Columns under a label

A column has a label when its name begins with it, and what is left of the name stands for the
column in the stripped row (`Row.dropLabel?_eq_some`). A row is a list of cells, each a column with
its value, null where the row has no value (`Row.cells`), and it is stripped cell by cell
(`Row.labelled_eq_cells`). So columns that were put under a label come back as they were, unless the
name of some other column begins with the same characters (`Row.stripLabel_eq_iff`).
-/

set_option autoImplicit false

namespace LazyMapper.Row

variable {label : String}

theorem dropLabel?_eq_some {text name : String} :
    dropLabel? label text = some name ↔ text = label ++ name := by
  unfold dropLabel?
  constructor
  · intro dropped
    split at dropped
    · rename_i prefixed
      obtain rfl := Option.some.inj dropped
      apply String.toList_inj.mp
      rw [String.toList_append, String.toList_ofList]
      exact (List.prefix_iff_eq_append.mp (List.isPrefixOf_iff_prefix.mp prefixed)).symm
    · cases dropped
  · rintro rfl
    rw [String.toList_append, if_pos (List.isPrefixOf_iff_prefix.mpr (List.prefix_append _ _)),
      List.drop_left, String.ofList_toList]

theorem dropLabel?_eq_none {text : String} :
    dropLabel? label text = none ↔ ¬ label.toList <+: text.toList := by
  unfold dropLabel?
  split <;> simp_all

/-! ## Cells -/

/-- The columns with their values. -/
def cells (row : Row) : List (String × Value) :=
  row.columns.mapIdx fun index column => (column, (row.valueAt? index).getD .null)

/-- The cell of a column with the label, without it. -/
def labelledCell? (label : String) (cell : String × Value) : Option (String × Value) :=
  (dropLabel? label cell.1).map (·, cell.2)

/-- **Stripping goes cell by cell.** -/
theorem labelled_eq_cells (columns : List String) (values : List Value) :
    labelled label columns values =
      (cells ⟨columns, values⟩).filterMap (labelledCell? label) := by
  induction columns generalizing values with
  | nil => rfl
  | cons column columns ih =>
      have rest : cells ⟨column :: columns, values⟩ =
          (column, values.headD .null) :: cells ⟨columns, values.tail⟩ := by
        cases values <;> simp [cells, List.mapIdx_cons, valueAt?]
      rw [labelled, ih, rest, List.filterMap_cons, labelledCell?]
      cases dropLabel? label column <;> rfl

theorem cells_eq_zip {columns : List String} {values : List Value}
    (full : values.length = columns.length) : cells ⟨columns, values⟩ = columns.zip values := by
  refine List.ext_getElem (by simp [cells, full]) fun index inside _ => ?_
  have there : index < values.length := by simpa [cells, full] using inside
  simp [cells, valueAt?, List.getElem?_eq_getElem there]

/-- Stripping goes column by column when there are as many values. -/
theorem labelled_eq_filterMap {columns : List String} {values : List Value}
    (full : values.length = columns.length) :
    labelled label columns values = (columns.zip values).filterMap fun cell =>
      (dropLabel? label cell.1).map (·, cell.2) := by
  rw [labelled_eq_cells, cells_eq_zip full]
  rfl

/-! ## Columns put under a label -/

theorem labelled_append {columns more : List String} {values rest : List Value}
    (full : values.length = columns.length) (full' : rest.length = more.length) :
    labelled label (columns ++ more) (values ++ rest) =
      labelled label columns values ++ labelled label more rest := by
  rw [labelled_eq_filterMap full, labelled_eq_filterMap full', ← List.filterMap_append,
    ← List.zip_append full.symm, labelled_eq_filterMap (by simp [full, full'])]

/-- Columns put under a label are stripped to what they were. -/
theorem labelled_map_label {names : List String} {values : List Value}
    (full : values.length = names.length) :
    labelled label (names.map (label ++ ·)) values = names.zip values := by
  induction names generalizing values with
  | nil => rfl
  | cons name names ih =>
      obtain ⟨value, values, rfl⟩ := List.exists_cons_of_length_eq_add_one full
      rw [List.map_cons, labelled, dropLabel?_eq_some.mpr rfl, List.tail_cons,
        ih (Nat.succ.inj full)]
      rfl

/-- Nothing is stripped exactly when no column has the label. -/
theorem labelled_eq_nil_iff {columns : List String} {values : List Value}
    (full : values.length = columns.length) :
    labelled label columns values = [] ↔
      ∀ column ∈ columns, ¬ label.toList <+: column.toList := by
  rw [labelled_eq_filterMap full, List.filterMap_eq_nil_iff]
  simp only [Option.map_eq_none_iff, dropLabel?_eq_none]
  constructor
  · intro apart column member
    obtain ⟨index, inside, rfl⟩ := List.getElem_of_mem member
    have both : index < (columns.zip values).length := by simp; omega
    simpa using apart _ (List.getElem_mem both)
  · rintro apart ⟨column, value⟩ member
    exact apart column (List.of_mem_zip member).1

/-- **Columns under a label come back as they were**, each with its value, exactly when the label is
on no column before or behind them. -/
theorem stripLabel_eq_iff (label : String) (before names behind : List String)
    (earlier values later : List Value)
    (full : earlier.length = before.length) (own : values.length = names.length)
    (rest : later.length = behind.length) :
    stripLabel ⟨before ++ (names.map (label ++ ·) ++ behind), earlier ++ (values ++ later)⟩ label =
        ⟨names, values⟩ ↔
      ∀ column ∈ before ++ behind, ¬ label.toList <+: column.toList := by
  have parts : labelled label (before ++ (names.map (label ++ ·) ++ behind))
      (earlier ++ (values ++ later)) = _ := labelled_append full (by simp [own, rest])
  rw [labelled_append (by simp [own]) rest, labelled_map_label own] at parts
  simp only [stripLabel, parts, List.forall_mem_append, Row.mk.injEq]
  rw [← labelled_eq_nil_iff full, ← labelled_eq_nil_iff rest]
  constructor
  · rintro ⟨columns, -⟩
    have lengths := congrArg List.length columns
    simp only [List.length_map, List.length_append, List.length_zip, own, Nat.min_self] at lengths
    exact ⟨List.eq_nil_of_length_eq_zero (by omega), List.eq_nil_of_length_eq_zero (by omega)⟩
  · rintro ⟨nothing, nothing'⟩
    simp [nothing, nothing', List.map_fst_zip, List.map_snd_zip, own]

end LazyMapper.Row
