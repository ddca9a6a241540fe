import LazyMapper.Proofs.Row.Labels

/-!
# Stripping labels one after the other

Looking a column up is looking it up in the cells of the row (`Row.lookup_cells`), and stripping a
label keeps the cells that have it, in their order (`Row.cells_stripLabel`). So names are found in
a stripped row as they are found behind the label in the row itself, and labels can be stripped at
once or one after the other (`Row.stripLabel_composes`). Nothing is assumed of the row: a column may
stand in it more than once, and values may be too few or too many.
-/

set_option autoImplicit false

namespace LazyMapper.Row

variable {label : String}

/-! ## Cells and lookup -/

/-- A name is found in the cells at the position of the first column with this name. -/
theorem lookup_mapIdx {α : Type} (columns : List String) (valueAt : Nat → α) (name : String) :
    (columns.mapIdx fun index column => (column, valueAt index)).lookup name =
      (columns.findIdx? (· == name)).map valueAt := by
  induction columns generalizing valueAt with
  | nil => rfl
  | cons column columns ih =>
      rw [List.mapIdx_cons, List.findIdx?_cons]
      by_cases here : column = name
      · simp [here]
      · have other : (name == column) = false := by simpa using Ne.symm here
        rw [List.lookup_cons, other]
        have later := ih fun index => valueAt (index + 1)
        simp [here, later, Function.comp_def]

theorem selects_eq_isSome (row : Row) (name : String) :
    row.selects name = (row.position? name).isSome := by
  rw [position?, List.findIdx?_isSome, selects, List.any_beq']

/-- **Looking a column up is looking it up in the cells**, where it is found even without a
value. -/
theorem lookup_cells (row : Row) (name : String) : row.cells.lookup name =
    if row.selects name then some ((row.find? name).getD .null) else none := by
  have found : row.cells.lookup name =
      (row.position? name).map fun index => (row.valueAt? index).getD .null :=
    lookup_mapIdx row.columns _ name
  rw [found, selects_eq_isSome, find?]
  cases row.position? name <;> rfl

theorem isSome_lookup_cells (row : Row) (name : String) :
    (row.cells.lookup name).isSome = row.selects name := by
  rw [lookup_cells]
  cases row.selects name <;> rfl

/-- In a row with a value for each column, a column is found with its value. -/
theorem find?_eq_lookup {row : Row} (full : row.values.length = row.columns.length)
    (name : String) : row.find? name = row.cells.lookup name := by
  rw [lookup_cells, selects_eq_isSome, find?]
  cases found : row.position? name with
  | none => rfl
  | some index =>
      obtain ⟨inside, -⟩ := List.findIdx?_eq_some_iff_getElem.mp found
      simp [valueAt?, List.getElem?_eq_getElem (full ▸ inside)]

/-! ## Cells of a stripped row -/

/-- A row made of cells has these cells. -/
theorem cells_unzip (pairs : List (String × Value)) :
    cells ⟨pairs.map Prod.fst, pairs.map Prod.snd⟩ = pairs := by
  apply List.ext_getElem?
  intro index
  rw [cells, List.getElem?_mapIdx, List.getElem?_map, valueAt?, List.getElem?_map]
  cases pairs[index]? <;> rfl

/-- **Stripping a label keeps the cells that have it**, without the label. -/
theorem stripLabel_eq (row : Row) (label : String) :
    row.stripLabel label = ⟨(row.cells.filterMap (labelledCell? label)).map Prod.fst,
      (row.cells.filterMap (labelledCell? label)).map Prod.snd⟩ := by
  rw [stripLabel, labelled_eq_cells]

theorem cells_stripLabel (row : Row) (label : String) :
    (row.stripLabel label).cells = row.cells.filterMap (labelledCell? label) := by
  rw [stripLabel_eq, cells_unzip]

theorem stripLabel_full (row : Row) (label : String) :
    (row.stripLabel label).values.length = (row.stripLabel label).columns.length := by
  rw [stripLabel_eq, List.length_map, List.length_map]

theorem labelledCell?_eq_some {cell stripped : String × Value} :
    labelledCell? label cell = some stripped ↔ cell = (label ++ stripped.1, stripped.2) := by
  obtain ⟨column, value⟩ := cell
  obtain ⟨name, other⟩ := stripped
  simp only [labelledCell?, Option.map_eq_some_iff, dropLabel?_eq_some, Prod.mk.injEq]
  constructor
  · rintro ⟨_, rfl, rfl, rfl⟩
    exact ⟨rfl, rfl⟩
  · rintro ⟨rfl, rfl⟩
    exact ⟨name, rfl, rfl, rfl⟩

/-- Labels taken off one after the other. -/
theorem labelledCell?_bind (label inner : String) (cell : String × Value) :
    (labelledCell? label cell).bind (labelledCell? inner) =
      labelledCell? (label ++ inner) cell := by
  ext stripped
  rw [Option.bind_eq_some_iff, labelledCell?_eq_some]
  simp only [labelledCell?_eq_some]
  constructor
  · rintro ⟨_, rfl, rfl⟩
    rw [String.append_assoc]
  · rintro rfl
    exact ⟨_, by rw [String.append_assoc], rfl⟩

/-- Names are found among the labelled cells as they are found behind the label among all. -/
theorem lookup_filterMap (pairs : List (String × Value)) (label name : String) :
    (pairs.filterMap (labelledCell? label)).lookup name = pairs.lookup (label ++ name) := by
  induction pairs with
  | nil => rfl
  | cons cell rest ih =>
      cases stripped : labelledCell? label cell with
      | none =>
          have other : (label ++ name == cell.1) = false := by
            rw [beq_eq_false_iff_ne]
            intro same
            have kept : labelledCell? label cell = some (name, cell.2) :=
              labelledCell?_eq_some.mpr (Prod.ext same.symm rfl)
            rw [stripped] at kept
            cases kept
          rw [List.filterMap_cons_none stripped, ih, List.lookup_cons, other]
      | some found =>
          obtain rfl := labelledCell?_eq_some.mp stripped
          rw [List.filterMap_cons_some stripped, List.lookup_cons, List.lookup_cons, ih]
          rw [show (label ++ name == label ++ found.1) = (name == found.1) by simp]

/-- The labelled cells stand in their order, with the label in front of what is left. -/
theorem map_filterMap (pairs : List (String × Value)) (label : String) :
    (pairs.filterMap (labelledCell? label)).map (fun cell => (label ++ cell.1, cell.2)) =
      pairs.filter fun cell => label.toList <+: cell.1.toList := by
  induction pairs with
  | nil => rfl
  | cons cell rest ih =>
      cases stripped : labelledCell? label cell with
      | none =>
          have other : ¬ label.toList <+: cell.1.toList := by
            rw [← dropLabel?_eq_none]
            exact Option.map_eq_none_iff.mp stripped
          rw [List.filterMap_cons_none stripped, ih, List.filter_cons_of_neg (by simpa using other)]
      | some found =>
          obtain rfl := labelledCell?_eq_some.mp stripped
          rw [List.filterMap_cons_some stripped, List.map_cons, ih,
            List.filter_cons_of_pos (by simp)]

/-- **Stripping a label composes with looking up and with stripping.** A name is among the columns
of the stripped row when it is behind the label among those of the row, and is found with the
value that is found there, which is null where the row has no value. A second label is
stripped as if it stood behind the first. There is a value for each column, and with the label in
front they are the cells of the row that have it, in their order. -/
theorem stripLabel_composes (row : Row) (label inner name : String) :
    (row.stripLabel label).selects name = row.selects (label ++ name) ∧
    (row.stripLabel label).find? name =
      (if row.selects (label ++ name) then some ((row.find? (label ++ name)).getD .null)
        else none) ∧
    (row.stripLabel label).stripLabel inner = row.stripLabel (label ++ inner) ∧
    (row.stripLabel label).values.length = (row.stripLabel label).columns.length ∧
    (row.stripLabel label).cells.map (fun cell => (label ++ cell.1, cell.2)) =
      row.cells.filter fun cell => label.toList <+: cell.1.toList := by
  have found : (row.stripLabel label).cells.lookup name = row.cells.lookup (label ++ name) := by
    rw [cells_stripLabel, lookup_filterMap]
  refine ⟨?_, ?_, ?_, stripLabel_full row label, ?_⟩
  · rw [← isSome_lookup_cells, found, isSome_lookup_cells]
  · rw [find?_eq_lookup (stripLabel_full row label), found, lookup_cells]
  · rw [stripLabel_eq, cells_stripLabel, List.filterMap_filterMap, stripLabel_eq]
    simp only [labelledCell?_bind]
  · rw [cells_stripLabel, map_filterMap]

end LazyMapper.Row
