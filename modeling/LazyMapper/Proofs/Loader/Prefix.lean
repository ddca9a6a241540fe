import LazyMapper.Proofs.Loader.Alike
import LazyMapper.Proofs.Sequence
import LazyMapper.Proofs.Text.Cutting
import LazyMapper.Statement.Compile
import Mathlib.Data.List.Basic

/-!
# References behind a path

A path can be put in front of the attribute references of a directive. When the path is a chain
of names and no reference begins with a dot, the directive so written reads like the original
one, except that its path is longer (`WrittenDirective.read_under`); what cannot be read is
refused for a reason of the same kind.

A reference that begins with its only dot has to be left out: by itself it has the empty path,
behind another path it has an empty name in the middle.
-/

set_option autoImplicit false

namespace LazyMapper

open Text

namespace Path

/-! ## Chains of names -/

theorem readName_alike (raw raw' : String) (token : List Char) :
    EndsAlike (· = ·) (readName raw token) (readName raw' token) := by
  simp only [readName]
  split
  · exact .ok rfl
  · exact .error rfl

/-- Reading names one by one does not depend on the text they are cut out of. -/
theorem readNames_alike (raw raw' : String) (tokens : List (List Char)) :
    EndsAlike (· = ·) (tokens.mapM (readName raw)) (tokens.mapM (readName raw')) := by
  induction tokens with
  | nil => exact .ok rfl
  | cons token tokens ih =>
      simp only [List.mapM_cons]
      refine (readName_alike raw raw' token).bind ?_
      rintro name _ rfl
      refine ih.bind ?_
      rintro names _ rfl
      exact .ok rfl

theorem readNames_of_eq_ok {raw : String} (raw' : String) {tokens : List (List Char)} {names : Path}
    (ok : tokens.mapM (readName raw) = .ok names) : tokens.mapM (readName raw') = .ok names := by
  have alike := readNames_alike raw raw' tokens
  rw [ok] at alike
  generalize tokens.mapM (readName raw') = other at alike ⊢
  cases alike with
  | ok same => rw [same]

theorem read_of_ne_empty {text : String} (written : text ≠ "") :
    read text = (splitDots text.toList).mapM (readName text) := by
  have full : text.isEmpty = false := by simpa using written
  simp [read, full]

theorem readNames_map_toList (raw : String) {names : Path}
    (valid : ∀ name ∈ names, isName name.toList) :
    (names.map String.toList).mapM (readName raw) = .ok names := by
  induction names with
  | nil => rfl
  | cons name names ih =>
      have first : readName raw name.toList = .ok name := by
        simp [readName, valid name (by simp)]
      simp only [List.map_cons, List.mapM_cons, first,
        ih fun other member => valid other (by simp [member])]
      rfl

/-- The text of a chain of names is cut into the names. -/
theorem splitDots_toText {names : Path} (some : names ≠ [])
    (valid : ∀ name ∈ names, isName name.toList) :
    splitDots (toText names).toList = names.map String.toList := by
  induction names with
  | nil => exact absurd rfl some
  | cons name names ih =>
      have alone := splitDots_of_dotless (dotless_of_isName (valid name (by simp)))
      cases names with
      | nil => simpa [toText] using alone
      | cons next names =>
          have joined : (toText (name :: next :: names)).toList =
              name.toList ++ '.' :: (toText (next :: names)).toList := by
            simp [toText]
          rw [joined, splitDots_append_dot, alone,
            ih (by simp) fun other member => valid other (List.mem_cons_of_mem _ member)]
          rfl

theorem toText_ne_empty {names : Path} (some : names ≠ [])
    (valid : ∀ name ∈ names, isName name.toList) : toText names ≠ "" := by
  intro empty
  have parts := splitDots_toText some valid
  obtain ⟨name, rest, rfl⟩ := List.exists_cons_of_ne_nil some
  obtain ⟨nameless, -⟩ : [] = name.toList ∧ rest = [] := by
    simpa [empty, splitDots] using parts
  have named := valid name (by simp)
  simp [← nameless, isName] at named

/-- The text of a chain of names is read as the chain. -/
theorem read_toText {names : Path} (some : names ≠ [])
    (valid : ∀ name ∈ names, isName name.toList) : read (toText names) = .ok names := by
  rw [read_of_ne_empty (toText_ne_empty some valid), splitDots_toText some valid,
    readNames_map_toList _ valid]

/-- A path behind another one is read as the two joined. -/
theorem read_extend {base text : String} {front : Path} (readable : read base = .ok front)
    (written : text ≠ "") :
    EndsAlike (fun path whole => whole = front ++ path) (read text)
      (read (extend base text)) := by
  by_cases root : base = ""
  · subst root
    obtain rfl : front = [] := by simpa [read] using readable.symm
    have same : extend "" text = text := by simp [extend]
    rw [same]
    exact (EndsAlike.refl _).mono fun _ _ same => same.symm
  · have joined : (extend base text).toList = base.toList ++ '.' :: text.toList := by
      simp [extend, root]
    have whole : extend base text ≠ "" := by
      intro empty
      simp [empty] at joined
    rw [read_of_ne_empty root] at readable
    have before := readNames_of_eq_ok (extend base text) readable
    have behind := readNames_alike text (extend base text) (splitDots text.toList)
    rw [read_of_ne_empty written, read_of_ne_empty whole, joined, splitDots_append_dot,
      List.mapM_append, before]
    generalize (splitDots text.toList).mapM (readName text) = short at behind ⊢
    generalize (splitDots text.toList).mapM (readName (extend base text)) = long at behind ⊢
    cases behind with
    | ok same => exact .ok (by rw [same])
    | error kinds => exact .error kinds

/-- The cut at the last dot of a reference behind a path. -/
theorem readUpToLeaf_extend {base reference : String} {front : Path}
    (readable : read base = .ok front) (plain : reference.toList.head? ≠ some '.') :
    EndsAlike (fun cut whole => whole = (front ++ cut.1, cut.2)) (readUpToLeaf reference)
      (readUpToLeaf (extend base reference)) := by
  by_cases root : base = ""
  · subst root
    obtain rfl : front = [] := by simpa [read] using readable.symm
    have same : extend "" reference = reference := by simp [extend]
    rw [same]
    exact (EndsAlike.refl _).mono fun _ _ same => same.symm
  · have joined : (extend base reference).toList = base.toList ++ '.' :: reference.toList := by
      simp [extend, root]
    cases cut : splitLastDot reference.toList with
    | none =>
        simp only [readUpToLeaf, joined, splitLastDot_append_dot, cut, String.ofList_toList,
          readable]
        exact .ok (by simp)
    | some parts =>
        obtain ⟨before, leaf⟩ := parts
        have written : String.ofList before ≠ "" := by
          rintro empty
          have none : before = [] := by simpa using congrArg String.toList empty
          rw [eq_append_dot_of_splitLastDot cut, none] at plain
          exact plain rfl
        have cutBehind : String.ofList (base.toList ++ '.' :: before) =
            extend base (String.ofList before) := by
          apply String.toList_inj.mp
          simp [extend, root]
        simp only [readUpToLeaf, joined, splitLastDot_append_dot, cut, cutBehind]
        refine (read_extend readable written).bind ?_
        rintro path _ rfl
        exact .ok rfl

end Path

/-- An attribute reference behind a path. -/
theorem Selector.read_extend {base reference : String} {front : Path}
    (readable : Path.read base = .ok front) (plain : reference.toList.head? ≠ some '.') :
    EndsAlike (fun named whole => whole = (front ++ named.1, named.2)) (read reference)
      (read (Path.extend base reference)) := by
  refine (Path.readUpToLeaf_extend readable plain).bind ?_
  rintro ⟨path, leaf⟩ _ rfl
  by_cases star : leaf = ['*']
  · simp only [star]
    exact .ok rfl
  · simp only [star]
    refine (Path.readName_alike _ _ leaf).bind ?_
    rintro name _ rfl
    exact .ok rfl

namespace WrittenDirective

/-! ## Directives -/

/-- The attribute references of a directive. -/
def references : WrittenDirective → List String
  | .defer reference _ | .undefer reference | .undeferGroup reference => [reference]
  | .loadOnly references _ => references

/-- The directive with a path in front of each of its references. -/
def under (base : String) : WrittenDirective → WrittenDirective
  | .defer reference raising => .defer (Path.extend base reference) raising
  | .undefer reference => .undefer (Path.extend base reference)
  | .undeferGroup reference => .undeferGroup (Path.extend base reference)
  | .loadOnly references raising => .loadOnly (references.map (Path.extend base)) raising

/-- The names of a load-only directive behind a path. The path that they share is longer by it,
once there is a name. -/
theorem readNames_extend {base : String} {front : Path} (readable : Path.read base = .ok front)
    (all all' : List String) (references : List String)
    (plain : ∀ reference ∈ references, reference.toList.head? ≠ some '.') (path? : Option Path) :
    EndsAlike (fun named whole => whole = (named.1.map (front ++ ·), named.2))
      (readNames all path? references)
      (readNames all' (path?.map (front ++ ·)) (references.map (Path.extend base))) := by
  induction references generalizing path? with
  | nil => exact .ok rfl
  | cons reference rest ih =>
      simp only [readNames, List.map_cons]
      refine (Selector.read_extend readable (plain reference (by simp))).bind ?_
      rintro ⟨path, selector⟩ _ rfl
      cases selector with
      | all => exact .error rfl
      | named name =>
          have mixed : (path?.map (front ++ ·)).any (· != front ++ path) =
              path?.any (· != path) := by
            cases path? <;> simp [bne]
          have first : (path?.map (front ++ ·)).getD (front ++ path) =
              front ++ path?.getD path := by
            cases path? <;> simp
          simp only [mixed, first]
          split
          · exact .error rfl
          · refine (ih (fun other member => plain other (by simp [member])) _).bind ?_
            rintro ⟨shared, names⟩ _ rfl
            exact .ok rfl

theorem isSome_of_readNames {all references : List String} {path? shared : Option Path}
    {names : List String} (ok : readNames all path? references = .ok (shared, names))
    (given : path?.isSome ∨ references ≠ []) : shared.isSome := by
  induction references generalizing path? names with
  | nil =>
      obtain ⟨rfl, -⟩ : path? = shared ∧ [] = names := by simpa [readNames] using ok
      simpa using given
  | cons reference rest ih =>
      simp only [readNames] at ok
      obtain ⟨⟨path, selector⟩, -, ok⟩ := exists_of_bind_eq_ok ok
      cases selector with
      | all => cases ok
      | named name =>
          dsimp only at ok
          split at ok
          · cases ok
          · obtain ⟨⟨found, later⟩, read, same⟩ := exists_of_bind_eq_ok ok
            obtain ⟨rfl, -⟩ : found = shared ∧ name :: later = names := by
              simpa [pure, Except.pure] using same
            exact ih read (.inl rfl)

/-- **A directive behind a path reads like the directive**, with the path in front of its own. -/
theorem read_under {base : String} {front : Path} (readable : Path.read base = .ok front)
    (directive : WrittenDirective) (given : directive.references ≠ [])
    (plain : ∀ reference ∈ directive.references, reference.toList.head? ≠ some '.') :
    EndsAlike (fun own whole => whole = (front ++ own.1, own.2)) directive.read
      (directive.under base).read := by
  match directive with
  | .defer reference raising | .undefer reference =>
    refine (Selector.read_extend readable (plain reference (by simp [references]))).bind ?_
    rintro ⟨path, selector⟩ _ rfl
    exact .ok rfl
  | .undeferGroup reference =>
    refine (Path.readUpToLeaf_extend readable (plain reference (by simp [references]))).bind ?_
    rintro ⟨path, leaf⟩ _ rfl
    refine (Path.readName_alike _ _ leaf).bind ?_
    rintro name _ rfl
    exact .ok rfl
  | .loadOnly references raising =>
    have names := readNames_extend readable references (references.map (Path.extend base))
      references plain none
    simp only [read, under]
    rw [Option.map_none] at names
    generalize own : readNames references none references = short at names ⊢
    generalize readNames _ none (references.map _) = long at names ⊢
    cases names with
    | error kinds => exact .error kinds
    | @ok named whole same =>
        obtain ⟨shared, list⟩ := named
        obtain ⟨path, rfl⟩ := Option.isSome_iff_exists.mp (isSome_of_readNames own (.inr given))
        exact .ok (by rw [same]; rfl)

end WrittenDirective

end LazyMapper
