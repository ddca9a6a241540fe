import LazyMapper.Proofs.Loader.Prefix

/-!
# The grammar of attribute references

An attribute reference is written as one or more tokens with a dot between each two, all of them
names except that the last may be a star (`Selector.Written`). What is read from such a text are
its tokens, and relationship paths are read in the same way (`Path.read_eq_ok_iff`).

The path of a reference is what stands before its last dot, and the empty text is a path. So there
is one more kind of text that is read, a single token behind a single dot (`Selector.Dotted`). It
is read as if the dot were not there. Nothing else is read, and every refusal is one of an invalid
path (`Selector.reads_written`).
-/

set_option autoImplicit false

namespace LazyMapper

open Text

namespace Path

/-! ## Chains of names -/

theorem toList_toText (names : Path) :
    (toText names).toList = joinDots (names.map String.toList) := by
  induction names with
  | nil => rfl
  | cons name names ih =>
      cases names with
      | nil => simp [toText, joinDots]
      | cons next names =>
          have joined : (toText (name :: next :: names)).toList =
              name.toList ++ '.' :: (toText (next :: names)).toList := by
            simp [toText]
          rw [joined, ih]
          rfl

theorem toText_concat {path : Path} (some : path ≠ []) (last : String) :
    (toText (path ++ [last])).toList = (toText path).toList ++ '.' :: last.toList := by
  rw [toList_toText, toList_toText, List.map_append]
  exact joinDots_concat (by simpa using some) last.toList

theorem readName_eq_ok_iff {raw : String} {token : List Char} {name : String} :
    readName raw token = .ok name ↔ name.toList = token ∧ isName token := by
  unfold readName
  split
  · rename_i named
    simp only [Except.ok.injEq, named, and_true]
    exact ⟨fun same => by simp [← same], fun same => by simp [← same]⟩
  · rename_i other
    exact iff_of_false nofun fun named => other named.2

/-- Tokens that are read as names are these names. -/
theorem map_toList_of_readNames {raw : String} {tokens : List (List Char)} {names : Path}
    (ok : tokens.mapM (readName raw) = .ok names) :
    names.map String.toList = tokens ∧ ∀ name ∈ names, isName name.toList := by
  have each := forall₂_of_mapM_eq_ok ok
  clear ok
  induction each with
  | nil => exact ⟨rfl, nofun⟩
  | cons here _ ih =>
      obtain ⟨rfl, named⟩ := readName_eq_ok_iff.mp here
      exact ⟨congrArg _ ih.1, List.forall_mem_cons.mpr ⟨named, ih.2⟩⟩

/-- **What is read as a path is what its names are written as.** -/
theorem read_eq_ok_iff {text : String} {names : Path} :
    read text = .ok names ↔ (∀ name ∈ names, isName name.toList) ∧ text = toText names := by
  constructor
  · intro ok
    by_cases empty : text = ""
    · subst empty
      obtain rfl : [] = names := by simpa [read] using ok
      exact ⟨List.forall_mem_nil _, rfl⟩
    · rw [read_of_ne_empty empty] at ok
      obtain ⟨tokens, named⟩ := map_toList_of_readNames ok
      refine ⟨named, String.toList_inj.mp ?_⟩
      rw [toList_toText, tokens, joinDots_splitDots]
  · rintro ⟨named, rfl⟩
    by_cases none : names = []
    · subst none
      rfl
    · exact read_toText none named

/-- The path and the last token of a text. A dot in front of an only token is lost. -/
theorem readUpToLeaf_eq_ok_iff {text : String} {path : Path} {leaf : List Char} :
    readUpToLeaf text = .ok (path, leaf) ↔
      (∀ name ∈ path, isName name.toList) ∧ '.' ∉ leaf ∧
        (text = toText (path ++ [String.ofList leaf]) ∨ path = [] ∧ text.toList = '.' :: leaf) := by
  unfold readUpToLeaf
  cases cut : splitLastDot text.toList with
  | none =>
      have dotless := splitLastDot_eq_none_iff.mp cut
      simp only [Except.ok.injEq, Prod.mk.injEq]
      constructor
      · rintro ⟨rfl, rfl⟩
        exact ⟨nofun, dotless, .inl (by simp [toText])⟩
      · rintro ⟨-, -, whole | ⟨-, dotted⟩⟩
        · by_cases none : path = []
          · subst none
            exact ⟨rfl, by simp [whole, toText]⟩
          · rw [whole, toText_concat none] at dotless
            simp at dotless
        · simp [dotted] at dotless
  | some parts =>
      obtain ⟨front, tail⟩ := parts
      obtain ⟨joined, dotless⟩ := splitLastDot_eq_some_iff.mp cut
      dsimp only
      constructor
      · intro ok
        obtain ⟨names, before, same⟩ := exists_of_bind_eq_ok ok
        obtain ⟨rfl, rfl⟩ : names = path ∧ tail = leaf := by simpa [pure, Except.pure] using same
        obtain ⟨named, written⟩ := read_eq_ok_iff.mp before
        obtain rfl : front = (toText names).toList := by simp [← written]
        refine ⟨named, dotless, ?_⟩
        by_cases none : names = []
        · exact .inr ⟨none, by simpa [none, toText] using joined⟩
        · exact .inl (String.toList_inj.mp (by simp [joined, toText_concat none]))
      · rintro ⟨named, plain, whole⟩
        -- Either way the text is the path, a dot and the last token.
        have read : splitLastDot text.toList = some ((toText path).toList, leaf) := by
          refine splitLastDot_eq_some_iff.mpr ⟨?_, plain⟩
          rcases whole with whole | ⟨none, dotted⟩
          · by_cases none : path = []
            · subst none
              rw [show text.toList = leaf by simp [whole, toText]] at joined
              simp [joined] at plain
            · simp [whole, toText_concat none]
          · simpa [none, toText] using dotted
        obtain ⟨rfl, rfl⟩ : front = (toText path).toList ∧ tail = leaf := by
          simpa [cut] using read
        rw [String.ofList_toList, read_eq_ok_iff.mpr ⟨named, rfl⟩]
        rfl

end Path

/-! ## Refusals -/

/-- Whatever is refused is refused as an invalid path. -/
def RefusesAsPath {α : Type} (reading : Except LoaderFault α) : Prop :=
  ∀ fault, reading = .error fault → fault.kind = .invalidPath

namespace RefusesAsPath

variable {α β : Type}

theorem ok (result : α) : RefusesAsPath (.ok result) := nofun

theorem bind {first : Except LoaderFault α} {next : α → Except LoaderFault β}
    (here : RefusesAsPath first) (later : ∀ middle, RefusesAsPath (next middle)) :
    RefusesAsPath (first >>= next) := by
  cases first with
  | ok middle => exact later middle
  | error fault =>
      intro other same
      obtain rfl : fault = other := Except.error.inj same
      exact here fault rfl

theorem readName (raw : String) (token : List Char) :
    RefusesAsPath (Path.readName raw token) := by
  unfold Path.readName
  split
  · exact ok _
  · intro fault refused
    obtain rfl := Except.error.inj refused
    rfl

theorem read (text : String) : RefusesAsPath (Path.read text) := by
  unfold Path.read
  split
  · exact ok _
  · induction splitDots text.toList with
    | nil => exact ok _
    | cons token tokens ih =>
        rw [List.mapM_cons]
        exact (readName text token).bind fun _ => ih.bind fun _ => ok _

theorem readUpToLeaf (text : String) : RefusesAsPath (Path.readUpToLeaf text) := by
  unfold Path.readUpToLeaf
  split
  · exact (read _).bind fun _ => ok _
  · exact ok _

theorem selector (text : String) : RefusesAsPath (Selector.read text) := by
  refine (readUpToLeaf text).bind fun (_, leaf) => ?_
  dsimp only
  split
  · exact ok _
  · exact (readName text leaf).bind fun _ => ok _

theorem undeferGroup (text : String) :
    RefusesAsPath (WrittenDirective.undeferGroup text).read :=
  (readUpToLeaf text).bind fun (_, leaf) => (readName text leaf).bind fun _ => ok _

end RefusesAsPath

/-! ## References -/

namespace Selector

/-- The last token of a reference. -/
def token : Selector → String
  | .all => "*"
  | .named name => name

/-- The attributes can be asked for: all of them, or one by a name. -/
def IsToken : Selector → Prop
  | .all => True
  | .named name => isName name.toList

/-- The text is what a reference is written as: names, and then a name or a star, with a dot
between each two. -/
structure Written (text : String) (path : Path) (selector : Selector) : Prop where
  names : ∀ name ∈ path, isName name.toList
  last : selector.IsToken
  joined : text = Path.toText (path ++ [selector.token])

/-- The text is a single token behind a single dot. -/
def Dotted (text : String) (selector : Selector) : Prop :=
  selector.IsToken ∧ text = "." ++ selector.token

variable {text : String} {path : Path} {selector : Selector}

theorem IsToken.dotless (last : selector.IsToken) : '.' ∉ selector.token.toList := by
  cases selector with
  | all => decide
  | named name => exact dotless_of_isName last

/-- What a reference is written as is not a token behind a single dot. -/
theorem Written.not_dotted (written : Written text path selector) (other : Selector) :
    ¬ Dotted text other := by
  rintro ⟨token, dotted⟩
  have cut : splitLastDot text.toList = some ([], other.token.toList) :=
    splitLastDot_eq_some_iff.mpr ⟨by simp [dotted], token.dotless⟩
  by_cases none : path = []
  · have whole : text = selector.token := by simpa [none, Path.toText] using written.joined
    rw [whole, splitLastDot_eq_none_iff.mpr written.last.dotless] at cut
    cases cut
  · rw [written.joined, Path.toText_concat none,
      splitLastDot_eq_some_iff.mpr ⟨rfl, written.last.dotless⟩] at cut
    have empty : Path.toText path = "" := by simpa using congrArg (Option.map Prod.fst) cut
    exact Path.toText_ne_empty none written.names empty

/-- A text falls into a path and a last token when it is written so, or when the path is empty and
a dot stands in front. -/
theorem readUpToLeaf_token_iff (last : selector.IsToken) :
    Path.readUpToLeaf text = .ok (path, selector.token.toList) ↔
      Written text path selector ∨ path = [] ∧ Dotted text selector := by
  rw [Path.readUpToLeaf_eq_ok_iff, String.ofList_toList]
  constructor
  · rintro ⟨named, -, joined | ⟨root, dotted⟩⟩
    · exact .inl ⟨named, last, joined⟩
    · exact .inr ⟨root, last, String.toList_inj.mp (by simpa using dotted)⟩
  · rintro (written | ⟨rfl, -, rfl⟩)
    · exact ⟨written.names, last.dotless, .inl written.joined⟩
    · exact ⟨nofun, last.dotless, .inr ⟨rfl, by simp⟩⟩

/-- What is read as a reference is what one is written as, or a token behind a single dot. -/
theorem read_eq_ok_iff :
    read text = .ok (path, selector) ↔
      Written text path selector ∨ path = [] ∧ Dotted text selector := by
  constructor
  · intro ok
    obtain ⟨⟨front, leaf⟩, cut, ok⟩ := exists_of_bind_eq_ok ok
    dsimp only at ok
    split at ok
    · rename_i star
      obtain ⟨rfl, rfl⟩ : front = path ∧ all = selector := by simpa [pure, Except.pure] using ok
      exact (readUpToLeaf_token_iff (show IsToken all from trivial)).mp (by rw [cut, star]; rfl)
    · obtain ⟨name, here, same⟩ := exists_of_bind_eq_ok ok
      obtain ⟨rfl, rfl⟩ : front = path ∧ .named name = selector := by
        simpa [pure, Except.pure] using same
      obtain ⟨rfl, named⟩ := Path.readName_eq_ok_iff.mp here
      exact (readUpToLeaf_token_iff (show IsToken (.named name) from named)).mp cut
  · intro known
    have last : selector.IsToken := known.elim (·.last) (·.2.1)
    unfold read
    rw [(readUpToLeaf_token_iff last).mpr known]
    cases selector with
    | all => rfl
    | named name =>
        have plain : (named name).token.toList ≠ ['*'] := by
          intro star
          rw [IsToken, show name.toList = ['*'] from star] at last
          cases last
        simp only [bind, Except.bind, if_neg plain]
        rw [show Path.readName text (named name).token.toList = .ok name from
          Path.readName_eq_ok_iff.mpr ⟨rfl, last⟩]
        rfl

/-- What is read as the reference of a group ends with a name. -/
theorem read_undeferGroup_eq_ok_iff {directive : Directive} :
    (WrittenDirective.undeferGroup text).read = .ok (path, directive) ↔
      ∃ group, directive = .undeferGroup group ∧
        (Written text path (.named group) ∨ path = [] ∧ Dotted text (.named group)) := by
  constructor
  · intro ok
    obtain ⟨⟨front, leaf⟩, cut, ok⟩ := exists_of_bind_eq_ok ok
    obtain ⟨group, here, same⟩ := exists_of_bind_eq_ok ok
    obtain ⟨rfl, rfl⟩ : front = path ∧ .undeferGroup group = directive := by
      simpa [pure, Except.pure] using same
    obtain ⟨rfl, named⟩ := Path.readName_eq_ok_iff.mp here
    exact ⟨group, rfl, (readUpToLeaf_token_iff (show IsToken (.named group) from named)).mp cut⟩
  · rintro ⟨group, rfl, known⟩
    have last : (named group).IsToken := known.elim (·.last) (·.2.1)
    simp only [WrittenDirective.read, (readUpToLeaf_token_iff last).mpr known, bind, Except.bind]
    rw [show Path.readName text (named group).token.toList = .ok group from
      Path.readName_eq_ok_iff.mpr ⟨rfl, last⟩]
    rfl

/-- Of two kinds that exclude one another only the first occurs when the second does not. -/
theorem iff_left_iff_not {either first second : Prop} (kinds : either ↔ first ∨ second)
    (apart : first → ¬ second) : (either ↔ first) ↔ ¬ second := by
  tauto

/-- **References are read as they are written.** What is read from a text are the tokens it is
written of, for a group without a star, and all else is refused as an invalid path. The exception
is a single token behind a single dot, which is read without the dot; it is exactly on these texts
that reading departs from the grammar. -/
theorem reads_written (text : String) :
    (∀ path selector, read text = .ok (path, selector) ↔
      Written text path selector ∨ path = [] ∧ Dotted text selector) ∧
    (∀ path directive, (WrittenDirective.undeferGroup text).read = .ok (path, directive) ↔
      ∃ group, directive = .undeferGroup group ∧
        (Written text path (.named group) ∨ path = [] ∧ Dotted text (.named group))) ∧
    RefusesAsPath (read text) ∧ RefusesAsPath (WrittenDirective.undeferGroup text).read ∧
    (((∃ result, read text = .ok result) ↔ ∃ path selector, Written text path selector) ↔
      ¬ ∃ selector, Dotted text selector) ∧
    (((∃ result, (WrittenDirective.undeferGroup text).read = .ok result) ↔
        ∃ path group, Written text path (.named group)) ↔
      ¬ ∃ group, Dotted text (.named group)) := by
  refine ⟨fun _ _ => read_eq_ok_iff, fun _ _ => read_undeferGroup_eq_ok_iff,
    .selector text, .undeferGroup text, iff_left_iff_not ?_ ?_, iff_left_iff_not ?_ ?_⟩
  · simp [Prod.exists, read_eq_ok_iff, exists_or]
  · rintro ⟨path, selector, written⟩ ⟨other, dotted⟩
    exact written.not_dotted other dotted
  · simp [Prod.exists, read_undeferGroup_eq_ok_iff, exists_or]
  · rintro ⟨path, group, written⟩ ⟨other, dotted⟩
    exact written.not_dotted _ dotted

/-- A name behind a dot is read as the name, although no reference is written so. -/
theorem read_drops_dot :
    read ".title" = .ok ([], .named "title") ∧
      (WrittenDirective.undeferGroup ".media").read = .ok ([], .undeferGroup "media") ∧
      (¬ ∃ path selector, Written ".title" path selector) ∧
      ¬ ∃ path group, Written ".media" path (.named group) := by
  refine ⟨rfl, rfl, ?_, ?_⟩
  · rintro ⟨path, selector, written⟩
    exact written.not_dotted (.named "title") ⟨rfl, rfl⟩
  · rintro ⟨path, group, written⟩
    exact written.not_dotted (.named "media") ⟨rfl, rfl⟩

end Selector

end LazyMapper
