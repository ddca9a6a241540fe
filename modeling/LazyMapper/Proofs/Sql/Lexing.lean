import LazyMapper.Proofs.Sql.SelectList
import LazyMapper.Proofs.Sql.Tokens
import LazyMapper.Proofs.Text.Cutting
import Mathlib.Data.List.Chain

/-!
# The text of a condition tells its tokens

Conditions with the same text and the same parameters have the same tokens, provided that the
tables of their columns are names (`Expr.tokens_eq_of_build_eq`). Tables are not quoted, so nothing
could be said of arbitrary ones.

The tokens are read from the front. The first character tells of which kind the next one is
(`Kind.ofFirst`). No word begins like another one (`Word.eq_of_prefix`), and a quoted column is read
back unless another one stands right behind it, which does not happen in a condition: operands never
stand side by side (`Expr.tokens_spaced`). Of a bound value only the number is seen, which is known
from the tokens before.
-/

set_option autoImplicit false

namespace LazyMapper.Sql

open Text

/-! ## Words -/

/-- All words. -/
def Word.every : List Word :=
  [.sign .eq, .sign .ne, .sign .lt, .sign .le, .sign .gt, .sign .ge, .isNull, .inList, .comma,
    .opening, .closing, .conjunction, .never]

theorem Word.mem_every (word : Word) : word ∈ every := by
  cases word with
  | sign comparison => cases comparison <;> decide
  | isNull | inList | comma | opening | closing | conjunction | never => decide

/-- No word begins like another one. -/
theorem Word.eq_of_prefix {word other : Word} (front : word.text.toList <+: other.text.toList) :
    word = other := by
  have apart : ∀ word ∈ every, ∀ other ∈ every,
      word.text.toList <+: other.text.toList → word = other := by decide
  exact apart word word.mem_every other other.mem_every front

/-! ## Kinds of tokens -/

/-- The kinds of tokens, as they can be told from the first character. -/
inductive Kind where
  | word
  /-- A column without a table. -/
  | quoted
  /-- A column behind the name of its table. -/
  | qualified
  | bound
deriving DecidableEq

/-- The kind of the tokens that begin with a character. -/
def Kind.ofFirst (dialect : Dialect) (first : Char) : Kind :=
  if isNameStart first then .qualified
  else if first = dialect.quoteMark then .quoted
  else if first = '$' ∨ first = '?' then .bound
  else .word

theorem Kind.ofFirst_quoteMark (dialect : Dialect) :
    ofFirst dialect dialect.quoteMark = .quoted := by
  cases dialect <;> decide

namespace Token

/-- The kind of a token. -/
def kind : Token → Kind
  | .word _ => .word
  | .column none _ => .quoted
  | .column (some _) _ => .qualified
  | .bound _ => .bound

/-- The table of a column is a name, if there is one. -/
def Plain : Token → Prop
  | .column (some table) _ => isName table.toList
  | .column none _ | .word _ | .bound _ => True

instance : DecidablePred Plain
  | .column (some table) _ => inferInstanceAs (Decidable (isName table.toList = true))
  | .column none _ | .word _ | .bound _ => inferInstanceAs (Decidable True)

/-! ## Tokens in a text -/

/-- The text of a token behind a number of parameters. -/
def text (dialect : Dialect) (count : Nat) : Token → String
  | .word fixed => fixed.text
  | .column table? name => dialect.column table? name
  | .bound _ => dialect.placeholder (count + 1)

/-- The number of parameters behind a token. -/
def next (count : Nat) : Token → Nat
  | .word _ | .column .. => count
  | .bound _ => count + 1

theorem toText_pieces_cons (dialect : Dialect) (count : Nat) (token : Token) (rest : List Token) :
    Fragment.toText dialect (pieces dialect count (token :: rest)) = token.text dialect count ++
      Fragment.toText dialect (pieces dialect (token.next count) rest) := by
  cases token with
  | word | column | bound => simp [pieces, Fragment.toText, Piece.toText, text, next]

/-- The characters of tokens behind a number of parameters. -/
def chars (dialect : Dialect) (count : Nat) (tokens : List Token) : List Char :=
  ((pieces dialect count tokens).toText dialect).toList

variable {dialect : Dialect} {count : Nat}

theorem chars_nil : chars dialect count [] = [] := rfl

theorem chars_cons (token : Token) (rest : List Token) :
    chars dialect count (token :: rest) =
      (token.text dialect count).toList ++ chars dialect (token.next count) rest := by
  rw [chars, toText_pieces_cons, String.toList_append]
  rfl

theorem toList_column_none (name : String) :
    (dialect.column none name).toList = quoteChars dialect.quoteMark name.toList := by
  simp [Dialect.column, Dialect.quote]

theorem toList_column_some (table name : String) :
    (dialect.column (some table) name).toList =
      table.toList ++ '.' :: quoteChars dialect.quoteMark name.toList := by
  simp [Dialect.column, Dialect.quote]

/-- The first character of a token tells its kind. -/
theorem exists_first (dialect : Dialect) (count : Nat) {token : Token} (plain : token.Plain) :
    ∃ first rest, (token.text dialect count).toList = first :: rest ∧
      Kind.ofFirst dialect first = token.kind := by
  match token, plain with
  | .word fixed, _ =>
    have known : ∀ word ∈ Word.every,
        word.text.toList.head?.map (Kind.ofFirst dialect) = some .word := by
      cases dialect <;> decide
    obtain ⟨first, front, told⟩ := Option.map_eq_some_iff.mp (known fixed fixed.mem_every)
    obtain ⟨rest, chars⟩ := List.head?_eq_some_iff.mp front
    exact ⟨first, rest, chars, told⟩
  | .column none name, _ =>
    exact ⟨_, _, toList_column_none name, Kind.ofFirst_quoteMark dialect⟩
  | .column (some table) name, plain =>
    simp only [Plain] at plain
    cases letters : table.toList with
    | nil => simp [letters, isName] at plain
    | cons first rest =>
        rw [letters, isName, Bool.and_eq_true] at plain
        refine ⟨first, _, by rw [text, toList_column_some, letters, List.cons_append], ?_⟩
        exact if_pos plain.1
  | .bound value, _ =>
    cases dialect with
    | postgres => exact ⟨'$', _, by simp [text, Dialect.placeholder]; rfl, rfl⟩
    | sqlite => exact ⟨'?', _, by simp [text, Dialect.placeholder]; rfl, rfl⟩
    | mysql => exact ⟨'?', [], by simp [text, Dialect.placeholder], rfl⟩

/-- No token is written as nothing. -/
theorem text_ne_nil (token : Token) : (token.text dialect count).toList ≠ [] := by
  cases token with
  | word fixed =>
      have some : ∀ word ∈ Word.every, word.text.toList ≠ [] := by decide
      exact some fixed fixed.mem_every
  | column table? name =>
      cases table? with
      | none => simp [text, toList_column_none, quoteChars]
      | some table => simp [text, toList_column_some]
  | bound value => cases dialect <;> simp [text, Dialect.placeholder]

theorem chars_eq_nil_iff {tokens : List Token} : chars dialect count tokens = [] ↔ tokens = [] := by
  cases tokens with
  | nil => simp [chars_nil]
  | cons token rest =>
      rw [chars_cons, List.append_eq_nil_iff]
      simp only [text_ne_nil, false_and, reduceCtorEq]

/-- The first character of tokens tells the kind of the first one. -/
theorem head?_chars (dialect : Dialect) (count : Nat) {tokens : List Token}
    (plain : ∀ token ∈ tokens, token.Plain) :
    (chars dialect count tokens).head?.map (Kind.ofFirst dialect) = tokens.head?.map kind := by
  cases tokens with
  | nil => rfl
  | cons token rest =>
      obtain ⟨first, others, front, told⟩ :=
        exists_first dialect count (plain token List.mem_cons_self)
      simp [chars_cons, front, told]

/-- A quoted column is told from its text, if no mark stands behind it. -/
theorem eq_of_quote_append_eq {name other : String} {rest rest' : List Char}
    (apart : rest.head? ≠ some dialect.quoteMark) (apart' : rest'.head? ≠ some dialect.quoteMark)
    (same : quoteChars dialect.quoteMark name.toList ++ rest =
      quoteChars dialect.quoteMark other.toList ++ rest') : name = other ∧ rest = rest' := by
  have read := congrArg (readQuoted dialect.quoteMark) same
  rw [readQuoted_quoteChars _ _ apart, readQuoted_quoteChars _ _ apart'] at read
  obtain ⟨names, rests⟩ := Prod.mk.inj (Option.some.inj read)
  exact ⟨String.toList_inj.mp names, rests⟩

/-! ## Operands apart -/

/-- The token is a fixed word. -/
def isWord : Token → Bool
  | .word _ => true
  | .column .. | .bound _ => false

/-- No two operands stand side by side. -/
def Spaced (tokens : List Token) : Prop :=
  tokens.IsChain fun token next => token.isWord ∨ next.isWord

theorem spaced_singleton (token : Token) : Spaced [token] := List.isChain_singleton token

/-- What stands around a word may be anything. -/
@[simp] theorem spaced_append_word {tokens rest : List Token} {fixed : Word} :
    Spaced (tokens ++ .word fixed :: rest) ↔ Spaced tokens ∧ Spaced rest := by
  simp [Spaced, List.isChain_append, List.isChain_cons, isWord]

theorem spaced_enclosed {nested : Bool} {tokens : List Token} (spaced : Spaced tokens) :
    Spaced (enclosed nested tokens) := by
  cases nested with
  | false => exact spaced
  | true =>
      have inside : Spaced (tokens ++ [.word .closing]) :=
        spaced_append_word.mpr ⟨spaced, List.isChain_nil⟩
      show Spaced ([] ++ .word .opening :: (tokens ++ [.word .closing]))
      exact spaced_append_word.mpr ⟨List.isChain_nil, inside⟩

theorem spaced_separated {between : Word} {groups : List (List Token)}
    (spaced : ∀ tokens ∈ groups, Spaced tokens) : Spaced (separated between groups) := by
  induction groups with
  | nil => exact List.isChain_nil
  | cons tokens rest ih =>
      obtain ⟨here, others⟩ := List.forall_mem_cons.mp spaced
      cases rest with
      | nil => exact here
      | cons next rest => exact spaced_append_word.mpr ⟨here, ih others⟩

/-- Behind an operand no mark stands. -/
theorem head?_chars_ne {token : Token} {rest : List Token} (operand : token.isWord = false)
    (spaced : Spaced (token :: rest)) (plain : ∀ token ∈ rest, token.Plain) :
    (chars dialect count rest).head? ≠ some dialect.quoteMark := by
  intro mark
  have first := head?_chars dialect count plain
  rw [mark, Option.map_some, Kind.ofFirst_quoteMark] at first
  obtain ⟨next, front, quoted⟩ := Option.map_eq_some_iff.mp first.symm
  have apart := (List.isChain_cons.mp spaced).1 next front
  cases next with
  | word fixed => cases quoted
  | column table? name =>
      rw [operand] at apart
      cases apart with
      | inl left => cases left
      | inr right => cases right
  | bound value => cases quoted

/-! ## Telling tokens -/

/-- **The first token is told from the text**, up to the value of a bound one, if no mark stands
behind an operand. -/
theorem eq_of_text_append_eq {token other : Token} {rest rest' : List Char} (plain : token.Plain)
    (plain' : other.Plain) (kinds : token.kind = other.kind)
    (apart : token.isWord = false → rest.head? ≠ some dialect.quoteMark)
    (apart' : other.isWord = false → rest'.head? ≠ some dialect.quoteMark)
    (same : (token.text dialect count).toList ++ rest =
      (other.text dialect count).toList ++ rest') :
    (token = other ∨ token.kind = .bound) ∧ rest = rest' := by
  match token, other, kinds with
  | .word fixed, .word fixed', _ =>
    have alike : fixed = fixed' := by
      rcases List.append_eq_append_iff.mp same with ⟨more, longer, -⟩ | ⟨more, longer, -⟩
      · exact Word.eq_of_prefix ⟨more, longer.symm⟩
      · exact (Word.eq_of_prefix ⟨more, longer.symm⟩).symm
    subst alike
    exact ⟨.inl rfl, List.append_cancel_left same⟩
  | .column none name, .column none name', _ =>
    rw [text, text, toList_column_none, toList_column_none] at same
    obtain ⟨rfl, rests⟩ := eq_of_quote_append_eq (apart rfl) (apart' rfl) same
    exact ⟨.inl rfl, rests⟩
  | .column (some table) name, .column (some table') name', _ =>
    simp only [text, toList_column_some, List.append_assoc, List.cons_append] at same
    have cut := congrArg splitFirstDot same
    rw [splitFirstDot_append_dot (dotless_of_isName plain),
      splitFirstDot_append_dot (dotless_of_isName plain')] at cut
    obtain ⟨tables, names⟩ := Prod.mk.inj (Option.some.inj cut)
    obtain ⟨rfl, rests⟩ := eq_of_quote_append_eq (apart rfl) (apart' rfl) names
    exact ⟨.inl (by rw [String.toList_inj.mp tables]), rests⟩
  | .bound value, .bound value', _ => exact ⟨.inr rfl, List.append_cancel_left same⟩

theorem exists_bound {token : Token} (bound : token.kind = .bound) :
    ∃ value, token = .bound value := by
  match token, bound with
  | .bound value, _ => exact ⟨value, rfl⟩

/-- **Tokens are told from their text and their values.** -/
theorem eq_of_chars_eq {tokens others : List Token} (plain : ∀ token ∈ tokens, token.Plain)
    (plain' : ∀ token ∈ others, token.Plain) (spaced : Spaced tokens) (spaced' : Spaced others)
    (bound : values tokens = values others)
    (same : chars dialect count tokens = chars dialect count others) : tokens = others := by
  -- The numbers of later placeholders depend on the tokens read, so the count varies.
  induction tokens generalizing others count with
  | nil =>
      have heads := head?_chars dialect count plain'
      rw [← same] at heads
      exact (List.head?_eq_none_iff.mp (Option.map_eq_none_iff.mp heads.symm)).symm
  | cons token rest ih =>
      have heads := head?_chars dialect count plain
      rw [same, head?_chars dialect count plain'] at heads
      obtain ⟨other, front, kinds⟩ := Option.map_eq_some_iff.mp heads
      obtain ⟨others, rfl⟩ := List.head?_eq_some_iff.mp front
      obtain ⟨here, later⟩ := List.forall_mem_cons.mp plain
      obtain ⟨here', later'⟩ := List.forall_mem_cons.mp plain'
      rw [chars_cons, chars_cons] at same
      obtain ⟨told, behind⟩ := eq_of_text_append_eq here here' kinds.symm
        (fun operand => head?_chars_ne operand spaced later)
        (fun operand => head?_chars_ne operand spaced' later') same
      obtain rfl : token = other := by
        rcases told with alike | placeholder
        · exact alike
        · obtain ⟨value, rfl⟩ := exists_bound placeholder
          obtain ⟨value', rfl⟩ := exists_bound (kinds.trans placeholder)
          rw [(List.cons.inj bound).1]
      have bound' : values [token] ++ values rest = values [token] ++ values others := by
        rw [← values_append, ← values_append]
        exact bound
      rw [ih later later' (List.IsChain.tail spaced) (List.IsChain.tail spaced')
        (List.append_cancel_left bound') behind]

end Token

/-! ## Conditions -/

namespace Expr

open Token

/-- Where a column of the expression is written behind a table, this is a name. -/
def Plain (expr : Expr) : Prop := ∀ token ∈ expr.tokens, token.Plain

instance (expr : Expr) : Decidable expr.Plain :=
  inferInstanceAs (Decidable (∀ token ∈ expr.tokens, token.Plain))

theorem spaced_valueTokens (values : List Value) : Spaced (valueTokens values) := by
  refine spaced_separated fun tokens member => ?_
  obtain ⟨value, -, rfl⟩ := List.mem_map.mp member
  exact spaced_singleton _

mutual

/-- Between the operands of an expression there are words. -/
theorem spaced_tokens : ∀ expr : Expr, Spaced expr.tokens
  | .column _ _ | .bound _ | .member _ [] => spaced_singleton _
  | .compare _ left right => spaced_append_word.mpr ⟨spaced_tokens left, spaced_tokens right⟩
  | .member tested (first :: rest) =>
    spaced_append_word.mpr ⟨spaced_tokens tested,
      spaced_append_word.mpr ⟨spaced_valueTokens (first :: rest), List.isChain_nil⟩⟩
  | .isNull tested => spaced_append_word.mpr ⟨spaced_tokens tested, List.isChain_nil⟩
  | .all parts => spaced_separated (spaced_tokensOfParts parts)

theorem spaced_tokensOfParts : ∀ parts : List Expr, ∀ tokens ∈ tokensOfParts parts, Spaced tokens
  | [], _, inside => nomatch inside
  | part :: rest, tokens, inside => by
      rcases List.mem_cons.mp inside with rfl | later
      · exact spaced_enclosed (spaced_tokens part)
      · exact spaced_tokensOfParts rest tokens later

end

/-- The text of an expression are the characters of its tokens. -/
theorem toList_build (dialect : Dialect) (expr : Expr) (params : List Value) :
    (expr.build dialect params).1.toList = chars dialect params.length expr.tokens := by
  rw [chars, ← render_eq]
  rfl

/-- **The text of a condition and its parameters tell its tokens.** -/
theorem tokens_eq_of_build_eq {dialect : Dialect} {params : List Value} {first second : Expr}
    (plain : first.Plain) (plain' : second.Plain)
    (same : first.build dialect params = second.build dialect params) :
    first.tokens = second.tokens := by
  have texts := congrArg (fun built => built.1.toList) same
  have bound := congrArg Prod.snd same
  simp only [toList_build] at texts
  simp only [build, render_params, List.append_cancel_left_eq] at bound
  rw [← values_tokens, ← values_tokens] at bound
  exact eq_of_chars_eq plain plain' (spaced_tokens first) (spaced_tokens second) bound texts

/-- Expressions with the same tokens are written the same, with the same parameters. -/
theorem build_eq_of_tokens_eq (dialect : Dialect) (params : List Value) {first second : Expr}
    (same : first.tokens = second.tokens) :
    first.build dialect params = second.build dialect params := by
  refine Prod.ext (String.toList_inj.mp ?_) ?_
  · rw [toList_build, toList_build, same]
  · simp only [build, render_params]
    rw [← values_tokens, ← values_tokens, same]

/-- Only a conjunction of nothing has no tokens. -/
theorem tokens_eq_nil_iff : ∀ {expr : Expr}, expr.tokens = [] ↔ expr = .all []
  | .column _ _ | .bound _ | .member _ [] => by simp [tokens]
  | .compare .. | .member _ (_ :: _) | .isNull _ => by simp [tokens]
  | .all [] => by simp [tokens, tokensOfParts, separated]
  | .all [part] => by
      cases nested : part.isConjunction with
      | true => simp [tokens, tokensOfParts, separated, enclosed, nested]
      | false =>
          have part' : part ≠ .all [] := fun empty => by simp [empty, isConjunction] at nested
          simpa [tokens, tokensOfParts, separated, enclosed, nested] using
            mt tokens_eq_nil_iff.mp part'
  | .all (_ :: _ :: _) => by simp [tokens, tokensOfParts, separated]

/-- **No condition is written as nothing**, except the conjunction of nothing. -/
theorem build_eq_empty_iff {dialect : Dialect} {expr : Expr} {params : List Value} :
    (expr.build dialect params).1 = "" ↔ expr = .all [] := by
  rw [← String.toList_eq_nil_iff, toList_build, chars_eq_nil_iff, tokens_eq_nil_iff]

end Expr

end LazyMapper.Sql
