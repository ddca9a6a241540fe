/-!
# Reading JSON documents

`Document.read?` accepts exactly the JSON texts. A document keeps what settings need to know of
a text and no more: a natural number that is written without sign, point and exponent is told
from other numbers, the entries of an object stand in the order of the text with repeated keys
kept, and a string whose escapes name half a surrogate pair denotes no text (`none`).

Reading has two steps. `tokens?` cuts the text into signs, literals and blanks, and `parse?` puts
the tokens together. Blanks are the space, the tab, the line feed and the carriage return.
-/

set_option autoImplicit false

namespace LazyMapper

/-- What a JSON text denotes. -/
inductive Document where
  | null
  | bool (flag : Bool)
  | natural (value : Nat)
  /-- A number with a sign, a point or an exponent. -/
  | number
  /-- A string, or a string literal that denotes no text. -/
  | string (text? : Option String)
  | array (items : List Document)
  | object (entries : List (Option String × Document))

namespace Document

instance : Inhabited Document := ⟨.null⟩

/-! ## Tokens -/

/-- A token of a JSON text. -/
inductive Token where
  | openArray
  | closeArray
  | openObject
  | closeObject
  | comma
  | colon
  /-- A literal other than a string. -/
  | scalar (document : Document)
  | string (text? : Option String)

/-- A decimal digit. -/
def isDigit (char : Char) : Bool := '0' ≤ char && char ≤ '9'

/-- The value of a hexadecimal digit in either case. -/
def hexValue? (char : Char) : Option Nat :=
  if isDigit char then some (char.toNat - '0'.toNat)
  else if 'a' ≤ char && char ≤ 'f' then some (char.toNat - 'a'.toNat + 10)
  else if 'A' ≤ char && char ≤ 'F' then some (char.toNat - 'A'.toNat + 10)
  else none

/-- The value of four hexadecimal digits. -/
def hexUnit? (a b c d : Char) : Option Nat := do
  return (((← hexValue? a) * 16 + (← hexValue? b)) * 16 + (← hexValue? c)) * 16 + (← hexValue? d)

/-- The character that a single letter stands for behind a backslash. -/
def simpleEscape? : Char → Option Char
  | '"' => some '"'
  | '\\' => some '\\'
  | '/' => some '/'
  | 'b' => some '\x08'
  | 'f' => some '\x0c'
  | 'n' => some '\n'
  | 'r' => some '\r'
  | 't' => some '\t'
  | _ => none

/-- What a string literal is made of: characters, and 16-bit units written by their number. -/
inductive Unit16 where
  | char (char : Char)
  | unit (code : Nat)

/-- The parts of a string literal up to its closing quotation mark, and the text behind it. -/
def stringParts : List Char → Option (List Unit16 × List Char)
  | [] => none
  | '"' :: rest => some ([], rest)
  | '\\' :: 'u' :: a :: b :: c :: d :: rest => do
    let code ← hexUnit? a b c d
    let (parts, rest) ← stringParts rest
    return (.unit code :: parts, rest)
  | '\\' :: letter :: rest => do
    let char ← simpleEscape? letter
    let (parts, rest) ← stringParts rest
    return (.char char :: parts, rest)
  | char :: rest =>
    if char.toNat < 32 || char == '\\' then none
    else do
      let (parts, rest) ← stringParts rest
      return (.char char :: parts, rest)

/-- The text of a string literal. A leading half of a surrogate pair must be followed by a
trailing half, and a trailing half must follow a leading one. -/
def textOf? : List Unit16 → Option (List Char)
  | [] => some []
  | .char char :: rest => (textOf? rest).map (char :: ·)
  | .unit high :: .unit low :: rest =>
    if 0xD800 ≤ high && high < 0xDC00 then
      if 0xDC00 ≤ low && low < 0xE000 then
        (textOf? rest).map (Char.ofNat (0x10000 + (high - 0xD800) * 0x400 + (low - 0xDC00)) :: ·)
      else none
    else if 0xDC00 ≤ high && high < 0xE000 then none
    else (textOf? (.unit low :: rest)).map (Char.ofNat high :: ·)
  | .unit code :: rest =>
    if 0xD800 ≤ code && code < 0xE000 then none
    else (textOf? rest).map (Char.ofNat code :: ·)

/-- The value of decimal digits. -/
def naturalOf (digits : List Char) : Nat :=
  digits.foldl (fun value digit => value * 10 + (digit.toNat - '0'.toNat)) 0

/-- At least one digit, and the text behind all that follow. -/
def digits? (text : List Char) : Option (List Char × List Char) :=
  match text.takeWhile isDigit with
  | [] => none
  | digits => some (digits, text.dropWhile isDigit)

/-- The exponent of a number, if there is one, and whether there is. -/
def exponent? : List Char → Option (Bool × List Char)
  | char :: rest =>
    if char == 'e' || char == 'E' then
      let rest :=
        match rest with
        | sign :: behind => if sign == '+' || sign == '-' then behind else rest
        | [] => rest
      (digits? rest).map fun read => (true, read.2)
    else some (false, char :: rest)
  | [] => some (false, [])

/-- The places behind the point of a number, if there is one, and whether there is. -/
def fraction? : List Char → Option (Bool × List Char)
  | '.' :: rest => (digits? rest).map fun read => (true, read.2)
  | rest => some (false, rest)

/-- A number, and the text behind it. The whole part has no needless zero in front. -/
def number? (text : List Char) : Option (Document × List Char) := do
  let (negative, text) :=
    match text with
    | '-' :: rest => (true, rest)
    | _ => (false, text)
  let (whole, rest) ← digits? text
  if whole.length > 1 && whole.head? == some '0' then none
  else
    let (pointed, rest) ← fraction? rest
    let (scaled, rest) ← exponent? rest
    let natural := !negative && !pointed && !scaled
    return (if natural then .natural (naturalOf whole) else .number, rest)

/-- The first token of a text that does not begin with a blank, and the text behind it. -/
def token? : List Char → Option (Token × List Char)
  | '[' :: rest => some (.openArray, rest)
  | ']' :: rest => some (.closeArray, rest)
  | '\x7b' :: rest => some (.openObject, rest)
  | '\x7d' :: rest => some (.closeObject, rest)
  | ',' :: rest => some (.comma, rest)
  | ':' :: rest => some (.colon, rest)
  | 'n' :: 'u' :: 'l' :: 'l' :: rest => some (.scalar .null, rest)
  | 't' :: 'r' :: 'u' :: 'e' :: rest => some (.scalar (.bool true), rest)
  | 'f' :: 'a' :: 'l' :: 's' :: 'e' :: rest => some (.scalar (.bool false), rest)
  | '"' :: rest => do
    let (parts, rest) ← stringParts rest
    return (.string ((textOf? parts).map String.ofList), rest)
  | text => do
    let (document, rest) ← number? text
    return (.scalar document, rest)

/-- A blank between tokens. -/
def isBlank (char : Char) : Bool :=
  char == ' ' || char == '\t' || char == '\n' || char == '\r'

/-- The tokens of a text of at most `fuel` characters. -/
def tokensWithin : Nat → List Char → Option (List Token)
  | _, [] => some []
  | 0, _ :: _ => none
  | fuel + 1, char :: rest =>
    if isBlank char then tokensWithin fuel rest
    else do
      let (token, rest) ← token? (char :: rest)
      return token :: (← tokensWithin fuel rest)

/-- The tokens of a text. Each takes at least one character. -/
def tokens? (text : List Char) : Option (List Token) := tokensWithin text.length text

/-! ## Documents -/

/-- A container whose end has not been read: the items before, the last first. -/
inductive Frame where
  | array (before : List Document)
  /-- With the key of the entry whose value comes next. -/
  | object (before : List (Option String × Document)) (key : Option String)

/-- What may come next in a text. -/
inductive Expecting where
  /-- A value. -/
  | value
  /-- A value or the end of an array that has just begun. -/
  | valueOrEnd
  /-- A key, behind the entries before. -/
  | key (before : List (Option String × Document))
  /-- A key or the end of an object that has just begun. -/
  | keyOrEnd
  /-- The colon behind a key. -/
  | colon (before : List (Option String × Document)) (key : Option String)
  /-- What follows a value: a comma or the end of the innermost container. -/
  | afterValue (value : Document)

/-- How far a text has been read: the open containers, the innermost first, and what may come
next. -/
structure State where
  frames : List Frame
  expecting : Expecting

/-- Reads a value that begins with a token. -/
def State.value (frames : List Frame) : Token → Option State
  | .scalar document => some ⟨frames, .afterValue document⟩
  | .string text? => some ⟨frames, .afterValue (.string text?)⟩
  | .openArray => some ⟨.array [] :: frames, .valueOrEnd⟩
  | .openObject => some ⟨frames, .keyOrEnd⟩
  | _ => none

/-- Reads what follows a value. -/
def State.afterValue (value : Document) : List Frame → Token → Option State
  | .array before :: frames, .comma => some ⟨.array (value :: before) :: frames, .value⟩
  | .array before :: frames, .closeArray =>
    some ⟨frames, .afterValue (.array (value :: before).reverse)⟩
  | .object before key :: frames, .comma => some ⟨frames, .key ((key, value) :: before)⟩
  | .object before key :: frames, .closeObject =>
    some ⟨frames, .afterValue (.object ((key, value) :: before).reverse)⟩
  | _, _ => none

/-- Reads one token. -/
def State.next (state : State) (token : Token) : Option State :=
  match state.expecting, state.frames, token with
  | .valueOrEnd, .array _ :: frames, .closeArray => some ⟨frames, .afterValue (.array [])⟩
  | .valueOrEnd, frames, token | .value, frames, token => State.value frames token
  | .keyOrEnd, frames, .closeObject => some ⟨frames, .afterValue (.object [])⟩
  | .keyOrEnd, frames, .string key => some ⟨frames, .colon [] key⟩
  | .key before, frames, .string key => some ⟨frames, .colon before key⟩
  | .colon before key, frames, .colon => some ⟨.object before key :: frames, .value⟩
  | .afterValue value, frames, token => State.afterValue value frames token
  | _, _, _ => none

/-- The document that tokens make up. -/
def parse? (tokens : List Token) : Option Document :=
  match tokens.foldlM State.next ⟨[], .value⟩ with
  | some ⟨[], .afterValue document⟩ => some document
  | _ => none

/-- Reads a JSON text. -/
def read? (text : String) : Option Document := (tokens? text.toList).bind parse?

end Document

end LazyMapper
