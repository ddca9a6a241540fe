/-!
# Dotted names

Names, and chains of names joined by dots. `splitDots` cuts a text at every dot, so that joining
the parts by dots gives the text back; a text without a dot is one part. `splitFirstDot` and
`splitLastDot` cut once.
-/

set_option autoImplicit false

namespace LazyMapper.Text

/-! ## Names -/

/-- A letter of the alphabet without accents, or an underscore. -/
def isNameStart (char : Char) : Bool :=
  ('a' ≤ char && char ≤ 'z') || ('A' ≤ char && char ≤ 'Z') || char == '_'

/-- What may follow the first character of a name. -/
def isNameRest (char : Char) : Bool := isNameStart char || ('0' ≤ char && char ≤ '9')

/-- The characters form a name: a letter or underscore, then letters, digits and underscores. -/
def isName : List Char → Bool
  | [] => false
  | first :: rest => isNameStart first && rest.all isNameRest

/-! ## Cutting at dots -/

/-- The parts between the dots. -/
def splitDots : List Char → List (List Char)
  | [] => [[]]
  | char :: rest =>
    if char = '.' then [] :: splitDots rest
    else
      match splitDots rest with
      | [] => [[char]]
      | part :: parts => (char :: part) :: parts

/-- The characters before and after the first dot. -/
def splitFirstDot : List Char → Option (List Char × List Char)
  | [] => none
  | char :: rest =>
    if char = '.' then some ([], rest)
    else (splitFirstDot rest).map fun cut => (char :: cut.1, cut.2)

/-- The characters before and after the last dot. -/
def splitLastDot : List Char → Option (List Char × List Char)
  | [] => none
  | char :: rest =>
    match splitLastDot rest with
    | some cut => some (char :: cut.1, cut.2)
    | none => if char = '.' then some ([], rest) else none

/-- The parts joined by dots. -/
def joinDots : List (List Char) → List Char
  | [] => []
  | [part] => part
  | part :: parts => part ++ '.' :: joinDots parts

end LazyMapper.Text
