/-!
# A keyless hash of bytes

SipHash with one round for each word of the input, three rounds at the end, and both keys zero.
The input is read as words of eight bytes, the lowest first. What is left over makes the last word,
whose highest byte is the number of all bytes.
-/

set_option autoImplicit false

namespace LazyMapper

/-- The four words of a hash that is being computed. -/
structure Sip where
  first : UInt64
  second : UInt64
  third : UInt64
  fourth : UInt64

namespace Sip

/-- The word with its bits rotated towards the highest. -/
def rotate (word bits : UInt64) : UInt64 := word <<< bits ||| word >>> (64 - bits)

def start : Sip :=
  ⟨0x736f6d6570736575, 0x646f72616e646f6d, 0x6c7967656e657261, 0x7465646279746573⟩

/-- One round. It adds, rotates and combines the words in two pairs, and then again with the pairs
crossed. -/
def round (state : Sip) : Sip :=
  let first := state.first + state.second
  let second := rotate state.second 13 ^^^ first
  let third := state.third + state.fourth
  let fourth := rotate state.fourth 16 ^^^ third
  let crossed := rotate first 32 + fourth
  let crossed' := third + second
  ⟨crossed, rotate second 17 ^^^ crossed', rotate crossed' 32, rotate fourth 21 ^^^ crossed⟩

/-- Takes in a word of the input. -/
def absorb (state : Sip) (word : UInt64) : Sip :=
  let mixed := round { state with fourth := state.fourth ^^^ word }
  { mixed with first := mixed.first ^^^ word }

/-- The word of at most eight bytes, the lowest first. -/
def word (bytes : List UInt8) : UInt64 :=
  bytes.foldr (fun byte higher => higher <<< 8 ||| byte.toUInt64) 0

/-- Takes in the bytes of an input of the given size that are left. -/
def absorbAll (size : Nat) (state : Sip) : List UInt8 → Sip
  | b₀ :: b₁ :: b₂ :: b₃ :: b₄ :: b₅ :: b₆ :: b₇ :: rest =>
    absorbAll size (state.absorb (word [b₀, b₁, b₂, b₃, b₄, b₅, b₆, b₇])) rest
  | rest => state.absorb (word rest ||| UInt64.ofNat size <<< 56)

/-- The hash of bytes. -/
def hash (bytes : List UInt8) : UInt64 :=
  let state := absorbAll bytes.length start bytes
  let state := round (round (round { state with third := state.third ^^^ 0xff }))
  state.first ^^^ state.second ^^^ state.third ^^^ state.fourth

end Sip

end LazyMapper
