import LazyMapper.Number.Sip
import LazyMapper.Session.Key

/-!
# The hash of a digest

A digest is hashed by the bytes of its tokens. Numbers are written with their lowest byte first,
bytes behind their number, and a text is ended by a byte that stands in no text.
-/

set_option autoImplicit false

namespace LazyMapper

/-- The bytes of a number of the given width, the lowest first. -/
def bytesOf (width number : Nat) : List UInt8 :=
  (List.range width).map fun index => UInt8.ofNat (number >>> (8 * index))

/-- The bytes of a token. -/
def KeyToken.toBytes : KeyToken → List UInt8
  | .tag number => bytesOf 1 number
  | .length count => bytesOf 8 count
  | .flag isSet => bytesOf 1 isSet.toNat
  | .integer width number => bytesOf width (BitVec.ofInt (8 * width) number).toNat
  | .bits width pattern => bytesOf width pattern
  | .text content => content.toList.flatMap String.utf8EncodeChar ++ [0xff]
  | .bytes content => bytesOf 8 content.length ++ content

instance Digest.instHashable : Hashable Digest :=
  ⟨fun digest => Sip.hash (digest.flatMap KeyToken.toBytes)⟩

end LazyMapper
