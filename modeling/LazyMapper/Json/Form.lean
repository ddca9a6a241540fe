import LazyMapper.Json.Basic

/-!
# JSON forms

`ToJson` gives data a form as a JSON value. Absent data is null, a list is an array, and a pair is
an array of two. Where a JSON value is wanted, data with a form may stand for it.
-/

set_option autoImplicit false

namespace LazyMapper

/-- Data with a form as a JSON value. -/
class ToJson (α : Type) where
  toJson : α → Json

export ToJson (toJson)

namespace ToJson

instance {α : Type} [ToJson α] : CoeOut α Json := ⟨toJson⟩

instance : ToJson Json := ⟨id⟩
instance : ToJson Bool := ⟨.bool⟩
instance : ToJson Int := ⟨.integer⟩
instance : ToJson Nat := ⟨fun number => .integer number⟩
instance : ToJson String := ⟨.string⟩

instance {α : Type} [ToJson α] : ToJson (Option α) := ⟨fun data? => data?.elim .null toJson⟩

instance {α : Type} [ToJson α] : ToJson (List α) := ⟨fun items => .array (items.map toJson)⟩

instance {α β : Type} [ToJson α] [ToJson β] : ToJson (α × β) :=
  ⟨fun pair => .array [toJson pair.1, toJson pair.2]⟩

end ToJson

end LazyMapper
