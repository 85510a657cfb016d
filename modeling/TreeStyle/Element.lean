import TreeStyle.Value

/-!
This module contains what styling needs to know of an element and what it may do to it.
-/

namespace TreeStyle

inductive Origin where
  | unset
  | style
  | user
  deriving DecidableEq, Repr

structure PropertyDescriptor where
  name : String
  type : ValueType
  /-- The value while nobody has set one, unless the platform decides. -/
  default? : Option Value
  inherited : Bool
  deriving DecidableEq

class Stylable (α : Type) where
  typeNames : α → List String
  styleId? : α → Option String
  classes : α → List String
  property? : α → String → Option PropertyDescriptor
  origin : α → String → Origin
  setStyle? : α → String → Value → Option α
  clearStyle : α → String → α
  clearStyles : α → α
  describe : α → String := fun element => (typeNames element).headD "<element>"

end TreeStyle
