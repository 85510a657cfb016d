import TreeStyle.Element

/-!
This module contains the stores in which elements keep the values of their properties, each with the
mark whether a style or the user has set it.
-/

namespace TreeStyle

inductive Slot where
  | style (value : Value)
  | user (value : Value)
  deriving DecidableEq

namespace Slot

def value : Slot → Value
  | .style v => v
  | .user v => v

def origin : Slot → Origin
  | .style _ => .style
  | .user _ => .user

end Slot

structure PropertyStore where
  slots : List (String × Slot) := []
  deriving DecidableEq

namespace PropertyStore

def slot? (s : PropertyStore) (property : String) : Option Slot := s.slots.lookup property

def get? (s : PropertyStore) (property : String) : Option Value := (s.slot? property).map (·.value)

def origin (s : PropertyStore) (property : String) : Origin :=
  ((s.slot? property).map (·.origin)).getD .unset

def clear (s : PropertyStore) (property : String) : PropertyStore :=
  ⟨s.slots.filter (·.1 != property)⟩

def put (s : PropertyStore) (property : String) (slot : Slot) : PropertyStore :=
  ⟨(property, slot) :: (s.clear property).slots⟩

def setUser (s : PropertyStore) (property : String) (value : Value) : PropertyStore :=
  s.put property (.user value)

def setStyle? (s : PropertyStore) (property : String) (value : Value) : Option PropertyStore :=
  if s.origin property = .user then none else some (s.put property (.style value))

/--
Drops the value of a property if a style has set it. The first part tells whether one was dropped.
-/
def clearStyle (s : PropertyStore) (property : String) : Bool × PropertyStore :=
  if s.origin property = .style then (true, s.clear property) else (false, s)

def clearStyles (s : PropertyStore) : PropertyStore :=
  ⟨s.slots.filter (·.2.origin != .style)⟩

def size (s : PropertyStore) : Nat := s.slots.length

def isEmpty (s : PropertyStore) : Bool := s.slots.isEmpty

end PropertyStore

end TreeStyle
