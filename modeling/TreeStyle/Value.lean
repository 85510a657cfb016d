import TreeStyle.Color

/-!
This module contains the typed values of properties and their types.
-/

namespace TreeStyle

structure Thickness where
  left : Float
  top : Float
  right : Float
  bottom : Float
  deriving DecidableEq

namespace Thickness

def uniform (width : Float) : Thickness := ⟨width, width, width, width⟩

def zero : Thickness := uniform 0.0

end Thickness

structure EnumType where
  name : String
  members : List String
  deriving DecidableEq, Repr

structure EnumValue where
  enum : String
  member : String
  deriving DecidableEq, Repr

inductive ValueType where
  | bool
  | int
  | float
  | string
  | color
  | thickness
  | enum (type : EnumType)
  deriving DecidableEq, Repr

inductive Value where
  | bool (b : Bool)
  | int (i : Int32)
  | float (x : Float)
  | string (s : String)
  | color (c : Color)
  | thickness (t : Thickness)
  | enum (e : EnumValue)
  deriving DecidableEq

def ValueType.name : ValueType → String
  | .bool => "bool"
  | .int => "int"
  | .float => "float"
  | .string => "string"
  | .color => "color"
  | .thickness => "thickness"
  | .enum type => type.name

namespace Value

def bool? : Value → Option Bool
  | .bool b => some b
  | _ => none

def int? : Value → Option Int32
  | .int i => some i
  | _ => none

def float? : Value → Option Float
  | .float x => some x
  | _ => none

def string? : Value → Option String
  | .string s => some s
  | _ => none

def color? : Value → Option Color
  | .color c => some c
  | _ => none

def thickness? : Value → Option Thickness
  | .thickness t => some t
  | _ => none

/--
Whether the value has the shape of the type. Enumerations are compared by name.
-/
def isOf : Value → ValueType → Bool
  | .bool _, .bool => true
  | .int _, .int => true
  | .float _, .float => true
  | .string _, .string => true
  | .color _, .color => true
  | .thickness _, .thickness => true
  | .enum e, .enum type => e.enum == type.name
  | _, _ => false

end Value

end TreeStyle
