import TreeStyle.Value

/-!
This module contains the enumerations among the properties of widgets.
-/

namespace TreeStyle

class StyleEnum (α : Type) where
  enumName : String
  first : α
  others : List α
  member : α → String

namespace StyleEnum

def members (α : Type) [StyleEnum α] : List α := first :: others

def type (α : Type) [StyleEnum α] : EnumType := ⟨enumName α, (members α).map member⟩

variable {α : Type} [StyleEnum α]

def ofMember? (name : String) : Option α := (members α).find? (member · == name)

def toValue (a : α) : Value := .enum ⟨enumName α, member a⟩

def ofValue? : Value → Option α
  | .enum e => if e.enum = enumName α then ofMember? e.member else none
  | _ => none

end StyleEnum

inductive TextAlignment where
  | start
  | center
  | finish
  deriving DecidableEq, Repr

instance : StyleEnum TextAlignment where
  enumName := "TextAlignment"
  first := .start
  others := [.center, .finish]
  member
    | .start => "Start"
    | .center => "Center"
    | .finish => "End"

inductive ScrollOrientation where
  | vertical
  | horizontal
  | both
  | neither
  deriving DecidableEq, Repr

instance : StyleEnum ScrollOrientation where
  enumName := "ScrollOrientation"
  first := .vertical
  others := [.horizontal, .both, .neither]
  member
    | .vertical => "Vertical"
    | .horizontal => "Horizontal"
    | .both => "Both"
    | .neither => "Neither"

inductive ScrollBarVisibility where
  | standard
  | always
  | never
  deriving DecidableEq, Repr

instance : StyleEnum ScrollBarVisibility where
  enumName := "ScrollBarVisibility"
  first := .standard
  others := [.always, .never]
  member
    | .standard => "Default"
    | .always => "Always"
    | .never => "Never"

inductive StackOrientation where
  | vertical
  | horizontal
  deriving DecidableEq, Repr

instance : StyleEnum StackOrientation where
  enumName := "StackOrientation"
  first := .vertical
  others := [.horizontal]
  member
    | .vertical => "Vertical"
    | .horizontal => "Horizontal"

inductive FlowDirection where
  | matchParent
  | leftToRight
  | rightToLeft
  deriving DecidableEq, Repr

instance : StyleEnum FlowDirection where
  enumName := "FlowDirection"
  first := .matchParent
  others := [.leftToRight, .rightToLeft]
  member
    | .matchParent => "MatchParent"
    | .leftToRight => "LeftToRight"
    | .rightToLeft => "RightToLeft"

end TreeStyle
