import TreeStyle.Text.Ascii
import TreeStyle.Text.Blank

/-!
This module contains declarations, which give a property its value: as they are written, and with
the name in lowercase and the keyword `initial` recognized.
-/

namespace TreeStyle

structure RawDeclaration where
  property : String
  value : String
  important : Bool
  deriving DecidableEq, Repr

inductive PropertyValue where
  | initial
  | specified (text : String)
  deriving DecidableEq, Repr

structure Declaration where
  property : String
  value : PropertyValue
  important : Bool
  deriving DecidableEq, Repr

namespace RawDeclaration

def plain (property value : String) : RawDeclaration := ⟨property, value, false⟩

def render (d : RawDeclaration) : String :=
  d.property ++ ": " ++ d.value ++ (if d.important then " !important" else "") ++ ";"

end RawDeclaration

namespace PropertyValue

def ofText (text : String) : PropertyValue :=
  if Text.eqIgnoringCase text "initial" then .initial else .specified text

def text : PropertyValue → String
  | .initial => "initial"
  | .specified text => text

end PropertyValue

namespace Declaration

def ofRaw (d : RawDeclaration) : Declaration :=
  ⟨Text.asciiLower d.property, PropertyValue.ofText d.value, d.important⟩

def toRaw (d : Declaration) : RawDeclaration := ⟨d.property, d.value.text, d.important⟩

def plain (property value : String) : Declaration := ofRaw (RawDeclaration.plain property value)

def render (d : Declaration) : String := d.toRaw.render

end Declaration

def importantMark : List Char := "!important".toList

def splitImportant (value : List Char) : List Char × Bool :=
  let front := value.length - importantMark.length
  if (value.drop front).map Char.toLower = importantMark then
    (Text.trimEnd (value.take front), true)
  else (value, false)

end TreeStyle
