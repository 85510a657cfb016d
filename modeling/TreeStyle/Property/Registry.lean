import TreeStyle.Element
import TreeStyle.Text.Blank
import TreeStyle.Text.Kebab

/-!
This module contains the names of properties in declarations. Generic names stand in a table with
the properties that they can mean, and vendor names spell a property behind a fixed beginning.
-/

namespace TreeStyle

structure GenericProperty where
  name : String
  targets : List String
  inherited : Bool
  deriving DecidableEq, Repr

def genericProperties : List GenericProperty := [
  ⟨"background-color", ["BackgroundColor"], false⟩,
  ⟨"border-color", ["BorderColor"], false⟩,
  ⟨"border-radius", ["CornerRadius"], false⟩,
  ⟨"border-width", ["BorderWidth"], false⟩,
  ⟨"color", ["TextColor", "Color"], true⟩,
  ⟨"column-gap", ["ColumnSpacing"], false⟩,
  ⟨"direction", ["FlowDirection"], true⟩,
  ⟨"font-family", ["FontFamily"], true⟩,
  ⟨"font-size", ["FontSize"], true⟩,
  ⟨"height", ["HeightRequest"], false⟩,
  ⟨"line-height", ["LineHeight"], true⟩,
  ⟨"margin", ["Margin"], false⟩,
  ⟨"min-height", ["MinimumHeightRequest"], false⟩,
  ⟨"min-width", ["MinimumWidthRequest"], false⟩,
  ⟨"opacity", ["Opacity"], false⟩,
  ⟨"padding", ["Padding"], false⟩,
  ⟨"placeholder-color", ["PlaceholderColor"], true⟩,
  ⟨"row-gap", ["RowSpacing"], false⟩,
  ⟨"text-align", ["HorizontalTextAlignment"], true⟩,
  ⟨"visibility", ["IsVisible"], true⟩,
  ⟨"width", ["WidthRequest"], false⟩]

def genericProperty? (name : String) : Option GenericProperty :=
  genericProperties.find? fun row => Text.eqIgnoringCase row.name name

inductive PropertyName where
  | generic (row : GenericProperty)
  | vendor (rest : String)
  | unknown (name : String)
  deriving DecidableEq, Repr

def PropertyName.inherited? : PropertyName → Option Bool
  | .generic row => some row.inherited
  | .vendor _ => none
  | .unknown _ => some false

/--
The vendor name of a property of a type: `Button` and `BorderColor` give `button-border-color`
behind the beginning.
-/
def vendorName (beginning type property : String) : String :=
  beginning ++ Text.asciiLower type ++ "-" ++ Text.kebab property

structure Registry where
  beginning : String
  deriving DecidableEq, Repr

namespace Registry

def ofPrefix (beginning : String) : Registry := ⟨Text.asciiLower beginning⟩

def classify (registry : Registry) (name : String) : PropertyName :=
  let cs := (Text.trim name.toList).map Char.toLower
  match Text.stripFront? registry.beginning.toList cs with
  | some (c :: rest) => .vendor (String.ofList (c :: rest))
  | _ =>
    let name := String.ofList cs
    match genericProperty? name with
    | some row => .generic row
    | none => .unknown name

def vendorName (registry : Registry) (type property : String) : String :=
  TreeStyle.vendorName registry.beginning type property

variable {α : Type} [Stylable α]

def resolveScoped? (element : α) (rest : List Char) : Option PropertyDescriptor :=
  match rest.dropWhile (· ≠ '-') with
  | [] => none
  | _ :: property =>
    let scope := String.ofList (rest.takeWhile (· ≠ '-'))
    if (Stylable.typeNames element).any (Text.eqIgnoringCase · scope) then
      Stylable.property? element (Text.pascal (String.ofList property))
    else none

def resolveVendor? (element : α) (rest : String) : Option PropertyDescriptor :=
  resolveScoped? element rest.toList <|> Stylable.property? element (Text.pascal rest)

def resolveName? (element : α) : PropertyName → Option PropertyDescriptor
  | .generic row => row.targets.findSome? (Stylable.property? element)
  | .vendor rest => resolveVendor? element rest
  | .unknown _ => none

def resolveInherited? (element : α) (name : PropertyName) : Option PropertyDescriptor :=
  (resolveName? element name).filter (·.inherited)

def resolve? (registry : Registry) (element : α) (name : String) : Option PropertyDescriptor :=
  resolveName? element (registry.classify name)

end Registry

end TreeStyle
