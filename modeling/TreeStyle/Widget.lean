import TreeStyle.Property.Store
import TreeStyle.Text.Quoted
import TreeStyle.Widget.Error

/-!
This module contains single widgets: their names for selectors and the values of their properties.
-/

namespace TreeStyle

structure Widget where
  number : Nat
  kind : WidgetKind
  styleId? : Option String := none
  classes : List String := []
  store : PropertyStore := {}
  deriving DecidableEq

namespace Widget

def setStyleId (w : Widget) (id : String) : Widget := { w with styleId? := some id }

def addClass (w : Widget) (name : String) : Widget :=
  if w.classes.contains name then w else { w with classes := w.classes ++ [name] }

@[simp]
theorem number_addClass (w : Widget) (name : String) : (w.addClass name).number = w.number := by
  unfold addClass
  split <;> rfl

@[simp]
theorem kind_addClass (w : Widget) (name : String) : (w.addClass name).kind = w.kind := by
  unfold addClass
  split <;> rfl

@[simp]
theorem store_addClass (w : Widget) (name : String) : (w.addClass name).store = w.store := by
  unfold addClass
  split <;> rfl

def removeClass (w : Widget) (name : String) : Widget :=
  { w with classes := w.classes.filter (· != name) }

def property? (w : Widget) (property : String) : Option PropertyDescriptor :=
  w.kind.property? property

def get? (w : Widget) (property : String) : Option Value := do
  let descriptor ← w.property? property
  w.store.get? property <|> descriptor.default?

def origin (w : Widget) (property : String) : Origin := w.store.origin property

def set (w : Widget) (property : String) (value : Value) : Except WidgetError Widget :=
  match w.property? property with
  | none => .error (.propertyNotFound w.kind property)
  | some descriptor =>
    if value.isOf descriptor.type then .ok { w with store := w.store.setUser descriptor.name value }
    else .error (.typeMismatch property descriptor.type)

def clear (w : Widget) (property : String) : Widget := { w with store := w.store.clear property }

def setStyle? (w : Widget) (property : String) (value : Value) : Option Widget := do
  let descriptor ← w.property? property
  if value.isOf descriptor.type then
    return { w with store := ← w.store.setStyle? descriptor.name value }
  else none

def writeStyle (w : Widget) (property : String) (value : Value) : Widget :=
  (w.setStyle? property value).getD w

def clearStyle (w : Widget) (property : String) : Widget :=
  { w with store := (w.store.clearStyle property).2 }

def clearStyles (w : Widget) : Widget := { w with store := w.store.clearStyles }

def describe (w : Widget) : String :=
  match w.styleId? with
  | some id => w.kind.name ++ "#" ++ id
  | none => w.kind.name

instance : Stylable Widget where
  typeNames w := w.kind.typeChain
  styleId? w := w.styleId?
  classes w := w.classes
  property? := property?
  origin := origin
  setStyle? := setStyle?
  clearStyle := clearStyle
  clearStyles := clearStyles
  describe := describe

def setEnum {α : Type} [StyleEnum α] (w : Widget) (property : String) (a : α) :
    Except WidgetError Widget := w.set property (StyleEnum.toValue a)

def getEnum? (α : Type) [StyleEnum α] (w : Widget) (property : String) : Option α :=
  w.get? property >>= StyleEnum.ofValue?

def backgroundColor? (w : Widget) : Option Color := w.get? "BackgroundColor" >>= Value.color?

def setBackgroundColor (w : Widget) (c : Color) : Except WidgetError Widget :=
  w.set "BackgroundColor" (.color c)

def textColor? (w : Widget) : Option Color := w.get? "TextColor" >>= Value.color?

def setTextColor (w : Widget) (c : Color) : Except WidgetError Widget :=
  w.set "TextColor" (.color c)

def opacity (w : Widget) : Float := (w.get? "Opacity" >>= Value.float?).getD 1.0

def isVisible (w : Widget) : Bool := (w.get? "IsVisible" >>= Value.bool?).getD true

def margin (w : Widget) : Thickness := (w.get? "Margin" >>= Value.thickness?).getD .zero

def summary (w : Widget) (children : Nat) : String :=
  let id := match w.styleId? with
    | some id => "Some(" ++ Text.quoted id ++ ")"
    | none => "None"
  "Widget \x7b kind: " ++ w.kind.name ++ ", style_id: " ++ id ++ ", classes: [" ++
    String.intercalate ", " (w.classes.map Text.quoted) ++ "], children: " ++ toString children ++
    " \x7d"

end Widget

end TreeStyle
