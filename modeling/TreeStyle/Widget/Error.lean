import TreeStyle.Widget.Kind

/-!
This module contains the reasons why operations on widgets are refused, and their wording.
-/

namespace TreeStyle

inductive InvalidOperation where
  | noChildren (parent : WidgetKind)
  | contentTaken (parent : WidgetKind)
  | onlyPages (parent : WidgetKind)
  | pageInside (page parent : WidgetKind)
  | hasParent (child : WidgetKind)
  | ownAncestor
  | noContentSlot (parent : WidgetKind)
  | notAPage (kind : WidgetKind)
  | noWidget (number : Nat)
  deriving DecidableEq, Repr

def InvalidOperation.message : InvalidOperation → String
  | .noChildren parent => parent.name ++ " cannot have children"
  | .contentTaken parent => parent.name ++ " already has content; use set_content"
  | .onlyPages parent => parent.name ++ " only holds pages"
  | .pageInside page parent => "a " ++ page.name ++ " cannot be placed inside " ++ parent.name
  | .hasParent child => child.name ++ " already has a parent"
  | .ownAncestor => "a widget cannot contain its own ancestor"
  | .noContentSlot parent => parent.name ++ " has no content slot"
  | .notAPage kind => kind.name ++ " cannot be a main page"
  | .noWidget number => "there is no widget " ++ toString number

inductive WidgetError where
  | propertyNotFound (kind : WidgetKind) (property : String)
  | typeMismatch (property : String) (expected : ValueType)
  | invalidOperation (cause : InvalidOperation)
  deriving DecidableEq, Repr

def WidgetError.message : WidgetError → String
  | .propertyNotFound kind property => kind.name ++ " has no property '" ++ property ++ "'"
  | .typeMismatch property expected =>
    "Property '" ++ property ++ "' expects a " ++ expected.name ++ " value"
  | .invalidOperation cause => "Invalid operation: " ++ cause.message

end TreeStyle
