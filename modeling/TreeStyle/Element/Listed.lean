import TreeStyle.Property.Store
import TreeStyle.Tree

/-!
This module contains elements whose types and properties are listed one by one, for trees that are
not made of widgets.
-/

namespace TreeStyle

structure ListedElement where
  number : Nat
  types : List String
  id? : Option String
  classes : List String
  properties : List PropertyDescriptor
  store : PropertyStore := {}
  frozen : Bool := false

namespace ListedElement

def property? (e : ListedElement) (name : String) : Option PropertyDescriptor :=
  e.properties.find? (·.name == name)

def setUser (e : ListedElement) (property : String) (value : Value) : ListedElement :=
  { e with store := e.store.setUser property value }

def setStyle? (e : ListedElement) (property : String) (value : Value) : Option ListedElement :=
  if e.frozen || (e.property? property).isNone then none
  else some { e with store := e.store.put property (.style value) }

instance : Stylable ListedElement where
  typeNames e := e.types
  styleId? e := e.id?
  classes e := e.classes
  property? := property?
  origin e property := e.store.origin property
  setStyle? := setStyle?
  clearStyle e property := { e with store := (e.store.clearStyle property).2 }
  clearStyles e := { e with store := e.store.clearStyles }

end ListedElement

structure ListedNode where
  element : ListedElement
  parent? : Option Nat

/--
The trees of a list of nodes in which every parent stands before its children. They are put together
from the back: the trees of all later children of a node are known when the node is reached.
-/
def ListedNode.forest (nodes : List ListedNode) : List (Tree ListedElement) :=
  ((nodes.foldr attach []).filter (·.1.isNone)).map (·.2)
where
  attach (n : ListedNode) (later : List (Option Nat × Tree ListedElement)) :
      List (Option Nat × Tree ListedElement) :=
    let (below, others) := later.partition (·.1 == some n.element.number)
    (n.parent?, .node n.element (below.map (·.2))) :: others

end TreeStyle
