import TreeStyle.Cascade
import TreeStyle.Widget

/-!
This module contains all widgets with the trees that they form. A widget that has no parent is the
root of a tree of its own, so that taking a child away and adding it elsewhere moves its whole tree.
-/

namespace TreeStyle

structure Forest where
  trees : List (Tree Widget) := []
  count : Nat := 0

namespace Forest

def isNumber (n : Nat) (t : Tree Widget) : Bool := t.value.number == n

def subtree? (f : Forest) (n : Nat) : Option (Tree Widget) :=
  f.trees.findSome? (Tree.find? (isNumber n))

def widget? (f : Forest) (n : Nat) : Option Widget := (f.subtree? n).map (·.value)

def widgets (f : Forest) : List Widget := f.trees.flatMap Tree.toList

def children (f : Forest) (n : Nat) : List Nat :=
  match f.subtree? n with
  | some t => t.children.map (·.value.number)
  | none => []

def parent? (f : Forest) (n : Nat) : Option Nat :=
  (f.trees.findSome? (Tree.find? (·.children.any (isNumber n)))).map (·.value.number)

def content? (f : Forest) (n : Nat) : Option Nat := do
  let w ← f.widget? n
  if w.kind.contentModel = .single then (f.children n).head? else none

def traverse (f : Forest) (n : Nat) : List Nat :=
  match f.subtree? n with
  | some t => t.toList.map (·.number)
  | none => []

def findByStyleId? (f : Forest) (n : Nat) (id : String) : Option Nat := do
  let t ← f.subtree? n
  let found ← t.find? (·.value.styleId? == some id)
  return found.value.number

def create (f : Forest) (kind : WidgetKind) : Nat × Forest :=
  (f.count, ⟨f.trees ++ [.node { number := f.count, kind } []], f.count + 1⟩)

def modify (f : Forest) (n : Nat) (change : Tree Widget → Tree Widget) : Forest :=
  { f with trees := f.trees.map (Tree.modify (·.number == n) change) }

def update (f : Forest) (n : Nat) (change : Widget → Widget) : Forest :=
  f.modify n fun t => .node (change t.value) t.children

def tryUpdate (f : Forest) (n : Nat) (change : Widget → Except WidgetError Widget) :
    Except WidgetError Forest := do
  match f.widget? n with
  | none => throw (.invalidOperation (.noWidget n))
  | some w =>
    let changed ← change w
    return f.update n fun _ => changed

def contentIssue? (parent : WidgetKind) (children : Nat) (child : WidgetKind) :
    Option InvalidOperation :=
  match parent.contentModel with
  | .leaf => some (.noChildren parent)
  | .single =>
    if children ≠ 0 then some (.contentTaken parent)
    else if child.isPage then some (.pageInside child parent)
    else none
  | .views => if child.isPage then some (.pageInside child parent) else none
  | .pages => if child.isPage then none else some (.onlyPages parent)

def addIssue? (f : Forest) (parent child : Nat) : Option InvalidOperation :=
  match f.subtree? parent, f.subtree? child with
  | none, _ => some (.noWidget parent)
  | _, none => some (.noWidget child)
  | some p, some c =>
    match contentIssue? p.value.kind p.children.length c.value.kind with
    | some issue => some issue
    | none =>
      if (f.parent? child).isSome then some (.hasParent c.value.kind)
      else if c.toList.any (·.number == parent) then some .ownAncestor
      else none

def dropRoot (f : Forest) (n : Nat) : Forest :=
  { f with trees := f.trees.filter fun t => !isNumber n t }

def addChild (f : Forest) (parent child : Nat) : Except WidgetError Forest :=
  match f.addIssue? parent child, f.subtree? child with
  | none, some c =>
    .ok ((f.dropRoot child).modify parent fun t => .node t.value (t.children ++ [c]))
  | some issue, _ => .error (.invalidOperation issue)
  | none, none => .error (.invalidOperation (.noWidget child))

def removeChild (f : Forest) (parent child : Nat) : Bool × Forest :=
  match (f.subtree? parent).bind (·.children.find? (isNumber child)) with
  | none => (false, f)
  | some c =>
    let rest := f.modify parent fun t => .node t.value (t.children.filter (!isNumber child ·))
    (true, { rest with trees := rest.trees ++ [c] })

def setContent (f : Forest) (parent content : Nat) : Except WidgetError Forest :=
  match f.widget? parent with
  | none => .error (.invalidOperation (.noWidget parent))
  | some w =>
    if w.kind.contentModel ≠ .single then .error (.invalidOperation (.noContentSlot w.kind))
    else
      match f.content? parent with
      | none => f.addChild parent content
      | some previous =>
        if previous = content then .ok f
        else (f.removeChild parent previous).2.addChild parent content

def restyle (f : Forest) (n : Nat) (style : Tree Widget → Tree Widget × Report) : Forest × Report :=
  match f.subtree? n with
  | none => (f, {})
  | some t =>
    let (styled, report) := style t
    (f.modify n fun _ => styled, report)

def applySheet (f : Forest) (context : StyleContext) (n : Nat) (sheet : StyleSheet) :
    Forest × Report := f.restyle n (sheet.apply context)

def applyStyle (f : Forest) (context : StyleContext) (n : Nat) (style : Style) :
    Forest × Report := f.restyle n (style.apply context)

def resetStyles (f : Forest) (n : Nat) : Forest := f.modify n Tree.resetStyles

end Forest

end TreeStyle
