import TreeStyle.Widget.Forest

/-!
This module contains widgets that are linked to their parent and to their children. Each link is
kept on its own, and edits change one after the other, also where they are refused in the end. What
goes along the links goes no farther than so many steps.
-/

namespace TreeStyle

structure Cell where
  widget : Widget
  parent? : Option Nat := none
  children : List Nat := []
  deriving DecidableEq

structure Links where
  cells : List Cell := []
  deriving DecidableEq

namespace Links

variable {σ ρ : Type}

def count (l : Links) : Nat := l.cells.length

def cell? (l : Links) (n : Nat) : Option Cell := l.cells[n]?

def widget? (l : Links) (n : Nat) : Option Widget := (l.cell? n).map (·.widget)

def parent? (l : Links) (n : Nat) : Option Nat := l.cell? n >>= (·.parent?)

def children (l : Links) (n : Nat) : List Nat := (l.cell? n).elim [] (·.children)

def create (l : Links) (kind : WidgetKind) : Nat × Links :=
  (l.count, ⟨l.cells ++ [{ widget := { number := l.count, kind } }]⟩)

def modify (l : Links) (n : Nat) (change : Cell → Cell) : Links := ⟨l.cells.modify n change⟩

def update (l : Links) (n : Nat) (change : Widget → Widget) : Links :=
  l.modify n fun c => { c with widget := change c.widget }

def tryUpdate (l : Links) (n : Nat) (change : Widget → Except WidgetError Widget) :
    Except WidgetError Unit × Links :=
  match l.widget? n with
  | none => (.error (.invalidOperation (.noWidget n)), l)
  | some w =>
    match change w with
    | .error e => (.error e, l)
    | .ok changed => (.ok (), l.update n fun _ => changed)

def climbs? (l : Links) (target : Nat) : (steps n : Nat) → Option Bool
  | 0, _ => none
  | steps + 1, n =>
    if n = target then some true
    else
      match l.parent? n with
      | none => some false
      | some p => climbs? l target steps p

def attach (l : Links) (parent child : Nat) : Links :=
  (l.modify child fun c => { c with parent? := some parent }).modify parent fun c =>
    { c with children := c.children ++ [child] }

/--
Makes a widget the last child of another one. There are as many steps for the walk to the ancestors
as there are widgets, since one that goes on from there comes back to where it was.
-/
def addChild (l : Links) (parent child : Nat) : Option (Except WidgetError Unit × Links) :=
  let refuse (issue : InvalidOperation) : Option (Except WidgetError Unit × Links) :=
    some (.error (.invalidOperation issue), l)
  match l.cell? parent, l.cell? child with
  | none, _ => refuse (.noWidget parent)
  | _, none => refuse (.noWidget child)
  | some p, some c =>
    match Forest.contentIssue? p.widget.kind p.children.length c.widget.kind with
    | some issue => refuse issue
    | none =>
      if c.parent?.isSome then refuse (.hasParent c.widget.kind)
      else
        match l.climbs? child l.count parent with
        | none => none
        | some true => refuse .ownAncestor
        | some false => some (.ok (), l.attach parent child)

def removeChild (l : Links) (parent child : Nat) : Bool × Links :=
  if child ∈ l.children parent then
    (true, (l.modify parent fun c => { c with children := c.children.erase child }).modify child
      fun c => { c with parent? := none })
  else (false, l)

def setContent (l : Links) (parent content : Nat) : Option (Except WidgetError Unit × Links) :=
  match l.cell? parent with
  | none => some (.error (.invalidOperation (.noWidget parent)), l)
  | some p =>
    if p.widget.kind.contentModel ≠ .single then
      some (.error (.invalidOperation (.noContentSlot p.widget.kind)), l)
    else
      match p.children.head? with
      | none => l.addChild parent content
      | some previous =>
        if previous = content then some (.ok (), l)
        else
          match (l.removeChild parent previous).2.addChild parent content with
          | some (.error e, rest) => some (.error e, rest.attach parent previous)
          | added => added

def collect (visit : Nat → Links → Option (List ρ × Links)) :
    List ρ × Links → Nat → Option (List ρ × Links)
  | (rs, l), n => (visit n l).map fun (rs', l) => (rs ++ rs', l)

/--
Visits the widgets of a subtree, every one before its children, and collects what `f` tells of them.
What `f` passes on from a widget reaches its children. None stands for a walk that goes down farther
than so many steps.
-/
def walk? (f : σ → Widget → (Widget × ρ) × σ) :
    (steps : Nat) → σ → Nat → Links → Option (List ρ × Links)
  | 0, _, _, _ => none
  | steps + 1, s, n, l =>
    match l.widget? n with
    | none => some ([], l)
    | some w =>
      let ((w, r), s) := f s w
      let l := l.update n fun _ => w
      (l.children n).foldlM (collect fun child l => walk? f steps s child l) ([r], l)

def traverse? (l : Links) (n : Nat) : Option (List Nat) :=
  (walk? (fun _ w => ((w, w.number), ())) (l.count + 1) () n l).map (·.1)

def findByStyleId? (l : Links) (id : String) : (steps n : Nat) → Option (Option Nat)
  | 0, _ => none
  | steps + 1, n =>
    if (l.widget? n).any (·.styleId? == some id) then some (some n)
    else (l.children n).findSomeM? (findByStyleId? l id steps)

def style? (l : Links) (context : StyleContext)
    (candidates : List ElementInfo → List Candidate) (n : Nat) : Option (Report × Links) :=
  (walk? (Cascade.visit context.registry candidates) (l.count + 1) {} n l).map fun (tallies, l) =>
    (Report.ofTallies context.options.maxDiagnostics tallies, l)

def applySheet? (l : Links) (context : StyleContext) (n : Nat) (sheet : StyleSheet) :
    Option (Report × Links) :=
  l.style? context (sheet.candidates ⟨context.options.caseSensitiveTypes⟩) n

def applyStyle? (l : Links) (context : StyleContext) (n : Nat) (style : Style) :
    Option (Report × Links) := l.style? context style.candidates n

def resetStyles? (l : Links) (n : Nat) : Option Links :=
  (walk? (fun _ w => ((Stylable.clearStyles w, ()), ())) (l.count + 1) () n l).map (·.2)

end Links

end TreeStyle
