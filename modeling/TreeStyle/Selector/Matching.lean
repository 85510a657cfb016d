import TreeStyle.Element
import TreeStyle.Selector
import TreeStyle.Text.Ascii

/-!
This module contains the matching of selectors. The compounds are tried from the last to the first,
each one at the elements that its combinator allows, and attempts that have failed are remembered.
-/

namespace TreeStyle

structure ElementInfo where
  types : List String
  id? : Option String
  classes : List String
  deriving DecidableEq, Repr

def ElementInfo.of {α : Type} [Stylable α] (element : α) : ElementInfo :=
  ⟨Stylable.typeNames element, Stylable.styleId? element, Stylable.classes element⟩

structure Matcher where
  caseSensitiveTypes : Bool
  deriving DecidableEq, Repr

namespace Matcher

def sameType (m : Matcher) (type name : String) : Bool :=
  if m.caseSensitiveTypes then type == name else Text.eqIgnoringCase type name

def matchesSimple (m : Matcher) (info : ElementInfo) : SimpleSelector → Bool
  | .universal => true
  | .typeName name => info.types.head?.any (m.sameType · name)
  | .baseType name => info.types.any (m.sameType · name)
  | .id name => info.id? == some name
  | .className name => info.classes.contains name

def matchesCompound (m : Matcher) (compound : Compound) (info : ElementInfo) : Bool :=
  compound.all (m.matchesSimple info)

/--
The attempts that have failed: the number of compounds before the one that was tried, and the number
of ancestors of the element at which it was tried.
-/
abbrev Failures := List (Nat × Nat)

abbrev Attempt := Failures → Bool × Failures

def Attempt.remember (key : Nat × Nat) (attempt : Attempt) : Attempt := fun failed =>
  if failed.contains key then (false, failed)
  else
    match attempt failed with
    | (true, failed) => (true, failed)
    | (false, failed) => (false, key :: failed)

def anyAncestor (attempt : ElementInfo → List ElementInfo → Attempt) : List ElementInfo → Attempt
  | [], failed => (false, failed)
  | ancestor :: above, failed =>
    match attempt ancestor above failed with
    | (true, failed) => (true, failed)
    | (false, failed) => anyAncestor attempt above failed

/--
Whether the compounds `first` and `before`, the nearest of which is the first one of the list, can
stand at an element and at some of its ancestors, the nearest of which is the first one of the list.
-/
def search (m : Matcher) (first : Compound) (before : List (Combinator × Compound))
    (element : ElementInfo) (above : List ElementInfo) : Attempt :=
  Attempt.remember (before.length, above.length) fun failed =>
    match before with
    | [] => (m.matchesCompound first element, failed)
    | (k, c) :: before =>
      if m.matchesCompound c element then
        match k with
        | .child =>
          match above with
          | [] => (false, failed)
          | parent :: above => m.search first before parent above failed
        | .descendant => anyAncestor (m.search first before) above failed
      else (false, failed)

def selects (m : Matcher) (s : Selector) (chain : List ElementInfo) : Bool :=
  match chain.reverse with
  | [] => false
  | element :: above => (m.search s.first s.rest.reverse element above []).1

end Matcher

end TreeStyle
