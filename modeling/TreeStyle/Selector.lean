/-!
This module contains the selectors of style rules, their specificity and their written form.
-/

namespace TreeStyle

inductive SimpleSelector where
  | universal
  | typeName (name : String)
  | baseType (name : String)
  | id (name : String)
  | className (name : String)
  deriving DecidableEq, Repr

abbrev Compound := List SimpleSelector

inductive Combinator where
  | descendant
  | child
  deriving DecidableEq, Repr

/--
Compounds in source order, each but the first with the combinator before it. The last one tests the
element itself.
-/
structure Selector where
  first : Compound
  rest : List (Combinator × Compound)
  deriving DecidableEq, Repr

structure Specificity where
  ids : Nat
  classes : Nat
  types : Nat
  deriving DecidableEq, Repr

namespace Specificity

def zero : Specificity := ⟨0, 0, 0⟩

def limit : Nat := 65535

def le (a b : Specificity) : Prop :=
  a.ids < b.ids ∨ a.ids = b.ids ∧
    (a.classes < b.classes ∨ a.classes = b.classes ∧ a.types ≤ b.types)

instance : LE Specificity := ⟨le⟩

instance (a b : Specificity) : Decidable (a ≤ b) := by
  show Decidable (le a b)
  unfold le
  infer_instance

instance : Max Specificity := maxOfLe

def render (s : Specificity) : String :=
  "(" ++ toString s.ids ++ "," ++ toString s.classes ++ "," ++ toString s.types ++ ")"

theorem le_refl (a : Specificity) : a ≤ a := by
  show le a a
  simp [le]

theorem le_trans {a b c : Specificity} (hab : a ≤ b) (hbc : b ≤ c) : a ≤ c := by
  have hab : le a b := hab
  have hbc : le b c := hbc
  show le a c
  unfold le at *
  omega

theorem le_total (a b : Specificity) : a ≤ b ∨ b ≤ a := by
  show le a b ∨ le b a
  unfold le
  omega

theorem le_antisymm {a b : Specificity} (hab : a ≤ b) (hba : b ≤ a) : a = b := by
  have hab : le a b := hab
  have hba : le b a := hba
  cases a
  cases b
  simp only [le, mk.injEq] at *
  omega

end Specificity

namespace SimpleSelector

def isId : SimpleSelector → Bool
  | .id _ => true
  | _ => false

def isClass : SimpleSelector → Bool
  | .className _ => true
  | _ => false

def isType : SimpleSelector → Bool
  | .typeName _ => true
  | .baseType _ => true
  | _ => false

def render : SimpleSelector → String
  | .universal => "*"
  | .typeName name => name
  | .baseType name => "^" ++ name
  | .id name => "#" ++ name
  | .className name => "." ++ name

end SimpleSelector

def Compound.render (compound : Compound) : String := String.join (compound.map (·.render))

def Combinator.render : Combinator → String
  | .descendant => " "
  | .child => " > "

namespace Selector

def universal : Selector := ⟨[.universal], []⟩

def compounds (s : Selector) : List Compound := s.first :: s.rest.map (·.2)

def combinators (s : Selector) : List Combinator := s.rest.map (·.1)

def specificity (s : Selector) : Specificity :=
  let tests := s.compounds.flatten
  { ids := min Specificity.limit (tests.countP (·.isId))
    classes := min Specificity.limit (tests.countP (·.isClass))
    types := min Specificity.limit (tests.countP (·.isType)) }

def render (s : Selector) : String :=
  s.first.render ++ String.join (s.rest.map fun (k, c) => k.render ++ Compound.render c)

def renderList (selectors : List Selector) : String :=
  String.intercalate ", " (selectors.map (·.render))

theorem length_combinators (s : Selector) : s.combinators.length + 1 = s.compounds.length := by
  simp [combinators, compounds]

end Selector

end TreeStyle
