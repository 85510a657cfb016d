import TreeStyle.Declaration
import TreeStyle.Selector

/-!
This module contains rules, style sheets and bare styles, and their written form.
-/

namespace TreeStyle

structure Rule (δ : Type) where
  selectors : List Selector
  declarations : List δ
  deriving DecidableEq, Repr

abbrev RawSheet := List (Rule RawDeclaration)

structure StyleSheet where
  rules : List (Rule Declaration)
  deriving DecidableEq, Repr

structure Style where
  declarations : List Declaration
  deriving DecidableEq, Repr

namespace Rule

variable {δ ε : Type}

def map (f : δ → ε) (rule : Rule δ) : Rule ε := ⟨rule.selectors, rule.declarations.map f⟩

def render (renderDeclaration : δ → String) (rule : Rule δ) : String :=
  Selector.renderList rule.selectors ++ " \x7b" ++
    String.join (rule.declarations.map (" " ++ renderDeclaration ·)) ++ " \x7d"

end Rule

def renderRules {δ : Type} (renderDeclaration : δ → String) (rules : List (Rule δ)) : String :=
  String.join (rules.map (·.render renderDeclaration ++ "\n"))

namespace RawSheet

def render (sheet : RawSheet) : String := renderRules RawDeclaration.render sheet

end RawSheet

namespace StyleSheet

def empty : StyleSheet := ⟨[]⟩

def ofRaw (sheet : RawSheet) : StyleSheet := ⟨sheet.map (Rule.map Declaration.ofRaw)⟩

def append (s t : StyleSheet) : StyleSheet := ⟨s.rules ++ t.rules⟩

instance : Append StyleSheet := ⟨append⟩

def render (sheet : StyleSheet) : String := renderRules Declaration.render sheet.rules

end StyleSheet

namespace Style

def ofRaw (ds : List RawDeclaration) : Style := ⟨ds.map Declaration.ofRaw⟩

def render (style : Style) : String :=
  String.intercalate " " (style.declarations.map (·.render))

end Style

end TreeStyle
