import TreeStyle.Options
import TreeStyle.Report
import TreeStyle.Selector.Matching
import TreeStyle.Sheet
import TreeStyle.Tree

/-!
This module contains the cascade. At every element the declarations that concern it are ranked by
importance, specificity and source order, and the best usable one decides each property. Inherited
declarations come after them, those of nearer ancestors first.
-/

namespace TreeStyle

structure Candidate where
  declaration : Declaration
  specificity : Specificity
  deriving DecidableEq, Repr

namespace Candidate

def outranks (a b : Candidate) : Bool :=
  if a.declaration.important == b.declaration.important then b.specificity ≤ a.specificity
  else a.declaration.important

/--
Orders candidates that come in source order, best first. Of equals the later one is better.
-/
def rank (candidates : List Candidate) : List Declaration :=
  (candidates.reverse.mergeSort outranks).map (·.declaration)

end Candidate

def Rule.specificity? {δ : Type} (m : Matcher) (chain : List ElementInfo) (rule : Rule δ) :
    Option Specificity :=
  ((rule.selectors.filter fun s => m.selects s chain).map (·.specificity)).max?

def StyleSheet.candidates (sheet : StyleSheet) (m : Matcher) (chain : List ElementInfo) :
    List Candidate :=
  sheet.rules.flatMap fun rule =>
    match rule.specificity? m chain with
    | some specificity => rule.declarations.map (⟨·, specificity⟩)
    | none => []

/--
A bare style concerns the root and nothing below it.
-/
def Style.candidates (style : Style) : (chain : List ElementInfo) → List Candidate
  | [_] => style.declarations.map (⟨·, .zero⟩)
  | _ => []

inductive Verdict where
  | silent
  | unknown
  | sets (property : String) (value : Except ConversionError (Option Value))

namespace Cascade

variable {α : Type} [Stylable α]

def valueFor (value : PropertyValue) (property : PropertyDescriptor) :
    Except ConversionError (Option Value) :=
  match value with
  | .initial => .ok property.default?
  | .specified text => (Value.ofText text property.type).map some

def handsDown (registry : Registry) (element : α) (d : Declaration) : Bool :=
  let name := registry.classify d.property
  name.inherited?.getD ((Registry.resolveName? element name).any (·.inherited))

def directVerdict (registry : Registry) (element : α) (d : Declaration) : Verdict :=
  match Registry.resolveName? element (registry.classify d.property) with
  | some property => .sets property.name (valueFor d.value property)
  | none => if handsDown registry element d then .silent else .unknown

def inheritedVerdict (registry : Registry) (element : α) (d : Declaration) : Verdict :=
  match Registry.resolveInherited? element (registry.classify d.property) with
  | some property => .sets property.name (valueFor d.value property)
  | none => .silent

def verdicts (registry : Registry) (element : α) (direct pool : List Declaration) :
    List (Declaration × Verdict) :=
  direct.map (fun d => (d, directVerdict registry element d)) ++
    pool.map (fun d => (d, inheritedVerdict registry element d))

abbrev Decisions := List (String × Option Value)

def Decisions.decides (decided : Decisions) (property : String) : Bool :=
  decided.any (·.1 == property)

/--
Decides every property by the first usable declaration. Declarations are rejected if the element
has no such property, or if their text is no value and no better one has decided the property.
-/
def settle (name : String) (decided : Decisions) :
    List (Declaration × Verdict) → Decisions × List Diagnostic
  | [] => (decided, [])
  | (d, verdict) :: rest =>
    let reject (error : DeclarationError) : Decisions × List Diagnostic :=
      let (decided, diagnostics) := settle name decided rest
      (decided, ⟨name, d.property, d.value.text, error⟩ :: diagnostics)
    match verdict with
    | .silent => settle name decided rest
    | .unknown => reject (.propertyNotFound d.property name)
    | .sets property value =>
      if decided.decides property then settle name decided rest
      else
        match value with
        | .ok value => settle name (decided ++ [(property, value)]) rest
        | .error error => reject (.conversion error)

def write : α × Tally → String × Option Value → α × Tally
  | (element, tally), (property, value) =>
    if Stylable.origin element property = .user then
      (element, { tally with skippedUserSet := tally.skippedUserSet + 1 })
    else
      match value with
      | none =>
        (Stylable.clearStyle element property, { tally with applied := tally.applied + 1 })
      | some value =>
        match Stylable.setStyle? element property value with
        | some element => (element, { tally with applied := tally.applied + 1 })
        | none => (element, tally)

def styleElement (registry : Registry) (direct pool : List Declaration) (element : α) : α × Tally :=
  let (decided, diagnostics) :=
    settle (Stylable.describe element) [] (verdicts registry element direct pool)
  decided.foldl write (element, { visited := 1, diagnostics := diagnostics })

structure Surroundings where
  ancestors : List ElementInfo := []
  pool : List Declaration := []

/--
The declarations for the children: those handed down here take the place of all of the same name.
-/
def handDown (registry : Registry) (element : α) (direct pool : List Declaration) :
    List Declaration :=
  let handed := direct.filter (handsDown registry element)
  handed ++ pool.filter fun d => !handed.any (·.property == d.property)

def visit (registry : Registry) (candidates : List ElementInfo → List Candidate)
    (above : Surroundings) (element : α) : (α × Tally) × Surroundings :=
  let ancestors := ElementInfo.of element :: above.ancestors
  let direct := Candidate.rank (candidates ancestors.reverse)
  (styleElement registry direct above.pool element,
    ⟨ancestors, handDown registry element direct above.pool⟩)

def run (context : StyleContext) (candidates : List ElementInfo → List Candidate) (tree : Tree α) :
    Tree α × Report :=
  let styled := tree.mapDown (visit context.registry candidates) {}
  (styled.map (·.1),
    Report.ofTallies context.options.maxDiagnostics (styled.toList.map (·.2)))

theorem snd_run (context : StyleContext) (candidates : List ElementInfo → List Candidate)
    (tree : Tree α)
    : (run context candidates tree).2
        = .ofTally context.options.maxDiagnostics
            (.total ((tree.mapDown (visit context.registry candidates) {}).toList.map (·.2))) :=
  Report.ofTallies_eq _ _

end Cascade

variable {α : Type} [Stylable α]

def StyleSheet.apply (sheet : StyleSheet) (context : StyleContext) (tree : Tree α) :
    Tree α × Report :=
  Cascade.run context (sheet.candidates ⟨context.options.caseSensitiveTypes⟩) tree

def Style.apply (style : Style) (context : StyleContext) (tree : Tree α) : Tree α × Report :=
  Cascade.run context style.candidates tree

def Tree.resetStyles (tree : Tree α) : Tree α := tree.map Stylable.clearStyles

end TreeStyle
