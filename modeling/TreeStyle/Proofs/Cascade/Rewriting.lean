import TreeStyle.Proofs.Cascade.Outcome
import TreeStyle.Proofs.Lexing.LetterCase

/-!
This module contains ways to rewrite a sheet that change nothing of what it does: splitting the
block of a rule, and writing the names of types and properties in another case. The declarations
that concern an element stay the same, with the same specificity and in the same order.
-/

namespace TreeStyle

namespace StyleSheet

variable {α : Type} [Stylable α] {context : StyleContext} {sheet sheet' : StyleSheet}

theorem apply_congr
    (h : ∀ chain, sheet.candidates context.matcher chain = sheet'.candidates context.matcher chain)
    (tree : Tree α) : sheet.apply context tree = sheet'.apply context tree := by
  have hcandidates : sheet.candidates context.matcher = sheet'.candidates context.matcher :=
    funext h
  exact congrArg (Cascade.run context · tree) hcandidates

section Blocks

variable (before after : List (Rule Declaration)) (selectors : List Selector)
variable (ds es : List Declaration)

theorem candidates_append (rules rules' : List (Rule Declaration)) (m : Matcher)
    (chain : List ElementInfo)
    : (mk (rules ++ rules')).candidates m chain
        = (mk rules).candidates m chain ++ (mk rules').candidates m chain :=
  List.flatMap_append

theorem candidates_split_block (m : Matcher) (chain : List ElementInfo)
    : (mk [⟨selectors, ds ++ es⟩]).candidates m chain
        = (mk [⟨selectors, ds⟩, ⟨selectors, es⟩]).candidates m chain := by
  have hspecificity : ∀ ds es : List Declaration,
      (Rule.mk selectors ds).specificity? m chain = (Rule.mk selectors es).specificity? m chain :=
    fun _ _ => rfl
  unfold candidates
  simp only [List.flatMap_cons, List.flatMap_nil, List.append_nil]
  rw [hspecificity ds (ds ++ es), hspecificity es (ds ++ es)]
  cases (Rule.mk selectors (ds ++ es)).specificity? m chain with
  | none => rfl
  | some specificity => exact List.map_append

/--
A rule does the same as two rules with its selectors that share its declarations in their order.
-/
theorem apply_split_block (context : StyleContext) (tree : Tree α)
    : (mk (before ++ ⟨selectors, ds ++ es⟩ :: after)).apply context tree
        = (mk (before ++ ⟨selectors, ds⟩ :: ⟨selectors, es⟩ :: after)).apply context tree := by
  apply apply_congr
  intro chain
  have hwhole : before ++ ⟨selectors, ds ++ es⟩ :: after
      = before ++ ([⟨selectors, ds ++ es⟩] ++ after) := rfl
  have hparts : before ++ ⟨selectors, ds⟩ :: ⟨selectors, es⟩ :: after
      = before ++ ([⟨selectors, ds⟩, ⟨selectors, es⟩] ++ after) := rfl
  rw [hwhole, hparts, candidates_append, candidates_append, candidates_append, candidates_append,
    candidates_split_block]

end Blocks

end StyleSheet

def SimpleSelector.foldCase : SimpleSelector → SimpleSelector
  | .typeName name => .typeName (Text.asciiLower name)
  | .baseType name => .baseType (Text.asciiLower name)
  | test => test

def Compound.foldCase (compound : Compound) : Compound := compound.map (·.foldCase)

def Selector.foldCase (s : Selector) : Selector :=
  ⟨Compound.foldCase s.first, s.rest.map fun (k, compound) => (k, Compound.foldCase compound)⟩

def RawDeclaration.foldCase (d : RawDeclaration) : RawDeclaration :=
  { d with property := Text.asciiLower d.property }

def Rule.foldCase (rule : Rule RawDeclaration) : Rule RawDeclaration :=
  ⟨rule.selectors.map (·.foldCase), rule.declarations.map (·.foldCase)⟩

def RawSheet.foldCase (sheet : RawSheet) : RawSheet := sheet.map (·.foldCase)

theorem Declaration.ofRaw_foldCase (d : RawDeclaration)
    : ofRaw d.foldCase = ofRaw d := by
  unfold ofRaw RawDeclaration.foldCase
  rw [asciiLower_asciiLower]

namespace Matcher

variable {m : Matcher} (hcase : m.caseSensitiveTypes = false)
include hcase

theorem sameType_asciiLower (type name : String)
    : m.sameType type (Text.asciiLower name) = m.sameType type name := by
  unfold sameType Text.eqIgnoringCase
  rw [hcase, asciiLower_asciiLower]
  rfl

theorem matchesSimple_foldCase (info : ElementInfo) (test : SimpleSelector)
    : m.matchesSimple info test.foldCase = m.matchesSimple info test := by
  cases test with
  | universal => rfl
  | typeName name => simp only [SimpleSelector.foldCase, matchesSimple, sameType_asciiLower hcase]
  | baseType name => simp only [SimpleSelector.foldCase, matchesSimple, sameType_asciiLower hcase]
  | id name => rfl
  | className name => rfl

theorem matchesCompound_foldCase (compound : Compound) (info : ElementInfo)
    : m.matchesCompound (Compound.foldCase compound) info = m.matchesCompound compound info := by
  unfold matchesCompound Compound.foldCase
  rw [List.all_map]
  congr 1
  funext test
  exact matchesSimple_foldCase hcase info test

theorem search_foldCase (first : Compound) (before : List (Combinator × Compound))
    : m.search (Compound.foldCase first)
          (before.map fun (k, compound) => (k, Compound.foldCase compound))
        = m.search first before := by
  induction before with
  | nil =>
    funext element above
    rw [List.map_nil, search, search, matchesCompound_foldCase hcase]
  | cons step before ih =>
    rcases step with ⟨k, compound⟩
    funext element above
    rw [List.map_cons, search, search, List.length_cons, List.length_cons, List.length_map]
    dsimp only
    rw [ih, matchesCompound_foldCase hcase]

theorem selects_foldCase (s : Selector) (chain : List ElementInfo)
    : m.selects s.foldCase chain = m.selects s chain := by
  unfold selects Selector.foldCase
  dsimp only
  rw [← List.map_reverse, search_foldCase hcase]

end Matcher

theorem SimpleSelector.isId_foldCase (test : SimpleSelector) : test.foldCase.isId = test.isId := by
  cases test <;> rfl

theorem SimpleSelector.isClass_foldCase (test : SimpleSelector)
    : test.foldCase.isClass = test.isClass := by
  cases test <;> rfl

theorem SimpleSelector.isType_foldCase (test : SimpleSelector)
    : test.foldCase.isType = test.isType := by
  cases test <;> rfl

namespace Selector

theorem flatten_compounds_foldCase (s : Selector)
    : s.foldCase.compounds.flatten = s.compounds.flatten.map (·.foldCase) := by
  unfold compounds foldCase
  rw [List.map_flatten, List.map_cons, List.map_map, List.map_map]
  rfl

theorem specificity_foldCase (s : Selector) : s.foldCase.specificity = s.specificity := by
  unfold specificity
  rw [flatten_compounds_foldCase]
  simp only [List.countP_map, Function.comp_def, SimpleSelector.isId_foldCase,
    SimpleSelector.isClass_foldCase, SimpleSelector.isType_foldCase]

end Selector

theorem Rule.map_ofRaw_foldCase (rule : Rule RawDeclaration)
    : rule.foldCase.map Declaration.ofRaw
        = ⟨rule.selectors.map (·.foldCase), rule.declarations.map Declaration.ofRaw⟩ := by
  unfold Rule.map Rule.foldCase
  simp only [List.map_map, Function.comp_def, Declaration.ofRaw_foldCase]

theorem Rule.specificity?_foldCase {m : Matcher} (hcase : m.caseSensitiveTypes = false)
    (chain : List ElementInfo) (selectors : List Selector) (ds : List Declaration)
    : (Rule.mk (selectors.map (·.foldCase)) ds).specificity? m chain
        = (Rule.mk selectors ds).specificity? m chain := by
  unfold specificity?
  simp only [List.filter_map, List.map_map, Function.comp_def, Matcher.selects_foldCase hcase,
    Selector.specificity_foldCase]

namespace StyleSheet

variable {α : Type} [Stylable α] {context : StyleContext}

theorem candidates_foldCase {m : Matcher} (hcase : m.caseSensitiveTypes = false)
    (sheet : RawSheet) (chain : List ElementInfo)
    : (ofRaw sheet.foldCase).candidates m chain = (ofRaw sheet).candidates m chain := by
  unfold ofRaw RawSheet.foldCase candidates
  dsimp only
  rw [List.map_map, List.flatMap_map, List.flatMap_map]
  apply List.flatMap_congr
  intro rule _
  dsimp only [Function.comp_apply]
  rw [Rule.map_ofRaw_foldCase, Rule.specificity?_foldCase hcase]
  rfl

/--
The case of names of types and properties does not matter, unless the context tells types apart by
their case.
-/
theorem apply_eq_of_foldCase_eq (hcase : context.options.caseSensitiveTypes = false)
    {sheet sheet' : RawSheet} (h : sheet.foldCase = sheet'.foldCase) (tree : Tree α)
    : (ofRaw sheet).apply context tree = (ofRaw sheet').apply context tree := by
  have hcase : context.matcher.caseSensitiveTypes = false := hcase
  apply apply_congr
  intro chain
  rw [← candidates_foldCase hcase, h, candidates_foldCase hcase]

namespace NestedLabel

def hideLayouts : RawSheet :=
  [⟨[⟨[.baseType "layout"], [(.child, [.typeName "stacklayout"])]⟩, ⟨[.id "outer"], []⟩],
    [⟨"visibility", "hidden", false⟩]⟩,
    ⟨[⟨[.typeName "label"], []⟩], [⟨"float", "left", false⟩]⟩]

def hideLayoutsLoud : RawSheet :=
  [⟨[⟨[.baseType "Layout"], [(.child, [.typeName "STACKLAYOUT"])]⟩, ⟨[.id "outer"], []⟩],
    [⟨"Visibility", "hidden", false⟩]⟩,
    ⟨[⟨[.typeName "Label"], []⟩], [⟨"FLOAT", "left", false⟩]⟩]

end NestedLabel

open NestedLabel in
theorem apply_eq_of_foldCase_eq_nestedLabel
    : StyleContext.standard.options.caseSensitiveTypes = false ∧
        hideLayouts.foldCase = hideLayoutsLoud.foldCase ∧
        ((ofRaw hideLayouts).apply .standard widgets).2.applied = 3 ∧
        ((ofRaw hideLayouts).apply .standard widgets).2.diagnostics.length = 1 ∧
        (ofRaw hideLayouts).apply .standard widgets
          = (ofRaw hideLayoutsLoud).apply .standard widgets := by
  have hfold : hideLayouts.foldCase = hideLayoutsLoud.foldCase := by decide +kernel
  refine ⟨rfl, hfold, ?_, ?_, apply_eq_of_foldCase_eq rfl hfold widgets⟩
  . decide +kernel
  . decide +kernel

end StyleSheet

end TreeStyle
