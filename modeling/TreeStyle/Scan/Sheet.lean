import TreeStyle.Scan.Value
import TreeStyle.Sheet.Parser

/-!
This module contains the scans of selectors, declarations, rules and sheets. They are made of the
scans of tokens and values as their parsers are made of the parsers of tokens and values.
-/

namespace TreeStyle.Scan

namespace Compound

def readType : Scan Compound := do
  match ← Token.peek with
  | .delim '*' =>
    Token.skip
    return [.universal]
  | .ident name =>
    Token.skip
    return [.typeName name]
  | .delim '^' =>
    Token.skip
    return [.baseType (← Token.readIdent .expectedBaseType)]
  | _ => return []

theorem follows_readType : Follows readType TreeStyle.Compound.readType := by
  refine Token.follows_peek.bind fun token => ?_
  split
  . exact Token.follows_skip.bind fun _ => Follows.pure _
  . exact Token.follows_skip.bind fun _ => Follows.pure _
  . exact Token.follows_skip.bind fun _ =>
      (Token.follows_readIdent _).bind fun _ => Follows.pure _
  . simpa only using Follows.pure _

def turn (tests : List SimpleSelector) : Scan (Turn (List SimpleSelector) Compound) := do
  match ← Token.peek with
  | .delim '#' =>
    Token.skip
    return .again (.id (← Token.readIdent .expectedId) :: tests)
  | .delim '.' =>
    Token.skip
    return .again (.className (← Token.readIdent .expectedClass) :: tests)
  | _ => return .done tests.reverse

theorem follows_turn (tests : List SimpleSelector)
    : Follows (turn tests) (TreeStyle.Compound.turn tests) := by
  refine Token.follows_peek.bind fun token => ?_
  split
  . exact Token.follows_skip.bind fun _ =>
      (Token.follows_readIdent _).bind fun _ => Follows.pure _
  . exact Token.follows_skip.bind fun _ =>
      (Token.follows_readIdent _).bind fun _ => Follows.pure _
  . simpa only using Follows.pure _

def read : Scan Compound := do
  let tests ← loop turn (Follows.progress follows_turn TreeStyle.Compound.turn_progress)
    (← readType).reverse
  if tests.isEmpty then
    match ← Token.peek with
    | .eof => failEnd .selector
    | _ => Scan.fail .expectedSelector
  return tests

theorem follows_read : Follows read TreeStyle.Compound.read := by
  refine follows_readType.bind fun _ => (Follows.loop follows_turn _).bind fun tests =>
    Follows.ite (Token.follows_peek.bind fun token => ?_) (Follows.pure _)
  split
  . exact (Follows.failEnd _).bind fun _ => Follows.pure _
  . simpa only using (Follows.fail _).bind fun _ => Follows.pure _

end Compound

namespace Combinator

def read? : Scan (Option Combinator) := do
  match ← Token.peek with
  | .space =>
    Token.skip
    match ← Token.peek with
    | .delim '>' =>
      Token.skip
      skipSpace
      return some .child
    | .delim ',' => return none
    | .delim '{' => return none
    | .eof => return none
    | .delim '+' => Scan.fail (.unsupportedCombinator '+')
    | .delim '~' => Scan.fail (.unsupportedCombinator '~')
    | _ => return some .descendant
  | .delim '>' =>
    Token.skip
    skipSpace
    return some .child
  | .delim '+' => Scan.fail (.unsupportedCombinator '+')
  | .delim '~' => Scan.fail (.unsupportedCombinator '~')
  | _ => return none

theorem follows_child
    : Follows (do Token.skip; skipSpace; return some Combinator.child)
        (do TreeStyle.Token.skip; TreeStyle.skipSpace; return some Combinator.child) :=
  Token.follows_skip.bind fun _ => follows_skipSpace.bind fun _ => Follows.pure _

theorem follows_read? : Follows read? TreeStyle.Combinator.read? := by
  refine Token.follows_peek.bind fun token => ?_
  split
  . refine Token.follows_skip.bind fun _ => Token.follows_peek.bind fun token => ?_
    split
    . exact follows_child
    . exact Follows.pure _
    . exact Follows.pure _
    . exact Follows.pure _
    . exact Follows.fail _
    . exact Follows.fail _
    . simpa only using Follows.pure _
  . exact follows_child
  . exact Follows.fail _
  . exact Follows.fail _
  . simpa only using Follows.pure _

end Combinator

namespace Selector

def turn (s : List (Combinator × Compound))
    : Scan (Turn (List (Combinator × Compound)) (List (Combinator × Compound))) := do
  match ← Combinator.read? with
  | none => return .done s.reverse
  | some k => return .again ((k, ← Compound.read) :: s)

theorem follows_turn (s : List (Combinator × Compound))
    : Follows (turn s) (TreeStyle.Selector.turn s) := by
  refine Combinator.follows_read?.bind fun k => ?_
  cases k with
  | none => exact Follows.pure _
  | some k => exact Compound.follows_read.bind fun _ => Follows.pure _

def read : Scan Selector := do
  let first ← Compound.read
  return ⟨first, ← loop turn (Follows.progress follows_turn TreeStyle.Selector.turn_progress) []⟩

theorem follows_read : Follows read TreeStyle.Selector.read :=
  Compound.follows_read.bind fun _ => (Follows.loop follows_turn []).bind fun _ => Follows.pure _

def listTurn (s : List Selector) : Scan (Turn (List Selector) (List Selector)) := do
  let selector ← read
  match ← Token.peek with
  | .delim ',' =>
    Token.skip
    skipSpace
    return .again (selector :: s)
  | .delim '{' => return .done (selector :: s).reverse
  | .eof => failEnd .selectorList
  | other => Scan.fail (.unexpectedInSelector other)

theorem follows_listTurn (s : List Selector)
    : Follows (listTurn s) (TreeStyle.Selector.listTurn s) := by
  refine follows_read.bind fun _ => Token.follows_peek.bind fun token => ?_
  split
  . exact Token.follows_skip.bind fun _ => follows_skipSpace.bind fun _ => Follows.pure _
  . exact Follows.pure _
  . exact Follows.failEnd _
  . simpa only using Follows.fail _

def readList : Scan (List Selector) := do
  skipSpace
  loop listTurn (Follows.progress follows_listTurn TreeStyle.Selector.listTurn_progress) []

theorem follows_readList : Follows readList TreeStyle.Selector.readList :=
  follows_skipSpace.bind fun _ => Follows.loop follows_listTurn []

end Selector

namespace RawDeclaration

def readValueOf (property : String) (terminator : Char) : Scan (Option RawDeclaration) := do
  skipSpace
  match ← Token.next with
  | .delim ':' =>
    let text ← ValueText.read terminator
    Token.skipOnly (.delim ';')
    let (value, important) := splitImportant text.toList
    return if value.isEmpty then none else some ⟨property, String.ofList value, important⟩
  | _ => Scan.fail (.expectedColon property)

theorem follows_readValueOf (property : String) (terminator : Char)
    : Follows (readValueOf property terminator)
        (TreeStyle.RawDeclaration.readValueOf property terminator) := by
  refine follows_skipSpace.bind fun _ => Token.follows_next.bind fun token => ?_
  split
  . exact (ValueText.follows_read _).bind fun _ => (Token.follows_skipOnly _).bind fun _ =>
      Follows.pure _
  . simpa only using Follows.fail _

def turn (terminator : Char) (required : Bool) (ds : List RawDeclaration)
    : Scan (Turn (List RawDeclaration) (List RawDeclaration)) := do
  skipSpace
  match ← Token.next with
  | .eof => if required then failEnd .declarationBlock else return .done ds.reverse
  | .delim c =>
    if c = terminator then return .done ds.reverse
    else if c = ';' then return .again ds
    else Scan.fail (.expectedProperty (.delim c))
  | .ident property => return .again ((← readValueOf property terminator).toList ++ ds)
  | other => Scan.fail (.expectedProperty other)

theorem follows_turn (terminator : Char) (required : Bool) (ds : List RawDeclaration)
    : Follows (turn terminator required ds)
        (TreeStyle.RawDeclaration.turn terminator required ds) := by
  refine follows_skipSpace.bind fun _ => Token.follows_next.bind fun token => ?_
  cases token with
  | eof => exact (Follows.failEnd _).ite (Follows.pure _)
  | delim c => exact (Follows.pure _).ite ((Follows.pure _).ite (Follows.fail _))
  | ident property => exact (follows_readValueOf _ _).bind fun _ => Follows.pure _
  | _ => exact Follows.fail _

def readBlock (terminator : Char) (required : Bool) : Scan (List RawDeclaration) :=
  loop (turn terminator required)
    (Follows.progress (follows_turn terminator required)
      (TreeStyle.RawDeclaration.turn_progress terminator required)) []

theorem follows_readBlock (terminator : Char) (required : Bool)
    : Follows (readBlock terminator required)
        (TreeStyle.RawDeclaration.readBlock terminator required) :=
  Follows.loop (follows_turn terminator required) []

end RawDeclaration

namespace Rule

def readRaw : Scan (Rule RawDeclaration) := do
  let selectors ← Selector.readList
  Token.skip
  return ⟨selectors, ← RawDeclaration.readBlock '}' true⟩

theorem follows_readRaw : Follows readRaw TreeStyle.Rule.readRaw :=
  Selector.follows_readList.bind fun _ => Token.follows_skip.bind fun _ =>
    (RawDeclaration.follows_readBlock _ _).bind fun _ => Follows.pure _

end Rule

namespace RawSheet

def turn (rules : RawSheet) : Scan (Turn RawSheet RawSheet) := do
  skipSpace
  match ← Token.peek with
  | .eof => return .done rules.reverse
  | .delim '@' =>
    Token.skip
    let _ ← Token.readIdent .expectedAtRuleName
    AtRule.skip
    return .again rules
  | _ => return .again ((← Rule.readRaw) :: rules)

theorem follows_turn (rules : RawSheet) : Follows (turn rules) (TreeStyle.RawSheet.turn rules) := by
  refine follows_skipSpace.bind fun _ => Token.follows_peek.bind fun token => ?_
  split
  . exact Follows.pure _
  . exact Token.follows_skip.bind fun _ => (Token.follows_readIdent _).bind fun _ =>
      AtRule.follows_skip.bind fun _ => Follows.pure _
  . simpa only using Rule.follows_readRaw.bind fun _ => Follows.pure _

def read : Scan RawSheet :=
  loop turn (Follows.progress follows_turn TreeStyle.RawSheet.turn_progress) []

theorem follows_read : Follows read TreeStyle.RawSheet.read := Follows.loop follows_turn []

end RawSheet

namespace StyleSheet

def read : Scan StyleSheet := do return .ofRaw (← RawSheet.read)

theorem follows_read : Follows read TreeStyle.StyleSheet.read :=
  RawSheet.follows_read.bind fun _ => Follows.pure _

end StyleSheet

namespace Style

def read (terminator : Char) : Scan Style := do
  return .ofRaw (← RawDeclaration.readBlock terminator false)

theorem follows_read (terminator : Char)
    : Follows (read terminator) (TreeStyle.Style.read terminator) :=
  (RawDeclaration.follows_readBlock _ _).bind fun _ => Follows.pure _

end Style

end TreeStyle.Scan
