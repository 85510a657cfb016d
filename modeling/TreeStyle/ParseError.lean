import TreeStyle.Token

/-!
This module contains the reasons why style text is refused, and their wording.
-/

namespace TreeStyle

inductive Construct where
  | selectorList
  | selector
  | declarationBlock
  | atRuleBlock
  deriving DecidableEq, Repr

inductive Issue where
  | unterminatedComment
  | unterminatedString
  | expectedSelector
  | expectedBaseType
  | expectedId
  | expectedClass
  | unsupportedCombinator (symbol : Char)
  | unexpectedInSelector (found : Token)
  | expectedProperty (found : Token)
  | expectedColon (property : String)
  | expectedAtRuleName
  | other (message : String)
  deriving DecidableEq, Repr

inductive ParseError (π : Type) where
  | unexpectedEnd (inside : Construct)
  | malformed (place : π) (issue : Issue)
  | undecodable
  deriving DecidableEq, Repr

structure Position where
  line : Nat
  column : Nat
  deriving DecidableEq, Repr

namespace Construct

def describe : Construct → String
  | .selectorList => "selector list"
  | .selector => "selector"
  | .declarationBlock => "declaration block"
  | .atRuleBlock => "at-rule block"

end Construct

namespace Issue

def message : Issue → String
  | .unterminatedComment => "unterminated comment"
  | .unterminatedString => "unterminated string"
  | .expectedSelector => "expected selector"
  | .expectedBaseType => "expected base type name after '^'"
  | .expectedId => "expected id after '#'"
  | .expectedClass => "expected class name after '.'"
  | .unsupportedCombinator symbol => "unsupported combinator '" ++ symbol.toString ++ "'"
  | .unexpectedInSelector found => "unexpected " ++ found.describe ++ " in selector"
  | .expectedProperty found => "expected property name, found " ++ found.describe
  | .expectedColon property => "expected ':' after '" ++ property ++ "'"
  | .expectedAtRuleName => "expected at-rule name"
  | .other message => message

end Issue

namespace ParseError

variable {π ρ : Type}

def map (f : π → ρ) : ParseError π → ParseError ρ
  | .unexpectedEnd inside => .unexpectedEnd inside
  | .malformed place issue => .malformed (f place) issue
  | .undecodable => .undecodable

def message : ParseError Position → String
  | .unexpectedEnd inside => "Unexpected end of input in " ++ inside.describe
  | .malformed place issue =>
    "Syntax error at " ++ toString place.line ++ ":" ++ toString place.column ++ ": " ++
      issue.message
  | .undecodable => "IO error: stream did not contain valid UTF-8"

end ParseError

end TreeStyle
