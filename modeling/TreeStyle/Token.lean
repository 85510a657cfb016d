import TreeStyle.Text.Quoted

/-!
This module contains the tokens of style text and their form in messages.
-/

namespace TreeStyle

inductive Token where
  | ident (name : String)
  | number (digits : String)
  | string (text : String)
  | delim (symbol : Char)
  | space
  | eof
  deriving DecidableEq, Repr, Inhabited

def Token.describe : Token → String
  | .ident name => "Ident(" ++ Text.quoted name ++ ")"
  | .number digits => "Number(" ++ Text.quoted digits ++ ")"
  | .string text => "Str(" ++ Text.quoted text ++ ")"
  | .delim symbol => "Delim(" ++ Text.quotedChar symbol ++ ")"
  | .space => "Whitespace"
  | .eof => "Eof"

end TreeStyle
