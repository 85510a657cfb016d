import TreeStyle.Text.Quoted

/-!
This module contains JSON values and the quoting of their strings. Numbers and strings are kept as
they were written as far as that can matter to a reader of the value.
-/

namespace TreeStyle

inductive Json where
  | null
  | bool (b : Bool)
  | number (digits : List Char)
  | string (text? : Option String)
  | array (items : List Json)
  | object (members : List (Option String × Json))

namespace Json

def escape (c : Char) : List Char :=
  if c = '"' ∨ c = '\\' then ['\\', c]
  else if c = '\x08' then ['\\', 'b']
  else if c = '\x0c' then ['\\', 'f']
  else if c = '\n' then ['\\', 'n']
  else if c = '\r' then ['\\', 'r']
  else if c = '\t' then ['\\', 't']
  else if c.toNat < 0x10 then '\\' :: 'u' :: '0' :: '0' :: '0' :: Text.hexDigits c.toNat
  else if c.toNat < 0x20 then '\\' :: 'u' :: '0' :: '0' :: Text.hexDigits c.toNat
  else [c]

def quote (s : String) : String :=
  String.ofList ('"' :: (s.toList.flatMap escape ++ ['"']))

end Json

end TreeStyle
