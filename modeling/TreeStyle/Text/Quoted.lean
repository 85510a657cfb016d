import TreeStyle.Text.Printable

/-!
This module contains the quoted form in which names and tokens are shown in messages: a backslash
marks the quote, the backslash and the common controls, and what cannot be seen is shown by number.
-/

namespace TreeStyle.Text

def hexDigits (n : Nat) : List Char := Nat.toDigits 16 n

def escape (quote c : Char) : List Char :=
  if c = '\x00' then ['\\', '0']
  else if c = '\t' then ['\\', 't']
  else if c = '\r' then ['\\', 'r']
  else if c = '\n' then ['\\', 'n']
  else if c = '\\' || c = quote then ['\\', c]
  else if isPrintable c then [c]
  else '\\' :: 'u' :: '{' :: (hexDigits c.toNat ++ ['}'])

def quoted (s : String) : String :=
  String.ofList ('"' :: (s.toList.flatMap (escape '"') ++ ['"']))

def quotedChar (c : Char) : String := String.ofList ('\'' :: (escape '\'' c ++ ['\'']))

end TreeStyle.Text
