import TreeStyle.Text.Ascii
import TreeStyle.Text.LetterCase

/-!
This module contains the two spellings of a compound name: `BorderColor`, where every segment starts
with a capital, and `border-color`, where hyphens join the segments.
-/

namespace TreeStyle.Text

def continueKebab (c : Char) : List Char :=
  if isUppercase c then '-' :: lowercase c else lowercase c

def kebabChars : List Char → List Char
  | [] => []
  | c :: cs => lowercase c ++ cs.flatMap continueKebab

def capitalize : List Char → List Char
  | [] => []
  | c :: cs => uppercase c ++ cs

def pascalChars (cs : List Char) : List Char := (splitAt '-' cs).flatMap capitalize

/--
Spells `BorderColor` as `border-color`.
-/
def kebab (name : String) : String := String.ofList (kebabChars name.toList)

/--
Spells `border-color` as `BorderColor`.
-/
def pascal (name : String) : String := String.ofList (pascalChars name.toList)

end TreeStyle.Text
