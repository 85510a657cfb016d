import TreeStyle.Json
import TreeStyle.Text.Ascii

/-!
This module contains the reading of JSON. Nothing is read that the grammar does not allow: no other
white space, no number with a needless zero in front, no control in a string, no comma too many.
-/

namespace TreeStyle.Json

def isSpace (c : Char) : Bool := c == ' ' || c == '\n' || c == '\t' || c == '\r'

def skipSpace (cs : List Char) : List Char := cs.dropWhile isSpace

def hex4? : List Char → Option (Nat × List Char)
  | a :: b :: c :: d :: cs => do
    let digits ← [a, b, c, d].mapM Text.digit?
    return (digits.foldl (16 * · + ·) 0, cs)
  | _ => none

def shortEscape? : Char → Option Char
  | '"' => some '"'
  | '\\' => some '\\'
  | '/' => some '/'
  | 'b' => some '\x08'
  | 'f' => some '\x0c'
  | 'n' => some '\n'
  | 'r' => some '\r'
  | 't' => some '\t'
  | _ => none

def lowSurrogate? : List Char → Option (Nat × List Char)
  | '\\' :: 'u' :: cs => do
    let (low, cs) ← hex4? cs
    if 0xDC00 ≤ low ∧ low < 0xE000 then some (low, cs) else none
  | _ => none

def numberedEscape? (cs : List Char) : Option (Option Char × List Char) := do
  let (n, rest) ← hex4? cs
  if 0xD800 ≤ n ∧ n < 0xDC00 then
    match lowSurrogate? rest with
    | some (low, rest) =>
      return (some (Char.ofNat (0x10000 + 0x400 * (n - 0xD800) + (low - 0xDC00))), rest)
    | none => return (none, rest)
  else if 0xDC00 ≤ n ∧ n < 0xE000 then return (none, rest)
  else return (some (Char.ofNat n), rest)

def stringBody? : (fuel : Nat) → (text : Option (List Char)) → (cs : List Char) →
    Option (Option String × List Char)
  | 0, _, _ => none
  | _, _, [] => none
  | fuel + 1, text, c :: cs =>
    if c = '"' then some (text.map (String.ofList ·.reverse), cs)
    else if c = '\\' then
      match cs with
      | 'u' :: cs => do
        let (c?, cs) ← numberedEscape? cs
        stringBody? fuel (do return (← c?) :: (← text)) cs
      | e :: cs => do
        let c ← shortEscape? e
        stringBody? fuel (text.map (c :: ·)) cs
      | [] => none
    else if c.toNat < 0x20 then none
    else stringBody? fuel (text.map (c :: ·)) cs

def string? (cs : List Char) : Option (Option String × List Char) :=
  stringBody? (cs.length + 1) (some []) cs

def digits? (cs : List Char) : Option (List Char × List Char) :=
  if cs.head?.any Char.isDigit then some (cs.takeWhile Char.isDigit, cs.dropWhile Char.isDigit)
  else none

def whole? : List Char → Option (List Char × List Char)
  | '0' :: cs => some (['0'], cs)
  | cs => digits? cs

def fraction? : List Char → Option (List Char × List Char)
  | '.' :: cs => do
    let (digits, cs) ← digits? cs
    return ('.' :: digits, cs)
  | cs => some ([], cs)

def exponent? : List Char → Option (List Char × List Char)
  | [] => some ([], [])
  | c :: cs =>
    if c = 'e' ∨ c = 'E' then do
      let (sign, cs) := match cs with
        | '+' :: cs => (['+'], cs)
        | '-' :: cs => (['-'], cs)
        | cs => ([], cs)
      let (digits, cs) ← digits? cs
      return (c :: (sign ++ digits), cs)
    else some ([], c :: cs)

def number? (cs : List Char) : Option (List Char × List Char) := do
  let (sign, cs) := match cs with
    | '-' :: cs => (['-'], cs)
    | cs => ([], cs)
  let (whole, cs) ← whole? cs
  let (fraction, cs) ← fraction? cs
  let (exponent, cs) ← exponent? cs
  return (sign ++ whole ++ fraction ++ exponent, cs)

mutual

def value? : (fuel : Nat) → (cs : List Char) → Option (Json × List Char)
  | 0, _ => none
  | fuel + 1, cs =>
    match skipSpace cs with
    | '{' :: cs =>
      match skipSpace cs with
      | '}' :: cs => some (.object [], cs)
      | cs => do
        let (members, cs) ← members? fuel [] cs
        return (.object members, cs)
    | '[' :: cs =>
      match skipSpace cs with
      | ']' :: cs => some (.array [], cs)
      | cs => do
        let (items, cs) ← items? fuel [] cs
        return (.array items, cs)
    | '"' :: cs => do
      let (text, cs) ← string? cs
      return (.string text, cs)
    | cs =>
      match Text.stripFront? "true".toList cs, Text.stripFront? "false".toList cs,
        Text.stripFront? "null".toList cs with
      | some cs, _, _ => some (.bool true, cs)
      | _, some cs, _ => some (.bool false, cs)
      | _, _, some cs => some (.null, cs)
      | none, none, none => do
        let (digits, cs) ← number? cs
        return (.number digits, cs)

def items? : (fuel : Nat) → (items : List Json) → (cs : List Char) →
    Option (List Json × List Char)
  | 0, _, _ => none
  | fuel + 1, items, cs => do
    let (item, cs) ← value? fuel cs
    match skipSpace cs with
    | ',' :: cs => items? fuel (item :: items) cs
    | ']' :: cs => return ((item :: items).reverse, cs)
    | _ => none

def members? : (fuel : Nat) → (members : List (Option String × Json)) → (cs : List Char) →
    Option (List (Option String × Json) × List Char)
  | 0, _, _ => none
  | fuel + 1, members, cs =>
    match skipSpace cs with
    | '"' :: cs => do
      let (name, cs) ← string? cs
      match skipSpace cs with
      | ':' :: cs => do
        let (item, cs) ← value? fuel cs
        match skipSpace cs with
        | ',' :: cs => members? fuel ((name, item) :: members) cs
        | '}' :: cs => return (((name, item) :: members).reverse, cs)
        | _ => none
      | _ => none
    | _ => none

end

def parse? (text : String) : Option Json := do
  let cs := text.toList
  let (value, cs) ← value? (cs.length + 1) cs
  if (skipSpace cs).isEmpty then return value else none

end TreeStyle.Json
