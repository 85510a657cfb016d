import TreeStyle.Color.Notation
import TreeStyle.Value

/-!
This module contains the conversion of text into a value of a given type.
-/

namespace TreeStyle

inductive ConversionError where
  | invalidValue (text : String) (target : ValueType)
  | outOfRange (text : String) (target : ValueType)
  | unknownMember (text : String) (type : EnumType)
  deriving DecidableEq, Repr

def ConversionError.message : ConversionError → String
  | .invalidValue text target => "Invalid value '" ++ text ++ "' for " ++ target.name
  | .outOfRange text target => "Value '" ++ text ++ "' is out of range for " ++ target.name
  | .unknownMember text type => "'" ++ text ++ "' is not a member of " ++ type.name

namespace Value

def readBool? (cs : List Char) : Option Bool :=
  let word := String.ofList (cs.map Char.toLower)
  if word = "true" ∨ word = "visible" then some true
  else if word = "false" ∨ word = "hidden" then some false
  else none

def readFloat? (cs : List Char) : Option Float := do
  let number := Text.trimEnd ((Text.stripBack? ['p', 'x'] cs).getD cs)
  let x := (← Numeral.ofChars? number).toFloat
  if x.isFinite then some x else none

def readThickness? (cs : List Char) : Option Thickness := do
  match ← (Text.words cs).mapM readFloat? with
  | [all] => some (.uniform all)
  | [vertical, horizontal] => some ⟨horizontal, vertical, horizontal, vertical⟩
  | [top, horizontal, bottom] => some ⟨horizontal, top, horizontal, bottom⟩
  | [top, right, bottom, left] => some ⟨left, top, right, bottom⟩
  | _ => none

def memberKey (cs : List Char) : List Char :=
  (cs.filter fun c => c != '-' && c != '_').map Char.toLower

def unquote (cs : List Char) : List Char :=
  (within '"' <|> within '\'').getD cs
where
  within (quote : Char) : Option (List Char) :=
    Text.stripFront? [quote] cs >>= Text.stripBack? [quote]

def readTrimmed (cs : List Char) (target : ValueType) : Except ConversionError Value :=
  let text := String.ofList cs
  let orInvalid {α : Type} (wrap : α → Value) : Option α → Except ConversionError Value
    | some a => .ok (wrap a)
    | none => .error (.invalidValue text target)
  match target with
  | .bool => orInvalid .bool (readBool? cs)
  | .int =>
    match Numeral.integerOfChars? cs with
    | some n =>
      if Int32.minValue.toInt ≤ n ∧ n ≤ Int32.maxValue.toInt then .ok (.int (Int32.ofInt n))
      else if Int64.minValue.toInt ≤ n ∧ n ≤ Int64.maxValue.toInt then
        .error (.outOfRange text target)
      else .error (.invalidValue text target)
    | none => .error (.invalidValue text target)
  | .float => orInvalid .float (readFloat? cs)
  | .string => .ok (.string (String.ofList (unquote cs)))
  | .color => orInvalid .color (Color.parse? text)
  | .thickness => orInvalid .thickness (readThickness? cs)
  | .enum type =>
    match type.members.find? fun member => memberKey member.toList = memberKey cs with
    | some member => .ok (.enum ⟨type.name, member⟩)
    | none => .error (.unknownMember text type)

def ofText (text : String) (target : ValueType) : Except ConversionError Value :=
  readTrimmed (Text.trim text.toList) target

end Value

end TreeStyle
