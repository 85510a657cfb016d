import TreeStyle.Color.Keyword
import TreeStyle.Number.Numeral
import TreeStyle.Number.Single
import TreeStyle.Text.Blank

/-!
This module contains the notations of colors: keywords, hexadecimal digits, and the functions `rgb`
and `hsl` with and without an alpha part.
-/

namespace TreeStyle.Color

def byteOfDigits (high low : Nat) : UInt8 := UInt8.ofNat (16 * high + low)

def byteOfDigit (digit : Nat) : UInt8 := UInt8.ofNat (17 * digit)

def alphaOfByte (byte : UInt8) : Float32 := byte.toFloat32 / 255.0

def ofHexDigits? : List Nat → Option Color
  | [r, g, b] => some (solid (byteOfDigit r) (byteOfDigit g) (byteOfDigit b))
  | [r, g, b, a] =>
    some ⟨byteOfDigit r, byteOfDigit g, byteOfDigit b, alphaOfByte (byteOfDigit a)⟩
  | [r, r', g, g', b, b'] =>
    some (solid (byteOfDigits r r') (byteOfDigits g g') (byteOfDigits b b'))
  | [r, r', g, g', b, b', a, a'] =>
    some ⟨byteOfDigits r r', byteOfDigits g g', byteOfDigits b b', alphaOfByte (byteOfDigits a a')⟩
  | _ => none

def ofHex? (cs : List Char) : Option Color := cs.mapM Text.digit? >>= ofHexDigits?

def arguments? (name : String) (cs : List Char) : Option (List (List Char)) := do
  let cs ← Text.stripFront? name.toList cs
  let cs ← Text.stripFront? ['('] (Text.trimStart cs)
  let cs ← Text.stripBack? [')'] cs
  return (Text.splitAt ',' cs).map Text.trim

def single? (cs : List Char) : Option Float32 := (Numeral.ofChars? cs).map Numeral.toFloat32

def percent? (cs : List Char) : Option Float32 := do
  single? (Text.trim (← Text.stripBack? ['%'] cs))

def endsInPercent (cs : List Char) : Bool := cs.getLast? == some '%'

def channel? (cs : List Char) : Option UInt8 :=
  if endsInPercent cs then
    (percent? cs).map fun p => Single.toByte (Single.clamp 0.0 100.0 p * 2.55)
  else
    (single? cs).map fun x => Single.toByte (Single.clamp 0.0 255.0 x)

def alpha? (cs : List Char) : Option Float32 :=
  if endsInPercent cs then
    (percent? cs).map fun p => Single.clamp 0.0 1.0 (p / 100.0)
  else
    (single? cs).map (Single.clamp 0.0 1.0)

def fraction? (cs : List Char) : Option Float32 :=
  (percent? cs).map fun p => Single.clamp 0.0 1.0 (p / 100.0)

def dropDegrees (cs : List Char) : List Char := (go cs.reverse).reverse
where
  go : List Char → List Char
    | 'g' :: 'e' :: 'd' :: cs => go cs
    | cs => cs

def ofHsl (hue saturation lightness alpha : Float32) : Color :=
  let hue := Single.modulo hue 360 / 360.0
  if saturation == 0.0 then
    let gray := Single.toByte (lightness * 255.0)
    ⟨gray, gray, gray, alpha⟩
  else
    let high :=
      if lightness < 0.5 then lightness * (1.0 + saturation)
      else lightness + saturation - lightness * saturation
    let low := 2.0 * lightness - high
    ⟨part low high (hue + 1.0 / 3.0), part low high hue, part low high (hue - 1.0 / 3.0), alpha⟩
where
  part (low high turn : Float32) : UInt8 :=
    let turn := Single.modulo turn 1
    let value :=
      if turn < 1.0 / 6.0 then low + (high - low) * 6.0 * turn
      else if turn < 0.5 then high
      else if turn < 2.0 / 3.0 then low + (high - low) * (2.0 / 3.0 - turn) * 6.0
      else low
    Single.toByte (value * 255.0)

def withAlpha? : List (List Char) → Option (List Char × List Char × List Char × Float32)
  | [x, y, z] => some (x, y, z, 1.0)
  | [x, y, z, a] => (alpha? a).map (x, y, z, ·)
  | _ => none

def ofRgbArguments? (arguments : List (List Char)) : Option Color := do
  let (r, g, b, alpha) ← withAlpha? arguments
  return ⟨← channel? r, ← channel? g, ← channel? b, alpha⟩

def ofHslArguments? (arguments : List (List Char)) : Option Color := do
  let (h, s, l, alpha) ← withAlpha? arguments
  return ofHsl (← single? (dropDegrees h)) (← fraction? s) (← fraction? l) alpha

def parse? (text : String) : Option Color :=
  match Text.trim text.toList with
  | '#' :: digits => ofHex? digits
  | cs =>
    let cs := cs.map Char.toLower
    match arguments? "rgba" cs <|> arguments? "rgb" cs with
    | some arguments => ofRgbArguments? arguments
    | none =>
      match arguments? "hsla" cs <|> arguments? "hsl" cs with
      | some arguments => ofHslArguments? arguments
      | none => named? (String.ofList cs)

end TreeStyle.Color
