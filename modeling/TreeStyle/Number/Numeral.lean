import TreeStyle.Text.Ascii

/-!
This module contains the reading of numbers with a fraction and an exponent. The digits are kept as
whole numbers, so that turning them into a float rounds only once.
-/

namespace TreeStyle

inductive Numeral where
  | nan
  | infinite (negative : Bool)
  | decimal (negative : Bool) (digits : Nat) (exponent : Int)
  deriving DecidableEq, Repr

namespace Numeral

def splitSign : List Char → Bool × List Char
  | '-' :: cs => (true, cs)
  | '+' :: cs => (false, cs)
  | cs => (false, cs)

def isWhole (cs : List Char) : Bool := !cs.isEmpty && cs.all Char.isDigit

def wholeOfChars? (cs : List Char) : Option Nat :=
  if isWhole cs then some (Text.natOfDigits cs) else none

def integerOfChars? (cs : List Char) : Option Int :=
  let (negative, cs) := splitSign cs
  (wholeOfChars? cs).map fun n => if negative then -(n : Int) else n

/--
The number that the digits of an exponent denote. No more of them count once the number has reached
65536, which is beyond the range of every float.
-/
def natOfExponent (cs : List Char) : Nat :=
  cs.foldl (fun n c => if n < 65536 then 10 * n + (c.toNat - '0'.toNat) else n) 0

def exponentOfChars? : List Char → Option Int
  | [] => some 0
  | c :: cs =>
    let (negative, digits) := splitSign cs
    if (c = 'e' ∨ c = 'E') ∧ isWhole digits then
      some (if negative then -(natOfExponent digits : Int) else natOfExponent digits)
    else none

def decimalOfChars? (negative : Bool) (cs : List Char) : Option Numeral :=
  let whole := cs.takeWhile Char.isDigit
  let rest := cs.dropWhile Char.isDigit
  let (fraction, rest) :=
    match rest with
    | '.' :: rest => (rest.takeWhile Char.isDigit, rest.dropWhile Char.isDigit)
    | rest => ([], rest)
  if whole.isEmpty && fraction.isEmpty then none
  else (exponentOfChars? rest).map fun exponent =>
    .decimal negative (Text.natOfDigits (whole ++ fraction)) (exponent - fraction.length)

def ofChars? (cs : List Char) : Option Numeral :=
  let (negative, cs) := splitSign cs
  let word := String.ofList (cs.map Char.toLower)
  if word = "nan" then some .nan
  else if word = "inf" ∨ word = "infinity" then some (.infinite negative)
  else decimalOfChars? negative cs

def toFloat : Numeral → Float
  | .nan => 0.0 / 0.0
  | .infinite negative => if negative then -1.0 / 0.0 else 1.0 / 0.0
  | .decimal negative digits exponent =>
    let x := Float.ofScientific digits (exponent < 0) exponent.natAbs
    if negative then -x else x

def toFloat32 : Numeral → Float32
  | .nan => 0.0 / 0.0
  | .infinite negative => if negative then -1.0 / 0.0 else 1.0 / 0.0
  | .decimal negative digits exponent =>
    let x := Float32.ofScientific digits (exponent < 0) exponent.natAbs
    if negative then -x else x

end Numeral

end TreeStyle
