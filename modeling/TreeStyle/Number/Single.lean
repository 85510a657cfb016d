/-!
This module contains operations on single precision floats: clamping, rounding to a byte and the
remainder of the division by a whole number, which is exact.
-/

namespace TreeStyle.Single

def clamp (low high x : Float32) : Float32 :=
  let x := if x < low then low else x
  if high < x then high else x

def toByte (x : Float32) : UInt8 :=
  let low := x.toUInt8
  if low < 255 && 0.5 ≤ x - low.toFloat32 then low + 1 else low

/--
The remainder of `x` divided by `n`, with the sign of `x`. From one on, a single precision float is
a whole multiple of `2 ^ -23`, and so is its remainder.
-/
def remainder (x : Float32) (n : Nat) : Float32 :=
  let magnitude := if x < 0.0 then -x else x
  if magnitude < Float32.ofNat n then x
  else
    let bits := x.toBits.toNat
    let exponent := (bits >>> 23) % 256
    if exponent = 255 then 0.0 / 0.0
    else
      let one := 1 <<< 23
      let units := (one + bits % one) <<< (exponent - 127)
      let rest := Float32.ofNat (units % (n * one)) / Float32.ofNat one
      if x < 0.0 then -rest else rest

def modulo (x : Float32) (n : Nat) : Float32 :=
  let rest := remainder x n
  if rest < 0.0 then rest + Float32.ofNat n else rest

end TreeStyle.Single
