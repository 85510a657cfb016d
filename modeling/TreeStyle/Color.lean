/-!
This module contains colors.
-/

namespace TreeStyle

structure Color where
  r : UInt8
  g : UInt8
  b : UInt8
  alpha : Float32
  deriving DecidableEq

namespace Color

def solid (r g b : UInt8) : Color := ⟨r, g, b, 1.0⟩

def ofRgb (rgb : Nat) : Color :=
  solid (UInt8.ofNat (rgb >>> 16)) (UInt8.ofNat (rgb >>> 8)) (UInt8.ofNat rgb)

def transparent : Color := ⟨0, 0, 0, 0.0⟩

def black : Color := solid 0 0 0

def white : Color := solid 255 255 255

def red : Color := solid 255 0 0

def lime : Color := solid 0 255 0

def limeGreen : Color := solid 50 205 50

def blue : Color := solid 0 0 255

def pink : Color := solid 255 192 203

end Color

end TreeStyle
