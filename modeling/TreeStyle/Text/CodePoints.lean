/-!
This module contains the lookup of characters in tables of code points. A table is a list of
ranges or of runs, which are ranges that take only every `step`-th code point.
-/

namespace TreeStyle.Text

def inRanges (ranges : List (Nat × Nat)) (c : Char) : Bool :=
  ranges.any fun (first, last) => first ≤ c.toNat && c.toNat ≤ last

structure Run where
  first : Nat
  last : Nat
  step : Nat

def Run.contains (run : Run) (c : Char) : Bool :=
  run.first ≤ c.toNat && c.toNat ≤ run.last && (c.toNat - run.first) % run.step == 0

end TreeStyle.Text
