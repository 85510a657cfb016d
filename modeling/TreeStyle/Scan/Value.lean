import TreeStyle.AtRule
import TreeStyle.Scan.Token
import TreeStyle.ValueText

/-!
This module contains the scans of the text of a value, and of an at-rule that is skipped.
-/

namespace TreeStyle.Scan

namespace ValueText

open TreeStyle.ValueText (State depthAfter render)

def turn (terminator : Char) (s : State) : Scan (Turn State (List (Bool × Piece))) := do
  let spaced ← skipTrivia
  match ← current? with
  | none => return .done s.pieces.reverse
  | some c =>
    if s.depth = 0 ∧ (c = ';' ∨ c = terminator) then
      return .done s.pieces.reverse
    else if isQuote c then
      let text ← readQuoted c
      return .again { s with pieces := (spaced, .quoted c text) :: s.pieces }
    else
      consume
      return .again ⟨depthAfter s.depth c, (spaced, .char c) :: s.pieces⟩

theorem follows_turn (terminator : Char) (s : State)
    : Follows (turn terminator s) (TreeStyle.ValueText.turn terminator s) := by
  refine follows_skipTrivia.bind fun spaced => Follows.current?.bind fun next => ?_
  cases next with
  | none => exact Follows.pure _
  | some c =>
    refine (Follows.pure _).ite (Follows.ite ?_ ?_)
    . exact (follows_readQuoted c).bind fun _ => Follows.pure _
    . exact Follows.consume.bind fun _ => Follows.pure _

def readPieces (terminator : Char) : Scan (List (Bool × Piece)) :=
  loop (turn terminator)
    (Follows.progress (follows_turn terminator) (TreeStyle.ValueText.turn_progress terminator)) {}

def read (terminator : Char) : Scan String := do
  return String.ofList (render (← readPieces terminator))

theorem follows_read (terminator : Char)
    : Follows (read terminator) (TreeStyle.ValueText.read terminator) :=
  (Follows.loop (follows_turn terminator) {}).bind fun _ => Follows.pure _

end ValueText

namespace AtRule

def turn (depth : Nat) : Scan (Turn Nat Unit) := do
  skipSpace
  match ← current? with
  | none => if depth = 0 then return .done () else failEnd .atRuleBlock
  | some c =>
    if isQuote c then
      let _ ← readQuoted c
      return .again depth
    else
      consume
      if c = ';' ∧ depth = 0 then return .done ()
      else if c = '{' then return .again (depth + 1)
      else if c = '}' then
        if depth ≤ 1 then return .done () else return .again (depth - 1)
      else return .again depth

theorem follows_turn (depth : Nat) : Follows (turn depth) (TreeStyle.AtRule.turn depth) := by
  refine follows_skipSpace.bind fun _ => Follows.current?.bind fun next => ?_
  cases next with
  | none => exact (Follows.pure _).ite (Follows.failEnd _)
  | some c =>
    refine Follows.ite ?_ (Follows.consume.bind fun _ => ?_)
    . exact (follows_readQuoted c).bind fun _ => Follows.pure _
    . refine (Follows.pure _).ite ((Follows.pure _).ite (Follows.ite ?_ (Follows.pure _)))
      exact (Follows.pure _).ite (Follows.pure _)

def skip : Scan Unit :=
  loop turn (Follows.progress follows_turn TreeStyle.AtRule.turn_progress) 0

theorem follows_skip : Follows skip TreeStyle.AtRule.skip := Follows.loop follows_turn 0

end AtRule

end TreeStyle.Scan
