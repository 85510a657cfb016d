import TreeStyle.Token.Lexer

/-!
This module contains the text of declaration values. It is read piece by piece up to a semicolon or
a closing character outside of parentheses, and written with single spaces between the pieces.
-/

namespace TreeStyle

inductive Piece where
  | char (c : Char)
  | quoted (quote : Char) (text : List Char)
  deriving DecidableEq, Repr

def Piece.render : Piece → List Char
  | .char c => [c]
  | .quoted quote text =>
    quote :: (text.flatMap (fun c => if c = quote ∨ c = '\\' then ['\\', c] else [c]) ++ [quote])

namespace ValueText

def render : List (Bool × Piece) → List Char
  | [] => []
  | (_, piece) :: pieces => piece.render ++ pieces.flatMap spaced
where
  spaced : Bool × Piece → List Char
    | (true, piece) => ' ' :: piece.render
    | (false, piece) => piece.render

def depthAfter (depth : Nat) (c : Char) : Nat :=
  if c = '(' then depth + 1 else if c = ')' then depth - 1 else depth

structure State where
  depth : Nat := 0
  pieces : List (Bool × Piece) := []

def turn (terminator : Char) (s : State) : Parser (Turn State (List (Bool × Piece))) := do
  let spaced ← skipTrivia
  match ← Parser.peekChar with
  | none => return .done s.pieces.reverse
  | some c =>
    if s.depth = 0 ∧ (c = ';' ∨ c = terminator) then
      return .done s.pieces.reverse
    else if isQuote c then
      let text ← readQuoted c
      return .again { s with pieces := (spaced, .quoted c text) :: s.pieces }
    else
      Parser.skipChar
      return .again ⟨depthAfter s.depth c, (spaced, .char c) :: s.pieces⟩

theorem turn_progress (terminator : Char) (s : State) (cs : List Char) (s' : State)
    (rest : List Char) (h : turn terminator s cs = (.ok (.again s'), rest)) :
    rest.length < cs.length := by
  rcases Parser.bind_eq_ok_iff.1 h with ⟨spaced, mid, hskip, h⟩
  have hmid := shrinks_skipTrivia.length_le hskip
  rcases Parser.bind_eq_ok_iff.1 h with ⟨next, mid', hpeek, h⟩
  simp only [Parser.peekChar, Prod.mk.injEq, Except.ok.injEq] at hpeek
  rcases hpeek with ⟨rfl, rfl⟩
  match mid with
  | [] => simp [Parser.pure_eq_ok_iff] at h
  | c :: tail =>
    simp only [List.head?_cons] at h
    split at h
    . simp [Parser.pure_eq_ok_iff] at h
    . split at h
      . rcases Parser.bind_eq_ok_iff.1 h with ⟨text, mid', hq, h⟩
        rcases Parser.pure_eq_ok_iff.1 h with ⟨-, rfl⟩
        have := (readQuoted_suffix_tail c (c :: tail)).length_le
        rw [hq] at this
        simp only [List.tail_cons, List.length_cons] at *
        omega
      . rcases Parser.bind_eq_ok_iff.1 h with ⟨_, mid', hskip, h⟩
        rcases Parser.pure_eq_ok_iff.1 h with ⟨-, rfl⟩
        simp only [Parser.skipChar, Prod.mk.injEq, List.tail_cons, true_and] at hskip
        subst hskip
        simp only [List.length_cons] at *
        omega

def readPieces (terminator : Char) : Parser (List (Bool × Piece)) :=
  Parser.loop (turn terminator) (turn_progress terminator) {}

/--
Reads the text of a value up to a semicolon, `terminator` or the end. Comments are dropped, white
space between the pieces becomes one space, and quoted texts are kept.
-/
def read (terminator : Char) : Parser String := do
  return String.ofList (render (← readPieces terminator))

theorem shrinks_turn (terminator : Char) (s : State) : (turn terminator s).Shrinks := by
  refine shrinks_skipTrivia.bind fun spaced => Parser.shrinks_peekChar.bind fun next => ?_
  split
  . exact Parser.shrinks_pure _
  . split
    . exact Parser.shrinks_pure _
    . split
      . exact (shrinks_readQuoted _).bind fun _ => Parser.shrinks_pure _
      . exact Parser.shrinks_skipChar.bind fun _ => Parser.shrinks_pure _

theorem shrinks_read (terminator : Char) : (read terminator).Shrinks :=
  (Parser.shrinks_loop (shrinks_turn terminator) _).bind fun _ => Parser.shrinks_pure _

end ValueText

end TreeStyle
