import TreeStyle.Selector
import TreeStyle.Token.Lexer

/-!
This module contains the reading of selector lists, up to the brace that opens the block of the
rule. White space is a combinator between two compounds and means nothing elsewhere.
-/

namespace TreeStyle

namespace Compound

def readType : Parser Compound := do
  match ← Token.peek with
  | .delim '*' =>
    Token.skip
    return [.universal]
  | .ident name =>
    Token.skip
    return [.typeName name]
  | .delim '^' =>
    Token.skip
    return [.baseType (← Token.readIdent .expectedBaseType)]
  | _ => return []

def turn (tests : List SimpleSelector) : Parser (Turn (List SimpleSelector) Compound) := do
  match ← Token.peek with
  | .delim '#' =>
    Token.skip
    return .again (.id (← Token.readIdent .expectedId) :: tests)
  | .delim '.' =>
    Token.skip
    return .again (.className (← Token.readIdent .expectedClass) :: tests)
  | _ => return .done tests.reverse

theorem turn_progress (tests : List SimpleSelector) (cs : List Char)
    (tests' : List SimpleSelector) (rest : List Char)
    (h : turn tests cs = (.ok (.again tests'), rest)) : rest.length < cs.length := by
  rcases Parser.bind_eq_ok_iff.1 h with ⟨token, mid, hpeek, h⟩
  split at h
  case h_3 => simp [Parser.pure_eq_ok_iff] at h
  all_goals
    rcases Parser.bind_eq_ok_iff.1 h with ⟨_, mid', hskip, h⟩
    rcases Parser.bind_eq_ok_iff.1 h with ⟨name, mid'', hname, h⟩
    rcases Parser.pure_eq_ok_iff.1 h with ⟨-, rfl⟩
    have := Token.length_lt_of_skip hpeek (by simp) hskip
    have := (Token.shrinks_readIdent _).length_le hname
    omega

def read : Parser Compound := do
  let tests ← Parser.loop turn turn_progress (← readType).reverse
  if tests.isEmpty then
    match ← Token.peek with
    | .eof => Parser.failEnd .selector
    | _ => Parser.fail .expectedSelector
  return tests

theorem shrinks_readType : readType.Shrinks := by
  refine Token.shrinks_peek.bind fun token => ?_
  split
  . exact Token.shrinks_skip.bind fun _ => Parser.shrinks_pure _
  . exact Token.shrinks_skip.bind fun _ => Parser.shrinks_pure _
  . exact Token.shrinks_skip.bind fun _ =>
      (Token.shrinks_readIdent _).bind fun _ => Parser.shrinks_pure _
  . exact Parser.shrinks_pure _

theorem shrinks_turn (tests : List SimpleSelector) : (turn tests).Shrinks := by
  refine Token.shrinks_peek.bind fun token => ?_
  split
  . exact Token.shrinks_skip.bind fun _ =>
      (Token.shrinks_readIdent _).bind fun _ => Parser.shrinks_pure _
  . exact Token.shrinks_skip.bind fun _ =>
      (Token.shrinks_readIdent _).bind fun _ => Parser.shrinks_pure _
  . exact Parser.shrinks_pure _

theorem shrinks_read : read.Shrinks := by
  refine shrinks_readType.bind fun _ => (Parser.shrinks_loop shrinks_turn _).bind fun tests => ?_
  split
  . refine Token.shrinks_peek.bind fun token => ?_
    split
    . exact (Parser.shrinks_failEnd _).bind fun _ => Parser.shrinks_pure _
    . exact (Parser.shrinks_fail _).bind fun _ => Parser.shrinks_pure _
  . exact Parser.shrinks_pure _

end Compound

namespace Combinator

def read? : Parser (Option Combinator) := do
  match ← Token.peek with
  | .space =>
    Token.skip
    match ← Token.peek with
    | .delim '>' =>
      Token.skip
      skipSpace
      return some .child
    | .delim ',' => return none
    | .delim '{' => return none
    | .eof => return none
    | .delim '+' => Parser.fail (.unsupportedCombinator '+')
    | .delim '~' => Parser.fail (.unsupportedCombinator '~')
    | _ => return some .descendant
  | .delim '>' =>
    Token.skip
    skipSpace
    return some .child
  | .delim '+' => Parser.fail (.unsupportedCombinator '+')
  | .delim '~' => Parser.fail (.unsupportedCombinator '~')
  | _ => return none

theorem shrinks_read? : read?.Shrinks := by
  have hchild : (do Token.skip; skipSpace; return some Combinator.child : Parser _).Shrinks :=
    Token.shrinks_skip.bind fun _ => shrinks_skipSpace.bind fun _ => Parser.shrinks_pure _
  refine Token.shrinks_peek.bind fun token => ?_
  split
  . refine Token.shrinks_skip.bind fun _ => Token.shrinks_peek.bind fun token => ?_
    split
    . exact hchild
    . exact Parser.shrinks_pure _
    . exact Parser.shrinks_pure _
    . exact Parser.shrinks_pure _
    . exact Parser.shrinks_fail _
    . exact Parser.shrinks_fail _
    . exact Parser.shrinks_pure _
  . exact hchild
  . exact Parser.shrinks_fail _
  . exact Parser.shrinks_fail _
  . exact Parser.shrinks_pure _

theorem length_lt_of_read? {k : Combinator} {cs rest : List Char}
    (h : read? cs = (.ok (some k), rest)) : rest.length < cs.length := by
  rcases Parser.bind_eq_ok_iff.1 h with ⟨token, mid, hpeek, h⟩
  have hchild : ∀ {mid' : List Char},
      (do Token.skip; skipSpace; return some Combinator.child : Parser _) mid' =
        (.ok (some k), rest) → rest.length ≤ mid'.length := fun h =>
    (Token.shrinks_skip.bind fun _ => shrinks_skipSpace.bind fun _ =>
      Parser.shrinks_pure _).length_le h
  split at h
  . rcases Parser.bind_eq_ok_iff.1 h with ⟨_, mid', hskip, h⟩
    have := Token.length_lt_of_skip hpeek (by simp) hskip
    rcases Parser.bind_eq_ok_iff.1 h with ⟨token, mid'', hpeek', h⟩
    have := Token.shrinks_peek.length_le hpeek'
    split at h
    . have := hchild h
      omega
    . simp [Parser.pure_eq_ok_iff] at h
    . simp [Parser.pure_eq_ok_iff] at h
    . simp [Parser.pure_eq_ok_iff] at h
    . exact absurd h Parser.fail_ne_ok
    . exact absurd h Parser.fail_ne_ok
    . rcases Parser.pure_eq_ok_iff.1 h with ⟨-, rfl⟩
      omega
  . rcases Parser.bind_eq_ok_iff.1 h with ⟨_, mid', hskip, h⟩
    have := Token.length_lt_of_skip hpeek (by simp) hskip
    rcases Parser.bind_eq_ok_iff.1 h with ⟨_, mid'', hspace, h⟩
    have := shrinks_skipSpace.length_le hspace
    rcases Parser.pure_eq_ok_iff.1 h with ⟨-, rfl⟩
    omega
  . exact absurd h Parser.fail_ne_ok
  . exact absurd h Parser.fail_ne_ok
  . simp [Parser.pure_eq_ok_iff] at h

end Combinator

namespace Selector

def turn (s : List (Combinator × Compound)) :
    Parser (Turn (List (Combinator × Compound)) (List (Combinator × Compound))) := do
  match ← Combinator.read? with
  | none => return .done s.reverse
  | some k => return .again ((k, ← Compound.read) :: s)

theorem turn_progress (s : List (Combinator × Compound)) (cs : List Char)
    (s' : List (Combinator × Compound)) (rest : List Char)
    (h : turn s cs = (.ok (.again s'), rest)) : rest.length < cs.length := by
  rcases Parser.bind_eq_ok_iff.1 h with ⟨k, mid, hk, h⟩
  cases k with
  | none => simp [Parser.pure_eq_ok_iff] at h
  | some k =>
    rcases Parser.bind_eq_ok_iff.1 h with ⟨c, mid', hc, h⟩
    rcases Parser.pure_eq_ok_iff.1 h with ⟨-, rfl⟩
    have := Combinator.length_lt_of_read? hk
    have := Compound.shrinks_read.length_le hc
    omega

def read : Parser Selector := do
  let first ← Compound.read
  return ⟨first, ← Parser.loop turn turn_progress []⟩

theorem shrinks_turn (s : List (Combinator × Compound)) : (turn s).Shrinks := by
  refine Combinator.shrinks_read?.bind fun k => ?_
  cases k with
  | none => exact Parser.shrinks_pure _
  | some k => exact Compound.shrinks_read.bind fun _ => Parser.shrinks_pure _

theorem shrinks_read : read.Shrinks :=
  Compound.shrinks_read.bind fun _ =>
    (Parser.shrinks_loop shrinks_turn _).bind fun _ => Parser.shrinks_pure _

def listTurn (s : List Selector) : Parser (Turn (List Selector) (List Selector)) := do
  let selector ← read
  match ← Token.peek with
  | .delim ',' =>
    Token.skip
    skipSpace
    return .again (selector :: s)
  | .delim '{' => return .done (selector :: s).reverse
  | .eof => Parser.failEnd .selectorList
  | other => Parser.fail (.unexpectedInSelector other)

theorem listTurn_progress (s : List Selector) (cs : List Char) (s' : List Selector)
    (rest : List Char) (h : listTurn s cs = (.ok (.again s'), rest)) : rest.length < cs.length := by
  rcases Parser.bind_eq_ok_iff.1 h with ⟨selector, mid, hread, h⟩
  have := shrinks_read.length_le hread
  rcases Parser.bind_eq_ok_iff.1 h with ⟨token, mid', hpeek, h⟩
  split at h
  . rcases Parser.bind_eq_ok_iff.1 h with ⟨_, mid'', hskip, h⟩
    have := Token.length_lt_of_skip hpeek (by simp) hskip
    rcases Parser.bind_eq_ok_iff.1 h with ⟨_, mid''', hspace, h⟩
    have := shrinks_skipSpace.length_le hspace
    rcases Parser.pure_eq_ok_iff.1 h with ⟨-, rfl⟩
    omega
  . simp [Parser.pure_eq_ok_iff] at h
  . exact absurd h Parser.failEnd_ne_ok
  . exact absurd h Parser.fail_ne_ok

def readList : Parser (List Selector) := do
  skipSpace
  Parser.loop listTurn listTurn_progress []

theorem shrinks_listTurn (s : List Selector) : (listTurn s).Shrinks := by
  refine shrinks_read.bind fun _ => Token.shrinks_peek.bind fun token => ?_
  split
  . exact Token.shrinks_skip.bind fun _ => shrinks_skipSpace.bind fun _ => Parser.shrinks_pure _
  . exact Parser.shrinks_pure _
  . exact Parser.shrinks_failEnd _
  . exact Parser.shrinks_fail _

theorem shrinks_readList : readList.Shrinks :=
  shrinks_skipSpace.bind fun _ => Parser.shrinks_loop shrinks_listTurn _

end Selector

end TreeStyle
