import TreeStyle.Token.Lexer

/-!
This module contains the skipping of at-rules, which have no meaning here: a statement up to its
semicolon, or a block up to the brace that closes it.
-/

namespace TreeStyle.AtRule

def turn (depth : Nat) : Parser (Turn Nat Unit) := do
  skipSpace
  match ← Parser.peekChar with
  | none => if depth = 0 then return .done () else Parser.failEnd .atRuleBlock
  | some c =>
    if isQuote c then
      let _ ← readQuoted c
      return .again depth
    else
      Parser.skipChar
      if c = ';' ∧ depth = 0 then return .done ()
      else if c = '{' then return .again (depth + 1)
      else if c = '}' then
        if depth ≤ 1 then return .done () else return .again (depth - 1)
      else return .again depth

theorem turn_progress (depth : Nat) (cs : List Char) (depth' : Nat) (rest : List Char)
    (h : turn depth cs = (.ok (.again depth'), rest)) : rest.length < cs.length := by
  rcases Parser.bind_eq_ok_iff.1 h with ⟨_, mid, hskip, h⟩
  have hmid := shrinks_skipSpace.length_le hskip
  rcases Parser.bind_eq_ok_iff.1 h with ⟨next, mid', hpeek, h⟩
  simp only [Parser.peekChar, Prod.mk.injEq, Except.ok.injEq] at hpeek
  rcases hpeek with ⟨rfl, rfl⟩
  match mid with
  | [] =>
    simp only [List.head?_nil] at h
    split at h
    . simp [Parser.pure_eq_ok_iff] at h
    . exact absurd h Parser.failEnd_ne_ok
  | c :: tail =>
    simp only [List.head?_cons] at h
    split at h
    . rcases Parser.bind_eq_ok_iff.1 h with ⟨_, mid', hq, h⟩
      rcases Parser.pure_eq_ok_iff.1 h with ⟨-, rfl⟩
      have := (readQuoted_suffix_tail c (c :: tail)).length_le
      rw [hq] at this
      simp only [List.tail_cons, List.length_cons] at *
      omega
    . rcases Parser.bind_eq_ok_iff.1 h with ⟨_, mid', hskip, h⟩
      simp only [Parser.skipChar, Prod.mk.injEq, List.tail_cons, true_and] at hskip
      subst hskip
      have hrest : tail = rest := by
        repeat' split at h
        all_goals exact (Parser.pure_eq_ok_iff.1 h).2
      subst hrest
      simp only [List.length_cons] at *
      omega

def skip : Parser Unit := Parser.loop turn turn_progress 0

theorem shrinks_turn (depth : Nat) : (turn depth).Shrinks := by
  refine shrinks_skipSpace.bind fun _ => Parser.shrinks_peekChar.bind fun next => ?_
  split
  . split
    . exact Parser.shrinks_pure _
    . exact Parser.shrinks_failEnd _
  . split
    . exact (shrinks_readQuoted _).bind fun _ => Parser.shrinks_pure _
    . refine Parser.shrinks_skipChar.bind fun _ => ?_
      repeat' split
      all_goals exact Parser.shrinks_pure _

theorem shrinks_skip : skip.Shrinks := Parser.shrinks_loop shrinks_turn _

end TreeStyle.AtRule
