import TreeStyle.AtRule
import TreeStyle.Declaration.Parser
import TreeStyle.Selector.Parser
import TreeStyle.Sheet

/-!
This module contains the reading of style sheets: rules one after the other, with at-rules skipped.
-/

namespace TreeStyle

namespace Rule

def readRaw : Parser (Rule RawDeclaration) := do
  let selectors ← Selector.readList
  Token.skip
  return ⟨selectors, ← RawDeclaration.readBlock '}' true⟩

theorem shrinks_readRaw : readRaw.Shrinks :=
  Selector.shrinks_readList.bind fun _ => Token.shrinks_skip.bind fun _ =>
    (RawDeclaration.shrinks_readBlock _ _).bind fun _ => Parser.shrinks_pure _

theorem length_lt_of_readRaw {rule : Rule RawDeclaration} {cs rest : List Char}
    (h : readRaw cs = (.ok rule, rest)) : rest.length < cs.length := by
  rcases Parser.bind_eq_ok_iff.1 h with ⟨_, mid, hlist, h⟩
  have := Selector.shrinks_readList.length_le hlist
  rcases Parser.bind_eq_ok_iff.1 h with ⟨_, mid', hskip, h⟩
  have := Token.shrinks_skip.length_le hskip
  rcases Parser.bind_eq_ok_iff.1 h with ⟨_, mid'', hblock, h⟩
  have := RawDeclaration.length_lt_of_readBlock hblock
  rcases Parser.pure_eq_ok_iff.1 h with ⟨-, rfl⟩
  omega

end Rule

namespace RawSheet

def turn (rules : RawSheet) : Parser (Turn RawSheet RawSheet) := do
  skipSpace
  match ← Token.peek with
  | .eof => return .done rules.reverse
  | .delim '@' =>
    Token.skip
    let _ ← Token.readIdent .expectedAtRuleName
    AtRule.skip
    return .again rules
  | _ => return .again ((← Rule.readRaw) :: rules)

theorem turn_progress (rules : RawSheet) (cs : List Char) (rules' : RawSheet) (rest : List Char)
    (h : turn rules cs = (.ok (.again rules'), rest)) : rest.length < cs.length := by
  rcases Parser.bind_eq_ok_iff.1 h with ⟨_, mid, hspace, h⟩
  have := shrinks_skipSpace.length_le hspace
  rcases Parser.bind_eq_ok_iff.1 h with ⟨token, mid', hpeek, h⟩
  split at h
  . simp [Parser.pure_eq_ok_iff] at h
  . rcases Parser.bind_eq_ok_iff.1 h with ⟨_, mid'', hskip, h⟩
    have := Token.length_lt_of_skip hpeek (by simp) hskip
    rcases Parser.bind_eq_ok_iff.1 h with ⟨_, mid₃, hname, h⟩
    have := (Token.shrinks_readIdent _).length_le hname
    rcases Parser.bind_eq_ok_iff.1 h with ⟨_, mid₄, hrule, h⟩
    have := AtRule.shrinks_skip.length_le hrule
    rcases Parser.pure_eq_ok_iff.1 h with ⟨-, rfl⟩
    omega
  . have := Token.shrinks_peek.length_le hpeek
    rcases Parser.bind_eq_ok_iff.1 h with ⟨_, mid'', hrule, h⟩
    have := Rule.length_lt_of_readRaw hrule
    rcases Parser.pure_eq_ok_iff.1 h with ⟨-, rfl⟩
    omega

def read : Parser RawSheet := Parser.loop turn turn_progress []

theorem shrinks_turn (rules : RawSheet) : (turn rules).Shrinks := by
  refine shrinks_skipSpace.bind fun _ => Token.shrinks_peek.bind fun token => ?_
  split
  . exact Parser.shrinks_pure _
  . exact Token.shrinks_skip.bind fun _ => (Token.shrinks_readIdent _).bind fun _ =>
      AtRule.shrinks_skip.bind fun _ => Parser.shrinks_pure _
  . exact Rule.shrinks_readRaw.bind fun _ => Parser.shrinks_pure _

end RawSheet

namespace StyleSheet

def read : Parser StyleSheet := do return ofRaw (← RawSheet.read)

end StyleSheet

namespace Style

def read (terminator : Char) : Parser Style := do
  return ofRaw (← RawDeclaration.readBlock terminator false)

end Style

end TreeStyle
