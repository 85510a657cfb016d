import TreeStyle.Declaration
import TreeStyle.ValueText

/-!
This module contains the reading of declaration blocks. A block ends with its terminator, or with
the text where no terminator is required. Declarations without a value are dropped.
-/

namespace TreeStyle.RawDeclaration

def readValueOf (property : String) (terminator : Char) : Parser (Option RawDeclaration) := do
  skipSpace
  match ← Token.next with
  | .delim ':' =>
    let text ← ValueText.read terminator
    Token.skipOnly (.delim ';')
    let (value, important) := splitImportant text.toList
    return if value.isEmpty then none else some ⟨property, String.ofList value, important⟩
  | _ => Parser.fail (.expectedColon property)

def turn (terminator : Char) (required : Bool) (ds : List RawDeclaration) :
    Parser (Turn (List RawDeclaration) (List RawDeclaration)) := do
  skipSpace
  match ← Token.next with
  | .eof => if required then Parser.failEnd .declarationBlock else return .done ds.reverse
  | .delim c =>
    if c = terminator then return .done ds.reverse
    else if c = ';' then return .again ds
    else Parser.fail (.expectedProperty (.delim c))
  | .ident property => return .again ((← readValueOf property terminator).toList ++ ds)
  | other => Parser.fail (.expectedProperty other)

theorem shrinks_readValueOf (property : String) (terminator : Char) :
    (readValueOf property terminator).Shrinks := by
  refine shrinks_skipSpace.bind fun _ => Token.shrinks_next.bind fun token => ?_
  split
  . exact (ValueText.shrinks_read _).bind fun _ => (Token.shrinks_skipOnly _).bind fun _ =>
      Parser.shrinks_pure _
  . exact Parser.shrinks_fail _

theorem turn_progress (terminator : Char) (required : Bool) (ds : List RawDeclaration)
    (cs : List Char) (ds' : List RawDeclaration) (rest : List Char)
    (h : turn terminator required ds cs = (.ok (.again ds'), rest)) :
    rest.length < cs.length := by
  rcases Parser.bind_eq_ok_iff.1 h with ⟨_, mid, hspace, h⟩
  have := shrinks_skipSpace.length_le hspace
  rcases Parser.bind_eq_ok_iff.1 h with ⟨token, mid', hnext, h⟩
  split at h
  . split at h
    . exact absurd h Parser.failEnd_ne_ok
    . simp [Parser.pure_eq_ok_iff] at h
  . have := Token.length_lt_of_next hnext (by simp)
    split at h
    . simp [Parser.pure_eq_ok_iff] at h
    . split at h
      . rcases Parser.pure_eq_ok_iff.1 h with ⟨-, rfl⟩
        omega
      . exact absurd h Parser.fail_ne_ok
  . have := Token.length_lt_of_next hnext (by simp)
    rcases Parser.bind_eq_ok_iff.1 h with ⟨d, mid'', hd, h⟩
    have := (shrinks_readValueOf _ _).length_le hd
    rcases Parser.pure_eq_ok_iff.1 h with ⟨-, rfl⟩
    omega
  . exact absurd h Parser.fail_ne_ok

/--
Reads the declarations of a block and its terminator. Unless that is `required`, the block can also
end with the text.
-/
def readBlock (terminator : Char) (required : Bool) : Parser (List RawDeclaration) :=
  Parser.loop (turn terminator required) (turn_progress terminator required) []

theorem shrinks_turn (terminator : Char) (required : Bool) (ds : List RawDeclaration) :
    (turn terminator required ds).Shrinks := by
  refine shrinks_skipSpace.bind fun _ => Token.shrinks_next.bind fun token => ?_
  split
  . split
    . exact Parser.shrinks_failEnd _
    . exact Parser.shrinks_pure _
  . split
    . exact Parser.shrinks_pure _
    . split
      . exact Parser.shrinks_pure _
      . exact Parser.shrinks_fail _
  . exact (shrinks_readValueOf _ _).bind fun _ => Parser.shrinks_pure _
  . exact Parser.shrinks_fail _

theorem shrinks_readBlock (terminator : Char) (required : Bool) :
    (readBlock terminator required).Shrinks :=
  Parser.shrinks_loop (shrinks_turn terminator required) _

theorem length_lt_of_turn {terminator : Char} {ds ds' : List RawDeclaration} {cs rest : List Char}
    (h : turn terminator true ds cs = (.ok (.done ds'), rest)) : rest.length < cs.length := by
  rcases Parser.bind_eq_ok_iff.1 h with ⟨_, mid, hspace, h⟩
  have := shrinks_skipSpace.length_le hspace
  rcases Parser.bind_eq_ok_iff.1 h with ⟨token, mid', hnext, h⟩
  split at h
  . exact absurd h Parser.failEnd_ne_ok
  . have := Token.length_lt_of_next hnext (by simp)
    split at h
    . rcases Parser.pure_eq_ok_iff.1 h with ⟨-, rfl⟩
      omega
    . split at h
      . simp [Parser.pure_eq_ok_iff] at h
      . exact absurd h Parser.fail_ne_ok
  . rcases Parser.bind_eq_ok_iff.1 h with ⟨d, mid'', hd, h⟩
    simp [Parser.pure_eq_ok_iff] at h
  . exact absurd h Parser.fail_ne_ok

theorem length_lt_of_readBlock {terminator : Char} {ds : List RawDeclaration}
    {cs rest : List Char} (h : readBlock terminator true cs = (.ok ds, rest)) :
    rest.length < cs.length :=
  Parser.length_lt_of_loop (fun _ _ _ _ h => length_lt_of_turn h) h

end TreeStyle.RawDeclaration
