import Mathlib.Data.List.DropRight
import Mathlib.Data.List.Infix
import TreeStyle.Scan.Sheet

/-!
This module contains the proof that a reader knows where it stands, whatever it was asked for and
whether that succeeded or failed.
-/

namespace TreeStyle

namespace Reader

variable {r : Reader}

inductive Operation where
  | next
  | peek
  | skipSpace
  | skipAtRule
  | value (terminator : Char)
  | selectors
  | declarations (terminator : Char) (required : Bool)
  | style (terminator : Char)
  | sheet
  deriving DecidableEq, Repr

namespace Operation

def Answer : Operation → Type
  | next => Token
  | peek => Token
  | skipSpace => Unit
  | skipAtRule => Unit
  | value _ => String
  | selectors => List Selector
  | declarations _ _ => List RawDeclaration
  | style _ => Style
  | sheet => StyleSheet

def scan : (operation : Operation) → Scan operation.Answer
  | next => Scan.Token.next
  | peek => Scan.Token.peek
  | skipSpace => Scan.skipSpace
  | skipAtRule => Scan.AtRule.skip
  | value terminator => Scan.ValueText.read terminator
  | selectors => Scan.Selector.readList
  | declarations terminator required => Scan.RawDeclaration.readBlock terminator required
  | style terminator => Scan.Style.read terminator
  | sheet => Scan.StyleSheet.read

def parser : (operation : Operation) → Parser operation.Answer
  | next => Token.next
  | peek => Token.peek
  | skipSpace => TreeStyle.skipSpace
  | skipAtRule => AtRule.skip
  | value terminator => ValueText.read terminator
  | selectors => Selector.readList
  | declarations terminator required => RawDeclaration.readBlock terminator required
  | style terminator => Style.read terminator
  | sheet => StyleSheet.read

theorem follows_scan (operation : Operation) : Follows operation.scan operation.parser := by
  cases operation with
  | next => exact Scan.Token.follows_next
  | peek => exact Scan.Token.follows_peek
  | skipSpace => exact Scan.follows_skipSpace
  | skipAtRule => exact Scan.AtRule.follows_skip
  | value terminator => exact Scan.ValueText.follows_read terminator
  | selectors => exact Scan.Selector.follows_readList
  | declarations terminator required =>
    exact Scan.RawDeclaration.follows_readBlock terminator required
  | style terminator => exact Scan.Style.follows_read terminator
  | sheet => exact Scan.StyleSheet.follows_read

end Operation

def perform (r : Reader) (operation : Operation) : Reader := (operation.scan r).2

def performAll (r : Reader) (operations : List Operation) : Reader := operations.foldl perform r

def used (r : Reader) : List Char := r.text.toList.take r.cursor.index

theorem used_append_rest (r : Reader) : r.used ++ r.rest = r.text.toList :=
  List.take_append_drop _ _

structure Exact (r : Reader) : Prop where
  index_eq : r.cursor.index = r.used.length
  line_eq : r.cursor.line = 1 + r.used.count '\n'
  column_eq : r.cursor.column = 1 + (r.used.rtakeWhile (· != '\n')).length

theorem exact_ofText (text : String) : (ofText text).Exact := ⟨rfl, rfl, rfl⟩

theorem advance_of_none (h : r.current? = none) : r.advance = r := by
  unfold advance
  rw [h]

theorem cursor_advance {c : Char} (h : r.current? = some c)
    : r.advance.cursor =
        if c = '\n' then ⟨r.cursor.index + 1, r.cursor.line + 1, 1⟩
        else ⟨r.cursor.index + 1, r.cursor.line, r.cursor.column + 1⟩ := by
  unfold advance
  rw [h]
  dsimp only
  split <;> rfl

theorem used_advance {c : Char} (h : r.current? = some c) : r.advance.used = r.used ++ [c] := by
  have hchar : r.text.toList[r.cursor.index]? = some c := h ▸ Array.getElem?_toList
  have hindex : r.advance.cursor.index = r.cursor.index + 1 := by
    rw [cursor_advance h]
    split <;> rfl
  unfold used
  rw [text_advance, hindex, List.take_add_one, hchar]
  rfl

theorem Exact.advance (h : r.Exact) : r.advance.Exact := by
  cases hc : r.current? with
  | none => rwa [advance_of_none hc]
  | some c =>
    have hcursor := cursor_advance hc
    split at hcursor
    . next hbreak =>
      subst hbreak
      constructor
      . simp [hcursor, used_advance hc, h.index_eq]
      . simp [hcursor, used_advance hc, h.line_eq, Nat.add_assoc]
      . simp [hcursor, used_advance hc]
    . next hbreak =>
      constructor
      . simp [hcursor, used_advance hc, h.index_eq]
      . simp [hcursor, used_advance hc, h.line_eq, hbreak]
      . simp [hcursor, used_advance hc, h.column_eq, hbreak, Nat.add_assoc]

theorem Exact.advanceBy (h : r.Exact) (n : Nat) : (r.advanceBy n).Exact := by
  induction n generalizing r with
  | zero => exact h
  | succ n ih => exact ih h.advance

theorem used_prefix_advanceBy (n : Nat) (r : Reader) : r.used <+: (r.advanceBy n).used := by
  induction n generalizing r with
  | zero => exact List.prefix_refl _
  | succ n ih =>
    refine List.IsPrefix.trans ?_ (ih r.advance)
    cases h : r.current? with
    | none =>
      rw [advance_of_none h]
    | some c =>
      rw [used_advance h]
      exact List.prefix_append _ _

theorem exists_perform_eq (r : Reader) (operation : Operation)
    : ∃ n, r.perform operation = r.advanceBy n :=
  ⟨_, congrArg Prod.snd (operation.follows_scan.run_eq r)⟩

theorem exists_performAll_eq (r : Reader) (operations : List Operation)
    : ∃ n, r.performAll operations = r.advanceBy n := by
  induction operations generalizing r with
  | nil => exact ⟨0, rfl⟩
  | cons operation operations ih =>
    rcases r.exists_perform_eq operation with ⟨m, hm⟩
    rcases ih (r.perform operation) with ⟨n, hn⟩
    refine ⟨m + n, ?_⟩
    rw [advanceBy_add, ← hm, ← hn]
    rfl

theorem perform_peek (r : Reader) : r.perform .peek = r := by
  show (Scan.Token.peek r).2 = r
  rw [Scan.Token.follows_peek.run_eq r]
  exact r.moveTo_rest

/--
After any operations, the reader has used a part at the front of the text, which only grows. Its
line, its column and whether it is at the end are those of this part, and looking ahead changes
nothing.
-/
theorem performAll_exact (text : String) (operations : List Operation)
    : let r := (ofText text).performAll operations
      r.used ++ r.rest = text.toList
        ∧ r.cursor.index = r.used.length
        ∧ r.cursor.line = 1 + r.used.count '\n'
        ∧ r.cursor.column = 1 + (r.used.rtakeWhile (· != '\n')).length
        ∧ (r.isAtEnd = true ↔ r.used = text.toList)
        ∧ r.perform .peek = r
        ∧ ∀ more, r.used <+: (r.performAll more).used := by
  intro r
  rcases (ofText text).exists_performAll_eq operations with ⟨n, hn⟩
  have hexact : r.Exact := by
    show ((ofText text).performAll operations).Exact
    rw [hn]
    exact (exact_ofText text).advanceBy n
  have happend : r.used ++ r.rest = text.toList := by
    have htext : r.text = text.toList.toArray :=
      (congrArg Reader.text hn).trans (text_advanceBy _ _)
    rw [used_append_rest, htext]
  refine ⟨happend, hexact.index_eq, hexact.line_eq, hexact.column_eq, ?_, r.perform_peek, ?_⟩
  . rw [r.isAtEnd_iff, ← happend, List.self_eq_append_right]
  . intro more
    rcases r.exists_performAll_eq more with ⟨m, hm⟩
    rw [hm]
    exact r.used_prefix_advanceBy m

end Reader

end TreeStyle
