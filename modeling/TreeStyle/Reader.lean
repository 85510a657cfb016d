import TreeStyle.Parser

/-!
This module contains readers: a text and a cursor in it, which goes over one character at a time and
counts lines and columns on the way. Parsers, which know nothing of places, are run by moving the
cursor over what they use.
-/

namespace TreeStyle

structure Cursor where
  index : Nat
  line : Nat
  column : Nat

structure Reader where
  text : Array Char
  cursor : Cursor

namespace Reader

variable {α : Type} {r : Reader}

def ofText (text : String) : Reader := ⟨text.toList.toArray, ⟨0, 1, 1⟩⟩

def ofBytes (bytes : ByteArray) : Except (ParseError Position) Reader :=
  match String.fromUTF8? bytes with
  | some text => .ok (ofText text)
  | none => .error .undecodable

def position (r : Reader) : Position := ⟨r.cursor.line, r.cursor.column⟩

def isAtEnd (r : Reader) : Bool := r.text.size ≤ r.cursor.index

def current? (r : Reader) : Option Char := r.text[r.cursor.index]?

def ahead? (r : Reader) (offset : Nat) : Option Char := r.text[r.cursor.index + offset]?

def advance (r : Reader) : Reader :=
  match r.current? with
  | none => r
  | some c =>
    if c = '\n' then { r with cursor := ⟨r.cursor.index + 1, r.cursor.line + 1, 1⟩ }
    else { r with cursor := ⟨r.cursor.index + 1, r.cursor.line, r.cursor.column + 1⟩ }

def advanceBy : (n : Nat) → (r : Reader) → Reader
  | 0, r => r
  | n + 1, r => advanceBy n r.advance

def rest (r : Reader) : List Char := r.text.toList.drop r.cursor.index

def moveTo (r : Reader) (rest : List Char) : Reader := r.advanceBy (r.rest.length - rest.length)

def positionOf (r : Reader) (rest : List Char) : Position := (r.moveTo rest).position

def replay (r : Reader) (outcome : Except Fault α × List Char)
    : Except (ParseError Position) α × Reader :=
  (outcome.1.mapError (.map r.positionOf), r.moveTo outcome.2)

def run (p : Parser α) (r : Reader) : Except (ParseError Position) α × Reader :=
  r.replay (p r.rest)

def complain (r : Reader) (message : String) : ParseError Position :=
  .malformed r.position (.other message)

theorem current?_eq (r : Reader) : r.current? = r.rest.head? := by
  unfold current? rest
  rw [List.head?_drop, Array.getElem?_toList]

theorem ahead?_eq (r : Reader) (offset : Nat) : r.ahead? offset = r.rest[offset]? := by
  unfold ahead? rest
  rw [List.getElem?_drop, Array.getElem?_toList]

theorem ahead?_one (r : Reader) : r.ahead? 1 = r.rest.tail.head? := by
  rw [ahead?_eq, List.head?_eq_getElem?, List.getElem?_tail]

theorem text_advance (r : Reader) : r.advance.text = r.text := by
  unfold advance
  split
  . rfl
  . split <;> rfl

theorem rest_advance (r : Reader) : r.advance.rest = r.rest.tail := by
  have hhead := r.current?_eq
  unfold advance
  split <;> rename_i h <;> rw [h] at hhead
  . rw [List.head?_eq_none_iff.1 hhead.symm]
    rfl
  . split <;> exact List.tail_drop.symm

theorem rest_eq_cons {c : Char} (h : r.current? = some c) : r.rest = c :: r.advance.rest := by
  rw [r.current?_eq, List.head?_eq_some_iff] at h
  rcases h with ⟨cs, h⟩
  rw [rest_advance, h, List.tail_cons]

theorem rest_eq_nil (h : r.current? = none) : r.rest = [] := by
  rw [r.current?_eq] at h
  exact List.head?_eq_none_iff.1 h

theorem length_rest_advance {c : Char} (h : r.current? = some c)
    : r.advance.rest.length < r.rest.length := by
  rw [rest_eq_cons h]
  exact Nat.lt_succ_self _

theorem isAtEnd_iff (r : Reader) : r.isAtEnd = true ↔ r.rest = [] := by
  unfold isAtEnd rest
  rw [List.drop_eq_nil_iff, Array.length_toList, decide_eq_true_iff]

theorem text_advanceBy (n : Nat) (r : Reader) : (r.advanceBy n).text = r.text := by
  induction n generalizing r with
  | zero => rfl
  | succ n ih => exact (ih r.advance).trans r.text_advance

theorem rest_advanceBy (n : Nat) (r : Reader) : (r.advanceBy n).rest = r.rest.drop n := by
  induction n generalizing r with
  | zero => rfl
  | succ n ih => rw [advanceBy, ih, rest_advance, ← List.drop_one, List.drop_drop, Nat.add_comm]

theorem advanceBy_add (m n : Nat) (r : Reader)
    : r.advanceBy (m + n) = (r.advanceBy m).advanceBy n := by
  induction m generalizing r with
  | zero => rw [Nat.zero_add, advanceBy]
  | succ m ih => rw [Nat.add_right_comm, advanceBy, advanceBy, ih]

theorem text_moveTo (r : Reader) (rest : List Char) : (r.moveTo rest).text = r.text :=
  text_advanceBy _ r

theorem rest_moveTo {rest : List Char} (h : rest <:+ r.rest) : (r.moveTo rest).rest = rest := by
  unfold moveTo
  rw [rest_advanceBy]
  exact (List.suffix_iff_eq_drop.1 h).symm

theorem moveTo_rest (r : Reader) : r.moveTo r.rest = r := by
  unfold moveTo
  rw [Nat.sub_self, advanceBy]

theorem moveTo_moveTo {mid rest : List Char} (hmid : mid <:+ r.rest) (hrest : rest <:+ mid)
    : (r.moveTo mid).moveTo rest = r.moveTo rest := by
  have hrest := hrest.length_le
  have hle := hmid.length_le
  show (r.moveTo mid).advanceBy ((r.moveTo mid).rest.length - rest.length) = _
  rw [rest_moveTo hmid]
  unfold moveTo
  rw [← advanceBy_add]
  congr 1
  omega

theorem advance_eq_moveTo (r : Reader) : r.advance = r.moveTo r.rest.tail := by
  cases h : r.current? with
  | none =>
    rw [rest_eq_nil h, List.tail_nil, ← rest_eq_nil h, moveTo_rest]
    unfold advance
    rw [h]
  | some c =>
    have hsub : r.advance.rest.length + 1 - r.advance.rest.length = 1 := Nat.add_sub_cancel_left ..
    unfold moveTo
    rw [← rest_advance, rest_eq_cons h, List.length_cons, hsub, advanceBy, advanceBy]

theorem moveTo_advance {rest : List Char} (h : rest <:+ r.advance.rest)
    : r.advance.moveTo rest = r.moveTo rest := by
  rw [rest_advance] at h
  rw [advance_eq_moveTo, moveTo_moveTo (List.tail_suffix _) h]

theorem replay_error (r : Reader) (place : List Char) (issue : Issue) (rest : List Char)
    : r.replay (.error (.malformed place issue), rest) =
        ((.error (.malformed (r.positionOf place) issue), r.moveTo rest) : Except _ α × Reader) :=
  rfl

theorem replay_moveTo {mid : List Char} {outcome : Except Fault α × List Char}
    (hmid : mid <:+ r.rest) (hrest : outcome.2 <:+ mid)
    (hplace : ∀ place issue, outcome.1 = .error (.malformed place issue) → place <:+ mid)
    : (r.moveTo mid).replay outcome = r.replay outcome := by
  have hmoved := moveTo_moveTo hmid hrest
  rcases outcome with ⟨(construct | ⟨place, issue⟩ | _) | a, rest⟩
  . exact Prod.ext rfl hmoved
  . have hposition : (r.moveTo mid).positionOf place = r.positionOf place :=
      congrArg position (moveTo_moveTo hmid (hplace place issue rfl))
    rw [replay_error, replay_error, hposition, hmoved]
  . exact Prod.ext rfl hmoved
  . exact Prod.ext rfl hmoved

theorem replay_self (r : Reader) (answer : Except Fault α)
    : r.replay (answer, r.rest) = (answer.mapError (.map r.positionOf), r) := by
  unfold replay
  rw [moveTo_rest]

theorem replay_malformed (r : Reader) (issue : Issue) (rest : List Char)
    : r.replay (.error (.malformed r.rest issue), rest) =
        ((.error (.malformed r.position issue), r.moveTo rest) : Except _ α × Reader) := by
  rw [replay_error, positionOf, moveTo_rest]

theorem replay_advance {outcome : Except Fault α × List Char} (hrest : outcome.2 <:+ r.advance.rest)
    (hplace : ∀ place issue,
      outcome.1 = .error (.malformed place issue) → place <:+ r.advance.rest)
    : r.advance.replay outcome = r.replay outcome := by
  rw [rest_advance] at hrest hplace
  rw [advance_eq_moveTo, replay_moveTo (List.tail_suffix _) hrest hplace]

theorem run_eq_ok_iff {p : Parser α} (hp : p.Shrinks) {r' : Reader} {a : α}
    : r.run p = (.ok a, r') ↔ p r.rest = (.ok a, r'.rest) ∧ r' = r.moveTo r'.rest := by
  have hmoved : (r.moveTo (p r.rest).2).rest = (p r.rest).2 := rest_moveTo (hp r.rest)
  unfold run replay
  rcases hrun : p r.rest with ⟨e | a', rest⟩ <;> rw [hrun] at hmoved
  . constructor
    . intro h
      cases h
    . rintro ⟨h, -⟩
      cases h
  . constructor
    . intro h
      cases h
      rw [hmoved]
      exact ⟨rfl, rfl⟩
    . rintro ⟨h, hr⟩
      cases h
      rw [hr, hmoved]
      rfl

end Reader

def Parser.run {α : Type} (p : Parser α) (text : String) : Except (ParseError Position) α :=
  ((Reader.ofText text).run p).1

theorem Parser.run_eq_ok_iff {α : Type} {p : Parser α} {text : String} {a : α} :
    p.run text = .ok a ↔ ∃ rest, p text.toList = (.ok a, rest) := by
  show ((p text.toList).1.mapError _ : Except (ParseError Position) α) = .ok a ↔ _
  rcases p text.toList with ⟨e | a', rest⟩
  . show Except.error _ = Except.ok a ↔ _
    simp
  . show Except.ok a' = Except.ok a ↔ _
    simp

theorem Parser.run_eq_ok_of_toOption {α : Type} {p : Parser α} {text : String} {a : α}
    (h : (p.run text).toOption = some a) : p.run text = .ok a := by
  cases hrun : p.run text with
  | error e => simp [hrun, Except.toOption] at h
  | ok a' =>
    rw [hrun] at h
    exact congrArg Except.ok (Option.some.inj h)

end TreeStyle
