/-!
This module contains the operations on text that know ASCII letters and digits only: folding to
lowercase, comparing without regard to case, and reading digits.
-/

namespace TreeStyle.Text

def asciiLower (s : String) : String := String.ofList (s.toList.map Char.toLower)

def eqIgnoringCase (s t : String) : Bool := asciiLower s == asciiLower t

def digit? (c : Char) : Option Nat :=
  if c.isDigit then some (c.toNat - '0'.toNat)
  else if 'a' ≤ c && c ≤ 'f' then some (c.toNat - 'a'.toNat + 10)
  else if 'A' ≤ c && c ≤ 'F' then some (c.toNat - 'A'.toNat + 10)
  else none

def natOfDigits (cs : List Char) : Nat :=
  cs.foldl (fun n c => 10 * n + (c.toNat - '0'.toNat)) 0

def stripFront? : (front cs : List Char) → Option (List Char)
  | [], cs => some cs
  | f :: front, c :: cs => if f = c then stripFront? front cs else none
  | _ :: _, [] => none

def stripBack? (back cs : List Char) : Option (List Char) :=
  (stripFront? back.reverse cs.reverse).map List.reverse

def splitAt (separator : Char) (cs : List Char) : List (List Char) :=
  let (part, parts) := cs.foldr step ([], [])
  part :: parts
where
  step (c : Char) : List Char × List (List Char) → List Char × List (List Char)
    | (part, parts) => if c = separator then ([], part :: parts) else (c :: part, parts)

@[simp]
theorem toList_asciiLower (s : String) : (asciiLower s).toList = s.toList.map Char.toLower := by
  simp [asciiLower]

theorem eqIgnoringCase_iff {s t : String} :
    eqIgnoringCase s t = true ↔ asciiLower s = asciiLower t := by
  simp [eqIgnoringCase]

theorem stripFront?_eq_some_iff {front cs rest : List Char} :
    stripFront? front cs = some rest ↔ cs = front ++ rest := by
  induction front generalizing cs with
  | nil => simp [stripFront?, eq_comm]
  | cons f front ih =>
    cases cs with
    | nil => simp [stripFront?]
    | cons c cs =>
      by_cases h : f = c
      . simp [stripFront?, h, ih]
      . simp [stripFront?, h, Ne.symm h]

theorem stripBack?_eq_some_iff {back cs rest : List Char} :
    stripBack? back cs = some rest ↔ cs = rest ++ back := by
  simp only [stripBack?, Option.map_eq_some_iff, stripFront?_eq_some_iff]
  constructor
  . rintro ⟨r, h, rfl⟩
    have := congrArg List.reverse h
    simpa using this
  . rintro rfl
    exact ⟨rest.reverse, by simp, by simp⟩

section SplitAt

variable {separator : Char} {cs part next : List Char} {parts : List (List Char)}

theorem splitAt_eq (separator : Char) (cs : List Char) :
    splitAt separator cs
      = (cs.foldr (splitAt.step separator) ([], [])).1 ::
          (cs.foldr (splitAt.step separator) ([], [])).2 := rfl

theorem splitAt_separator (separator : Char) (cs : List Char) :
    splitAt separator (separator :: cs) = [] :: splitAt separator cs := by
  rw [splitAt_eq, splitAt_eq, List.foldr_cons, splitAt.step, if_pos rfl]

theorem splitAt_cons {c : Char} (hc : c ≠ separator) (h : splitAt separator cs = part :: parts) :
    splitAt separator (c :: cs) = (c :: part) :: parts := by
  rw [splitAt_eq] at *
  rcases List.cons.inj h with ⟨rfl, rfl⟩
  rw [List.foldr_cons, splitAt.step, if_neg hc]

theorem splitAt_of_not_mem (h : separator ∉ part) : splitAt separator part = [part] := by
  induction part with
  | nil => rfl
  | cons c part ih =>
    rw [List.mem_cons, not_or] at h
    exact splitAt_cons (Ne.symm h.1) (ih h.2)

theorem splitAt_append_separator (h : separator ∉ part) (cs : List Char) :
    splitAt separator (part ++ separator :: cs) = part :: splitAt separator cs := by
  induction part with
  | nil => apply splitAt_separator
  | cons c part ih =>
    rw [List.mem_cons, not_or] at h
    exact splitAt_cons (Ne.symm h.1) (ih h.2)

theorem splitAt_eq_singleton_iff :
    splitAt separator cs = [part] ↔ cs = part ∧ separator ∉ part := by
  constructor
  . intro h
    by_cases hmem : separator ∈ cs
    . rcases List.eq_append_cons_of_mem hmem with ⟨front, rest, rfl, hfront⟩
      rw [splitAt_append_separator hfront, splitAt_eq] at h
      cases h
    . rw [splitAt_of_not_mem hmem] at h
      cases h
      exact ⟨rfl, hmem⟩
  . rintro ⟨rfl, h⟩
    exact splitAt_of_not_mem h

theorem splitAt_eq_cons_cons_iff :
    splitAt separator cs = part :: next :: parts ↔
      ∃ rest, cs = part ++ separator :: rest ∧ separator ∉ part ∧
        splitAt separator rest = next :: parts := by
  constructor
  . intro h
    by_cases hmem : separator ∈ cs
    . rcases List.eq_append_cons_of_mem hmem with ⟨front, rest, rfl, hfront⟩
      rw [splitAt_append_separator hfront] at h
      rcases List.cons.inj h with ⟨rfl, hrest⟩
      exact ⟨rest, rfl, hfront, hrest⟩
    . rw [splitAt_of_not_mem hmem] at h
      cases h
  . rintro ⟨rest, rfl, hpart, h⟩
    rw [splitAt_append_separator hpart, h]

end SplitAt

end TreeStyle.Text
