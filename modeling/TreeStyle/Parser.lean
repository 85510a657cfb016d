import TreeStyle.ParseError

/-!
This module contains the parsers of style text. A parser takes the characters that are left and
returns its answer together with the characters it did not use, also when it fails.
-/

namespace TreeStyle

abbrev Fault := ParseError (List Char)

/--
A function from the characters that are left to an answer and the characters left after it.
-/
def Parser (α : Type) : Type := List Char → Except Fault α × List Char

inductive Turn (σ α : Type) where
  | again (state : σ)
  | done (answer : α)

namespace Parser

variable {α β σ : Type}

protected def pure (a : α) : Parser α := fun cs => (.ok a, cs)

protected def bind (p : Parser α) (f : α → Parser β) : Parser β := fun cs =>
  match p cs with
  | (.ok a, rest) => f a rest
  | (.error e, rest) => (.error e, rest)

instance : Monad Parser where
  pure := Parser.pure
  bind := Parser.bind

def fail (issue : Issue) : Parser α := fun cs => (.error (.malformed cs issue), cs)

def failEnd (construct : Construct) : Parser α := fun cs => (.error (.unexpectedEnd construct), cs)

def lookAhead (p : Parser α) : Parser α := fun cs => ((p cs).1, cs)

def peekChar : Parser (Option Char) := fun cs => (.ok cs.head?, cs)

def skipChar : Parser Unit := fun cs => (.ok (), cs.tail)

/--
Takes turns of `turn` until one of them is the last. Each of the others has to use characters.
-/
def loop (turn : σ → Parser (Turn σ α))
    (progress : ∀ s cs s' rest, turn s cs = (.ok (.again s'), rest) → rest.length < cs.length)
    (s : σ) : Parser α := fun cs =>
  match _h : turn s cs with
  | (.ok (.again s'), rest) => loop turn progress s' rest
  | (.ok (.done a), rest) => (.ok a, rest)
  | (.error e, rest) => (.error e, rest)
termination_by cs => cs.length
decreasing_by exact progress _ _ _ _ _h

theorem pure_apply (a : α) (cs : List Char) : (pure a : Parser α) cs = (.ok a, cs) := rfl

theorem bind_apply (p : Parser α) (f : α → Parser β) (cs : List Char) :
    (p >>= f) cs =
      match p cs with
      | (.ok a, rest) => f a rest
      | (.error e, rest) => (.error e, rest) := rfl

theorem pure_eq_ok_iff {a b : α} {cs rest : List Char} :
    (pure a : Parser α) cs = (.ok b, rest) ↔ a = b ∧ cs = rest := by
  simp [pure_apply]

theorem bind_eq_ok_iff {p : Parser α} {f : α → Parser β} {b : β} {cs rest : List Char} :
    (p >>= f) cs = (.ok b, rest) ↔
      ∃ a mid, p cs = (.ok a, mid) ∧ f a mid = (.ok b, rest) := by
  rw [bind_apply]
  rcases p cs with ⟨_ | a, mid⟩
  . simp
  . constructor
    . intro h
      exact ⟨a, mid, rfl, h⟩
    . rintro ⟨_, _, h, h'⟩
      cases h
      exact h'

theorem eq_ok_iff_toOption {p : Parser α} {cs rest : List Char} {a : α} :
    p cs = (.ok a, rest) ↔ (p cs).1.toOption = some a ∧ (p cs).2 = rest := by
  rcases p cs with ⟨e | b, mid⟩ <;> simp [Except.toOption]

theorem fail_ne_ok {issue : Issue} {a : α} {cs rest : List Char} :
    (fail issue : Parser α) cs ≠ (.ok a, rest) := by
  simp [fail]

theorem failEnd_ne_ok {construct : Construct} {a : α} {cs rest : List Char} :
    (failEnd construct : Parser α) cs ≠ (.ok a, rest) := by
  simp [failEnd]

theorem lookAhead_eq_ok_iff {p : Parser α} {a : α} {cs rest : List Char} :
    lookAhead p cs = (.ok a, rest) ↔ (p cs).1 = .ok a ∧ cs = rest := by
  simp [lookAhead]

/--
A parser that only ever leaves an end part of what it was given.
-/
def Shrinks (p : Parser α) : Prop := ∀ cs, (p cs).2 <:+ cs

theorem Shrinks.length_le {p : Parser α} (hp : p.Shrinks) {cs rest : List Char} {a : α}
    (h : p cs = (.ok a, rest)) : rest.length ≤ cs.length := by
  have := (hp cs).length_le
  rwa [h] at this

theorem shrinks_pure (a : α) : (pure a : Parser α).Shrinks := fun _ => List.suffix_refl _

theorem Shrinks.bind {p : Parser α} {f : α → Parser β} (hp : p.Shrinks)
    (hf : ∀ a, (f a).Shrinks) : (p >>= f).Shrinks := by
  intro cs
  rw [bind_apply]
  have hcs := hp cs
  rcases h : p cs with ⟨_ | a, mid⟩
  . rwa [h] at hcs
  . rw [h] at hcs
    exact (hf a mid).trans hcs

theorem shrinks_fail (issue : Issue) : (fail issue : Parser α).Shrinks :=
  fun _ => List.suffix_refl _

theorem shrinks_failEnd (construct : Construct) : (failEnd construct : Parser α).Shrinks :=
  fun _ => List.suffix_refl _

theorem shrinks_lookAhead (p : Parser α) : (lookAhead p).Shrinks := fun _ => List.suffix_refl _

theorem shrinks_peekChar : peekChar.Shrinks := fun _ => List.suffix_refl _

theorem shrinks_skipChar : skipChar.Shrinks := fun cs => List.tail_suffix cs

theorem shrinks_loop {turn : σ → Parser (Turn σ α)}
    {progress : ∀ s cs s' rest, turn s cs = (.ok (.again s'), rest) → rest.length < cs.length}
    (hturn : ∀ s, (turn s).Shrinks) (s : σ) : (loop turn progress s).Shrinks := by
  intro cs
  induction hn : cs.length using Nat.strongRecOn generalizing s cs with
  | _ n ih =>
    have hcs := hturn s cs
    rw [loop]
    split <;> rename_i heq <;> rw [heq] at hcs
    . exact (ih _ (hn ▸ progress _ _ _ _ heq) _ _ rfl).trans hcs
    . exact hcs
    . exact hcs

section Loop

variable {turn : σ → Parser (Turn σ α)}
variable {progress : ∀ s cs s' rest, turn s cs = (.ok (.again s'), rest) → rest.length < cs.length}

theorem loop_of_again {s s' : σ} {cs rest : List Char}
    (h : turn s cs = (.ok (.again s'), rest))
    : loop turn progress s cs = loop turn progress s' rest := by
  rw [loop]
  split <;> rename_i heq <;> rw [heq] at h <;> cases h
  rfl

theorem loop_of_done {s : σ} {a : α} {cs rest : List Char}
    (h : turn s cs = (.ok (.done a), rest))
    : loop turn progress s cs = (.ok a, rest) := by
  rw [loop]
  split <;> rename_i heq <;> rw [heq] at h <;> cases h
  rfl

theorem loop_of_error {s : σ} {e : Fault} {cs rest : List Char}
    (h : turn s cs = (.error e, rest))
    : loop turn progress s cs = (.error e, rest) := by
  rw [loop]
  split <;> rename_i heq <;> rw [heq] at h <;> cases h
  rfl

theorem loop_eq_ok_iff {s : σ} {a : α} {cs rest : List Char}
    : loop turn progress s cs = (.ok a, rest)
        ↔
      turn s cs = (.ok (.done a), rest) ∨
        ∃ s' mid, turn s cs = (.ok (.again s'), mid) ∧
          loop turn progress s' mid = (.ok a, rest) := by
  rw [loop]
  split <;> rename_i heq <;> rw [heq] <;> simp [and_assoc]

theorem loop_induction {motive : σ → List Char → α → List Char → Prop}
    (done : ∀ {s cs a rest}, turn s cs = (.ok (.done a), rest) → motive s cs a rest)
    (again : ∀ {s cs s' mid a rest}, turn s cs = (.ok (.again s'), mid) →
      motive s' mid a rest → motive s cs a rest)
    {s : σ} {a : α} {cs rest : List Char} (h : loop turn progress s cs = (.ok a, rest))
    : motive s cs a rest := by
  induction hn : cs.length using Nat.strongRecOn generalizing s cs with
  | _ n ih =>
    rcases loop_eq_ok_iff.1 h with h | ⟨s', mid, hturn, h⟩
    . exact done h
    . exact again hturn (ih _ (hn ▸ progress _ _ _ _ hturn) h rfl)

theorem length_lt_of_loop
    (hdone : ∀ s cs a rest, turn s cs = (.ok (.done a), rest) → rest.length < cs.length)
    {s : σ} {a : α} {cs rest : List Char} (h : loop turn progress s cs = (.ok a, rest)) :
    rest.length < cs.length := by
  refine loop_induction (motive := fun _ cs _ rest => rest.length < cs.length) ?_ ?_ h
  . intro s cs a rest h
    exact hdone s cs a rest h
  . intro s cs s' mid a rest hturn ih
    exact Nat.lt_trans ih (progress s cs s' mid hturn)

end Loop

end Parser

end TreeStyle
