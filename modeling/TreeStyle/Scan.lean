import TreeStyle.Reader

/-!
This module contains scans, which read style text with a cursor. `Follows` says that a scan does to
a reader what a parser does to the characters that are left of it.
-/

namespace TreeStyle

def Scan (α : Type) : Type := Reader → Except (ParseError Position) α × Reader

namespace Scan

variable {α β σ : Type}

protected def pure (a : α) : Scan α := fun r => (.ok a, r)

protected def bind (c : Scan α) (f : α → Scan β) : Scan β := fun r =>
  match c r with
  | (.ok a, r') => f a r'
  | (.error e, r') => (.error e, r')

instance : Monad Scan where
  pure := Scan.pure
  bind := Scan.bind

def fail (issue : Issue) : Scan α := fun r => (.error (.malformed r.position issue), r)

def failEnd (construct : Construct) : Scan α := fun r => (.error (.unexpectedEnd construct), r)

def current? : Scan (Option Char) := fun r => (.ok r.current?, r)

def ahead? (offset : Nat) : Scan (Option Char) := fun r => (.ok (r.ahead? offset), r)

def consume : Scan Unit := fun r => (.ok (), r.advance)

/--
The answer of `c`, after which the cursor is put back to where it was.
-/
def lookAhead (c : Scan α) : Scan α := fun r =>
  let (answer, r') := c r
  (answer, { r' with cursor := r.cursor })

def loop (turn : σ → Scan (Turn σ α))
    (progress : ∀ s r s' r', turn s r = (.ok (.again s'), r') → r'.rest.length < r.rest.length)
    (s : σ) : Scan α := fun r =>
  match _h : turn s r with
  | (.ok (.again s'), r') => loop turn progress s' r'
  | (.ok (.done a), r') => (.ok a, r')
  | (.error e, r') => (.error e, r')
termination_by r => r.rest.length
decreasing_by exact progress _ _ _ _ _h

theorem bind_apply (c : Scan α) (f : α → Scan β) (r : Reader) :
    (c >>= f) r =
      match c r with
      | (.ok a, r') => f a r'
      | (.error e, r') => (.error e, r') := rfl

theorem loop_apply {turn : σ → Scan (Turn σ α)}
    {progress : ∀ s r s' r', turn s r = (.ok (.again s'), r') → r'.rest.length < r.rest.length}
    (s : σ) (r : Reader) :
    loop turn progress s r =
      match turn s r with
      | (.ok (.again s'), r') => loop turn progress s' r'
      | (.ok (.done a), r') => (.ok a, r')
      | (.error e, r') => (.error e, r') := by
  rw [loop]
  split <;> rename_i h <;> rw [h]

end Scan

/--
The scan `c` answers like the parser `p` on the characters that are left, its errors are at the
places of those of `p`, and it goes over the characters that `p` uses.
-/
structure Follows {α : Type} (c : Scan α) (p : Parser α) : Prop where
  run_eq : ∀ r, c r = r.run p
  shrinks : p.Shrinks
  place_suffix : ∀ {cs place issue}, (p cs).1 = .error (.malformed place issue) → place <:+ cs

namespace Follows

variable {α β σ : Type}

theorem eq_ok_iff {c : Scan α} {p : Parser α} (h : Follows c p) {r r' : Reader} {a : α}
    : c r = (.ok a, r') ↔ p r.rest = (.ok a, r'.rest) ∧ r' = r.moveTo r'.rest := by
  rw [h.run_eq, Reader.run_eq_ok_iff h.shrinks]

theorem pure (a : α) : Follows (Pure.pure a) (Pure.pure a) where
  run_eq r := (r.replay_self (.ok a)).symm
  shrinks := Parser.shrinks_pure a
  place_suffix h := by cases h

theorem fail (issue : Issue) : Follows (Scan.fail issue : Scan α) (Parser.fail issue) where
  run_eq r := by
    show _ = r.replay (.error (.malformed r.rest issue), r.rest)
    rw [r.replay_malformed, r.moveTo_rest]
    rfl
  shrinks := Parser.shrinks_fail issue
  place_suffix h := by
    cases h
    exact List.suffix_refl _

theorem failEnd (construct : Construct)
    : Follows (Scan.failEnd construct : Scan α) (Parser.failEnd construct) where
  run_eq r := (r.replay_self (.error (.unexpectedEnd construct))).symm
  shrinks := Parser.shrinks_failEnd construct
  place_suffix h := by cases h

theorem current? : Follows Scan.current? Parser.peekChar where
  run_eq r := by
    show (.ok r.current?, r) = r.replay (.ok r.rest.head?, r.rest)
    rw [r.replay_self, r.current?_eq]
    rfl
  shrinks := Parser.shrinks_peekChar
  place_suffix h := by cases h

theorem consume : Follows Scan.consume Parser.skipChar where
  run_eq r := by
    show (.ok (), r.advance) = r.replay (.ok (), r.rest.tail)
    rw [r.advance_eq_moveTo]
    rfl
  shrinks := Parser.shrinks_skipChar
  place_suffix h := by cases h

theorem lookAhead {c : Scan α} {p : Parser α} (h : Follows c p)
    : Follows c.lookAhead p.lookAhead where
  run_eq r := by
    have htext : (r.run p).2.text = r.text := r.text_moveTo _
    show (_, (⟨(c r).2.text, r.cursor⟩ : Reader)) = r.replay ((p r.rest).1, r.rest)
    rw [h.run_eq, htext, r.replay_self]
    rfl
  shrinks := Parser.shrinks_lookAhead p
  place_suffix he := h.place_suffix he

theorem bind {c : Scan α} {p : Parser α} {f : α → Scan β} {g : α → Parser β} (h : Follows c p)
    (hf : ∀ a, Follows (f a) (g a)) : Follows (c >>= f) (p >>= g) where
  run_eq r := by
    have hmid := h.shrinks r.rest
    rw [Scan.bind_apply, h.run_eq]
    unfold Reader.run
    rw [Parser.bind_apply]
    rcases hp : p r.rest with ⟨e | a, mid⟩ <;> rw [hp] at hmid
    . rfl
    . show f a (r.moveTo mid) = r.replay (g a mid)
      have hrest : (r.moveTo mid).rest = mid := Reader.rest_moveTo hmid
      rw [(hf a).run_eq, Reader.run, hrest]
      exact Reader.replay_moveTo hmid ((hf a).shrinks mid) fun _ _ => (hf a).place_suffix
  shrinks := h.shrinks.bind fun a => (hf a).shrinks
  place_suffix {cs place issue} he := by
    have hmid := h.shrinks cs
    rw [Parser.bind_apply] at he
    rcases hp : p cs with ⟨e | a, mid⟩ <;> rw [hp] at he hmid
    . cases he
      exact h.place_suffix (congrArg Prod.fst hp)
    . exact ((hf a).place_suffix he).trans hmid

theorem ite {b : Prop} [Decidable b] {c c' : Scan α} {p p' : Parser α} (h : Follows c p)
    (h' : Follows c' p') : Follows (if b then c else c') (if b then p else p') := by
  split
  . exact h
  . exact h'

section Loop

variable {turn : σ → Scan (Turn σ α)} {turn' : σ → Parser (Turn σ α)}
variable {progress' : ∀ s cs s' rest,
  turn' s cs = (.ok (.again s'), rest) → rest.length < cs.length}
variable (h : ∀ s, Follows (turn s) (turn' s))

include h

theorem progress
    (progress' : ∀ s cs s' rest, turn' s cs = (.ok (.again s'), rest) → rest.length < cs.length)
    (s : σ) (r : Reader) (s' : σ) (r' : Reader) (hturn : turn s r = (.ok (.again s'), r'))
    : r'.rest.length < r.rest.length :=
  progress' s r.rest s' r'.rest ((h s).eq_ok_iff.1 hturn).1

theorem place_suffix_loop {s : σ} {cs place : List Char} {issue : Issue}
    (he : (Parser.loop turn' progress' s cs).1 = .error (.malformed place issue))
    : place <:+ cs := by
  induction hn : cs.length using Nat.strongRecOn generalizing s cs with
  | _ n ih =>
    have hmid := (h s).shrinks cs
    rcases hp : turn' s cs with ⟨e | ⟨s' | a⟩, mid⟩ <;> rw [hp] at hmid
    . rw [Parser.loop_of_error hp] at he
      cases he
      exact (h s).place_suffix (congrArg Prod.fst hp)
    . rw [Parser.loop_of_again hp] at he
      exact (ih _ (hn ▸ progress' s cs s' mid hp) he rfl).trans hmid
    . rw [Parser.loop_of_done hp] at he
      cases he

theorem loop {progress : ∀ s r s' r',
      turn s r = (.ok (.again s'), r') → r'.rest.length < r.rest.length} (s : σ)
    : Follows (Scan.loop turn progress s) (Parser.loop turn' progress' s) where
  run_eq r := by
    have hshrinks : ∀ s, (Parser.loop turn' progress' s).Shrinks :=
      Parser.shrinks_loop fun s => (h s).shrinks
    induction hn : r.rest.length using Nat.strongRecOn generalizing s r with
    | _ n ih =>
      have hmid := (h s).shrinks r.rest
      rw [Scan.loop_apply, (h s).run_eq]
      unfold Reader.run
      rcases hp : turn' s r.rest with ⟨e | ⟨s' | a⟩, mid⟩ <;> rw [hp] at hmid
      . rw [Parser.loop_of_error hp]
        rfl
      . have hrest : (r.moveTo mid).rest = mid := Reader.rest_moveTo hmid
        have hlt : mid.length < r.rest.length := progress' s r.rest s' mid hp
        show Scan.loop turn progress s' (r.moveTo mid) = _
        rw [ih _ (by rwa [hrest, ← hn]) s' (r.moveTo mid) rfl, Reader.run, hrest,
          Parser.loop_of_again hp]
        exact Reader.replay_moveTo hmid (hshrinks s' mid) fun _ _ => place_suffix_loop h
      . rw [Parser.loop_of_done hp]
        rfl
  shrinks := Parser.shrinks_loop (fun s => (h s).shrinks) s
  place_suffix := place_suffix_loop h

end Loop

end Follows

end TreeStyle
