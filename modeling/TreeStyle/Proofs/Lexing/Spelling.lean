import TreeStyle.Proofs.Lexing

/-!
This module contains the names and the signs that are read back from their own characters.
-/

namespace TreeStyle

theorem isIdentChar_of_isAlphabetic {c : Char} (h : Text.isAlphabetic c = true)
    : isIdentChar c = true := by
  unfold Text.isAlphabetic at h
  split at h
  . simp [isIdentChar, Char.isAlphanum, h]
  . next hc => simp [isIdentChar, Nat.le_of_not_lt hc]

theorem isAlpha_iff {c : Char}
    : c.isAlpha = true
        ↔
      65 ≤ c.toNat ∧ c.toNat ≤ 90 ∨ 97 ≤ c.toNat ∧ c.toNat ≤ 122 := by
  have hdef : c.isAlpha = (decide (65 ≤ c.val ∧ c.val ≤ 90) ||
      decide (97 ≤ c.val) && decide (c.val ≤ 122)) := rfl
  simp only [hdef, Bool.or_eq_true, Bool.and_eq_true, decide_eq_true_eq, UInt32.le_iff_toNat_le]
  exact Iff.rfl

structure IsName (cs : List Char) : Prop where
  starts : startsIdent cs = true
  goesOn : ∀ c ∈ cs, isIdentChar c = true
  notBlank : ∀ c ∈ cs.head?, Text.isBlank c = false

theorem isName_iff {cs : List Char}
    : IsName cs ↔ startsIdent cs = true ∧ cs.all isIdentChar = true ∧
        cs.head?.all (!Text.isBlank ·) = true := by
  rw [List.all_eq_true, Option.all_eq_true]
  simp only [Bool.not_eq_true', ← Option.mem_def]
  exact ⟨fun h => ⟨h.starts, h.goesOn, h.notBlank⟩, fun h => ⟨h.1, h.2.1, h.2.2⟩⟩

instance (cs : List Char) : Decidable (IsName cs) := decidable_of_iff _ isName_iff.symm

def EndsName (cs : List Char) : Prop := ∀ c ∈ cs.head?, isIdentChar c = false

theorem startsIdent_append {cs rest : List Char} (h : startsIdent cs = true)
    : startsIdent (cs ++ rest) = true := by
  match cs with
  | c :: cs =>
    by_cases hc : c = '-'
    . subst hc
      match cs with
      | c :: cs => exact h
    . rw [List.cons_append, startsIdent]
      . rwa [startsIdent] at h
        simpa using hc
      . simpa using hc

theorem startsIdent_cons {c : Char} {cs : List Char} (h : startsIdent (c :: cs) = true)
    : c = '-' ∨ c = '_' ∨ c.isAlpha = true ∨ 0x80 ≤ c.toNat := by
  by_cases hc : c = '-'
  . exact .inl hc
  . rw [startsIdent] at h
    . simp only [Bool.or_eq_true, beq_iff_eq, decide_eq_true_eq, or_assoc] at h
      exact .inr h
    . simpa using hc

theorem starts_other_of_startsIdent {c : Char} {cs : List Char}
    (h : startsIdent (c :: cs) = true)
    : isQuote c = false ∧ c.isDigit = false ∧ c ≠ '.' ∧ c ≠ '/' := by
  have hstart := startsIdent_cons h
  refine ⟨?_, ?_, ?_, ?_⟩
  . rw [Bool.eq_false_iff]
    intro hc
    rcases isQuote_cases hc with rfl | rfl <;> simp at hstart
  . rw [Bool.eq_false_iff]
    intro hc
    have hc : 48 ≤ c.toNat ∧ c.toNat ≤ 57 := by
      simpa [Char.isDigit, UInt32.le_iff_toNat_le] using hc
    rcases hstart with rfl | rfl | halpha | hlarge
    . simp at hc
    . simp at hc
    . rw [isAlpha_iff] at halpha
      omega
    . omega
  . rintro rfl
    simp at hstart
  . rintro rfl
    simp at hstart

namespace IsName

variable {cs rest : List Char}

theorem takeWhile_append (h : IsName cs) (hrest : EndsName rest)
    : (cs ++ rest).takeWhile isIdentChar = cs := by
  rw [List.takeWhile_append_of_pos h.goesOn]
  cases rest with
  | nil => simp
  | cons c rest => simp [hrest c rfl]

theorem dropWhile_append (h : IsName cs) (hrest : EndsName rest)
    : (cs ++ rest).dropWhile isIdentChar = rest := by
  rw [List.dropWhile_append_of_pos h.goesOn]
  cases rest with
  | nil => rfl
  | cons c rest => simp [hrest c rfl]

theorem clear_append (h : IsName cs)
    : Clear (cs ++ rest) := by
  match cs, h.starts with
  | c :: cs, hstart =>
    refine ⟨h.notBlank c rfl, ?_⟩
    rintro ⟨rfl, -⟩
    exact (starts_other_of_startsIdent hstart).2.2.2 rfl

theorem readHere_append (h : IsName cs) (hrest : EndsName rest)
    : Token.readHere (cs ++ rest) = (.ok (.ident (String.ofList cs)), rest) := by
  have hstart : startsIdent (cs ++ rest) = true := startsIdent_append h.starts
  have htake := h.takeWhile_append hrest
  have hdrop := h.dropWhile_append hrest
  match cs, h.starts with
  | c :: cs, hc =>
    rcases starts_other_of_startsIdent hc with ⟨hquote, hdigit, hdot, -⟩
    rw [List.cons_append] at *
    unfold Token.readHere
    simp [hquote, hdigit, hdot, startsNumber, hstart, htake, hdrop]

theorem next_append (h : IsName cs) (hrest : EndsName rest)
    : Token.next (cs ++ rest) = (.ok (.ident (String.ofList cs)), rest) := by
  rw [Token.next_of_clear h.clear_append, h.readHere_append hrest]

end IsName

theorem startsIdent_takeWhile {cs : List Char} (h : startsIdent cs = true)
    : startsIdent (cs.takeWhile isIdentChar) = true := by
  match cs with
  | c :: cs =>
    rw [List.takeWhile_cons, if_pos (Token.isIdentChar_of_startsIdent h)]
    by_cases hc : c = '-'
    . subst hc
      match cs with
      | c :: cs =>
        have hnext : c = '-' ∨ c = '_' ∨ Text.isAlphabetic c = true := by
          simpa [startsIdent, or_assoc] using h
        have hident : isIdentChar c = true := by
          rcases hnext with rfl | rfl | hnext
          . rfl
          . rfl
          . exact isIdentChar_of_isAlphabetic hnext
        rw [List.takeWhile_cons, if_pos hident]
        exact h
    . rw [startsIdent] at *
      . exact h
      . simpa using hc
      . simpa using hc

theorem isName_of_readHere {name : String} {cs rest : List Char} (hclear : Clear cs)
    (h : Token.readHere cs = (.ok (.ident name), rest))
    : IsName name.toList := by
  unfold Token.readHere at h
  split at h
  . simp at h
  . next c cs =>
    split at h
    . rcases Parser.bind_eq_ok_iff.1 h with ⟨text, mid, -, h⟩
      simp [Parser.pure_eq_ok_iff] at h
    . split at h
      . simp at h
      . split at h
        . next hstart =>
          cases h
          rw [String.toList_ofList]
          refine ⟨startsIdent_takeWhile hstart, ?_, ?_⟩
          . intro a ha
            exact List.all_eq_true.1 List.all_takeWhile a ha
          . rw [List.takeWhile_cons, if_pos (Token.isIdentChar_of_startsIdent hstart)]
            rintro a ⟨⟩
            exact hclear.1
        . simp at h

theorem isName_of_next {name : String} {cs rest : List Char}
    (h : Token.next cs = (.ok (.ident name), rest))
    : IsName name.toList := by
  rcases Parser.bind_eq_ok_iff.1 h with ⟨spaced, mid, hskip, h⟩
  cases spaced with
  | false => exact isName_of_readHere (clear_of_skipTrivia hskip) h
  | true => simp [Parser.pure_eq_ok_iff] at h

theorem readHere_delim {c : Char} {cs : List Char} (hquote : isQuote c = false)
    (hnumber : startsNumber (c :: cs) = false) (hident : startsIdent (c :: cs) = false)
    : Token.readHere (c :: cs) = (.ok (.delim c), cs) := by
  unfold Token.readHere
  simp [hquote, hnumber, hident]

structure IsSign (c : Char) : Prop where
  notBlank : Text.isBlank c = false
  notQuote : isQuote c = false
  notDigit : c.isDigit = false
  notIdent : isIdentChar c = false
  ne_dot : c ≠ '.'
  ne_slash : c ≠ '/'

theorem isSign_of_mem {c : Char} (h : c ∈ ['*', '^', '#', '>', ',', '{', '}', ':', ';'])
    : IsSign c := by
  simp only [List.mem_cons, List.not_mem_nil, or_false] at h
  rcases h with rfl | rfl | rfl | rfl | rfl | rfl | rfl | rfl | rfl
  all_goals exact ⟨rfl, rfl, rfl, rfl, by decide, by decide⟩

namespace IsSign

variable {c : Char}

theorem clear_cons (h : IsSign c) (cs : List Char)
    : Clear (c :: cs) := by
  refine ⟨h.notBlank, ?_⟩
  rintro ⟨hslash, -⟩
  exact h.ne_slash hslash

theorem not_startsIdent (h : IsSign c) (cs : List Char)
    : startsIdent (c :: cs) = false := by
  rw [Bool.eq_false_iff]
  intro hstart
  have := Token.isIdentChar_of_startsIdent hstart
  rw [h.notIdent] at this
  cases this

theorem next_cons (h : IsSign c) (cs : List Char)
    : Token.next (c :: cs) = (.ok (.delim c), cs) := by
  rw [Token.next_of_clear (h.clear_cons cs)]
  apply readHere_delim h.notQuote
  . simp [startsNumber, h.notDigit, h.ne_dot]
  . exact h.not_startsIdent cs

theorem endsName_cons (h : IsSign c) (cs : List Char)
    : EndsName (c :: cs) := by
  rintro a ⟨⟩
  exact h.notIdent

end IsSign

theorem next_space_cons {cs : List Char} (h : Clear cs)
    : Token.next (' ' :: cs) = (.ok .space, cs) :=
  Token.next_of_skipTrivia_true (skipTrivia_blank rfl h)

theorem next_dot_append {cs rest : List Char} (h : IsName cs)
    : Token.next ('.' :: (cs ++ rest)) = (.ok (.delim '.'), cs ++ rest) := by
  have hclear : Clear ('.' :: (cs ++ rest)) := ⟨rfl, by simp⟩
  rw [Token.next_of_clear hclear]
  match cs, h.starts with
  | c :: cs, hc =>
    rcases starts_other_of_startsIdent hc with ⟨-, hdigit, -, -⟩
    exact readHere_delim rfl (by simp [startsNumber, hdigit]) (by simp [startsIdent])

end TreeStyle
