import TreeStyle.Token.Lexer

/-!
This module contains the relation between text and the tokens at its front. The parsers that look
ahead and skip white space are described by the tokens that they use.
-/

namespace TreeStyle

theorem skipTrivia.clear_of_go {spaced spaced' : Bool} {cs rest : List Char}
    (h : go spaced cs = (.ok spaced', rest))
    : Clear rest := by
  fun_induction go spaced cs with
  | case1 spaced body mid hmid ih => exact ih h
  | case2 spaced body hmid => simp at h
  | case3 spaced c mid hne hc ih => exact ih h
  | case4 spaced c mid hne hc =>
    cases h
    refine ⟨by simpa using hc, ?_⟩
    rintro ⟨rfl, hmid⟩
    cases mid with
    | nil => cases hmid
    | cons c' body =>
      cases hmid
      exact hne body rfl rfl
  | case5 spaced =>
    cases h
    trivial

theorem skipTrivia_of_clear {cs : List Char} (h : Clear cs)
    : skipTrivia cs = (.ok false, cs) :=
  skipTrivia.go_of_clear h false

theorem clear_of_skipTrivia {spaced : Bool} {cs rest : List Char}
    (h : skipTrivia cs = (.ok spaced, rest))
    : Clear rest :=
  skipTrivia.clear_of_go h

theorem skipTrivia_blank {c : Char} {cs : List Char} (hc : Text.isBlank c = true) (h : Clear cs)
    : skipTrivia (c :: cs) = (.ok true, cs) := by
  unfold skipTrivia
  rw [skipTrivia.go_blank hc, skipTrivia.go_of_clear h]

theorem isQuote_cases {c : Char} (h : isQuote c = true)
    : c = '"' ∨ c = '\'' := by
  simpa [isQuote] using h

theorem notBlank_of_isQuote {c : Char} (h : isQuote c = true)
    : Text.isBlank c = false := by
  rcases isQuote_cases h with rfl | rfl <;> rfl

theorem ne_of_isQuote {c d : Char} (h : isQuote c = true) (hd : isQuote d = false)
    : c ≠ d := by
  rintro rfl
  exact Bool.noConfusion (h.symm.trans hd)

theorem isQuote_eq_false {p : Char → Bool} {c : Char} (h : p c = true) (hdouble : p '"' = false)
    (hsingle : p '\'' = false)
    : isQuote c = false := by
  rw [Bool.eq_false_iff]
  intro hquote
  rcases isQuote_cases hquote with rfl | rfl
  . exact Bool.noConfusion (h.symm.trans hdouble)
  . exact Bool.noConfusion (h.symm.trans hsingle)

namespace Token

variable {α : Type}

theorem readHere_ne_space {cs rest : List Char}
    : readHere cs ≠ (.ok .space, rest) := by
  intro h
  unfold readHere at h
  split at h
  . simp at h
  . split at h
    . rcases Parser.bind_eq_ok_iff.1 h with ⟨text, mid, -, h⟩
      simp [Parser.pure_eq_ok_iff] at h
    . split at h
      . simp at h
      . split at h
        . simp at h
        . simp at h

theorem readHere_cons_ne_eof {a : Char} {cs rest : List Char}
    : readHere (a :: cs) ≠ (.ok .eof, rest) := by
  intro h
  unfold readHere at h
  dsimp only at h
  split at h
  . rcases Parser.bind_eq_ok_iff.1 h with ⟨text, mid, -, h⟩
    simp [Parser.pure_eq_ok_iff] at h
  . split at h
    . simp at h
    . split at h
      . simp at h
      . simp at h

theorem next_of_clear {cs : List Char} (h : Clear cs)
    : next cs = readHere cs := by
  unfold next
  rw [Parser.bind_apply, skipTrivia_of_clear h]
  rfl

theorem next_of_skipTrivia {cs mid : List Char} (h : skipTrivia cs = (.ok false, mid))
    : next cs = readHere mid := by
  unfold next
  rw [Parser.bind_apply, h]
  rfl

theorem next_of_skipTrivia_true {cs mid : List Char} (h : skipTrivia cs = (.ok true, mid))
    : next cs = (.ok .space, mid) := by
  unfold next
  rw [Parser.bind_apply, h]
  rfl

theorem next_eq_space_iff {cs mid : List Char}
    : next cs = (.ok .space, mid) ↔ skipTrivia cs = (.ok true, mid) := by
  constructor
  . intro h
    rcases Parser.bind_eq_ok_iff.1 h with ⟨spaced, mid', hskip, h⟩
    cases spaced with
    | false => exact absurd h readHere_ne_space
    | true =>
      rcases Parser.pure_eq_ok_iff.1 h with ⟨-, rfl⟩
      exact hskip
  . exact next_of_skipTrivia_true

theorem peek_eq_ok_iff {cs rest : List Char} {t : Token}
    : peek cs = (.ok t, rest) ↔ (∃ mid, next cs = (.ok t, mid)) ∧ cs = rest := by
  unfold peek
  rw [Parser.lookAhead_eq_ok_iff]
  apply and_congr_left'
  constructor
  . intro h
    exact ⟨(next cs).2, Prod.ext h rfl⟩
  . rintro ⟨mid, h⟩
    rw [h]

theorem peek_bind_eq_ok_iff {f : Token → Parser α} {a : α} {cs rest : List Char}
    : (peek >>= f) cs = (.ok a, rest)
        ↔
      ∃ t mid, next cs = (.ok t, mid) ∧ f t cs = (.ok a, rest) := by
  rw [Parser.bind_eq_ok_iff]
  constructor
  . rintro ⟨t, _, hpeek, h⟩
    rcases peek_eq_ok_iff.1 hpeek with ⟨⟨mid, hnext⟩, rfl⟩
    exact ⟨t, mid, hnext, h⟩
  . rintro ⟨t, mid, hnext, h⟩
    exact ⟨t, cs, peek_eq_ok_iff.2 ⟨⟨mid, hnext⟩, rfl⟩, h⟩

theorem skip_bind {f : Unit → Parser α} {t : Token} {cs mid : List Char}
    (h : next cs = (.ok t, mid))
    : (skip >>= f) cs = f () mid := by
  have : skip cs = (.ok (), mid) := Parser.bind_eq_ok_iff.2 ⟨t, mid, h, rfl⟩
  rw [Parser.bind_apply, this]

theorem readIdent_eq_ok_iff {issue : Issue} {name : String} {cs rest : List Char}
    : readIdent issue cs = (.ok name, rest) ↔ next cs = (.ok (.ident name), rest) := by
  unfold readIdent
  rw [Parser.bind_eq_ok_iff]
  constructor
  . rintro ⟨t, mid, hnext, h⟩
    split at h
    . rcases Parser.pure_eq_ok_iff.1 h with ⟨rfl, rfl⟩
      exact hnext
    . exact absurd h Parser.fail_ne_ok
  . intro h
    exact ⟨.ident name, rest, h, rfl⟩

end Token

/--
Reading one token after another from `cs` on gives the tokens `ts` and leaves `rest`. The end of the
text is not among them.
-/
inductive Lexes : (cs : List Char) → (ts : List Token) → (rest : List Char) → Prop where
  | nil {cs : List Char} : Lexes cs [] cs
  | cons {cs mid rest : List Char} {t : Token} {ts : List Token}
      (hnext : Token.next cs = (.ok t, mid)) (ht : t ≠ .eof) (hts : Lexes mid ts rest) :
      Lexes cs (t :: ts) rest

namespace Lexes

@[simp]
theorem nil_iff {cs rest : List Char}
    : Lexes cs [] rest ↔ cs = rest := by
  constructor
  . rintro ⟨⟩
    rfl
  . rintro rfl
    exact nil

theorem cons_iff {cs rest : List Char} {t : Token} {ts : List Token}
    : Lexes cs (t :: ts) rest
        ↔
      t ≠ .eof ∧ ∃ mid, Token.next cs = (.ok t, mid) ∧ Lexes mid ts rest := by
  constructor
  . rintro (_ | ⟨hnext, ht, hts⟩)
    exact ⟨ht, _, hnext, hts⟩
  . rintro ⟨ht, mid, hnext, hts⟩
    exact cons hnext ht hts

theorem append_iff {cs rest : List Char} {ts us : List Token}
    : Lexes cs (ts ++ us) rest ↔ ∃ mid, Lexes cs ts mid ∧ Lexes mid us rest := by
  induction ts generalizing cs with
  | nil => simp
  | cons t ts ih =>
    rw [List.cons_append, cons_iff]
    simp only [cons_iff, ih]
    grind

theorem append {cs mid rest : List Char} {ts us : List Token} (hts : Lexes cs ts mid)
    (hus : Lexes mid us rest)
    : Lexes cs (ts ++ us) rest :=
  append_iff.2 ⟨mid, hts, hus⟩

theorem single_iff {cs rest : List Char} {t : Token}
    : Lexes cs [t] rest ↔ t ≠ .eof ∧ Token.next cs = (.ok t, rest) := by
  simp [cons_iff]

theorem pair_iff {cs rest : List Char} {t u : Token}
    : Lexes cs [t, u] rest
        ↔
      t ≠ .eof ∧ u ≠ .eof ∧
        ∃ mid, Token.next cs = (.ok t, mid) ∧ Token.next mid = (.ok u, rest) := by
  simp [cons_iff]
  grind

theorem of_next_eq {cs cs' rest : List Char} {t : Token} {ts : List Token}
    (h : Token.next cs = Token.next cs') (hts : Lexes cs (t :: ts) rest)
    : Lexes cs' (t :: ts) rest := by
  rw [cons_iff] at *
  rwa [← h]

end Lexes

theorem Token.skip_readIdent_bind_eq_ok_iff {α : Type} {f : String → Parser α} {issue : Issue}
    {t : Token} {cs mid rest : List Char} {a : α} (hnext : next cs = (.ok t, mid)) (ht : t ≠ .eof)
    : (skip >>= fun _ => readIdent issue >>= f) cs = (.ok a, rest)
        ↔
      ∃ name mid', Lexes cs [t, .ident name] mid' ∧ f name mid' = (.ok a, rest) := by
  rw [skip_bind hnext, Parser.bind_eq_ok_iff]
  apply exists_congr
  intro name
  apply exists_congr
  intro mid'
  rw [readIdent_eq_ok_iff, Lexes.pair_iff, hnext]
  simp [ht]

def OptionalSpace (ws : List Token) : Prop := ws = [] ∨ ws = [.space]

theorem skipSpace_eq_ok_iff {cs mid : List Char}
    : skipSpace cs = (.ok (), mid) ↔ ∃ spaced, skipTrivia cs = (.ok spaced, mid) := by
  unfold skipSpace
  rw [Parser.bind_eq_ok_iff]
  simp [Parser.pure_eq_ok_iff]

theorem skipSpace_of_clear {cs : List Char} (h : Clear cs)
    : skipSpace cs = (.ok (), cs) :=
  skipSpace_eq_ok_iff.2 ⟨false, skipTrivia_of_clear h⟩

theorem skipSpace_blank {c : Char} {cs : List Char} (hc : Text.isBlank c = true) (h : Clear cs)
    : skipSpace (c :: cs) = (.ok (), cs) :=
  skipSpace_eq_ok_iff.2 ⟨true, skipTrivia_blank hc h⟩

theorem exists_skipSpace_iff {cs rest : List Char} {t : Token} {ts : List Token}
    (ht : t ≠ .space)
    : (∃ mid, skipSpace cs = (.ok (), mid) ∧ Lexes mid (t :: ts) rest)
        ↔
      ∃ ws, OptionalSpace ws ∧ Lexes cs (ws ++ t :: ts) rest := by
  constructor
  . rintro ⟨mid, hskip, hts⟩
    rcases skipSpace_eq_ok_iff.1 hskip with ⟨spaced, hskip⟩
    cases spaced with
    | false =>
      refine ⟨[], .inl rfl, hts.of_next_eq ?_⟩
      rw [Token.next_of_skipTrivia hskip, Token.next_of_clear (clear_of_skipTrivia hskip)]
    | true =>
      exact ⟨[.space], .inr rfl, .cons (Token.next_of_skipTrivia_true hskip) (by simp) hts⟩
  . rintro ⟨ws, rfl | rfl, hts⟩
    . rcases Lexes.cons_iff.1 hts with ⟨-, after, hnext, -⟩
      rcases Parser.bind_eq_ok_iff.1 hnext with ⟨spaced, mid, hskip, -⟩
      cases spaced with
      | false =>
        refine ⟨mid, skipSpace_eq_ok_iff.2 ⟨false, hskip⟩, hts.of_next_eq ?_⟩
        rw [Token.next_of_skipTrivia hskip, Token.next_of_clear (clear_of_skipTrivia hskip)]
      | true =>
        rw [Token.next_of_skipTrivia_true hskip] at hnext
        cases hnext
        exact absurd rfl ht
    . rcases Lexes.cons_iff.1 hts with ⟨-, mid, hnext, hts⟩
      exact ⟨mid, skipSpace_eq_ok_iff.2 ⟨true, Token.next_eq_space_iff.1 hnext⟩, hts⟩

end TreeStyle
