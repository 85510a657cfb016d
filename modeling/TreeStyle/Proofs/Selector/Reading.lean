import TreeStyle.Proofs.Selector.Grammar
import TreeStyle.Selector.Parser

/-!
This module contains the proof that reading a selector list accepts exactly what the grammar spells.
-/

namespace TreeStyle

namespace SimpleSelector

theorem tokens_eq_of_canFollow {s : SimpleSelector} (hs : s.canFollow = true)
    : ∃ name, s.tokens = [.delim '#', .ident name] ∧ s = .id name ∨
        s.tokens = [.delim '.', .ident name] ∧ s = .className name := by
  cases s with
  | id name => exact ⟨name, .inl ⟨rfl, rfl⟩⟩
  | className name => exact ⟨name, .inr ⟨rfl, rfl⟩⟩
  | _ => cases hs

end SimpleSelector

def Ahead (p : Token → Prop) (cs : List Char) : Prop :=
  ∃ t rest, Token.next cs = (.ok t, rest) ∧ p t

namespace Compound

theorem readType_eq_ok_iff {cs rest : List Char} {c : Compound}
    : readType cs = (.ok c, rest)
        ↔
      (∃ s : SimpleSelector, s.canFollow = false ∧ c = [s] ∧ Lexes cs s.tokens rest) ∨
        c = [] ∧ cs = rest ∧
          Ahead (fun t => t ≠ .delim '*' ∧ t ≠ .delim '^' ∧ ∀ name, t ≠ .ident name) cs := by
  unfold readType
  rw [Token.peek_bind_eq_ok_iff]
  constructor
  . rintro ⟨t, mid, hnext, h⟩
    split at h
    . rw [Token.skip_bind hnext] at h
      rcases Parser.pure_eq_ok_iff.1 h with ⟨rfl, rfl⟩
      exact .inl ⟨.universal, rfl, rfl, Lexes.single_iff.2 ⟨by simp, hnext⟩⟩
    . next name =>
      rw [Token.skip_bind hnext] at h
      rcases Parser.pure_eq_ok_iff.1 h with ⟨rfl, rfl⟩
      exact .inl ⟨.typeName name, rfl, rfl, Lexes.single_iff.2 ⟨by simp, hnext⟩⟩
    . rw [Token.skip_readIdent_bind_eq_ok_iff hnext (by simp)] at h
      rcases h with ⟨name, mid', hts, h⟩
      rcases Parser.pure_eq_ok_iff.1 h with ⟨rfl, rfl⟩
      exact .inl ⟨.baseType name, rfl, rfl, hts⟩
    . next hstar hname hcaret =>
      rcases Parser.pure_eq_ok_iff.1 h with ⟨rfl, rfl⟩
      exact .inr ⟨rfl, rfl, t, mid, hnext, hstar, hcaret, hname⟩
  . rintro (⟨s, hs, rfl, h⟩ | ⟨rfl, rfl, t, mid, hnext, hstar, hcaret, hname⟩)
    . cases s with
      | universal =>
        have hnext := (Lexes.single_iff.1 h).2
        exact ⟨_, _, hnext, Token.skip_bind hnext⟩
      | typeName name =>
        have hnext := (Lexes.single_iff.1 h).2
        exact ⟨_, _, hnext, Token.skip_bind hnext⟩
      | baseType name =>
        rcases Lexes.pair_iff.1 h with ⟨-, -, mid, hnext, -⟩
        exact ⟨_, _, hnext,
          (Token.skip_readIdent_bind_eq_ok_iff hnext (by simp)).2 ⟨name, rest, h, rfl⟩⟩
      | id name => cases hs
      | className name => cases hs
    . refine ⟨t, mid, hnext, ?_⟩
      split
      . exact absurd rfl hstar
      . exact absurd rfl (hname _)
      . exact absurd rfl hcaret
      . rfl

theorem turn_eq_again_iff {cs rest : List Char} {tests tests' : List SimpleSelector}
    : turn tests cs = (.ok (.again tests'), rest)
        ↔
      ∃ s : SimpleSelector, s.canFollow = true ∧ tests' = s :: tests ∧ Lexes cs s.tokens rest := by
  unfold turn
  rw [Token.peek_bind_eq_ok_iff]
  constructor
  . rintro ⟨t, mid, hnext, h⟩
    split at h
    . rw [Token.skip_readIdent_bind_eq_ok_iff hnext (by simp)] at h
      rcases h with ⟨name, mid', hts, h⟩
      rcases Parser.pure_eq_ok_iff.1 h with ⟨h, rfl⟩
      cases h
      exact ⟨.id name, rfl, rfl, hts⟩
    . rw [Token.skip_readIdent_bind_eq_ok_iff hnext (by simp)] at h
      rcases h with ⟨name, mid', hts, h⟩
      rcases Parser.pure_eq_ok_iff.1 h with ⟨h, rfl⟩
      cases h
      exact ⟨.className name, rfl, rfl, hts⟩
    . simp [Parser.pure_eq_ok_iff] at h
  . rintro ⟨s, hs, rfl, h⟩
    cases s with
    | id name =>
      rcases Lexes.pair_iff.1 h with ⟨-, -, mid, hnext, -⟩
      exact ⟨_, _, hnext,
        (Token.skip_readIdent_bind_eq_ok_iff hnext (by simp)).2 ⟨name, rest, h, rfl⟩⟩
    | className name =>
      rcases Lexes.pair_iff.1 h with ⟨-, -, mid, hnext, -⟩
      exact ⟨_, _, hnext,
        (Token.skip_readIdent_bind_eq_ok_iff hnext (by simp)).2 ⟨name, rest, h, rfl⟩⟩
    | _ => cases hs

theorem turn_eq_done_iff {cs rest : List Char} {tests : List SimpleSelector} {c : Compound}
    : turn tests cs = (.ok (.done c), rest)
        ↔
      c = tests.reverse ∧ cs = rest ∧ Ahead (fun t => t ≠ .delim '#' ∧ t ≠ .delim '.') cs := by
  unfold turn
  rw [Token.peek_bind_eq_ok_iff]
  constructor
  . rintro ⟨t, mid, hnext, h⟩
    split at h
    . rw [Token.skip_readIdent_bind_eq_ok_iff hnext (by simp)] at h
      simp [Parser.pure_eq_ok_iff] at h
    . rw [Token.skip_readIdent_bind_eq_ok_iff hnext (by simp)] at h
      simp [Parser.pure_eq_ok_iff] at h
    . next hhash hdot =>
      rcases Parser.pure_eq_ok_iff.1 h with ⟨h, rfl⟩
      cases h
      exact ⟨rfl, rfl, t, mid, hnext, hhash, hdot⟩
  . rintro ⟨rfl, rfl, t, mid, hnext, hhash, hdot⟩
    refine ⟨t, mid, hnext, ?_⟩
    split
    . exact absurd rfl hhash
    . exact absurd rfl hdot
    . rfl

theorem loop_turn_eq_ok_iff {cs rest : List Char} {tests : List SimpleSelector} {c : Compound}
    : Parser.loop turn turn_progress tests cs = (.ok c, rest)
        ↔
      ∃ more : List SimpleSelector, (∀ s ∈ more, s.canFollow = true) ∧ c = tests.reverse ++ more ∧
        Lexes cs (tokens more) rest ∧ Ahead (fun t => t ≠ .delim '#' ∧ t ≠ .delim '.') rest := by
  constructor
  . intro h
    refine Parser.loop_induction (motive := fun tests cs c rest =>
      ∃ more : List SimpleSelector, (∀ s ∈ more, s.canFollow = true) ∧ c = tests.reverse ++ more ∧
        Lexes cs (tokens more) rest ∧ Ahead (fun t => t ≠ .delim '#' ∧ t ≠ .delim '.') rest)
      ?_ ?_ h
    . intro tests cs c rest hdone
      rcases turn_eq_done_iff.1 hdone with ⟨rfl, rfl, hahead⟩
      exact ⟨[], by simp, by simp, .nil, hahead⟩
    . rintro tests cs tests' mid c rest hagain ⟨more, hmore, rfl, hts, hahead⟩
      rcases turn_eq_again_iff.1 hagain with ⟨s, hs, rfl, hs'⟩
      exact ⟨s :: more, List.forall_mem_cons.2 ⟨hs, hmore⟩, by simp, hs'.append hts, hahead⟩
  . rintro ⟨more, hmore, rfl, hts, hahead⟩
    induction more generalizing tests cs with
    | nil =>
      cases Lexes.nil_iff.1 hts
      rw [List.append_nil]
      exact Parser.loop_eq_ok_iff.2 (.inl (turn_eq_done_iff.2 ⟨rfl, rfl, hahead⟩))
    | cons s more ih =>
      rw [tokens_cons] at hts
      rcases Lexes.append_iff.1 hts with ⟨mid, hs, hts⟩
      have hmore := List.forall_mem_cons.1 hmore
      have hagain : turn tests cs = (.ok (.again (s :: tests)), mid) :=
        turn_eq_again_iff.2 ⟨s, hmore.1, rfl, hs⟩
      have hloop : Parser.loop turn turn_progress (s :: tests) mid =
          (.ok ((s :: tests).reverse ++ more), rest) := ih hmore.2 hts
      rw [List.reverse_cons, List.append_assoc] at hloop
      exact Parser.loop_eq_ok_iff.2 (.inr ⟨_, _, hagain, hloop⟩)

theorem read_eq_ok_iff {cs rest : List Char} {c : Compound}
    : read cs = (.ok c, rest)
        ↔
      c.WellFormed ∧ Lexes cs c.tokens rest ∧
        Ahead (fun t => t ≠ .delim '#' ∧ t ≠ .delim '.') rest := by
  unfold read
  rw [Parser.bind_eq_ok_iff]
  constructor
  . rintro ⟨type, mid, htype, h⟩
    rcases Parser.bind_eq_ok_iff.1 h with ⟨tests, mid', hloop, h⟩
    rcases loop_turn_eq_ok_iff.1 hloop with ⟨more, hmore, rfl, hts, hahead⟩
    rw [List.reverse_reverse] at h
    split at h
    . rcases Parser.bind_eq_ok_iff.1 h with ⟨t, _, -, h⟩
      split at h
      . rcases Parser.bind_eq_ok_iff.1 h with ⟨_, _, h, -⟩
        exact absurd h Parser.failEnd_ne_ok
      . rcases Parser.bind_eq_ok_iff.1 h with ⟨_, _, h, -⟩
        exact absurd h Parser.fail_ne_ok
    . next hne =>
      rcases Parser.pure_eq_ok_iff.1 h with ⟨rfl, rfl⟩
      rcases readType_eq_ok_iff.1 htype with ⟨s, -, rfl, hs⟩ | ⟨rfl, rfl, -⟩
      . exact ⟨⟨by simp, hmore⟩, hs.append hts, hahead⟩
      . refine ⟨⟨by simpa using hne, ?_⟩, hts, hahead⟩
        intro s hs
        exact hmore s (List.mem_of_mem_tail hs)
  . rintro ⟨⟨hne, hmore⟩, hts, hahead⟩
    match c with
    | s :: more =>
      rw [tokens_cons] at hts
      rcases Lexes.append_iff.1 hts with ⟨mid, hs, hts'⟩
      -- The turns read the first test too, if it is none of the type.
      cases hfollow : s.canFollow with
      | true =>
        have htype : readType cs = (.ok [], cs) := by
          refine readType_eq_ok_iff.2 (.inr ⟨rfl, rfl, ?_⟩)
          rcases s.tokens_eq_of_canFollow hfollow with ⟨name, h | h⟩
          . rw [h.1] at hs
            rcases Lexes.pair_iff.1 hs with ⟨-, -, mid', hnext, -⟩
            exact ⟨_, _, hnext, by simp⟩
          . rw [h.1] at hs
            rcases Lexes.pair_iff.1 hs with ⟨-, -, mid', hnext, -⟩
            exact ⟨_, _, hnext, by simp⟩
        refine ⟨[], cs, htype, Parser.bind_eq_ok_iff.2 ⟨s :: more, rest, ?_, rfl⟩⟩
        exact loop_turn_eq_ok_iff.2
          ⟨s :: more, List.forall_mem_cons.2 ⟨hfollow, hmore⟩, rfl, hts, hahead⟩
      | false =>
        have htype : readType cs = (.ok [s], mid) :=
          readType_eq_ok_iff.2 (.inl ⟨s, hfollow, rfl, hs⟩)
        refine ⟨[s], mid, htype, Parser.bind_eq_ok_iff.2 ⟨s :: more, rest, ?_, rfl⟩⟩
        exact loop_turn_eq_ok_iff.2 ⟨more, hmore, rfl, hts', hahead⟩

end Compound

namespace Combinator

variable {t : Token} {ts : List Token} {cs rest : List Char}

theorem exists_child_iff {mid : List Char} {k : Combinator} (ht : t ≠ .space)
    (hnext : Token.next cs = (.ok (.delim '>'), mid))
    : (∃ mid, (do Token.skip; skipSpace; return some child : Parser (Option Combinator)) cs =
          (.ok (some k), mid) ∧ Lexes mid (t :: ts) rest)
        ↔
      k = .child ∧ ∃ after, OptionalSpace after ∧
        Lexes cs (.delim '>' :: (after ++ t :: ts)) rest := by
  rw [Token.skip_bind hnext]
  constructor
  . rintro ⟨mid', h, hts⟩
    rcases Parser.bind_eq_ok_iff.1 h with ⟨_, _, hskip, h⟩
    rcases Parser.pure_eq_ok_iff.1 h with ⟨hk, rfl⟩
    rcases (exists_skipSpace_iff ht).1 ⟨_, hskip, hts⟩ with ⟨after, hafter, hts⟩
    exact ⟨(Option.some.inj hk).symm, after, hafter, .cons hnext (by simp) hts⟩
  . rintro ⟨rfl, after, hafter, hts⟩
    rcases Lexes.cons_iff.1 hts with ⟨-, _, hnext', hts⟩
    cases hnext.symm.trans hnext'
    rcases (exists_skipSpace_iff ht).2 ⟨after, hafter, hts⟩ with ⟨mid', hskip, hts⟩
    exact ⟨mid', Parser.bind_eq_ok_iff.2 ⟨(), mid', hskip, rfl⟩, hts⟩

theorem exists_read?_iff {k : Combinator} (ht : Compound.Starts t)
    : (∃ mid, read? cs = (.ok (some k), mid) ∧ Lexes mid (t :: ts) rest)
        ↔
      ∃ joint, k.Joins joint ∧ Lexes cs (joint ++ t :: ts) rest := by
  unfold read?
  constructor
  . rintro ⟨mid, h, hts⟩
    rcases Token.peek_bind_eq_ok_iff.1 h with ⟨t', mid', hnext, h⟩
    split at h
    -- White space joins by itself unless the sign of a child follows or the selector ends.
    . rw [Token.skip_bind hnext] at h
      rcases Token.peek_bind_eq_ok_iff.1 h with ⟨t'', mid'', hnext', h⟩
      split at h
      . rcases (exists_child_iff ht.ne_space hnext').1 ⟨_, h, hts⟩ with ⟨rfl, after, hafter, hts⟩
        exact ⟨_, .child (.inr rfl) hafter, by simpa using .cons hnext (by simp) hts⟩
      . simp [Parser.pure_eq_ok_iff] at h
      . simp [Parser.pure_eq_ok_iff] at h
      . simp [Parser.pure_eq_ok_iff] at h
      . exact absurd h Parser.fail_ne_ok
      . exact absurd h Parser.fail_ne_ok
      . rcases Parser.pure_eq_ok_iff.1 h with ⟨h, rfl⟩
        cases h
        exact ⟨_, .descendant, .cons hnext (by simp) hts⟩
    . rcases (exists_child_iff ht.ne_space hnext).1 ⟨_, h, hts⟩ with ⟨rfl, after, hafter, hts⟩
      exact ⟨_, .child (.inl rfl) hafter, by simpa using hts⟩
    . exact absurd h Parser.fail_ne_ok
    . exact absurd h Parser.fail_ne_ok
    . simp [Parser.pure_eq_ok_iff] at h
  . rintro ⟨joint, hjoint, hts⟩
    cases hjoint with
    | descendant =>
      rcases Lexes.cons_iff.1 hts with ⟨-, mid, hnext, hts⟩
      rcases Lexes.cons_iff.1 hts with ⟨-, mid', hnext', -⟩
      refine ⟨mid, Token.peek_bind_eq_ok_iff.2 ⟨_, _, hnext, ?_⟩, hts⟩
      dsimp only
      rw [Token.skip_bind hnext]
      refine Token.peek_bind_eq_ok_iff.2 ⟨_, _, hnext', ?_⟩
      cases ht <;> rfl
    | @child before after hbefore hafter =>
      rw [List.append_assoc, List.cons_append] at hts
      rcases hbefore with rfl | rfl
      . rcases Lexes.cons_iff.1 hts with ⟨-, mid, hnext, -⟩
        rcases (exists_child_iff ht.ne_space hnext).2 ⟨rfl, after, hafter, hts⟩ with ⟨mid, h, hts⟩
        exact ⟨mid, Token.peek_bind_eq_ok_iff.2 ⟨_, _, hnext, h⟩, hts⟩
      . rcases Lexes.cons_iff.1 hts with ⟨-, mid, hnext, hts⟩
        rcases Lexes.cons_iff.1 hts with ⟨-, mid', hnext', -⟩
        rcases (exists_child_iff ht.ne_space hnext').2 ⟨rfl, after, hafter, hts⟩ with
          ⟨mid'', h, hts⟩
        refine ⟨mid'', Token.peek_bind_eq_ok_iff.2 ⟨_, _, hnext, ?_⟩, hts⟩
        dsimp only
        rw [Token.skip_bind hnext]
        exact Token.peek_bind_eq_ok_iff.2 ⟨_, _, hnext', h⟩

theorem exists_space_of_read? (h : read? cs = (.ok none, rest))
    : ∃ after, OptionalSpace after ∧ Lexes cs after rest := by
  rcases Token.peek_bind_eq_ok_iff.1 h with ⟨t, mid, hnext, h⟩
  split at h
  . rw [Token.skip_bind hnext] at h
    rcases Token.peek_bind_eq_ok_iff.1 h with ⟨t', mid', hnext', h⟩
    have hspace : Lexes cs [.space] mid := Lexes.single_iff.2 ⟨by simp, hnext⟩
    split at h
    . rcases Parser.bind_eq_ok_iff.1 h with ⟨_, _, -, h⟩
      rcases Parser.bind_eq_ok_iff.1 h with ⟨_, _, -, h⟩
      simp [Parser.pure_eq_ok_iff] at h
    . cases (Parser.pure_eq_ok_iff.1 h).2
      exact ⟨_, .inr rfl, hspace⟩
    . cases (Parser.pure_eq_ok_iff.1 h).2
      exact ⟨_, .inr rfl, hspace⟩
    . cases (Parser.pure_eq_ok_iff.1 h).2
      exact ⟨_, .inr rfl, hspace⟩
    . exact absurd h Parser.fail_ne_ok
    . exact absurd h Parser.fail_ne_ok
    . simp [Parser.pure_eq_ok_iff] at h
  . rcases Parser.bind_eq_ok_iff.1 h with ⟨_, _, -, h⟩
    rcases Parser.bind_eq_ok_iff.1 h with ⟨_, _, -, h⟩
    simp [Parser.pure_eq_ok_iff] at h
  . exact absurd h Parser.fail_ne_ok
  . exact absurd h Parser.fail_ne_ok
  . cases (Parser.pure_eq_ok_iff.1 h).2
    exact ⟨[], .inl rfl, .nil⟩

theorem read?_of_optionalSpace {after : List Token} (hafter : OptionalSpace after)
    (hts : Lexes cs after rest)
    (hrest : Ahead (fun t => t = .delim ',' ∨ t = .delim '{') rest)
    : read? cs = (.ok none, rest) := by
  rcases hrest with ⟨t, mid, hnext, ht⟩
  rcases hafter with rfl | rfl
  . cases Lexes.nil_iff.1 hts
    refine Token.peek_bind_eq_ok_iff.2 ⟨_, _, hnext, ?_⟩
    rcases ht with rfl | rfl <;> rfl
  . have hspace := (Lexes.single_iff.1 hts).2
    refine Token.peek_bind_eq_ok_iff.2 ⟨_, _, hspace, ?_⟩
    dsimp only
    rw [Token.skip_bind hspace]
    refine Token.peek_bind_eq_ok_iff.2 ⟨_, _, hnext, ?_⟩
    rcases ht with rfl | rfl <;> rfl

end Combinator

namespace Selector

theorem turn_eq_again_iff {cs rest : List Char} {pairs pairs' : List (Combinator × Compound)}
    : turn pairs cs = (.ok (.again pairs'), rest)
        ↔
      ∃ k c joint, Combinator.Joins k joint ∧ c.WellFormed ∧ pairs' = (k, c) :: pairs ∧
        Lexes cs (joint ++ c.tokens) rest ∧
        Ahead (fun t => t ≠ .delim '#' ∧ t ≠ .delim '.') rest := by
  constructor
  . intro h
    rcases Parser.bind_eq_ok_iff.1 h with ⟨k?, mid, hk, h⟩
    cases k? with
    | none => simp [Parser.pure_eq_ok_iff] at h
    | some k =>
      rcases Parser.bind_eq_ok_iff.1 h with ⟨c, mid', hc, h⟩
      rcases Parser.pure_eq_ok_iff.1 h with ⟨hpairs, rfl⟩
      cases hpairs
      rcases Compound.read_eq_ok_iff.1 hc with ⟨hc, hts, hahead⟩
      rcases hc.exists_starts with ⟨t, ts, htokens, ht⟩
      rw [htokens] at hts
      rcases (Combinator.exists_read?_iff ht).1 ⟨mid, hk, hts⟩ with ⟨joint, hjoint, hts⟩
      exact ⟨k, c, joint, hjoint, hc, rfl, by rwa [htokens], hahead⟩
  . rintro ⟨k, c, joint, hjoint, hc, rfl, hts, hahead⟩
    rcases hc.exists_starts with ⟨t, ts, htokens, ht⟩
    rw [htokens] at hts
    rcases (Combinator.exists_read?_iff ht).2 ⟨joint, hjoint, hts⟩ with ⟨mid, hk, hts⟩
    rw [← htokens] at hts
    have hc := Compound.read_eq_ok_iff.2 ⟨hc, hts, hahead⟩
    exact Parser.bind_eq_ok_iff.2 ⟨some k, mid, hk, Parser.bind_eq_ok_iff.2 ⟨c, rest, hc, rfl⟩⟩

theorem turn_eq_done_iff {cs rest : List Char} {pairs answer : List (Combinator × Compound)}
    : turn pairs cs = (.ok (.done answer), rest)
        ↔
      answer = pairs.reverse ∧ Combinator.read? cs = (.ok none, rest) := by
  constructor
  . intro h
    rcases Parser.bind_eq_ok_iff.1 h with ⟨k?, mid, hk, h⟩
    cases k? with
    | none =>
      rcases Parser.pure_eq_ok_iff.1 h with ⟨hanswer, rfl⟩
      cases hanswer
      exact ⟨rfl, hk⟩
    | some k =>
      rcases Parser.bind_eq_ok_iff.1 h with ⟨c, mid', -, h⟩
      simp [Parser.pure_eq_ok_iff] at h
  . rintro ⟨rfl, hk⟩
    exact Parser.bind_eq_ok_iff.2 ⟨none, rest, hk, rfl⟩

theorem exists_continues_of_loop {cs rest : List Char}
    {pairs answer : List (Combinator × Compound)}
    (h : Parser.loop turn turn_progress pairs cs = (.ok answer, rest))
    : ∃ more ts after, Continues more ts ∧ OptionalSpace after ∧ answer = pairs.reverse ++ more ∧
        Lexes cs (ts ++ after) rest := by
  refine Parser.loop_induction (motive := fun pairs cs answer rest =>
    ∃ more ts after, Continues more ts ∧ OptionalSpace after ∧ answer = pairs.reverse ++ more ∧
      Lexes cs (ts ++ after) rest) ?_ ?_ h
  . intro pairs cs answer rest hdone
    rcases turn_eq_done_iff.1 hdone with ⟨rfl, hk⟩
    rcases Combinator.exists_space_of_read? hk with ⟨after, hafter, hts⟩
    exact ⟨[], [], after, .nil, hafter, by simp, hts⟩
  . rintro pairs cs pairs' mid answer rest hagain ⟨more, ts, after, hmore, hafter, rfl, hts⟩
    rcases turn_eq_again_iff.1 hagain with ⟨k, c, joint, hjoint, hc, rfl, hts', -⟩
    refine ⟨(k, c) :: more, _, after, .cons hjoint hc hmore, hafter, by simp, ?_⟩
    rw [List.append_assoc]
    exact hts'.append hts

theorem ahead_of_continues {cs rest : List Char} {more : List (Combinator × Compound)}
    {ts after : List Token} (hmore : Continues more ts) (hafter : OptionalSpace after)
    (hts : Lexes cs (ts ++ after) rest)
    (hrest : Ahead (fun t => t = .delim ',' ∨ t = .delim '{') rest)
    : Ahead (fun t => t ≠ .delim '#' ∧ t ≠ .delim '.') cs := by
  cases hmore with
  | nil =>
    rcases hafter with rfl | rfl
    . cases Lexes.nil_iff.1 hts
      rcases hrest with ⟨t, mid, hnext, ht⟩
      refine ⟨t, mid, hnext, ?_⟩
      rcases ht with rfl | rfl <;> simp
    . exact ⟨_, _, (Lexes.single_iff.1 hts).2, by simp⟩
  | cons hjoint hc hmore =>
    rcases hjoint.exists_cons with ⟨t, ts', rfl, ht⟩
    rcases Lexes.cons_iff.1 hts with ⟨-, mid, hnext, -⟩
    refine ⟨t, mid, hnext, ?_⟩
    rcases ht with rfl | rfl <;> simp

theorem loop_turn_of_continues {cs rest : List Char} {pairs more : List (Combinator × Compound)}
    {ts after : List Token} (hmore : Continues more ts) (hafter : OptionalSpace after)
    (hts : Lexes cs (ts ++ after) rest)
    (hrest : Ahead (fun t => t = .delim ',' ∨ t = .delim '{') rest)
    : Parser.loop turn turn_progress pairs cs = (.ok (pairs.reverse ++ more), rest) := by
  induction hmore generalizing pairs cs with
  | nil =>
    have hk := Combinator.read?_of_optionalSpace hafter hts hrest
    rw [List.append_nil]
    exact Parser.loop_eq_ok_iff.2 (.inl (turn_eq_done_iff.2 ⟨rfl, hk⟩))
  | @cons k c more joint ts hjoint hc hmore ih =>
    rw [List.append_assoc] at hts
    rcases Lexes.append_iff.1 hts with ⟨mid, hc', hts⟩
    have hahead := ahead_of_continues hmore hafter hts hrest
    have hagain : turn pairs cs = (.ok (.again ((k, c) :: pairs)), mid) :=
      turn_eq_again_iff.2 ⟨k, c, joint, hjoint, hc, rfl, hc', hahead⟩
    have hloop : Parser.loop turn turn_progress ((k, c) :: pairs) mid =
        (.ok (((k, c) :: pairs).reverse ++ more), rest) := ih hts
    rw [List.reverse_cons, List.append_assoc] at hloop
    exact Parser.loop_eq_ok_iff.2 (.inr ⟨_, _, hagain, hloop⟩)

theorem exists_spells_of_read {s : Selector} {cs rest : List Char} (h : read cs = (.ok s, rest))
    : ∃ ts after, s.Spells ts ∧ OptionalSpace after ∧ Lexes cs (ts ++ after) rest := by
  rcases Parser.bind_eq_ok_iff.1 h with ⟨first, mid, hfirst, h⟩
  rcases Parser.bind_eq_ok_iff.1 h with ⟨more, mid', hmore, h⟩
  rcases Parser.pure_eq_ok_iff.1 h with ⟨rfl, rfl⟩
  rcases Compound.read_eq_ok_iff.1 hfirst with ⟨hfirst, hts, -⟩
  rcases exists_continues_of_loop hmore with ⟨more, us, after, hmore, hafter, rfl, hus⟩
  refine ⟨first.tokens ++ us, after, ⟨hfirst, us, by simpa using hmore, rfl⟩, hafter, ?_⟩
  rw [List.append_assoc]
  exact hts.append hus

theorem read_of_spells {s : Selector} {cs rest : List Char} {ts after : List Token}
    (hs : s.Spells ts) (hafter : OptionalSpace after) (hts : Lexes cs (ts ++ after) rest)
    (hrest : Ahead (fun t => t = .delim ',' ∨ t = .delim '{') rest)
    : read cs = (.ok s, rest) := by
  rcases hs with ⟨hfirst, us, hmore, rfl⟩
  rw [List.append_assoc] at hts
  rcases Lexes.append_iff.1 hts with ⟨mid, hts, hus⟩
  have hahead := ahead_of_continues hmore hafter hus hrest
  have hfirst := Compound.read_eq_ok_iff.2 ⟨hfirst, hts, hahead⟩
  have hloop : Parser.loop turn turn_progress [] mid = (.ok s.rest, rest) :=
    loop_turn_of_continues hmore hafter hus hrest
  exact Parser.bind_eq_ok_iff.2 ⟨s.first, mid, hfirst,
    Parser.bind_eq_ok_iff.2 ⟨s.rest, rest, hloop, rfl⟩⟩

theorem Spells.exists_starts {s : Selector} {ts : List Token} (hs : s.Spells ts)
    : ∃ t us, ts = t :: us ∧ Compound.Starts t := by
  rcases hs with ⟨hfirst, us, hmore, rfl⟩
  rcases hfirst.exists_starts with ⟨t, vs, htokens, ht⟩
  exact ⟨t, vs ++ us, by rw [htokens, List.cons_append], ht⟩

theorem SpellsAll.exists_starts {list : List Selector} {ts : List Token} (hlist : SpellsAll list ts)
    : ∃ t us, ts = t :: us ∧ Compound.Starts t := by
  cases hlist with
  | last hs hafter =>
    rcases hs.exists_starts with ⟨t, us, rfl, ht⟩
    exact ⟨t, _, rfl, ht⟩
  | cons hs hbefore hafter hlist =>
    rcases hs.exists_starts with ⟨t, us, rfl, ht⟩
    exact ⟨t, _, rfl, ht⟩

theorem SpellsAll.exists_skipSpace_iff {list : List Selector} {ts : List Token}
    {cs rest : List Char} (hlist : SpellsAll list ts)
    : (∃ mid, skipSpace cs = (.ok (), mid) ∧ Lexes mid ts rest)
        ↔
      ∃ before, OptionalSpace before ∧ Lexes cs (before ++ ts) rest := by
  rcases hlist.exists_starts with ⟨t, us, rfl, ht⟩
  exact TreeStyle.exists_skipSpace_iff ht.ne_space

theorem loop_listTurn_eq_ok_iff {cs rest : List Char} {before list : List Selector}
    : Parser.loop listTurn listTurn_progress before cs = (.ok list, rest)
        ↔
      ∃ more ts, SpellsAll more ts ∧ list = before.reverse ++ more ∧ Lexes cs ts rest ∧
        Ahead (fun t => t = .delim '{') rest := by
  constructor
  . intro h
    refine Parser.loop_induction (motive := fun before cs list rest =>
      ∃ more ts, SpellsAll more ts ∧ list = before.reverse ++ more ∧ Lexes cs ts rest ∧
        Ahead (fun t => t = .delim '{') rest) ?_ ?_ h
    . intro before cs list rest hdone
      rcases Parser.bind_eq_ok_iff.1 hdone with ⟨s, mid, hread, h⟩
      rcases Token.peek_bind_eq_ok_iff.1 h with ⟨t, mid', hnext, h⟩
      rcases exists_spells_of_read hread with ⟨ts, after, hs, hafter, hts⟩
      split at h
      . rw [Token.skip_bind hnext] at h
        rcases Parser.bind_eq_ok_iff.1 h with ⟨_, _, -, h⟩
        simp [Parser.pure_eq_ok_iff] at h
      . rcases Parser.pure_eq_ok_iff.1 h with ⟨hlist, rfl⟩
        cases hlist
        exact ⟨[s], _, .last hs hafter, by simp, hts, _, _, hnext, rfl⟩
      . exact absurd h Parser.failEnd_ne_ok
      . exact absurd h Parser.fail_ne_ok
    . rintro before cs before' mid list rest hagain ⟨more, us, hmore, rfl, hus, hahead⟩
      rcases Parser.bind_eq_ok_iff.1 hagain with ⟨s, mid', hread, h⟩
      rcases Token.peek_bind_eq_ok_iff.1 h with ⟨t, mid'', hnext, h⟩
      rcases exists_spells_of_read hread with ⟨ts, space, hs, hspace, hts⟩
      -- Only a comma lets another turn follow.
      split at h
      . rw [Token.skip_bind hnext] at h
        rcases Parser.bind_eq_ok_iff.1 h with ⟨_, _, hskip, h⟩
        rcases Parser.pure_eq_ok_iff.1 h with ⟨hbefore, rfl⟩
        cases hbefore
        rcases hmore.exists_skipSpace_iff.1 ⟨_, hskip, hus⟩ with ⟨after, hafter, hus⟩
        refine ⟨s :: more, _, .cons hs hspace hafter hmore, by simp, ?_, hahead⟩
        exact hts.append (.cons hnext (by simp) hus)
      . simp [Parser.pure_eq_ok_iff] at h
      . exact absurd h Parser.failEnd_ne_ok
      . exact absurd h Parser.fail_ne_ok
  . rintro ⟨more, ts, hmore, rfl, hts, hbrace⟩
    have ⟨t, mid, hnext, ht⟩ := hbrace
    cases ht
    induction hmore generalizing before cs with
    | @last s ts after hs hafter =>
      have hread := read_of_spells hs hafter hts ⟨_, _, hnext, .inr rfl⟩
      rw [← List.reverse_cons]
      exact Parser.loop_eq_ok_iff.2 (.inl (Parser.bind_eq_ok_iff.2 ⟨s, rest, hread,
        Token.peek_bind_eq_ok_iff.2 ⟨_, _, hnext, rfl⟩⟩))
    | @cons s more ts space after us hs hspace hafter hmore ih =>
      rcases Lexes.append_iff.1 hts with ⟨mid', hts, hus⟩
      rcases Lexes.cons_iff.1 hus with ⟨-, mid'', hcomma, hus⟩
      rcases hmore.exists_skipSpace_iff.2 ⟨after, hafter, hus⟩ with ⟨mid₃, hskip, hus⟩
      have hread := read_of_spells hs hspace hts ⟨_, _, hcomma, .inl rfl⟩
      have hagain : listTurn before cs = (.ok (.again (s :: before)), mid₃) := by
        refine Parser.bind_eq_ok_iff.2 ⟨s, mid', hread,
          Token.peek_bind_eq_ok_iff.2 ⟨_, _, hcomma, ?_⟩⟩
        exact (Token.skip_bind hcomma).trans (Parser.bind_eq_ok_iff.2 ⟨(), mid₃, hskip, rfl⟩)
      have hloop : Parser.loop listTurn listTurn_progress (s :: before) mid₃ =
          (.ok ((s :: before).reverse ++ more), rest) := ih hus
      rw [List.reverse_cons, List.append_assoc] at hloop
      exact Parser.loop_eq_ok_iff.2 (.inr ⟨_, _, hagain, hloop⟩)

theorem readList_eq_ok_iff {cs rest : List Char} {list : List Selector}
    : readList cs = (.ok list, rest)
        ↔
      ∃ ts, SpellsList list ts ∧ Lexes cs ts rest ∧ Ahead (fun t => t = .delim '{') rest := by
  constructor
  . intro h
    rcases Parser.bind_eq_ok_iff.1 h with ⟨_, mid, hskip, h⟩
    rcases loop_listTurn_eq_ok_iff.1 h with ⟨list, us, hlist, rfl, hus, hahead⟩
    rcases hlist.exists_skipSpace_iff.1 ⟨mid, hskip, hus⟩ with ⟨before, hbefore, hts⟩
    exact ⟨before ++ us, ⟨before, us, hbefore, hlist, rfl⟩, hts, hahead⟩
  . rintro ⟨ts, ⟨before, us, hbefore, hlist, rfl⟩, hts, hahead⟩
    rcases hlist.exists_skipSpace_iff.2 ⟨before, hbefore, hts⟩ with ⟨mid, hskip, hus⟩
    exact Parser.bind_eq_ok_iff.2 ⟨(), mid, hskip,
      loop_listTurn_eq_ok_iff.2 ⟨list, us, hlist, rfl, hus, hahead⟩⟩

/--
A text is read as a list of selectors if and only if its tokens up to the first opening brace exist
and spell that list. The brace is then the next token. A selector has one combinator less than
compounds, and its specificity counts the names behind the sign of an id, those behind the sign of a
class and the other names, each up to 65535.
-/
theorem readList_iff_spelled (cs rest : List Char) (list : List Selector)
    : readList cs = (.ok list, rest)
        ↔
      ∃ ts after, Lexes cs ts rest ∧ Token.next rest = (.ok (.delim '{'), after) ∧
        .delim '{' ∉ ts ∧ SpellsList list ts ∧
        ∀ s ∈ list, s.combinators.length + 1 = s.compounds.length ∧ ∀ us, s.Spells us →
          s.specificity =
            { ids := min 65535 (us.count (.delim '#'))
              classes := min 65535 (us.count (.delim '.'))
              types := min 65535
                (us.countP Token.isName - us.count (.delim '#') - us.count (.delim '.')) } := by
  rw [readList_eq_ok_iff]
  constructor
  . rintro ⟨ts, hlist, hts, t, after, hnext, rfl⟩
    refine ⟨ts, after, hts, hnext, hlist.brace_notMem, hlist, ?_⟩
    intro s hs
    exact ⟨s.length_combinators, fun us hus => hus.specificity_eq⟩
  . rintro ⟨ts, after, hts, hnext, -, hlist, -⟩
    exact ⟨ts, hlist, hts, _, after, hnext, rfl⟩

end Selector

end TreeStyle
