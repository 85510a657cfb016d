import Mathlib.Data.List.Chain
import TreeStyle.Proofs.Lexing.Boundary
import TreeStyle.Proofs.Lexing.Grammar

/-!
This module contains the proof that reading tokens comes to an end, and that the slices of the text
that the tokens are read from make up the whole of it.
-/

namespace TreeStyle

theorem length_le_of_prefix_takeWhile {p : Char → Bool} {w cs : List Char} (hfront : w <+: cs)
    (hw : ∀ c ∈ w, p c = true)
    : w.length ≤ (cs.takeWhile p).length := by
  rcases hfront with ⟨rest, rfl⟩
  rw [List.takeWhile_append_of_pos hw, List.length_append]
  apply Nat.le_add_right

theorem length_takeWhile_le_spanNumber (cs : List Char)
    : (cs.takeWhile Char.isDigit).length ≤ (spanNumber cs).1.length := by
  by_cases hpoint : (cs.dropWhile Char.isDigit).head? = some '.'
  . rcases List.head?_eq_some_iff.1 hpoint with ⟨last, hlast⟩
    rw [spanNumber_of_point hlast]
    split
    . rw [List.length_append]
      apply Nat.le_add_right
    . exact Nat.le_refl _
  . rw [spanNumber_of_ne_point hpoint]

theorem IsNumber.length_le_spanNumber {w cs : List Char} (h : IsNumber w) (hfront : w <+: cs)
    : w.length ≤ (spanNumber cs).1.length := by
  cases h with
  | whole hw =>
    have hdigits := length_le_of_prefix_takeWhile hfront hw
    exact hdigits.trans (length_takeWhile_le_spanNumber cs)
  | @point w last hw hlast hne =>
    rcases hfront with ⟨rest, rfl⟩
    have hfirst : ('.' :: (last ++ rest)).head?.any Char.isDigit = false := rfl
    rcases takeWhile_append_of_head? hw hfirst with ⟨htake, hdrop⟩
    have hdigit : (last ++ rest).head?.any Char.isDigit = true := by
      rcases List.exists_cons_of_ne_nil hne with ⟨c, last, rfl⟩
      exact hlast c List.mem_cons_self
    have hdigits := length_le_of_prefix_takeWhile (List.prefix_append last rest) hlast
    rw [List.append_assoc, List.cons_append, spanNumber_of_point hdrop, if_pos hdigit, htake]
    simp only [List.length_append, List.length_cons]
    omega

namespace Token

/--
The token is read from the characters `w` in front of `rest`. Names and numbers take up as many of
them as they can.
-/
inductive Slice : (t : Token) → (w rest : List Char) → Prop where
  | ident {comments name rest : List Char} (hcomments : Trivia false comments)
      (hname : IsName name)
      (hlongest : ∀ w, w <+: name ++ rest → (∀ c ∈ w, isIdentChar c = true) →
        w.length ≤ name.length) :
      Slice (.ident (String.ofList name)) (comments ++ name) rest
  | number {comments digits rest : List Char} (hcomments : Trivia false comments)
      (hdigits : IsNumber digits) (hne : digits ≠ [])
      (hlongest : ∀ w, w <+: digits ++ rest → IsNumber w → w.length ≤ digits.length) :
      Slice (.number (String.ofList digits)) (comments ++ digits) rest
  | string {comments body text rest : List Char} {quote : Char}
      (hcomments : Trivia false comments) (hquote : isQuote quote = true)
      (hbody : Escaped [quote, '\n'] body text) :
      Slice (.string (String.ofList text)) (comments ++ quote :: (body ++ [quote])) rest
  | delim {comments rest : List Char} {c : Char} (hcomments : Trivia false comments)
      (hquote : isQuote c = false) (hnumber : startsNumber (c :: rest) = false)
      (hident : startsIdent (c :: rest) = false) : Slice (.delim c) (comments ++ [c]) rest
  | space {w rest : List Char} (h : Trivia true w) : Slice .space w rest
  | eof {comments : List Char} (hcomments : Trivia false comments) : Slice .eof comments []

inductive Slices : (ts : List Token) → (slices : List (List Char)) → (rest : List Char) → Prop where
  | nil {rest : List Char} : Slices [] [] rest
  | cons {t : Token} {ts : List Token} {w rest : List Char} {slices : List (List Char)}
      (hw : t.Slice w (slices.flatten ++ rest)) (h : Slices ts slices rest) :
      Slices (t :: ts) (w :: slices) rest

variable {t : Token} {cs mid rest w : List Char}

theorem exists_slice_of_readHere (hclear : Clear mid) (h : readHere mid = (.ok t, rest))
    : ∃ w, mid = w ++ rest ∧ ∀ comments, Trivia false comments → t.Slice (comments ++ w) rest := by
  match mid with
  | [] =>
    cases h
    refine ⟨[], rfl, ?_⟩
    intro comments hcomments
    rw [List.append_nil]
    exact .eof hcomments
  | c :: cs =>
    rcases cases_of_readHere h with
      ⟨text, hquote, htext, rfl⟩ | ⟨hnumber, rfl, rfl⟩ | ⟨hident, rfl, rfl⟩
        | ⟨hquote, hnumber, hident, rfl, rfl⟩
    . rcases exists_escaped_of_readQuoted htext with ⟨body, rfl, hbody⟩
      refine ⟨c :: (body ++ [c]), by simp, ?_⟩
      intro comments hcomments
      exact .string hcomments hquote hbody
    . have happ := spanNumber_append (c :: cs)
      refine ⟨_, happ.symm, ?_⟩
      intro comments hcomments
      refine .number hcomments (isNumber_spanNumber _) (spanNumber_ne_nil hnumber) ?_
      rw [happ]
      intro w hfront hw
      exact hw.length_le_spanNumber hfront
    . have happ := List.takeWhile_append_dropWhile (p := isIdentChar) (l := c :: cs)
      have hname := isName_of_readHere hclear h
      rw [String.toList_ofList] at hname
      refine ⟨_, happ.symm, ?_⟩
      intro comments hcomments
      refine .ident hcomments hname ?_
      rw [happ]
      intro w hfront hw
      exact length_le_of_prefix_takeWhile hfront hw
    . refine ⟨[c], rfl, ?_⟩
      intro comments hcomments
      exact .delim hcomments hquote hnumber hident

theorem exists_slice_of_next (h : next cs = (.ok t, rest))
    : ∃ w, cs = w ++ rest ∧ t.Slice w rest := by
  rcases Parser.bind_eq_ok_iff.1 h with ⟨spaced, mid, hskip, h⟩
  rcases exists_trivia_of_skipTrivia hskip with ⟨trivia, rfl, htrivia⟩
  cases spaced with
  | true =>
    rcases Parser.pure_eq_ok_iff.1 h with ⟨rfl, rfl⟩
    exact ⟨trivia, rfl, .space htrivia⟩
  | false =>
    rcases exists_slice_of_readHere (clear_of_skipTrivia hskip) h with ⟨w, rfl, hw⟩
    exact ⟨trivia ++ w, (List.append_assoc _ _ _).symm, hw trivia htrivia⟩

theorem Slice.eof_cases (h : Slice .eof w rest)
    : rest = [] ∧ Trivia false w := by
  cases h with
  | eof hcomments => exact ⟨rfl, hcomments⟩

end Token

namespace Lexes

variable {cs rest : List Char} {t : Token} {ts : List Token}

theorem exists_slices (h : Lexes cs ts rest)
    : ∃ slices, slices.flatten ++ rest = cs ∧ Token.Slices ts slices rest ∧ [] ∉ slices := by
  induction h with
  | nil => exact ⟨[], rfl, .nil, by simp⟩
  | cons hnext ht hts ih =>
    rcases ih with ⟨slices, rfl, hslices, hne⟩
    rcases Token.exists_slice_of_next hnext with ⟨w, rfl, hw⟩
    have hlength := Token.length_lt_of_next hnext ht
    refine ⟨w :: slices, by simp, .cons hw hslices, ?_⟩
    rw [List.mem_cons, not_or]
    refine ⟨?_, hne⟩
    rintro rfl
    exact absurd hlength (Nat.lt_irrefl _)

theorem isChain_not_space (h : Lexes cs ts rest)
    : ts.IsChain fun t u => ¬(t = .space ∧ u = .space) := by
  induction h with
  | nil => exact .nil
  | cons hnext ht hts ih =>
    refine List.isChain_cons.2 ⟨?_, ih⟩
    rintro u hu ⟨rfl, rfl⟩
    rcases List.head?_eq_some_iff.1 hu with ⟨us, rfl⟩
    rcases cons_iff.1 hts with ⟨-, mid', hnext', -⟩
    have hclear := clear_of_skipTrivia (Token.next_eq_space_iff.1 hnext)
    rw [Token.next_of_clear hclear] at hnext'
    exact Token.readHere_ne_space hnext'

theorem exists_last (cs : List Char)
    : ∃ ts rest, Lexes cs ts rest ∧ ts.length ≤ cs.length ∧
        (Token.next rest = (.ok .eof, []) ∨ ∃ e after, Token.next rest = (.error e, after)) := by
  induction hn : cs.length using Nat.strongRecOn generalizing cs with
  | _ n ih =>
    rcases hnext : Token.next cs with ⟨e | t, mid⟩
    . exact ⟨[], cs, .nil, Nat.zero_le _, .inr ⟨e, mid, hnext⟩⟩
    . by_cases ht : t = .eof
      . subst ht
        rcases Token.exists_slice_of_next hnext with ⟨w, -, hw⟩
        cases hw.eof_cases.1
        exact ⟨[], cs, .nil, Nat.zero_le _, .inl hnext⟩
      . have hlength := Token.length_lt_of_next hnext ht
        rcases ih mid.length (hn ▸ hlength) mid rfl with ⟨ts, rest, hts, hcount, hlast⟩
        refine ⟨t :: ts, rest, .cons hnext ht hts, ?_, hlast⟩
        rw [List.length_cons]
        omega

/--
Reading token after token uses up a text: each call that gives a token takes a slice of its own, as
the token demands, and these slices make up the text. At most one call more than the text has
characters gives the end, behind comments at most, or fails.
-/
theorem tokens_slice_text (text : String)
    : (∃ ts rest, Lexes text.toList ts rest ∧ ts.length + 1 ≤ text.length + 1 ∧
          (Token.next rest = (.ok .eof, []) ∨ ∃ e after, Token.next rest = (.error e, after)))
        ∧
      ∀ ts rest, Lexes text.toList ts rest →
        (∃ slices, slices.flatten ++ rest = text.toList ∧ Token.Slices ts slices rest ∧
            [] ∉ slices) ∧
          (ts.IsChain fun t u => ¬(t = .space ∧ u = .space)) ∧
          ∀ after, Token.next rest = (.ok .eof, after) → after = [] ∧ Trivia false rest := by
  constructor
  . rcases exists_last text.toList with ⟨ts, rest, hts, hcount, hlast⟩
    rw [String.length_toList] at hcount
    exact ⟨ts, rest, hts, Nat.succ_le_succ hcount, hlast⟩
  . intro ts rest hts
    refine ⟨hts.exists_slices, hts.isChain_not_space, ?_⟩
    intro after hnext
    rcases Token.exists_slice_of_next hnext with ⟨w, rfl, hw⟩
    rcases hw.eof_cases with ⟨rfl, hcomments⟩
    exact ⟨rfl, by rwa [List.append_nil]⟩

end Lexes

end TreeStyle
