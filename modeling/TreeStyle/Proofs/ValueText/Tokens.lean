import TreeStyle.Proofs.Lexing.Sequence
import TreeStyle.Proofs.ValueText.Splitting

/-!
This module contains the proof that the text of a value has the tokens of what it was read from, if
and only if these can stand one after the other without comments between them.
-/

namespace TreeStyle

theorem Token.readHere_render_newline {quote : Char} {text : List Char}
    (hquote : isQuote quote = true) (htext : '\n' ∈ text) (rest : List Char)
    : ∃ e after, readHere ((Piece.quoted quote text).render ++ rest) = (.error e, after) := by
  rcases Piece.readQuoted_render_newline hquote htext rest with ⟨e, after, herror⟩
  refine ⟨e, after, ?_⟩
  unfold Piece.render at *
  rw [List.cons_append] at *
  unfold readHere
  dsimp only
  rw [if_pos hquote, Parser.bind_apply, herror]

namespace ValueText

namespace Splits

variable {cs mid rest w : List Char} {t : Token} {pieces : List (Bool × Piece)}

theorem of_isIdentChar (h : Splits (w ++ cs) pieces) (hw : ∀ c ∈ w, isIdentChar c = true)
    : ∃ more, Splits cs more ∧ stars more = stars pieces := by
  induction w generalizing pieces with
  | nil => exact ⟨pieces, h, rfl⟩
  | cons c w ih =>
    rw [List.forall_mem_cons] at hw
    rcases isIdentChar_other hw.1 with ⟨hquote, hslash, hstar⟩
    cases hblank : Text.isBlank c with
    | true =>
      rcases of_blank h hblank with ⟨more, hmore, hstars⟩
      rcases ih hmore hw.2 with ⟨more', hmore', hstars'⟩
      exact ⟨more', hmore', hstars'.trans hstars⟩
    | false =>
      rcases of_char h hblank hquote hslash with ⟨more, hmore, rfl⟩
      rcases ih hmore hw.2 with ⟨more', hmore', hstars'⟩
      refine ⟨more', hmore', ?_⟩
      rw [stars_cons, hstars', Piece.render]
      simp [hstar]

theorem exists_spelled (h : Splits mid pieces) (hclear : Clear mid)
    (hread : Token.readHere mid = (.ok t, rest)) (ht : t ≠ .eof) (hplain : t.isPlain = true)
    : ∃ w more, t.Spelled w ∧ Splits rest more ∧
        pieces.flatMap render.spaced = w ++ more.flatMap render.spaced := by
  have hspelled := Token.spelled_text_of_readHere hclear hread ht hplain
  match mid with
  | [] =>
    cases hread
    exact absurd rfl ht
  | c :: cs =>
    rcases Token.cases_of_readHere hread with
      ⟨text, hquote, htext, rfl⟩ | ⟨-, rfl, -⟩ | ⟨-, rfl, -⟩ | ⟨hquote, -, -, rfl, rfl⟩
    . have hwf : (Piece.quoted c text).WellFormed := hquote
      rcases h.of_readFrom hclear hwf ⟨rfl, htext⟩ with ⟨more, rfl, hmore⟩
      rw [Token.isPlain_string, decide_eq_true_iff] at hplain
      exact ⟨_, more, .string hquote hplain, hmore, rfl⟩
    . rw [← Token.text_append_of_readHere hread (by simp), Token.text_number] at h
      have hchars : ∀ a ∈ (spanNumber (c :: cs)).1,
          Text.isBlank a = false ∧ isQuote a = false ∧ a ≠ '/' := by
        intro a ha
        rcases of_isDigit_or_point ((isNumber_spanNumber _).mem ha) with ⟨hblank, hquote, hslash, -⟩
        exact ⟨hblank, hquote, hslash⟩
      rw [Token.text_number] at hspelled
      rcases of_append h hchars with ⟨more, hmore, hflat⟩
      exact ⟨_, more, hspelled, hmore, hflat⟩
    . rw [← Token.text_append_of_readHere hread (by simp), Token.text_ident] at h
      have hchars : ∀ a ∈ (c :: cs).takeWhile isIdentChar,
          Text.isBlank a = false ∧ isQuote a = false ∧ a ≠ '/' := by
        intro a ha
        rcases isIdentChar_other (List.mem_takeWhile_imp ha) with ⟨hquote, hslash, -⟩
        rw [Token.isPlain_ident, Bool.not_eq_true', List.any_eq_false] at hplain
        exact ⟨by simpa using hplain a ha, hquote, hslash⟩
      rw [Token.text_ident] at hspelled
      rcases of_append h hchars with ⟨more, hmore, hflat⟩
      exact ⟨_, more, hspelled, hmore, hflat⟩
    . have hwf : (Piece.char c).WellFormed := ⟨hclear.1, hquote⟩
      rcases h.of_readFrom hclear hwf rfl with ⟨more, rfl, hmore⟩
      exact ⟨_, more, hspelled, hmore, rfl⟩

end Splits

theorem takeWhile_flatMap_notBlank {pieces : List (Bool × Piece)}
    (hwf : ∀ mark ∈ pieces, mark.2.WellFormed)
    : ∀ c ∈ (pieces.flatMap render.spaced).takeWhile isIdentChar, Text.isBlank c = false := by
  induction pieces with
  | nil => simp
  | cons mark pieces ih =>
    rw [List.forall_mem_cons] at hwf
    rcases mark with ⟨_ | _, piece⟩
    . cases piece with
      | char c =>
        rw [List.flatMap_cons, render.spaced, Piece.render, List.singleton_append,
          List.takeWhile_cons]
        split
        . exact List.forall_mem_cons.2 ⟨hwf.1.1, ih hwf.2⟩
        . simp
      | quoted quote text =>
        have hquote : isIdentChar quote = false := by
          rw [Bool.eq_false_iff]
          intro hident
          exact Bool.noConfusion (hwf.1.symm.trans (isIdentChar_other hident).1)
        simp [render.spaced, Piece.render, hquote]
    . simp [render.spaced, isIdentChar]

namespace Splits

variable {cs mid rest w : List Char} {t : Token} {pieces : List (Bool × Piece)}

theorem exists_of_not_plain (h : Splits mid pieces) (hclear : Clear mid)
    (hread : Token.readHere mid = (.ok t, rest)) (hplain : t.isPlain = false)
    : ∃ more, Splits rest more ∧ stars pieces ≤ t.stars + stars more ∧
        Clear (pieces.flatMap render.spaced) ∧
        ∀ rest', Token.readHere (pieces.flatMap render.spaced) ≠ (.ok t, rest') := by
  match mid with
  | [] =>
    cases hread
    cases hplain
  | c :: cs =>
    rcases Token.cases_of_readHere hread with
      ⟨text, hquote, htext, rfl⟩ | ⟨-, rfl, -⟩ | ⟨hident, rfl, rfl⟩ | ⟨-, -, -, rfl, -⟩
    . have hwf : (Piece.quoted c text).WellFormed := hquote
      rcases h.of_readFrom hclear hwf ⟨rfl, htext⟩ with ⟨more, rfl, hmore⟩
      rw [Token.isPlain_string, decide_eq_false_iff_not, not_not] at hplain
      refine ⟨more, hmore, ?_, Piece.clear_render hwf (by simp), ?_⟩
      . rw [stars_cons, Piece.count_render_quoted hquote, Token.stars, String.toList_ofList]
      . intro rest' hread'
        rcases Token.readHere_render_newline hquote hplain (more.flatMap render.spaced) with
          ⟨e, after, herror⟩
        cases herror.symm.trans hread'
    . cases hplain
    . rcases starts_other_of_startsIdent hident with ⟨hquote, -, -, hslash⟩
      have hwf := h.wellFormed
      rcases of_char h hclear.1 hquote hslash with ⟨after, -, rfl⟩
      rw [← List.takeWhile_append_dropWhile (p := isIdentChar) (l := c :: cs)] at h
      rcases of_isIdentChar h fun _ => List.mem_takeWhile_imp with ⟨more, hmore, hstars⟩
      refine ⟨more, hmore, ?_, ⟨hclear.1, fun hcomment => hslash hcomment.1⟩, ?_⟩
      . omega
      . intro rest' hread'
        have hname := Token.toList_of_readHere_ident hread'
        rw [String.toList_ofList] at hname
        rw [Token.isPlain_ident, hname, Bool.not_eq_false', List.any_eq_true] at hplain
        rcases hplain with ⟨a, ha, hblank⟩
        exact Bool.noConfusion ((takeWhile_flatMap_notBlank hwf a ha).symm.trans hblank)
    . cases hplain

theorem writtenAs {ts : List Token} (h : Splits cs pieces) (hts : Tokenizes cs ts)
    : Token.WrittenAs ts (pieces.flatMap render.spaced) := by
  induction ts generalizing cs pieces with
  | nil =>
    rcases h.of_skipTrivia (Token.next_eq_eof_iff.1 (Tokenizes.nil_iff.1 hts)) with
      ⟨-, rfl⟩ | ⟨hne, -⟩
    . exact .nil
    . exact absurd rfl hne
  | cons t ts ih =>
    rcases Tokenizes.cons_iff.1 hts with ⟨heof, mid, hnext, hmid⟩
    rcases Parser.bind_eq_ok_iff.1 hnext with ⟨spaced, mid', hskip, hread⟩
    have hclear := clear_of_skipTrivia hskip
    cases spaced with
    | true =>
      rcases Parser.pure_eq_ok_iff.1 hread with ⟨rfl, rfl⟩
      rcases h.of_skipTrivia hskip with ⟨rfl, rfl⟩ | ⟨hne, piece, more, rfl, hsplits⟩
      . rw [Tokenizes.of_nil_iff.1 hmid]
        exact .trailing
      . have hwritten := ih hsplits hmid
        cases ts with
        | nil =>
          have hskip' := Token.next_eq_eof_iff.1 (Tokenizes.nil_iff.1 hmid)
          rw [skipTrivia_of_clear hclear] at hskip'
          exact absurd (congrArg Prod.snd hskip') hne
        | cons u ts => exact .space (hmid.head?_ne_space hclear u rfl) hwritten
    | false =>
      have hsplits : Splits mid' pieces := by
        rcases h.of_skipTrivia hskip with ⟨rfl, rfl⟩ | ⟨-, piece, more, rfl, hsplits⟩
        . exact .nil (skipTrivia_of_clear hclear)
        . exact hsplits
      cases hplain : t.isPlain with
      | true =>
        rcases hsplits.exists_spelled hclear hread heof hplain with ⟨w, more, ht, hmore, hflat⟩
        rw [hflat]
        exact .token hplain ht (ih hmore hmid)
      | false =>
        rcases hsplits.exists_of_not_plain hclear hread hplain with
          ⟨more, hmore, hstars, hclear', hne⟩
        have hcount := (ih hmore hmid).count_le
        refine .broken hplain hclear' hne ?_
        rw [Token.starsOf_cons]
        unfold stars at hstars
        omega

theorem exists_writtenAs_render {ts : List Token} (h : Splits cs pieces) (hts : Tokenizes cs ts)
    : ∃ ts', Token.WrittenAs ts' (render pieces) ∧ (∀ t ∈ ts'.head?, t ≠ .space) ∧
        (ts = ts' ∨ ts = .space :: ts') := by
  have hfirst : ∃ spaced mid pieces', skipTrivia cs = (.ok spaced, mid) ∧ Splits mid pieces' ∧
      render pieces = pieces'.flatMap render.spaced := by
    cases h with
    | nil hskip =>
      exact ⟨_, _, [], hskip, .nil (skipTrivia_of_clear (clear_of_skipTrivia hskip)), rfl⟩
    | cons hskip hwf hread h =>
      exact ⟨_, _, _, hskip,
        .cons (skipTrivia_of_clear (clear_of_skipTrivia hskip)) hwf hread h, rfl⟩
  rcases hfirst with ⟨spaced, mid, pieces', hskip, hsplits, hrender⟩
  rcases hts.exists_of_skipTrivia hskip with ⟨ts', rfl, hts'⟩
  refine ⟨ts', ?_, hts'.head?_ne_space (clear_of_skipTrivia hskip), ?_⟩
  . rw [hrender]
    exact hsplits.writtenAs hts'
  . cases spaced with
    | false => exact .inl rfl
    | true => exact .inr rfl

theorem exists_tokenizes_render_iff {ts : List Token} (h : Splits cs pieces)
    (hts : Tokenizes cs ts)
    : (∃ ts', Tokenizes (render pieces) ts' ∧ Token.trimSpaces ts' = Token.trimSpaces ts)
        ↔
      (∀ t ∈ ts, t.isPlain = true) ∧ ts.IsChain fun t u => t.endsBefore u.text = true := by
  rcases h.exists_writtenAs_render hts with ⟨ts, hwritten, hhead, rfl | rfl⟩
  . exact hwritten.exists_tokenizes_iff hhead
  . rw [Token.trimSpaces_space_cons, hwritten.exists_tokenizes_iff hhead]
    -- A space is plain, and it ends before every token.
    simp [List.isChain_cons, Token.isPlain, Token.endsBefore]

end Splits

variable {terminator : Char} {cs rest : List Char} {text : String} {ts : List Token}

/--
The text of a value has the tokens of what it was read from, up to white space at its ends, if and
only if these tokens are plain and each of them ends before the text of the next one.
-/
theorem exists_tokenizes_read_iff (hread : read terminator (cs ++ rest) = (.ok text, rest))
    (hts : Tokenizes cs ts)
    : (∃ ts', Tokenizes text.toList ts' ∧ Token.trimSpaces ts' = Token.trimSpaces ts)
        ↔
      (∀ t ∈ ts, t.isPlain = true) ∧ ts.IsChain fun t u => t.endsBefore u.text = true := by
  rcases splits_of_read hread with ⟨pieces, hsplits, rfl⟩
  rw [String.toList_ofList]
  exact hsplits.exists_tokenizes_render_iff hts

theorem exists_tokenizes_read_iff_sum
    : read '}' (" 1/* * */+ 2".toList ++ [';']) = (.ok "1+ 2", [';']) ∧
        ∃ ts, Tokenizes "1+ 2".toList ts ∧
          Token.trimSpaces ts = [.number "1", .delim '+', .space, .number "2"] := by
  have hread : read '}' (" 1/* * */+ 2".toList ++ [';']) = (.ok "1+ 2", [';']) := by
    rw [Parser.eq_ok_iff_toOption]
    decide +kernel
  have hts : Tokenizes " 1/* * */+ 2".toList
      [.space, .number "1", .delim '+', .space, .number "2"] := by
    decide +kernel
  exact ⟨hread, (exists_tokenizes_read_iff hread hts).2 (by decide)⟩

theorem lineBreak_not_tokenized
    : read '}' "\"a\\\nb\"".toList = (.ok "\"a\nb\"", []) ∧
        Tokenizes "\"a\\\nb\"".toList [.string "a\nb"] ∧
        ¬∃ ts, Tokenizes "\"a\nb\"".toList ts ∧
          Token.trimSpaces ts = Token.trimSpaces [.string "a\nb"] := by
  refine ⟨?_, by decide +kernel, ?_⟩
  . rw [Parser.eq_ok_iff_toOption]
    decide +kernel
  . have hnext : (Token.next "\"a\nb\"".toList).1.toOption = none := by
      decide +kernel
    rintro ⟨_ | ⟨t, ts⟩, hts, -⟩
    . rw [Tokenizes.nil_iff, Parser.eq_ok_iff_toOption, hnext] at hts
      cases hts.1
    . rcases Tokenizes.cons_iff.1 hts with ⟨-, mid, hnext', -⟩
      rw [Parser.eq_ok_iff_toOption, hnext] at hnext'
      cases hnext'.1

end ValueText

end TreeStyle
