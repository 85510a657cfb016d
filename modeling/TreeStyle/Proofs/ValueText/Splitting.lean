import TreeStyle.Proofs.Lexing.Stability
import TreeStyle.Proofs.ValueText.Illegible

/-!
This module contains the relation between a text and the pieces that it is read as. What a value is
read from is split into the same pieces without the text that follows it.
-/

namespace TreeStyle

theorem length_lt_of_afterComment? {cs rest : List Char} (h : afterComment? cs = some rest)
    : rest.length < cs.length := by
  induction cs with
  | nil => cases h
  | cons c cs ih =>
    rw [afterComment?] at h
    rw [List.length_cons]
    split at h
    . cases h
      rw [List.length_tail]
      omega
    . have := ih h
      omega

theorem afterComment?_of_append {cs more rest : List Char}
    (h : afterComment? (cs ++ more) = some (rest ++ more))
    : afterComment? cs = some rest := by
  induction cs with
  | nil =>
    have hlt := length_lt_of_afterComment? h
    rw [List.nil_append, List.length_append] at hlt
    omega
  | cons c cs ih =>
    rw [List.cons_append, afterComment?] at h
    rw [afterComment?]
    cases cs with
    | nil =>
      rw [if_neg (by simp)]
      apply ih
      split at h
      . next hend =>
        -- The comment would end in what follows.
        rw [List.nil_append] at hend h
        rcases List.head?_eq_some_iff.1 hend.2 with ⟨body, rfl⟩
        have hlength := congrArg List.length (Option.some.inj h)
        simp only [List.tail_cons, List.length_append, List.length_cons] at hlength
        omega
      . exact h
    | cons c' cs =>
      split at h
      . next hend =>
        rw [if_pos (by simpa using hend)]
        have hrest := List.append_cancel_right (Option.some.inj h)
        rw [← hrest]
        rfl
      . next hend => rw [if_neg (by simpa using hend), ih h]

theorem skipTrivia.go_of_append {spaced spaced' : Bool} {cs more rest : List Char}
    (h : go spaced (cs ++ more) = (.ok spaced', rest ++ more))
    : go spaced cs = (.ok spaced', rest) := by
  fun_induction go spaced cs with
  | case1 spaced body mid hmid ih =>
    rw [List.cons_append, List.cons_append, go_comment, afterComment?_append hmid] at h
    exact ih h
  | case2 spaced body hbody =>
    rw [List.cons_append, List.cons_append, go_comment] at h
    split at h
    . next mid hmid =>
      -- A comment that ends in what follows leaves less than that.
      have hsuffix := go_suffix spaced mid
      rw [h] at hsuffix
      rcases hsuffix with ⟨front, hfront⟩
      rw [← hfront, ← List.append_assoc] at hmid
      rw [afterComment?_of_append hmid] at hbody
      cases hbody
    . cases h
  | case3 spaced c mid hne hc ih =>
    rw [List.cons_append, go_blank hc] at h
    exact ih h
  | case4 spaced c mid hne hc =>
    by_cases hcomment : ∃ body, c :: (mid ++ more) = '/' :: '*' :: body
    . rcases hcomment with ⟨body, hbody⟩
      rw [List.cons_append, hbody] at h
      have hlength := (go_comment_suffix h).length_le
      cases mid with
      | nil =>
        have := congrArg List.length hbody
        simp only [List.nil_append, List.length_cons, List.length_append] at *
        omega
      | cons c' mid =>
        cases hbody
        exact absurd rfl (hne mid rfl)
    . have hclear : Clear (c :: (mid ++ more)) := by
        refine clear_of_go_cons hc ?_
        rintro body rfl hbody
        exact hcomment ⟨body, congrArg ('/' :: ·) hbody⟩
      rw [List.cons_append, go_of_clear hclear] at h
      rcases Prod.mk.inj h with ⟨hspaced, hrest⟩
      have hrest : c :: mid = rest := List.append_cancel_right (List.cons_append.trans hrest)
      rw [hspaced, hrest]
  | case5 spaced =>
    have hclear := clear_of_go h
    have hlength := (go_suffix spaced more).length_le
    rw [List.nil_append] at h
    rw [h, List.length_append] at hlength
    have hrest : rest = [] := List.length_eq_zero_iff.1 (by omega)
    subst hrest
    rw [List.nil_append] at h hclear
    rw [go_of_clear hclear] at h
    rw [(Prod.mk.inj h).1]

theorem length_lt_of_quotedBody {quote : Char} {text cs answer rest : List Char}
    (h : quotedBody quote text cs = (some answer, rest))
    : rest.length < cs.length := by
  fun_induction quotedBody quote text cs with
  | case1 => cases h
  | case2 text cs =>
    cases h
    exact Nat.lt_succ_self _
  | case3 => cases h
  | case4 => cases h
  | case5 text escaped cs _ _ ih =>
    have := ih h
    simp only [List.length_cons]
    omega
  | case6 text c cs _ _ _ ih =>
    have := ih h
    simp only [List.length_cons]
    omega

theorem quotedBody_of_append {quote : Char} {text cs more answer rest : List Char}
    (h : quotedBody quote text (cs ++ more) = (some answer, rest ++ more))
    : quotedBody quote text cs = (some answer, rest) := by
  fun_induction quotedBody quote text cs with
  | case1 text =>
    have hlt := length_lt_of_quotedBody h
    rw [List.nil_append, List.length_append] at hlt
    omega
  | case2 text cs =>
    rw [List.cons_append, quotedBody_quote] at h
    rw [(Prod.mk.inj h).1, List.append_cancel_right (Prod.mk.inj h).2]
  | case3 text cs hquote =>
    rw [List.cons_append, quotedBody_newline hquote] at h
    cases h
  | case4 text hquote hline =>
    -- The escape would take a character of what follows.
    cases more with
    | nil =>
      rw [List.append_nil, List.append_nil, quotedBody.eq_def] at h
      simp [hquote] at h
    | cons c more =>
      rw [List.cons_append, List.nil_append, quotedBody_escape hquote] at h
      have hlt := length_lt_of_quotedBody h
      rw [List.length_append, List.length_cons] at hlt
      omega
  | case5 text escaped cs hquote hline ih =>
    rw [List.cons_append, List.cons_append, quotedBody_escape hquote] at h
    exact ih h
  | case6 text c cs hquote hline hescape ih =>
    rw [List.cons_append, quotedBody_cons hquote hline hescape] at h
    exact ih h

namespace Piece

variable {piece piece' : Piece} {cs mid more rest rest' : List Char}

theorem ReadFrom.ne_nil (h : piece.ReadFrom mid rest)
    : mid ≠ [] := by
  rintro rfl
  cases piece with
  | char c => cases h
  | quoted quote text => cases h.1

theorem suffix_of_readFrom (h : piece.ReadFrom mid rest)
    : rest <:+ mid := by
  cases piece with
  | char c =>
    cases h
    exact List.suffix_cons c rest
  | quoted quote text => exact (shrinks_readQuoted quote).suffix h.2

theorem readFrom_of_append (h : piece.ReadFrom (mid ++ more) (rest ++ more))
    : piece.ReadFrom mid rest := by
  cases piece with
  | char c => exact List.append_cancel_right (h.trans List.cons_append.symm)
  | quoted quote text =>
    rcases h with ⟨hfirst, hquoted⟩
    unfold readQuoted at hquoted
    split at hquoted
    . next text' rest' heq =>
      cases hquoted
      cases mid with
      | nil =>
        have hlt := length_lt_of_quotedBody heq
        rw [List.nil_append, List.length_append, List.length_tail] at hlt
        omega
      | cons c mid =>
        refine ⟨hfirst, ?_⟩
        unfold readQuoted
        rw [List.tail_cons, quotedBody_of_append heq]
    . cases hquoted

theorem readFrom_unique (hwf : piece.WellFormed) (hwf' : piece'.WellFormed)
    (h : piece.ReadFrom mid rest) (h' : piece'.ReadFrom mid rest')
    : piece = piece' ∧ rest = rest' := by
  cases piece with
  | char c =>
    cases h
    cases piece' with
    | char c' =>
      cases h'
      exact ⟨rfl, rfl⟩
    | quoted quote' text' =>
      cases h'.1
      exact Bool.noConfusion (hwf.2.symm.trans hwf')
  | quoted quote text =>
    cases piece' with
    | char c' =>
      cases h'
      cases h.1
      exact Bool.noConfusion (hwf'.2.symm.trans hwf)
    | quoted quote' text' =>
      rcases h with ⟨hfirst, hquoted⟩
      rcases h' with ⟨hfirst', hquoted'⟩
      cases hfirst.symm.trans hfirst'
      cases hquoted.symm.trans hquoted'
      exact ⟨rfl, rfl⟩

end Piece

namespace ValueText

inductive Splits : (cs : List Char) → (pieces : List (Bool × Piece)) → Prop where
  | nil {cs : List Char} {spaced : Bool} (hskip : skipTrivia cs = (.ok spaced, [])) : Splits cs []
  | cons {cs mid rest : List Char} {spaced : Bool} {piece : Piece} {pieces : List (Bool × Piece)}
      (hskip : skipTrivia cs = (.ok spaced, mid)) (hwf : piece.WellFormed)
      (hread : piece.ReadFrom mid rest) (h : Splits rest pieces) :
      Splits cs ((spaced, piece) :: pieces)

variable {terminator : Char}

theorem splits_of_loop {s : State} {cs rest : List Char} {pieces : List (Bool × Piece)}
    (h : Parser.loop (turn terminator) (turn_progress terminator) s (cs ++ rest)
      = (.ok pieces, rest))
    : ∃ more, pieces = s.pieces.reverse ++ more ∧ Splits cs more := by
  refine (Parser.loop_induction (motive := fun s text pieces rest => rest <:+ text ∧
    ∀ cs, cs ++ rest = text → ∃ more, pieces = s.pieces.reverse ++ more ∧ Splits cs more)
      ?_ ?_ h).2 cs rfl
  . intro s text pieces rest hdone
    rcases turn_eq_done_iff.1 hdone with ⟨rfl, spaced, hskip, -⟩
    refine ⟨shrinks_skipTrivia.suffix hskip, ?_⟩
    rintro cs rfl
    exact ⟨[], by simp, .nil (skipTrivia.go_of_append hskip)⟩
  . rintro s text s' after pieces rest hagain ⟨⟨front, rfl⟩, hmore⟩
    rcases hmore front rfl with ⟨more, rfl, hsplits⟩
    rcases turn_eq_again_iff.1 hagain with ⟨spaced, piece, mid, hskip, hwf, -, hread, rfl⟩
    have hmid : rest <:+ mid :=
      (List.suffix_append front rest).trans (piece.suffix_of_readFrom hread)
    refine ⟨hmid.trans (shrinks_skipTrivia.suffix hskip), ?_⟩
    rintro cs rfl
    rcases hmid with ⟨mid, rfl⟩
    exact ⟨(spaced, piece) :: more, by simp,
      .cons (skipTrivia.go_of_append hskip) hwf (piece.readFrom_of_append hread) hsplits⟩

theorem splits_of_read {cs rest : List Char} {text : String}
    (h : read terminator (cs ++ rest) = (.ok text, rest))
    : ∃ pieces, Splits cs pieces ∧ text = String.ofList (render pieces) := by
  rcases Parser.bind_eq_ok_iff.1 h with ⟨pieces, mid, hpieces, h⟩
  rcases Parser.pure_eq_ok_iff.1 h with ⟨rfl, rfl⟩
  rcases splits_of_loop hpieces with ⟨pieces, rfl, hsplits⟩
  exact ⟨pieces, hsplits, by simp⟩

namespace Splits

variable {cs mid rest w : List Char} {spaced : Bool} {c : Char} {piece : Piece}
variable {pieces : List (Bool × Piece)}

theorem wellFormed (h : Splits cs pieces)
    : ∀ mark ∈ pieces, mark.2.WellFormed := by
  induction h with
  | nil => simp
  | cons hskip hwf hread h ih => exact List.forall_mem_cons.2 ⟨hwf, ih⟩

theorem of_skipTrivia (h : Splits cs pieces) (hskip : skipTrivia cs = (.ok spaced, mid))
    : mid = [] ∧ pieces = [] ∨
        mid ≠ [] ∧ ∃ piece more, pieces = (spaced, piece) :: more ∧
          Splits mid ((false, piece) :: more) := by
  cases h with
  | nil hskip' =>
    rw [hskip'] at hskip
    cases hskip
    exact .inl ⟨rfl, rfl⟩
  | cons hskip' hwf hread h =>
    rw [hskip'] at hskip
    cases hskip
    refine .inr ⟨hread.ne_nil, _, _, rfl, .cons ?_ hwf hread h⟩
    exact skipTrivia_of_clear (clear_of_skipTrivia hskip')

theorem of_readFrom (h : Splits mid pieces) (hclear : Clear mid) (hwf : piece.WellFormed)
    (hread : piece.ReadFrom mid rest)
    : ∃ more, pieces = (false, piece) :: more ∧ Splits rest more := by
  cases h with
  | nil hskip =>
    rw [skipTrivia_of_clear hclear] at hskip
    cases hskip
    exact absurd rfl hread.ne_nil
  | cons hskip hwf' hread' h =>
    rw [skipTrivia_of_clear hclear] at hskip
    cases hskip
    rcases Piece.readFrom_unique hwf hwf' hread hread' with ⟨rfl, rfl⟩
    exact ⟨_, rfl, h⟩

theorem of_blank (h : Splits (c :: cs) pieces) (hc : Text.isBlank c = true)
    : ∃ more, Splits cs more ∧ stars more = stars pieces := by
  -- Behind the white space only the mark of the next piece may be another one.
  have hgo {spaced : Bool} {mid : List Char} (hskip : skipTrivia (c :: cs) = (.ok spaced, mid)) :
      ∃ spaced', skipTrivia cs = (.ok spaced', mid) := by
    have htrue : skipTrivia.go true cs = (.ok spaced, mid) :=
      (skipTrivia.go_blank hc false cs).symm.trans hskip
    apply skipSpace_eq_ok_iff.1
    rw [skipSpace_eq true, htrue]
    rfl
  cases h with
  | nil hskip =>
    rcases hgo hskip with ⟨spaced', hskip'⟩
    exact ⟨[], .nil hskip', rfl⟩
  | cons hskip hwf hread h =>
    rcases hgo hskip with ⟨spaced', hskip'⟩
    exact ⟨_, .cons hskip' hwf hread h, by rw [stars_cons, stars_cons]⟩

theorem of_char (h : Splits (c :: cs) pieces) (hblank : Text.isBlank c = false)
    (hquote : isQuote c = false) (hslash : c ≠ '/')
    : ∃ more, Splits cs more ∧ pieces = (false, .char c) :: more := by
  have hclear : Clear (c :: cs) := ⟨hblank, fun hcomment => hslash hcomment.1⟩
  have hwf : (Piece.char c).WellFormed := ⟨hblank, hquote⟩
  rcases h.of_readFrom hclear hwf rfl with ⟨more, rfl, hmore⟩
  exact ⟨more, hmore, rfl⟩

theorem of_append (h : Splits (w ++ cs) pieces)
    (hw : ∀ c ∈ w, Text.isBlank c = false ∧ isQuote c = false ∧ c ≠ '/')
    : ∃ more, Splits cs more ∧
        pieces.flatMap render.spaced = w ++ more.flatMap render.spaced := by
  induction w generalizing pieces with
  | nil => exact ⟨pieces, h, rfl⟩
  | cons c w ih =>
    rw [List.forall_mem_cons] at hw
    rcases hw with ⟨⟨hblank, hquote, hslash⟩, hw⟩
    rcases of_char h hblank hquote hslash with ⟨more, hmore, rfl⟩
    rcases ih hmore hw with ⟨more', hmore', hflat⟩
    refine ⟨more', hmore', ?_⟩
    rw [List.flatMap_cons, hflat]
    rfl

end Splits

end ValueText

end TreeStyle
