import TreeStyle.Proofs.Declaration.Important

/-!
This module contains what becomes of pieces that are not legible when their written form is read: a
line break is refused within quotes, and a comment takes the stars with it that begin and end it.
-/

namespace TreeStyle

theorem skipTrivia.go_comment_suffix {spaced spaced' : Bool} {body mid : List Char}
    (h : go spaced ('/' :: '*' :: body) = (.ok spaced', mid))
    : mid <:+ body := by
  unfold go at h
  split at h
  . next heq =>
    cases heq
    split at h
    . next rest hrest =>
      have := go_suffix spaced rest
      rw [h] at this
      exact this.trans (afterComment?_suffix hrest)
    . cases h
  . next hne heq =>
    cases heq
    exact absurd rfl (hne body rfl)
  . next heq => cases heq

theorem quotedBody_escaped_newline {quote : Char} {text : List Char}
    (hquote : isQuote quote = true) (htext : '\n' ∈ text) (before rest : List Char)
    : (quotedBody quote before (Piece.escaped quote text ++ rest)).1 = none := by
  have hslash : '\\' ≠ quote := (ne_of_isQuote hquote rfl).symm
  have hline : '\n' ≠ quote := (ne_of_isQuote hquote rfl).symm
  induction text generalizing before with
  | nil => cases htext
  | cons c text ih =>
    unfold Piece.escaped at *
    rw [List.flatMap_cons]
    split
    . next hc =>
      rw [List.append_assoc, List.cons_append, List.cons_append, quotedBody_escape hslash]
      apply ih
      rcases List.mem_cons.1 htext with rfl | htext
      . rcases hc with hc | hc
        . exact absurd hc hline
        . cases hc
      . exact htext
    . next hc =>
      rw [not_or] at hc
      rw [List.append_assoc, List.cons_append]
      by_cases hnewline : c = '\n'
      . subst hnewline
        rw [quotedBody_newline hline]
      . rw [quotedBody_cons hc.1 hnewline hc.2]
        apply ih
        rcases List.mem_cons.1 htext with rfl | htext
        . exact absurd rfl hnewline
        . exact htext

theorem Piece.readQuoted_render_newline {quote : Char} {text : List Char}
    (hquote : isQuote quote = true) (htext : '\n' ∈ text) (rest : List Char)
    : ∃ e after,
        readQuoted quote ((Piece.quoted quote text).render ++ rest) = (.error e, after) := by
  have hbody : (quotedBody quote [] ((Piece.quoted quote text).render ++ rest).tail).1 = none := by
    have := quotedBody_escaped_newline hquote htext [] (quote :: rest)
    simpa [Piece.render, Piece.escaped] using this
  unfold readQuoted
  split
  . next heq =>
    rw [heq] at hbody
    cases hbody
  . exact ⟨_, _, rfl⟩

theorem exists_stars_of_quotedBody {quote : Char} {before cs text rest : List Char}
    (h : quotedBody quote before cs = (some text, rest))
    : ∃ more, text = before.reverse ++ more ∧ more.count '*' + rest.count '*' ≤ cs.count '*' := by
  fun_induction quotedBody quote before cs with
  | case1 => cases h
  | case2 before cs =>
    cases h
    exact ⟨[], by simp, by simp [List.count_cons]⟩
  | case3 => cases h
  | case4 => cases h
  | case5 before escaped cs _ _ ih =>
    rcases ih h with ⟨more, rfl, hmore⟩
    refine ⟨escaped :: more, by simp, ?_⟩
    simp only [List.count_cons]
    omega
  | case6 before c cs _ _ _ ih =>
    rcases ih h with ⟨more, rfl, hmore⟩
    refine ⟨c :: more, by simp, ?_⟩
    simp only [List.count_cons]
    omega

namespace Piece

theorem count_escaped (quote : Char) (text : List Char)
    : (escaped quote text).count '*' = text.count '*' := by
  induction text with
  | nil => rfl
  | cons c text ih =>
    unfold escaped at *
    rw [List.flatMap_cons, List.count_append, ih, List.count_cons]
    split <;> simp [List.count_cons, Nat.add_comm]

theorem count_render_quoted {quote : Char} {text : List Char} (hquote : isQuote quote = true)
    : (quoted quote text).render.count '*' = text.count '*' := by
  have hne : quote ≠ '*' := ne_of_isQuote hquote rfl
  rw [← count_escaped quote text]
  simp [render, escaped, hne]

theorem stars_le_of_readFrom {piece : Piece} {cs rest : List Char} (hwf : piece.WellFormed)
    (h : piece.ReadFrom cs rest)
    : piece.render.count '*' + rest.count '*' ≤ cs.count '*' := by
  cases piece with
  | char c =>
    cases h
    simp [render, List.count_cons, Nat.add_comm]
  | quoted quote text =>
    rcases h with ⟨-, hquoted⟩
    unfold readQuoted at hquoted
    split at hquoted
    . next heq =>
      cases hquoted
      rcases exists_stars_of_quotedBody heq with ⟨more, htext, hcount⟩
      rw [List.reverse_nil, List.nil_append] at htext
      subst htext
      have hrender : (quoted quote text).render.count '*' = text.count '*' :=
        count_render_quoted hwf
      have htail : cs.tail.count '*' ≤ cs.count '*' := (List.tail_sublist cs).count_le '*'
      omega
    . cases hquoted

end Piece

namespace ValueText

variable {terminator : Char}

theorem exists_first_illegible {pieces : List (Bool × Piece)} (h : ¬Legible pieces)
    : ∃ front mark back, pieces = front ++ mark :: back ∧ Legible front ∧
        (¬mark.2.Legible ∨ mark.2 = .char '/' ∧ back.head? = some (false, .char '*')) := by
  induction pieces with
  | nil => exact absurd trivial h
  | cons mark pieces ih =>
    by_cases hpiece : mark.2.Legible
    . by_cases hjoint : mark.2 = .char '/' ∧ pieces.head? = some (false, .char '*')
      . exact ⟨[], mark, pieces, rfl, trivial, .inr hjoint⟩
      . rcases ih fun hpieces => h ⟨hpiece, hjoint, hpieces⟩ with
          ⟨front, mark', back, rfl, hfront, hmark'⟩
        refine ⟨mark :: front, mark', back, rfl, ⟨hpiece, ?_, hfront⟩, hmark'⟩
        rintro ⟨hslash, hstar⟩
        cases front with
        | nil => cases hstar
        | cons mark'' front => exact hjoint ⟨hslash, hstar⟩
    . exact ⟨[], mark, pieces, rfl, trivial, .inl hpiece⟩

def stars (pieces : List (Bool × Piece)) : Nat := (pieces.flatMap render.spaced).count '*'

theorem count_spaced (spaced : Bool) (piece : Piece)
    : (render.spaced (spaced, piece)).count '*' = piece.render.count '*' := by
  cases spaced with
  | false => rfl
  | true => simp [render.spaced]

theorem stars_cons (spaced : Bool) (piece : Piece) (pieces : List (Bool × Piece))
    : stars ((spaced, piece) :: pieces) = piece.render.count '*' + stars pieces := by
  unfold stars
  rw [List.flatMap_cons, List.count_append, count_spaced]

theorem stars_append (pieces pieces' : List (Bool × Piece))
    : stars (pieces ++ pieces') = stars pieces + stars pieces' := by
  unfold stars
  rw [List.flatMap_append, List.count_append]

theorem count_render (pieces : List (Bool × Piece))
    : (render pieces).count '*' = stars pieces := by
  cases pieces with
  | nil => rfl
  | cons mark pieces =>
    rcases mark with ⟨spaced, piece⟩
    rw [stars_cons, stars, ← List.count_append]
    rfl

theorem stars_le_of_loop {s : State} {cs rest : List Char} {pieces : List (Bool × Piece)}
    (h : Parser.loop (turn terminator) (turn_progress terminator) s cs = (.ok pieces, rest))
    : ∃ more spaced mid, pieces = s.pieces.reverse ++ more ∧ skipTrivia cs = (.ok spaced, mid) ∧
        stars more + rest.count '*' ≤ mid.count '*' := by
  refine Parser.loop_induction (motive := fun s cs pieces rest =>
    ∃ more spaced mid, pieces = s.pieces.reverse ++ more ∧ skipTrivia cs = (.ok spaced, mid) ∧
      stars more + rest.count '*' ≤ mid.count '*') ?_ ?_ h
  . intro s cs pieces rest hdone
    rcases turn_eq_done_iff.1 hdone with ⟨rfl, spaced, hskip, -⟩
    exact ⟨[], spaced, rest, by simp, hskip, by simp [stars]⟩
  . rintro s cs s' after pieces rest hagain ⟨more, spaced', mid', rfl, hskip', hmore⟩
    rcases turn_eq_again_iff.1 hagain with ⟨spaced, piece, mid, hskip, hwf, -, hread, rfl⟩
    refine ⟨(spaced, piece) :: more, spaced, mid, by simp, hskip, ?_⟩
    have hpiece := piece.stars_le_of_readFrom hwf hread
    have hafter := shrinks_skipTrivia after
    rw [hskip'] at hafter
    have := hafter.sublist.count_le '*'
    rw [stars_cons]
    dsimp only at *
    omega

theorem turn_illegible {spaced : Bool} {piece : Piece} {s : State} (hwf : piece.WellFormed)
    (hends : ¬Ends terminator s.depth piece.first) (hillegible : ¬piece.Legible)
    (rest : List Char)
    : ∃ e after, turn terminator s (render.spaced (spaced, piece) ++ rest) = (.error e, after) := by
  cases piece with
  | char c => exact absurd trivial hillegible
  | quoted quote text =>
    have hskip : skipTrivia (render.spaced (spaced, .quoted quote text) ++ rest) =
        (.ok spaced, (Piece.quoted quote text).render ++ rest) :=
      skipTrivia_spaced hwf (by simp)
    rcases Piece.readQuoted_render_newline hwf (Classical.not_not.1 hillegible) rest with
      ⟨e, after, hquoted⟩
    refine ⟨e, after, ?_⟩
    rw [turn_quoted hskip hends hwf, Parser.bind_apply]
    exact hquoted ▸ rfl

theorem skipTrivia_spaced_comment {spaced spaced' : Bool} {body mid : List Char}
    (h : skipTrivia (render.spaced (spaced, .char '/') ++ '*' :: body) = (.ok spaced', mid))
    : mid <:+ body := by
  cases spaced with
  | false => exact skipTrivia.go_comment_suffix h
  | true =>
    unfold skipTrivia skipTrivia.go at h
    exact skipTrivia.go_comment_suffix h

theorem head?_spaced_ne_star {spaced : Bool} {piece : Piece} (hpiece : piece.first ≠ '*')
    (rest : List Char)
    : (render.spaced (spaced, piece) ++ rest).head? ≠ some '*' := by
  cases spaced with
  | false =>
    have hhead := piece.head?_render rest
    unfold render.spaced
    rw [hhead]
    simpa using hpiece
  | true => simp [render.spaced]

theorem stars_lt_of_loop {pieces answer : List (Bool × Piece)} {s : State} {cs rest : List Char}
    (hgoes : GoesOn terminator s.depth pieces) (hillegible : ¬Legible pieces)
    (h : Parser.loop (turn terminator) (turn_progress terminator) s
      (pieces.flatMap render.spaced ++ cs) = (.ok answer, rest))
    : ∃ more, answer = s.pieces.reverse ++ more ∧
        stars more + rest.count '*' < stars pieces + cs.count '*' := by
  rcases exists_first_illegible hillegible with ⟨front, ⟨spaced, piece⟩, back, rfl, hfront, hmark⟩
  rw [goesOn_append_iff] at hgoes
  rcases hgoes with ⟨hgoes, hwf, hends, -⟩
  have hstar : piece.first ≠ '*' := by
    rcases hmark with hmark | ⟨hslash, -⟩
    . cases piece with
      | char c => exact absurd trivial hmark
      | quoted quote text =>
        rintro rfl
        cases hwf
    . cases hslash
      decide
  -- What stands before the first illegible piece is read back, so that it can be left out.
  rw [List.flatMap_append, List.flatMap_cons, List.append_assoc, List.append_assoc,
    loop_flatMap hgoes hfront (head?_spaced_ne_star hstar _)] at h
  rcases hmark with hmark | ⟨hslash, hback⟩
  . have herror : ∃ e after,
        turn terminator ⟨openAfter s.depth front, front.reverse ++ s.pieces⟩
          (render.spaced (spaced, piece) ++ (back.flatMap render.spaced ++ cs)) =
            (.error e, after) := turn_illegible hwf hends hmark _
    rcases herror with ⟨e, after, herror⟩
    rw [Parser.loop_of_error herror] at h
    cases h
  . cases hslash
    match back with
    | (_, _) :: back =>
      cases hback
      rcases stars_le_of_loop h with ⟨more, spaced', mid, rfl, hskip, hmore⟩
      have hmid : mid.count '*' ≤ (back.flatMap render.spaced ++ cs).count '*' :=
        (skipTrivia_spaced_comment hskip).sublist.count_le '*'
      have hstar : (Piece.char '*').render.count '*' = 1 := rfl
      refine ⟨front ++ more, by simp, ?_⟩
      rw [List.count_append] at hmid
      rw [stars_append, stars_append, stars_cons, stars_cons, hstar]
      unfold stars at *
      omega

theorem stars_lt_of_not_legible {pieces : List (Bool × Piece)} {cs rest : List Char}
    {text : String} (hne : pieces ≠ []) (hgoes : GoesOn terminator 0 pieces)
    (hillegible : ¬Legible pieces)
    (h : read terminator (' ' :: (render pieces ++ cs)) = (.ok text, rest))
    : text.toList.count '*' + rest.count '*' < stars pieces + cs.count '*' := by
  rcases Parser.bind_eq_ok_iff.1 h with ⟨answer, mid, hanswer, h⟩
  rcases Parser.pure_eq_ok_iff.1 h with ⟨rfl, rfl⟩
  match pieces, hne with
  | (spaced, piece) :: pieces, _ =>
    have hread : Parser.loop (turn terminator) (turn_progress terminator) {}
        (((true, piece) :: pieces).flatMap render.spaced ++ cs) = (.ok answer, mid) := by
      rw [List.flatMap_cons, List.append_assoc]
      rw [render, List.append_assoc] at hanswer
      exact hanswer
    have hgoes : GoesOn terminator 0 ((true, piece) :: pieces) := hgoes
    have hillegible : ¬Legible ((true, piece) :: pieces) := hillegible
    rcases stars_lt_of_loop (s := {}) hgoes hillegible hread with ⟨more, hmore, hlt⟩
    cases hmore
    rw [String.toList_ofList, count_render]
    rw [stars_cons] at *
    exact hlt

end ValueText

end TreeStyle
