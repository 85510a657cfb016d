import TreeStyle.Proofs.Lexing
import TreeStyle.ValueText

/-!
This module contains what the reading of a value makes of its pieces, and the pieces that are read
back from their written form.
-/

namespace TreeStyle

namespace Piece

def depthAfter (depth : Nat) : Piece → Nat
  | .char c => ValueText.depthAfter depth c
  | .quoted _ _ => depth

def first : Piece → Char
  | .char c => c
  | .quoted quote _ => quote

def WellFormed : Piece → Prop
  | .char c => Text.isBlank c = false ∧ isQuote c = false
  | .quoted quote _ => isQuote quote = true

def Legible : Piece → Prop
  | .char _ => True
  | .quoted _ text => '\n' ∉ text

def ReadFrom (cs rest : List Char) : Piece → Prop
  | .char c => cs = c :: rest
  | .quoted quote text => cs.head? = some quote ∧ readQuoted quote cs = (.ok text, rest)

end Piece

namespace ValueText

def Ends (terminator : Char) (depth : Nat) (c : Char) : Prop :=
  depth = 0 ∧ (c = ';' ∨ c = terminator)

def GoesOn (terminator : Char) : (depth : Nat) → List (Bool × Piece) → Prop
  | _, [] => True
  | depth, (_, piece) :: pieces =>
    piece.WellFormed ∧ ¬Ends terminator depth piece.first ∧
      GoesOn terminator (piece.depthAfter depth) pieces

def openAfter (depth : Nat) (pieces : List (Bool × Piece)) : Nat :=
  pieces.foldl (fun depth mark => mark.2.depthAfter depth) depth

/--
The written form can be read again: no quoted text goes on to another line, and no two pieces stand
together that would begin a comment.
-/
def Legible : List (Bool × Piece) → Prop
  | [] => True
  | (_, piece) :: pieces =>
    piece.Legible ∧ ¬(piece = .char '/' ∧ pieces.head? = some (false, .char '*')) ∧ Legible pieces

variable {terminator : Char}

theorem turn_nil {s : State} {cs : List Char} {spaced : Bool}
    (h : skipTrivia cs = (.ok spaced, []))
    : turn terminator s cs = (.ok (.done s.pieces.reverse), []) := by
  unfold turn
  rw [Parser.bind_apply, h]
  rfl

theorem turn_of_ends {s : State} {cs mid : List Char} {spaced : Bool} {c : Char}
    (h : skipTrivia cs = (.ok spaced, c :: mid)) (hends : Ends terminator s.depth c)
    : turn terminator s cs = (.ok (.done s.pieces.reverse), c :: mid) := by
  unfold turn
  rw [Parser.bind_apply, h]
  refine (Parser.bind_apply _ _ _).trans ?_
  exact congrFun (if_pos hends) _

theorem turn_quoted {s : State} {cs mid : List Char} {spaced : Bool} {c : Char}
    (h : skipTrivia cs = (.ok spaced, c :: mid)) (hends : ¬Ends terminator s.depth c)
    (hc : isQuote c = true)
    : turn terminator s cs =
        (do
          let text ← readQuoted c
          return .again { s with pieces := (spaced, .quoted c text) :: s.pieces } :
            Parser (Turn State (List (Bool × Piece)))) (c :: mid) := by
  unfold turn
  rw [Parser.bind_apply, h]
  refine (Parser.bind_apply _ _ _).trans ?_
  exact congrFun ((if_neg hends).trans (if_pos hc)) _

theorem turn_char {s : State} {cs mid : List Char} {spaced : Bool} {c : Char}
    (h : skipTrivia cs = (.ok spaced, c :: mid)) (hends : ¬Ends terminator s.depth c)
    (hc : isQuote c = false)
    : turn terminator s cs =
        (.ok (.again ⟨depthAfter s.depth c, (spaced, .char c) :: s.pieces⟩), mid) := by
  unfold turn
  rw [Parser.bind_apply, h]
  refine (Parser.bind_apply _ _ _).trans ?_
  exact congrFun ((if_neg hends).trans (if_neg (by simp [hc]))) _

theorem turn_eq_again_iff {s s' : State} {cs rest : List Char}
    : turn terminator s cs = (.ok (.again s'), rest)
        ↔
      ∃ spaced piece mid, skipTrivia cs = (.ok spaced, mid) ∧ piece.WellFormed ∧
        ¬Ends terminator s.depth piece.first ∧ piece.ReadFrom mid rest ∧
        s' = ⟨piece.depthAfter s.depth, (spaced, piece) :: s.pieces⟩ := by
  constructor
  . intro h
    rcases Parser.bind_eq_ok_iff.1 h with ⟨spaced, mid, hskip, -⟩
    match mid with
    | [] =>
      rw [turn_nil hskip] at h
      cases h
    | c :: mid =>
      by_cases hends : Ends terminator s.depth c
      . rw [turn_of_ends hskip hends] at h
        cases h
      . cases hc : isQuote c with
        | true =>
          rw [turn_quoted hskip hends hc] at h
          rcases Parser.bind_eq_ok_iff.1 h with ⟨text, _, hquoted, h⟩
          rcases Parser.pure_eq_ok_iff.1 h with ⟨hstate, rfl⟩
          cases hstate
          exact ⟨spaced, .quoted c text, _, hskip, hc, hends, ⟨rfl, hquoted⟩, rfl⟩
        | false =>
          rw [turn_char hskip hends hc] at h
          cases h
          have hblank := (clear_of_skipTrivia hskip).1
          exact ⟨spaced, .char c, _, hskip, ⟨hblank, hc⟩, hends, rfl, rfl⟩
  . rintro ⟨spaced, piece, mid, hskip, hpiece, hends, hread, rfl⟩
    cases piece with
    | char c =>
      cases hread
      exact turn_char hskip hends hpiece.2
    | quoted quote text =>
      rcases hread with ⟨hfirst, hquoted⟩
      match mid with
      | c :: mid =>
        cases hfirst
        rw [turn_quoted hskip hends hpiece, Parser.bind_apply, hquoted]
        rfl

theorem turn_eq_done_iff {s : State} {cs rest : List Char} {pieces : List (Bool × Piece)}
    : turn terminator s cs = (.ok (.done pieces), rest)
        ↔
      pieces = s.pieces.reverse ∧ ∃ spaced, skipTrivia cs = (.ok spaced, rest) ∧
        ∀ c ∈ rest.head?, Ends terminator s.depth c := by
  constructor
  . intro h
    rcases Parser.bind_eq_ok_iff.1 h with ⟨spaced, mid, hskip, -⟩
    match mid with
    | [] =>
      rw [turn_nil hskip] at h
      cases h
      exact ⟨rfl, spaced, hskip, by simp⟩
    | c :: mid =>
      by_cases hends : Ends terminator s.depth c
      . rw [turn_of_ends hskip hends] at h
        cases h
        exact ⟨rfl, spaced, hskip, by simpa using hends⟩
      . cases hc : isQuote c with
        | true =>
          rw [turn_quoted hskip hends hc] at h
          rcases Parser.bind_eq_ok_iff.1 h with ⟨text, _, hquoted, h⟩
          simp [Parser.pure_eq_ok_iff] at h
        | false =>
          rw [turn_char hskip hends hc] at h
          cases h
  . rintro ⟨rfl, spaced, hskip, hends⟩
    match rest with
    | [] => exact turn_nil hskip
    | c :: rest => exact turn_of_ends hskip (hends c rfl)

theorem goesOn_of_loop {s : State} {cs rest : List Char} {pieces : List (Bool × Piece)}
    (h : Parser.loop (turn terminator) (turn_progress terminator) s cs = (.ok pieces, rest))
    : ∃ more, pieces = s.pieces.reverse ++ more ∧ GoesOn terminator s.depth more ∧
        ∀ c ∈ rest.head?, Ends terminator (openAfter s.depth more) c := by
  refine Parser.loop_induction (motive := fun s _ pieces rest =>
    ∃ more, pieces = s.pieces.reverse ++ more ∧ GoesOn terminator s.depth more ∧
      ∀ c ∈ rest.head?, Ends terminator (openAfter s.depth more) c) ?_ ?_ h
  . intro s cs pieces rest hdone
    rcases turn_eq_done_iff.1 hdone with ⟨rfl, spaced, -, hends⟩
    exact ⟨[], by simp, trivial, hends⟩
  -- The turn leaves the depth behind its piece in the state, where the other pieces begin.
  . rintro s cs s' mid pieces rest hagain ⟨more, rfl, hmore, hends⟩
    rcases turn_eq_again_iff.1 hagain with ⟨spaced, piece, mid, -, hpiece, hgoes, -, rfl⟩
    exact ⟨(spaced, piece) :: more, by simp, ⟨hpiece, hgoes, hmore⟩, hends⟩

theorem exists_pieces_of_read {cs rest : List Char} {text : String}
    (h : read terminator cs = (.ok text, rest))
    : ∃ pieces, GoesOn terminator 0 pieces ∧ text = String.ofList (render pieces) ∧
        (rest ≠ [] → openAfter 0 pieces = 0) := by
  rcases Parser.bind_eq_ok_iff.1 h with ⟨pieces, mid, hpieces, h⟩
  rcases Parser.pure_eq_ok_iff.1 h with ⟨rfl, rfl⟩
  rcases goesOn_of_loop hpieces with ⟨pieces, rfl, hgoes, hends⟩
  refine ⟨pieces, hgoes, by simp, ?_⟩
  intro hne
  match mid with
  | c :: mid => exact (hends c rfl).1

end ValueText

def Piece.escaped (quote : Char) (text : List Char) : List Char :=
  text.flatMap fun c => if c = quote ∨ c = '\\' then ['\\', c] else [c]

theorem quotedBody_escaped {quote : Char} {text : List Char} (hquote : isQuote quote = true)
    (htext : '\n' ∉ text) (before rest : List Char)
    : quotedBody quote before (Piece.escaped quote text ++ quote :: rest) =
        (some (before.reverse ++ text), rest) := by
  have hslash : '\\' ≠ quote := (ne_of_isQuote hquote rfl).symm
  induction text generalizing before with
  | nil => simp [Piece.escaped, quotedBody_quote]
  | cons c text ih =>
    rw [List.mem_cons, not_or] at htext
    have hrest := ih htext.2 (c :: before)
    rw [List.reverse_cons, List.append_assoc] at hrest
    unfold Piece.escaped at *
    rw [List.flatMap_cons]
    split
    . rw [List.append_assoc, List.cons_append, List.cons_append, quotedBody_escape hslash]
      exact hrest
    . next hc =>
      rw [not_or] at hc
      rw [List.append_assoc, List.cons_append, quotedBody_cons hc.1 (Ne.symm htext.1) hc.2]
      exact hrest

namespace Piece

variable {piece : Piece}

theorem readFrom_render (hwf : piece.WellFormed) (hlegible : piece.Legible) (rest : List Char)
    : piece.ReadFrom (piece.render ++ rest) rest := by
  cases piece with
  | char c => rfl
  | quoted quote text =>
    have hbody := quotedBody_escaped hwf hlegible [] rest
    have htail : ((quoted quote text).render ++ rest).tail =
        escaped quote text ++ quote :: rest := by
      simp [render, escaped]
    refine ⟨rfl, ?_⟩
    unfold readQuoted
    rw [htail, hbody]
    rfl

theorem head?_render (piece : Piece) (rest : List Char)
    : (piece.render ++ rest).head? = some piece.first := by
  cases piece <;> rfl

theorem clear_render (hwf : piece.WellFormed) {rest : List Char}
    (hapart : ¬(piece = .char '/' ∧ rest.head? = some '*'))
    : Clear (piece.render ++ rest) := by
  cases piece with
  | char c =>
    refine ⟨hwf.1, ?_⟩
    rintro ⟨rfl, hrest⟩
    exact hapart ⟨rfl, hrest⟩
  | quoted quote text =>
    rcases isQuote_cases hwf with rfl | rfl
    . exact ⟨rfl, by simp⟩
    . exact ⟨rfl, by simp⟩

end Piece

namespace ValueText

variable {terminator : Char}

theorem GoesOn.wellFormed {depth : Nat} {pieces : List (Bool × Piece)}
    (h : GoesOn terminator depth pieces)
    : ∀ mark ∈ pieces, mark.2.WellFormed := by
  induction pieces generalizing depth with
  | nil => simp
  | cons mark pieces ih => exact List.forall_mem_cons.2 ⟨h.1, ih h.2.2⟩

theorem skipTrivia_spaced {spaced : Bool} {piece : Piece} (hwf : piece.WellFormed)
    {rest : List Char} (hapart : ¬(piece = .char '/' ∧ rest.head? = some '*'))
    : skipTrivia (render.spaced (spaced, piece) ++ rest) =
        (.ok spaced, piece.render ++ rest) := by
  cases spaced with
  | false => exact skipTrivia_of_clear (piece.clear_render hwf hapart)
  | true => exact skipTrivia_blank rfl (piece.clear_render hwf hapart)

theorem head?_flatMap_ne_star {pieces : List (Bool × Piece)} {rest : List Char}
    (hpieces : pieces.head? ≠ some (false, .char '*')) (hwf : ∀ mark ∈ pieces, mark.2.WellFormed)
    (hrest : rest.head? ≠ some '*')
    : (pieces.flatMap render.spaced ++ rest).head? ≠ some '*' := by
  match pieces with
  | [] => exact hrest
  | (true, piece) :: pieces =>
    simp [render.spaced]
  | (false, piece) :: pieces =>
    rw [List.flatMap_cons, List.append_assoc]
    refine fun hstar => ?_
    have hfirst : piece.first = '*' := Option.some.inj ((piece.head?_render _).symm.trans hstar)
    cases piece with
    | char c =>
      cases hfirst
      exact hpieces rfl
    | quoted quote text =>
      cases hfirst
      cases hwf _ (List.mem_cons_self)

theorem openAfter_append (depth : Nat) (pieces pieces' : List (Bool × Piece))
    : openAfter depth (pieces ++ pieces') = openAfter (openAfter depth pieces) pieces' :=
  List.foldl_append

theorem goesOn_append_iff {depth : Nat} {pieces pieces' : List (Bool × Piece)}
    : GoesOn terminator depth (pieces ++ pieces')
        ↔
      GoesOn terminator depth pieces ∧ GoesOn terminator (openAfter depth pieces) pieces' := by
  induction pieces generalizing depth with
  | nil => simp [GoesOn, openAfter]
  | cons mark pieces ih =>
    rw [List.cons_append, GoesOn, GoesOn, ih, and_assoc, and_assoc]
    rfl

theorem legible_append {pieces pieces' : List (Bool × Piece)} (h : Legible pieces)
    (h' : Legible pieces') (hjoint : pieces'.head? ≠ some (false, .char '*'))
    : Legible (pieces ++ pieces') := by
  induction pieces with
  | nil => exact h'
  | cons mark pieces ih =>
    rcases h with ⟨hpiece, hapart, h⟩
    refine ⟨hpiece, ?_, ih h⟩
    rintro ⟨hslash, hstar⟩
    cases pieces with
    | nil => exact hjoint hstar
    | cons mark' pieces => exact hapart ⟨hslash, hstar⟩

theorem legible_of_append {pieces pieces' : List (Bool × Piece)}
    (h : Legible (pieces ++ pieces'))
    : Legible pieces := by
  induction pieces with
  | nil => trivial
  | cons mark pieces ih =>
    rcases h with ⟨hpiece, hapart, h⟩
    refine ⟨hpiece, ?_, ih h⟩
    rintro ⟨hslash, hstar⟩
    cases pieces with
    | nil => cases hstar
    | cons mark' pieces => exact hapart ⟨hslash, hstar⟩

theorem loop_flatMap {pieces : List (Bool × Piece)} {s : State} {rest : List Char}
    (hgoes : GoesOn terminator s.depth pieces) (hlegible : Legible pieces)
    (hrest : rest.head? ≠ some '*')
    : Parser.loop (turn terminator) (turn_progress terminator) s
          (pieces.flatMap render.spaced ++ rest) =
        Parser.loop (turn terminator) (turn_progress terminator)
          ⟨openAfter s.depth pieces, pieces.reverse ++ s.pieces⟩ rest := by
  induction pieces generalizing s with
  | nil => rfl
  | cons mark pieces ih =>
    rcases mark with ⟨spaced, piece⟩
    rcases hgoes with ⟨hwf, hends, hgoes⟩
    rcases hlegible with ⟨hpiece, hjoint, hlegible⟩
    -- No comment begins where the piece meets what follows it.
    have hapart : ¬(piece = .char '/' ∧
        (pieces.flatMap render.spaced ++ rest).head? = some '*') := by
      rintro ⟨rfl, hstar⟩
      exact head?_flatMap_ne_star (fun h => hjoint ⟨rfl, h⟩) hgoes.wellFormed hrest hstar
    have hagain : turn terminator s
        (render.spaced (spaced, piece) ++ (pieces.flatMap render.spaced ++ rest)) =
          (.ok (.again ⟨piece.depthAfter s.depth, (spaced, piece) :: s.pieces⟩),
            pieces.flatMap render.spaced ++ rest) :=
      turn_eq_again_iff.2 ⟨spaced, piece, _, skipTrivia_spaced hwf hapart, hwf, hends,
        piece.readFrom_render hwf hpiece _, rfl⟩
    rw [List.flatMap_cons, List.append_assoc, Parser.loop_of_again hagain, ih hgoes hlegible,
      List.reverse_cons, List.append_assoc]
    rfl

theorem readPieces_flatMap {pieces : List (Bool × Piece)} {rest : List Char}
    (hgoes : GoesOn terminator 0 pieces) (hlegible : Legible pieces)
    (hstar : rest.head? ≠ some '*') (hclear : Clear rest)
    (hends : ∀ c ∈ rest.head?, Ends terminator (openAfter 0 pieces) c)
    : readPieces terminator (pieces.flatMap render.spaced ++ rest) = (.ok pieces, rest) := by
  refine (loop_flatMap (s := {}) hgoes hlegible hstar).trans (Parser.loop_of_done ?_)
  exact turn_eq_done_iff.2 ⟨by simp, false, skipTrivia_of_clear hclear, hends⟩

theorem read_render_append {pieces : List (Bool × Piece)} {rest : List Char} (hne : pieces ≠ [])
    (hgoes : GoesOn terminator 0 pieces) (hlegible : Legible pieces)
    (hstar : rest.head? ≠ some '*') (hclear : Clear rest)
    (hends : ∀ c ∈ rest.head?, Ends terminator (openAfter 0 pieces) c)
    : read terminator (' ' :: (render pieces ++ rest)) =
        (.ok (String.ofList (render pieces)), rest) := by
  match pieces, hne with
  | (spaced, piece) :: pieces, _ =>
    -- The space before the value marks the first piece, and the written form drops that mark.
    have hread : readPieces terminator (((true, piece) :: pieces).flatMap render.spaced ++ rest) =
        (.ok ((true, piece) :: pieces), rest) :=
      readPieces_flatMap hgoes hlegible hstar hclear hends
    rw [List.flatMap_cons, List.append_assoc] at hread
    refine Parser.bind_eq_ok_iff.2 ⟨(true, piece) :: pieces, _, ?_, rfl⟩
    rw [render, List.append_assoc]
    exact hread

theorem read_render {pieces : List (Bool × Piece)} {rest : List Char} (hne : pieces ≠ [])
    (hgoes : GoesOn terminator 0 pieces) (hlegible : Legible pieces)
    (hclosed : openAfter 0 pieces = 0)
    : read terminator (' ' :: (render pieces ++ ';' :: rest)) =
        (.ok (String.ofList (render pieces)), ';' :: rest) := by
  have hclear : Clear (';' :: rest) := ⟨rfl, by simp⟩
  apply read_render_append hne hgoes hlegible (by simp) hclear
  rintro c ⟨⟩
  exact ⟨hclosed, .inl rfl⟩

theorem render_concat {pieces : List (Bool × Piece)} (hne : pieces ≠ []) (c : Char)
    : render (pieces ++ [(false, Piece.char c)]) = render pieces ++ [c] := by
  match pieces, hne with
  | (spaced, piece) :: pieces, _ =>
    rw [List.cons_append, render, render, List.flatMap_append, List.append_assoc]
    rfl

theorem read_render_unclosed {pieces : List (Bool × Piece)} (hne : pieces ≠ [])
    (hgoes : GoesOn terminator 0 pieces) (hlegible : Legible pieces)
    (hopen : openAfter 0 pieces ≠ 0)
    : read terminator (' ' :: (render pieces ++ [';'])) =
        (.ok (String.ofList (render pieces ++ [';'])), []) := by
  have hsemicolon : GoesOn terminator (openAfter 0 pieces) [(false, Piece.char ';')] :=
    ⟨⟨rfl, rfl⟩, fun h => hopen h.1, trivial⟩
  have hlast : Legible [(false, Piece.char ';')] := ⟨trivial, by simp, trivial⟩
  have hclear : Clear [] := trivial
  rw [← render_concat hne, ← List.append_nil (render _)]
  rw [read_render_append (by simp) (goesOn_append_iff.2 ⟨hgoes, hsemicolon⟩)
    (legible_append hlegible hlast (by simp)) (by simp) hclear (by simp), List.append_nil]

end ValueText

end TreeStyle
