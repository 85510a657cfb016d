import TreeStyle.Proofs.Declaration.Important
import TreeStyle.Proofs.ValueText.Pieces
import TreeStyle.Reader

/-!
This module contains the normal form of values: what a value is read from and what is made of it
consist of the same pieces, apart from white space, of which single spaces are left.
-/

namespace TreeStyle

namespace ValueText

variable {terminator : Char}

def openBehind (pieces : List Piece) : Nat := pieces.foldl Piece.depthAfter 0

/--
The pieces of a value are what stands before the first place where it ends: at a semicolon or the
terminator, outside of parentheses.
-/
structure StopsBefore (terminator : Char) (source : List Piece) (rest : List Char) : Prop where
  clear : Clear rest
  ends : ∀ c ∈ rest.head?, Ends terminator (openBehind source) c
  first : ∀ before piece after, source = before ++ piece :: after → piece.isBlank = false →
    ¬Ends terminator (openBehind before) piece.first

def SinglySpaced (pieces : List Piece) : Prop :=
  ∀ before c after, pieces = before ++ .char c :: after → Text.isBlank c = true →
    c = ' ' ∧ ∃ front piece next back, before = front ++ [piece] ∧ after = next :: back ∧
      piece.isBlank = false ∧ next.isBlank = false

def layout (marks : List (Bool × Piece)) : List Piece := (unmarked marks).flatMap spaced
where
  spaced : Bool × Piece → List Piece
    | (true, piece) => [.char ' ', piece]
    | (false, piece) => [piece]

theorem exists_consistsOf_of_loop {s : State} {cs rest : List Char} {pieces : List (Bool × Piece)}
    (h : Parser.loop (turn terminator) (turn_progress terminator) s cs = (.ok pieces, rest))
    : ∃ more source, pieces = s.pieces.reverse ++ more ∧ ConsistsOf true rest cs source ∧
        source.filter (!·.isBlank) = more.map (·.2) ∧ Clear rest := by
  refine Parser.loop_induction (motive := fun s cs pieces rest =>
    ∃ more source, pieces = s.pieces.reverse ++ more ∧ ConsistsOf true rest cs source ∧
      source.filter (!·.isBlank) = more.map (·.2) ∧ Clear rest) ?_ ?_ h
  . intro s cs pieces rest hdone
    rcases turn_eq_done_iff.1 hdone with ⟨rfl, spaced, hskip, -⟩
    rcases exists_trivia_of_skipTrivia hskip with ⟨w, rfl, hw⟩
    rcases ConsistsOf.nil.exists_of_trivia hw with ⟨source, hsource, hfilter⟩
    exact ⟨[], source, by simp, hsource, hfilter, clear_of_skipTrivia hskip⟩
  . rintro s cs s' mid pieces rest hagain ⟨more, source, rfl, hsource, hfilter, hclear⟩
    rcases turn_eq_again_iff.1 hagain with ⟨spaced, piece, front, hskip, hwf, -, hread, rfl⟩
    have hpiece := piece.begins_of_readFrom (clear_of_skipTrivia hskip) hwf hread
    rcases exists_trivia_of_skipTrivia hskip with ⟨w, rfl, hw⟩
    -- What was skipped before the piece adds white space, which the filter takes out again.
    have hcons := ConsistsOf.piece hpiece hsource
    rcases hcons.exists_of_trivia hw with ⟨source', hsource', hfilter'⟩
    refine ⟨(spaced, piece) :: more, source', by simp, hsource', ?_, hclear⟩
    rw [hfilter', List.filter_cons_of_pos (by simp [hwf.isBlank_eq_false]), hfilter,
      List.map_cons]

theorem depthAfter_of_isBlank {piece : Piece} (h : piece.isBlank = true) (depth : Nat)
    : piece.depthAfter depth = depth := by
  cases piece with
  | char c =>
    refine (if_neg ?_).trans (if_neg ?_)
    . rintro rfl
      cases h
    . rintro rfl
      cases h
  | quoted quote text => rfl

theorem openBehind_eq_openAfter {source : List Piece} {marks : List (Bool × Piece)}
    (h : source.filter (!·.isBlank) = marks.map (·.2))
    : openBehind source = openAfter 0 marks := by
  have hmarks : openAfter 0 marks = (marks.map (·.2)).foldl Piece.depthAfter 0 :=
    List.foldl_map.symm
  unfold openBehind
  rw [hmarks, ← h, List.foldl_filter]
  congr 1
  funext depth piece
  split
  . rfl
  . next hblank => exact depthAfter_of_isBlank (by simpa using hblank) depth

theorem stopsBefore_of_goesOn {source : List Piece} {marks : List (Bool × Piece)} {rest : List Char}
    (hfilter : source.filter (!·.isBlank) = marks.map (·.2)) (hgoes : GoesOn terminator 0 marks)
    (hends : ∀ c ∈ rest.head?, Ends terminator (openAfter 0 marks) c) (hclear : Clear rest)
    : StopsBefore terminator source rest := by
  refine ⟨hclear, ?_, ?_⟩
  . rwa [openBehind_eq_openAfter hfilter]
  . rintro before piece after rfl hpiece
    rw [List.filter_append, List.filter_cons_of_pos (by simp [hpiece])] at hfilter
    rcases List.map_eq_append_iff.1 hfilter.symm with ⟨marks, marks', rfl, hbefore, hafter⟩
    rcases List.map_eq_cons_iff.1 hafter with ⟨mark, marks', rfl, rfl, -⟩
    rw [openBehind_eq_openAfter hbefore.symm]
    exact (goesOn_append_iff.1 hgoes).2.2.1

theorem consistsOf_flatMap {marks : List (Bool × Piece)}
    (hwf : ∀ mark ∈ marks, mark.2.WellFormed)
    : ConsistsOf false [] (marks.flatMap render.spaced) (marks.flatMap layout.spaced) := by
  induction marks with
  | nil => exact .nil
  | cons mark marks ih =>
    rw [List.forall_mem_cons] at hwf
    have hpiece := mark.2.begins_render hwf.1 (marks.flatMap render.spaced)
    rcases mark with ⟨spaced, piece⟩
    cases spaced with
    | false => exact .piece hpiece (ih hwf.2)
    | true => exact .piece (.char rfl (by simp)) (.piece hpiece (ih hwf.2))

theorem consistsOf_render {marks : List (Bool × Piece)}
    (hwf : ∀ mark ∈ marks, mark.2.WellFormed)
    : ConsistsOf false [] (render marks) (layout marks) := by
  rw [render_eq_flatMap_unmarked]
  exact consistsOf_flatMap (wellFormed_unmarked hwf)

theorem filter_flatMap {marks : List (Bool × Piece)} (hwf : ∀ mark ∈ marks, mark.2.WellFormed)
    : (marks.flatMap layout.spaced).filter (!·.isBlank) = marks.map (·.2) := by
  induction marks with
  | nil => rfl
  | cons mark marks ih =>
    rw [List.forall_mem_cons] at hwf
    rcases mark with ⟨spaced, piece⟩
    have hpiece : piece.isBlank = false := hwf.1.isBlank_eq_false
    rw [List.flatMap_cons, List.filter_append, ih hwf.2]
    cases spaced with
    | false => simp [layout.spaced, hpiece]
    | true =>
      have hspace : (Piece.char ' ').isBlank = true := rfl
      simp [layout.spaced, hpiece, hspace]

theorem filter_layout {marks : List (Bool × Piece)} (hwf : ∀ mark ∈ marks, mark.2.WellFormed)
    : (layout marks).filter (!·.isBlank) = marks.map (·.2) :=
  (filter_flatMap (wellFormed_unmarked hwf)).trans (map_unmarked marks)

namespace SinglySpaced

variable {piece next : Piece} {pieces : List Piece}

theorem nil : SinglySpaced [] := by
  intro before c after h
  simp at h

theorem cons (hpiece : piece.isBlank = false) (h : SinglySpaced pieces)
    : SinglySpaced (piece :: pieces) := by
  intro before c after happ hc
  cases before with
  | nil =>
    cases happ
    exact Bool.noConfusion (hc.symm.trans hpiece)
  | cons piece' before =>
    cases happ
    rcases h before c after rfl hc with ⟨hspace, front, last, next, back, rfl, hafter⟩
    exact ⟨hspace, piece :: front, last, next, back, rfl, hafter⟩

theorem cons_space (hpiece : piece.isBlank = false) (hnext : next.isBlank = false)
    (h : SinglySpaced (next :: pieces))
    : SinglySpaced (piece :: .char ' ' :: next :: pieces) := by
  intro before c after happ hc
  match before with
  | [] =>
    cases happ
    exact Bool.noConfusion (hc.symm.trans hpiece)
  | [_] =>
    cases happ
    exact ⟨rfl, [], piece, next, pieces, rfl, rfl, hpiece, hnext⟩
  | _ :: _ :: before =>
    simp only [List.cons_append, List.cons.injEq] at happ
    rcases happ with ⟨rfl, rfl, happ⟩
    rcases h before c after happ hc with ⟨hspace, front, last, next', back, rfl, hafter⟩
    exact ⟨hspace, piece :: .char ' ' :: front, last, next', back, rfl, hafter⟩

end SinglySpaced

theorem singlySpaced_cons_flatMap {piece : Piece} {marks : List (Bool × Piece)}
    (hpiece : piece.isBlank = false) (hwf : ∀ mark ∈ marks, mark.2.WellFormed)
    : SinglySpaced (piece :: marks.flatMap layout.spaced) := by
  induction marks generalizing piece with
  | nil => exact .cons hpiece .nil
  | cons mark marks ih =>
    rw [List.forall_mem_cons] at hwf
    rcases mark with ⟨spaced, next⟩
    have hnext : next.isBlank = false := hwf.1.isBlank_eq_false
    cases spaced with
    | false => exact .cons hpiece (ih hnext hwf.2)
    | true => exact .cons_space hpiece hnext (ih hnext hwf.2)

theorem singlySpaced_layout {marks : List (Bool × Piece)}
    (hwf : ∀ mark ∈ marks, mark.2.WellFormed)
    : SinglySpaced (layout marks) := by
  match marks with
  | [] => exact .nil
  | (spaced, piece) :: marks =>
    rw [List.forall_mem_cons] at hwf
    exact singlySpaced_cons_flatMap hwf.1.isBlank_eq_false hwf.2

theorem first_render_notBlank {marks : List (Bool × Piece)}
    (hwf : ∀ mark ∈ marks, mark.2.WellFormed)
    : ∀ c ∈ (render marks).head?, Text.isBlank c = false := by
  match marks with
  | [] => simp [render]
  | (spaced, piece) :: marks =>
    rw [List.forall_mem_cons] at hwf
    rw [render, piece.head?_render]
    rintro c ⟨⟩
    exact hwf.1.first_notBlank

theorem last_render_notBlank {marks : List (Bool × Piece)}
    (hwf : ∀ mark ∈ marks, mark.2.WellFormed)
    : ∀ c ∈ (render marks).getLast?, Text.isBlank c = false := by
  rw [render_eq_flatMap_unmarked]
  exact last_flatMap_notBlank (wellFormed_unmarked hwf)

theorem filterMap_literal?_filter (pieces : List Piece)
    : (pieces.filter (!·.isBlank)).filterMap Piece.literal? = pieces.filterMap Piece.literal? := by
  rw [List.filterMap_filter]
  congr 1
  funext piece
  cases piece with
  | char c => simp [Piece.literal?]
  | quoted quote text => rfl

/--
A value is read up to the end or the first place outside of comments, quoted texts and parentheses
where a semicolon or the terminator stands. What was read and what was made of it, where nothing
counts as a comment any more, consist of pieces in one way each. These are the same apart from white
space, quoted texts with their quotes included. The white space that is left are single spaces
between two other pieces.
-/
theorem read_normalForm {r r' : Reader} {text : String}
    (h : r.run (read terminator) = (.ok text, r'))
    : ∃ source value,
        (∀ pieces, ConsistsOf true r'.rest r.rest pieces ↔ pieces = source) ∧
        (∀ pieces, ConsistsOf false [] text.toList pieces ↔ pieces = value) ∧
        StopsBefore terminator source r'.rest ∧
        (∀ c ∈ text.toList.head?, Text.isBlank c = false) ∧
        (∀ c ∈ text.toList.getLast?, Text.isBlank c = false) ∧
        SinglySpaced value ∧
        value.filterMap Piece.literal? = source.filterMap Piece.literal? ∧
        value.filter (!·.isBlank) = source.filter (!·.isBlank) := by
  rcases (Reader.run_eq_ok_iff (shrinks_read terminator)).1 h with ⟨hread, -⟩
  rcases Parser.bind_eq_ok_iff.1 hread with ⟨marks, mid, hmarks, htext⟩
  rcases Parser.pure_eq_ok_iff.1 htext with ⟨rfl, rfl⟩
  rcases exists_consistsOf_of_loop hmarks with ⟨_, source, rfl, hsource, hfilter, hclear⟩
  rcases goesOn_of_loop hmarks with ⟨_, rfl, hgoes, hends⟩
  have hwf := hgoes.wellFormed
  have hvalue := consistsOf_render hwf
  have hvisible := (filter_layout hwf).trans hfilter.symm
  rw [String.toList_ofList]
  refine ⟨source, layout marks, fun _ => hsource.iff_eq, fun _ => hvalue.iff_eq,
    stopsBefore_of_goesOn hfilter hgoes hends hclear, first_render_notBlank hwf,
    last_render_notBlank hwf, singlySpaced_layout hwf, ?_, hvisible⟩
  rw [← filterMap_literal?_filter, hvisible, filterMap_literal?_filter]

theorem read_normalForm_quotedArgument
    : ∃ r', (Reader.ofText " f(\t'\\a;\\''/* ; */ ) ;b").run (read '}') =
          (.ok "f( 'a;\\'' )", r') ∧
        r'.rest = [';', 'b'] ∧
        ∃ source value, ConsistsOf true r'.rest " f(\t'\\a;\\''/* ; */ ) ;b".toList source ∧
          ConsistsOf false [] "f( 'a;\\'' )".toList value ∧ StopsBefore '}' source r'.rest ∧
          SinglySpaced value ∧ value.filter (!·.isBlank) = source.filter (!·.isBlank) := by
  have hrest : ((Reader.ofText " f(\t'\\a;\\''/* ; */ ) ;b").moveTo [';', 'b']).rest =
      [';', 'b'] := Reader.rest_moveTo (by decide +kernel)
  have hrun : (Reader.ofText " f(\t'\\a;\\''/* ; */ ) ;b").run (read '}') =
      (.ok "f( 'a;\\'' )", (Reader.ofText " f(\t'\\a;\\''/* ; */ ) ;b").moveTo [';', 'b']) := by
    refine (Reader.run_eq_ok_iff (shrinks_read '}')).2 ⟨?_, by rw [hrest]⟩
    rw [hrest, Parser.eq_ok_iff_toOption]
    decide +kernel
  rcases read_normalForm hrun with
    ⟨source, value, hsource, hvalue, hstops, -, -, hspaced, -, hvisible⟩
  exact ⟨_, hrun, hrest, source, value, (hsource source).2 rfl, (hvalue value).2 rfl, hstops,
    hspaced, hvisible⟩

end ValueText

end TreeStyle
