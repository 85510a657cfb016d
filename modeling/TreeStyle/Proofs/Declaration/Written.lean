import TreeStyle.Declaration.Parser
import TreeStyle.Proofs.Declaration.Important
import TreeStyle.Proofs.Lexing.Spelling

/-!
This module contains the proof that the written form of a declaration is read back as that
declaration, and what reading tells about the declarations of a block.
-/

namespace TreeStyle

theorem Token.skipOnly_sign {c : Char} (h : IsSign c) (cs : List Char)
    : Token.skipOnly (.delim c) (c :: cs) = (.ok (), cs) := by
  have hnext := h.next_cons cs
  refine Token.peek_bind_eq_ok_iff.2 ⟨_, _, hnext, ?_⟩
  rw [if_pos rfl]
  exact Parser.bind_eq_ok_iff.2 ⟨_, _, hnext, rfl⟩

namespace RawDeclaration

theorem render_plain (name value : String)
    : (plain name value).render = name ++ ": " ++ value ++ ";" := by
  unfold plain render
  rw [if_neg Bool.false_ne_true, String.append_empty]

/--
The property is a name, and the pieces make up the value, which does not end with the mark of
important declarations unless the declaration is important.
-/
structure SpelledBy (d : RawDeclaration) (pieces : List (Bool × Piece)) : Prop where
  name : IsName d.property.toList
  ne_nil : pieces ≠ []
  goesOn : ValueText.GoesOn '}' 0 pieces
  value : d.value.toList = ValueText.render pieces
  plain : d.important = false → splitImportant d.value.toList = (d.value.toList, false)

def Readable (d : RawDeclaration) : Prop :=
  ∃ pieces, d.SpelledBy pieces ∧ ValueText.Legible pieces ∧ ValueText.openAfter 0 pieces = 0

def writtenPieces (d : RawDeclaration) (pieces : List (Bool × Piece)) : List (Bool × Piece) :=
  if d.important then pieces ++ ValueText.importantPieces else pieces

namespace SpelledBy

variable {d : RawDeclaration} {pieces : List (Bool × Piece)}

theorem render_writtenPieces (h : d.SpelledBy pieces)
    : ValueText.render (d.writtenPieces pieces) =
        d.value.toList ++ (if d.important then ' ' :: importantMark else []) := by
  unfold writtenPieces
  cases d.important with
  | false => rw [if_neg (by decide), if_neg (by decide), h.value, List.append_nil]
  | true =>
    rw [if_pos rfl, if_pos rfl, ValueText.render_append_importantPieces h.ne_nil, h.value]

theorem toList_render (h : d.SpelledBy pieces) (rest : List Char)
    : d.render.toList ++ rest =
        d.property.toList ++
          ':' :: ' ' :: (ValueText.render (d.writtenPieces pieces) ++ ';' :: rest) := by
  have hmark : (if d.important then " !important" else "").toList =
      if d.important then ' ' :: importantMark else [] := by
    split <;> rfl
  have hcolon : ": ".toList = [':', ' '] := rfl
  have hsemicolon : ";".toList = [';'] := rfl
  rw [h.render_writtenPieces, render]
  simp only [String.toList_append, hmark, hcolon, hsemicolon, List.append_assoc,
    List.cons_append, List.nil_append]

theorem splitImportant_render (h : d.SpelledBy pieces)
    : splitImportant (ValueText.render (d.writtenPieces pieces)) =
        (d.value.toList, d.important) := by
  rw [h.render_writtenPieces]
  cases himportant : d.important with
  | false =>
    rw [if_neg (by decide), List.append_nil]
    exact h.plain himportant
  | true =>
    rw [if_pos rfl, splitImportant_append]
    rw [h.value]
    exact ValueText.trimEnd_render h.goesOn.wellFormed

theorem writtenPieces_ne_nil (h : d.SpelledBy pieces)
    : d.writtenPieces pieces ≠ [] := by
  unfold writtenPieces
  split
  . simp [h.ne_nil]
  . exact h.ne_nil

theorem goesOn_writtenPieces (h : d.SpelledBy pieces)
    : ValueText.GoesOn '}' 0 (d.writtenPieces pieces) := by
  unfold writtenPieces
  split
  . exact ValueText.goesOn_append_iff.2 ⟨h.goesOn, ValueText.goesOn_importantPieces _⟩
  . exact h.goesOn

theorem value_ne_nil (h : d.SpelledBy pieces)
    : d.value.toList ≠ [] := by
  rw [h.value]
  match pieces, h.ne_nil with
  | (spaced, piece) :: pieces, _ => cases piece <;> simp [ValueText.render, Piece.render]

end SpelledBy

theorem openAfter_writtenPieces (d : RawDeclaration) (pieces : List (Bool × Piece))
    : ValueText.openAfter 0 (d.writtenPieces pieces) = ValueText.openAfter 0 pieces := by
  unfold writtenPieces
  split
  . rw [ValueText.openAfter_append, ValueText.openAfter_importantPieces]
  . rfl

theorem legible_writtenPieces (d : RawDeclaration) {pieces : List (Bool × Piece)}
    (h : ValueText.Legible pieces)
    : ValueText.Legible (d.writtenPieces pieces) := by
  unfold writtenPieces
  split
  . exact ValueText.legible_append h ValueText.legible_importantPieces (by decide)
  . exact h

theorem readValueOf_of_read {property text : String} {terminator : Char}
    {cs last rest value : List Char} {important : Bool}
    (hread : ValueText.read terminator cs = (.ok text, last))
    (hskip : Token.skipOnly (.delim ';') last = (.ok (), rest))
    (hsplit : splitImportant text.toList = (value, important)) (hne : value ≠ [])
    : readValueOf property terminator (':' :: cs) =
        (.ok (some ⟨property, String.ofList value, important⟩), rest) := by
  have hcolon : IsSign ':' := isSign_of_mem (by decide)
  refine Parser.bind_eq_ok_iff.2 ⟨(), _, skipSpace_of_clear (hcolon.clear_cons _), ?_⟩
  refine Parser.bind_eq_ok_iff.2 ⟨_, _, hcolon.next_cons _, ?_⟩
  refine Parser.bind_eq_ok_iff.2 ⟨text, last, hread, ?_⟩
  refine Parser.bind_eq_ok_iff.2 ⟨(), rest, hskip, ?_⟩
  rw [hsplit]
  exact Parser.pure_eq_ok_iff.2 ⟨if_neg (by simpa using hne), rfl⟩

theorem turn_of_readValueOf {property : String} {terminator : Char} {required : Bool}
    {d : RawDeclaration} {before : List RawDeclaration} {cs mid start rest : List Char}
    (hskip : skipSpace cs = (.ok (), mid)) (hnext : Token.next mid = (.ok (.ident property), start))
    (hvalue : readValueOf property terminator start = (.ok (some d), rest))
    : turn terminator required before cs = (.ok (.again (d :: before)), rest) := by
  refine Parser.bind_eq_ok_iff.2 ⟨(), mid, hskip, ?_⟩
  refine Parser.bind_eq_ok_iff.2 ⟨_, start, hnext, ?_⟩
  exact Parser.bind_eq_ok_iff.2 ⟨some d, rest, hvalue, rfl⟩

theorem SpelledBy.next_render {d : RawDeclaration} {pieces : List (Bool × Piece)}
    (h : d.SpelledBy pieces) (rest : List Char)
    : Token.next (d.render.toList ++ rest) =
        (.ok (.ident d.property),
          ':' :: ' ' :: (ValueText.render (d.writtenPieces pieces) ++ ';' :: rest)) := by
  have hcolon : IsSign ':' := isSign_of_mem (by decide)
  rw [h.toList_render, h.name.next_append (hcolon.endsName_cons _), String.ofList_toList]

theorem SpelledBy.clear_render {d : RawDeclaration} {pieces : List (Bool × Piece)}
    (h : d.SpelledBy pieces) (rest : List Char)
    : Clear (d.render.toList ++ rest) := by
  rw [h.toList_render]
  exact h.name.clear_append

theorem Readable.clear_render {d : RawDeclaration} (h : d.Readable) (rest : List Char)
    : Clear (d.render.toList ++ rest) := by
  rcases h with ⟨pieces, hspelled, -⟩
  exact hspelled.clear_render rest

theorem Readable.turn_render {d : RawDeclaration} (h : d.Readable) (required : Bool)
    (before : List RawDeclaration) {cs rest : List Char}
    (hcs : skipSpace cs = (.ok (), d.render.toList ++ rest))
    : turn '}' required before cs = (.ok (.again (d :: before)), rest) := by
  rcases h with ⟨pieces, hspelled, hlegible, hclosed⟩
  have hsemicolon : IsSign ';' := isSign_of_mem (by decide)
  have hread : ValueText.read '}'
      (' ' :: (ValueText.render (d.writtenPieces pieces) ++ ';' :: rest)) = (.ok _, _) :=
    ValueText.read_render hspelled.writtenPieces_ne_nil hspelled.goesOn_writtenPieces
      (d.legible_writtenPieces hlegible) ((d.openAfter_writtenPieces pieces).trans hclosed)
  apply turn_of_readValueOf hcs (hspelled.next_render rest)
  rw [readValueOf_of_read hread (Token.skipOnly_sign hsemicolon rest)
    (by rw [String.toList_ofList, hspelled.splitImportant_render]) hspelled.value_ne_nil,
    String.ofList_toList]

def renderSpaced (ds : List RawDeclaration) : List Char := ds.flatMap (' ' :: ·.render.toList)

variable {required : Bool}

theorem loop_renderSpaced {ds : List RawDeclaration} (h : ∀ d ∈ ds, d.Readable)
    (before : List RawDeclaration) (rest : List Char)
    : Parser.loop (turn '}' required) (turn_progress '}' required) before
          (renderSpaced ds ++ rest) =
        Parser.loop (turn '}' required) (turn_progress '}' required) (ds.reverse ++ before)
          rest := by
  induction ds generalizing before with
  | nil => rfl
  | cons d ds ih =>
    rw [List.forall_mem_cons] at h
    have hskip : skipSpace (renderSpaced (d :: ds) ++ rest) =
        (.ok (), d.render.toList ++ (renderSpaced ds ++ rest)) := by
      unfold renderSpaced
      rw [List.flatMap_cons, List.append_assoc]
      exact skipSpace_blank rfl (h.1.clear_render _)
    rw [Parser.loop_of_again (h.1.turn_render required before hskip), ih h.2, List.reverse_cons,
      List.append_assoc]
    rfl

theorem readBlock_renderSpaced {ds : List RawDeclaration} (h : ∀ d ∈ ds, d.Readable)
    (rest : List Char)
    : readBlock '}' required (renderSpaced ds ++ ' ' :: '}' :: rest) = (.ok ds, rest) := by
  have hbrace : IsSign '}' := isSign_of_mem (by decide)
  refine (loop_renderSpaced h [] _).trans (Parser.loop_of_done ?_)
  refine Parser.bind_eq_ok_iff.2 ⟨(), _, skipSpace_blank rfl (hbrace.clear_cons rest), ?_⟩
  refine Parser.bind_eq_ok_iff.2 ⟨_, _, hbrace.next_cons rest, ?_⟩
  simp [Parser.pure_apply]

theorem turn_nil (ds : List RawDeclaration)
    : turn '}' false ds [] = (.ok (.done ds.reverse), []) := by
  have hclear : Clear [] := trivial
  refine Parser.bind_eq_ok_iff.2 ⟨(), _, skipSpace_of_clear hclear, ?_⟩
  exact Parser.bind_eq_ok_iff.2 ⟨.eof, [], Token.next_of_clear hclear, rfl⟩

theorem toList_intercalate_render (d : RawDeclaration) (ds : List RawDeclaration)
    : (String.intercalate " " ((d :: ds).map (·.render))).toList =
        d.render.toList ++ renderSpaced ds := by
  induction ds generalizing d with
  | nil => simp [renderSpaced]
  | cons d' ds ih =>
    rw [List.map_cons, List.map_cons, String.intercalate_cons_cons, String.toList_append,
      String.toList_append, ← List.map_cons, ih, List.append_assoc]
    rfl

theorem readBlock_intercalate_render {ds : List RawDeclaration} (h : ∀ d ∈ ds, d.Readable)
    : readBlock '}' false (String.intercalate " " (ds.map (·.render))).toList = (.ok ds, []) := by
  unfold readBlock
  cases ds with
  | nil => exact Parser.loop_of_done (turn_nil [])
  | cons d ds =>
    rw [List.forall_mem_cons] at h
    have hagain := h.1.turn_render false []
      (skipSpace_of_clear (h.1.clear_render (renderSpaced ds)))
    have hloop : Parser.loop (turn '}' false) (turn_progress '}' false) [d]
        (renderSpaced ds ++ []) = _ := loop_renderSpaced h.2 [d] []
    rw [List.append_nil] at hloop
    rw [toList_intercalate_render, Parser.loop_of_again hagain, hloop,
      Parser.loop_of_done (turn_nil _)]
    simp

/--
The declarations that a block can hold. Without a terminator the last value can leave parentheses
open.
-/
inductive InBlock (required : Bool) : List RawDeclaration → Prop where
  | nil : InBlock required []
  | cons {d : RawDeclaration} {pieces : List (Bool × Piece)} {ds : List RawDeclaration}
      (hspelled : d.SpelledBy pieces)
      (hclosed : required = true ∨ ds ≠ [] → ValueText.openAfter 0 pieces = 0)
      (hds : InBlock required ds) : InBlock required (d :: ds)

theorem exists_read_of_readValueOf {property : String} {terminator : Char}
    {d? : Option RawDeclaration} {cs rest : List Char}
    (h : readValueOf property terminator cs = (.ok d?, rest))
    : ∃ mid start text last, skipSpace cs = (.ok (), mid) ∧
        Token.next mid = (.ok (.delim ':'), start) ∧
        ValueText.read terminator start = (.ok text, last) ∧ rest <:+ last ∧
        ∀ d ∈ d?, d.property = property ∧ d.value.toList ≠ [] ∧
          splitImportant text.toList = (d.value.toList, d.important) := by
  rcases Parser.bind_eq_ok_iff.1 h with ⟨_, mid, hspace, h⟩
  rcases Parser.bind_eq_ok_iff.1 h with ⟨t, start, hnext, h⟩
  split at h
  . rcases Parser.bind_eq_ok_iff.1 h with ⟨text, last, hread, h⟩
    rcases Parser.bind_eq_ok_iff.1 h with ⟨_, _, hskip, h⟩
    have hlast := Token.shrinks_skipOnly (.delim ';') last
    rw [hskip] at hlast
    cases hsplit : splitImportant text.toList with
    | mk value important =>
      rw [hsplit] at h
      rcases Parser.pure_eq_ok_iff.1 h with ⟨hd, rfl⟩
      refine ⟨mid, start, text, last, hspace, hnext, hread, hlast, ?_⟩
      split at hd
      . cases hd
        simp
      . next hne =>
        cases hd
        rintro d ⟨⟩
        simpa [hsplit] using hne
  . exact absurd h Parser.fail_ne_ok

theorem exists_spelledBy_of_readValueOf {property : String} {d? : Option RawDeclaration}
    {cs rest : List Char} (hname : IsName property.toList)
    (h : readValueOf property '}' cs = (.ok d?, rest))
    : ∀ d ∈ d?, ∃ pieces, d.SpelledBy pieces ∧
        (rest ≠ [] → ValueText.openAfter 0 pieces = 0) := by
  rcases exists_read_of_readValueOf h with ⟨mid, start, text, last, -, -, hread, hlast, hd⟩
  intro d hmem
  rcases hd d hmem with ⟨rfl, hne, hsplit⟩
  rcases ValueText.exists_pieces_of_read hread with ⟨pieces, hgoes, rfl, hends⟩
  rw [String.toList_ofList] at hsplit
  rcases ValueText.exists_pieces_of_splitImportant hgoes hsplit hne with
    ⟨pieces', hne', hgoes', hopen, hvalue, hplain⟩
  refine ⟨pieces', ⟨hname, hne', hgoes', hvalue, hplain⟩, ?_⟩
  intro hrest
  rw [hopen]
  apply hends
  rintro rfl
  exact hrest (List.suffix_nil.1 hlast)

theorem turn_nil_eq_ok_iff {required : Bool} {before : List RawDeclaration}
    {t : Turn (List RawDeclaration) (List RawDeclaration)} {rest : List Char}
    : turn '}' required before [] = (.ok t, rest)
        ↔
      required = false ∧ t = .done before.reverse ∧ rest = [] := by
  cases required with
  | false =>
    rw [turn_nil]
    grind
  | true =>
    constructor
    . intro h
      rcases Parser.bind_eq_ok_iff.1 h with ⟨_, mid, hskip, h⟩
      have hclear : Clear [] := trivial
      rw [skipSpace_of_clear hclear] at hskip
      cases hskip
      rcases Parser.bind_eq_ok_iff.1 h with ⟨t, _, hnext, h⟩
      rw [Token.next_of_clear hclear] at hnext
      cases hnext
      exact absurd h Parser.failEnd_ne_ok
    . simp

theorem exists_readValueOf_of_turn {terminator : Char} {required : Bool}
    {before before' : List RawDeclaration} {cs rest : List Char}
    (h : turn terminator required before cs = (.ok (.again before'), rest))
    : ∃ (d? : Option RawDeclaration) (mid : List Char), before' = d?.toList ++ before ∧
        skipSpace cs = (.ok (), mid) ∧
        (d? = none ∧ Token.next mid = (.ok (.delim ';'), rest) ∨
          ∃ property start, Token.next mid = (.ok (.ident property), start) ∧
            readValueOf property terminator start = (.ok d?, rest)) := by
  rcases Parser.bind_eq_ok_iff.1 h with ⟨_, mid, hskip, h⟩
  rcases Parser.bind_eq_ok_iff.1 h with ⟨t, start, hnext, h⟩
  split at h
  . split at h
    . exact absurd h Parser.failEnd_ne_ok
    . simp [Parser.pure_eq_ok_iff] at h
  . split at h
    . simp [Parser.pure_eq_ok_iff] at h
    . split at h
      . next hc =>
        subst hc
        rcases Parser.pure_eq_ok_iff.1 h with ⟨hbefore, rfl⟩
        cases hbefore
        exact ⟨none, mid, rfl, hskip, .inl ⟨rfl, hnext⟩⟩
      . exact absurd h Parser.fail_ne_ok
  . next property =>
    rcases Parser.bind_eq_ok_iff.1 h with ⟨d?, _, hvalue, h⟩
    rcases Parser.pure_eq_ok_iff.1 h with ⟨hbefore, rfl⟩
    cases hbefore
    exact ⟨d?, mid, rfl, hskip, .inr ⟨property, start, hnext, hvalue⟩⟩
  . exact absurd h Parser.fail_ne_ok

theorem exists_spelledBy_of_turn {required : Bool} {before before' : List RawDeclaration}
    {cs rest : List Char} (h : turn '}' required before cs = (.ok (.again before'), rest))
    : ∃ d? : Option RawDeclaration, before' = d?.toList ++ before ∧
        ∀ d ∈ d?, ∃ pieces, d.SpelledBy pieces ∧
          (rest ≠ [] → ValueText.openAfter 0 pieces = 0) := by
  rcases exists_readValueOf_of_turn h with
    ⟨d?, mid, hbefore, -, ⟨rfl, -⟩ | ⟨property, start, hnext, hvalue⟩⟩
  . exact ⟨none, hbefore, by simp⟩
  . exact ⟨d?, hbefore, exists_spelledBy_of_readValueOf (isName_of_next hnext) hvalue⟩

theorem eq_reverse_of_turn_done {terminator : Char} {required : Bool}
    {before ds : List RawDeclaration} {cs rest : List Char}
    (h : turn terminator required before cs = (.ok (.done ds), rest))
    : ds = before.reverse := by
  rcases Parser.bind_eq_ok_iff.1 h with ⟨_, _, -, h⟩
  rcases Parser.bind_eq_ok_iff.1 h with ⟨t, _, -, h⟩
  split at h
  . split at h
    . exact absurd h Parser.failEnd_ne_ok
    . cases (Parser.pure_eq_ok_iff.1 h).1
      rfl
  . split at h
    . cases (Parser.pure_eq_ok_iff.1 h).1
      rfl
    . split at h
      . simp [Parser.pure_eq_ok_iff] at h
      . exact absurd h Parser.fail_ne_ok
  . rcases Parser.bind_eq_ok_iff.1 h with ⟨d?, _, -, h⟩
    simp [Parser.pure_eq_ok_iff] at h
  . exact absurd h Parser.fail_ne_ok

theorem inBlock_of_readBlock {required : Bool} {ds : List RawDeclaration} {cs rest : List Char}
    (h : readBlock '}' required cs = (.ok ds, rest))
    : InBlock required ds := by
  have hloop : ∃ more, ds = [].reverse ++ more ∧ InBlock required more ∧
      (cs = [] → required = false ∧ more = []) := by
    refine Parser.loop_induction (motive := fun before cs ds _ =>
      ∃ more, ds = before.reverse ++ more ∧ InBlock required more ∧
        (cs = [] → required = false ∧ more = [])) ?_ ?_ h
    . intro before cs ds rest hdone
      refine ⟨[], by simp [eq_reverse_of_turn_done hdone], .nil, ?_⟩
      rintro rfl
      exact ⟨(turn_nil_eq_ok_iff.1 hdone).1, rfl⟩
    . rintro before cs before' mid ds rest hagain ⟨more, rfl, hmore, hnil⟩
      have hcs : cs ≠ [] := by
        rintro rfl
        simp [turn_nil_eq_ok_iff] at hagain
      rcases exists_spelledBy_of_turn hagain with ⟨d?, rfl, hd⟩
      refine ⟨d?.toList ++ more, ?_, ?_, fun h => absurd h hcs⟩
      . cases d? <;> simp
      . cases d? with
        | none => exact hmore
        | some d =>
          rcases hd d rfl with ⟨pieces, hspelled, hclosed⟩
          refine .cons hspelled ?_ hmore
          -- A value that leaves parentheses open takes the whole text, so that nothing follows it.
          intro hsome
          apply hclosed
          intro hmid
          rcases hnil hmid with ⟨hrequired, hmore⟩
          rcases hsome with hsome | hsome
          . rw [hrequired] at hsome
            cases hsome
          . exact hsome hmore
  rcases hloop with ⟨more, rfl, hmore, -⟩
  exact hmore

end RawDeclaration

end TreeStyle
