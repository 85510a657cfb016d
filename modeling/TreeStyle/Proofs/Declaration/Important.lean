import Mathlib.Data.List.Basic
import TreeStyle.Declaration
import TreeStyle.Proofs.ValueText

/-!
This module contains the pieces of a value with and without the mark of important declarations.
-/

namespace TreeStyle

namespace Text

theorem trimEnd_concat_blank {c : Char} (hc : isBlank c = true) (cs : List Char)
    : trimEnd (cs ++ [c]) = trimEnd cs := by
  simp [trimEnd, hc]

theorem trimEnd_sublist (cs : List Char)
    : (trimEnd cs).Sublist cs := by
  have := List.reverse_sublist.2 (List.dropWhile_sublist isBlank (l := cs.reverse))
  rwa [List.reverse_reverse] at this

end Text

namespace Piece

theorem WellFormed.first_notBlank {piece : Piece} (h : piece.WellFormed)
    : Text.isBlank piece.first = false := by
  cases piece with
  | char c => exact h.1
  | quoted quote text => exact notBlank_of_isQuote h

theorem exists_render_concat (piece : Piece)
    : ∃ cs, piece.render = cs ++ [piece.first] := by
  cases piece with
  | char c => exact ⟨[], rfl⟩
  | quoted quote text => exact ⟨quote :: escaped quote text, rfl⟩

end Piece

namespace ValueText

variable {terminator : Char}

theorem render_eq_flatMap (spaced : Bool) (piece : Piece) (pieces : List (Bool × Piece))
    : render ((spaced, piece) :: pieces) = ((false, piece) :: pieces).flatMap render.spaced :=
  rfl

theorem exists_spaced_concat (mark : Bool × Piece)
    : ∃ cs, render.spaced mark = cs ++ [mark.2.first] := by
  rcases mark with ⟨spaced, piece⟩
  rcases piece.exists_render_concat with ⟨cs, hcs⟩
  cases spaced with
  | false => exact ⟨cs, hcs⟩
  | true => exact ⟨' ' :: cs, congrArg (' ' :: ·) hcs⟩

theorem last_flatMap_notBlank {pieces : List (Bool × Piece)}
    (hwf : ∀ mark ∈ pieces, mark.2.WellFormed)
    : ∀ c ∈ (pieces.flatMap render.spaced).getLast?, Text.isBlank c = false := by
  rcases List.eq_nil_or_concat' pieces with rfl | ⟨before, mark, rfl⟩
  . simp
  . rcases exists_spaced_concat mark with ⟨cs, hcs⟩
    rw [List.flatMap_append, List.flatMap_singleton, hcs, ← List.append_assoc,
      List.getLast?_concat]
    rintro c ⟨⟩
    exact (hwf mark (by simp)).first_notBlank

theorem trimEnd_flatMap {pieces : List (Bool × Piece)}
    (hwf : ∀ mark ∈ pieces, mark.2.WellFormed)
    : Text.trimEnd (pieces.flatMap render.spaced) = pieces.flatMap render.spaced :=
  Text.trimEnd_of_notBlank (last_flatMap_notBlank hwf)

def unmarked : List (Bool × Piece) → List (Bool × Piece)
  | [] => []
  | (_, piece) :: pieces => (false, piece) :: pieces

theorem render_eq_flatMap_unmarked (pieces : List (Bool × Piece))
    : render pieces = (unmarked pieces).flatMap render.spaced := by
  cases pieces <;> rfl

theorem map_unmarked (pieces : List (Bool × Piece))
    : (unmarked pieces).map (·.2) = pieces.map (·.2) := by
  cases pieces <;> rfl

theorem wellFormed_unmarked {pieces : List (Bool × Piece)}
    (hwf : ∀ mark ∈ pieces, mark.2.WellFormed)
    : ∀ mark ∈ unmarked pieces, mark.2.WellFormed := by
  rw [← List.forall_mem_map (P := Piece.WellFormed)] at *
  rwa [map_unmarked]

theorem trimEnd_render {pieces : List (Bool × Piece)}
    (hwf : ∀ mark ∈ pieces, mark.2.WellFormed)
    : Text.trimEnd (render pieces) = render pieces := by
  rw [render_eq_flatMap_unmarked]
  exact trimEnd_flatMap (wellFormed_unmarked hwf)

theorem exists_split_of_flatMap {pieces : List (Bool × Piece)} {front back : List Char}
    (hwf : ∀ mark ∈ pieces, mark.2.WellFormed)
    (hback : ∀ c ∈ back, isQuote c = false ∧ c ≠ ' ')
    (h : pieces.flatMap render.spaced = front ++ back.reverse)
    : ∃ before after, pieces = before ++ after ∧ after.map (·.2) = back.reverse.map .char ∧
        (front = before.flatMap render.spaced ∨ front = before.flatMap render.spaced ++ [' ']) := by
  induction back generalizing pieces with
  | nil => exact ⟨pieces, [], by simp, rfl, .inl (by simpa using h.symm)⟩
  | cons c back ih =>
    rw [List.forall_mem_cons] at hback
    rw [List.reverse_cons, ← List.append_assoc] at h
    rcases List.eq_nil_or_concat' pieces with rfl | ⟨before, mark, rfl⟩
    . simp at h
    . rw [List.flatMap_append, List.flatMap_singleton] at h
      rcases mark with ⟨spaced, piece⟩
      rcases exists_spaced_concat (spaced, piece) with ⟨cs, hcs⟩
      rw [hcs, ← List.append_assoc] at h
      rcases List.append_inj' h rfl with ⟨hfront, hlast⟩
      have hlast : piece.first = c := (List.cons.inj hlast).1
      cases piece with
      | quoted quote text =>
        have hquote : isQuote quote = true := hwf (spaced, .quoted quote text) (by simp)
        have hlast : quote = c := hlast
        rw [hlast, hback.1.1] at hquote
        cases hquote
      | char d =>
        have hlast : d = c := hlast
        subst hlast
        cases spaced with
        | false =>
          have hcs : [] ++ [d] = cs ++ [d] := hcs
          rw [← (List.append_inj' hcs rfl).1, List.append_nil] at hfront
          rcases ih (fun mark hmark => hwf mark (by simp [hmark])) hback.2 hfront with
            ⟨before, after, rfl, hafter, hfront⟩
          exact ⟨before, after ++ [(false, .char d)], by simp, by simp [hafter], hfront⟩
        | true =>
          -- The space belongs to the front, so that nothing else of the back stands before it.
          have hcs : [' '] ++ [d] = cs ++ [d] := hcs
          rw [← (List.append_inj' hcs rfl).1] at hfront
          cases back with
          | nil =>
            exact ⟨before, [(true, .char d)], rfl, rfl, .inr (by simpa using hfront.symm)⟩
          | cons a back =>
            rw [List.reverse_cons, ← List.append_assoc] at hfront
            have hspace := (List.cons.inj (List.append_inj' hfront rfl).2).1
            exact absurd hspace.symm (hback.2 a (by simp)).2

end ValueText

theorem of_toLower_mem_importantMark {c : Char} (h : c.toLower ∈ importantMark)
    : isQuote c = false ∧ c ≠ ' ' ∧ c ≠ '(' ∧ c ≠ ')' := by
  refine ⟨?_, ?_, ?_, ?_⟩
  . rw [Bool.eq_false_iff]
    intro hquote
    rcases isQuote_cases hquote with rfl | rfl <;> exact absurd h (by decide)
  all_goals
    rintro rfl
    exact absurd h (by decide)

theorem splitImportant_of_mark {front back : List Char}
    (h : back.map Char.toLower = importantMark)
    : splitImportant (front ++ back) = (Text.trimEnd front, true) := by
  have hlength : (front ++ back).length - importantMark.length = front.length := by
    rw [← h, List.length_map, List.length_append, Nat.add_sub_cancel]
  unfold splitImportant
  dsimp only
  rw [hlength, List.drop_left, List.take_left, if_pos h]

theorem splitImportant_cases (value : List Char)
    : (∃ front back, value = front ++ back ∧ back.map Char.toLower = importantMark) ∨
        splitImportant value = (value, false) := by
  unfold splitImportant
  dsimp only
  split
  . next h => exact .inl ⟨_, _, (List.take_append_drop _ _).symm, h⟩
  . exact .inr rfl

theorem splitImportant_append {cs : List Char} (h : Text.trimEnd cs = cs)
    : splitImportant (cs ++ ' ' :: importantMark) = (cs, true) := by
  rw [List.append_cons, splitImportant_of_mark (by decide), Text.trimEnd_concat_blank rfl, h]

theorem splitImportant_concat {c : Char} (hc : c.toLower ≠ 't') (cs : List Char)
    : splitImportant (cs ++ [c]) = (cs ++ [c], false) := by
  rcases splitImportant_cases (cs ++ [c]) with ⟨front, back, hcs, hback⟩ | hplain
  . have hlast : (front ++ back).getLast? = some c := by
      rw [← hcs]
      simp
    have hne : back ≠ [] := by
      rintro rfl
      cases hback
    rw [List.getLast?_append_of_ne_nil _ hne] at hlast
    have hmark := congrArg List.getLast? hback
    rw [List.getLast?_map, hlast] at hmark
    exact absurd (Option.some.inj hmark) hc
  . exact hplain

namespace ValueText

variable {terminator : Char}

theorem openAfter_of_chars {pieces : List (Bool × Piece)} {cs : List Char}
    (hpieces : pieces.map (·.2) = cs.map .char) (hcs : ∀ c ∈ cs, c ≠ '(' ∧ c ≠ ')') (depth : Nat)
    : openAfter depth pieces = depth := by
  induction pieces generalizing cs with
  | nil => rfl
  | cons mark pieces ih =>
    match cs with
    | c :: cs =>
      rw [List.map_cons, List.map_cons, List.cons.injEq] at hpieces
      rw [List.forall_mem_cons] at hcs
      have hdepth : mark.2.depthAfter depth = depth := by
        rw [hpieces.1]
        exact (if_neg hcs.1.1).trans (if_neg hcs.1.2)
      unfold openAfter
      rw [List.foldl_cons, hdepth]
      exact ih hpieces.2 hcs.2

theorem exists_pieces_of_splitImportant {pieces : List (Bool × Piece)} {value : List Char}
    {important : Bool} (hgoes : GoesOn terminator 0 pieces)
    (h : splitImportant (render pieces) = (value, important)) (hne : value ≠ [])
    : ∃ pieces', pieces' ≠ [] ∧ GoesOn terminator 0 pieces' ∧
        openAfter 0 pieces' = openAfter 0 pieces ∧ value = render pieces' ∧
        (important = false → splitImportant value = (value, false)) := by
  match pieces with
  | [] =>
    cases h
    exact absurd rfl hne
  | (spaced, piece) :: pieces =>
    rcases splitImportant_cases (render ((spaced, piece) :: pieces)) with
      ⟨front, back, hvalue, hback⟩ | hplain
    . rw [hvalue, splitImportant_of_mark hback] at h
      cases h
      -- The mark consists of whole pieces, none of which is a parenthesis.
      have hchars : ∀ c ∈ back, isQuote c = false ∧ c ≠ ' ' ∧ c ≠ '(' ∧ c ≠ ')' := by
        intro c hc
        exact of_toLower_mem_importantMark (hback ▸ List.mem_map_of_mem hc)
      have hgoes : GoesOn terminator 0 ((false, piece) :: pieces) := hgoes
      rw [render_eq_flatMap, ← back.reverse_reverse] at hvalue
      rcases exists_split_of_flatMap hgoes.wellFormed (by grind) hvalue with
        ⟨before, after, hpieces, hafter, hfront⟩
      rw [List.reverse_reverse] at hafter
      rw [hpieces, goesOn_append_iff] at hgoes
      have hwf := hgoes.1.wellFormed
      have htrim : Text.trimEnd front = before.flatMap render.spaced := by
        rcases hfront with rfl | rfl
        . exact trimEnd_flatMap hwf
        . rw [Text.trimEnd_concat_blank rfl, trimEnd_flatMap hwf]
      have hopen : openAfter 0 ((false, piece) :: pieces) = openAfter 0 before := by
        rw [hpieces, openAfter_append]
        exact openAfter_of_chars hafter (fun c hc => (hchars c hc).2.2) _
      rw [htrim] at hne ⊢
      match before with
      | [] => exact absurd rfl hne
      | mark :: before =>
        cases (List.cons.inj hpieces).1
        exact ⟨_, by simp, hgoes.1, hopen.symm, rfl, by simp⟩
    . rw [hplain] at h
      cases h
      exact ⟨_, by simp, hgoes, rfl, rfl, fun _ => hplain⟩

def importantPieces : List (Bool × Piece) :=
  (true, .char '!') :: ['i', 'm', 'p', 'o', 'r', 't', 'a', 'n', 't'].map (false, .char ·)

theorem flatMap_importantPieces
    : importantPieces.flatMap render.spaced = ' ' :: importantMark := by
  decide

theorem render_append_importantPieces {pieces : List (Bool × Piece)} (hne : pieces ≠ [])
    : render (pieces ++ importantPieces) = render pieces ++ ' ' :: importantMark := by
  match pieces, hne with
  | (spaced, piece) :: pieces, _ =>
    rw [List.cons_append, render, render, List.flatMap_append, flatMap_importantPieces,
      List.append_assoc]

theorem goesOn_importantPieces (depth : Nat)
    : GoesOn '}' depth importantPieces := by
  simp [importantPieces, GoesOn, Ends, Piece.WellFormed, Piece.first, Text.isBlank, isQuote]

theorem legible_importantPieces
    : Legible importantPieces := by
  simp [importantPieces, Legible, Piece.Legible]

theorem openAfter_importantPieces (depth : Nat)
    : openAfter depth importantPieces = depth := by
  simp [importantPieces, openAfter, Piece.depthAfter, depthAfter]

end ValueText

end TreeStyle
