import TreeStyle.Proofs.Declaration.Written
import TreeStyle.Proofs.Lexing.LetterCase

/-!
This module contains the declarations as they are stored, with the name in lowercase and the keyword
`initial` recognized. Storing what has been stored already changes nothing.
-/

namespace TreeStyle

theorem Piece.mem_render_quoted {quote c : Char} {text : List Char} (h : c ∈ text)
    : c ∈ (Piece.quoted quote text).render := by
  have : c ∈ escaped quote text := by
    refine List.mem_flatMap.2 ⟨c, h, ?_⟩
    split <;> simp
  exact List.mem_cons_of_mem _ (List.mem_append_left _ this)

namespace ValueText

def initialPieces : List (Bool × Piece) :=
  ['i', 'n', 'i', 't', 'i', 'a', 'l'].map (false, .char ·)

theorem mem_spaced {c : Char} {piece : Piece} (spaced : Bool) (h : c ∈ piece.render)
    : c ∈ render.spaced (spaced, piece) := by
  cases spaced with
  | false => exact h
  | true => exact List.mem_cons_of_mem _ h

theorem legible_of_flatMap {pieces : List (Bool × Piece)}
    (hline : '\n' ∉ pieces.flatMap render.spaced)
    (hcomment : ¬['/', '*'] <:+: pieces.flatMap render.spaced)
    : Legible pieces := by
  induction pieces with
  | nil => trivial
  | cons mark pieces ih =>
    rcases mark with ⟨spaced, piece⟩
    rw [List.flatMap_cons, List.mem_append, not_or] at hline
    rw [List.flatMap_cons] at hcomment
    refine ⟨?_, ?_, ih hline.2 fun h => hcomment (h.trans (List.suffix_append _ _).isInfix)⟩
    . cases piece with
      | char c => trivial
      | quoted quote text =>
        intro htext
        exact hline.1 (mem_spaced spaced (Piece.mem_render_quoted htext))
    . rintro ⟨rfl, hstar⟩
      match pieces with
      | mark :: pieces =>
        cases hstar
        apply hcomment
        cases spaced with
        | false => exact ⟨[], pieces.flatMap render.spaced, rfl⟩
        | true => exact ⟨[' '], pieces.flatMap render.spaced, rfl⟩

theorem legible_of_render {pieces : List (Bool × Piece)} (hline : '\n' ∉ render pieces)
    (hcomment : ¬['/', '*'] <:+: render pieces)
    : Legible pieces := by
  cases pieces with
  | nil => trivial
  | cons mark pieces =>
    rcases mark with ⟨spaced, piece⟩
    rw [render_eq_flatMap] at *
    have hlegible : Legible ((false, piece) :: pieces) := legible_of_flatMap hline hcomment
    exact hlegible

theorem goesOn_initialPieces (depth : Nat)
    : GoesOn '}' depth initialPieces := by
  simp [initialPieces, GoesOn, Ends, Piece.WellFormed, Piece.first, Text.isBlank, isQuote]

end ValueText

theorem PropertyValue.ofText_text_ofText (text : String)
    : ofText (ofText text).text = ofText text := by
  unfold ofText
  split
  . rfl
  . next h =>
    unfold PropertyValue.text
    rw [if_neg h]

theorem PropertyValue.text_ofText_of_eq {text : String}
    (h : Text.eqIgnoringCase text "initial" = true)
    : (ofText text).text = "initial" := by
  unfold ofText
  rw [if_pos h]
  rfl

theorem PropertyValue.text_ofText_of_ne {text : String}
    (h : Text.eqIgnoringCase text "initial" = false)
    : (ofText text).text = text := by
  unfold ofText
  rw [h, if_neg Bool.false_ne_true]
  rfl

namespace Declaration

theorem value_ofRaw (d : RawDeclaration)
    : (ofRaw d).value = PropertyValue.ofText d.value := by
  unfold ofRaw
  rfl

theorem plain_eq {name text : String} (hname : Text.asciiLower name = name)
    (htext : Text.eqIgnoringCase text "initial" = false)
    : plain name text = ⟨name, .specified text, false⟩ := by
  unfold plain ofRaw RawDeclaration.plain PropertyValue.ofText
  dsimp only
  rw [htext, hname, if_neg Bool.false_ne_true]

theorem toRaw_ofRaw_value (d : RawDeclaration)
    : (ofRaw d).toRaw.value = (PropertyValue.ofText d.value).text := by
  unfold ofRaw toRaw
  rfl

theorem ofRaw_toRaw_ofRaw (d : RawDeclaration)
    : ofRaw (ofRaw d).toRaw = ofRaw d := by
  unfold ofRaw toRaw
  dsimp only
  rw [asciiLower_asciiLower, PropertyValue.ofText_text_ofText]

end Declaration

namespace RawDeclaration

theorem SpelledBy.exists_stored {d : RawDeclaration} {pieces : List (Bool × Piece)}
    (h : d.SpelledBy pieces)
    : ∃ pieces', (Declaration.ofRaw d).toRaw.SpelledBy pieces' ∧
        (ValueText.openAfter 0 pieces = 0 → ValueText.openAfter 0 pieces' = 0) := by
  have hname : IsName (Declaration.ofRaw d).toRaw.property.toList := by
    show IsName (Text.asciiLower d.property).toList
    rw [Text.toList_asciiLower]
    apply isName_map_toLower_iff.2 h.name
  cases hinitial : Text.eqIgnoringCase d.value "initial" with
  | true =>
    have hvalue := PropertyValue.text_ofText_of_eq hinitial
    rw [← Declaration.toRaw_ofRaw_value] at hvalue
    refine ⟨ValueText.initialPieces, ⟨hname, by decide, ?_, ?_, ?_⟩, fun _ => by decide⟩
    . exact ValueText.goesOn_initialPieces 0
    . rw [hvalue]
      decide
    . intro
      rw [hvalue]
      decide
  | false =>
    have hvalue := PropertyValue.text_ofText_of_ne hinitial
    rw [← Declaration.toRaw_ofRaw_value] at hvalue
    refine ⟨pieces, ⟨hname, h.ne_nil, h.goesOn, ?_, ?_⟩, id⟩
    . rw [hvalue]
      exact h.value
    . rw [hvalue]
      exact h.plain

theorem InBlock.exists_spelledBy {required : Bool} {ds : List RawDeclaration}
    (h : InBlock required ds)
    : ∀ d ∈ ds, ∃ pieces, d.SpelledBy pieces ∧
        (required = true → ValueText.openAfter 0 pieces = 0) := by
  induction h with
  | nil => simp
  | cons hspelled hclosed hds ih =>
    exact List.forall_mem_cons.2 ⟨⟨_, hspelled, fun h => hclosed (.inl h)⟩, ih⟩

end RawDeclaration

namespace Declaration

def Plain (d : Declaration) : Prop :=
  '\n' ∉ d.value.text.toList ∧ ¬['/', '*'] <:+: d.value.text.toList

theorem Plain.readable_toRaw {d : RawDeclaration} {pieces : List (Bool × Piece)}
    (hplain : (ofRaw d).Plain) (h : d.SpelledBy pieces)
    (hclosed : ValueText.openAfter 0 pieces = 0)
    : (ofRaw d).toRaw.Readable := by
  rcases h.exists_stored with ⟨pieces', hspelled, hclosed'⟩
  refine ⟨pieces', hspelled, ?_, hclosed' hclosed⟩
  have hvalue : (ofRaw d).value.text.toList = ValueText.render pieces' := hspelled.value
  unfold Plain at hplain
  rw [hvalue] at hplain
  exact ValueText.legible_of_render hplain.1 hplain.2

end Declaration

end TreeStyle
