import TreeStyle.Proofs.Lexing.Grammar
import TreeStyle.Proofs.ValueText

/-!
This module contains the pieces that a text consists of, whether it is read as a value or written as
one. They are told by the text alone, in one way only.
-/

namespace TreeStyle

namespace Piece

def isBlank : Piece → Bool
  | .char c => Text.isBlank c
  | .quoted _ _ => false

def literal? : Piece → Option (Char × List Char)
  | .char _ => none
  | .quoted quote text => some (quote, text)

end Piece

/--
The text `cs` begins with a piece, or with a comment where there are comments, and `rest` follows. A
quoted text ends with the first quote of its kind that has no backslash before it.
-/
inductive Begins (commented : Bool) :
    (cs : List Char) → (piece? : Option Piece) → (rest : List Char) → Prop where
  | comment {comment rest : List Char} (hcommented : commented = true)
      (hcomment : IsComment comment) : Begins commented (comment ++ rest) none rest
  | quoted {quote : Char} {body text rest : List Char} (hquote : isQuote quote = true)
      (hbody : Escaped [quote] body text) :
      Begins commented (quote :: (body ++ quote :: rest)) (some (.quoted quote text)) rest
  | char {c : Char} {rest : List Char} (hquote : isQuote c = false)
      (hopen : commented = true → ¬(c = '/' ∧ rest.head? = some '*')) :
      Begins commented (c :: rest) (some (.char c)) rest

/--
The text `cs` consists of the pieces, white space among them, and `rest` follows. Comments stand
between them at most.
-/
inductive ConsistsOf (commented : Bool) (rest : List Char) :
    (cs : List Char) → (pieces : List Piece) → Prop where
  | nil : ConsistsOf commented rest rest []
  | comment {cs mid : List Char} {pieces : List Piece} (hcomment : Begins commented cs none mid)
      (h : ConsistsOf commented rest mid pieces) : ConsistsOf commented rest cs pieces
  | piece {cs mid : List Char} {piece : Piece} {pieces : List Piece}
      (hpiece : Begins commented cs (some piece) mid)
      (h : ConsistsOf commented rest mid pieces) : ConsistsOf commented rest cs (piece :: pieces)

namespace Begins

variable {commented : Bool} {cs rest rest' : List Char} {piece? piece?' : Option Piece}

theorem length_lt (h : Begins commented cs piece? rest)
    : rest.length < cs.length := by
  cases h with
  | comment _ hcomment =>
    cases hcomment
    simp only [List.cons_append, List.length_cons, List.length_append]
    omega
  | quoted =>
    simp only [List.length_cons, List.length_append]
    omega
  | char => exact Nat.lt_succ_self _

theorem cases_first {c : Char} (h : Begins commented (c :: cs) piece? rest)
    : (commented = true ∧ c = '/' ∧ piece? = none ∧
          ∃ mid, cs = '*' :: mid ∧ afterComment? mid = some rest)
        ∨
      (isQuote c = true ∧ ∃ body text, piece? = some (.quoted c text) ∧
          cs = body ++ c :: rest ∧ Escaped [c] body text)
        ∨
      (isQuote c = false ∧ (commented = true → ¬(c = '/' ∧ cs.head? = some '*')) ∧
          piece? = some (.char c) ∧ cs = rest) := by
  generalize htext : c :: cs = text at h
  cases h with
  | comment hcommented hcomment =>
    rcases hcomment.exists_afterComment? rest with ⟨mid, hmid, hafter⟩
    cases htext.trans hmid
    exact .inl ⟨hcommented, rfl, rfl, mid, rfl, hafter⟩
  | quoted hquote hbody =>
    cases htext
    exact .inr (.inl ⟨hquote, _, _, rfl, rfl, hbody⟩)
  | char hquote hopen =>
    cases htext
    exact .inr (.inr ⟨hquote, hopen, rfl, rfl⟩)

theorem unique (h : Begins commented cs piece? rest) (h' : Begins commented cs piece?' rest')
    : piece? = piece?' ∧ rest = rest' := by
  match cs with
  | [] => exact absurd h.length_lt (Nat.not_lt_zero _)
  | c :: cs =>
    -- The first two characters tell which of the three it is. Where it ends, the comment and the
    -- quoted text know by themselves.
    rcases h.cases_first with
      ⟨hcommented, rfl, rfl, mid, rfl, hafter⟩ | ⟨hquote, body, text, rfl, rfl, hbody⟩
        | ⟨hquote, hopen, rfl, rfl⟩
    . rcases h'.cases_first with
        ⟨-, -, rfl, mid', hmid, hafter'⟩ | ⟨hquote, -⟩ | ⟨-, hopen, -⟩
      . cases hmid
        exact ⟨rfl, Option.some.inj (hafter.symm.trans hafter')⟩
      . cases hquote
      . exact absurd ⟨rfl, rfl⟩ (hopen hcommented)
    . rcases h'.cases_first with
        ⟨-, rfl, -⟩ | ⟨-, body', text', rfl, hbodies, hbody'⟩ | ⟨hplain, -⟩
      . cases hquote
      . rcases hbody.unique hbody' (ne_of_isQuote hquote rfl) hbodies with ⟨rfl, rfl⟩
        exact ⟨rfl, rfl⟩
      . exact Bool.noConfusion (hquote.symm.trans hplain)
    . rcases h'.cases_first with
        ⟨hcommented, rfl, -, mid, rfl, -⟩ | ⟨hquote', -⟩ | ⟨-, -, rfl, rfl⟩
      . exact absurd ⟨rfl, rfl⟩ (hopen hcommented)
      . exact Bool.noConfusion (hquote.symm.trans hquote')
      . exact ⟨rfl, rfl⟩

end Begins

namespace ConsistsOf

variable {commented : Bool} {cs rest : List Char} {pieces pieces' : List Piece}

theorem length_le (h : ConsistsOf commented rest cs pieces)
    : rest.length ≤ cs.length := by
  induction h with
  | nil => exact Nat.le_refl _
  | comment hcomment h ih => exact ih.trans hcomment.length_lt.le
  | piece hpiece h ih => exact ih.trans hpiece.length_lt.le

theorem eq_nil (h : ConsistsOf commented rest rest pieces)
    : pieces = [] := by
  cases h with
  | nil => rfl
  | comment hcomment h => exact absurd hcomment.length_lt (Nat.not_lt.2 h.length_le)
  | piece hpiece h => exact absurd hpiece.length_lt (Nat.not_lt.2 h.length_le)

theorem unique (h : ConsistsOf commented rest cs pieces)
    (h' : ConsistsOf commented rest cs pieces')
    : pieces = pieces' := by
  induction h generalizing pieces' with
  | nil => exact h'.eq_nil.symm
  | comment hcomment h ih =>
    cases h' with
    | nil => exact absurd hcomment.length_lt (Nat.not_lt.2 h.length_le)
    | comment hcomment' h' =>
      cases (hcomment.unique hcomment').2
      exact ih h'
    | piece hpiece' h' => cases (hcomment.unique hpiece').1
  | piece hpiece h ih =>
    cases h' with
    | nil => exact absurd hpiece.length_lt (Nat.not_lt.2 h.length_le)
    | comment hcomment' h' => cases (hpiece.unique hcomment').1
    | piece hpiece' h' =>
      rcases hpiece.unique hpiece' with ⟨hpieces, rfl⟩
      cases hpieces
      rw [ih h']

theorem iff_eq (h : ConsistsOf commented rest cs pieces)
    : ConsistsOf commented rest cs pieces' ↔ pieces' = pieces := by
  constructor
  . intro h'
    exact h'.unique h
  . rintro rfl
    exact h

end ConsistsOf

theorem ConsistsOf.exists_of_trivia {spaced : Bool} {w cs rest : List Char}
    {pieces : List Piece} (h : ConsistsOf true rest cs pieces) (hw : Trivia spaced w)
    : ∃ source, ConsistsOf true rest (w ++ cs) source ∧
        source.filter (!·.isBlank) = pieces.filter (!·.isBlank) := by
  induction hw with
  | nil => exact ⟨pieces, h, rfl⟩
  | comment hcomment hw ih =>
    rcases ih with ⟨source, hsource, hfilter⟩
    rw [List.append_assoc]
    exact ⟨source, .comment (.comment rfl hcomment) hsource, hfilter⟩
  | @blank spaced c w hc hw ih =>
    rcases ih with ⟨source, hsource, hfilter⟩
    have hquote : isQuote c = false := isQuote_eq_false hc rfl rfl
    have hopen : true = true → ¬(c = '/' ∧ (w ++ cs).head? = some '*') := by
      rintro - ⟨rfl, -⟩
      cases hc
    refine ⟨.char c :: source, .piece (.char hquote hopen) hsource, ?_⟩
    rw [List.filter_cons_of_neg (by simp [Piece.isBlank, hc]), hfilter]

namespace Piece

variable {piece : Piece} {mid rest : List Char}

theorem WellFormed.isBlank_eq_false (h : piece.WellFormed)
    : piece.isBlank = false := by
  cases piece with
  | char c => exact h.1
  | quoted quote text => rfl

theorem begins_of_readFrom (hclear : Clear mid) (hwf : piece.WellFormed)
    (h : piece.ReadFrom mid rest)
    : Begins true mid (some piece) rest := by
  cases piece with
  | char c =>
    cases h
    exact .char hwf.2 fun _ => hclear.2
  | quoted quote text =>
    rcases h with ⟨hfirst, hquoted⟩
    rcases List.head?_eq_some_iff.1 hfirst with ⟨cs, rfl⟩
    rcases exists_escaped_of_readQuoted hquoted with ⟨body, rfl, hbody⟩
    exact .quoted hwf (hbody.mono (by simp))

theorem escaped_escaped (quote : Char) (text : List Char)
    : Escaped [quote] (escaped quote text) text := by
  induction text with
  | nil => exact .nil
  | cons c text ih =>
    unfold escaped at *
    rw [List.flatMap_cons]
    split
    . exact .marked c ih
    . next hc =>
      rw [not_or] at hc
      exact .plain hc.2 (by simpa using hc.1) ih

theorem begins_render (hwf : piece.WellFormed) (rest : List Char)
    : Begins false (piece.render ++ rest) (some piece) rest := by
  cases piece with
  | char c => exact .char hwf.2 (by simp)
  | quoted quote text =>
    have hbegins : Begins false (quote :: (escaped quote text ++ quote :: rest))
        (some (quoted quote text)) rest :=
      .quoted hwf (escaped_escaped quote text)
    simpa [render, escaped] using hbegins

end Piece

end TreeStyle
