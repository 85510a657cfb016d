import TreeStyle.Proofs.Declaration.Stored
import TreeStyle.Proofs.ValueText.Illegible

/-!
This module contains the proof that the declarations of a block can be read again if they are read
back from their written form. Otherwise stars are lost, or the last value takes the semicolon in.
-/

namespace TreeStyle

theorem Parser.Shrinks.count_le {α : Type} {p : Parser α} (hp : p.Shrinks) {cs rest : List Char}
    {a : α} (h : p cs = (.ok a, rest)) (c : Char)
    : rest.count c ≤ cs.count c := by
  have := hp cs
  rw [h] at this
  exact this.sublist.count_le c

theorem ValueText.stars_le_of_read {terminator : Char} {cs rest : List Char} {text : String}
    (h : read terminator cs = (.ok text, rest))
    : text.toList.count '*' + rest.count '*' ≤ cs.count '*' := by
  rcases Parser.bind_eq_ok_iff.1 h with ⟨pieces, mid, hpieces, h⟩
  rcases Parser.pure_eq_ok_iff.1 h with ⟨rfl, rfl⟩
  rcases stars_le_of_loop hpieces with ⟨more, spaced, start, hmore, hskip, hcount⟩
  have := shrinks_skipTrivia.count_le hskip '*'
  cases hmore
  rw [String.toList_ofList, count_render]
  exact Nat.le_trans hcount this

theorem count_splitImportant {value value' : List Char} {important : Bool}
    (h : splitImportant value = (value', important)) (c : Char)
    : value'.count c ≤ value.count c := by
  rcases splitImportant_cases value with ⟨front, back, rfl, hback⟩ | hplain
  . rw [splitImportant_of_mark hback] at h
    cases h
    rw [List.count_append]
    exact Nat.le_trans ((Text.trimEnd_sublist front).count_le c) (Nat.le_add_right _ _)
  . rw [hplain] at h
    cases h
    exact Nat.le_refl _

namespace Declaration

def stars (ds : List Declaration) : Nat := (ds.flatMap (·.value.text.toList)).count '*'

theorem stars_append (ds ds' : List Declaration)
    : stars (ds ++ ds') = stars ds + stars ds' := by
  unfold stars
  rw [List.flatMap_append, List.count_append]

theorem count_value_ofRaw_le (d : RawDeclaration)
    : (ofRaw d).value.text.toList.count '*' ≤ d.value.toList.count '*' := by
  rw [value_ofRaw]
  cases hinitial : Text.eqIgnoringCase d.value "initial" with
  | true =>
    have hcount : "initial".toList.count '*' = 0 := by decide
    rw [PropertyValue.text_ofText_of_eq hinitial]
    exact Nat.le_trans (Nat.le_of_eq hcount) (Nat.zero_le _)
  | false =>
    have htext := PropertyValue.text_ofText_of_ne hinitial
    exact Nat.le_of_eq (congrArg (·.toList.count '*') htext)

end Declaration

namespace RawDeclaration

def storedStars (ds : List RawDeclaration) : Nat := Declaration.stars (ds.map Declaration.ofRaw)

theorem storedStars_singleton (d : RawDeclaration)
    : storedStars [d] = (Declaration.ofRaw d).value.text.toList.count '*' := by
  simp [storedStars, Declaration.stars]

theorem storedStars_append (ds ds' : List RawDeclaration)
    : storedStars (ds ++ ds') = storedStars ds + storedStars ds' := by
  unfold storedStars
  rw [List.map_append, Declaration.stars_append]

theorem storedStars_toList_le {property text : String} {d? : Option RawDeclaration}
    (h : ∀ d ∈ d?, d.property = property ∧ d.value.toList ≠ [] ∧
      splitImportant text.toList = (d.value.toList, d.important))
    : storedStars d?.toList ≤ text.toList.count '*' := by
  cases d? with
  | none => exact Nat.zero_le _
  | some d =>
    have hstored := Declaration.count_value_ofRaw_le d
    have hvalue := count_splitImportant (h d rfl).2.2 '*'
    rw [Option.toList_some, storedStars_singleton]
    exact Nat.le_trans hstored hvalue

theorem storedStars_le_of_readValueOf {property : String} {terminator : Char}
    {d? : Option RawDeclaration} {cs rest : List Char}
    (h : readValueOf property terminator cs = (.ok d?, rest))
    : storedStars d?.toList + rest.count '*' ≤ cs.count '*' := by
  rcases exists_read_of_readValueOf h with ⟨mid, start, text, last, hskip, hnext, hread, hlast, hd⟩
  have hmid := shrinks_skipSpace.count_le hskip '*'
  have hstart := Token.shrinks_next.count_le hnext '*'
  have htext := ValueText.stars_le_of_read hread
  have hrest := hlast.sublist.count_le '*'
  have hdeclaration := storedStars_toList_le hd
  omega

theorem storedStars_le_of_turn {terminator : Char} {required : Bool}
    {before before' : List RawDeclaration} {cs rest : List Char}
    (h : turn terminator required before cs = (.ok (.again before'), rest))
    : ∃ d? : Option RawDeclaration, before' = d?.toList ++ before ∧
        storedStars d?.toList + rest.count '*' ≤ cs.count '*' := by
  rcases exists_readValueOf_of_turn h with
    ⟨d?, mid, hbefore, hskip, ⟨rfl, hnext⟩ | ⟨property, start, hnext, hvalue⟩⟩
  . have hmid := shrinks_skipSpace.count_le hskip '*'
    have hrest := Token.shrinks_next.count_le hnext '*'
    have hnone : storedStars (none : Option RawDeclaration).toList = 0 := rfl
    exact ⟨none, hbefore, by omega⟩
  . have hmid := shrinks_skipSpace.count_le hskip '*'
    have hstart := Token.shrinks_next.count_le hnext '*'
    have hdeclaration := storedStars_le_of_readValueOf hvalue
    exact ⟨d?, hbefore, by omega⟩

theorem storedStars_le_of_loop {terminator : Char} {required : Bool}
    {before ds : List RawDeclaration} {cs rest : List Char}
    (h : Parser.loop (turn terminator required) (turn_progress terminator required) before cs =
      (.ok ds, rest))
    : ∃ more, ds = before.reverse ++ more ∧ storedStars more ≤ cs.count '*' := by
  refine Parser.loop_induction (motive := fun before cs ds _ =>
    ∃ more, ds = before.reverse ++ more ∧ storedStars more ≤ cs.count '*') ?_ ?_ h
  . intro before cs ds rest hdone
    exact ⟨[], by simp [eq_reverse_of_turn_done hdone], Nat.zero_le _⟩
  . rintro before cs before' mid ds rest hagain ⟨more, rfl, hmore⟩
    rcases storedStars_le_of_turn hagain with ⟨d?, rfl, hd⟩
    refine ⟨d?.toList ++ more, by cases d? <;> simp, ?_⟩
    rw [storedStars_append]
    omega

theorem stars_writtenPieces (d : RawDeclaration) (pieces : List (Bool × Piece))
    : ValueText.stars (d.writtenPieces pieces) = ValueText.stars pieces := by
  have himportant : ValueText.stars ValueText.importantPieces = 0 := by decide
  unfold writtenPieces
  split
  . rw [ValueText.stars_append, himportant, Nat.add_zero]
  . rfl

theorem SpelledBy.count_render {d : RawDeclaration} {pieces : List (Bool × Piece)}
    (h : d.SpelledBy pieces)
    : d.render.toList.count '*' = ValueText.stars pieces := by
  have hname : d.property.toList.count '*' = 0 := by
    rw [List.count_eq_zero]
    intro hstar
    cases h.name.goesOn '*' hstar
  have hrender := h.toList_render []
  rw [List.append_nil] at hrender
  rw [hrender, List.count_append, hname, Nat.zero_add]
  simp only [List.count_cons, List.count_append, ValueText.count_render, stars_writtenPieces]
  simp

theorem SpelledBy.storedStars_lt_of_turn {d : RawDeclaration} {pieces : List (Bool × Piece)}
    (h : d.SpelledBy pieces) (hillegible : ¬ValueText.Legible pieces) {required : Bool}
    {before before' : List RawDeclaration} {cs rest rest' : List Char}
    (hcs : skipSpace cs = (.ok (), d.render.toList ++ rest))
    (hturn : turn '}' required before cs = (.ok (.again before'), rest'))
    : ∃ d? : Option RawDeclaration, before' = d?.toList ++ before ∧
        storedStars d?.toList + rest'.count '*' < ValueText.stars pieces + rest.count '*' := by
  have hwritten : ¬ValueText.Legible (d.writtenPieces pieces) := by
    unfold writtenPieces
    split
    . exact fun hlegible => hillegible (ValueText.legible_of_append hlegible)
    . exact hillegible
  rcases exists_readValueOf_of_turn hturn with
    ⟨d?, mid, hbefore, hskip, ⟨-, hnext⟩ | ⟨property, start, hnext, hvalue⟩⟩
  . cases hskip.symm.trans hcs
    rw [h.next_render] at hnext
    cases hnext
  . cases hskip.symm.trans hcs
    cases hnext.symm.trans (h.next_render rest)
    rcases exists_read_of_readValueOf hvalue with
      ⟨mid', start', text, last, hskip', hnext', hread, hlast, hd⟩
    have hcolon : IsSign ':' := isSign_of_mem (by decide)
    cases hskip'.symm.trans (skipSpace_of_clear (hcolon.clear_cons _))
    cases hnext'.symm.trans (hcolon.next_cons _)
    have hlt := ValueText.stars_lt_of_not_legible h.writtenPieces_ne_nil h.goesOn_writtenPieces
      hwritten hread
    have hrest : (';' :: rest).count '*' = rest.count '*' := List.count_cons_of_ne (by decide)
    have hlast := hlast.sublist.count_le '*'
    have hdeclaration := storedStars_toList_le hd
    rw [stars_writtenPieces] at hlt
    exact ⟨d?, hbefore, by omega⟩

theorem SpelledBy.turn_unclosed {d : RawDeclaration} {pieces : List (Bool × Piece)}
    (h : d.SpelledBy pieces) (hlegible : ValueText.Legible pieces)
    (hopen : ValueText.openAfter 0 pieces ≠ 0) {required : Bool} {before : List RawDeclaration}
    {cs : List Char} (hcs : skipSpace cs = (.ok (), d.render.toList))
    : turn '}' required before cs =
        (.ok (.again (⟨d.property,
          String.ofList (ValueText.render (d.writtenPieces pieces) ++ [';']), false⟩ :: before)),
          []) := by
  have hclear : Clear [] := trivial
  have hread : ValueText.read '}'
      (' ' :: (ValueText.render (d.writtenPieces pieces) ++ [';'])) = (.ok _, _) :=
    ValueText.read_render_unclosed h.writtenPieces_ne_nil h.goesOn_writtenPieces
      (d.legible_writtenPieces hlegible) (by rwa [d.openAfter_writtenPieces])
  have hskip : Token.skipOnly (.delim ';') [] = (.ok (), []) :=
    Token.peek_bind_eq_ok_iff.2 ⟨.eof, [], Token.next_of_clear hclear, rfl⟩
  rw [← List.append_nil d.render.toList] at hcs
  apply turn_of_readValueOf hcs (h.next_render [])
  exact readValueOf_of_read hread hskip
    (by rw [String.toList_ofList, splitImportant_concat (by decide)]) (by simp)

theorem SpelledBy.storedStars_eq {d : RawDeclaration} {pieces : List (Bool × Piece)}
    (h : d.SpelledBy pieces) (hstored : (Declaration.ofRaw d).toRaw = d)
    : storedStars [d] = ValueText.stars pieces := by
  have hvalue : (Declaration.ofRaw d).value.text = d.value :=
    congrArg RawDeclaration.value hstored
  rw [storedStars_singleton, hvalue, h.value, ValueText.count_render]

theorem InBlock.count_renderSpaced {required : Bool} {ds : List RawDeclaration}
    (h : InBlock required ds) (hstored : ∀ d ∈ ds, (Declaration.ofRaw d).toRaw = d)
    : (renderSpaced ds).count '*' = storedStars ds := by
  induction h with
  | nil => rfl
  | @cons d pieces ds hspelled hclosed hds ih =>
    rw [List.forall_mem_cons] at hstored
    have hcons : storedStars (d :: ds) = storedStars [d] + storedStars ds :=
      storedStars_append [d] ds
    have hrender : renderSpaced (d :: ds) = ' ' :: (d.render.toList ++ renderSpaced ds) := by
      simp [renderSpaced]
    rw [hcons, hspelled.storedStars_eq hstored.1, hrender, List.count_cons_of_ne (by decide),
      List.count_append, hspelled.count_render, ih hstored.2]

theorem length_text_ofText (text : String)
    : (PropertyValue.ofText text).text.length = text.length := by
  cases hinitial : Text.eqIgnoringCase text "initial" with
  | true =>
    have hlower := congrArg (·.toList.length) (Text.eqIgnoringCase_iff.1 hinitial)
    simp only [Text.toList_asciiLower, List.length_map, String.length_toList] at hlower
    rw [PropertyValue.text_ofText_of_eq hinitial, hlower]
  | false => rw [PropertyValue.text_ofText_of_ne hinitial]

theorem SpelledBy.ofRaw_unclosed_ne {d : RawDeclaration} {pieces : List (Bool × Piece)}
    (h : d.SpelledBy pieces) (hstored : (Declaration.ofRaw d).toRaw = d)
    : Declaration.ofRaw ⟨d.property,
        String.ofList (ValueText.render (d.writtenPieces pieces) ++ [';']), false⟩ ≠
          Declaration.ofRaw d := by
  intro heq
  have hvalue := congrArg (·.value.text.length) heq
  have hd := congrArg (·.value.length) hstored
  rw [Declaration.toRaw_ofRaw_value] at hd
  simp only [Declaration.value_ofRaw, length_text_ofText, String.length_ofList, List.length_append,
    h.render_writtenPieces, String.length_toList, List.length_singleton] at hvalue
  omega

theorem InBlock.skipSpace_renderSpaced {required : Bool} {d : RawDeclaration}
    {ds : List RawDeclaration} (h : InBlock required (d :: ds))
    : skipSpace (renderSpaced (d :: ds)) = (.ok (), d.render.toList ++ renderSpaced ds) := by
  cases h with
  | cons hspelled hclosed hds =>
    have hrender : renderSpaced (d :: ds) = ' ' :: (d.render.toList ++ renderSpaced ds) := by
      simp [renderSpaced]
    rw [hrender]
    exact skipSpace_blank rfl (hspelled.clear_render _)

theorem SpelledBy.loop_unclosed {d : RawDeclaration} {pieces : List (Bool × Piece)}
    (h : d.SpelledBy pieces) (hstored : (Declaration.ofRaw d).toRaw = d)
    (hlegible : ValueText.Legible pieces) (hopen : ValueText.openAfter 0 pieces ≠ 0)
    {before answer : List RawDeclaration} {cs rest : List Char}
    (hcs : skipSpace cs = (.ok (), d.render.toList))
    (hloop : Parser.loop (turn '}' false) (turn_progress '}' false) before cs =
      (.ok answer, rest))
    : answer.map Declaration.ofRaw ≠ (before.reverse ++ [d]).map Declaration.ofRaw := by
  rw [Parser.loop_of_again (h.turn_unclosed hlegible hopen hcs),
    Parser.loop_of_done (turn_nil _)] at hloop
  have hanswer := Except.ok.inj (congrArg Prod.fst hloop)
  rw [← hanswer, List.reverse_cons, List.map_append, List.map_append]
  intro heq
  exact h.ofRaw_unclosed_ne hstored (List.cons.inj (List.append_cancel_left heq)).1

theorem SpelledBy.loop_illegible {d : RawDeclaration} {pieces : List (Bool × Piece)}
    (h : d.SpelledBy pieces) (hstored : (Declaration.ofRaw d).toRaw = d)
    (hillegible : ¬ValueText.Legible pieces) {ds before answer : List RawDeclaration}
    {cs rest more : List Char} (hds : more.count '*' = storedStars ds)
    (hcs : skipSpace cs = (.ok (), d.render.toList ++ more))
    (hloop : Parser.loop (turn '}' false) (turn_progress '}' false) before cs =
      (.ok answer, rest))
    : answer.map Declaration.ofRaw ≠ (before.reverse ++ d :: ds).map Declaration.ofRaw := by
  intro heq
  rw [List.map_append] at heq
  rcases Parser.loop_eq_ok_iff.1 hloop with hdone | ⟨before', mid, hagain, hloop⟩
  . rw [eq_reverse_of_turn_done hdone] at heq
    have := congrArg List.length heq
    simp at this
  . rcases h.storedStars_lt_of_turn hillegible hcs hagain with ⟨d?, rfl, hlt⟩
    rcases storedStars_le_of_loop hloop with ⟨ds', rfl, hle⟩
    have hreverse : (d?.toList ++ before).reverse ++ ds' =
        before.reverse ++ (d?.toList ++ ds') := by
      cases d? <;> simp
    rw [hreverse, List.map_append] at heq
    have hstars := congrArg Declaration.stars (List.append_cancel_left heq)
    have hleft : storedStars (d?.toList ++ ds') = storedStars (d :: ds) := hstars
    have hcons : storedStars (d :: ds) = storedStars [d] + storedStars ds :=
      storedStars_append [d] ds
    -- The turns that follow cannot make up for the stars that are lost here.
    rw [storedStars_append, hcons, h.storedStars_eq hstored] at hleft
    omega

theorem readable_of_loop {ds before answer : List RawDeclaration} {cs rest : List Char}
    (hds : InBlock false ds) (hstored : ∀ d ∈ ds, (Declaration.ofRaw d).toRaw = d)
    (hcs : ∀ d ds', ds = d :: ds' → skipSpace cs = (.ok (), d.render.toList ++ renderSpaced ds'))
    (h : Parser.loop (turn '}' false) (turn_progress '}' false) before cs = (.ok answer, rest))
    (hanswer : answer.map Declaration.ofRaw = (before.reverse ++ ds).map Declaration.ofRaw)
    : ∀ d ∈ ds, d.Readable := by
  induction hds generalizing before cs with
  | nil => simp
  | @cons d pieces ds hspelled hclosed hds ih =>
    rw [List.forall_mem_cons] at hstored
    have hskip := hcs d ds rfl
    by_cases hlegible : ValueText.Legible pieces
    . by_cases hopen : ValueText.openAfter 0 pieces = 0
      . have hd : d.Readable := ⟨pieces, hspelled, hlegible, hopen⟩
        rw [Parser.loop_of_again (hd.turn_render false before hskip)] at h
        refine List.forall_mem_cons.2 ⟨hd, ih hstored.2 ?_ h ?_⟩
        . rintro d ds rfl
          exact hds.skipSpace_renderSpaced
        . rw [hanswer, List.reverse_cons, List.append_assoc]
          rfl
      . -- Only the last value can leave parentheses open.
        have hlast : ds = [] := Classical.not_not.1 fun hne => hopen (hclosed (.inr hne))
        subst hlast
        rw [renderSpaced, List.flatMap_nil, List.append_nil] at hskip
        exact absurd hanswer (hspelled.loop_unclosed hstored.1 hlegible hopen hskip h)
    . have hmore := hds.count_renderSpaced hstored.2
      exact absurd hanswer (hspelled.loop_illegible hstored.1 hlegible hmore hskip h)

end RawDeclaration

end TreeStyle
