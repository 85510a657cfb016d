import TreeStyle.Proofs.Declaration.Stored
import TreeStyle.Proofs.Selector.Written
import TreeStyle.Reader
import TreeStyle.Sheet.Parser

/-!
This module contains the proof that a style sheet is read back from its written form, if no value
goes on to another line or holds the beginning of a comment.
-/

namespace TreeStyle

namespace Rule

structure Readable (rule : Rule RawDeclaration) : Prop where
  ne_nil : rule.selectors ≠ []
  selectors : ∀ s ∈ rule.selectors, s.Readable
  declarations : ∀ d ∈ rule.declarations, d.Readable

structure WellRead (rule : Rule RawDeclaration) : Prop where
  ne_nil : rule.selectors ≠ []
  selectors : ∀ s ∈ rule.selectors, s.Readable
  declarations : RawDeclaration.InBlock true rule.declarations

theorem toList_render (rule : Rule RawDeclaration) (rest : List Char)
    : (rule.render RawDeclaration.render).toList ++ rest =
        (Selector.renderList rule.selectors).toList ++
          ' ' :: '{' :: (RawDeclaration.renderSpaced rule.declarations ++ ' ' :: '}' :: rest) := by
  have hopen : " \x7b".toList = [' ', '{'] := rfl
  have hclose : " \x7d".toList = [' ', '}'] := rfl
  have hdeclarations : (String.join (rule.declarations.map (" " ++ ·.render))).toList =
      RawDeclaration.renderSpaced rule.declarations := by
    simp [String.toList_join, List.flatMap_map, RawDeclaration.renderSpaced]
  unfold render
  simp only [String.toList_append, hopen, hclose, hdeclarations, List.append_assoc,
    List.cons_append, List.nil_append]

variable {rule : Rule RawDeclaration}

theorem Readable.readRaw_render (h : rule.Readable) (rest : List Char)
    : readRaw ((rule.render RawDeclaration.render).toList ++ rest) = (.ok rule, rest) := by
  have hbrace : IsSign '{' := isSign_of_mem (by decide)
  rw [toList_render]
  refine Parser.bind_eq_ok_iff.2 ⟨_, _, Selector.readList_renderList h.ne_nil h.selectors _, ?_⟩
  rw [Token.skip_bind (hbrace.next_cons _)]
  exact Parser.bind_eq_ok_iff.2
    ⟨_, _, RawDeclaration.readBlock_renderSpaced h.declarations rest, rfl⟩

theorem Readable.clear_render (h : rule.Readable) (rest : List Char)
    : Clear ((rule.render RawDeclaration.render).toList ++ rest) := by
  rw [toList_render]
  exact Selector.clear_renderList h.ne_nil h.selectors _

theorem ahead_of_readRaw {rule : Rule RawDeclaration} {cs rest : List Char}
    (h : readRaw cs = (.ok rule, rest))
    : Ahead (fun t => t ≠ .eof ∧ t ≠ .delim '@') cs := by
  rcases Parser.bind_eq_ok_iff.1 h with ⟨list, mid, hlist, -⟩
  rcases Selector.readList_eq_ok_iff.1 hlist with ⟨_, ⟨before, us, hbefore, hus, rfl⟩, hts, -⟩
  rcases hbefore with rfl | rfl
  . rcases hus.exists_starts with ⟨t, us, rfl, ht⟩
    rcases Lexes.cons_iff.1 hts with ⟨hne, mid, hnext, -⟩
    refine ⟨t, mid, hnext, hne, ?_⟩
    rintro rfl
    cases ht
  . rcases Lexes.cons_iff.1 hts with ⟨hne, mid, hnext, -⟩
    exact ⟨_, mid, hnext, hne, by simp⟩

theorem wellRead_of_readRaw {cs rest : List Char} (h : readRaw cs = (.ok rule, rest))
    : rule.WellRead := by
  rcases Parser.bind_eq_ok_iff.1 h with ⟨selectors, mid, hselectors, h⟩
  rcases Parser.bind_eq_ok_iff.1 h with ⟨_, mid', -, h⟩
  rcases Parser.bind_eq_ok_iff.1 h with ⟨ds, mid'', hds, h⟩
  rcases Parser.pure_eq_ok_iff.1 h with ⟨rfl, rfl⟩
  rcases Selector.readable_of_readList hselectors with ⟨hne, hreadable⟩
  exact ⟨hne, hreadable, RawDeclaration.inBlock_of_readBlock hds⟩

end Rule

namespace RawSheet

inductive Adds (cs : List Char) : RawSheet → List Char → Prop where
  | rule {rule : Rule RawDeclaration} {mid rest : List Char} (hskip : skipSpace cs = (.ok (), mid))
      (hrule : Rule.readRaw mid = (.ok rule, rest)) : Adds cs [rule] rest
  | atRule {name : String} {mid body start rest : List Char} (hskip : skipSpace cs = (.ok (), mid))
      (hsign : Token.next mid = (.ok (.delim '@'), body))
      (hname : Token.next body = (.ok (.ident name), start))
      (hend : AtRule.skip start = (.ok (), rest)) : Adds cs [] rest

theorem turn_eq_again_iff {before before' : RawSheet} {cs rest : List Char}
    : turn before cs = (.ok (.again before'), rest)
        ↔
      ∃ new, Adds cs new rest ∧ before' = new ++ before := by
  constructor
  . intro h
    rcases Parser.bind_eq_ok_iff.1 h with ⟨_, mid, hskip, h⟩
    rcases Token.peek_bind_eq_ok_iff.1 h with ⟨t, mid', hnext, h⟩
    split at h
    . simp [Parser.pure_eq_ok_iff] at h
    . rw [Token.skip_readIdent_bind_eq_ok_iff hnext (by simp)] at h
      rcases h with ⟨name, start, hts, h⟩
      rcases Lexes.pair_iff.1 hts with ⟨-, -, body, hsign, hname⟩
      rcases Parser.bind_eq_ok_iff.1 h with ⟨_, _, hend, h⟩
      rcases Parser.pure_eq_ok_iff.1 h with ⟨hbefore, rfl⟩
      cases hbefore
      exact ⟨[], .atRule hskip hsign hname hend, rfl⟩
    . rcases Parser.bind_eq_ok_iff.1 h with ⟨rule, _, hrule, h⟩
      rcases Parser.pure_eq_ok_iff.1 h with ⟨hbefore, rfl⟩
      cases hbefore
      exact ⟨[rule], .rule hskip hrule, rfl⟩
  . rintro ⟨new, hadds, rfl⟩
    cases hadds with
    | @rule rule mid _ hskip hrule =>
      rcases Rule.ahead_of_readRaw hrule with ⟨t, mid', hnext, heof, hsign⟩
      refine Parser.bind_eq_ok_iff.2
        ⟨(), mid, hskip, Token.peek_bind_eq_ok_iff.2 ⟨t, mid', hnext, ?_⟩⟩
      split
      . exact absurd rfl heof
      . exact absurd rfl hsign
      . exact Parser.bind_eq_ok_iff.2 ⟨rule, rest, hrule, rfl⟩
    | @atRule name mid body start _ hskip hsign hname hend =>
      refine Parser.bind_eq_ok_iff.2
        ⟨(), mid, hskip, Token.peek_bind_eq_ok_iff.2 ⟨_, body, hsign, ?_⟩⟩
      refine (Token.skip_readIdent_bind_eq_ok_iff hsign (by simp)).2 ⟨name, start, ?_, ?_⟩
      . exact Lexes.pair_iff.2 ⟨by simp, by simp, body, hsign, hname⟩
      . exact Parser.bind_eq_ok_iff.2 ⟨(), rest, hend, rfl⟩

theorem turn_end (before : RawSheet) {cs : List Char} (hcs : skipSpace cs = (.ok (), []))
    : turn before cs = (.ok (.done before.reverse), []) := by
  have hclear : Clear [] := trivial
  exact Parser.bind_eq_ok_iff.2 ⟨(), _, hcs,
    Token.peek_bind_eq_ok_iff.2 ⟨.eof, [], Token.next_of_clear hclear, rfl⟩⟩

theorem turn_eq_done_iff {before sheet : RawSheet} {cs rest : List Char}
    : turn before cs = (.ok (.done sheet), rest)
        ↔
      sheet = before.reverse ∧ rest = [] ∧ skipSpace cs = (.ok (), []) := by
  constructor
  . intro h
    rcases Parser.bind_eq_ok_iff.1 h with ⟨_, mid, hskip, h⟩
    rcases Token.peek_bind_eq_ok_iff.1 h with ⟨t, mid', hnext, h⟩
    split at h
    . rcases Parser.pure_eq_ok_iff.1 h with ⟨hsheet, rfl⟩
      cases hsheet
      rcases skipSpace_eq_ok_iff.1 hskip with ⟨spaced, htrivia⟩
      rw [Token.next_of_clear (clear_of_skipTrivia htrivia)] at hnext
      match mid with
      | [] => exact ⟨rfl, rfl, hskip⟩
      | a :: mid => exact absurd hnext Token.readHere_cons_ne_eof
    . rw [Token.skip_readIdent_bind_eq_ok_iff hnext (by simp)] at h
      rcases h with ⟨name, mid', -, h⟩
      rcases Parser.bind_eq_ok_iff.1 h with ⟨_, _, -, h⟩
      simp [Parser.pure_eq_ok_iff] at h
    . rcases Parser.bind_eq_ok_iff.1 h with ⟨_, _, -, h⟩
      simp [Parser.pure_eq_ok_iff] at h
  . rintro ⟨rfl, rfl, hskip⟩
    exact turn_end before hskip

theorem turn_render {rule : Rule RawDeclaration} (h : rule.Readable) (before : RawSheet)
    {cs rest : List Char}
    (hcs : skipSpace cs = (.ok (), (rule.render RawDeclaration.render).toList ++ rest))
    : turn before cs = (.ok (.again (rule :: before)), rest) :=
  turn_eq_again_iff.2 ⟨[rule], .rule hcs (h.readRaw_render rest), rfl⟩

def renderLines (sheet : RawSheet) : List Char :=
  sheet.flatMap fun rule => '\n' :: (rule.render RawDeclaration.render).toList

theorem loop_renderLines {sheet : RawSheet} (h : ∀ rule ∈ sheet, rule.Readable)
    (before : RawSheet)
    : Parser.loop turn turn_progress before (renderLines sheet ++ ['\n']) =
        (.ok (before.reverse ++ sheet), []) := by
  induction sheet generalizing before with
  | nil =>
    have hclear : Clear [] := trivial
    rw [List.append_nil]
    exact Parser.loop_of_done (turn_end before (skipSpace_blank rfl hclear))
  | cons rule sheet ih =>
    rw [List.forall_mem_cons] at h
    have hskip : skipSpace (renderLines (rule :: sheet) ++ ['\n']) =
        (.ok (), (rule.render RawDeclaration.render).toList ++ (renderLines sheet ++ ['\n'])) := by
      unfold renderLines
      rw [List.flatMap_cons, List.append_assoc]
      exact skipSpace_blank rfl (h.1.clear_render _)
    rw [Parser.loop_of_again (turn_render h.1 before hskip), ih h.2, List.reverse_cons,
      List.append_assoc]
    rfl

theorem render_cons (rule : Rule RawDeclaration) (sheet : RawSheet)
    : (render (rule :: sheet)).toList =
        (rule.render RawDeclaration.render).toList ++ '\n' :: (render sheet).toList := by
  have hline : "\n".toList = ['\n'] := rfl
  unfold render renderRules
  rw [List.map_cons, String.join_cons, String.toList_append, String.toList_append, hline,
    List.append_assoc]
  rfl

theorem cons_toList_render (sheet : RawSheet)
    : '\n' :: (render sheet).toList = renderLines sheet ++ ['\n'] := by
  induction sheet with
  | nil => rfl
  | cons rule sheet ih =>
    unfold renderLines at *
    rw [render_cons, ih, List.flatMap_cons, List.append_assoc, List.cons_append]

theorem read_render {sheet : RawSheet} (h : ∀ rule ∈ sheet, rule.Readable)
    : read sheet.render.toList = (.ok sheet, []) := by
  have hclear : Clear [] := trivial
  unfold read
  cases sheet with
  | nil => exact Parser.loop_of_done (turn_end [] (skipSpace_of_clear hclear))
  | cons rule sheet =>
    rw [List.forall_mem_cons] at h
    have hagain := turn_render h.1 []
      (skipSpace_of_clear (h.1.clear_render (renderLines sheet ++ ['\n'])))
    rw [render_cons, cons_toList_render, Parser.loop_of_again hagain, loop_renderLines h.2]
    rfl

theorem wellRead_of_read {sheet : RawSheet} {cs rest : List Char}
    (h : read cs = (.ok sheet, rest))
    : ∀ rule ∈ sheet, rule.WellRead := by
  have hloop : ∃ more, sheet = [].reverse ++ more ∧ ∀ rule ∈ more, rule.WellRead := by
    refine Parser.loop_induction (motive := fun before _ sheet _ =>
      ∃ more, sheet = before.reverse ++ more ∧ ∀ rule ∈ more, rule.WellRead) ?_ ?_ h
    . intro before cs sheet rest hdone
      rcases turn_eq_done_iff.1 hdone with ⟨rfl, -, -⟩
      exact ⟨[], by simp, by simp⟩
    . rintro before cs before' mid sheet rest hagain ⟨more, rfl, hmore⟩
      rcases turn_eq_again_iff.1 hagain with ⟨new, hnew, rfl⟩
      refine ⟨new.reverse ++ more, by simp, ?_⟩
      cases hnew with
      | rule hskip hrule =>
        exact List.forall_mem_cons.2 ⟨Rule.wellRead_of_readRaw hrule, hmore⟩
      | atRule hskip hsign hname hend => exact hmore
  rcases hloop with ⟨more, rfl, hmore⟩
  exact hmore

end RawSheet

namespace StyleSheet

def toRaw (sheet : StyleSheet) : RawSheet := sheet.rules.map (Rule.map Declaration.toRaw)

theorem render_toRaw (sheet : StyleSheet)
    : sheet.toRaw.render = sheet.render := by
  unfold toRaw RawSheet.render render renderRules
  rw [List.map_map]
  congr 2
  funext rule
  simp [Rule.render, Rule.map, Declaration.render, Function.comp_def]

structure Readable (sheet : StyleSheet) : Prop where
  rules : ∀ rule ∈ sheet.toRaw, rule.Readable
  stored : ofRaw sheet.toRaw = sheet

theorem Readable.read_render {sheet : StyleSheet} (h : sheet.Readable)
    : read sheet.render.toList = (.ok sheet, []) := by
  have hread := RawSheet.read_render h.rules
  rw [render_toRaw] at hread
  exact Parser.bind_eq_ok_iff.2 ⟨sheet.toRaw, [], hread, Parser.pure_eq_ok_iff.2 ⟨h.stored, rfl⟩⟩

theorem toRaw_append (s t : StyleSheet)
    : (s ++ t).toRaw = s.toRaw ++ t.toRaw :=
  List.map_append

theorem ofRaw_append (s t : RawSheet)
    : ofRaw (s ++ t) = ofRaw s ++ ofRaw t :=
  congrArg StyleSheet.mk List.map_append

theorem Readable.append {s t : StyleSheet} (hs : s.Readable) (ht : t.Readable)
    : (s ++ t).Readable := by
  constructor
  . rw [toRaw_append, List.forall_mem_append]
    exact ⟨hs.rules, ht.rules⟩
  . rw [toRaw_append, ofRaw_append, hs.stored, ht.stored]

theorem Readable.foldl_append {sheet : StyleSheet} {others : List StyleSheet}
    (hsheet : sheet.Readable) (hothers : ∀ other ∈ others, other.Readable)
    : (others.foldl (· ++ ·) sheet).Readable := by
  induction others generalizing sheet with
  | nil => exact hsheet
  | cons other others ih =>
    rw [List.forall_mem_cons] at hothers
    exact ih (hsheet.append hothers.1) hothers.2

theorem readable_of_read {sheet : StyleSheet} {cs rest : List Char}
    (h : read cs = (.ok sheet, rest))
    (hplain : ∀ rule ∈ sheet.rules, ∀ d ∈ rule.declarations, d.Plain)
    : sheet.Readable := by
  rcases Parser.bind_eq_ok_iff.1 h with ⟨raw, mid, hraw, h⟩
  rcases Parser.pure_eq_ok_iff.1 h with ⟨rfl, rfl⟩
  have hrules := RawSheet.wellRead_of_read hraw
  have hstored : (ofRaw raw).toRaw = raw.map (Rule.map fun d => (Declaration.ofRaw d).toRaw) := by
    simp [ofRaw, toRaw, Rule.map, Function.comp_def]
  constructor
  . rw [hstored, List.forall_mem_map]
    intro rule hrule
    rcases hrules rule hrule with ⟨hne, hselectors, hblock⟩
    refine ⟨hne, hselectors, ?_⟩
    unfold Rule.map
    rw [List.forall_mem_map]
    intro d hd
    rcases hblock.exists_spelledBy d hd with ⟨pieces, hspelled, hclosed⟩
    refine Declaration.Plain.readable_toRaw ?_ hspelled (hclosed rfl)
    exact hplain (rule.map Declaration.ofRaw) (List.mem_map_of_mem hrule) _ (List.mem_map_of_mem hd)
  . rw [hstored]
    simp [ofRaw, Rule.map, Function.comp_def, Declaration.ofRaw_toRaw_ofRaw]

namespace TwoSheets

def text : String := "#Main>.a , *\x7b COLOR :Red!IMPORTANT;x:  f( 'a;b'/**/ )\x7d @media\x7b\x7d"

def sheet : StyleSheet :=
  ⟨[{ selectors := [⟨[.id "Main"], [(.child, [.className "a"])]⟩, .universal]
      declarations := [⟨"color", .specified "Red", true⟩, ⟨"x", .specified "f( 'a;b' )", false⟩] }]⟩

def otherText : String := "label \x7b margin: INITIAL \x7d"

def other : StyleSheet :=
  ⟨[{ selectors := [⟨[.typeName "label"], []⟩]
      declarations := [⟨"margin", .initial, false⟩] }]⟩

theorem run_texts
    : (read.run text).toOption = some sheet ∧ (read.run otherText).toOption = some other := by
  decide +kernel

theorem run_text
    : read.run text = .ok sheet :=
  Parser.run_eq_ok_of_toOption run_texts.1

theorem run_otherText
    : read.run otherText = .ok other :=
  Parser.run_eq_ok_of_toOption run_texts.2

end TwoSheets

open TwoSheets

/--
A sheet that was read from a text and extended by the rules of others is read back from its written
form, if no stored value holds a line break or the beginning of a comment.
-/
theorem reread_render (sheet : StyleSheet) (others : List StyleSheet)
    (hread : ∀ s ∈ sheet :: others, ∃ text, read.run text = .ok s)
    (hplain : ∀ s ∈ sheet :: others, ∀ rule ∈ s.rules, ∀ d ∈ rule.declarations,
      '\n' ∉ d.value.text.toList ∧ ¬['/', '*'] <:+: d.value.text.toList)
    : read.run (others.foldl (· ++ ·) sheet).render = .ok (others.foldl (· ++ ·) sheet) := by
  have hreadable : ∀ s ∈ sheet :: others, s.Readable := by
    intro s hs
    rcases hread s hs with ⟨text, htext⟩
    rcases Parser.run_eq_ok_iff.1 htext with ⟨rest, htext⟩
    exact readable_of_read htext (hplain s hs)
  rw [List.forall_mem_cons] at hreadable
  have := (hreadable.1.foldl_append hreadable.2).read_render
  exact Parser.run_eq_ok_iff.2 ⟨[], this⟩

theorem reread_render_twoSheets
    : read.run text = .ok sheet ∧ read.run otherText = .ok other ∧
        read.run (sheet ++ other).render = .ok (sheet ++ other) := by
  refine ⟨run_text, run_otherText, reread_render sheet [other] ?_ ?_⟩
  . intro s hs
    simp only [List.mem_cons, List.not_mem_nil, or_false] at hs
    rcases hs with rfl | rfl
    . exact ⟨text, run_text⟩
    . exact ⟨otherText, run_otherText⟩
  . decide +kernel

end StyleSheet

end TreeStyle
