import TreeStyle.Proofs.Cascade.Bare
import TreeStyle.Proofs.Sheet
import TreeStyle.Proofs.Vendor

/-!
This module contains the style sheets that give all elements one declaration, the value of which is
a word: how they are read, and what they make of the root of a tree.
-/

namespace TreeStyle

def Text.IsWord (text : String) : Prop := ∀ c ∈ text.toList, c.isAlphanum = true

theorem Text.plain_of_isAlphanum {c : Char} (h : c.isAlphanum = true)
    : isQuote c = false ∧ c ≠ ';' ∧ c ≠ '}' ∧ c ≠ '(' ∧ c ≠ ')' ∧ c ≠ '/' ∧ c ≠ '!' :=
  of_isAlphanum (p := fun c => isQuote c = false ∧ c ≠ ';' ∧ c ≠ '}' ∧ c ≠ '(' ∧ c ≠ ')' ∧
    c ≠ '/' ∧ c ≠ '!') (by decide) h

theorem splitImportant_of_notMem {cs : List Char} (h : '!' ∉ cs)
    : splitImportant cs = (cs, false) := by
  rcases splitImportant_cases cs with ⟨front, back, hcs, hback⟩ | hplain
  . have hmark : '!' ∈ back.map Char.toLower := by
      rw [hback]
      decide
    rcases List.mem_map.1 hmark with ⟨c, hc, hlower⟩
    rw [← beq_iff_eq, toLower_beq rfl, beq_iff_eq] at hlower
    rw [hcs, ← hlower] at h
    exact absurd (List.mem_append_right front hc) h
  . apply hplain

namespace ValueText

def wordPieces (cs : List Char) : List (Bool × Piece) := cs.map (false, .char ·)

theorem render_wordPieces (cs : List Char)
    : render (wordPieces cs) = cs := by
  have hflat : ∀ cs : List Char, (wordPieces cs).flatMap render.spaced = cs := by
    intro cs
    -- No piece of a word has a space in front of it.
    induction cs with
    | nil => rfl
    | cons c cs ih =>
      unfold wordPieces at *
      rw [List.map_cons, List.flatMap_cons, ih]
      rfl
  cases cs with
  | nil => rfl
  | cons c cs =>
    unfold wordPieces
    rw [List.map_cons, render]
    exact congrArg (c :: ·) (hflat cs)

variable {cs : List Char} (h : ∀ c ∈ cs, c.isAlphanum = true)

include h

theorem openAfter_wordPieces (depth : Nat)
    : openAfter depth (wordPieces cs) = depth := by
  have hpieces : (wordPieces cs).map (·.2) = cs.map Piece.char := by
    unfold wordPieces
    rw [List.map_map]
    rfl
  apply openAfter_of_chars hpieces
  intro c hc
  rcases Text.plain_of_isAlphanum (h c hc) with ⟨-, -, -, hopen, hclose, -, -⟩
  exact ⟨hopen, hclose⟩

theorem goesOn_wordPieces (depth : Nat)
    : GoesOn '}' depth (wordPieces cs) := by
  induction cs generalizing depth with
  | nil => trivial
  | cons c cs ih =>
    rw [List.forall_mem_cons] at h
    rcases Text.plain_of_isAlphanum h.1 with ⟨hquote, hsemicolon, hbrace, -⟩
    refine ⟨⟨Text.isBlank_of_isAlphanum h.1, hquote⟩, ?_, ih h.2 _⟩
    intro hends
    rcases hends.2 with hc | hc
    . apply hsemicolon hc
    . apply hbrace hc

theorem legible_wordPieces
    : Legible (wordPieces cs) := by
  induction cs with
  | nil => trivial
  | cons c cs ih =>
    rw [List.forall_mem_cons] at h
    rcases Text.plain_of_isAlphanum h.1 with ⟨-, -, -, -, -, hslash, -⟩
    refine ⟨trivial, ?_, ih h.2⟩
    intro hcomment
    apply hslash
    exact Piece.char.inj hcomment.1

end ValueText

namespace RawDeclaration

variable {name text : String}

theorem readable_word (hname : IsName name.toList) (htext : Text.IsWord text) (hne : text ≠ "")
    : (plain name text).Readable := by
  have hrender := ValueText.render_wordPieces text.toList
  refine ⟨ValueText.wordPieces text.toList, ⟨hname, ?_, ?_, hrender.symm, ?_⟩, ?_, ?_⟩
  . intro hnil
    apply hne
    rw [← String.toList_inj, ← hrender, hnil]
    rfl
  . apply ValueText.goesOn_wordPieces htext
  . intro _
    apply splitImportant_of_notMem
    intro hmark
    exact (Text.plain_of_isAlphanum (htext '!' hmark)).2.2.2.2.2.2 rfl
  . apply ValueText.legible_wordPieces htext
  . apply ValueText.openAfter_wordPieces htext

theorem readValueOf_valueless (property : String) (rest : List Char)
    : readValueOf property '}' (':' :: ' ' :: ';' :: rest) = (.ok none, rest) := by
  have hcolon : IsSign ':' := isSign_of_mem (by decide)
  have hsemicolon : IsSign ';' := isSign_of_mem (by decide)
  have hread : ValueText.read '}' (' ' :: ';' :: rest) = (.ok "", ';' :: rest) := by
    refine Parser.bind_eq_ok_iff.2 ⟨[], _, Parser.loop_of_done ?_, rfl⟩
    apply ValueText.turn_of_ends (skipTrivia_blank rfl (hsemicolon.clear_cons rest))
    exact ⟨rfl, .inl rfl⟩
  refine Parser.bind_eq_ok_iff.2 ⟨(), _, skipSpace_of_clear (hcolon.clear_cons _), ?_⟩
  refine Parser.bind_eq_ok_iff.2 ⟨_, _, hcolon.next_cons _, ?_⟩
  refine Parser.bind_eq_ok_iff.2 ⟨"", _, hread, ?_⟩
  exact Parser.bind_eq_ok_iff.2 ⟨(), rest, Token.skipOnly_sign hsemicolon rest, rfl⟩

theorem readBlock_valueless (hname : IsName name.toList) (rest : List Char)
    : readBlock '}' true (' ' :: ((plain name "").render.toList ++ ' ' :: '}' :: rest))
        = (.ok [], rest) := by
  have hcolon : IsSign ':' := isSign_of_mem (by decide)
  have hbrace : IsSign '}' := isSign_of_mem (by decide)
  have hrender : (plain name "").render.toList ++ ' ' :: '}' :: rest
      = name.toList ++ ':' :: ' ' :: ';' :: ' ' :: '}' :: rest := by
    simp [plain, render]
  have hnext := hname.next_append (hcolon.endsName_cons (' ' :: ';' :: ' ' :: '}' :: rest))
  have hagain : turn '}' true [] (' ' :: ((plain name "").render.toList ++ ' ' :: '}' :: rest))
      = (.ok (.again []), ' ' :: '}' :: rest) := by
    rw [hrender]
    refine Parser.bind_eq_ok_iff.2 ⟨(), _, skipSpace_blank rfl hname.clear_append, ?_⟩
    refine Parser.bind_eq_ok_iff.2 ⟨_, _, hnext, ?_⟩
    exact Parser.bind_eq_ok_iff.2 ⟨none, _, readValueOf_valueless _ _, rfl⟩
  have hdone : turn '}' true [] (' ' :: '}' :: rest) = (.ok (.done []), rest) := by
    refine Parser.bind_eq_ok_iff.2 ⟨(), _, skipSpace_blank rfl (hbrace.clear_cons rest), ?_⟩
    refine Parser.bind_eq_ok_iff.2 ⟨_, _, hbrace.next_cons rest, ?_⟩
    simp [Parser.pure_apply]
  exact (Parser.loop_of_again hagain).trans (Parser.loop_of_done hdone)

def ofWord (name text : String) : List RawDeclaration :=
  if text = "" then [] else [plain name text]

theorem readBlock_word (hname : IsName name.toList) (htext : Text.IsWord text) (rest : List Char)
    : readBlock '}' true (' ' :: ((plain name text).render.toList ++ ' ' :: '}' :: rest))
        = (.ok (ofWord name text), rest) := by
  unfold ofWord
  split
  . next hempty =>
    rw [hempty]
    apply readBlock_valueless hname
  . next hne =>
    have hreadable := List.forall_mem_singleton.2 (readable_word hname htext hne)
    have hblock : readBlock '}' true (renderSpaced [plain name text] ++ ' ' :: '}' :: rest)
        = (.ok [plain name text], rest) := readBlock_renderSpaced hreadable rest
    unfold renderSpaced at hblock
    rw [List.flatMap_singleton] at hblock
    apply hblock

end RawDeclaration

theorem Rule.readRaw_universal {ds : List RawDeclaration} {block rest : List Char}
    (h : RawDeclaration.readBlock '}' true block = (.ok ds, rest))
    : readRaw ('*' :: ' ' :: '{' :: block) = (.ok ⟨[.universal], ds⟩, rest) := by
  have hbrace : IsSign '{' := isSign_of_mem (by decide)
  have hreadable : ∀ s ∈ [Selector.universal], s.Readable := by
    rw [List.forall_mem_singleton]
    constructor
    . intro c hc
      rw [List.mem_singleton.1 hc]
      exact ⟨List.cons_ne_nil _ _, by simp [Selector.universal]⟩
    . intro c hc name hname
      rw [List.mem_singleton.1 hc] at hname
      cases List.mem_singleton.1 hname
  have hlist : Selector.readList ('*' :: ' ' :: '{' :: block) = (.ok [.universal], '{' :: block) :=
    Selector.readList_renderList (List.cons_ne_nil _ _) hreadable block
  refine Parser.bind_eq_ok_iff.2 ⟨_, _, hlist, ?_⟩
  rw [Token.skip_bind (hbrace.next_cons _)]
  exact Parser.bind_eq_ok_iff.2 ⟨_, _, h, rfl⟩

theorem RawSheet.read_of_readRaw {rule : Rule RawDeclaration} {cs : List Char} (hclear : Clear cs)
    (h : Rule.readRaw cs = (.ok rule, []))
    : read cs = (.ok [rule], []) := by
  have hend : Clear [] := trivial
  have hagain : turn [] cs = (.ok (.again [rule]), []) :=
    turn_eq_again_iff.2 ⟨[rule], .rule (skipSpace_of_clear hclear) h, rfl⟩
  have hdone : turn [rule] [] = (.ok (.done [rule]), []) :=
    turn_end [rule] (skipSpace_of_clear hend)
  exact (Parser.loop_of_again hagain).trans (Parser.loop_of_done hdone)

namespace StyleSheet

def forAll (name text : String) : StyleSheet :=
  ofRaw [⟨[.universal], RawDeclaration.ofWord name text⟩]

variable {name text : String}

theorem run_forAll (hname : IsName name.toList) (htext : Text.IsWord text)
    : read.run ("* \x7b " ++ name ++ ": " ++ text ++ "; \x7d") = .ok (forAll name text) := by
  have hsign : IsSign '*' := isSign_of_mem (by decide)
  have htoList : ("* \x7b " ++ name ++ ": " ++ text ++ "; \x7d").toList
      = '*' :: ' ' :: '{' :: ' ' ::
          ((RawDeclaration.plain name text).render.toList ++ [' ', '}']) := by
    rw [RawDeclaration.render_plain]
    simp
  have hblock := RawDeclaration.readBlock_word hname htext []
  have hread := RawSheet.read_of_readRaw (hsign.clear_cons _) (Rule.readRaw_universal hblock)
  apply Parser.run_eq_ok_iff.2
  rw [htoList]
  exact ⟨[], Parser.bind_eq_ok_iff.2 ⟨_, _, hread, rfl⟩⟩

theorem slot?_apply_universal (context : StyleContext) (ds : List Declaration) (tree : Tree Widget)
    (p : String)
    : ((mk [⟨[.universal], ds⟩]).apply context tree).1.value.store.slot? p
        = ((Style.mk ds).apply context tree).1.value.store.slot? p := by
  have hselects : context.matcher.selects .universal [ElementInfo.of tree.value] = true := by
    simp [Matcher.selects, Selector.universal, Matcher.search, Matcher.Attempt.remember,
      Matcher.matchesCompound, Matcher.matchesSimple]
  have hranked : Candidate.rank ((mk [⟨[.universal], ds⟩]).candidates context.matcher
      [ElementInfo.of tree.value]) = (Style.mk ds).ranked := rank_candidates_of_selects hselects
  unfold apply Style.apply
  rw [Cascade.slot?_run_root, Cascade.slot?_run_root, Style.rank_candidates_root]
  unfold StyleContext.matcher at hranked
  rw [hranked]

theorem slot?_apply_forAll {context : StyleContext} {tree : Tree Widget} {p : String}
    {value : Option Value} (huser : tree.value.origin p ≠ .user) (hne : text ≠ "")
    (hgives : Cascade.Gives context.registry (Registry.resolveName? tree.value) p
      (.plain name text) value)
    : ((forAll name text).apply context tree).1.value.store.slot? p = value.map .style := by
  unfold forAll ofRaw RawDeclaration.ofWord
  rw [if_neg hne]
  apply (slot?_apply_universal context _ tree p).trans
  apply Style.slot?_apply_root huser hgives

theorem slot?_apply_forAll_empty (context : StyleContext) (tree : Tree Widget) (name p : String)
    : ((forAll name "").apply context tree).1.value.store.slot? p
        = tree.value.store.slot? p := by
  apply (slot?_apply_universal context [] tree p).trans
  unfold Style.apply
  rw [Cascade.slot?_run_root, Style.rank_candidates_root, Style.ranked, List.map_nil,
    Candidate.rank_nil]
  rfl

end StyleSheet

end TreeStyle
