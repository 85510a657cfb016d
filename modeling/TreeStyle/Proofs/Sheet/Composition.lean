import TreeStyle.Proofs.AtRule
import TreeStyle.Proofs.Sheet

/-!
This module contains the proof that sheets are read one after the other: the rules of a text are not
changed by what follows it, and at-rules between two texts add nothing.
-/

namespace TreeStyle

variable {c terminator : Char}

namespace ValueText

theorem stableBefore_turn (hc : IsSign c) (s : State)
    : (turn terminator s).StableBefore c := by
  refine (stableBefore_skipTrivia hc).bind fun spaced => Parser.stableBefore_peekChar.bind ?_
  intro next
  split
  . exact Parser.stableBefore_pure _
  . split
    . exact Parser.stableBefore_pure _
    . split
      . exact (stableBefore_readQuoted _).bind fun _ => Parser.stableBefore_pure _
      . exact Parser.stableBefore_skipChar.bind fun _ => Parser.stableBefore_pure _

theorem stableBefore_read (hc : IsSign c)
    : (read terminator).StableBefore c :=
  (Parser.stableBefore_loop (stableBefore_turn hc) _).bind fun _ => Parser.stableBefore_pure _

theorem ends_of_read {cs rest : List Char} {text : String}
    (h : read terminator cs = (.ok text, rest))
    : ∀ c ∈ rest.head?, c = ';' ∨ c = terminator := by
  rcases Parser.bind_eq_ok_iff.1 h with ⟨pieces, mid, hpieces, h⟩
  rcases Parser.pure_eq_ok_iff.1 h with ⟨-, rfl⟩
  rcases goesOn_of_loop hpieces with ⟨more, -, -, hends⟩
  intro c hc
  exact (hends c hc).2

end ValueText

theorem Token.skipOnly_cons (hc : IsSign c) (t : Token) (cs : List Char)
    : skipOnly t (c :: cs) = (.ok (), if .delim c = t then cs else c :: cs) := by
  refine Token.peek_bind_eq_ok_iff.2 ⟨_, _, hc.next_cons cs, ?_⟩
  split
  . exact Parser.bind_eq_ok_iff.2 ⟨_, _, hc.next_cons cs, rfl⟩
  . rfl

namespace RawDeclaration

theorem stableBefore_readValueOf (hc : IsSign c) (hterminator : IsSign terminator)
    (property : String)
    : (readValueOf property terminator).StableBefore c := by
  have hsemicolon : IsSign ';' := isSign_of_mem (by decide)
  refine (stableBefore_skipSpace hc).bind fun _ => (Token.stableBefore_next hc).bind ?_
  intro t
  split
  . refine ⟨?_, ?_⟩
    . exact (ValueText.shrinks_read _).bind fun _ => (Token.shrinks_skipOnly _).bind fun _ =>
        Parser.shrinks_pure _
    . intro cs rest d? h hmem more
      rcases Parser.bind_eq_ok_iff.1 h with ⟨text, last, hread, h⟩
      rcases Parser.bind_eq_ok_iff.1 h with ⟨_, mid, hskip, h⟩
      rcases Parser.pure_eq_ok_iff.1 h with ⟨hd, rfl⟩
      have hlast := ((Token.shrinks_skipOnly _).suffix hskip).mem hmem
      refine Parser.bind_eq_ok_iff.2
        ⟨text, _, (ValueText.stableBefore_read hc).append hread hlast more, ?_⟩
      -- What is left begins with what ends the value, so that no other token is looked at.
      match last with
      | a :: last =>
        have ha : IsSign a := by
          rcases ValueText.ends_of_read hread a rfl with rfl | rfl
          . exact hsemicolon
          . exact hterminator
        rw [Token.skipOnly_cons ha] at hskip
        cases hskip
        refine Parser.bind_eq_ok_iff.2 ⟨(), _, Token.skipOnly_cons ha _ (last ++ more), ?_⟩
        refine Parser.pure_eq_ok_iff.2 ⟨hd, ?_⟩
        split
        . rfl
        . rfl
  . exact Parser.stableBefore_fail _

theorem stableBefore_turn (hc : IsSign c) (hterminator : IsSign terminator) (required : Bool)
    (ds : List RawDeclaration)
    : (turn terminator required ds).StableBefore c := by
  refine (stableBefore_skipSpace hc).bind fun _ => (Token.stableBefore_next hc).bind fun t => ?_
  split
  . split
    . exact Parser.stableBefore_failEnd _
    . exact Parser.stableBefore_pure _
  . split
    . exact Parser.stableBefore_pure _
    . split
      . exact Parser.stableBefore_pure _
      . exact Parser.stableBefore_fail _
  . exact (stableBefore_readValueOf hc hterminator _).bind fun _ => Parser.stableBefore_pure _
  . exact Parser.stableBefore_fail _

theorem turn_eq_done_iff {before ds : List RawDeclaration} {cs rest : List Char}
    : turn terminator true before cs = (.ok (.done ds), rest)
        ↔
      ds = before.reverse ∧
        ∃ mid, skipSpace cs = (.ok (), mid) ∧ Token.next mid = (.ok (.delim terminator), rest) := by
  constructor
  . intro h
    refine ⟨eq_reverse_of_turn_done h, ?_⟩
    rcases Parser.bind_eq_ok_iff.1 h with ⟨_, mid, hskip, h⟩
    rcases Parser.bind_eq_ok_iff.1 h with ⟨t, start, hnext, h⟩
    refine ⟨mid, hskip, ?_⟩
    split at h
    . exact absurd h Parser.failEnd_ne_ok
    . split at h
      . next hterminator =>
        rcases Parser.pure_eq_ok_iff.1 h with ⟨-, rfl⟩
        rw [hnext, hterminator]
      . split at h
        . simp [Parser.pure_eq_ok_iff] at h
        . exact absurd h Parser.fail_ne_ok
    . rcases Parser.bind_eq_ok_iff.1 h with ⟨d?, _, -, h⟩
      simp [Parser.pure_eq_ok_iff] at h
    . exact absurd h Parser.fail_ne_ok
  . rintro ⟨rfl, mid, hskip, hnext⟩
    refine Parser.bind_eq_ok_iff.2 ⟨(), mid, hskip, Parser.bind_eq_ok_iff.2 ⟨_, _, hnext, ?_⟩⟩
    exact congrFun (if_pos rfl) _

theorem readBlock_append (hterminator : IsSign terminator) {ds : List RawDeclaration}
    {cs rest : List Char} (h : readBlock terminator true cs = (.ok ds, rest)) (more : List Char)
    : readBlock terminator true (cs ++ more) = (.ok ds, rest ++ more) := by
  refine (Parser.loop_induction (motive := fun before cs ds rest => terminator ∈ cs ∧
    Parser.loop (turn terminator true) (turn_progress terminator true) before (cs ++ more) =
      (.ok ds, rest ++ more)) ?_ ?_ h).2
  . intro before cs ds rest hdone
    rcases turn_eq_done_iff.1 hdone with ⟨rfl, mid, hskip, hnext⟩
    have hmid := Token.mem_of_next hnext
    refine ⟨(shrinks_skipSpace.suffix hskip).mem hmid, Parser.loop_of_done ?_⟩
    refine turn_eq_done_iff.2 ⟨rfl, mid ++ more, ?_, Token.next_append hterminator hnext more⟩
    exact (stableBefore_skipSpace hterminator).append hskip hmid more
  . rintro before cs before' mid ds rest hagain ⟨hmid, hloop⟩
    have hturn := stableBefore_turn hterminator hterminator true before
    refine ⟨(hturn.shrinks.suffix hagain).mem hmid, ?_⟩
    rw [Parser.loop_of_again (hturn.append hagain hmid more), hloop]

end RawDeclaration

theorem Selector.readList_append {list : List Selector} {cs rest : List Char}
    (h : readList cs = (.ok list, rest)) (more : List Char)
    : '{' ∈ cs ∧ readList (cs ++ more) = (.ok list, rest ++ more) := by
  have hbrace : IsSign '{' := isSign_of_mem (by decide)
  rcases readList_eq_ok_iff.1 h with ⟨ts, hlist, hts, _, after, hnext, rfl⟩
  have hmem := Token.mem_of_next hnext
  refine ⟨hts.suffix.mem hmem, readList_eq_ok_iff.2 ⟨ts, hlist, ?_, ?_⟩⟩
  . exact hts.append_of_mem hbrace hmem more
  . exact ⟨_, _, Token.next_append hbrace hnext more, rfl⟩

namespace Rule

theorem readRaw_append {rule : Rule RawDeclaration} {cs rest : List Char}
    (h : readRaw cs = (.ok rule, rest)) (more : List Char)
    : '{' ∈ cs ∧ readRaw (cs ++ more) = (.ok rule, rest ++ more) := by
  have hopen : IsSign '{' := isSign_of_mem (by decide)
  have hclose : IsSign '}' := isSign_of_mem (by decide)
  rcases Parser.bind_eq_ok_iff.1 h with ⟨list, mid, hlist, h⟩
  rcases Selector.readList_eq_ok_iff.1 hlist with ⟨_, -, -, _, after, hnext, rfl⟩
  rw [Token.skip_bind hnext] at h
  rcases Parser.bind_eq_ok_iff.1 h with ⟨ds, _, hblock, h⟩
  rcases Parser.pure_eq_ok_iff.1 h with ⟨rfl, rfl⟩
  rcases Selector.readList_append hlist more with ⟨hmem, hlist⟩
  refine ⟨hmem, Parser.bind_eq_ok_iff.2 ⟨list, _, hlist, ?_⟩⟩
  rw [Token.skip_bind (Token.next_append hopen hnext more)]
  exact Parser.bind_eq_ok_iff.2 ⟨ds, _, RawDeclaration.readBlock_append hclose hblock more, rfl⟩

end Rule

namespace RawSheet

theorem Adds.suffix {new : RawSheet} {cs rest : List Char} (h : Adds cs new rest)
    : rest <:+ cs :=
  (shrinks_turn []).suffix (turn_eq_again_iff.2 ⟨new, h, rfl⟩)

theorem Adds.append {new : RawSheet} {cs rest : List Char} (h : Adds cs new rest)
    (hsign : '@' ∉ cs) (more : List Char)
    : Adds (cs ++ more) new (rest ++ more) := by
  have hopen : IsSign '{' := isSign_of_mem (by decide)
  cases h with
  | rule hskip hrule =>
    rcases Rule.readRaw_append hrule more with ⟨hmem, hrule⟩
    exact .rule ((stableBefore_skipSpace hopen).append hskip hmem more) hrule
  | atRule hskip hnext hname hend =>
    exact absurd ((shrinks_skipSpace.suffix hskip).mem (Token.mem_of_next hnext)) hsign

theorem adds_written {written : List Char} (h : AtRule.Written written) (more : List Char)
    : Adds (written ++ more) [] more := by
  have hsign : IsSign '@' := ⟨rfl, rfl, rfl, rfl, by decide, by decide⟩
  rcases h.exists_name more with ⟨name, body, rfl, mid, hname, hend⟩
  exact .atRule (skipSpace_of_clear (hsign.clear_cons _)) (hsign.next_cons _) hname hend

theorem exists_rules_of_loop {before sheet : RawSheet} {cs rest : List Char}
    (h : Parser.loop turn turn_progress before cs = (.ok sheet, rest))
    : ∃ new, sheet = before.reverse ++ new ∧ ∀ before',
        Parser.loop turn turn_progress before' cs = (.ok (before'.reverse ++ new), rest) := by
  refine Parser.loop_induction (motive := fun before cs sheet rest =>
    ∃ new, sheet = before.reverse ++ new ∧ ∀ before',
      Parser.loop turn turn_progress before' cs = (.ok (before'.reverse ++ new), rest)) ?_ ?_ h
  . intro before cs sheet rest hdone
    rcases turn_eq_done_iff.1 hdone with ⟨rfl, rfl, hskip⟩
    refine ⟨[], (List.append_nil _).symm, fun before' => ?_⟩
    rw [Parser.loop_of_done (turn_end before' hskip), List.append_nil]
  . rintro before cs before₁ mid sheet rest hagain ⟨new, rfl, hnew⟩
    rcases turn_eq_again_iff.1 hagain with ⟨first, hfirst, rfl⟩
    refine ⟨first.reverse ++ new, by simp, fun before' => ?_⟩
    rw [Parser.loop_of_again (turn_eq_again_iff.2 ⟨first, hfirst, rfl⟩), hnew]
    simp

theorem loop_append {before sheet : RawSheet} {cs rest : List Char}
    (h : Parser.loop turn turn_progress before cs = (.ok sheet, rest)) (hsign : '@' ∉ cs)
    (more : List Char)
    : Parser.loop turn turn_progress before (cs ++ more) =
        Parser.loop turn turn_progress sheet.reverse more := by
  refine Parser.loop_induction (motive := fun before cs sheet _ => '@' ∉ cs →
    Parser.loop turn turn_progress before (cs ++ more) =
      Parser.loop turn turn_progress sheet.reverse more) ?_ ?_ h hsign
  . intro before cs sheet rest hdone _
    rcases turn_eq_done_iff.1 hdone with ⟨rfl, -, hskip⟩
    rw [List.reverse_reverse]
    apply Parser.loop_congr
    unfold turn
    rw [Parser.bind_apply, Parser.bind_apply, skipSpace_append_of_nil hskip]
  . intro before cs before' mid sheet rest hagain ih hsign
    rcases turn_eq_again_iff.1 hagain with ⟨new, hnew, rfl⟩
    rw [Parser.loop_of_again (turn_eq_again_iff.2 ⟨new, hnew.append hsign more, rfl⟩)]
    exact ih fun hmem => hsign (hnew.suffix.mem hmem)

namespace Composed

def text : String := "#main > .a , * \x7b color: red; x: f('b;c') /**/ \x7d label\x7b\x7d /* end */"

def sheet : RawSheet :=
  [{ selectors := [⟨[.id "main"], [(.child, [.className "a"])]⟩, .universal]
     declarations := [.plain "color" "red", .plain "x" "f('b;c')"] },
    { selectors := [⟨[.typeName "label"], []⟩], declarations := [] }]

def atRule : String := "@media (x > 1) \x7b a \x7b b: c; \x7d \x7d"

def otherText : String := "@import x; button \x7b margin: 1 \x7d"

def other : RawSheet :=
  [{ selectors := [⟨[.typeName "button"], []⟩], declarations := [.plain "margin" "1"] }]

theorem run_texts
    : (read.run text).toOption = some sheet ∧ (read.run otherText).toOption = some other := by
  decide +kernel

theorem run_text
    : read.run text = .ok sheet :=
  Parser.run_eq_ok_of_toOption run_texts.1

theorem run_otherText
    : read.run otherText = .ok other :=
  Parser.run_eq_ok_of_toOption run_texts.2

theorem written_atRule
    : AtRule.Written atRule.toList := by
  have hname : IsName "media".toList := by
    refine ⟨by decide, List.all_eq_true.1 (by decide), ?_⟩
    rintro c ⟨⟩
    decide
  have hprelude : AtRule.IsPrelude " (x > 1) ".toList :=
    ⟨by decide, by simp [AtRule.IsPlain, isQuote], by simp⟩
  have hbody : AtRule.IsBody " a \x7b b: c; \x7d ".toList := by
    refine ⟨by simp [AtRule.IsPlain, isQuote], by decide, ?_⟩
    intro front hfront
    have hcount : ∀ n < 14, (" a \x7b b: c; \x7d ".toList.take n).count '}' ≤
        (" a \x7b b: c; \x7d ".toList.take n).count '{' := by decide
    rw [List.prefix_iff_eq_take.1 hfront]
    exact hcount _ (Nat.lt_succ_of_le hfront.length_le)
  exact .block hname hprelude hbody

end Composed

open Composed

/--
A text without at-rules, an at-rule or nothing, and another text are read as the rules of the one
and then those of the other.
-/
theorem read_append (s a t : String) (r r' : RawSheet) (hs : read.run s = .ok r)
    (ht : read.run t = .ok r') (hsign : '@' ∉ s.toList) (ha : a = "" ∨ AtRule.Written a.toList)
    : read.run (s ++ a ++ t) = .ok (r ++ r') := by
  rcases Parser.run_eq_ok_iff.1 hs with ⟨last, hs⟩
  rcases Parser.run_eq_ok_iff.1 ht with ⟨rest, ht⟩
  rcases exists_rules_of_loop ht with ⟨new, rfl, hnew⟩
  have hmid : Parser.loop turn turn_progress r.reverse (a.toList ++ t.toList) =
      Parser.loop turn turn_progress r.reverse t.toList := by
    rcases ha with rfl | ha
    . rfl
    . exact Parser.loop_of_again (turn_eq_again_iff.2 ⟨[], adds_written ha _, rfl⟩)
  refine Parser.run_eq_ok_iff.2 ⟨rest, ?_⟩
  rw [String.toList_append, String.toList_append, List.append_assoc]
  refine (loop_append hs hsign _).trans ?_
  rw [hmid, hnew, List.reverse_reverse]

theorem read_append_composed
    : read.run text = .ok sheet ∧ read.run otherText = .ok other ∧ '@' ∉ text.toList ∧
        AtRule.Written atRule.toList ∧
        read.run (text ++ atRule ++ otherText) = .ok (sheet ++ other) := by
  have hsign : '@' ∉ text.toList := by decide
  exact ⟨run_text, run_otherText, hsign, written_atRule,
    read_append text atRule otherText sheet other run_text run_otherText hsign
      (.inr written_atRule)⟩

end RawSheet

end TreeStyle
