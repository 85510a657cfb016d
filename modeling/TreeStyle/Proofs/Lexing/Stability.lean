import TreeStyle.Proofs.Lexing.Spelling

/-!
This module contains the parsers that a longer text does not disturb. What was read of a text in
front of a sign that is left is read in the same way when the text goes on.
-/

namespace TreeStyle

namespace Parser

variable {α β σ : Type} {c : Char}

/--
Where the parser leaves a `c`, it reads the same of a text that goes on behind it.
-/
structure StableBefore (c : Char) (p : Parser α) : Prop where
  shrinks : p.Shrinks
  append : ∀ {cs rest : List Char} {a : α}, p cs = (.ok a, rest) → c ∈ rest →
    ∀ more, p (cs ++ more) = (.ok a, rest ++ more)

theorem Shrinks.suffix {p : Parser α} (hp : p.Shrinks) {cs rest : List Char} {a : α}
    (h : p cs = (.ok a, rest))
    : rest <:+ cs := by
  have hcs := hp cs
  rwa [h] at hcs

theorem stableBefore_pure (a : α)
    : (pure a : Parser α).StableBefore c := by
  refine ⟨shrinks_pure a, ?_⟩
  intro cs rest b h _ more
  rcases pure_eq_ok_iff.1 h with ⟨rfl, rfl⟩
  rfl

theorem stableBefore_fail (issue : Issue)
    : (fail issue : Parser α).StableBefore c :=
  ⟨shrinks_fail issue, fun h => absurd h fail_ne_ok⟩

theorem stableBefore_failEnd (construct : Construct)
    : (failEnd construct : Parser α).StableBefore c :=
  ⟨shrinks_failEnd construct, fun h => absurd h failEnd_ne_ok⟩

theorem stableBefore_peekChar
    : peekChar.StableBefore c := by
  refine ⟨shrinks_peekChar, ?_⟩
  rintro cs rest a ⟨⟩ hc more
  match cs, hc with
  | _ :: _, _ => rfl

theorem stableBefore_skipChar
    : skipChar.StableBefore c := by
  refine ⟨shrinks_skipChar, ?_⟩
  rintro cs rest a ⟨⟩ hc more
  match cs, hc with
  | _ :: _, _ => rfl

theorem StableBefore.bind {p : Parser α} {f : α → Parser β} (hp : p.StableBefore c)
    (hf : ∀ a, (f a).StableBefore c)
    : (p >>= f).StableBefore c := by
  refine ⟨hp.shrinks.bind fun a => (hf a).shrinks, ?_⟩
  intro cs rest b h hc more
  rcases bind_eq_ok_iff.1 h with ⟨a, mid, hcs, hmid⟩
  have hmem : c ∈ mid := ((hf a).shrinks.suffix hmid).mem hc
  exact bind_eq_ok_iff.2 ⟨a, mid ++ more, hp.append hcs hmem more, (hf a).append hmid hc more⟩

section Loop

variable {turn : σ → Parser (Turn σ α)}
variable {progress : ∀ s cs s' rest, turn s cs = (.ok (.again s'), rest) → rest.length < cs.length}

theorem stableBefore_loop (hturn : ∀ s, (turn s).StableBefore c) (s : σ)
    : (loop turn progress s).StableBefore c := by
  refine ⟨shrinks_loop (fun s => (hturn s).shrinks) s, ?_⟩
  intro cs rest a h hc more
  refine (loop_induction (motive := fun s cs a rest => c ∈ rest →
    c ∈ cs ∧ loop turn progress s (cs ++ more) = (.ok a, rest ++ more)) ?_ ?_ h hc).2
  . intro s cs a rest hdone hc
    exact ⟨((hturn s).shrinks.suffix hdone).mem hc, loop_of_done ((hturn s).append hdone hc more)⟩
  . intro s cs s' mid a rest hagain ih hc
    rcases ih hc with ⟨hmid, hloop⟩
    refine ⟨((hturn s).shrinks.suffix hagain).mem hmid, ?_⟩
    rw [loop_of_again ((hturn s).append hagain hmid more), hloop]

theorem loop_congr {s : σ} {cs cs' : List Char} (h : turn s cs = turn s cs')
    : loop turn progress s cs = loop turn progress s cs' := by
  rcases hturn : turn s cs' with ⟨e | ⟨s' | a⟩, rest⟩
  . rw [loop_of_error (h.trans hturn), loop_of_error hturn]
  . rw [loop_of_again (h.trans hturn), loop_of_again hturn]
  . rw [loop_of_done (h.trans hturn), loop_of_done hturn]

end Loop

end Parser

theorem afterComment?_append {cs rest : List Char} (h : afterComment? cs = some rest)
    (more : List Char)
    : afterComment? (cs ++ more) = some (rest ++ more) := by
  induction cs with
  | nil => cases h
  | cons c cs ih =>
    rw [afterComment?] at h
    rw [List.cons_append, afterComment?]
    split at h
    . next hend =>
      cases h
      cases cs with
      | nil => cases hend.2
      | cons c' cs =>
        rw [if_pos (by simpa using hend)]
        rfl
    . next hend =>
      -- A comment that goes on has a character behind this one.
      cases cs with
      | nil => cases h
      | cons c' cs => rw [if_neg (by simpa using hend), ih h]

namespace skipTrivia

theorem clear_of_go_cons {c : Char} {cs : List Char} (hc : ¬Text.isBlank c = true)
    (hcomment : ∀ body, c = '/' → cs = '*' :: body → False)
    : Clear (c :: cs) := by
  refine ⟨by simpa using hc, ?_⟩
  rintro ⟨rfl, hstar⟩
  match cs, hstar with
  | _ :: body, rfl => exact hcomment body rfl rfl

theorem go_mark (spaced spaced' : Bool) (cs : List Char)
    : (go spaced cs).1.map (fun _ => ()) = (go spaced' cs).1.map (fun _ => ()) ∧
        (go spaced cs).2 = (go spaced' cs).2 := by
  fun_induction go spaced cs generalizing spaced' with
  | case1 spaced body rest h ih =>
    rw [go_comment, h]
    exact ih spaced'
  | case2 spaced body h =>
    rw [go_comment, h]
    exact ⟨rfl, rfl⟩
  | case3 spaced c rest hne hc ih =>
    rw [go_blank hc]
    exact ih true
  | case4 spaced c rest hne hc =>
    rw [go_of_clear (clear_of_go_cons hc hne)]
    exact ⟨rfl, rfl⟩
  | case5 spaced =>
    have hclear : Clear [] := trivial
    rw [go_of_clear hclear]
    exact ⟨rfl, rfl⟩

theorem go_append {spaced spaced' : Bool} {c : Char} (hc : c ≠ '/') {cs rest : List Char}
    (h : go spaced cs = (.ok spaced', rest)) (hmem : c ∈ rest) (more : List Char)
    : go spaced (cs ++ more) = (.ok spaced', rest ++ more) := by
  fun_induction go spaced cs with
  | case1 spaced body mid hmid ih =>
    rw [List.cons_append, List.cons_append, go_comment, afterComment?_append hmid]
    exact ih h
  | case2 spaced body hbody => cases h
  | case3 spaced a mid hne ha ih =>
    rw [List.cons_append, go_blank ha]
    exact ih h
  | case4 spaced a mid hne ha =>
    cases h
    have hclear := clear_of_go_cons ha hne
    apply go_of_clear
    cases mid with
    | nil =>
      -- No comment begins with the sign, whatever follows it.
      rw [List.mem_singleton.1 hmem] at hc
      exact ⟨hclear.1, fun hslash => hc hslash.1⟩
    | cons b mid => exact hclear
  | case5 spaced =>
    cases h
    cases hmem

theorem go_append_of_nil {spaced spaced' : Bool} {cs : List Char}
    (h : go spaced cs = (.ok spaced', [])) (more : List Char)
    : go spaced (cs ++ more) = go spaced' more := by
  fun_induction go spaced cs with
  | case1 spaced body mid hmid ih =>
    rw [List.cons_append, List.cons_append, go_comment, afterComment?_append hmid]
    exact ih h
  | case2 spaced body hbody => cases h
  | case3 spaced a mid hne ha ih =>
    rw [List.cons_append, go_blank ha]
    exact ih h
  | case4 spaced a mid hne ha => cases h
  | case5 spaced =>
    cases h
    rfl

end skipTrivia

theorem skipSpace_eq (spaced : Bool) (cs : List Char)
    : skipSpace cs =
        ((skipTrivia.go spaced cs).1.map (fun _ => ()), (skipTrivia.go spaced cs).2) := by
  have hmark := skipTrivia.go_mark spaced false cs
  have hskip : skipTrivia cs = skipTrivia.go false cs := rfl
  unfold skipSpace
  rw [hmark.1, hmark.2, Parser.bind_apply, hskip]
  rcases skipTrivia.go false cs with ⟨_ | _, _⟩ <;> rfl

theorem skipSpace_append_of_nil {cs : List Char} (h : skipSpace cs = (.ok (), []))
    (more : List Char)
    : skipSpace (cs ++ more) = skipSpace more := by
  rcases skipSpace_eq_ok_iff.1 h with ⟨spaced, hcs⟩
  rw [skipSpace_eq false, skipSpace_eq spaced more]
  rw [skipTrivia.go_append_of_nil hcs]

theorem quotedBody_append {quote : Char} {text cs answer rest : List Char}
    (h : quotedBody quote text cs = (some answer, rest)) (more : List Char)
    : quotedBody quote text (cs ++ more) = (some answer, rest ++ more) := by
  fun_induction quotedBody quote text cs with
  | case1 => cases h
  | case2 text cs =>
    cases h
    rw [List.cons_append, quotedBody.eq_def]
    simp
  | case3 => cases h
  | case4 => cases h
  | case5 text escaped cs hquote hline ih =>
    rw [List.cons_append, List.cons_append, quotedBody.eq_def]
    simpa [hquote] using ih h
  | case6 text c cs hquote hline hescape ih =>
    rw [List.cons_append, quotedBody.eq_def]
    simpa [hquote, hline, hescape] using ih h

theorem readQuoted_append {quote : Char} {cs text rest : List Char}
    (h : readQuoted quote cs = (.ok text, rest)) (more : List Char)
    : readQuoted quote (cs ++ more) = (.ok text, rest ++ more) := by
  unfold readQuoted at *
  cases cs with
  | nil => cases h
  | cons c cs =>
    rw [List.cons_append, List.tail_cons] at *
    cases hbody : quotedBody quote [] cs with
    | mk answer? last =>
      rw [hbody] at h
      cases answer? with
      | none => cases h
      | some answer =>
        cases h
        rw [quotedBody_append hbody]

section Span

variable {p : Char → Bool} {cs : List Char}

theorem takeWhile_append_of_dropWhile (h : cs.dropWhile p ≠ []) (more : List Char)
    : (cs ++ more).takeWhile p = cs.takeWhile p := by
  rw [List.takeWhile_append, if_neg]
  intro hlength
  have happ := congrArg List.length (List.takeWhile_append_dropWhile (p := p) (l := cs))
  rw [List.length_append] at happ
  exact h (List.length_eq_zero_iff.1 (by omega))

theorem dropWhile_append_of_dropWhile (h : cs.dropWhile p ≠ []) (more : List Char)
    : (cs ++ more).dropWhile p = cs.dropWhile p ++ more := by
  rw [List.dropWhile_append, if_neg (by simpa using h)]

end Span

theorem spanNumber_of_point {cs last : List Char} (h : cs.dropWhile Char.isDigit = '.' :: last)
    : spanNumber cs =
        if last.head?.any Char.isDigit then
          (cs.takeWhile Char.isDigit ++ '.' :: last.takeWhile Char.isDigit,
            last.dropWhile Char.isDigit)
        else (cs.takeWhile Char.isDigit, '.' :: last) := by
  unfold spanNumber
  rw [h]
  rfl

theorem spanNumber_of_ne_point {cs : List Char}
    (h : (cs.dropWhile Char.isDigit).head? ≠ some '.')
    : spanNumber cs = (cs.takeWhile Char.isDigit, cs.dropWhile Char.isDigit) := by
  unfold spanNumber
  split
  . next heq =>
    rw [heq] at h
    exact absurd rfl h
  . rfl

section Sign

variable {c : Char}

theorem stableBefore_skipTrivia (hc : IsSign c) : skipTrivia.StableBefore c :=
  ⟨shrinks_skipTrivia, skipTrivia.go_append hc.ne_slash⟩

theorem stableBefore_skipSpace (hc : IsSign c) : skipSpace.StableBefore c :=
  (stableBefore_skipTrivia hc).bind fun _ => Parser.stableBefore_pure _

theorem stableBefore_readQuoted (quote : Char) : (readQuoted quote).StableBefore c :=
  ⟨shrinks_readQuoted quote, fun h _ => readQuoted_append h⟩

theorem spanNumber_append_of_mem (hc : IsSign c) {cs : List Char} (hmem : c ∈ (spanNumber cs).2)
    (more : List Char)
    : spanNumber (cs ++ more) = ((spanNumber cs).1, (spanNumber cs).2 ++ more) := by
  have hdrop : cs.dropWhile Char.isDigit ≠ [] := by
    intro hnil
    rw [spanNumber_of_ne_point (by simp [hnil]), hnil] at hmem
    cases hmem
  have htake' := takeWhile_append_of_dropWhile hdrop more
  have hdrop' := dropWhile_append_of_dropWhile hdrop more
  by_cases hpoint : (cs.dropWhile Char.isDigit).head? = some '.'
  . rcases List.head?_eq_some_iff.1 hpoint with ⟨last, hlast⟩
    rw [hlast, List.cons_append] at hdrop'
    rw [spanNumber_of_point hlast] at *
    rw [spanNumber_of_point hdrop', htake']
    cases last with
    | nil =>
      -- The point stands alone, and it is not the sign.
      simp [hc.ne_dot] at hmem
    | cons b last =>
      have hhead : ((b :: last) ++ more).head? = (b :: last).head? := rfl
      rw [hhead]
      split
      . next hb =>
        rw [if_pos hb] at hmem
        have hne : (b :: last).dropWhile Char.isDigit ≠ [] := List.ne_nil_of_mem hmem
        rw [takeWhile_append_of_dropWhile hne, dropWhile_append_of_dropWhile hne]
      . rfl
  . have hpoint' : ((cs ++ more).dropWhile Char.isDigit).head? ≠ some '.' := by
      rwa [hdrop', List.head?_append, Option.or_of_isSome (by simpa using hdrop)]
    rw [spanNumber_of_ne_point hpoint, spanNumber_of_ne_point hpoint', htake', hdrop']

namespace Token

theorem startsIdent_of_head?_eq {a : Char} {cs cs' : List Char} (h : cs.head? = cs'.head?)
    : startsIdent (a :: cs) = startsIdent (a :: cs') := by
  by_cases ha : a = '-'
  . have hhyphen : ∀ l : List Char, startsIdent ('-' :: l) =
        l.head?.any fun c => c == '-' || c == '_' || Text.isAlphabetic c := fun _ => rfl
    rw [ha, hhyphen, hhyphen, h]
  . rw [startsIdent, startsIdent]
    . simpa using ha
    . simpa using ha

theorem stableBefore_readHere (hc : IsSign c) : readHere.StableBefore c := by
  refine ⟨shrinks_readHere, ?_⟩
  intro cs rest t h hmem more
  match cs with
  | [] =>
    cases h
    cases hmem
  | [a] =>
    have hlt := length_lt_of_readHere h (fun heof => readHere_cons_ne_eof (heof ▸ h))
    rw [List.length_singleton, Nat.lt_one_iff, List.length_eq_zero_iff] at hlt
    rw [hlt] at hmem
    cases hmem
  | a :: b :: cs =>
    have hnumber : startsNumber (a :: b :: (cs ++ more)) = startsNumber (a :: b :: cs) := rfl
    have hident : startsIdent (a :: b :: (cs ++ more)) = startsIdent (a :: b :: cs) :=
      startsIdent_of_head?_eq rfl
    unfold readHere at *
    dsimp only [List.cons_append] at *
    simp only [hnumber, hident]
    split at h
    . next hquote =>
      rw [if_pos hquote]
      rcases Parser.bind_eq_ok_iff.1 h with ⟨text, mid, htext, h⟩
      rcases Parser.pure_eq_ok_iff.1 h with ⟨rfl, rfl⟩
      exact Parser.bind_eq_ok_iff.2 ⟨text, _, readQuoted_append htext more, rfl⟩
    . next hquote =>
      rw [if_neg hquote]
      split at h
      . next hstarts =>
        rw [if_pos hstarts]
        cases h
        rw [← List.cons_append, ← List.cons_append, spanNumber_append_of_mem hc hmem more]
      . next hstarts =>
        rw [if_neg hstarts]
        split at h
        . next hname =>
          rw [if_pos hname]
          cases h
          have hne : (a :: b :: cs).dropWhile isIdentChar ≠ [] := List.ne_nil_of_mem hmem
          rw [← List.cons_append, ← List.cons_append, takeWhile_append_of_dropWhile hne,
            dropWhile_append_of_dropWhile hne]
        . next hname =>
          rw [if_neg hname]
          cases h
          rfl

theorem stableBefore_next (hc : IsSign c) : next.StableBefore c := by
  refine (stableBefore_skipTrivia hc).bind fun spaced => ?_
  cases spaced
  . exact stableBefore_readHere hc
  . exact Parser.stableBefore_pure _

theorem eq_cons_of_readHere {cs rest : List Char} (h : readHere cs = (.ok (.delim c), rest))
    : cs = c :: rest := by
  unfold readHere at h
  split at h
  . simp at h
  . split at h
    . rcases Parser.bind_eq_ok_iff.1 h with ⟨text, mid, -, h⟩
      simp [Parser.pure_eq_ok_iff] at h
    . split at h
      . simp at h
      . split at h
        . simp at h
        . cases h
          rfl

theorem skipTrivia_of_next {cs rest : List Char} (h : next cs = (.ok (.delim c), rest))
    : skipTrivia cs = (.ok false, c :: rest) := by
  rcases Parser.bind_eq_ok_iff.1 h with ⟨spaced, mid, hskip, h⟩
  cases spaced with
  | false => rw [hskip, eq_cons_of_readHere h]
  | true => simp [Parser.pure_eq_ok_iff] at h

theorem mem_of_next {cs rest : List Char} (h : next cs = (.ok (.delim c), rest))
    : c ∈ cs :=
  (shrinks_skipTrivia.suffix (skipTrivia_of_next h)).mem List.mem_cons_self

theorem next_append (hc : IsSign c) {cs rest : List Char} (h : next cs = (.ok (.delim c), rest))
    (more : List Char)
    : next (cs ++ more) = (.ok (.delim c), rest ++ more) := by
  have hskip := (stableBefore_skipTrivia hc).append (skipTrivia_of_next h) List.mem_cons_self more
  rw [next_of_skipTrivia hskip, List.cons_append, ← next_of_clear (hc.clear_cons _),
    hc.next_cons]

end Token

namespace Lexes

theorem suffix {cs rest : List Char} {ts : List Token} (h : Lexes cs ts rest)
    : rest <:+ cs := by
  induction h with
  | nil => exact List.suffix_refl _
  | cons hnext ht hts ih => exact ih.trans (Token.shrinks_next.suffix hnext)

theorem append_of_mem (hc : IsSign c) {cs rest : List Char} {ts : List Token}
    (h : Lexes cs ts rest) (hmem : c ∈ rest) (more : List Char)
    : Lexes (cs ++ more) ts (rest ++ more) := by
  induction h with
  | nil => exact nil
  | cons hnext ht hts ih =>
    exact cons ((Token.stableBefore_next hc).append hnext (hts.suffix.mem hmem) more) ht (ih hmem)

end Lexes

end Sign

end TreeStyle
