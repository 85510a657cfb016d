import TreeStyle.AtRule
import TreeStyle.Proofs.Lexing.Stability

/-!
This module contains the at-rules whose braces are balanced, and the proof that they are skipped up
to their end.
-/

namespace TreeStyle.AtRule

def IsPlain (c : Char) : Prop := isQuote c = false ∧ c ≠ '/'

structure IsPrelude (prelude : List Char) : Prop where
  apart : prelude = [] ∨ prelude.head? = some ' '
  plain : ∀ c ∈ prelude, IsPlain c
  notMem : ∀ c ∈ [';', '{', '}'], c ∉ prelude

structure IsBody (body : List Char) : Prop where
  plain : ∀ c ∈ body, IsPlain c
  count_eq : body.count '}' = body.count '{'
  count_le : ∀ front, front <+: body → front.count '}' ≤ front.count '{'

inductive Written : List Char → Prop where
  | statement {name prelude : List Char} (hname : IsName name) (hprelude : IsPrelude prelude) :
      Written ('@' :: name ++ prelude ++ [';'])
  | block {name prelude body : List Char} (hname : IsName name) (hprelude : IsPrelude prelude)
      (hbody : IsBody body) : Written ('@' :: name ++ prelude ++ '{' :: body ++ ['}'])

def depthAfter (depth : Nat) (c : Char) : Nat :=
  if c = '{' then depth + 1 else if c = '}' then depth - 1 else depth

theorem turn_of_plain {depth : Nat} {c : Char} {cs : List Char} (hclear : Clear (c :: cs))
    (hquote : isQuote c = false)
    : turn depth (c :: cs) =
        if c = ';' ∧ depth = 0 ∨ c = '}' ∧ depth ≤ 1 then (.ok (.done ()), cs)
        else (.ok (.again (depthAfter depth c)), cs) := by
  unfold turn
  rw [Parser.bind_apply, skipSpace_of_clear hclear]
  refine (Parser.bind_apply _ _ _).trans ?_
  refine (congrFun (if_neg (by simp [hquote])) _).trans ?_
  refine (Parser.bind_apply _ _ _).trans ?_
  dsimp only [Parser.skipChar, List.tail_cons]
  unfold depthAfter
  by_cases hsemicolon : c = ';' ∧ depth = 0
  . rw [if_pos hsemicolon, if_pos (.inl hsemicolon)]
    rfl
  . rw [if_neg hsemicolon]
    by_cases hopen : c = '{'
    . subst hopen
      rfl
    . rw [if_neg hopen, if_neg hopen]
      by_cases hclose : c = '}'
      . subst hclose
        by_cases hdepth : depth ≤ 1
        . simp [hdepth, Parser.pure_apply]
        . simp [hdepth, Parser.pure_apply]
      . simp [hsemicolon, hclose, Parser.pure_apply]

theorem loop_of_plain {depth : Nat} {c : Char} (hc : IsPlain c)
    (hsemicolon : c = ';' → depth ≠ 0) (hclose : c = '}' → 1 < depth) (cs : List Char)
    : Parser.loop turn turn_progress depth (c :: cs) =
        Parser.loop turn turn_progress (depthAfter depth c) cs := by
  rcases hc with ⟨hquote, hslash⟩
  cases hblank : Text.isBlank c with
  | true =>
    have hclear : Clear [] := trivial
    have hskip : skipSpace (c :: cs) = skipSpace cs :=
      skipSpace_append_of_nil (skipSpace_blank hblank hclear) cs
    have hdepth : depthAfter depth c = depth := by
      unfold depthAfter
      rw [if_neg, if_neg]
      . rintro rfl
        cases hblank
      . rintro rfl
        cases hblank
    rw [hdepth]
    apply Parser.loop_congr
    unfold turn
    rw [Parser.bind_apply, Parser.bind_apply, hskip]
  | false =>
    have hclear : Clear (c :: cs) := ⟨hblank, fun h => hslash h.1⟩
    apply Parser.loop_of_again
    rw [turn_of_plain hclear hquote, if_neg]
    rintro (⟨hc, hdepth⟩ | ⟨hc, hdepth⟩)
    . exact hsemicolon hc hdepth
    . exact absurd (hclose hc) (by omega)

theorem loop_of_end {depth : Nat} {c : Char} (hc : IsSign c)
    (hend : c = ';' ∧ depth = 0 ∨ c = '}' ∧ depth ≤ 1) (cs : List Char)
    : Parser.loop turn turn_progress depth (c :: cs) = (.ok (), cs) := by
  apply Parser.loop_of_done
  rw [turn_of_plain (hc.clear_cons cs) hc.notQuote, if_pos hend]

theorem IsPrelude.loop_append {prelude : List Char} (h : IsPrelude prelude) (cs : List Char)
    : Parser.loop turn turn_progress 0 (prelude ++ cs) =
        Parser.loop turn turn_progress 0 cs := by
  rcases h with ⟨-, hplain, hnotMem⟩
  induction prelude with
  | nil => rfl
  | cons c prelude ih =>
    rw [List.forall_mem_cons] at hplain
    have hne : ∀ a ∈ [';', '{', '}'], c ≠ a ∧ a ∉ prelude := by
      intro a ha
      have := hnotMem a ha
      grind
    have hdepth : depthAfter 0 c = 0 := by
      unfold depthAfter
      rw [if_neg (hne '{' (by decide)).1, if_neg (hne '}' (by decide)).1]
    rw [List.cons_append, loop_of_plain hplain.1, hdepth]
    . exact ih hplain.2 fun a ha => (hne a ha).2
    . intro hc
      exact absurd hc (hne ';' (by decide)).1
    . intro hc
      exact absurd hc (hne '}' (by decide)).1

theorem depthAfter_add_count {depth : Nat} (h : 0 < depth) (c : Char) (cs : List Char)
    : depthAfter depth c + (c :: cs).count '}' + cs.count '{' =
        depth + (c :: cs).count '{' + cs.count '}' := by
  unfold depthAfter
  rw [List.count_cons, List.count_cons]
  by_cases hopen : c = '{'
  . subst hopen
    simp
    omega
  . by_cases hclose : c = '}'
    . subst hclose
      simp
      omega
    . simp [hopen, hclose]
      omega

theorem loop_append {depth : Nat} {body : List Char} (hplain : ∀ c ∈ body, IsPlain c)
    (hopen : ∀ front, front <+: body → front.count '}' < depth + front.count '{')
    (cs : List Char)
    : Parser.loop turn turn_progress depth (body ++ cs) =
        Parser.loop turn turn_progress (depth + body.count '{' - body.count '}') cs := by
  induction body generalizing depth with
  | nil => rfl
  | cons c body ih =>
    rw [List.forall_mem_cons] at hplain
    have hstart := hopen [] List.nil_prefix
    have hfirst := hopen [c] (List.prefix_append [c] body)
    have hdepth : 0 < depth := by simpa using hstart
    have hrest : ∀ front, front <+: body →
        front.count '}' < depthAfter depth c + front.count '{' := by
      intro front hfront
      have := hopen (c :: front) (List.cons_prefix_cons.2 ⟨rfl, hfront⟩)
      have := depthAfter_add_count hdepth c front
      omega
    rw [List.cons_append, loop_of_plain hplain.1, ih hplain.2 hrest]
    . have := depthAfter_add_count hdepth c body
      congr 1
      omega
    . intro _
      exact Nat.ne_of_gt hdepth
    . rintro rfl
      simp at hfirst
      omega

theorem IsBody.loop_append {body : List Char} (h : IsBody body) (cs : List Char)
    : Parser.loop turn turn_progress 1 (body ++ cs) = Parser.loop turn turn_progress 1 cs := by
  rw [AtRule.loop_append h.plain, h.count_eq, Nat.add_sub_cancel]
  intro front hfront
  have := h.count_le front hfront
  omega

theorem IsPrelude.endsName_append {prelude : List Char} (h : IsPrelude prelude) {c : Char}
    (hc : IsSign c) (cs : List Char)
    : EndsName (prelude ++ c :: cs) := by
  rcases h.apart with rfl | hspace
  . exact hc.endsName_cons cs
  . intro a ha
    rw [List.head?_append, hspace] at ha
    cases ha
    rfl

theorem Written.exists_name {cs : List Char} (h : Written cs) (more : List Char)
    : ∃ name body, cs = '@' :: body ∧
        ∃ mid, Token.next (body ++ more) = (.ok (.ident name), mid) ∧
          skip mid = (.ok (), more) := by
  have hsemicolon : IsSign ';' := isSign_of_mem (by decide)
  have hopen : IsSign '{' := isSign_of_mem (by decide)
  have hclose : IsSign '}' := isSign_of_mem (by decide)
  cases h with
  | @statement name prelude hname hprelude =>
    refine ⟨String.ofList name, name ++ prelude ++ [';'], rfl, prelude ++ ';' :: more, ?_, ?_⟩
    . rw [List.append_assoc, List.append_assoc]
      exact hname.next_append (hprelude.endsName_append hsemicolon more)
    . exact (hprelude.loop_append _).trans (loop_of_end hsemicolon (.inl ⟨rfl, rfl⟩) more)
  | @block name prelude body hname hprelude hbody =>
    refine ⟨String.ofList name, name ++ prelude ++ '{' :: body ++ ['}'], rfl,
      prelude ++ '{' :: (body ++ '}' :: more), ?_, ?_⟩
    . simp only [List.append_assoc, List.cons_append, List.nil_append]
      exact hname.next_append (hprelude.endsName_append hopen _)
    . refine (hprelude.loop_append _).trans ?_
      rw [loop_of_plain ⟨hopen.notQuote, hopen.ne_slash⟩ (by decide) (by decide)]
      exact (hbody.loop_append _).trans (loop_of_end hclose (.inr ⟨rfl, Nat.le_refl 1⟩) more)

end TreeStyle.AtRule
