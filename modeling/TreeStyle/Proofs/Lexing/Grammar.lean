import Mathlib.Data.List.Infix
import TreeStyle.Proofs.Lexing

/-!
This module contains the grammar of comments, of white space and of what stands between quotes,
apart from how they are read.
-/

namespace TreeStyle

inductive IsComment : (cs : List Char) → Prop where
  | mk {body : List Char} (hbody : ¬['*', '/'] <:+: body ++ ['*']) :
      IsComment ('/' :: '*' :: (body ++ ['*', '/']))

inductive Trivia : (spaced : Bool) → (cs : List Char) → Prop where
  | nil : Trivia false []
  | comment {spaced : Bool} {comment cs : List Char} (hcomment : IsComment comment)
      (h : Trivia spaced cs) : Trivia spaced (comment ++ cs)
  | blank {spaced : Bool} {c : Char} {cs : List Char} (hc : Text.isBlank c = true)
      (h : Trivia spaced cs) : Trivia true (c :: cs)

/--
The text is written as `body`, where a backslash stands for the character behind it. The characters
in `guarded` only stand behind backslashes.
-/
inductive Escaped (guarded : List Char) : (body text : List Char) → Prop where
  | nil : Escaped guarded [] []
  | marked {body text : List Char} (c : Char) (h : Escaped guarded body text) :
      Escaped guarded ('\\' :: c :: body) (c :: text)
  | plain {body text : List Char} {c : Char} (hslash : c ≠ '\\') (hguarded : c ∉ guarded)
      (h : Escaped guarded body text) : Escaped guarded (c :: body) (c :: text)

theorem slash_prefix_iff {body rest : List Char}
    : ['/'] <+: body ++ ['*'] ↔ (body ++ '*' :: rest).head? = some '/' := by
  cases body with
  | nil => simp
  | cons c body => simp [eq_comm]

theorem afterComment?_eq_some_iff {cs rest : List Char}
    : afterComment? cs = some rest
        ↔
      ∃ body, cs = body ++ '*' :: '/' :: rest ∧ ¬['*', '/'] <:+: body ++ ['*'] := by
  constructor
  . intro h
    induction cs with
    | nil => cases h
    | cons c cs ih =>
      rw [afterComment?] at h
      split at h
      . next hend =>
        rcases hend with ⟨rfl, hhead⟩
        rcases List.head?_eq_some_iff.1 hhead with ⟨cs, rfl⟩
        cases h
        refine ⟨[], rfl, fun hinfix => ?_⟩
        have := hinfix.length_le
        simp at this
      . next hend =>
        rcases ih h with ⟨body, rfl, hbody⟩
        refine ⟨c :: body, rfl, fun hinfix => ?_⟩
        rw [List.cons_append, List.infix_cons_iff] at hinfix
        rcases hinfix with hfront | hinfix
        . rw [List.cons_prefix_cons] at hfront
          exact hend ⟨hfront.1.symm, slash_prefix_iff.1 hfront.2⟩
        . exact hbody hinfix
  . rintro ⟨body, rfl, hbody⟩
    induction body with
    | nil => rfl
    | cons c body ih =>
      rw [List.cons_append, List.infix_cons_iff, not_or] at hbody
      rw [List.cons_append, afterComment?, if_neg, ih hbody.2]
      rintro ⟨rfl, hhead⟩
      exact hbody.1 (List.cons_prefix_cons.2 ⟨rfl, slash_prefix_iff.2 hhead⟩)

theorem IsComment.exists_afterComment? {comment : List Char} (h : IsComment comment)
    (rest : List Char)
    : ∃ cs, comment ++ rest = '/' :: '*' :: cs ∧ afterComment? cs = some rest := by
  rcases h with @⟨body, hbody⟩
  exact ⟨body ++ '*' :: '/' :: rest, by simp, afterComment?_eq_some_iff.2 ⟨body, rfl, hbody⟩⟩

theorem skipTrivia.exists_trivia_of_go {spaced spaced' : Bool} {cs rest : List Char}
    (h : go spaced cs = (.ok spaced', rest))
    : ∃ w seen, cs = w ++ rest ∧ Trivia seen w ∧ spaced' = (spaced || seen) := by
  fun_induction go spaced cs with
  | case1 spaced body mid hmid ih =>
    rcases ih h with ⟨w, seen, rfl, hw, rfl⟩
    rcases afterComment?_eq_some_iff.1 hmid with ⟨inner, rfl, hinner⟩
    exact ⟨_, seen, by simp, .comment (.mk hinner) hw, rfl⟩
  | case2 spaced body hmid => cases h
  | case3 spaced c mid hne hc ih =>
    rcases ih h with ⟨w, seen, rfl, hw, rfl⟩
    exact ⟨c :: w, true, rfl, .blank hc hw, by simp⟩
  | case4 spaced c mid hne hc =>
    cases h
    exact ⟨[], false, rfl, .nil, by simp⟩
  | case5 spaced =>
    cases h
    exact ⟨[], false, rfl, .nil, by simp⟩

theorem exists_trivia_of_skipTrivia {spaced : Bool} {cs rest : List Char}
    (h : skipTrivia cs = (.ok spaced, rest))
    : ∃ w, cs = w ++ rest ∧ Trivia spaced w := by
  rcases skipTrivia.exists_trivia_of_go h with ⟨w, seen, hcs, hw, rfl⟩
  exact ⟨w, hcs, hw⟩

namespace Escaped

variable {guarded guarded' body body' text text' rest rest' : List Char} {quote : Char}

theorem mono (h : Escaped guarded body text) (hsubset : guarded' ⊆ guarded)
    : Escaped guarded' body text := by
  induction h with
  | nil => exact .nil
  | marked c h ih => exact .marked c ih
  | plain hslash hguarded h ih => exact .plain hslash (fun hc => hguarded (hsubset hc)) ih

theorem unique (h : Escaped [quote] body text) (h' : Escaped [quote] body' text')
    (hquote : quote ≠ '\\') (heq : body ++ quote :: rest = body' ++ quote :: rest')
    : text = text' ∧ rest = rest' := by
  induction h generalizing body' text' with
  | nil =>
    cases h' with
    | nil => exact ⟨rfl, (List.cons.inj heq).2⟩
    | marked c h' => exact absurd (List.cons.inj heq).1 hquote
    | plain hslash hguarded h' =>
      exact absurd (List.mem_singleton.2 (List.cons.inj heq).1.symm) hguarded
  | marked c h ih =>
    cases h' with
    | nil => exact absurd (List.cons.inj heq).1.symm hquote
    | marked c' h' =>
      rcases List.cons.inj (List.cons.inj heq).2 with ⟨rfl, htail⟩
      rcases ih h' htail with ⟨rfl, rfl⟩
      exact ⟨rfl, rfl⟩
    | plain hslash hguarded h' => exact absurd (List.cons.inj heq).1.symm hslash
  | plain hslash hguarded h ih =>
    cases h' with
    | nil => exact absurd (List.mem_singleton.2 (List.cons.inj heq).1) hguarded
    | marked c' h' => exact absurd (List.cons.inj heq).1 hslash
    | plain hslash' hguarded' h' =>
      rcases List.cons.inj heq with ⟨rfl, htail⟩
      rcases ih h' htail with ⟨rfl, rfl⟩
      exact ⟨rfl, rfl⟩

end Escaped

theorem exists_escaped_of_quotedBody {quote : Char} {before cs answer rest : List Char}
    (h : quotedBody quote before cs = (some answer, rest))
    : ∃ body text, cs = body ++ quote :: rest ∧ Escaped [quote, '\n'] body text ∧
        answer = before.reverse ++ text := by
  fun_induction quotedBody quote before cs with
  | case1 => cases h
  | case2 before cs =>
    cases h
    exact ⟨[], [], rfl, .nil, by simp⟩
  | case3 => cases h
  | case4 => cases h
  | case5 before escaped cs hquote hline ih =>
    rcases ih h with ⟨body, text, rfl, hbody, rfl⟩
    exact ⟨_, _, rfl, .marked escaped hbody, by simp⟩
  | case6 before c cs hquote hline hslash ih =>
    rcases ih h with ⟨body, text, rfl, hbody, rfl⟩
    exact ⟨_, _, rfl, .plain hslash (by simp [hquote, hline]) hbody, by simp⟩

theorem exists_escaped_of_readQuoted {quote : Char} {cs text rest : List Char}
    (h : readQuoted quote (quote :: cs) = (.ok text, rest))
    : ∃ body, cs = body ++ quote :: rest ∧ Escaped [quote, '\n'] body text := by
  unfold readQuoted at h
  split at h
  . next heq =>
    cases h
    rcases exists_escaped_of_quotedBody heq with ⟨body, text, hcs, hbody, rfl⟩
    exact ⟨body, hcs, hbody⟩
  . cases h

end TreeStyle
