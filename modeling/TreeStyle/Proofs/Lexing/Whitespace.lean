import TreeStyle.Proofs.Lexing.Sequence

/-!
This module contains the proof when text has the same tokens if all its white space is written as
plain spaces: no name may have white space in it.
-/

namespace TreeStyle

namespace Text

def plainSpace (c : Char) : Char := if isBlank c then ' ' else c

variable {c : Char} {cs : List Char}

theorem plainSpace_of_isBlank (h : isBlank c = true)
    : plainSpace c = ' ' := if_pos h

theorem plainSpace_of_notBlank (h : isBlank c = false)
    : plainSpace c = c := by
  unfold plainSpace
  rw [h]
  rfl

theorem isBlank_plainSpace (c : Char)
    : isBlank (plainSpace c) = isBlank c := by
  unfold plainSpace
  split
  . next h => rw [h, show isBlank ' ' = true from rfl]
  . rfl

theorem apply_plainSpace {p : Char → Bool} (hp : ∀ c, isBlank c = true → p c = false) (c : Char)
    : p (plainSpace c) = p c := by
  cases h : isBlank c with
  | true => rw [plainSpace_of_isBlank h, hp c h, hp ' ' rfl]
  | false => rw [plainSpace_of_notBlank h]

theorem map_plainSpace_of_notBlank (h : ∀ c ∈ cs, isBlank c = false)
    : cs.map plainSpace = cs := by
  conv => rhs; rw [← List.map_id cs]
  apply List.map_congr_left
  intro c hc
  exact plainSpace_of_notBlank (h c hc)

theorem dropWhile_isBlank_map_plainSpace (cs : List Char)
    : (cs.map plainSpace).dropWhile isBlank = (cs.dropWhile isBlank).map plainSpace := by
  have hblank : isBlank ∘ plainSpace = isBlank := funext isBlank_plainSpace
  rw [List.dropWhile_map, hblank]

theorem eq_of_plainSpace {a : Char} (ha : isBlank a = false) (h : plainSpace c = a)
    : c = a := by
  have hc : isBlank c = false := by
    rw [← isBlank_plainSpace, h, ha]
  rwa [plainSpace_of_notBlank hc] at h

theorem notBlank_of_mem_map {name : List Char} (hname : ∀ c ∈ name, isIdentChar c = true)
    (h : name ⊆ cs.map plainSpace)
    : ∀ c ∈ name, isBlank c = false := by
  intro c hc
  rw [Bool.eq_false_iff]
  intro hblank
  rcases List.mem_map.1 (h hc) with ⟨a, -, rfl⟩
  rw [isBlank_plainSpace] at hblank
  have hident := hname _ hc
  rw [plainSpace_of_isBlank hblank] at hident
  cases hident

end Text

open Text

theorem not_comment_map_plainSpace {cs : List Char} (h : ¬['/', '*'] <:+: cs)
    : ¬['/', '*'] <:+: cs.map plainSpace := by
  rintro ⟨before, after, hcs⟩
  rcases List.map_eq_append_iff.1 hcs.symm with ⟨mid, after', rfl, hmid, -⟩
  rcases List.map_eq_append_iff.1 hmid with ⟨before', sign, rfl, -, hsign⟩
  rcases List.map_eq_cons_iff.1 hsign with ⟨slash, sign, rfl, hslash, hsign⟩
  rcases List.map_eq_cons_iff.1 hsign with ⟨star, sign, rfl, hstar, hsign⟩
  rw [List.map_eq_nil_iff.1 hsign, eq_of_plainSpace rfl hslash, eq_of_plainSpace rfl hstar] at h
  exact h ⟨before', after', rfl⟩

theorem skipTrivia_of_not_comment {cs : List Char} (h : ¬['/', '*'] <:+: cs)
    : skipTrivia cs = (.ok (cs.head?.any isBlank), cs.dropWhile isBlank) := by
  have hgo : ∀ spaced,
      skipTrivia.go spaced cs = (.ok (spaced || cs.head?.any isBlank), cs.dropWhile isBlank) := by
    induction cs with
    | nil =>
      intro spaced
      have hclear : Clear [] := trivial
      rw [skipTrivia.go_of_clear hclear]
      simp
    | cons c cs ih =>
      intro spaced
      cases hc : isBlank c with
      | true =>
        rw [skipTrivia.go_blank hc, ih (fun hcs => h (hcs.trans (List.suffix_cons c cs).isInfix))]
        simp [hc]
      | false =>
        have hclear : Clear (c :: cs) := by
          refine ⟨hc, ?_⟩
          rintro ⟨rfl, hstar⟩
          rcases List.head?_eq_some_iff.1 hstar with ⟨body, rfl⟩
          exact h ⟨[], body, rfl⟩
        rw [skipTrivia.go_of_clear hclear]
        simp [hc]
  have hskip := hgo false
  rwa [Bool.false_or] at hskip

theorem skipTrivia_map_plainSpace {cs rest : List Char} {spaced : Bool}
    (hcomment : ¬['/', '*'] <:+: cs) (h : skipTrivia cs = (.ok spaced, rest))
    : skipTrivia (cs.map plainSpace) = (.ok spaced, rest.map plainSpace) := by
  rw [skipTrivia_of_not_comment hcomment] at h
  cases h
  rw [skipTrivia_of_not_comment (not_comment_map_plainSpace hcomment),
    dropWhile_isBlank_map_plainSpace]
  cases cs with
  | nil => rfl
  | cons c cs => rw [List.map_cons, List.head?_cons, Option.any_some, isBlank_plainSpace]; rfl

theorem head?_any_map_plainSpace {p : Char → Bool} (hp : ∀ c, isBlank c = true → p c = false)
    (cs : List Char)
    : (cs.map plainSpace).head?.any p = cs.head?.any p := by
  cases cs with
  | nil => rfl
  | cons c cs => exact apply_plainSpace hp c

theorem isDigit_of_isBlank {c : Char} (h : isBlank c = true)
    : c.isDigit = false := by
  rw [Bool.eq_false_iff]
  intro hdigit
  rw [(of_isDigit_or_point (.inl hdigit)).1] at h
  cases h

namespace Token

variable {t : Token} {cs rest w : List Char}

theorem startsNumber_map_plainSpace (cs : List Char)
    : startsNumber (cs.map plainSpace) = startsNumber cs := by
  cases cs with
  | nil => rfl
  | cons c cs =>
    have hdigit : (plainSpace c).isDigit = c.isDigit :=
      apply_plainSpace (fun _ => isDigit_of_isBlank) c
    have hpoint : (plainSpace c == '.') = (c == '.') := by
      apply apply_plainSpace (p := (· == '.'))
      intro c hc
      rw [beq_eq_false_iff_ne]
      rintro rfl
      cases hc
    rw [List.map_cons, startsNumber, startsNumber, hdigit, hpoint,
      head?_any_map_plainSpace (fun _ => isDigit_of_isBlank)]

theorem Spelled.notBlank (h : Spelled t w) (hplain : t.isPlain = true)
    (hstring : ∀ s, t ≠ .string s)
    : ∀ c ∈ w, isBlank c = false := by
  cases h with
  | ident h =>
    rw [isPlain_ident, Bool.not_eq_true', List.any_eq_false] at hplain
    intro c hc
    exact Bool.eq_false_iff.2 (hplain c hc)
  | number h hne => exact fun c hc => (of_isDigit_or_point (h.mem hc)).1
  | string hquote hline => exact absurd rfl (hstring _)
  | delim hblank hquote hends => simpa using hblank

theorem Spelled.endsBefore_map_plainSpace (h : Spelled t w) (hends : t.endsBefore rest = true)
    : t.endsBefore (rest.map plainSpace) = true := by
  cases hhead : rest.head?.any isBlank with
  | true =>
    apply h.endsBefore_of_apart
    intro c hc
    rw [List.head?_map] at hc
    rcases Option.map_eq_some_iff.1 hc with ⟨a, ha, rfl⟩
    rw [ha] at hhead
    exact .inl (plainSpace_of_isBlank hhead)
  | false =>
    apply endsBefore_of_head?_eq _ (fun hstarts => startsNumber_map_plainSpace rest ▸ hstarts) hends
    cases rest with
    | nil => rfl
    | cons c rest => exact congrArg some (plainSpace_of_notBlank hhead)

theorem not_string_of_readHere (hquote : ∀ c ∈ cs, isQuote c = false)
    (h : readHere cs = (.ok t, rest))
    : ∀ s, t ≠ .string s := by
  rintro s rfl
  match cs with
  | [] => cases h
  | c :: cs =>
    rcases cases_of_readHere h with ⟨text, hc, -⟩ | ⟨-, ht, -⟩ | ⟨-, ht, -⟩ | ⟨-, -, -, ht, -⟩
    . rw [hquote c List.mem_cons_self] at hc
      cases hc
    . cases ht
    . cases ht
    . cases ht

theorem readHere_map_plainSpace (hclear : Clear cs) (hquote : ∀ c ∈ cs, isQuote c = false)
    (h : readHere cs = (.ok t, rest)) (ht : t ≠ .eof)
    (hname : ∀ name, t = .ident name → ∀ c ∈ name.toList, isBlank c = false)
    : Clear (cs.map plainSpace) ∧
        readHere (cs.map plainSpace) = (.ok t, rest.map plainSpace) := by
  have hstring := not_string_of_readHere hquote h
  have hplain : t.isPlain = true := by
    cases t with
    | ident name =>
      rw [isPlain, Bool.not_eq_true', List.any_eq_false]
      intro c hc
      exact Bool.eq_false_iff.1 (hname name rfl c hc)
    | string s => exact absurd rfl (hstring s)
    | _ => rfl
  have hspelled := spelled_text_of_readHere hclear h ht hplain
  have hends := hspelled.endsBefore_map_plainSpace (endsBefore_rest hclear h ht hplain)
  have htext := map_plainSpace_of_notBlank (hspelled.notBlank hplain hstring)
  rw [← text_append_of_readHere h hstring, List.map_append, htext]
  exact hspelled.readHere_append hends

theorem next_map_plainSpace (hquote : ∀ c ∈ cs, isQuote c = false)
    (hcomment : ¬['/', '*'] <:+: cs) (h : next cs = (.ok t, rest)) (ht : t ≠ .eof)
    (hname : ∀ name, t = .ident name → ∀ c ∈ name.toList, isBlank c = false)
    : next (cs.map plainSpace) = (.ok t, rest.map plainSpace) := by
  rcases Parser.bind_eq_ok_iff.1 h with ⟨spaced, mid, hskip, hread⟩
  have hskip' := skipTrivia_map_plainSpace hcomment hskip
  cases spaced with
  | true =>
    rcases Parser.pure_eq_ok_iff.1 hread with ⟨rfl, rfl⟩
    exact next_of_skipTrivia_true hskip'
  | false =>
    have hmid : ∀ c ∈ mid, isQuote c = false :=
      fun c hc => hquote c ((shrinks_skipTrivia.suffix hskip).mem hc)
    rw [next_of_skipTrivia hskip']
    exact (readHere_map_plainSpace (clear_of_skipTrivia hskip) hmid hread ht hname).2

theorem eq_nil_of_next_eof (h : next cs = (.ok .eof, rest))
    : rest = [] := by
  rcases Parser.bind_eq_ok_iff.1 h with ⟨spaced, mid, -, hread⟩
  cases spaced with
  | true => simp [Parser.pure_eq_ok_iff] at hread
  | false =>
    cases mid with
    | nil =>
      cases hread
      rfl
    | cons c mid => exact absurd hread readHere_cons_ne_eof

theorem exists_next (hquote : ∀ c ∈ cs, isQuote c = false) (hcomment : ¬['/', '*'] <:+: cs)
    : ∃ t rest, next cs = (.ok t, rest) := by
  have hskip := skipTrivia_of_not_comment hcomment
  cases hspaced : cs.head?.any isBlank with
  | true =>
    rw [hspaced] at hskip
    exact ⟨.space, _, next_of_skipTrivia_true hskip⟩
  | false =>
    rw [hspaced] at hskip
    rw [next_of_skipTrivia hskip]
    cases hrest : cs.dropWhile isBlank with
    | nil => exact ⟨.eof, [], rfl⟩
    | cons c rest =>
      have hmem : c ∈ cs := (List.dropWhile_suffix isBlank).mem (hrest ▸ List.mem_cons_self)
      unfold readHere
      dsimp only
      rw [if_neg (by simp [hquote c hmem])]
      split
      . exact ⟨_, _, rfl⟩
      . split
        . exact ⟨_, _, rfl⟩
        . exact ⟨_, _, rfl⟩

end Token

namespace Tokenizes

variable {cs : List Char} {ts : List Token}

theorem exists_of_plain (hquote : ∀ c ∈ cs, isQuote c = false) (hcomment : ¬['/', '*'] <:+: cs)
    : ∃ ts, Tokenizes cs ts := by
  induction hn : cs.length using Nat.strongRecOn generalizing cs with
  | _ n ih =>
    rcases Token.exists_next hquote hcomment with ⟨t, rest, hnext⟩
    have hsuffix : rest <:+ cs := Token.shrinks_next.suffix hnext
    by_cases ht : t = .eof
    . subst ht
      rw [Token.eq_nil_of_next_eof hnext] at hnext
      exact ⟨[], nil_iff.2 hnext⟩
    . have hlength := Token.length_lt_of_next hnext ht
      rcases ih rest.length (hn ▸ hlength) (fun c hc => hquote c (hsuffix.mem hc))
        (fun h => hcomment (h.trans hsuffix.isInfix)) rfl with ⟨ts, hts⟩
      exact ⟨t :: ts, cons_iff.2 ⟨ht, rest, hnext, hts⟩⟩

theorem isName_of_mem {name : String} (h : Tokenizes cs ts) (hmem : .ident name ∈ ts)
    : IsName name.toList ∧ name.toList ⊆ cs := by
  induction ts generalizing cs with
  | nil => cases hmem
  | cons t ts ih =>
    rcases cons_iff.1 h with ⟨-, mid, hnext, hmid⟩
    rcases List.mem_cons.1 hmem with rfl | hmem
    . refine ⟨isName_of_next hnext, ?_⟩
      rcases Parser.bind_eq_ok_iff.1 hnext with ⟨spaced, start, hskip, hread⟩
      cases spaced with
      | true => simp [Parser.pure_eq_ok_iff] at hread
      | false =>
        rw [Token.toList_of_readHere_ident hread]
        intro c hc
        exact (shrinks_skipTrivia.suffix hskip).mem ((List.takeWhile_prefix _).mem hc)
    . rcases ih hmid hmem with ⟨hname, hsub⟩
      exact ⟨hname, fun c hc => (Token.shrinks_next.suffix hnext).mem (hsub hc)⟩

theorem map_plainSpace (hquote : ∀ c ∈ cs, isQuote c = false) (hcomment : ¬['/', '*'] <:+: cs)
    (h : Tokenizes cs ts)
    (hnames : ∀ name, .ident name ∈ ts → ∀ c ∈ name.toList, isBlank c = false)
    : Tokenizes (cs.map plainSpace) ts := by
  induction ts generalizing cs with
  | nil =>
    rw [nil_iff, Token.next_eq_eof_iff] at *
    exact skipTrivia_map_plainSpace hcomment h
  | cons t ts ih =>
    rcases cons_iff.1 h with ⟨ht, mid, hnext, hmid⟩
    have hsuffix : mid <:+ cs := Token.shrinks_next.suffix hnext
    have hts := ih (fun c hc => hquote c (hsuffix.mem hc))
      (fun hmid => hcomment (hmid.trans hsuffix.isInfix)) hmid
      (fun name hmem => hnames name (List.mem_cons_of_mem t hmem))
    have hnext' := Token.next_map_plainSpace hquote hcomment hnext ht
      (fun name hname => hnames name (hname ▸ List.mem_cons_self))
    exact cons_iff.2 ⟨ht, mid.map plainSpace, hnext', hts⟩

/--
Text without quotes and comments always has tokens. They stay the same when all white space is
written as plain spaces, unless one of them is a name with white space in it.
-/
theorem map_plainSpace_iff (hquote : ∀ c ∈ cs, isQuote c = false)
    (hcomment : ¬['/', '*'] <:+: cs)
    : (∃ ts, Tokenizes cs ts) ∧
        ∀ ts, Tokenizes cs ts →
          (Tokenizes (cs.map plainSpace) ts ↔
            ∀ name, .ident name ∈ ts → ∀ c ∈ name.toList, isBlank c = false) := by
  refine ⟨exists_of_plain hquote hcomment, ?_⟩
  intro ts h
  constructor
  . intro hmap name hmem
    rcases hmap.isName_of_mem hmem with ⟨hname, hsub⟩
    exact notBlank_of_mem_map hname.goesOn hsub
  . exact h.map_plainSpace hquote hcomment

theorem map_plainSpace_iff_rule
    : let cs := "a \u2003>\n1.5\u00a0é".toList
      let ts := [.ident "a", .space, .delim '>', .space, .number "1.5", .space, .ident "é"]
      (∀ c ∈ cs, isQuote c = false) ∧ ¬['/', '*'] <:+: cs ∧ Tokenizes cs ts ∧
        Tokenizes (cs.map plainSpace) ts := by
  intro cs ts
  have hquote : ∀ c ∈ cs, isQuote c = false := by
    have hall : cs.all (!isQuote ·) = true := by
      decide +kernel
    simpa using hall
  have hcomment : ¬['/', '*'] <:+: cs := by
    decide +kernel
  have hts : Tokenizes cs ts := by
    decide +kernel
  refine ⟨hquote, hcomment, hts, ((map_plainSpace_iff hquote hcomment).2 ts hts).2 ?_⟩
  intro name hname
  have hall : name.toList.all (!isBlank ·) = true := by
    have hname : name = "a" ∨ name = "é" := by
      simpa [ts] using hname
    rcases hname with rfl | rfl <;> decide +kernel
  simpa using hall

theorem spaced_name_split
    : Tokenizes "a\u00a0b".toList [.ident "a\u00a0b"] ∧
        ¬Tokenizes ("a\u00a0b".toList.map plainSpace) [.ident "a\u00a0b"] ∧
        Tokenizes ("a\u00a0b".toList.map plainSpace) [.ident "a", .space, .ident "b"] := by
  decide +kernel

end Tokenizes

end TreeStyle
