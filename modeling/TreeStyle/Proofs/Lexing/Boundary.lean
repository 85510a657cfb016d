import Mathlib.Data.List.Basic
import Mathlib.Data.List.TakeWhile
import TreeStyle.Proofs.Lexing.Stability
import TreeStyle.Proofs.ValueText

/-!
This module contains the texts that single tokens are read from, and where a token ends that further
text follows.
-/

namespace TreeStyle

def endsNumber (digits cs : List Char) : Bool :=
  if '.' ∈ digits then !cs.head?.any Char.isDigit else !startsNumber cs

theorem endsNumber_spanNumber (cs : List Char)
    : endsNumber (spanNumber cs).1 (spanNumber cs).2 = true := by
  have hdigit : ∀ ds : List Char, (ds.dropWhile Char.isDigit).head?.any Char.isDigit = false := by
    intro ds
    have := List.head?_dropWhile_not Char.isDigit ds
    cases hhead : (ds.dropWhile Char.isDigit).head? with
    | none => rfl
    | some c => simpa [hhead] using this
  have hpoint : '.' ∉ cs.takeWhile Char.isDigit := by
    intro hmem
    cases List.mem_takeWhile_imp hmem
  by_cases hhead : (cs.dropWhile Char.isDigit).head? = some '.'
  . rcases List.head?_eq_some_iff.1 hhead with ⟨last, hlast⟩
    rw [spanNumber_of_point hlast]
    split
    . unfold endsNumber
      rw [if_pos (by simp), hdigit]
      rfl
    . next hlast =>
      unfold endsNumber startsNumber
      rw [if_neg hpoint]
      simpa using hlast
  . rw [spanNumber_of_ne_point hhead]
    unfold endsNumber
    rw [if_neg hpoint]
    have hfirst := hdigit cs
    cases hdrop : cs.dropWhile Char.isDigit with
    | nil => rfl
    | cons c rest =>
      rw [hdrop] at hhead hfirst
      have hc : c.isDigit = false := hfirst
      have hne : c ≠ '.' := fun hc => hhead (congrArg some hc)
      simp [startsNumber, hc, hne]

theorem takeWhile_append_of_head? {p : Char → Bool} {w cs : List Char} (hw : ∀ c ∈ w, p c = true)
    (hcs : cs.head?.any p = false)
    : (w ++ cs).takeWhile p = w ∧ (w ++ cs).dropWhile p = cs := by
  rw [List.takeWhile_append_of_pos hw, List.dropWhile_append_of_pos hw]
  cases cs with
  | nil => simp
  | cons c cs =>
    have hc : p c = false := hcs
    simp [hc]

theorem startsNumber_append {w cs : List Char} (h : startsNumber w = true)
    : startsNumber (w ++ cs) = true := by
  match w with
  | [c] =>
    have hc : c.isDigit = true := by
      simpa [startsNumber] using h
    simp [startsNumber, hc]
  | c :: c' :: w => exact h

inductive IsNumber : (w : List Char) → Prop where
  | whole {w : List Char} (hw : ∀ c ∈ w, c.isDigit = true) : IsNumber w
  | point {w last : List Char} (hw : ∀ c ∈ w, c.isDigit = true)
      (hlast : ∀ c ∈ last, c.isDigit = true) (hne : last ≠ []) : IsNumber (w ++ '.' :: last)

theorem isNumber_spanNumber (cs : List Char)
    : IsNumber (spanNumber cs).1 := by
  by_cases hpoint : (cs.dropWhile Char.isDigit).head? = some '.'
  . rcases List.head?_eq_some_iff.1 hpoint with ⟨last, hlast⟩
    rw [spanNumber_of_point hlast]
    split
    . next hdigit =>
      refine .point (fun _ => List.mem_takeWhile_imp) (fun _ => List.mem_takeWhile_imp) ?_
      cases last with
      | nil => cases hdigit
      | cons c last =>
        have hc : c.isDigit = true := hdigit
        simp [hc]
    . exact .whole fun _ => List.mem_takeWhile_imp
  . rw [spanNumber_of_ne_point hpoint]
    exact .whole fun _ => List.mem_takeWhile_imp

namespace IsNumber

variable {w cs : List Char} (h : IsNumber w)

include h

theorem mem {c : Char} (hc : c ∈ w)
    : c.isDigit = true ∨ c = '.' := by
  cases h with
  | whole hw => exact .inl (hw c hc)
  | point hw hlast hne =>
    rcases List.mem_append.1 hc with hc | hc
    . exact .inl (hw c hc)
    . rcases List.mem_cons.1 hc with hc | hc
      . exact .inr hc
      . exact .inl (hlast c hc)

theorem startsNumber_eq_true (hne : w ≠ [])
    : startsNumber w = true := by
  have hdigit : ∀ {c : Char} {ds : List Char}, c.isDigit = true →
      startsNumber (c :: ds) = true := by
    intro c ds hc
    rw [startsNumber, hc, Bool.true_or]
  cases h with
  | whole hw =>
    rcases List.exists_cons_of_ne_nil hne with ⟨c, w, rfl⟩
    apply hdigit
    apply hw c List.mem_cons_self
  | @point w last hw hlast hlastne =>
    cases w with
    | nil =>
      rcases List.exists_cons_of_ne_nil hlastne with ⟨c, last, rfl⟩
      have hc : c.isDigit = true := hlast c List.mem_cons_self
      simp [startsNumber, hc]
    | cons c w =>
      apply hdigit
      apply hw c List.mem_cons_self

theorem spanNumber_append (hends : endsNumber w cs = true)
    : spanNumber (w ++ cs) = (w, cs) := by
  unfold endsNumber at hends
  cases h with
  | whole hw =>
    have hpoint : '.' ∉ w := by
      intro hmem
      cases hw '.' hmem
    rw [if_neg hpoint, Bool.not_eq_true'] at hends
    have hfirst : cs.head?.any Char.isDigit = false := by
      cases cs with
      | nil => rfl
      | cons c cs =>
        unfold startsNumber at hends
        exact (Bool.or_eq_false_iff.1 hends).1
    rcases takeWhile_append_of_head? hw hfirst with ⟨htake, hdrop⟩
    by_cases hhead : cs.head? = some '.'
    . rcases List.head?_eq_some_iff.1 hhead with ⟨last, rfl⟩
      have hlast : last.head?.any Char.isDigit = false := by
        simpa [startsNumber] using hends
      rw [spanNumber_of_point hdrop, htake, if_neg (by simp [hlast])]
    . rw [spanNumber_of_ne_point (by rwa [hdrop]), htake, hdrop]
  | @point w last hw hlast hne =>
    rw [if_pos (by simp), Bool.not_eq_true'] at hends
    have hfirst : ('.' :: (last ++ cs)).head?.any Char.isDigit = false := rfl
    rcases takeWhile_append_of_head? hw hfirst with ⟨htake, hdrop⟩
    rcases takeWhile_append_of_head? hlast hends with ⟨htake', hdrop'⟩
    rw [List.append_assoc, List.cons_append, spanNumber_of_point hdrop, htake, htake', hdrop',
      if_pos]
    rcases List.exists_cons_of_ne_nil hne with ⟨c, last, rfl⟩
    apply hlast c List.mem_cons_self

end IsNumber

theorem of_isDigit_or_point {c : Char} (h : c.isDigit = true ∨ c = '.')
    : Text.isBlank c = false ∧ isQuote c = false ∧ c ≠ '/' ∧ c ≠ '*' := by
  rcases h with h | rfl
  . have hcode : 48 ≤ c.toNat ∧ c.toNat ≤ 57 := by
      simpa [Char.isDigit, UInt32.le_iff_toNat_le] using h
    refine ⟨?_, isQuote_eq_false h rfl rfl, ?_, ?_⟩
    . simp [Text.isBlank]
      omega
    . rintro rfl
      cases h
    . rintro rfl
      cases h
  . decide

theorem isIdentChar_other {c : Char} (h : isIdentChar c = true)
    : isQuote c = false ∧ c ≠ '/' ∧ c ≠ '*' := by
  refine ⟨isQuote_eq_false h rfl rfl, ?_, ?_⟩
  . rintro rfl
    cases h
  . rintro rfl
    cases h

theorem startsNumber_cons {c : Char} {cs : List Char} (h : startsNumber (c :: cs) = true)
    : c.isDigit = true ∨ c = '.' := by
  rw [startsNumber, Bool.or_eq_true, Bool.and_eq_true, beq_iff_eq] at h
  exact h.imp_right And.left

def Apart (cs : List Char) : Prop := ∀ c ∈ cs.head?, c = ' ' ∨ isQuote c = true

namespace Apart

variable {cs : List Char} (h : Apart cs)

include h

theorem cases_first
    : cs = [] ∨ ∃ rest, cs = ' ' :: rest ∨ cs = '"' :: rest ∨ cs = '\'' :: rest := by
  cases cs with
  | nil => exact .inl rfl
  | cons c rest =>
    refine .inr ⟨rest, ?_⟩
    rcases (h c rfl).imp_right isQuote_cases with rfl | rfl | rfl <;> simp

theorem not_isIdentChar : cs.head?.any isIdentChar = false := by
  rcases h.cases_first with rfl | ⟨rest, rfl | rfl | rfl⟩ <;> rfl

theorem not_isDigit : cs.head?.any Char.isDigit = false := by
  rcases h.cases_first with rfl | ⟨rest, rfl | rfl | rfl⟩ <;> rfl

theorem not_startsNumber : startsNumber cs = false := by
  rcases h.cases_first with rfl | ⟨rest, rfl | rfl | rfl⟩ <;> rfl

theorem ne_star : cs.head? ≠ some '*' := by
  rcases h.cases_first with rfl | ⟨rest, rfl | rfl | rfl⟩ <;> simp

theorem startsIdent_cons (c : Char) : startsIdent (c :: cs) = startsIdent [c] := by
  by_cases hc : c = '-'
  . subst hc
    rcases h.cases_first with rfl | ⟨rest, rfl | rfl | rfl⟩ <;> rfl
  . rw [startsIdent, startsIdent]
    . simpa using hc
    . simpa using hc

end Apart

namespace Token

def text : Token → List Char
  | .ident name => name.toList
  | .number digits => digits.toList
  | .string s => (Piece.quoted '"' s.toList).render
  | .delim c => [c]
  | .space => [' ']
  | .eof => []

def endsBefore (cs : List Char) : Token → Bool
  | .ident _ => !cs.head?.any isIdentChar
  | .number digits => endsNumber digits.toList cs
  | .delim c =>
    !startsNumber (c :: cs) && !startsIdent (c :: cs) && !(c == '/' && cs.head? == some '*')
  | .string _ => true
  | .space => true
  | .eof => true

inductive Spelled : (t : Token) → (cs : List Char) → Prop where
  | ident {cs : List Char} (h : IsName cs) : Spelled (.ident (String.ofList cs)) cs
  | number {cs : List Char} (h : IsNumber cs) (hne : cs ≠ []) :
      Spelled (.number (String.ofList cs)) cs
  | string {quote : Char} {s : List Char} (hquote : isQuote quote = true) (hline : '\n' ∉ s) :
      Spelled (.string (String.ofList s)) (Piece.quoted quote s).render
  | delim {c : Char} (hblank : Text.isBlank c = false) (hquote : isQuote c = false)
      (hends : endsBefore [] (.delim c) = true) : Spelled (.delim c) [c]

def isPlain : Token → Bool
  | .ident name => !name.toList.any Text.isBlank
  | .string s => '\n' ∉ s.toList
  | _ => true

theorem isPlain_ident (cs : List Char)
    : (ident (String.ofList cs)).isPlain = !cs.any Text.isBlank := by
  rw [isPlain, String.toList_ofList]

theorem isPlain_string (cs : List Char)
    : (string (String.ofList cs)).isPlain = decide ('\n' ∉ cs) := by
  rw [isPlain, String.toList_ofList]

theorem endsBefore_ident (name : String) (cs : List Char)
    : (ident name).endsBefore cs = !cs.head?.any isIdentChar := rfl

theorem endsBefore_number (digits : String) (cs : List Char)
    : (number digits).endsBefore cs = endsNumber digits.toList cs := rfl

theorem endsBefore_delim (c : Char) (cs : List Char)
    : (delim c).endsBefore cs
        = (!startsNumber (c :: cs) && !startsIdent (c :: cs) &&
            !(c == '/' && cs.head? == some '*')) := rfl

theorem endsBefore_of_head?_eq {t : Token} {cs ds : List Char} (hhead : ds.head? = cs.head?)
    (hnumber : startsNumber ds = true → startsNumber cs = true) (h : t.endsBefore cs = true)
    : t.endsBefore ds = true := by
  cases t with
  | ident name =>
    rw [endsBefore_ident] at *
    rwa [hhead]
  | number digits =>
    rw [endsBefore_number, endsNumber] at *
    split at h
    . next hpoint =>
      rwa [if_pos hpoint, hhead]
    . next hpoint =>
      rw [if_neg hpoint]
      cases hds : startsNumber ds with
      | false => rfl
      | true =>
        rw [hnumber hds] at h
        cases h
  | delim c =>
    have hstarts : startsNumber (c :: ds) = startsNumber (c :: cs) := by
      rw [startsNumber, startsNumber, hhead]
    rw [endsBefore_delim] at *
    rwa [hhead, hstarts, startsIdent_of_head?_eq hhead]
  | string s => rfl
  | space => rfl
  | eof => rfl

theorem startsIdent_singleton {c : Char} {cs : List Char} (h : startsIdent (c :: cs) = false)
    : startsIdent [c] = false := by
  by_cases hc : c = '-'
  . rw [hc]
    rfl
  . rw [startsIdent] at *
    . exact h
    . simpa using hc
    . simpa using hc

theorem text_ident (cs : List Char)
    : (ident (String.ofList cs)).text = cs := String.toList_ofList

theorem text_number (cs : List Char)
    : (number (String.ofList cs)).text = cs := String.toList_ofList

theorem readHere_of_startsIdent {cs : List Char} (h : startsIdent cs = true)
    : readHere cs
        = (.ok (.ident (String.ofList (cs.takeWhile isIdentChar))), cs.dropWhile isIdentChar) := by
  match cs with
  | c :: cs =>
    rcases starts_other_of_startsIdent h with ⟨hquote, hdigit, hdot, -⟩
    unfold readHere
    simp [hquote, hdigit, hdot, startsNumber, h]

theorem readHere_of_startsNumber {cs : List Char} (h : startsNumber cs = true)
    : readHere cs = (.ok (.number (String.ofList (spanNumber cs).1)), (spanNumber cs).2) := by
  match cs with
  | c :: cs =>
    have hquote := (of_isDigit_or_point (startsNumber_cons h)).2.1
    unfold readHere
    simp [hquote, h]

theorem cases_of_readHere {c : Char} {cs rest : List Char} {t : Token}
    (h : readHere (c :: cs) = (.ok t, rest))
    : (∃ text, isQuote c = true ∧ readQuoted c (c :: cs) = (.ok text, rest) ∧
          t = .string (String.ofList text)) ∨
        (startsNumber (c :: cs) = true ∧ t = .number (String.ofList (spanNumber (c :: cs)).1) ∧
          rest = (spanNumber (c :: cs)).2) ∨
        (startsIdent (c :: cs) = true ∧
          t = .ident (String.ofList ((c :: cs).takeWhile isIdentChar)) ∧
          rest = (c :: cs).dropWhile isIdentChar) ∨
        (isQuote c = false ∧ startsNumber (c :: cs) = false ∧ startsIdent (c :: cs) = false ∧
          t = .delim c ∧ rest = cs) := by
  unfold readHere at h
  dsimp only at h
  split at h
  . next hquote =>
    rcases Parser.bind_eq_ok_iff.1 h with ⟨text, mid, htext, h⟩
    rcases Parser.pure_eq_ok_iff.1 h with ⟨rfl, rfl⟩
    exact .inl ⟨text, hquote, htext, rfl⟩
  . next hquote =>
    split at h
    . next hnumber =>
      cases h
      exact .inr (.inl ⟨hnumber, rfl, rfl⟩)
    . next hnumber =>
      split at h
      . next hident =>
        cases h
        exact .inr (.inr (.inl ⟨hident, rfl, rfl⟩))
      . next hident =>
        cases h
        simp only [Bool.not_eq_true] at hquote hnumber hident
        exact .inr (.inr (.inr ⟨hquote, hnumber, hident, rfl, rfl⟩))

theorem apart_text_space : Apart space.text := by
  rintro c ⟨⟩
  exact .inl rfl

theorem apart_text_string (s : String) : Apart (string s).text := by
  rintro c ⟨⟩
  exact .inr rfl

theorem toList_of_readHere_ident {name : String} {cs rest : List Char}
    (h : readHere cs = (.ok (.ident name), rest))
    : name.toList = cs.takeWhile isIdentChar := by
  match cs with
  | [] => cases h
  | c :: cs =>
    rcases cases_of_readHere h with ⟨s, -, -, ht⟩ | ⟨-, ht, -⟩ | ⟨-, ht, -⟩ | ⟨-, -, -, ht, -⟩
    . cases ht
    . cases ht
    . cases ht
      exact String.toList_ofList
    . cases ht

theorem text_append_of_readHere {t : Token} {cs rest : List Char}
    (h : readHere cs = (.ok t, rest)) (ht : ∀ s, t ≠ .string s)
    : t.text ++ rest = cs := by
  match cs with
  | [] =>
    cases h
    rfl
  | c :: cs =>
    rcases cases_of_readHere h with
      ⟨text, -, -, rfl⟩ | ⟨-, rfl, rfl⟩ | ⟨-, rfl, rfl⟩ | ⟨-, -, -, rfl, rfl⟩
    . exact absurd rfl (ht _)
    . rw [text_number, spanNumber_append]
    . rw [text_ident, List.takeWhile_append_dropWhile]
    . rfl

theorem spelled_text_of_readHere {t : Token} {cs rest : List Char} (hclear : Clear cs)
    (h : readHere cs = (.ok t, rest)) (ht : t ≠ .eof) (hplain : t.isPlain = true)
    : Spelled t t.text := by
  match cs with
  | [] =>
    cases h
    exact absurd rfl ht
  | c :: cs =>
    rcases cases_of_readHere h with
      ⟨s, -, -, rfl⟩ | ⟨hnumber, rfl, -⟩ | ⟨-, rfl, -⟩ | ⟨hquote, hnumber, hident, rfl, -⟩
    . rw [isPlain_string, decide_eq_true_iff] at hplain
      rw [text, String.toList_ofList]
      exact .string rfl hplain
    . rw [text_number]
      exact .number (isNumber_spanNumber _) (spanNumber_ne_nil hnumber)
    . have hname := isName_of_readHere hclear h
      rw [String.toList_ofList] at hname
      rw [text_ident]
      exact .ident hname
    . have hdigit : startsNumber [c] = false := by
        rw [startsNumber, Bool.or_eq_false_iff] at hnumber
        simp [startsNumber, hnumber.1]
      refine .delim hclear.1 hquote ?_
      rw [endsBefore_delim, hdigit, startsIdent_singleton hident]
      simp

namespace Spelled

variable {t u : Token} {w x cs rest : List Char}

theorem ne_nil (h : Spelled t w)
    : w ≠ [] := by
  cases h with
  | ident h =>
    rintro rfl
    cases h.starts
  | number _ hne => exact hne
  | string => exact List.cons_ne_nil _ _
  | delim => exact List.cons_ne_nil _ _

theorem clear_append (h : Spelled t w) (hcomment : ¬∃ body, w ++ cs = '/' :: '*' :: body)
    : Clear (w ++ cs) := by
  have hblank : ∀ c ∈ w.head?, Text.isBlank c = false := by
    cases h with
    | ident h => exact h.notBlank
    | number h _ =>
      intro a ha
      exact (of_isDigit_or_point (h.mem (List.mem_of_head? ha))).1
    | string hquote hline =>
      rename_i quote s
      have hwf : (Piece.quoted quote s).WellFormed := hquote
      have hclear : Clear ((Piece.quoted quote s).render ++ []) := Piece.clear_render hwf (by simp)
      rintro a ⟨⟩
      exact hclear.1
    | delim hblank hquote hends =>
      rintro a ⟨⟩
      exact hblank
  match w, h.ne_nil with
  | c :: w, _ =>
    refine ⟨hblank c rfl, ?_⟩
    rintro ⟨rfl, hstar⟩
    rcases List.head?_eq_some_iff.1 hstar with ⟨body, hbody⟩
    exact hcomment ⟨body, congrArg ('/' :: ·) hbody⟩

theorem readHere_append (h : Spelled t w) (hends : t.endsBefore cs = true)
    : Clear (w ++ cs) ∧ readHere (w ++ cs) = (.ok t, cs) := by
  cases h with
  | ident h =>
    refine ⟨h.clear_append, h.readHere_append ?_⟩
    rw [endsBefore_ident] at hends
    intro c hc
    rw [hc] at hends
    simpa using hends
  | number h hne =>
    rw [endsBefore_number, String.toList_ofList] at hends
    have hstarts : startsNumber (w ++ cs) = true :=
      startsNumber_append (h.startsNumber_eq_true hne)
    refine ⟨?_, ?_⟩
    . match w, hne with
      | c :: w, _ =>
        have hc := of_isDigit_or_point (h.mem List.mem_cons_self)
        exact ⟨hc.1, fun hslash => hc.2.2.1 hslash.1⟩
    . rw [readHere_of_startsNumber hstarts, h.spanNumber_append hends]
  | string hquote hline =>
    rename_i quote s
    have hwf : (Piece.quoted quote s).WellFormed := hquote
    refine ⟨Piece.clear_render hwf (by simp), ?_⟩
    have hread := (Piece.readFrom_render hwf hline cs).2
    unfold readHere Piece.render
    dsimp only [List.cons_append]
    rw [if_pos hquote]
    exact Parser.bind_eq_ok_iff.2 ⟨s, cs, hread, rfl⟩
  | delim hblank hquote hends' =>
    rw [endsBefore_delim] at hends
    simp only [Bool.and_eq_true, Bool.not_eq_true', Bool.and_eq_false_iff, beq_eq_false_iff_ne]
      at hends
    refine ⟨⟨hblank, ?_⟩, readHere_delim hquote hends.1.1 hends.1.2⟩
    rintro ⟨hslash, hstar⟩
    rcases hends.2 with hne | hne
    . exact hne hslash
    . exact hne hstar

theorem endsBefore_of_readHere (h : Spelled t w) (hclear : Clear (w ++ cs))
    (hread : readHere (w ++ cs) = (.ok t, rest))
    : rest = cs ∧ t.endsBefore cs = true := by
  cases h with
  | ident h =>
    rw [readHere_of_startsIdent (startsIdent_append h.starts)] at hread
    have htake : (w ++ cs).takeWhile isIdentChar = w := by
      simpa [String.ofList_inj] using congrArg Prod.fst hread
    have hdrop : (w ++ cs).dropWhile isIdentChar = cs := by
      have happ := List.takeWhile_append_dropWhile (p := isIdentChar) (l := w ++ cs)
      rw [htake] at happ
      exact List.append_cancel_left happ
    refine ⟨(congrArg Prod.snd hread).symm.trans hdrop, ?_⟩
    have hhead := List.head?_dropWhile_not isIdentChar (w ++ cs)
    rw [hdrop] at hhead
    rw [endsBefore_ident]
    cases cs with
    | nil => rfl
    | cons c cs => simpa using hhead
  | number h hne =>
    rw [readHere_of_startsNumber (startsNumber_append (h.startsNumber_eq_true hne))] at hread
    have hspan : (spanNumber (w ++ cs)).1 = w := by
      simpa [String.ofList_inj] using congrArg Prod.fst hread
    have hrest : (spanNumber (w ++ cs)).2 = cs := by
      have happ := spanNumber_append (w ++ cs)
      rw [hspan] at happ
      exact List.append_cancel_left happ
    refine ⟨(congrArg Prod.snd hread).symm.trans hrest, ?_⟩
    have hends := endsNumber_spanNumber (w ++ cs)
    rw [hspan, hrest] at hends
    rwa [endsBefore_number, String.toList_ofList]
  | string hquote hline =>
    rename_i quote s
    have hends : (Token.string (String.ofList s)).endsBefore cs = true := rfl
    rw [(readHere_append (.string hquote hline) hends).2] at hread
    exact ⟨(congrArg Prod.snd hread).symm, rfl⟩
  | delim hblank hquote hends =>
    rename_i c
    rw [List.singleton_append] at hread
    rcases cases_of_readHere hread with
      ⟨text, -, -, ht⟩ | ⟨-, ht, -⟩ | ⟨-, ht, -⟩ | ⟨-, hnumber, hident, -, rfl⟩
    . cases ht
    . cases ht
    . cases ht
    . refine ⟨rfl, ?_⟩
      rw [endsBefore_delim, hnumber, hident]
      have hcomment : ¬(c = '/' ∧ rest.head? = some '*') := hclear.2
      simpa [imp_iff_not_or] using hcomment

theorem endsBefore_of_apart (h : Spelled t w) (hcs : Apart cs)
    : t.endsBefore cs = true := by
  cases h with
  | ident h => rw [endsBefore_ident, hcs.not_isIdentChar, Bool.not_false]
  | number h hne =>
    rw [endsBefore_number, endsNumber, hcs.not_isDigit, hcs.not_startsNumber, Bool.not_false,
      ite_self]
  | string hquote hline => rfl
  | delim hblank hquote hends =>
    rename_i c
    have hnumber : startsNumber (c :: cs) = startsNumber [c] := by
      rw [startsNumber, startsNumber, hcs.not_isDigit]
      rfl
    rw [endsBefore_delim] at *
    rw [hnumber, hcs.startsIdent_cons, beq_eq_false_iff_ne.2 hcs.ne_star]
    exact hends

theorem endsBefore_text (ht : Spelled t w) (hu : Spelled u x)
    (h : t.endsBefore (x ++ cs) = true)
    : t.endsBefore u.text = true := by
  have htext (hx : u.text = x) : t.endsBefore u.text = true := by
    rw [hx]
    apply endsBefore_of_head?_eq (List.head?_append_of_ne_nil x hu.ne_nil).symm startsNumber_append
    exact h
  cases hu with
  | ident hu => exact htext (text_ident x)
  | number hu hne => exact htext (text_number x)
  | string hquote hline => exact ht.endsBefore_of_apart (apart_text_string _)
  | delim hblank hquote hends => exact htext rfl

theorem endsBefore_append (ht : Spelled t w) (hu : Spelled u x) (hends : u.endsBefore cs = true)
    (h : t.endsBefore u.text = true)
    : t.endsBefore (x ++ cs) = true := by
  have hhead : (x ++ cs).head? = x.head? := List.head?_append_of_ne_nil x hu.ne_nil
  cases hu with
  | ident hu =>
    rw [text_ident] at h
    apply endsBefore_of_head?_eq hhead _ h
    intro hstarts
    match x, hu.starts with
    | c :: x, hname =>
      rcases starts_other_of_startsIdent hname with ⟨-, hdigit, hdot, -⟩
      rcases startsNumber_cons hstarts with hc | hc
      . rw [hdigit] at hc
        cases hc
      . exact absurd hc hdot
  | number hu hne =>
    rw [text_number] at h
    exact endsBefore_of_head?_eq hhead (fun _ => hu.startsNumber_eq_true hne) h
  | string hquote hline =>
    apply ht.endsBefore_of_apart
    rintro c ⟨⟩
    exact .inr hquote
  | delim hblank hquote hends' =>
    rename_i c
    apply endsBefore_of_head?_eq hhead _ h
    intro hstarts
    rw [endsBefore_delim] at hends
    simp only [Bool.and_eq_true, Bool.not_eq_true'] at hends
    have hstarts : startsNumber (c :: cs) = true := hstarts
    rw [hends.1.1] at hstarts
    cases hstarts

end Spelled

theorem endsBefore_rest {t : Token} {cs rest : List Char} (hclear : Clear cs)
    (h : readHere cs = (.ok t, rest)) (ht : t ≠ .eof) (hplain : t.isPlain = true)
    : t.endsBefore rest = true := by
  by_cases hstring : ∀ s, t ≠ .string s
  . have hspelled := spelled_text_of_readHere hclear h ht hplain
    rw [← text_append_of_readHere h hstring] at hclear h
    exact (hspelled.endsBefore_of_readHere hclear h).2
  . rw [not_forall_not] at hstring
    rcases hstring with ⟨s, rfl⟩
    rfl

end Token

end TreeStyle
