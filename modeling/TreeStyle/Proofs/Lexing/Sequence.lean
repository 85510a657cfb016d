import Mathlib.Algebra.Ring.Nat
import Mathlib.Data.List.Chain
import Mathlib.Data.List.DropRight
import TreeStyle.Proofs.Lexing.Boundary
import TreeStyle.Proofs.ValueText.Illegible

/-!
This module contains the proof when tokens are read back that are written one after the other: every
token has to end before the next one.
-/

namespace TreeStyle

def Tokenizes (cs : List Char) (ts : List Token) : Prop :=
  ∃ rest, Lexes cs ts rest ∧ Token.next rest = (.ok .eof, [])

namespace Token

def trimEnd (ts : List Token) : List Token := ts.rdropWhile (· == .space)

def trimSpaces (ts : List Token) : List Token := trimEnd (ts.dropWhile (· == .space))

def stars : Token → Nat
  | .string s => s.toList.count '*'
  | .delim c => [c].count '*'
  | _ => 0

def starsOf (ts : List Token) : Nat := (ts.map stars).sum

theorem starsOf_cons (t : Token) (ts : List Token)
    : starsOf (t :: ts) = t.stars + starsOf ts := by
  simp [starsOf]

theorem trimEnd_cons (t : Token) (ts : List Token)
    : trimEnd (t :: ts) = if t = .space ∧ trimEnd ts = [] then [] else t :: trimEnd ts := by
  unfold trimEnd List.rdropWhile
  rw [List.reverse_cons, List.dropWhile_append]
  cases hts : ts.reverse.dropWhile (· == .space) with
  | nil => by_cases ht : t = .space <;> simp [ht]
  | cons u us => simp

theorem trimEnd_cons_of_ne {t : Token} (ht : t ≠ .space) (ts : List Token)
    : trimEnd (t :: ts) = t :: trimEnd ts := by
  rw [trimEnd_cons, if_neg (by simp [ht])]

theorem starsOf_trimEnd (ts : List Token)
    : starsOf (trimEnd ts) = starsOf ts := by
  induction ts with
  | nil => rfl
  | cons t ts ih =>
    rw [trimEnd_cons, starsOf_cons, ← ih]
    split
    . next h =>
      rw [h.1, h.2]
      rfl
    . rw [starsOf_cons]

theorem starsOf_eq_of_trimEnd {ts us : List Token} (h : trimEnd ts = trimEnd us)
    : starsOf ts = starsOf us := by
  rw [← starsOf_trimEnd ts, h, starsOf_trimEnd]

theorem exists_cons_of_trimEnd {ts us : List Token} {t : Token} (h : trimEnd ts = t :: us)
    : ∃ us', ts = t :: us' ∧ trimEnd us' = us := by
  cases ts with
  | nil => cases h
  | cons t' us' =>
    rw [trimEnd_cons] at h
    split at h
    . cases h
    . cases h
      exact ⟨us', rfl, rfl⟩

theorem trimSpaces_of_head? {ts : List Token} (h : ∀ t ∈ ts.head?, t ≠ .space)
    : trimSpaces ts = trimEnd ts := by
  unfold trimSpaces
  cases ts with
  | nil => rfl
  | cons t ts => rw [List.dropWhile_cons_of_neg (by simpa using h t rfl)]

theorem trimSpaces_space_cons (ts : List Token)
    : trimSpaces (.space :: ts) = trimSpaces ts := rfl

theorem trimSpaces_trimEnd {ts : List Token} (h : ∀ t ∈ ts.head?, t ≠ .space)
    : trimSpaces (trimEnd ts) = trimEnd ts := by
  rw [trimSpaces_of_head?]
  . exact List.rdropWhile_idempotent _ _
  . intro t ht
    rcases List.head?_eq_some_iff.1 ht with ⟨us, hus⟩
    rcases exists_cons_of_trimEnd hus with ⟨us', rfl, -⟩
    exact h t rfl

theorem starsOf_trimSpaces (ts : List Token)
    : starsOf (trimSpaces ts) = starsOf ts := by
  unfold trimSpaces
  rw [starsOf_trimEnd]
  induction ts with
  | nil => rfl
  | cons t ts ih =>
    rw [List.dropWhile_cons]
    split
    . next ht =>
      rw [ih, starsOf_cons, of_decide_eq_true ht]
      exact (Nat.zero_add _).symm
    . rfl

theorem next_eq_eof_iff {cs : List Char}
    : next cs = (.ok .eof, []) ↔ skipTrivia cs = (.ok false, []) := by
  constructor
  . intro h
    rcases Parser.bind_eq_ok_iff.1 h with ⟨spaced, mid, hskip, h⟩
    cases spaced with
    | true => simp [Parser.pure_eq_ok_iff] at h
    | false =>
      match mid with
      | [] => exact hskip
      | c :: mid => exact absurd h readHere_cons_ne_eof
  . intro h
    rw [next_of_skipTrivia h]
    rfl

theorem stars_le_of_readHere {t : Token} {cs rest : List Char} (h : readHere cs = (.ok t, rest))
    : t.stars + rest.count '*' ≤ cs.count '*' := by
  have hcount := (shrinks_readHere.suffix h).sublist.count_le '*'
  match cs with
  | [] =>
    cases h
    exact Nat.le_refl _
  | c :: cs =>
    rcases cases_of_readHere h with
      ⟨text, hquote, htext, rfl⟩ | ⟨-, rfl, -⟩ | ⟨-, rfl, -⟩ | ⟨-, -, -, rfl, rfl⟩
    . have hwf : (Piece.quoted c text).WellFormed := hquote
      have hpiece := Piece.stars_le_of_readFrom hwf ⟨rfl, htext⟩
      rw [Piece.count_render_quoted hquote] at hpiece
      rwa [stars, String.toList_ofList]
    . simpa [stars] using hcount
    . simpa [stars] using hcount
    . rw [stars, ← List.count_append]
      exact Nat.le_refl _

end Token

namespace Tokenizes

variable {cs mid : List Char} {t : Token} {ts : List Token}

theorem nil_iff
    : Tokenizes cs [] ↔ Token.next cs = (.ok .eof, []) := by
  unfold Tokenizes
  simp

theorem cons_iff
    : Tokenizes cs (t :: ts)
        ↔
      t ≠ .eof ∧ ∃ mid, Token.next cs = (.ok t, mid) ∧ Tokenizes mid ts := by
  unfold Tokenizes
  simp only [Lexes.cons_iff]
  grind

instance instDecidable : (cs : List Char) → (ts : List Token) → Decidable (Tokenizes cs ts)
  | cs, [] =>
    decidable_of_iff ((Token.next cs).1.toOption = some .eof ∧ (Token.next cs).2 = []) <| by
      rw [nil_iff, Parser.eq_ok_iff_toOption]
  | cs, t :: ts =>
    have := instDecidable (Token.next cs).2 ts
    decidable_of_iff (t ≠ .eof ∧ (Token.next cs).1.toOption = some t ∧
        Tokenizes (Token.next cs).2 ts) <| by
      rw [cons_iff]
      simp only [Parser.eq_ok_iff_toOption]
      grind

theorem of_nil_iff
    : Tokenizes [] ts ↔ ts = [] := by
  have hclear : Clear [] := trivial
  have hnext : Token.next [] = (.ok .eof, []) := Token.next_of_clear hclear
  cases ts with
  | nil => simp [nil_iff, hnext]
  | cons t ts =>
    rw [cons_iff, hnext]
    grind

theorem exists_of_skipTrivia {spaced : Bool} (h : Tokenizes cs ts)
    (hskip : skipTrivia cs = (.ok spaced, mid))
    : ∃ us, ts = (if spaced then [.space] else []) ++ us ∧ Tokenizes mid us := by
  cases spaced with
  | false =>
    have hnext : Token.next mid = Token.next cs := by
      rw [Token.next_of_skipTrivia hskip, Token.next_of_clear (clear_of_skipTrivia hskip)]
    refine ⟨ts, rfl, ?_⟩
    cases ts with
    | nil => exact nil_iff.2 (hnext.trans (nil_iff.1 h))
    | cons t ts => rwa [cons_iff, hnext, ← cons_iff]
  | true =>
    have hnext := Token.next_of_skipTrivia_true hskip
    cases ts with
    | nil => cases hnext.symm.trans (nil_iff.1 h)
    | cons t ts =>
      rcases cons_iff.1 h with ⟨-, mid', hnext', hts⟩
      cases hnext.symm.trans hnext'
      exact ⟨ts, rfl, hts⟩

theorem head?_ne_space (h : Tokenizes cs ts) (hclear : Clear cs)
    : ∀ t ∈ ts.head?, t ≠ .space := by
  intro t ht
  rcases List.head?_eq_some_iff.1 ht with ⟨us, rfl⟩
  rcases cons_iff.1 h with ⟨-, mid, hnext, -⟩
  rw [Token.next_of_clear hclear] at hnext
  rintro rfl
  exact Token.readHere_ne_space hnext

theorem stars_le (h : Tokenizes cs ts)
    : ∃ spaced mid, skipTrivia cs = (.ok spaced, mid) ∧ Token.starsOf ts ≤ mid.count '*' := by
  induction ts generalizing cs with
  | nil =>
    exact ⟨false, [], Token.next_eq_eof_iff.1 (nil_iff.1 h), Nat.le_refl _⟩
  | cons t ts ih =>
    rcases cons_iff.1 h with ⟨-, rest, hnext, hts⟩
    rcases ih hts with ⟨spaced', mid', hskip', hcount⟩
    have hmid' : mid'.count '*' ≤ rest.count '*' :=
      (shrinks_skipTrivia.suffix hskip').sublist.count_le '*'
    rcases Parser.bind_eq_ok_iff.1 hnext with ⟨spaced, mid, hskip, hread⟩
    refine ⟨spaced, mid, hskip, ?_⟩
    rw [Token.starsOf_cons]
    cases spaced with
    | true =>
      rcases Parser.pure_eq_ok_iff.1 hread with ⟨rfl, rfl⟩
      have : Token.space.stars = 0 := rfl
      omega
    | false =>
      have := Token.stars_le_of_readHere hread
      omega

theorem not_comment {x : List Char} {s : Bool} (hx : skipTrivia x = skipTrivia.go s cs)
    (h : Tokenizes x ts) (hstars : cs.count '*' ≤ Token.starsOf ts)
    : ¬∃ body, cs = '/' :: '*' :: body := by
  rintro ⟨body, rfl⟩
  rcases h.stars_le with ⟨spaced', mid, hskip, hcount⟩
  rw [hx] at hskip
  have hmid := (skipTrivia.go_comment_suffix hskip).sublist.count_le '*'
  rw [List.count_cons, List.count_cons_self] at hstars
  omega

end Tokenizes

namespace Token

/--
The text is what is written for the tokens, with one space for white space and nothing for that at
the end. From a token on that is not plain it can be any text that this token is not read from.
-/
inductive WrittenAs : (ts : List Token) → (cs : List Char) → Prop where
  | nil : WrittenAs [] []
  | trailing : WrittenAs [.space] []
  | space {t : Token} {ts : List Token} {cs : List Char} (ht : t ≠ .space)
      (h : WrittenAs (t :: ts) cs) : WrittenAs (.space :: t :: ts) (' ' :: cs)
  | token {t : Token} {ts : List Token} {w cs : List Char} (hplain : t.isPlain = true)
      (ht : Spelled t w) (h : WrittenAs ts cs) : WrittenAs (t :: ts) (w ++ cs)
  | broken {t : Token} {ts : List Token} {cs : List Char} (hplain : t.isPlain = false)
      (hclear : Clear cs) (hread : ∀ rest, readHere cs ≠ (.ok t, rest))
      (hstars : cs.count '*' ≤ starsOf (t :: ts)) : WrittenAs (t :: ts) cs

theorem Spelled.count_le {t : Token} {w : List Char} (h : Spelled t w)
    : w.count '*' ≤ t.stars := by
  cases h with
  | ident h =>
    rw [List.count_eq_zero.2]
    . exact Nat.zero_le _
    . intro hmem
      cases h.goesOn '*' hmem
  | number h hne =>
    rw [List.count_eq_zero.2]
    . exact Nat.zero_le _
    . intro hmem
      exact absurd rfl (of_isDigit_or_point (h.mem hmem)).2.2.2
  | string hquote hline =>
    rw [Piece.count_render_quoted hquote, stars, String.toList_ofList]
  | delim hblank hquote hends => exact Nat.le_refl _

theorem Spelled.ne_space_and_eof {t : Token} {w : List Char} (h : Spelled t w)
    : t ≠ .space ∧ t ≠ .eof := by
  cases h <;> simp

namespace WrittenAs

variable {ts ts' : List Token} {t : Token} {w cs : List Char}

theorem count_le (h : WrittenAs ts cs)
    : cs.count '*' ≤ starsOf ts := by
  induction h with
  | nil => exact Nat.zero_le _
  | trailing => exact Nat.zero_le _
  | space ht h ih =>
    rw [List.count_cons_of_ne (by decide), starsOf_cons]
    omega
  | token hplain ht h ih =>
    have := ht.count_le
    rw [List.count_append, starsOf_cons]
    omega
  | broken hplain hclear hread hstars => exact hstars

theorem clear (h : WrittenAs (t :: ts) cs) (ht : t ≠ .space)
    (hcomment : ¬∃ body, cs = '/' :: '*' :: body)
    : Clear cs := by
  cases h with
  | trailing => exact absurd rfl ht
  | space => exact absurd rfl ht
  | token hplain hspelled h => exact hspelled.clear_append hcomment
  | broken hplain hclear hread hstars => exact hclear

theorem endsBefore_text (h : WrittenAs ts cs) (hts : ∀ u ∈ ts, u.isPlain = true)
    (ht : Spelled t w) (hends : t.endsBefore cs = true)
    : ∀ u ∈ ts.head?, t.endsBefore u.text = true := by
  cases h with
  | nil => simp
  | trailing =>
    rintro u ⟨⟩
    exact ht.endsBefore_of_apart apart_text_space
  | space hne h =>
    rintro u ⟨⟩
    exact ht.endsBefore_of_apart apart_text_space
  | token hplain hu h =>
    rintro u ⟨⟩
    exact ht.endsBefore_text hu hends
  | broken hplain hclear hread hstars =>
    rw [hts _ List.mem_cons_self] at hplain
    cases hplain

theorem endsBefore_of_text (h : WrittenAs ts cs) (hts : ∀ u ∈ ts, u.isPlain = true)
    (hchain : ts.IsChain fun t u => t.endsBefore u.text = true) (ht : Spelled t w)
    (hnext : ∀ u ∈ ts.head?, t.endsBefore u.text = true)
    : t.endsBefore cs = true := by
  induction h generalizing t w with
  | nil => exact ht.endsBefore_of_apart (by simp [Apart])
  | trailing => exact ht.endsBefore_of_apart (by simp [Apart])
  | space hne h ih =>
    apply ht.endsBefore_of_apart
    rintro c ⟨⟩
    exact .inl rfl
  | token hplain hu h ih =>
    rw [List.forall_mem_cons] at hts
    rw [List.isChain_cons] at hchain
    exact ht.endsBefore_append hu (ih hts.2 hchain.2 hu hchain.1) (hnext _ rfl)
  | broken hplain hclear hread hstars =>
    rw [hts _ List.mem_cons_self] at hplain
    cases hplain

theorem isChain_of_tokenizes (h : WrittenAs ts cs) (hts' : Tokenizes cs ts')
    (htrim : trimEnd ts' = trimEnd ts)
    : (∀ t ∈ ts, t.isPlain = true) ∧ ts.IsChain fun t u => t.endsBefore u.text = true := by
  induction h generalizing ts' with
  | nil => exact ⟨by simp, .nil⟩
  | trailing => exact ⟨by simp [isPlain], .singleton _⟩
  | space ht h ih =>
    rename_i t ts cs
    have hclear : Clear cs := by
      have hskip : skipTrivia (' ' :: cs) = skipTrivia.go true cs :=
        skipTrivia.go_blank rfl false cs
      apply h.clear ht
      apply hts'.not_comment hskip
      have hzero : Token.space.stars = 0 := rfl
      rw [starsOf_eq_of_trimEnd htrim, starsOf_cons, hzero, Nat.zero_add]
      exact h.count_le
    rw [trimEnd_cons, trimEnd_cons_of_ne ht, if_neg (by simp), ← trimEnd_cons_of_ne ht] at htrim
    rcases exists_cons_of_trimEnd htrim with ⟨us, rfl, hus⟩
    rcases Tokenizes.cons_iff.1 hts' with ⟨-, mid, hnext, hmid⟩
    rw [next_space_cons hclear] at hnext
    cases hnext
    rcases ih hmid hus with ⟨hplain, hchain⟩
    exact ⟨List.forall_mem_cons.2 ⟨rfl, hplain⟩, .cons_cons rfl hchain⟩
  | token hplain ht h ih =>
    rename_i t ts w cs
    have hclear : Clear (w ++ cs) := by
      apply ht.clear_append
      apply hts'.not_comment (s := false) rfl
      rw [starsOf_eq_of_trimEnd htrim]
      exact (WrittenAs.token hplain ht h).count_le
    rw [trimEnd_cons_of_ne ht.ne_space_and_eof.1] at htrim
    rcases exists_cons_of_trimEnd htrim with ⟨us, rfl, hus⟩
    rcases Tokenizes.cons_iff.1 hts' with ⟨-, mid, hnext, hmid⟩
    rw [next_of_clear hclear] at hnext
    rcases ht.endsBefore_of_readHere hclear hnext with ⟨rfl, hends⟩
    rcases ih hmid hus with ⟨hts, hchain⟩
    exact ⟨List.forall_mem_cons.2 ⟨hplain, hts⟩,
      List.isChain_cons.2 ⟨h.endsBefore_text hts ht hends, hchain⟩⟩
  | broken hplain hclear hread hstars =>
    rename_i t ts cs
    have hne : t ≠ .space := by
      rintro rfl
      cases hplain
    rw [trimEnd_cons_of_ne hne] at htrim
    rcases exists_cons_of_trimEnd htrim with ⟨us, rfl, hus⟩
    rcases Tokenizes.cons_iff.1 hts' with ⟨-, mid, hnext, hmid⟩
    rw [next_of_clear hclear] at hnext
    exact absurd hnext (hread mid)

theorem tokenizes_trimEnd (h : WrittenAs ts cs) (hts : ∀ t ∈ ts, t.isPlain = true)
    (hchain : ts.IsChain fun t u => t.endsBefore u.text = true)
    : Tokenizes cs (trimEnd ts) ∧ ∀ t ∈ ts.head?, t ≠ .space → Clear cs := by
  induction h with
  | nil => exact ⟨Tokenizes.of_nil_iff.2 rfl, by simp⟩
  | trailing => exact ⟨Tokenizes.of_nil_iff.2 rfl, by simp⟩
  | space ht h ih =>
    rw [List.forall_mem_cons] at hts
    rw [List.isChain_cons] at hchain
    rcases ih hts.2 hchain.2 with ⟨htokenizes, hclear⟩
    refine ⟨?_, by simp⟩
    rw [trimEnd_cons, trimEnd_cons_of_ne ht, if_neg (by simp), ← trimEnd_cons_of_ne ht]
    exact Tokenizes.cons_iff.2 ⟨by simp, _, next_space_cons (hclear _ rfl ht), htokenizes⟩
  | token hplain ht h ih =>
    rw [List.forall_mem_cons] at hts
    rw [List.isChain_cons] at hchain
    have hends := h.endsBefore_of_text hts.2 hchain.2 ht hchain.1
    rcases ht.readHere_append hends with ⟨hclear, hread⟩
    rcases ht.ne_space_and_eof with ⟨hspace, heof⟩
    refine ⟨?_, fun _ _ _ => hclear⟩
    rw [trimEnd_cons_of_ne hspace]
    refine Tokenizes.cons_iff.2 ⟨heof, _, ?_, (ih hts.2 hchain.2).1⟩
    rw [next_of_clear hclear, hread]
  | broken hplain hclear hread hstars =>
    rw [hts _ List.mem_cons_self] at hplain
    cases hplain

/--
What is written for tokens has these tokens up to white space at its ends if and only if they are
plain and each of them ends before the next one.
-/
theorem exists_tokenizes_iff (h : WrittenAs ts cs) (hts : ∀ t ∈ ts.head?, t ≠ .space)
    : (∃ ts', Tokenizes cs ts' ∧ trimSpaces ts' = trimSpaces ts)
        ↔
      (∀ t ∈ ts, t.isPlain = true) ∧ ts.IsChain fun t u => t.endsBefore u.text = true := by
  rw [trimSpaces_of_head? hts]
  constructor
  . rintro ⟨ts', hts', htrim⟩
    apply h.isChain_of_tokenizes hts'
    rw [← htrim, trimSpaces_of_head?]
    cases ts with
    | nil =>
      cases h
      rw [Tokenizes.of_nil_iff.1 hts']
      simp
    | cons t ts =>
      have hclear : Clear cs := by
        apply h.clear (hts t rfl)
        apply hts'.not_comment (s := false) rfl
        rw [← starsOf_trimSpaces, htrim, starsOf_trimEnd]
        exact h.count_le
      exact hts'.head?_ne_space hclear
  . rintro ⟨hplain, hchain⟩
    exact ⟨trimEnd ts, (h.tokenizes_trimEnd hplain hchain).1, trimSpaces_trimEnd hts⟩

end WrittenAs

end Token

end TreeStyle
