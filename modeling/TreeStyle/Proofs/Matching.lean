import Mathlib.Data.List.Basic
import TreeStyle.Selector.Matching

/-!
This module contains the meaning of the search for the places of compounds. A selector matches the
last element of a chain if its compounds can be placed in the chain, from the root down and the last
one at the end, as the combinators demand. Remembering failed attempts does not change the answer.
-/

namespace TreeStyle.Matcher

/--
The compounds of `s` stand at the positions `place 0`, `place 1`, ... of a chain.
-/
structure Places (m : Matcher) (s : Selector) (chain : List ElementInfo) (place : Nat → Nat) :
    Prop where
  last : place s.rest.length + 1 = chain.length
  lt_succ : ∀ i < s.rest.length, place i < place (i + 1)
  child : ∀ i, s.combinators[i]? = some .child → place i + 1 = place (i + 1)
  stands : ∀ i c, s.compounds[i]? = some c →
    ∃ info, chain[place i]? = some info ∧ m.matchesCompound c info = true

variable {m : Matcher} {first : Compound}

theorem Places.place_le {s : Selector} {chain : List ElementInfo} {place : Nat → Nat}
    (h : Places m s chain place) {i j : Nat} (hij : i ≤ j) (hj : j ≤ s.rest.length)
    : place i ≤ place j := by
  induction j with
  | zero =>
    have : i = 0 := by omega
    apply Nat.le_of_eq
    rw [this]
  | succ j ih =>
    rcases Nat.lt_or_eq_of_le hij with hlt | heq
    . have := ih (by omega) (by omega)
      have := h.lt_succ j (by omega)
      omega
    . apply Nat.le_of_eq
      rw [heq]

section Extension

variable {rest : List (Combinator × Compound)} {k : Combinator} {c : Compound}
variable {above : List ElementInfo} {element : ElementInfo}

theorem compounds_concat
    : (⟨first, rest ++ [(k, c)]⟩ : Selector).compounds
        = (⟨first, rest⟩ : Selector).compounds ++ [c] := by
  simp [Selector.compounds]

theorem combinators_concat
    : (⟨first, rest ++ [(k, c)]⟩ : Selector).combinators
        = (⟨first, rest⟩ : Selector).combinators ++ [k] := by
  simp [Selector.combinators]

theorem length_compounds_mk : (⟨first, rest⟩ : Selector).compounds.length = rest.length + 1 := by
  simp [Selector.compounds]

theorem length_combinators_mk : (⟨first, rest⟩ : Selector).combinators.length = rest.length := by
  simp [Selector.combinators]

theorem getElem?_concat_eq_some_iff {α : Type} {items : List α} {x y : α} {i : Nat}
    : (items ++ [x])[i]? = some y ↔ items[i]? = some y ∨ i = items.length ∧ x = y := by
  rcases Nat.lt_trichotomy i items.length with hlt | heq | hgt
  . rw [List.getElem?_append_left hlt]
    simp [Nat.ne_of_lt hlt]
  . simp [heq]
  . have hne : i ≠ items.length := by omega
    rw [List.getElem?_eq_none (by simp; omega), List.getElem?_eq_none (by omega)]
    simp [hne]

theorem Places.dropLast {place : Nat → Nat}
    (h : Places m ⟨first, rest ++ [(k, c)]⟩ (above ++ [element]) place)
    : Places m ⟨first, rest⟩ (above.take (place rest.length + 1)) place := by
  have hlast := h.last
  have hlt := h.lt_succ rest.length (by simp)
  simp only [List.length_append, List.length_cons, List.length_nil, Nat.zero_add] at hlast
  constructor
  . rw [List.length_take, Nat.min_eq_left]
    omega
  . intro i hi
    apply h.lt_succ
    simp only [List.length_append, List.length_cons, List.length_nil] at hi ⊢
    omega
  . intro i hi
    apply h.child
    rw [combinators_concat, getElem?_concat_eq_some_iff]
    exact Or.inl hi
  . intro i d hd
    have hi := (List.getElem?_eq_some_iff.1 hd).1
    rw [length_compounds_mk] at hi
    have hmem : (⟨first, rest ++ [(k, c)]⟩ : Selector).compounds[i]? = some d := by
      rw [compounds_concat, getElem?_concat_eq_some_iff]
      exact Or.inl hd
    rcases h.stands i d hmem with ⟨info, hinfo, hm⟩
    have hle : place i ≤ place rest.length := by
      apply h.place_le
      . omega
      . simp
    refine ⟨info, ?_, hm⟩
    rw [List.getElem?_append_left (by omega)] at hinfo
    rw [List.getElem?_take, if_pos (by omega), hinfo]

theorem Places.matchesCompound_last {place : Nat → Nat}
    (h : Places m ⟨first, rest ++ [(k, c)]⟩ (above ++ [element]) place)
    : m.matchesCompound c element = true := by
  have hend : place (rest.length + 1) = above.length := by
    simpa using h.last
  rcases h.stands (rest.length + 1) c (by simp [Selector.compounds]) with ⟨info, hinfo, hm⟩
  rw [hend, List.getElem?_concat_length, Option.some.injEq] at hinfo
  rw [hinfo]
  exact hm

theorem Places.exists_suffix {place : Nat → Nat}
    (h : Places m ⟨first, rest ++ [(k, c)]⟩ (above.reverse ++ [element]) place)
    : ∃ parent farther, parent :: farther <:+ above ∧ (k = .child → parent :: farther = above) ∧
        Places m ⟨first, rest⟩ (parent :: farther).reverse place := by
  have hend : place (rest.length + 1) = above.length := by
    simpa using h.last
  have hlt := h.lt_succ rest.length (by simp)
  have hdrop := h.dropLast
  rw [List.take_reverse] at hdrop
  generalize hcut : above.drop (above.length - (place rest.length + 1)) = cut at hdrop
  have hlen : cut.length = place rest.length + 1 := by
    rw [← hcut, List.length_drop]
    omega
  cases cut with
  | nil => simp at hlen
  | cons parent farther =>
    refine ⟨parent, farther, ?_, ?_, hdrop⟩
    . rw [← hcut]
      apply List.drop_suffix
    . intro hk
      have := h.child rest.length (by simp [Selector.combinators, hk])
      rw [← hcut, show above.length - (place rest.length + 1) = 0 by omega, List.drop_zero]

theorem Places.concat {place : Nat → Nat} {j : Nat} (hj : j < above.length)
    (hk : k = .child → j + 1 = above.length) (hc : m.matchesCompound c element = true)
    (h : Places m ⟨first, rest⟩ (above.take (j + 1)) place)
    : Places m ⟨first, rest ++ [(k, c)]⟩ (above ++ [element])
        (fun i => if i ≤ rest.length then place i else above.length) := by
  have hlast := h.last
  simp only [List.length_take] at hlast
  constructor
  . simp only [List.length_append, List.length_cons, List.length_nil]
    rw [if_neg (by omega)]
  . intro i hi
    simp only [List.length_append, List.length_cons, List.length_nil] at hi
    rcases Nat.lt_or_eq_of_le (Nat.le_of_lt_succ hi) with hlt | heq
    . have := h.lt_succ i hlt
      rw [if_pos (by omega), if_pos (by omega)]
      exact this
    . rw [heq, if_pos (by omega), if_neg (by omega)]
      omega
  . intro i hi
    rw [combinators_concat, getElem?_concat_eq_some_iff, length_combinators_mk] at hi
    rcases hi with hi | ⟨heq, hchild⟩
    . have hlt := (List.getElem?_eq_some_iff.1 hi).1
      rw [length_combinators_mk] at hlt
      rw [if_pos (by omega), if_pos (by omega)]
      exact h.child i hi
    . have := hk hchild
      rw [heq, if_pos (by omega), if_neg (by omega)]
      omega
  . intro i d hd
    rw [compounds_concat, getElem?_concat_eq_some_iff, length_compounds_mk] at hd
    rcases hd with hd | ⟨heq, hcd⟩
    . have hlt := (List.getElem?_eq_some_iff.1 hd).1
      rw [length_compounds_mk] at hlt
      rcases h.stands i d hd with ⟨info, hinfo, hm⟩
      rw [List.getElem?_take, Option.ite_none_right_eq_some] at hinfo
      refine ⟨info, ?_, hm⟩
      rw [if_pos (by omega), List.getElem?_append_left (by omega)]
      exact hinfo.2
    . refine ⟨element, ?_, ?_⟩
      . rw [heq, if_neg (by omega), List.getElem?_concat_length]
      . rw [← hcd]
        exact hc

end Extension

def Placeable (m : Matcher) (first : Compound) (before : List (Combinator × Compound))
    (element : ElementInfo) (above : List ElementInfo) : Prop :=
  ∃ place, Places m ⟨first, before.reverse⟩ (element :: above).reverse place

section Placeable

variable {before : List (Combinator × Compound)} {k : Combinator} {c : Compound}
variable {element : ElementInfo} {above : List ElementInfo}

theorem placeable_nil_iff
    : Placeable m first [] element above ↔ m.matchesCompound first element = true := by
  unfold Placeable
  rw [List.reverse_cons]
  constructor
  . intro h
    rcases h with ⟨place, h⟩
    rcases h.stands 0 first rfl with ⟨info, hinfo, hm⟩
    have hlast := h.last
    simp only [List.reverse_nil, List.length_nil, List.length_append, List.length_cons,
      Nat.zero_add, Nat.add_right_cancel_iff] at hlast
    rw [hlast, List.getElem?_concat_length, Option.some.injEq] at hinfo
    rw [hinfo]
    exact hm
  . intro h
    refine ⟨fun _ => above.length, ?_, ?_, ?_, ?_⟩
    . simp
    . simp
    . simp [Selector.combinators]
    . intro i d hd
      simp only [Selector.compounds, List.reverse_nil, List.map_nil,
        List.getElem?_singleton, Option.ite_none_right_eq_some, Option.some.injEq] at hd
      refine ⟨element, ?_, ?_⟩
      . rw [← List.length_reverse, List.getElem?_concat_length]
      . rw [← hd.2]
        exact h

theorem placeable_cons_iff
    : Placeable m first ((k, c) :: before) element above
        ↔
      m.matchesCompound c element = true ∧
        ∃ parent farther, parent :: farther <:+ above ∧ (k = .child → parent :: farther = above) ∧
          Placeable m first before parent farther := by
  unfold Placeable
  rw [List.reverse_cons, List.reverse_cons]
  constructor
  . intro h
    rcases h with ⟨place, h⟩
    rcases h.exists_suffix with ⟨parent, farther, hsuffix, hk, hplaces⟩
    exact ⟨h.matchesCompound_last, parent, farther, hsuffix, hk, place, hplaces⟩
  . intro h
    rcases h with ⟨hc, parent, farther, hsuffix, hk, place, h⟩
    have hle := hsuffix.length_le
    rw [List.length_cons] at hle
    have htake : above.reverse.take (farther.length + 1) = (parent :: farther).reverse := by
      rw [List.take_reverse]
      conv => rhs; rw [List.suffix_iff_eq_drop.1 hsuffix]
      rfl
    rw [← htake] at h
    refine ⟨_, Places.concat ?_ ?_ hc h⟩
    . rw [List.length_reverse]
      omega
    . intro heq
      rw [List.length_reverse, ← hk heq, List.length_cons]

end Placeable

/--
Every attempt that has failed does so for good. The numbers in it tell the compounds and the
element, as `all` and `chain` are the same throughout a search.
-/
def Failures.Sound (m : Matcher) (first : Compound) (all : List (Combinator × Compound))
    (chain : List ElementInfo) (failed : Failures) : Prop :=
  ∀ before element above, before <:+ all → element :: above <:+ chain →
    (before.length, above.length) ∈ failed → ¬ Placeable m first before element above

def Attempt.Decides (m : Matcher) (first : Compound) (all : List (Combinator × Compound))
    (chain : List ElementInfo) (attempt : Attempt) (p : Prop) : Prop :=
  ∀ failed, Failures.Sound m first all chain failed →
    ((attempt failed).1 = true ↔ p) ∧ Failures.Sound m first all chain (attempt failed).2

section Search

variable {all before : List (Combinator × Compound)} {chain above : List ElementInfo}
variable {element : ElementInfo}

theorem eq_of_suffix_of_length_eq {α : Type} {l l' whole : List α} (h : l <:+ whole)
    (h' : l' <:+ whole) (hlen : l.length = l'.length) : l = l' := by
  have := List.suffix_of_suffix_length_le h h' (Nat.le_of_eq hlen)
  exact this.eq_of_length hlen

theorem Failures.Sound.cons {failed : Failures} (h : Sound m first all chain failed)
    (hbefore : before <:+ all) (helement : element :: above <:+ chain)
    (hnot : ¬ Placeable m first before element above)
    : Sound m first all chain ((before.length, above.length) :: failed) := by
  intro before' element' above' hbefore' helement' hmem
  rcases List.mem_cons.1 hmem with heq | hmem
  . simp only [Prod.mk.injEq] at heq
    -- The lengths tell which end parts of the lists the attempt was about.
    have hb := eq_of_suffix_of_length_eq hbefore' hbefore heq.1
    have he := eq_of_suffix_of_length_eq helement' helement (by simp [heq.2])
    simp only [List.cons.injEq] at he
    rw [hb, he.1, he.2]
    exact hnot
  . exact h before' element' above' hbefore' helement' hmem

theorem Attempt.Decides.remember {attempt : Attempt} (hbefore : before <:+ all)
    (helement : element :: above <:+ chain)
    (h : attempt.Decides m first all chain (Placeable m first before element above))
    : (Attempt.remember (before.length, above.length) attempt).Decides m first all chain
        (Placeable m first before element above) := by
  intro failed hfailed
  unfold Attempt.remember
  split
  . next hmem =>
    -- A failure in the cache is about this very element and these compounds.
    have := hfailed before element above hbefore helement (by simpa using hmem)
    simp [this, hfailed]
  . have := h failed hfailed
    split
    . next heq =>
      rw [heq] at this
      exact this
    . next heq =>
      rw [heq] at this
      simp only [Bool.false_eq_true, false_iff] at this ⊢
      exact ⟨this.1, this.2.cons hbefore helement this.1⟩

theorem Attempt.Decides.anyAncestor {attempt : ElementInfo → List ElementInfo → Attempt}
    {p : ElementInfo → List ElementInfo → Prop}
    (h : ∀ parent rest, parent :: rest <:+ above →
      (attempt parent rest).Decides m first all chain (p parent rest))
    : Attempt.Decides m first all chain (Matcher.anyAncestor attempt above)
        (∃ parent rest, parent :: rest <:+ above ∧ p parent rest) := by
  induction above with
  | nil =>
    intro failed hfailed
    simp [Matcher.anyAncestor, hfailed]
  | cons ancestor above ih =>
    intro failed hfailed
    have hfirst := h ancestor above (List.suffix_refl _) failed hfailed
    rw [Matcher.anyAncestor]
    split
    . next heq =>
      rw [heq] at hfirst
      simp only [true_iff] at hfirst ⊢
      exact ⟨⟨ancestor, above, List.suffix_refl _, hfirst.1⟩, hfirst.2⟩
    . next heq =>
      rw [heq] at hfirst
      simp only [Bool.false_eq_true, false_iff] at hfirst
      -- The farther ancestors are tried with what has failed at the first one.
      have hrest := ih (fun parent rest hsuffix =>
        h parent rest (hsuffix.trans (List.suffix_cons _ _))) _ hfirst.2
      refine ⟨?_, hrest.2⟩
      rw [hrest.1]
      constructor
      . intro hex
        rcases hex with ⟨parent, rest, hsuffix, hp⟩
        exact ⟨parent, rest, hsuffix.trans (List.suffix_cons _ _), hp⟩
      . intro hex
        rcases hex with ⟨parent, rest, hsuffix, hp⟩
        rcases List.suffix_cons_iff.1 hsuffix with heq | hsuffix
        . simp only [List.cons.injEq] at heq
          rw [heq.1, heq.2] at hp
          exact absurd hp hfirst.1
        . exact ⟨parent, rest, hsuffix, hp⟩

theorem search_decides (hbefore : before <:+ all) (helement : element :: above <:+ chain)
    : (m.search first before element above).Decides m first all chain
        (Placeable m first before element above) := by
  induction before generalizing element above with
  | nil =>
    rw [search]
    apply Attempt.Decides.remember hbefore helement
    intro failed hfailed
    exact ⟨placeable_nil_iff.symm, hfailed⟩
  | cons step before ih =>
    rcases step with ⟨k, c⟩
    have hsuffix : before <:+ all := (List.suffix_cons _ _).trans hbefore
    have habove : above <:+ chain := (List.suffix_cons _ _).trans helement
    rw [search]
    apply Attempt.Decides.remember hbefore helement
    intro failed hfailed
    rw [placeable_cons_iff]
    dsimp only
    split
    . next hc =>
      simp only [hc, true_and]
      cases k with
      | child =>
        cases above with
        | nil => simp [hfailed]
        | cons parent rest =>
          have := ih hsuffix habove failed hfailed
          dsimp only
          refine ⟨?_, this.2⟩
          rw [this.1]
          simp
      | descendant =>
        have := Attempt.Decides.anyAncestor (fun parent rest hrest =>
          ih hsuffix (hrest.trans habove)) failed hfailed
        simpa using this
    . next hc => simp [hc, hfailed]

end Search

/--
A selector matches the last element of a chain if and only if its compounds can be placed in the
chain.
-/
theorem selects_iff_exists_places (m : Matcher) (s : Selector) (ancestors : List ElementInfo)
    (element : ElementInfo)
    : m.selects s (ancestors ++ [element]) = true
        ↔
      ∃ place, Places m s (ancestors ++ [element]) place := by
  have hsound : Failures.Sound m s.first s.rest.reverse (element :: ancestors.reverse) [] := by
    intro _ _ _ _ _ hmem
    cases hmem
  have := search_decides (List.suffix_refl s.rest.reverse)
    (List.suffix_refl (element :: ancestors.reverse)) [] hsound
  unfold selects
  rw [List.reverse_append, List.reverse_singleton, List.singleton_append]
  dsimp only
  rw [this.1]
  unfold Placeable
  rw [List.reverse_reverse, List.reverse_cons, List.reverse_reverse]

end TreeStyle.Matcher
