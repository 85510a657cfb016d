import Mathlib.Data.Nat.Find
import TreeStyle.Proofs.Cascade.Repetition

/-!
This module contains what a rule with several selectors stands for: rules with one selector each and
the same declarations. A declaration of such a rule concerns an element with the rank that it has
under the last of the best selectors. Under the others it comes later, where it is only repeated.
-/

namespace TreeStyle

def Rule.separate {δ : Type} (rule : Rule δ) : List (Rule δ) :=
  rule.selectors.map fun selector => ⟨[selector], rule.declarations⟩

namespace Rank

variable {i j k : Nat} {s : Specificity} {a b : Rank}

/--
The rank that a declaration has while the rules with the numbers from `i` to `i + k` are still one
rule, which matches with the specificity `s`.
-/
def gather (i k : Nat) (s : Specificity) (a : Rank) : Rank :=
  if a.rule < i then a
  else if a.rule < i + k then { a with rule := i, specificity := s }
  else { a with rule := a.rule + 1 - k }

/--
The rank that a declaration has after the rule with the number `i` was replaced by `k` rules, if it
is taken from the rule `j` of these.
-/
def spread (i k j : Nat) (a : Rank) : Rank :=
  if a.rule < i then a
  else if a.rule = i then { a with rule := i + j }
  else { a with rule := a.rule + k - 1 }

@[simp]
theorem important_spread : (a.spread i k j).important = a.important := by
  unfold spread
  split
  . rfl
  . split <;> rfl

@[simp]
theorem specificity_spread : (a.spread i k j).specificity = a.specificity := by
  unfold spread
  split
  . rfl
  . split <;> rfl

@[simp]
theorem declaration_spread : (a.spread i k j).declaration = a.declaration := by
  unfold spread
  split
  . rfl
  . split <;> rfl

theorem rule_spread
    : (a.spread i k j).rule
        = if a.rule < i then a.rule else if a.rule = i then i + j else a.rule + k - 1 := by
  unfold spread
  split
  . rfl
  . split <;> rfl

theorem spread_lt_spread (ha : a.rule = i → j < k) (hb : b.rule = i → j < k) (h : a < b)
    : a.spread i k j < b.spread i k j := by
  have hearlier : a.Earlier b → (a.spread i k j).Earlier (b.spread i k j) := by
    unfold Earlier
    rw [rule_spread, rule_spread, declaration_spread, declaration_spread]
    split_ifs <;> omega
  show lt _ _
  unfold lt
  rw [important_spread, important_spread, specificity_spread, specificity_spread]
  exact h.imp_right (And.imp_right (Or.imp_right (And.imp_right hearlier)))

theorem gather_spread (hj : a.rule = i → j < k ∧ a.specificity = s)
    : (a.spread i k j).gather i k s = a := by
  rcases a with ⟨important, specificity, rule, declaration⟩
  unfold spread gather
  dsimp only at *
  split
  . rfl
  . next hge =>
    split
    . next heq =>
      rcases hj heq with ⟨hj, hs⟩
      dsimp only
      rw [if_neg (by omega), if_pos (by omega), mk.injEq]
      exact ⟨rfl, hs.symm, heq.symm, rfl⟩
    . next hne =>
      dsimp only
      rw [if_neg (by omega), if_neg (by omega), mk.injEq]
      exact ⟨rfl, rfl, by omega, rfl⟩

theorem eq_or_lt_spread_gather
    (hblock : ∀ m, a.rule = i + m → m < k → a.specificity < s ∨ a.specificity = s ∧ m ≤ j)
    : a = (a.gather i k s).spread i k j ∨ a < (a.gather i k s).spread i k j := by
  rcases a with ⟨important, specificity, rule, declaration⟩
  unfold gather spread
  dsimp only at *
  split
  . exact Or.inl rfl
  . next hge =>
    split
    . next hlt =>
      dsimp only
      rw [if_neg (by omega), if_pos rfl]
      have heq : rule = i + (rule - i) := by omega
      rcases hblock (rule - i) heq (by omega) with hs | ⟨hs, hle⟩
      . exact Or.inr (Or.inr ⟨rfl, Or.inl hs⟩)
      . rcases Nat.lt_or_eq_of_le hle with hlt | hm
        . exact Or.inr (Or.inr ⟨rfl, Or.inr ⟨hs, Or.inl (by dsimp only; omega)⟩⟩)
        . left
          rw [mk.injEq]
          exact ⟨rfl, hs, by omega, rfl⟩
    . next hge' =>
      left
      dsimp only
      rw [if_neg (by omega), if_neg (by omega), mk.injEq]
      exact ⟨rfl, rfl, by omega, rfl⟩

end Rank

variable {α : Type} [Stylable α] {context : StyleContext} {chain : List α}

structure Rule.BestAt (context : StyleContext) (chain : List α) (rule : Rule Declaration) (j : Nat)
    (s : Specificity) : Prop where
  attained : ∃ selector, rule.selectors[j]? = some selector ∧
    context.matcher.selects selector (chain.map ElementInfo.of) = true ∧ selector.specificity = s
  best : ∀ m selector, rule.selectors[m]? = some selector →
    context.matcher.selects selector (chain.map ElementInfo.of) = true →
    selector.specificity < s ∨ selector.specificity = s ∧ m ≤ j

namespace Rule

variable {rule : Rule Declaration} {j : Nat} {s : Specificity}

theorem BestAt.lt_length (h : rule.BestAt context chain j s) : j < rule.selectors.length := by
  rcases h.attained with ⟨selector, hselector, _⟩
  exact (List.getElem?_eq_some_iff.1 hselector).1

theorem Matches.unique {s' : Specificity} (h : rule.Matches context chain s)
    (h' : rule.Matches context chain s') : s = s' := by
  rw [← Rule.specificity?_eq_some_iff] at h h'
  rw [h, Option.some.injEq] at h'
  exact h'

theorem Matches.exists_bestAt (h : rule.Matches context chain s)
    : ∃ j, rule.BestAt context chain j s := by
  classical
  let best : Nat → Prop := fun j => ∃ selector, rule.selectors[j]? = some selector ∧
    context.matcher.selects selector (chain.map ElementInfo.of) = true ∧ selector.specificity = s
  have hbound : ∀ j, best j → j ≤ rule.selectors.length := by
    intro j hj
    rcases hj with ⟨selector, hselector, _⟩
    exact Nat.le_of_lt (List.getElem?_eq_some_iff.1 hselector).1
  have hexists : ∃ j, best j := by
    rcases h.attained with ⟨selector, hmem, hselects, hs⟩
    rcases List.mem_iff_getElem?.1 hmem with ⟨j, hj⟩
    exact ⟨j, selector, hj, hselects, hs⟩
  rcases hexists with ⟨m, hm⟩
  refine ⟨Nat.findGreatest best rule.selectors.length, ?_, ?_⟩
  . exact Nat.findGreatest_spec (hbound m hm) hm
  . intro m selector hselector hselects
    have hle := h.greatest selector (List.mem_of_getElem? hselector) hselects
    by_cases hs : s ≤ selector.specificity
    . have heq := Specificity.le_antisymm hle hs
      have hbest : best m := ⟨selector, hselector, hselects, heq⟩
      exact Or.inr ⟨heq, Nat.le_findGreatest (hbound m hbest) hbest⟩
    . exact Or.inl ⟨hle, hs⟩

theorem exists_bestAt (context : StyleContext) (chain : List α) (rule : Rule Declaration)
    : ∃ j s, ∀ s', rule.Matches context chain s' → s' = s ∧ rule.BestAt context chain j s := by
  by_cases h : ∃ s, rule.Matches context chain s
  . rcases h with ⟨s, hs⟩
    rcases hs.exists_bestAt with ⟨j, hj⟩
    exact ⟨j, s, fun s' hs' => ⟨hs'.unique hs, hj⟩⟩
  . exact ⟨0, .zero, fun s' hs' => absurd ⟨s', hs'⟩ h⟩

theorem matches_singleton_iff {selector : Selector} {declarations : List Declaration}
    : Rule.Matches context chain ⟨[selector], declarations⟩ s
        ↔
      context.matcher.selects selector (chain.map ElementInfo.of) = true ∧
        selector.specificity = s := by
  constructor
  . intro h
    rcases h.attained with ⟨selector', hmem, hselects⟩
    rw [List.mem_singleton.1 hmem] at hselects
    exact hselects
  . intro h
    refine ⟨⟨selector, List.mem_singleton_self _, h⟩, ?_⟩
    intro selector' hmem _
    rw [List.mem_singleton.1 hmem, h.2]
    exact Specificity.le_refl s

theorem exists_matches_of_mem {selector : Selector} (hmem : selector ∈ rule.selectors)
    (hselects : context.matcher.selects selector (chain.map ElementInfo.of) = true)
    : ∃ s, rule.Matches context chain s := by
  cases hs : rule.specificity? context.matcher (chain.map ElementInfo.of) with
  | some s => exact ⟨s, Rule.specificity?_eq_some_iff.1 hs⟩
  | none =>
    unfold Rule.specificity? at hs
    rw [List.max?_eq_none_iff, List.map_eq_nil_iff, List.filter_eq_nil_iff] at hs
    exact absurd hselects (hs selector hmem)

end Rule

namespace StyleSheet

variable {before after : List (Rule Declaration)} {rule : Rule Declaration} {j : Nat}
variable {s : Specificity} {rank : Rank} {d : Declaration}

theorem getElem?_separate (before after : List (Rule Declaration)) (rule : Rule Declaration)
    (number : Nat)
    : (before ++ rule.separate ++ after)[number]?
        =
      if number < before.length then before[number]?
      else if number < before.length + rule.selectors.length then
        rule.selectors[number - before.length]?.map fun selector => ⟨[selector], rule.declarations⟩
      else after[number - (before.length + rule.selectors.length)]? := by
  unfold Rule.separate
  split
  . next hlt =>
    rw [List.append_assoc, List.getElem?_append_left hlt]
  . split
    . rw [List.getElem?_append_left (by simpa using by omega),
        List.getElem?_append_right (by omega), List.getElem?_map]
    . rw [List.getElem?_append_right (by simpa using by omega), List.length_append,
        List.length_map]

theorem getElem?_listed (before after : List (Rule Declaration)) (rule : Rule Declaration)
    (number : Nat)
    : (before ++ rule :: after)[number]?
        =
      if number < before.length then before[number]?
      else if number = before.length then some rule
      else after[number - (before.length + 1)]? := by
  split
  . next hlt => rw [List.getElem?_append_left hlt]
  . split
    . next heq => simp [heq]
    . have hsub : number - before.length = number - (before.length + 1) + 1 := by omega
      rw [List.getElem?_append_right (by omega), hsub, List.getElem?_cons_succ]

theorem concerns_gather (h : (mk (before ++ rule.separate ++ after)).Concerns context chain rank d)
    (hrule : ∀ s', rule.Matches context chain s' → s' = s)
    : (mk (before ++ rule :: after)).Concerns context chain
        (rank.gather before.length rule.selectors.length s) d := by
  rcases h with ⟨himportance, rule', hrule', hd, hmatches⟩
  dsimp only at hrule'
  rw [getElem?_separate] at hrule'
  unfold Rank.gather
  split
  . next hlt =>
    rw [if_pos hlt] at hrule'
    refine ⟨himportance, rule', ?_, hd, hmatches⟩
    dsimp only
    rw [getElem?_listed, if_pos hlt, hrule']
  . next hge =>
    rw [if_neg hge] at hrule'
    split
    . next hlt =>
      rw [if_pos hlt, Option.map_eq_some_iff] at hrule'
      rcases hrule' with ⟨selector, hselector, heq⟩
      rw [← heq] at hd hmatches
      rw [Rule.matches_singleton_iff] at hmatches
      rcases Rule.exists_matches_of_mem (List.mem_of_getElem? hselector) hmatches.1 with ⟨s', hs'⟩
      rw [hrule s' hs'] at hs'
      refine ⟨himportance, rule, ?_, hd, hs'⟩
      dsimp only
      rw [getElem?_listed, if_neg (by omega), if_pos rfl]
    . next hge' =>
      rw [if_neg hge'] at hrule'
      refine ⟨himportance, rule', ?_, hd, hmatches⟩
      dsimp only
      rw [getElem?_listed, if_neg (by omega), if_neg (by omega), ← hrule']
      congr 1
      omega

theorem concerns_spread (h : (mk (before ++ rule :: after)).Concerns context chain rank d)
    (hrule : ∀ s', rule.Matches context chain s' → s' = s ∧ rule.BestAt context chain j s)
    : (mk (before ++ rule.separate ++ after)).Concerns context chain
        (rank.spread before.length rule.selectors.length j) d := by
  rcases h with ⟨himportance, rule', hrule', hd, hmatches⟩
  dsimp only at hrule'
  rw [getElem?_listed] at hrule'
  refine ⟨by simpa using himportance, ?_⟩
  dsimp only
  rw [Rank.rule_spread, Rank.declaration_spread, Rank.specificity_spread, getElem?_separate]
  split at hrule'
  . next hlt =>
    rw [if_pos hlt, if_pos hlt]
    exact ⟨rule', hrule', hd, hmatches⟩
  . next hge =>
    rw [if_neg hge]
    split at hrule'
    . next heq =>
      cases hrule'
      rcases hrule _ hmatches with ⟨hs, hbest⟩
      rcases hbest.attained with ⟨selector, hselector, hselects⟩
      have hj := hbest.lt_length
      refine ⟨⟨[selector], rule.declarations⟩, ?_, hd, ?_⟩
      . rw [if_pos heq, if_neg (by omega), if_pos (by omega), Nat.add_sub_cancel_left, hselector,
          Option.map_some]
      . rw [Rule.matches_singleton_iff, hs]
        exact hselects
    . next hne =>
      refine ⟨rule', ?_, hd, hmatches⟩
      rw [if_neg hne, if_neg (by omega), if_neg (by omega), ← hrule']
      congr 1
      omega

theorem matches_of_concerns (h : (mk (before ++ rule :: after)).Concerns context chain rank d)
    (hrank : rank.rule = before.length) : rule.Matches context chain rank.specificity := by
  rcases h.source with ⟨rule', hrule', _, hmatches⟩
  dsimp only at hrule'
  rw [getElem?_listed, if_neg (by omega), if_pos hrank, Option.some.injEq] at hrule'
  rwa [hrule']

theorem selects_of_concerns_separate {m : Nat}
    (h : (mk (before ++ rule.separate ++ after)).Concerns context chain rank d)
    (hrank : rank.rule = before.length + m) (hm : m < rule.selectors.length)
    : ∃ selector, rule.selectors[m]? = some selector ∧
        context.matcher.selects selector (chain.map ElementInfo.of) = true ∧
        selector.specificity = rank.specificity := by
  rcases h.source with ⟨rule', hrule', _, hmatches⟩
  dsimp only at hrule'
  rw [getElem?_separate, if_neg (by omega), if_pos (by omega), hrank, Nat.add_sub_cancel_left,
    Option.map_eq_some_iff] at hrule'
  rcases hrule' with ⟨selector, hselector, heq⟩
  rw [← heq, Rule.matches_singleton_iff] at hmatches
  exact ⟨selector, hselector, hmatches⟩

theorem rank_candidates_separate (before after : List (Rule Declaration)) (rule : Rule Declaration)
    (context : StyleContext) (chain : List α)
    : Repeats []
        (Candidate.rank ((mk (before ++ rule :: after)).candidates context.matcher
          (chain.map ElementInfo.of)))
        (Candidate.rank ((mk (before ++ rule.separate ++ after)).candidates context.matcher
          (chain.map ElementInfo.of))) := by
  rcases Rule.exists_bestAt context chain rule with ⟨j, s, hrule⟩
  rcases (mk (before ++ rule :: after)).exists_sorted_candidates context chain
    with ⟨items, hitems, hsorted, hmem⟩
  rcases (mk (before ++ rule.separate ++ after)).exists_sorted_candidates context chain
    with ⟨copies, hcopies, hsorted', hmem'⟩
  let i := before.length
  let k := rule.selectors.length
  let origin : Rank × Declaration → Rank × Declaration := fun y => (y.1.gather i k s, y.2)
  let first : Rank × Declaration → Rank × Declaration := fun x => (x.1.spread i k j, x.2)
  have horigin : ∀ y ∈ copies, origin y ∈ items := by
    intro y hy
    rw [hmem]
    exact concerns_gather ((hmem' y).1 hy) fun s' hs' => (hrule s' hs').1
  have hnumber : ∀ x ∈ items, x.1.rule = i → j < k ∧ x.1.specificity = s := by
    intro x hx hi
    rcases hrule _ (matches_of_concerns ((hmem x).1 hx) hi) with ⟨hs, hbest⟩
    exact ⟨hbest.lt_length, hs⟩
  have hbest : ∀ y ∈ copies, y = first (origin y) ∨ y.1 < (first (origin y)).1 := by
    intro y hy
    have hrank := Rank.eq_or_lt_spread_gather (a := y.1) (i := i) (k := k) (s := s) (j := j) (by
      intro m hm hlt
      rcases selects_of_concerns_separate ((hmem' y).1 hy) hm hlt
        with ⟨selector, hselector, hselects, hs⟩
      rcases Rule.exists_matches_of_mem (List.mem_of_getElem? hselector) hselects with ⟨s', hs'⟩
      rw [← hs]
      exact (hrule s' hs').2.best m selector hselector hselects)
    exact hrank.imp_left fun heq => Prod.ext heq rfl
  have hcopiesOf : CopiesOf (fun x y => y.1 < x.1) (fun x y => y.1 < x.1) origin first [] items
      copies := by
    refine ⟨hsorted, hsorted', fun y hy => Or.inr (horigin y hy), ?_, ?_, ?_, ?_⟩
    . intro y hy
      exact (hbest y hy).imp_left (⟨·, horigin y hy⟩)
    . intro x hx
      rw [hmem']
      exact concerns_spread ((hmem x).1 hx) hrule
    . intro x hx
      exact Prod.ext (Rank.gather_spread (hnumber x hx)) rfl
    . intro x hx y hy hlt
      exact Rank.spread_lt_spread (fun hi => (hnumber y hy hi).1)
        (fun hi => (hnumber x hx hi).1) hlt
  have hrepeats := (hcopiesOf.repeats fun _ _ => Rank.lt_asymm).map (·.2)
  rw [hitems, hcopies]
  rw [List.map_map] at hrepeats
  exact hrepeats

/--
A rule with several selectors does the same as a rule for each of them with its declarations. Only
the diagnostics may be repeated.
-/
theorem apply_separate (before after : List (Rule Declaration)) (rule : Rule Declaration)
    (context : StyleContext) (tree : Tree α)
    : let listed := (mk (before ++ rule :: after)).apply context tree
      let separate := (mk (before ++ rule.separate ++ after)).apply context tree
      separate.1 = listed.1 ∧
        separate.2.visited = listed.2.visited ∧
        separate.2.applied = listed.2.applied ∧
        separate.2.skippedUserSet = listed.2.skippedUserSet ∧
        ∃ diagnostics diagnostics', Repeats [] diagnostics diagnostics' ∧
          listed.2.diagnostics = diagnostics.take context.options.maxDiagnostics ∧
          listed.2.droppedDiagnostics = diagnostics.length - context.options.maxDiagnostics ∧
          separate.2.diagnostics = diagnostics'.take context.options.maxDiagnostics ∧
          separate.2.droppedDiagnostics
            = diagnostics'.length - context.options.maxDiagnostics := by
  rcases Cascade.run_repeats (rank_candidates_separate before after rule context) context tree
    with ⟨htree, t, t', ht, hlisted, hseparate⟩
  unfold StyleSheet.apply
  intro listed separate
  have hlisted : listed.2 = .ofTally context.options.maxDiagnostics t := hlisted
  have hseparate : separate.2 = .ofTally context.options.maxDiagnostics t' := hseparate
  rw [hlisted, hseparate]
  exact ⟨htree, ht.visited_eq, ht.applied_eq, ht.skippedUserSet_eq, _, _, ht.diagnostics, rfl, rfl,
    rfl, rfl⟩

end StyleSheet

end TreeStyle
