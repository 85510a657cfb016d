import Mathlib.Data.List.Basic
import Mathlib.Data.List.Pairwise
import TreeStyle.Cascade

/-!
This module contains the ranks of the declarations that concern an element: importance, then
specificity, then the place in the source. The cascade takes the declarations in the order of their
ranks, the highest one first.
-/

namespace TreeStyle

instance : LT Specificity := ⟨fun s t => s ≤ t ∧ ¬ t ≤ s⟩

structure Rank where
  important : Bool
  specificity : Specificity
  rule : Nat
  declaration : Nat
  deriving DecidableEq, Repr

namespace Rank

def Earlier (a b : Rank) : Prop := a.rule < b.rule ∨ a.rule = b.rule ∧ a.declaration < b.declaration

def lt (a b : Rank) : Prop :=
  a.important < b.important ∨ a.important = b.important ∧
    (a.specificity < b.specificity ∨ a.specificity = b.specificity ∧ a.Earlier b)

instance : LT Rank := ⟨lt⟩

theorem lt_asymm {a b : Rank} (hab : a < b) : ¬ b < a := by
  intro hba
  have hab : lt a b := hab
  have hba : lt b a := hba
  unfold lt at hab hba
  rcases hab with himp | ⟨himp, hab⟩
  . rcases hba with himp' | ⟨himp', _⟩
    . revert himp himp'
      cases a.important <;> cases b.important <;> decide
    . rw [himp'] at himp
      exact absurd himp (by cases a.important <;> decide)
  . rcases hba with himp' | ⟨_, hba⟩
    . rw [himp] at himp'
      exact absurd himp' (by cases b.important <;> decide)
    . rcases hab with hspec | ⟨hspec, hab⟩
      . rcases hba with hspec' | ⟨hspec', _⟩
        . exact hspec.2 hspec'.1
        . rw [hspec'] at hspec
          exact hspec.2 hspec.1
      . rcases hba with hspec' | ⟨_, hba⟩
        . rw [hspec] at hspec'
          exact hspec'.2 hspec'.1
        . unfold Earlier at hab hba
          omega

end Rank

def StyleContext.matcher (context : StyleContext) : Matcher := ⟨context.options.caseSensitiveTypes⟩

variable {α : Type} [Stylable α]

structure Rule.Matches (context : StyleContext) (chain : List α) (rule : Rule Declaration)
    (s : Specificity) : Prop where
  attained : ∃ selector ∈ rule.selectors,
    context.matcher.selects selector (chain.map ElementInfo.of) = true ∧ selector.specificity = s
  greatest : ∀ selector ∈ rule.selectors,
    context.matcher.selects selector (chain.map ElementInfo.of) = true → selector.specificity ≤ s

structure StyleSheet.Concerns (sheet : StyleSheet) (context : StyleContext) (chain : List α)
    (rank : Rank) (d : Declaration) : Prop where
  importance : d.important = rank.important
  source : ∃ rule, sheet.rules[rank.rule]? = some rule ∧
    rule.declarations[rank.declaration]? = some d ∧ rule.Matches context chain rank.specificity

namespace Specificity

instance : Std.IsLinearOrder Specificity where
  le_refl := le_refl
  le_trans _ _ _ := le_trans
  le_antisymm _ _ := le_antisymm
  le_total := le_total

theorem max_def (a b : Specificity) : max a b = if a ≤ b then b else a := rfl

instance : Std.LawfulOrderMax Specificity where
  max_eq_or a b := by
    rw [max_def]
    split
    . exact Or.inr rfl
    . exact Or.inl rfl
  max_le_iff a b c := by
    rw [max_def]
    split
    . next h => exact ⟨fun hbc => ⟨le_trans h hbc, hbc⟩, fun h => h.2⟩
    . next h =>
      have hba := (le_total a b).resolve_left h
      exact ⟨fun hac => ⟨hac, le_trans hba hac⟩, fun h => h.1⟩

end Specificity

theorem Rule.specificity?_eq_some_iff {context : StyleContext} {chain : List α}
    {rule : Rule Declaration} {s : Specificity}
    : rule.specificity? context.matcher (chain.map ElementInfo.of) = some s
        ↔
      rule.Matches context chain s := by
  unfold Rule.specificity?
  rw [List.max?_eq_some_iff]
  simp only [List.mem_map, List.mem_filter]
  constructor
  . intro h
    rcases h with ⟨⟨selector, hmem, hs⟩, hgreatest⟩
    exact ⟨⟨selector, hmem.1, hmem.2, hs⟩,
      fun selector' hmem' hselects => hgreatest _ ⟨selector', ⟨hmem', hselects⟩, rfl⟩⟩
  . intro h
    rcases h.attained with ⟨selector, hmem, hselects, hs⟩
    refine ⟨⟨selector, ⟨hmem, hselects⟩, hs⟩, ?_⟩
    intro t ht
    rcases ht with ⟨selector', hmem', ht⟩
    rw [← ht]
    exact h.greatest selector' hmem'.1 hmem'.2

theorem pairwise_mergeSort_of_pairwise {β : Type} {le : β → β → Bool} {r : β → β → Prop}
    {items : List β} (htrans : ∀ a b c, le a b = true → le b c = true → le a c = true)
    (htotal : ∀ a b, (le a b || le b a) = true) (h : items.Pairwise r)
    : (items.mergeSort le).Pairwise (fun a b => le a b = true ∧ (le b a = true → r a b)) := by
  rw [← List.mergeSort_zipIdx, List.pairwise_map]
  have hsorted := List.pairwise_mergeSort (List.zipIdxLE_trans htrans)
    (List.zipIdxLE_total htotal) items.zipIdx
  -- Numbers tell equal items apart, so that the order of the list can be read off from them.
  have hnodup : (items.zipIdx.mergeSort (List.zipIdxLE le)).Pairwise (fun a b => a.2 ≠ b.2) := by
    apply (List.mergeSort_perm _ _).symm.pairwise
    . rw [← List.pairwise_map (f := Prod.snd), List.zipIdx_map_snd]
      exact List.nodup_range'
    . intro a b hab
      exact hab.symm
  apply (hsorted.and hnodup).imp_of_mem
  intro a b ha hb hab
  rw [List.mem_mergeSort] at ha hb
  rcases a with ⟨a, i⟩
  rcases b with ⟨b, j⟩
  rw [List.mem_zipIdx_iff_getElem?] at ha hb
  unfold List.zipIdxLE at hab
  dsimp only at hab ha hb ⊢
  split at hab
  . next hle =>
    refine ⟨hle, ?_⟩
    intro hge
    rw [if_pos hge, decide_eq_true_eq] at hab
    rw [List.pairwise_iff_getElem] at h
    rcases List.getElem?_eq_some_iff.1 ha with ⟨hi, ha⟩
    rcases List.getElem?_eq_some_iff.1 hb with ⟨hj, hb⟩
    rw [← ha, ← hb]
    apply h
    omega
  . cases hab.1

namespace Candidate

theorem outranks_trans (a b c : Candidate) (hab : a.outranks b = true) (hbc : b.outranks c = true)
    : a.outranks c = true := by
  unfold outranks at *
  revert hab hbc
  cases a.declaration.important <;> cases b.declaration.important <;>
    cases c.declaration.important <;> simp only [beq_self_eq_true, if_true, decide_eq_true_eq,
      reduceIte, Bool.false_eq_true, false_imp_iff, imp_self, implies_true, beq_iff_eq,
      Bool.true_eq_false]
  all_goals
    intro hab hbc
    exact Specificity.le_trans hbc hab

theorem outranks_total (a b : Candidate) : (a.outranks b || b.outranks a) = true := by
  unfold outranks
  have := Specificity.le_total a.specificity b.specificity
  cases a.declaration.important <;> cases b.declaration.important <;> simp [this, Or.comm]

theorem lt_of_outranks {a b : Rank} {d e : Declaration} (ha : d.important = a.important)
    (hb : e.important = b.important)
    (hab : outranks ⟨d, a.specificity⟩ ⟨e, b.specificity⟩ = true)
    (hba : outranks ⟨e, b.specificity⟩ ⟨d, a.specificity⟩ = true → b.Earlier a) : b < a := by
  show Rank.lt b a
  unfold outranks at hab hba
  unfold Rank.lt
  dsimp only at hab hba
  rw [ha, hb] at hab hba
  -- Specificities are compared only between declarations of the same importance.
  by_cases himp : a.important = b.important
  . simp only [himp, beq_self_eq_true, if_true, decide_eq_true_eq] at hab hba
    refine Or.inr ⟨himp.symm, ?_⟩
    by_cases hspec : a.specificity ≤ b.specificity
    . exact Or.inr ⟨Specificity.le_antisymm hab hspec, hba hspec⟩
    . exact Or.inl ⟨hab, hspec⟩
  . left
    rw [if_neg (by simpa using himp)] at hab
    rw [hab] at himp ⊢
    cases hbi : b.important with
    | true => exact absurd hbi.symm himp
    | false => decide

end Candidate

def Rule.ranked (context : StyleContext) (chain : List α) (rule : Rule Declaration) (number : Nat) :
    List (Rank × Declaration) :=
  match rule.specificity? context.matcher (chain.map ElementInfo.of) with
  | some s => rule.declarations.zipIdx.map fun (d, i) => (⟨d.important, s, number, i⟩, d)
  | none => []

def StyleSheet.ranked (sheet : StyleSheet) (context : StyleContext) (chain : List α) :
    List (Rank × Declaration) :=
  sheet.rules.zipIdx.flatMap fun (rule, number) => rule.ranked context chain number

theorem pairwise_zipIdx {β : Type} (items : List β)
    : items.zipIdx.Pairwise (fun a b => a.2 < b.2) := by
  rw [← List.pairwise_map (f := Prod.snd), List.zipIdx_map_snd]
  exact List.pairwise_lt_range'

namespace Rule

variable {context : StyleContext} {chain : List α} {rule : Rule Declaration} {number : Nat}

theorem mem_ranked_iff {item : Rank × Declaration}
    : item ∈ rule.ranked context chain number
        ↔
      item.1.rule = number ∧ item.2.important = item.1.important ∧
        rule.declarations[item.1.declaration]? = some item.2 ∧
        rule.Matches context chain item.1.specificity := by
  unfold ranked
  constructor
  . intro h
    split at h
    . next s hs =>
      rcases List.mem_map.1 h with ⟨⟨d, i⟩, hd, heq⟩
      rw [List.mem_zipIdx_iff_getElem?] at hd
      rw [← heq]
      exact ⟨rfl, rfl, hd, Rule.specificity?_eq_some_iff.1 hs⟩
    . cases h
  . intro h
    rcases item with ⟨rank, d⟩
    rcases h with ⟨hnumber, himp, hd, hmatches⟩
    rw [Rule.specificity?_eq_some_iff.2 hmatches]
    refine List.mem_map.2 ⟨(d, rank.declaration), List.mem_zipIdx_iff_getElem?.2 hd, ?_⟩
    dsimp only at himp hnumber ⊢
    rw [himp, ← hnumber]

theorem map_ranked
    : (rule.ranked context chain number).map (fun item => ⟨item.2, item.1.specificity⟩)
        =
      match rule.specificity? context.matcher (chain.map ElementInfo.of) with
      | some specificity => rule.declarations.map (Candidate.mk · specificity)
      | none => [] := by
  unfold ranked
  cases rule.specificity? context.matcher (chain.map ElementInfo.of) with
  | none => rfl
  | some s =>
    dsimp only
    rw [List.map_map]
    conv => rhs; rw [← List.zipIdx_map_fst 0 rule.declarations, List.map_map]
    rfl

theorem pairwise_ranked
    : (rule.ranked context chain number).Pairwise (fun a b => a.1.Earlier b.1) := by
  unfold ranked
  split
  . rw [List.pairwise_map]
    apply (pairwise_zipIdx rule.declarations).imp
    intro a b hab
    exact Or.inr ⟨rfl, hab⟩
  . exact List.Pairwise.nil

end Rule

namespace StyleSheet

variable (sheet : StyleSheet) (context : StyleContext) (chain : List α)

theorem mem_ranked_iff {item : Rank × Declaration}
    : item ∈ sheet.ranked context chain ↔ sheet.Concerns context chain item.1 item.2 := by
  unfold ranked
  rw [List.mem_flatMap]
  constructor
  . intro h
    rcases h with ⟨⟨rule, number⟩, hrule, hmem⟩
    rw [List.mem_zipIdx_iff_getElem?] at hrule
    rcases Rule.mem_ranked_iff.1 hmem with ⟨hnumber, himp, hd, hmatches⟩
    rw [← hnumber] at hrule
    exact ⟨himp, rule, hrule, hd, hmatches⟩
  . intro h
    rcases h.source with ⟨rule, hrule, hd, hmatches⟩
    exact ⟨(rule, item.1.rule), List.mem_zipIdx_iff_getElem?.2 hrule,
      Rule.mem_ranked_iff.2 ⟨rfl, h.importance, hd, hmatches⟩⟩

theorem map_ranked
    : (sheet.ranked context chain).map (fun item => ⟨item.2, item.1.specificity⟩)
        = sheet.candidates context.matcher (chain.map ElementInfo.of) := by
  unfold ranked candidates
  rw [List.map_flatMap]
  conv => rhs; rw [← List.zipIdx_map_fst 0 sheet.rules, List.flatMap_map]
  congr 1
  funext item
  exact Rule.map_ranked

theorem pairwise_ranked
    : (sheet.ranked context chain).Pairwise (fun a b => a.1.Earlier b.1) := by
  unfold ranked
  rw [List.pairwise_flatMap]
  constructor
  . intro item _
    apply Rule.pairwise_ranked
  . apply (pairwise_zipIdx sheet.rules).imp
    intro a b hab x hx y hy
    left
    rw [(Rule.mem_ranked_iff.1 hx).1, (Rule.mem_ranked_iff.1 hy).1]
    exact hab

theorem exists_sorted_candidates
    : ∃ items : List (Rank × Declaration),
        Candidate.rank (sheet.candidates context.matcher (chain.map ElementInfo.of))
          = items.map (·.2) ∧
        items.Pairwise (fun a b => b.1 < a.1) ∧
        ∀ item, item ∈ items ↔ sheet.Concerns context chain item.1 item.2 := by
  let toCandidate : Rank × Declaration → Candidate := fun item => ⟨item.2, item.1.specificity⟩
  let outranks : Rank × Declaration → Rank × Declaration → Bool :=
    fun a b => (toCandidate a).outranks (toCandidate b)
  refine ⟨(sheet.ranked context chain).reverse.mergeSort outranks, ?_, ?_, ?_⟩
  . unfold Candidate.rank
    rw [← map_ranked, ← List.map_reverse,
      ← List.map_mergeSort (f := toCandidate) (r := outranks) (fun _ _ _ _ => rfl), List.map_map]
    rfl
  . -- In the reverse of the source order every item comes before the earlier ones.
    have hearlier := List.pairwise_reverse.2 (sheet.pairwise_ranked context chain)
    have hsorted := pairwise_mergeSort_of_pairwise
      (fun a b c => Candidate.outranks_trans (toCandidate a) (toCandidate b) (toCandidate c))
      (fun a b => Candidate.outranks_total (toCandidate a) (toCandidate b)) hearlier
    apply hsorted.imp_of_mem
    intro a b ha hb hab
    rw [List.mem_mergeSort, List.mem_reverse, mem_ranked_iff] at ha hb
    exact Candidate.lt_of_outranks ha.importance hb.importance hab.1 hab.2
  . intro item
    rw [List.mem_mergeSort, List.mem_reverse, mem_ranked_iff]

end StyleSheet

end TreeStyle
