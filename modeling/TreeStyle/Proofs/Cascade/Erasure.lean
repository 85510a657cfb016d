import TreeStyle.Proofs.Cascade.Outcome

/-!
This module contains what becomes of a tree when a declaration that no widget can use is taken out
of a sheet. Such a declaration is not without effect: where it is handed down it hides declarations
of the same name that come from farther above.
-/

namespace TreeStyle

namespace Rank

variable {i j : Nat} {a b : Rank}

def skip (i j : Nat) (a : Rank) : Rank :=
  if a.rule = i ∧ j ≤ a.declaration then { a with declaration := a.declaration + 1 } else a

@[simp]
theorem important_skip : (a.skip i j).important = a.important := by
  unfold skip
  split <;> rfl

@[simp]
theorem specificity_skip : (a.skip i j).specificity = a.specificity := by
  unfold skip
  split <;> rfl

@[simp]
theorem rule_skip : (a.skip i j).rule = a.rule := by
  unfold skip
  split <;> rfl

theorem declaration_skip
    : (a.skip i j).declaration
        = if a.rule = i ∧ j ≤ a.declaration then a.declaration + 1 else a.declaration := by
  unfold skip
  split <;> rfl

theorem earlier_skip_iff : (a.skip i j).Earlier (b.skip i j) ↔ a.Earlier b := by
  unfold Earlier
  rw [rule_skip, rule_skip, declaration_skip, declaration_skip]
  split <;> split <;> omega

theorem eq_of_skip_eq (h : a.skip i j = b.skip i j) : a = b := by
  have hrule := congrArg rule h
  have hdeclaration := congrArg declaration h
  have himportant := congrArg important h
  have hspecificity := congrArg specificity h
  simp only [rule_skip] at hrule
  simp only [declaration_skip] at hdeclaration
  simp only [important_skip] at himportant
  simp only [specificity_skip] at hspecificity
  have : a.declaration = b.declaration := by
    split at hdeclaration <;> split at hdeclaration <;> omega
  cases a
  cases b
  simp_all

theorem skip_lt_skip_iff : a.skip i j < b.skip i j ↔ a < b := by
  show lt (a.skip i j) (b.skip i j) ↔ lt a b
  unfold lt
  rw [earlier_skip_iff]
  simp

theorem exists_skip_eq (h : ¬ (a.rule = i ∧ a.declaration = j)) : ∃ b : Rank, b.skip i j = a := by
  by_cases hafter : a.rule = i ∧ j < a.declaration
  . refine ⟨{ a with declaration := a.declaration - 1 }, ?_⟩
    unfold skip
    rw [if_pos (by dsimp only; omega)]
    cases a
    simp only [mk.injEq, true_and]
    dsimp only at hafter
    omega
  . refine ⟨a, ?_⟩
    unfold skip
    rw [if_neg (by omega)]

end Rank

def StyleSheet.erase (sheet : StyleSheet) (i j : Nat) : StyleSheet :=
  ⟨sheet.rules.modify i fun rule => { rule with declarations := rule.declarations.eraseIdx j }⟩

/--
No widget of the tree has a property that the declaration gives a value. The properties that a
widget inherits by a name are among those that it has by this name.
-/
def Declaration.Unusable (registry : Registry) (tree : Tree Widget) (d : Declaration) : Prop :=
  ∀ e ∈ tree.toList, ∀ property,
    Registry.resolveName? e (registry.classify d.property) = some property →
    ∀ value, Cascade.valueFor d.value property ≠ .ok value

def Tree.SameSlots (t u : Tree Widget) : Prop :=
  ∀ position p,
    (t.value? position).map (·.store.slot? p) = (u.value? position).map (·.store.slot? p)

/--
Somewhere below the ancestor that an inherited declaration comes from, the rule hands down the
declaration `d` of the same name.
-/
def Rule.Hides {α : Type} [Stylable α] (rule : Rule Declaration) (d : Declaration)
    (context : StyleContext) (path : List α) (entry : Inherited) : Prop :=
  d.property = entry.declaration.property ∧
    ∃ depth element s, entry.depth < depth ∧ path[depth]? = some element ∧
      rule.Matches context (path.take (depth + 1)) s ∧
      Cascade.Inheritable context.registry element d.property

/--
If no declaration of the sheet gives the widget `e` below `above` a value for the property, then the
declarations that it inherits come to the same with and without those that the rule hides.
-/
def Rule.HidesInVain (rule : Rule Declaration) (d : Declaration) (sheet : StyleSheet)
    (context : StyleContext) (above : List Widget) (e : Widget) (p : String) : Prop :=
  (∀ item value, ¬ sheet.Assigns context above e p item value) →
    ∀ after,
      Settles Inherited.Before
        (fun entry value => sheet.Bequeaths context above e p entry value ∧
          ¬ rule.Hides d context above entry) (e.store.slot? p) after →
      Settles Inherited.Before (sheet.Bequeaths context above e p) (e.store.slot? p) after

def Inherited.skip (i j : Nat) (entry : Inherited) : Inherited :=
  { entry with rank := entry.rank.skip i j }

theorem Inherited.eq_of_skip_eq {i j : Nat} {x y : Inherited} (h : x.skip i j = y.skip i j)
    : x = y := by
  unfold skip at h
  simp only [mk.injEq] at h
  cases x
  cases y
  rw [mk.injEq]
  exact ⟨h.1, Rank.eq_of_skip_eq h.2.1, h.2.2⟩

theorem Inherited.before_skip_iff {i j : Nat} {x y : Inherited}
    : (x.skip i j).Before (y.skip i j) ↔ x.Before y := by
  unfold Before skip
  dsimp only
  rw [Rank.skip_lt_skip_iff]

theorem Declaration.Unusable.not_gives {registry : Registry} {tree : Tree Widget} {d : Declaration}
    (h : d.Unusable registry tree) {e : Widget} (he : e ∈ tree.toList)
    {resolve? : PropertyName → Option PropertyDescriptor}
    (hresolve : ∀ name property, resolve? name = some property →
      Registry.resolveName? e name = some property)
    (p : String) (value : Option Value) : ¬ Cascade.Gives registry resolve? p d value := by
  intro hgives
  rcases hgives with ⟨property, hproperty, _, hvalue⟩
  exact h e he property (hresolve _ _ hproperty) value hvalue

namespace StyleSheet

section Rules

variable {α : Type} [Stylable α] {sheet : StyleSheet} {context : StyleContext}
variable {chain path : List α} {i j : Nat} {rule : Rule Declaration} {d d' : Declaration}
variable {rank : Rank} {name : String} {depth : Nat}

theorem matches_declarations_iff {declarations : List Declaration} {s : Specificity}
    : Rule.Matches context chain { rule with declarations := declarations } s
        ↔
      rule.Matches context chain s := by
  constructor
  . intro h
    exact ⟨h.attained, h.greatest⟩
  . intro h
    exact ⟨h.attained, h.greatest⟩

theorem concerns_erase_iff
    : (sheet.erase i j).Concerns context chain rank d'
        ↔
      sheet.Concerns context chain (rank.skip i j) d' := by
  have hsource :
      (∃ rule, (sheet.erase i j).rules[rank.rule]? = some rule ∧
        rule.declarations[rank.declaration]? = some d' ∧
        rule.Matches context chain rank.specificity)
        ↔
      ∃ rule, sheet.rules[(rank.skip i j).rule]? = some rule ∧
        rule.declarations[(rank.skip i j).declaration]? = some d' ∧
        rule.Matches context chain (rank.skip i j).specificity := by
    unfold erase
    rw [Rank.rule_skip, Rank.declaration_skip, Rank.specificity_skip, List.getElem?_modify]
    cases sheet.rules[rank.rule]? with
    | none => simp
    | some rule =>
      simp only [Option.map_eq_map, Option.map_some, Option.some.injEq, exists_eq_left']
      split
      . next heq =>
        rw [matches_declarations_iff, List.getElem?_eraseIdx]
        by_cases hlt : rank.declaration < j
        . rw [if_pos hlt, if_neg (by omega)]
        . rw [if_neg hlt, if_pos (by omega)]
      . next hne =>
        rw [if_neg (by omega)]
  constructor
  . intro h
    exact ⟨by simpa using h.importance, hsource.1 h.source⟩
  . intro h
    exact ⟨by simpa using h.importance, hsource.2 h.source⟩

theorem concerns_iff_erase (hrule : sheet.rules[i]? = some rule)
    (hd : rule.declarations[j]? = some d)
    : sheet.Concerns context chain rank d'
        ↔
      (∃ rank', rank'.skip i j = rank ∧ (sheet.erase i j).Concerns context chain rank' d') ∨
      (rank.rule = i ∧ rank.declaration = j ∧ d' = d ∧ d.important = rank.important ∧
        rule.Matches context chain rank.specificity) := by
  constructor
  . intro h
    by_cases hplace : rank.rule = i ∧ rank.declaration = j
    . right
      rcases h.source with ⟨rule', hrule', hd', hmatches⟩
      rw [hplace.1, hrule] at hrule'
      cases hrule'
      rw [hplace.2, hd] at hd'
      cases hd'
      exact ⟨hplace.1, hplace.2, rfl, h.importance, hmatches⟩
    . left
      rcases Rank.exists_skip_eq hplace with ⟨rank', hskip⟩
      refine ⟨rank', hskip, ?_⟩
      rw [concerns_erase_iff, hskip]
      exact h
  . intro h
    rcases h with ⟨rank', hskip, h⟩ | ⟨hi, hj, heq, himportant, hmatches⟩
    . rw [concerns_erase_iff, hskip] at h
      exact h
    . refine ⟨by rw [heq, himportant], rule, by rw [hi, hrule], by rw [hj, hd, heq], hmatches⟩

theorem handsDown_iff_erase (hrule : sheet.rules[i]? = some rule)
    (hd : rule.declarations[j]? = some d)
    : sheet.HandsDown context path name depth
        ↔
      (sheet.erase i j).HandsDown context path name depth ∨
      d.property = name ∧ ∃ element s, path[depth]? = some element ∧
        rule.Matches context (path.take (depth + 1)) s ∧
        Cascade.Inheritable context.registry element name := by
  constructor
  . intro h
    rcases h with ⟨element, rank, d', helement, hconcerns, hname, hinheritable⟩
    rw [concerns_iff_erase hrule hd] at hconcerns
    rcases hconcerns with ⟨rank', _, h⟩ | ⟨_, _, heq, _, hmatches⟩
    . exact Or.inl ⟨element, rank', d', helement, h, hname, hinheritable⟩
    . rw [heq] at hname
      exact Or.inr ⟨hname, element, rank.specificity, helement, hmatches, hinheritable⟩
  . intro h
    rcases h with ⟨element, rank', d', helement, hconcerns, hname, hinheritable⟩ |
      ⟨hname, element, s, helement, hmatches, hinheritable⟩
    . exact ⟨element, rank'.skip i j, d', helement, concerns_erase_iff.1 hconcerns, hname,
        hinheritable⟩
    . have hconcerns : sheet.Concerns context (path.take (depth + 1)) ⟨d.important, s, i, j⟩ d :=
        ⟨rfl, rule, hrule, hd, hmatches⟩
      exact ⟨element, _, d, helement, hconcerns, hname, hinheritable⟩

theorem pool_skip_iff (hrule : sheet.rules[i]? = some rule) (hd : rule.declarations[j]? = some d)
    {entry : Inherited}
    : sheet.Pool context path (entry.skip i j)
        ↔
      (sheet.erase i j).Pool context path entry ∧ ¬ rule.Hides d context path entry := by
  constructor
  . intro h
    have hconcerns : (sheet.erase i j).Concerns context (path.take (entry.depth + 1)) entry.rank
        entry.declaration := concerns_erase_iff.2 h.concerns
    -- Whatever handed the name down there, the declaration itself still does.
    rcases h.source.handsDown with ⟨element, _, _, helement, _, _, hinheritable⟩
    refine ⟨⟨⟨⟨element, _, _, helement, hconcerns, rfl, hinheritable⟩, ?_⟩, hconcerns⟩, ?_⟩
    . intro k hk
      exact h.source.deepest k ((handsDown_iff_erase hrule hd).2 (Or.inl hk))
    . -- What hides a declaration would be a deeper source of its name.
      intro hhides
      rcases hhides with ⟨hname, k, element', s, hlt, helement', hmatches, hinheritable'⟩
      have hk : sheet.HandsDown context path entry.declaration.property k :=
        (handsDown_iff_erase hrule hd).2
          (Or.inr ⟨hname, element', s, helement', hmatches, hname ▸ hinheritable'⟩)
      have := h.source.deepest k hk
      exact absurd this (Nat.not_le.2 hlt)
  . intro h
    rcases h with ⟨hpool, hhides⟩
    refine ⟨⟨(handsDown_iff_erase hrule hd).2 (Or.inl hpool.source.handsDown), ?_⟩,
      concerns_erase_iff.1 hpool.concerns⟩
    intro k hk
    rcases (handsDown_iff_erase hrule hd).1 hk
      with hk | ⟨hname, element, s, helement, hmatches, hinheritable⟩
    . exact hpool.source.deepest k hk
    . apply Nat.le_of_not_lt
      intro hlt
      exact hhides ⟨hname, k, element, s, hlt, helement, hmatches, hname ▸ hinheritable⟩

end Rules

section Widgets

variable {sheet : StyleSheet} {context : StyleContext} {tree : Tree Widget} {above : List Widget}
variable {e : Widget} {i j : Nat} {rule : Rule Declaration} {d : Declaration} {p : String}

theorem assigns_iff_erase (hrule : sheet.rules[i]? = some rule)
    (hd : rule.declarations[j]? = some d) (hunusable : d.Unusable context.registry tree)
    (he : e ∈ tree.toList) (item : Rank × Declaration) (value : Option Value)
    : sheet.Assigns context above e p item value
        ↔
      ∃ item', (item'.1.skip i j, item'.2) = item ∧
        (sheet.erase i j).Assigns context above e p item' value := by
  constructor
  . intro h
    rcases (concerns_iff_erase hrule hd).1 h.1 with ⟨rank', hskip, hconcerns⟩ | ⟨_, _, heq, _⟩
    . exact ⟨(rank', item.2), by rw [hskip], hconcerns, h.2⟩
    . have hgives := h.2
      rw [heq] at hgives
      exact absurd hgives (hunusable.not_gives he (fun _ _ h => h) p value)
  . intro h
    rcases h with ⟨item', heq, hconcerns, hgives⟩
    rw [← heq]
    exact ⟨concerns_erase_iff.1 hconcerns, hgives⟩

theorem bequeaths_iff_erase (hrule : sheet.rules[i]? = some rule)
    (hd : rule.declarations[j]? = some d) (hunusable : d.Unusable context.registry tree)
    (he : e ∈ tree.toList) (entry : Inherited) (value : Option Value)
    : sheet.Bequeaths context above e p entry value
        ↔
      ∃ entry', entry'.skip i j = entry ∧
        (sheet.erase i j).Bequeaths context above e p entry' value ∧
        ¬ rule.Hides d context above entry' := by
  constructor
  . intro h
    rcases (concerns_iff_erase hrule hd).1 h.1.concerns with ⟨rank', hskip, _⟩ | ⟨_, _, heq, _⟩
    . let entry' : Inherited := { entry with rank := rank' }
      have hentry : entry'.skip i j = entry := by
        unfold entry' Inherited.skip
        rw [hskip]
      have hpool := h.1
      rw [← hentry, pool_skip_iff hrule hd] at hpool
      exact ⟨entry', hentry, ⟨hpool.1, h.2⟩, hpool.2⟩
    . have hgives := h.2
      rw [heq] at hgives
      exact absurd hgives
        (hunusable.not_gives he Cascade.resolveName?_of_resolveInherited? p value)
  . intro h
    rcases h with ⟨entry', heq, ⟨hpool, hgives⟩, hhides⟩
    rw [← heq]
    exact ⟨(pool_skip_iff hrule hd).2 ⟨hpool, hhides⟩, hgives⟩

theorem settles_assigns_iff_erase (hrule : sheet.rules[i]? = some rule)
    (hd : rule.declarations[j]? = some d) (hunusable : d.Unusable context.registry tree)
    (he : e ∈ tree.toList) {before after : Option Slot}
    : Settles (fun x y => y.1 < x.1) (sheet.Assigns context above e p) before after
        ↔
      Settles (fun x y => y.1 < x.1) ((sheet.erase i j).Assigns context above e p)
        before after := by
  apply Settles.of_embedding (fun item => (item.1.skip i j, item.2))
  . intro x y h
    rw [Prod.mk.injEq] at h
    exact Prod.ext (Rank.eq_of_skip_eq h.1) h.2
  . intro x y
    exact Rank.skip_lt_skip_iff
  . exact assigns_iff_erase hrule hd hunusable he

theorem settles_bequeaths_iff_erase (hrule : sheet.rules[i]? = some rule)
    (hd : rule.declarations[j]? = some d) (hunusable : d.Unusable context.registry tree)
    (he : e ∈ tree.toList) {before after : Option Slot}
    : Settles Inherited.Before (sheet.Bequeaths context above e p) before after
        ↔
      Settles Inherited.Before
        (fun entry value => (sheet.erase i j).Bequeaths context above e p entry value ∧
          ¬ rule.Hides d context above entry) before after := by
  apply Settles.of_embedding (Inherited.skip i j)
  . intro x y h
    exact Inherited.eq_of_skip_eq h
  . intro x y
    exact Inherited.before_skip_iff
  . exact bequeaths_iff_erase hrule hd hunusable he

theorem assigns_functional (item : Rank × Declaration) (value value' : Option Value)
    (h : sheet.Assigns context above e p item value)
    (h' : sheet.Assigns context above e p item value') : value = value' := h.2.value_eq h'.2

theorem bequeaths_functional (entry : Inherited) (value value' : Option Value)
    (h : sheet.Bequeaths context above e p entry value)
    (h' : sheet.Bequeaths context above e p entry value') : value = value' := h.2.value_eq h'.2

theorem slot_apply_eq_iff (hrule : sheet.rules[i]? = some rule)
    (hd : rule.declarations[j]? = some d) (hunusable : d.Unusable context.registry tree)
    {position : List Nat} (hpath : tree.path? position = some (above ++ [e])) (p : String)
    : ((sheet.apply context tree).1.value? position).map (·.store.slot? p)
          = (((sheet.erase i j).apply context tree).1.value? position).map (·.store.slot? p)
        ↔
      rule.HidesInVain d (sheet.erase i j) context above e p := by
  have he : e ∈ tree.toList := Tree.mem_toList_of_mem_path hpath e (by simp)
  rcases exists_settles_apply sheet context hpath p with ⟨e₁, hvalue₁, hassigns₁, hbequeaths₁⟩
  rcases exists_settles_apply (sheet.erase i j) context hpath p
    with ⟨e₂, hvalue₂, hassigns₂, hbequeaths₂⟩
  rw [settles_assigns_iff_erase hrule hd hunusable he] at hassigns₁
  rw [settles_bequeaths_iff_erase hrule hd hunusable he] at hbequeaths₁
  rw [hvalue₁, hvalue₂, Option.map_some, Option.map_some, Option.some.injEq]
  by_cases hsome : ∃ item value, (sheet.erase i j).Assigns context above e p item value
  . -- A declaration that concerns the widget decides in both sheets.
    rcases hsome with ⟨item, value, hitem⟩
    have hslots := Settles.eq_after (fun _ _ => Rank.lt_asymm) assigns_functional
      (hassigns₁ ⟨_, value, (assigns_iff_erase hrule hd hunusable he _ _).2 ⟨item, rfl, hitem⟩⟩)
      (hassigns₂ ⟨item, value, hitem⟩)
    constructor
    . intro _ hnone
      exact absurd hitem (hnone item value)
    . intro _
      exact hslots
  . have hnone : ∀ item value, ¬ (sheet.erase i j).Assigns context above e p item value := by
      intro item value hitem
      exact hsome ⟨item, value, hitem⟩
    have hnone₁ : ∀ item value, ¬ sheet.Assigns context above e p item value := by
      intro item value hitem
      rcases (assigns_iff_erase hrule hd hunusable he item value).1 hitem with ⟨item', _, hitem'⟩
      exact hnone item' value hitem'
    constructor
    . intro hslots _ after hafter
      have hsame := Settles.eq_after Inherited.before_asymm
        (fun _ _ _ h h' => bequeaths_functional _ _ _ h.1 h'.1) hafter (hbequeaths₁ hnone₁)
      rw [hsame, hslots]
      exact hbequeaths₂ hnone
    . intro hvain
      exact Settles.eq_after Inherited.before_asymm bequeaths_functional
        (hvain hnone _ (hbequeaths₁ hnone₁)) (hbequeaths₂ hnone)

end Widgets

/--
Taking a declaration that no widget can use out of a sheet changes nothing if and only if there is
no widget for which it hides an inherited declaration that would count.
-/
theorem sameSlots_apply_erase_iff (sheet : StyleSheet) (context : StyleContext) (tree : Tree Widget)
    {i j : Nat} {rule : Rule Declaration} {d : Declaration} (hrule : sheet.rules[i]? = some rule)
    (hd : rule.declarations[j]? = some d) (hunusable : d.Unusable context.registry tree)
    : Tree.SameSlots (sheet.apply context tree).1 ((sheet.erase i j).apply context tree).1
        ↔
      ∀ position above e, tree.path? position = some (above ++ [e]) →
        ∀ p, rule.HidesInVain d (sheet.erase i j) context above e p := by
  constructor
  . intro hsame position above e hpath p
    rw [← slot_apply_eq_iff hrule hd hunusable hpath]
    exact hsame position p
  . intro hvain position p
    cases hpath : tree.path? position with
    | none =>
      have hvalue : (sheet.apply context tree).1.value? position = none :=
        Cascade.value?_run_eq_none hpath
      have hvalue' : ((sheet.erase i j).apply context tree).1.value? position = none :=
        Cascade.value?_run_eq_none hpath
      rw [hvalue, hvalue']
    | some path =>
      rcases List.eq_nil_or_concat path with hnil | ⟨above, e, heq⟩
      . exact absurd hnil (Tree.path?_ne_nil hpath)
      . rw [heq, List.concat_eq_append] at hpath
        exact (slot_apply_eq_iff hrule hd hunusable hpath p).2 (hvain position above e hpath p)

open NestedLabel

theorem unusable_perhaps : perhaps.Unusable StyleContext.standard.registry widgets := by
  intro e he property hproperty value hvalue
  have htypes : ∀ e ∈ widgets.toList, (Registry.resolveName? e
      (StyleContext.standard.registry.classify perhaps.property)).map (·.type) = some .bool := by
    decide
  have htype := htypes e he
  rw [hproperty, Option.map_some, Option.some.injEq] at htype
  unfold Cascade.valueFor perhaps at hvalue
  dsimp only at hvalue
  rw [htype] at hvalue
  cases hvalue

theorem not_sameSlots_nestedLabel
    : ¬ Tree.SameSlots (sheet.apply .standard widgets).1
          ((sheet.erase 1 0).apply .standard widgets).1 := by
  intro h
  have hslots := h [0, 0] "IsVisible"
  revert hslots
  decide +kernel

theorem sameSlots_apply_erase_iff_nestedLabel
    : ¬ ∀ position above e, widgets.path? position = some (above ++ [e]) →
          ∀ p, Rule.HidesInVain ⟨[⟨[.id "inner"], []⟩], [perhaps]⟩ perhaps (sheet.erase 1 0)
            .standard above e p := by
  rw [← sameSlots_apply_erase_iff sheet .standard widgets rfl rfl unusable_perhaps]
  exact not_sameSlots_nestedLabel

theorem unusable_not_inert
    : ¬ ∀ (sheet : StyleSheet) (context : StyleContext) (tree : Tree Widget) (i j : Nat)
          (rule : Rule Declaration) (d : Declaration), sheet.rules[i]? = some rule →
          rule.declarations[j]? = some d → d.value ≠ .initial →
          d.Unusable context.registry tree →
          Tree.SameSlots (sheet.apply context tree).1 ((sheet.erase i j).apply context tree).1 := by
  intro h
  have hrule : sheet.rules[1]? = some ⟨[⟨[.id "inner"], []⟩], [perhaps]⟩ := rfl
  exact not_sameSlots_nestedLabel
    (h sheet .standard widgets 1 0 _ perhaps hrule rfl (by decide) unusable_perhaps)

end StyleSheet

end TreeStyle
