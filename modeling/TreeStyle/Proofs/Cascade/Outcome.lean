import TreeStyle.Proofs.Cascade.Inheritance

/-!
This module contains the outcome of applying a sheet to a tree of widgets, for every property of
every widget: the highest declaration that concerns the widget and gives the property a value
settles it, and else the first one of those that the widget inherits.
-/

namespace TreeStyle.StyleSheet

def Assigns (sheet : StyleSheet) (context : StyleContext) (above : List Widget) (e : Widget)
    (p : String) (item : Rank × Declaration) (value : Option Value) : Prop :=
  sheet.Concerns context (above ++ [e]) item.1 item.2 ∧
    Cascade.Gives context.registry (Registry.resolveName? e) p item.2 value

def Bequeaths (sheet : StyleSheet) (context : StyleContext) (above : List Widget) (e : Widget)
    (p : String) (entry : Inherited) (value : Option Value) : Prop :=
  sheet.Pool context above entry ∧
    Cascade.Gives context.registry (Registry.resolveInherited? e) p entry.declaration value

variable {tree : Tree Widget} {position : List Nat} {above : List Widget} {e : Widget}

theorem exists_inherited_of_bequeaths {sheet : StyleSheet} {context : StyleContext} {p : String}
    {entry : Inherited} {value : Option Value} (h : sheet.Bequeaths context above e p entry value)
    : ∃ property, e.property? p = some property ∧ property.inherited = true := by
  rcases h.2 with ⟨property, hresolve, hname, _⟩
  have hdeclared := Widget.property?_of_resolveName?
    (Cascade.resolveName?_of_resolveInherited? _ _ hresolve)
  rw [hname] at hdeclared
  exact ⟨property, hdeclared, (Option.filter_eq_some_iff.1 hresolve).2⟩

theorem exists_settles_apply (sheet : StyleSheet) (context : StyleContext)
    (hpath : tree.path? position = some (above ++ [e])) (p : String)
    : ∃ e', (sheet.apply context tree).1.value? position = some e' ∧
        ((∃ item value, sheet.Assigns context above e p item value) →
          Settles (fun x y => y.1 < x.1) (sheet.Assigns context above e p)
            (e.store.slot? p) (e'.store.slot? p)) ∧
        ((∀ item value, ¬ sheet.Assigns context above e p item value) →
          Settles Inherited.Before (sheet.Bequeaths context above e p)
            (e.store.slot? p) (e'.store.slot? p)) := by
  rcases sheet.exists_sorted_candidates context (above ++ [e]) with ⟨items, hitems, hranks, hmem⟩
  rcases sheet.exists_sorted_pool context above with ⟨entries, hentries, hsorted, hpool⟩
  let direct? : Rank × Declaration → Option (Option Value) :=
    fun item => Verdict.value? p (Cascade.directVerdict context.registry e item.2)
  let inherited? : Inherited → Option (Option Value) :=
    fun entry => Verdict.value? p (Cascade.inheritedVerdict context.registry e entry.declaration)
  have hassigns : ∀ item value, sheet.Assigns context above e p item value ↔
      item ∈ items ∧ direct? item = some value := by
    intro item value
    unfold Assigns
    rw [hmem, Cascade.value?_directVerdict_eq_some_iff]
  have hbequeaths : ∀ entry value, sheet.Bequeaths context above e p entry value ↔
      entry ∈ entries ∧ inherited? entry = some value := by
    intro entry value
    unfold Bequeaths
    rw [hpool, Cascade.value?_inheritedVerdict_eq_some_iff]
  -- Both lists are in the order in which the cascade tries their declarations.
  let after := (Cascade.styleElement context.registry
    (Candidate.rank (sheet.candidates context.matcher ((above ++ [e]).map ElementInfo.of)))
    (Cascade.surroundings context.registry (sheet.candidates context.matcher) above).pool e).1
  have hafter : (sheet.apply context tree).1.value? position = some after :=
    Cascade.value?_run hpath
  have hslot : after.store.slot? p
      = ((items.findSome? direct?).or (entries.findSome? inherited?)).elim
          (e.store.slot? p) (Slot.settle (e.store.slot? p)) := by
    unfold after
    rw [Cascade.slot?_styleElement, hitems, hentries, List.findSome?_map, List.findSome?_map]
    rfl
  refine ⟨after, hafter, ?_, ?_⟩
  . intro hsome
    rw [hslot, Option.or_of_isSome ((Settles.isSome_findSome?_iff hassigns).2 hsome)]
    exact Settles.of_findSome? hranks hassigns (e.store.slot? p)
  . intro hnone
    have hfound : items.findSome? direct? = none := by
      rw [← Option.not_isSome_iff_eq_none, Settles.isSome_findSome?_iff hassigns]
      intro hsome
      rcases hsome with ⟨item, value, hitem⟩
      exact hnone item value hitem
    rw [hslot, hfound, Option.none_or]
    exact Settles.of_findSome? hsorted hbequeaths (e.store.slot? p)

namespace ContestedLabel

def label : Widget :=
  { number := 0, kind := .label, styleId? := some "title", classes := ["big"] }

def visibility (text : String) (important : Bool) : Declaration :=
  ⟨"visibility", .specified text, important⟩

def sheet : StyleSheet := ⟨[
  ⟨[⟨[.id "title"], []⟩], [visibility "visible" false]⟩,
  ⟨[⟨[.className "big"], []⟩], [visibility "visible" true, visibility "hidden" true]⟩,
  ⟨[⟨[.typeName "label"], []⟩], [visibility "visible" true]⟩]⟩

end ContestedLabel

/--
Without a declaration that concerns the widget and gives the property a value, the first one of
those that it inherits decides. No property changes that is not inherited.
-/
theorem nearest_inherited_settles (sheet : StyleSheet) (context : StyleContext)
    (hpath : tree.path? position = some (above ++ [e])) (p : String)
    (hnone : ∀ item value, ¬ sheet.Assigns context above e p item value)
    : ∃ e', (sheet.apply context tree).1.value? position = some e' ∧
        Settles Inherited.Before (sheet.Bequeaths context above e p)
          (e.store.slot? p) (e'.store.slot? p) ∧
        ((∀ property, e.property? p = some property → property.inherited = false) →
          e'.store.slot? p = e.store.slot? p) := by
  rcases exists_settles_apply sheet context hpath p with ⟨e', hvalue, _, hsettles⟩
  refine ⟨e', hvalue, hsettles hnone, ?_⟩
  intro hfalse
  rcases hsettles hnone with ⟨entry, value, hentry, _⟩ | ⟨_, hslot⟩
  . rcases exists_inherited_of_bequeaths hentry with ⟨property, hproperty, htrue⟩
    rw [hfalse property hproperty] at htrue
    cases htrue
  . exact hslot

namespace NestedLabel

def outerLayout : Widget := { number := 0, kind := .stackLayout, styleId? := some "outer" }

def innerLayout : Widget := { number := 1, kind := .stackLayout, styleId? := some "inner" }

def widgets : Tree Widget :=
  .node outerLayout [.node innerLayout [.node { number := 2, kind := .label } []]]

def hide : Declaration := ⟨"visibility", .specified "hidden", false⟩

def perhaps : Declaration := ⟨"visibility", .specified "perhaps", false⟩

def sheet : StyleSheet :=
  ⟨[⟨[⟨[.id "outer"], []⟩], [hide]⟩, ⟨[⟨[.id "inner"], []⟩], [perhaps]⟩]⟩

theorem concerns_outerLayout_iff {rank : Rank} {d : Declaration}
    : sheet.Concerns .standard [outerLayout] rank d
        ↔
      rank = ⟨false, ⟨1, 0, 0⟩, 0, 0⟩ ∧ d = hide := by
  have hranked : sheet.ranked .standard [outerLayout] = [(⟨false, ⟨1, 0, 0⟩, 0, 0⟩, hide)] := by
    decide
  have hmem : (rank, d) ∈ sheet.ranked .standard [outerLayout] ↔ _ :=
    sheet.mem_ranked_iff .standard [outerLayout]
  rw [← hmem, hranked, List.mem_singleton, Prod.mk.injEq]

theorem concerns_innerLayout_iff {rank : Rank} {d : Declaration}
    : sheet.Concerns .standard [outerLayout, innerLayout] rank d
        ↔
      rank = ⟨false, ⟨1, 0, 0⟩, 1, 0⟩ ∧ d = perhaps := by
  have hranked : sheet.ranked .standard [outerLayout, innerLayout]
      = [(⟨false, ⟨1, 0, 0⟩, 1, 0⟩, perhaps)] := by
    decide
  have hmem : (rank, d) ∈ sheet.ranked .standard [outerLayout, innerLayout] ↔ _ :=
    sheet.mem_ranked_iff .standard [outerLayout, innerLayout]
  rw [← hmem, hranked, List.mem_singleton, Prod.mk.injEq]

theorem pool_outerLayout_iff {entry : Inherited}
    : sheet.Pool .standard [outerLayout] entry ↔ entry = ⟨0, ⟨false, ⟨1, 0, 0⟩, 0, 0⟩, hide⟩ := by
  have hdown : Cascade.handsDown StyleContext.standard.registry outerLayout hide = true := by
    decide
  rw [← List.nil_append [outerLayout]]
  constructor
  . intro h
    have hdepth : entry.depth = 0 := Nat.lt_one_iff.1 h.depth_lt
    rw [pool_last_iff hdepth, List.nil_append, concerns_outerLayout_iff] at h
    rcases entry with ⟨depth, rank, d⟩
    dsimp only at h hdepth
    rw [hdepth, h.1.1, h.1.2]
  . intro h
    rw [h, pool_last_iff rfl, List.nil_append, concerns_outerLayout_iff,
      ← Cascade.handsDown_eq_true_iff]
    exact ⟨⟨rfl, rfl⟩, hdown⟩

theorem not_gives_innerLayout {value : Option Value}
    : ¬ Cascade.Gives StyleContext.standard.registry (Registry.resolveName? innerLayout)
          "IsVisible" perhaps value := by
  have hvalue : Verdict.value? "IsVisible"
      (Cascade.directVerdict StyleContext.standard.registry innerLayout perhaps) = none := by
    decide
  rw [← Cascade.value?_directVerdict_eq_some_iff, hvalue]
  intro h
  cases h

theorem gives_innerLayout_iff {value : Option Value}
    : Cascade.Gives StyleContext.standard.registry (Registry.resolveInherited? innerLayout)
          "IsVisible" hide value
        ↔
      value = some (.bool false) := by
  have hvalue : Verdict.value? "IsVisible"
      (Cascade.inheritedVerdict StyleContext.standard.registry innerLayout hide)
        = some (some (.bool false)) := by
    decide
  rw [← Cascade.value?_inheritedVerdict_eq_some_iff, hvalue, Option.some.injEq, eq_comm]

end NestedLabel

open NestedLabel in
theorem nearest_inherited_settles_nestedLabel
    : ∃ e', (sheet.apply .standard widgets).1.value? [0] = some e' ∧
        e'.store.slot? "IsVisible" = some (.style (.bool false)) := by
  have hpath : widgets.path? [0] = some ([outerLayout] ++ [innerLayout]) := rfl
  have hnone : ∀ item value,
      ¬ sheet.Assigns .standard [outerLayout] innerLayout "IsVisible" item value := by
    intro item value h
    have hgives := h.2
    rw [(concerns_innerLayout_iff.1 h.1).2] at hgives
    exact not_gives_innerLayout hgives
  rcases nearest_inherited_settles sheet .standard hpath "IsVisible" hnone
    with ⟨e', hvalue, hsettles, _⟩
  refine ⟨e', hvalue, ?_⟩
  rcases hsettles with ⟨entry, value, hentry, _, hslot⟩ | ⟨hnothing, _⟩
  . have hgives := hentry.2
    rw [pool_outerLayout_iff.1 hentry.1, gives_innerLayout_iff] at hgives
    rw [hslot, hgives]
    rfl
  . exact absurd ⟨pool_outerLayout_iff.2 rfl, gives_innerLayout_iff.2 rfl⟩ (hnothing _ _)

end TreeStyle.StyleSheet
