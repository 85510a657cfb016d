import TreeStyle.Proofs.Cascade.Outcome
import TreeStyle.Proofs.Lookalike

/-!
This module contains the proof that siblings do not interfere. What styling makes of a widget
depends on its store and on how it and its ancestors look, and on nothing else in the tree.
-/

namespace TreeStyle

theorem forall₂_of_concat {α β : Type} {r : α → β → Prop} {as : List α} {bs : List β} {a : α}
    {b : β} (h : List.Forall₂ r (as ++ [a]) (bs ++ [b]))
    : List.Forall₂ r as bs ∧ r a b := by
  have hreverse := List.forall₂_reverse_iff.2 h
  rw [List.reverse_append, List.reverse_append] at hreverse
  rcases hreverse with _ | ⟨hab, hrest⟩
  exact ⟨List.forall₂_reverse_iff.1 hrest, hab⟩

namespace StyleSheet

namespace NestedLabel

def crowdedOuter : Widget :=
  { outerLayout with number := 5, store := ⟨[("IsVisible", .user (.bool true))]⟩ }

def crowdedInner : Widget :=
  { innerLayout with number := 7, store := ⟨[("Spacing", .style (.int 4))]⟩ }

def crowdedWidgets : Tree Widget :=
  .node crowdedOuter [.node { number := 6, kind := .button } [],
    .node crowdedInner [.node { number := 8, kind := .label } []]]

end NestedLabel

open NestedLabel

/--
After a sheet has been applied to two trees, widgets with equal stores still have equal stores, if
corresponding widgets on the paths to them look alike. The rest of the trees does not matter, nor
what the widgets above store.
-/
theorem siblings_irrelevant (sheet : StyleSheet) (context : StyleContext) (tree tree' : Tree Widget)
    (position position' : List Nat) (above above' : List Widget) (e e' : Widget)
    (hpath : tree.path? position = some (above ++ [e]))
    (hpath' : tree'.path? position' = some (above' ++ [e']))
    (halike : List.Forall₂ Widget.Lookalike (above ++ [e]) (above' ++ [e']))
    (hslots : ∀ p, e'.store.slot? p = e.store.slot? p)
    : ∃ styled styled', (sheet.apply context tree).1.value? position = some styled ∧
        (sheet.apply context tree').1.value? position' = some styled' ∧
        (∀ p, styled'.store.slot? p = styled.store.slot? p) ∧
        (e'.store = e.store → styled'.store = styled.store) := by
  rcases forall₂_of_concat halike with ⟨habove, he⟩
  have hinfos := map_elementInfo_eq_of_lookalikes halike
  have hsurroundings := Cascade.surroundings_eq_of_lookalikes habove context.registry
    (sheet.candidates ⟨context.options.caseSensitiveTypes⟩)
  refine ⟨_, _, Cascade.value?_run hpath, Cascade.value?_run hpath', ?_⟩
  rw [hinfos, hsurroundings]
  exact ⟨he.slot?_styleElement_eq _ _ _ hslots, he.store_styleElement_eq _ _ _⟩

theorem siblings_irrelevant_nestedLabel
    : ∃ styled styled', (sheet.apply .standard widgets).1.value? [0, 0] = some styled ∧
        (sheet.apply .standard crowdedWidgets).1.value? [1, 0] = some styled' ∧
        styled'.store = styled.store := by
  have hlayouts : List.Forall₂ Widget.Lookalike [outerLayout, innerLayout]
      [crowdedOuter, crowdedInner] :=
    .cons ⟨rfl, rfl, rfl⟩ (.cons ⟨rfl, rfl, rfl⟩ .nil)
  have halike : List.Forall₂ Widget.Lookalike
      ([outerLayout, innerLayout] ++ [{ number := 2, kind := .label }])
      ([crowdedOuter, crowdedInner] ++ [{ number := 8, kind := .label }]) :=
    List.rel_append hlayouts (.cons ⟨rfl, rfl, rfl⟩ .nil)
  rcases siblings_irrelevant sheet .standard widgets crowdedWidgets [0, 0] [1, 0] _ _ _ _ rfl rfl
    halike (fun _ => rfl) with ⟨styled, styled', hstyled, hstyled', -, hstore⟩
  exact ⟨styled, styled', hstyled, hstyled', hstore rfl⟩

end StyleSheet

end TreeStyle
