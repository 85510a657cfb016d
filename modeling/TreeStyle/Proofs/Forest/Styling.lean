import TreeStyle.Proofs.Cascade.Decision
import TreeStyle.Proofs.Forest.Numbering

/-!
This module contains what styling does not touch. Sheets, styles and resets keep the trees, the
names that selectors see and the values that the user has set, and they keep off every widget
outside the subtree at which they start.
-/

namespace TreeStyle

def Widget.bare (w : Widget) : Widget := { w with store := {} }

structure Widget.StyledTo (w w' : Widget) : Prop where
  bare_eq : w'.bare = w.bare
  user : ∀ p v, w.store.slot? p = some (.user v) → w'.store.slot? p = some (.user v)

structure Tree.Styles (change : Tree Widget → Tree Widget) : Prop where
  map_bare : ∀ t, (change t).map Widget.bare = t.map Widget.bare
  styledTo : ∀ t, ∀ w ∈ t.toList, ∃ w' ∈ (change t).toList, w.StyledTo w'

theorem Widget.setStyle?_eq_some_iff {w w' : Widget} {p : String} {value : Value}
    : w.setStyle? p value = some w' ↔
        ∃ descriptor, w.property? p = some descriptor ∧ value.isOf descriptor.type = true ∧
          w.origin p ≠ .user ∧ { w with store := w.store.put p (.style value) } = w' := by
  unfold setStyle?
  cases hproperty : w.property? p with
  | none => simp
  | some descriptor =>
    have hname : descriptor.name = p := by
      have := List.find?_some hproperty
      rwa [beq_iff_eq] at this
    by_cases htype : value.isOf descriptor.type = true
    . by_cases huser : w.store.origin p = .user
      . simp [origin, PropertyStore.setStyle?, hname, htype, huser]
      . simp [origin, PropertyStore.setStyle?, hname, htype, huser]
    . simp [htype]

namespace Widget.StyledTo

variable {w w' w'' : Widget}

theorem refl (w : Widget) : w.StyledTo w := ⟨rfl, fun _ _ h => h⟩

theorem trans (h : w.StyledTo w') (h' : w'.StyledTo w'') : w.StyledTo w'' where
  bare_eq := h'.bare_eq.trans h.bare_eq
  user p v hslot := h'.user p v (h.user p v hslot)

theorem number_eq (h : w.StyledTo w') : w'.number = w.number := by
  have hbare := congrArg (·.number) h.bare_eq
  exact hbare

theorem kind_eq (h : w.StyledTo w') : w'.kind = w.kind := by
  have hbare := congrArg (·.kind) h.bare_eq
  exact hbare

theorem clearStyles (w : Widget) : w.StyledTo w.clearStyles where
  bare_eq := rfl
  user _ _ h := PropertyStore.slot?_clearStyles_of_user h

theorem writeStyle (p : String) (value : Value) (w : Widget)
    : w.StyledTo (w.writeStyle p value) := by
  unfold Widget.writeStyle
  cases hset : w.setStyle? p value with
  | none => exact refl w
  | some w' =>
    rcases setStyle?_eq_some_iff.1 hset with ⟨_, _, _, huser, rfl⟩
    refine ⟨rfl, fun q v hslot => ?_⟩
    have hne : q ≠ p := by
      rintro rfl
      exact huser (PropertyStore.origin_eq_user_iff.2 ⟨v, hslot⟩)
    show (w.store.put p (.style value)).slot? q = _
    rw [PropertyStore.slot?_put, if_neg hne, hslot]

theorem clearStyle (p : String) (w : Widget) : w.StyledTo (w.clearStyle p) where
  bare_eq := rfl
  user q v hslot := by
    show (w.store.clearStyle p).2.slot? q = _
    unfold PropertyStore.clearStyle
    split
    . next hstyle =>
      have hne : q ≠ p := by
        rintro rfl
        rw [PropertyStore.origin_eq_user_iff.2 ⟨v, hslot⟩] at hstyle
        cases hstyle
      rw [PropertyStore.slot?_clear, if_neg hne, hslot]
    . exact hslot

theorem visit (registry : Registry) (candidates : List ElementInfo → List Candidate)
    (above : Cascade.Surroundings) (w : Widget)
    : w.StyledTo (Cascade.visit registry candidates above w).1.1 := by
  unfold Cascade.visit
  dsimp only
  rw [Cascade.styleElement_eq_settle]
  exact ⟨rfl, fun _ _ h => PropertyStore.slot?_foldl_settle_of_user h _⟩

end Widget.StyledTo

namespace Tree.Styles

theorem numbers_eq {change : Tree Widget → Tree Widget} (h : Styles change) (t : Tree Widget)
    : (change t).toList.map (·.number) = t.toList.map (·.number) := by
  have hnumbers : ∀ t : Tree Widget,
      t.toList.map (·.number) = (t.map Widget.bare).toList.map (·.number) := by
    intro t
    rw [toList_map, List.map_map]
    rfl
  rw [hnumbers, hnumbers t, h.map_bare]

theorem of_run (context : StyleContext) (candidates : List ElementInfo → List Candidate)
    : Styles fun t => (Cascade.run context candidates t).1 := by
  have hvisit := Widget.StyledTo.visit context.registry candidates
  constructor
  . intro t
    unfold Cascade.run
    dsimp only
    rw [map_map]
    apply map_mapDown
    intro above w
    exact (hvisit above w).bare_eq
  . intro t w hw
    rcases exists_mem_mapDown (Cascade.visit context.registry candidates) {} hw with ⟨above, h⟩
    refine ⟨_, ?_, hvisit above w⟩
    unfold Cascade.run
    dsimp only
    rw [toList_map]
    exact List.mem_map_of_mem h

theorem resetStyles : Styles Tree.resetStyles := by
  constructor
  . intro t
    unfold Tree.resetStyles
    rw [map_map]
    rfl
  . intro t w hw
    refine ⟨w.clearStyles, ?_, .clearStyles w⟩
    unfold Tree.resetStyles
    rw [toList_map]
    exact List.mem_map_of_mem hw

theorem root {change : Widget → Widget} (hchange : ∀ w : Widget, w.StyledTo (change w))
    : Styles fun t => .node (change t.value) t.children := by
  constructor
  . intro t
    cases t with
    | node w ts =>
      rw [map_node, map_node]
      exact congrArg (Tree.node · _) (hchange w).bare_eq
  . intro t w hw
    cases t with
    | node w₀ ts =>
      rw [toList_node, List.mem_cons] at hw
      rw [toList_node]
      rcases hw with rfl | hw
      . exact ⟨_, List.mem_cons_self, hchange w⟩
      . exact ⟨w, List.mem_cons_of_mem _ hw, .refl w⟩

end Tree.Styles

namespace Forest

variable {f g k : Forest} {n m : Nat} {scope : List Nat}

def bare (f : Forest) : List (Tree Widget) := f.trees.map (Tree.map Widget.bare)

/--
The forest `g` is what styling the widgets with the numbers in `scope` can make of `f`.
-/
structure StyledTo (scope : List Nat) (f g : Forest) : Prop where
  bare_eq : g.bare = f.bare
  count_eq : g.count = f.count
  user : ∀ w ∈ f.widgets, ∃ w' ∈ g.widgets, w.StyledTo w'
  outside : ∀ m, m ∉ scope → g.widget? m = f.widget? m

theorem widgets_map_bare (f : Forest) : f.widgets.map Widget.bare = f.bare.flatMap Tree.toList := by
  unfold widgets bare
  rw [List.map_flatMap, List.flatMap_map]
  apply List.flatMap_congr
  intro t _
  rw [Tree.toList_map]

theorem numbers_eq_of_bare_eq (h : g.bare = f.bare)
    : g.widgets.map (·.number) = f.widgets.map (·.number) := by
  have hnumbers : ∀ f : Forest, f.widgets.map (·.number)
      = (f.bare.flatMap Tree.toList).map (·.number) := by
    intro f
    rw [← widgets_map_bare, List.map_map]
    rfl
  rw [hnumbers g, hnumbers f, h]

theorem findSome?_bare (f : Forest) (n : Nat)
    : f.bare.findSome? (Tree.find? (isNumber n)) = (f.subtree? n).map (Tree.map Widget.bare) := by
  have hnumber : ∀ t : Tree Widget, isNumber n (t.map Widget.bare) = isNumber n t := by
    intro t
    unfold isNumber
    rw [Tree.value_map]
    rfl
  unfold bare subtree?
  rw [List.findSome?_map, List.map_findSome?]
  congr 1
  funext t
  simp only [Function.comp_apply, Tree.find?_map, hnumber]

theorem traverse_eq_of_bare_eq (h : g.bare = f.bare) (n : Nat) : g.traverse n = f.traverse n := by
  have htraverse : ∀ f : Forest, f.traverse n
      = ((f.bare.findSome? (Tree.find? (isNumber n))).map (·.toList.map (·.number))).getD [] := by
    intro f
    rw [findSome?_bare]
    unfold traverse
    cases f.subtree? n with
    | none => rfl
    | some t =>
      simp only [Option.map_some, Option.getD_some, Tree.toList_map, List.map_map]
      rfl
  rw [htraverse g, htraverse f, h]

theorem children_eq_of_bare_eq (h : g.bare = f.bare) (n : Nat) : g.children n = f.children n := by
  have hchildren : ∀ f : Forest, f.children n
      = ((f.bare.findSome? (Tree.find? (isNumber n))).map
          (·.children.map (·.value.number))).getD [] := by
    intro f
    rw [findSome?_bare]
    unfold children
    cases f.subtree? n with
    | none => rfl
    | some t =>
      cases t with
      | node w ts =>
        rw [Option.map_some, Option.map_some, Tree.map_node]
        simp [Tree.children, Tree.value_map, Widget.bare]
  rw [hchildren g, hchildren f, h]

theorem bare_modify {change : Tree Widget → Tree Widget} (hchange : Tree.Styles change)
    (f : Forest) (n : Nat) : (f.modify n change).bare = f.bare := by
  unfold modify bare
  rw [List.map_map]
  apply List.map_congr_left
  intro t _
  exact Tree.map_modify hchange.map_bare t

namespace StyledTo

theorem refl (scope : List Nat) (f : Forest) : StyledTo scope f f where
  bare_eq := rfl
  count_eq := rfl
  user w hw := ⟨w, hw, .refl w⟩
  outside _ _ := rfl

theorem trans (h : StyledTo scope f g) (h' : StyledTo scope g k) : StyledTo scope f k where
  bare_eq := h'.bare_eq.trans h.bare_eq
  count_eq := h'.count_eq.trans h.count_eq
  user w hw := by
    rcases h.user w hw with ⟨w', hw', hstyled⟩
    rcases h'.user w' hw' with ⟨w'', hw'', hstyled'⟩
    exact ⟨w'', hw'', hstyled.trans hstyled'⟩
  outside m hm := (h'.outside m hm).trans (h.outside m hm)

theorem numbered (h : StyledTo scope f g) (hf : f.Numbered) : g.Numbered := by
  unfold Numbered at *
  rw [numbers_eq_of_bare_eq h.bare_eq, h.count_eq]
  exact hf

theorem modify (hf : f.Numbered) {change : Tree Widget → Tree Widget} (hchange : Tree.Styles change)
    (n : Nat) : StyledTo (f.traverse n) f (f.modify n change) := by
  cases ht : f.subtree? n with
  | none =>
    rw [modify_of_subtree?_eq_none ht]
    apply refl
  | some t =>
    rcases exists_widgets_modify (hf.countP_le_one n) ht with ⟨left, right, hwidgets, hmodify⟩
    have hbare := bare_modify hchange f n
    refine ⟨hbare, rfl, ?_, ?_⟩
    . intro w hw
      rw [hmodify]
      rw [hwidgets] at hw
      simp only [List.mem_append] at hw ⊢
      rcases hw with (hw | hw) | hw
      . exact ⟨w, Or.inl (Or.inl hw), .refl w⟩
      . rcases hchange.styledTo t w hw with ⟨w', hw', hstyled⟩
        exact ⟨w', Or.inl (Or.inr hw'), hstyled⟩
      . exact ⟨w, Or.inr hw, .refl w⟩
    . intro m hm
      have hg : (f.modify n change).Numbered := by
        unfold Numbered
        rw [numbers_eq_of_bare_eq hbare]
        exact hf
      have htraverse : f.traverse n = t.toList.map (·.number) := by
        unfold traverse
        rw [ht]
      rw [htraverse] at hm
      -- The widgets of the subtree have the same numbers, and `m` is none of them.
      have hm' : m ∉ (change t).toList.map (·.number) := by
        rw [hchange.numbers_eq]
        exact hm
      apply Option.ext
      intro w
      rw [hg.widget?_eq_some_iff, hf.widget?_eq_some_iff, hmodify, hwidgets]
      simp only [List.mem_append]
      constructor
      . intro h
        rcases h with ⟨(hw | hw) | hw, hnumber⟩
        . exact ⟨Or.inl (Or.inl hw), hnumber⟩
        . exact absurd (List.mem_map.2 ⟨w, hw, hnumber⟩) hm'
        . exact ⟨Or.inr hw, hnumber⟩
      . intro h
        rcases h with ⟨(hw | hw) | hw, hnumber⟩
        . exact ⟨Or.inl (Or.inl hw), hnumber⟩
        . exact absurd (List.mem_map.2 ⟨w, hw, hnumber⟩) hm
        . exact ⟨Or.inr hw, hnumber⟩

theorem update (hf : f.Numbered) {change : Widget → Widget}
    (hchange : ∀ w : Widget, w.StyledTo (change w)) (n : Nat)
    : StyledTo [n] f (f.update n change) := by
  have hstyled := modify hf (Tree.Styles.root hchange) n
  refine ⟨hstyled.bare_eq, hstyled.count_eq, hstyled.user, ?_⟩
  intro m hm
  cases hwidget : f.widget? n with
  | none => rw [update_of_widget?_eq_none hwidget]
  | some w =>
    have hg : (f.update n change).Numbered := hstyled.numbered hf
    have hnumber : w.number = n := (hf.widget?_eq_some_iff.1 hwidget).2
    rcases hf.exists_widgets_update hwidget with ⟨left, right, hwidgets, hupdate⟩
    apply Option.ext
    intro w'
    rw [hg.widget?_eq_some_iff, hf.widget?_eq_some_iff, hupdate, hwidgets]
    simp only [List.mem_append, List.mem_cons]
    have hother : ∀ v : Widget, v.number = n → (w' = v ∧ w'.number = m ↔ False) := by
      rintro v hv
      refine iff_false_intro ?_
      rintro ⟨rfl, rfl⟩
      exact hm (List.mem_singleton.2 hv)
    have hchanged : (change w).number = n := (hchange w).number_eq.trans hnumber
    constructor
    . rintro ⟨hw' | rfl | hw', hm'⟩
      . exact ⟨Or.inl hw', hm'⟩
      . exact ((hother _ hchanged).1 ⟨rfl, hm'⟩).elim
      . exact ⟨Or.inr (Or.inr hw'), hm'⟩
    . rintro ⟨hw' | rfl | hw', hm'⟩
      . exact ⟨Or.inl hw', hm'⟩
      . exact ((hother _ hnumber).1 ⟨rfl, hm'⟩).elim
      . exact ⟨Or.inr (Or.inr hw'), hm'⟩

theorem restyle (hf : f.Numbered) {style : Tree Widget → Tree Widget × Report}
    (hstyle : Tree.Styles fun t => (style t).1) (n : Nat)
    : StyledTo (f.traverse n) f (f.restyle n style).1 := by
  have hmodify := modify hf hstyle n
  unfold Forest.restyle
  split
  . apply refl
  . next t ht =>
    dsimp only
    rw [hf.modify_const ht fun t => (style t).1]
    exact hmodify

end StyledTo

end Forest

end TreeStyle
