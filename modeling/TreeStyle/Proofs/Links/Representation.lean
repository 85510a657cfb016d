import Mathlib.Logic.Relation
import TreeStyle.Proofs.Links.Cells

/-!
This module contains what it means that links represent a forest, and what such links look like:
they agree on who is the child of whom, and ways up along them come to an end.
-/

namespace TreeStyle.Links

variable {l : Links} {f : Forest} {n m target steps : Nat} {t : Tree Widget} {c : Cell}

theorem cell?_modify (l : Links) (n : Nat) (change : Cell → Cell) (m : Nat)
    : (l.modify n change).cell? m = if m = n then (l.cell? m).map change else l.cell? m := by
  unfold modify cell?
  rw [List.getElem?_modify]
  by_cases hm : m = n
  . simp [hm]
  . simp [hm, Ne.symm hm]

@[simp]
theorem count_modify (l : Links) (n : Nat) (change : Cell → Cell)
    : (l.modify n change).count = l.count := by
  unfold modify count
  apply List.length_modify

section Cell

variable (h : l.cell? n = some c)
include h

theorem widget?_of_cell? : l.widget? n = some c.widget := congrArg (Option.map Cell.widget) h

theorem parent?_of_cell? : l.parent? n = c.parent? := congrArg (· >>= Cell.parent?) h

theorem children_of_cell? : l.children n = c.children := congrArg (Option.elim · [] Cell.children) h

theorem lt_count_of_cell? : n < l.count := by
  unfold cell? at h
  unfold count
  exact (List.getElem?_eq_some_iff.1 h).1

end Cell

theorem exists_cell (h : n < l.count) : ∃ c, l.cell? n = some c := by
  unfold cell?
  unfold count at h
  exact ⟨l.cells[n], List.getElem?_eq_getElem h⟩

theorem exists_cell_of_parent? (h : l.parent? n = some m)
    : ∃ c, l.cell? n = some c ∧ c.parent? = some m := Option.bind_eq_some_iff.1 h

theorem exists_cell_of_mem_children (h : m ∈ l.children n)
    : ∃ c, l.cell? n = some c ∧ m ∈ c.children := by
  cases hc : l.cell? n with
  | none =>
    unfold children at h
    rw [hc] at h
    cases h
  | some c =>
    rw [children_of_cell? hc] at h
    exact ⟨c, rfl, h⟩

def Holds (l : Links) (cells : List Cell) : Prop := ∀ c ∈ cells, l.cell? c.widget.number = some c

namespace Holds

variable {w : Widget} {q : Option Nat} {ts : List (Tree Widget)}

theorem root (h : l.Holds (t.cells q))
    : l.cell? t.value.number = some ⟨t.value, q, t.children.map (·.value.number)⟩ :=
  h _ (t.root_mem_cells q)

theorem child (h : l.Holds ((Tree.node w ts).cells q)) (ht : t ∈ ts)
    : l.Holds (t.cells (some w.number)) :=
  fun c hc => h c (Tree.mem_cells_of_child ht hc)

end Holds

structure Represents (l : Links) (f : Forest) : Prop where
  numbered : f.Numbered
  count_eq : l.count = f.count
  holds : l.Holds f.cells

def Under (l : Links) (n p : Nat) : Prop := l.parent? n = some p

theorem climbs?_eq_some_iff {b : Bool} (h : l.climbs? target steps n = some b)
    : b = true ↔ Relation.ReflTransGen l.Under n target := by
  induction steps generalizing n with
  | zero => cases h
  | succ steps ih =>
    rw [climbs?] at h
    rw [Relation.ReflTransGen.cases_head_iff]
    split at h
    . next hn =>
      cases h
      simp [hn]
    . next hn =>
      split at h
      . next hparent =>
        cases h
        simp [hn, Under, hparent]
      . next p hparent =>
        rw [ih h]
        simp [hn, Under, hparent]

theorem climbs?_add {b : Bool} (h : l.climbs? target steps n = some b) (k : Nat)
    : l.climbs? target (steps + k) n = some b := by
  induction steps generalizing n with
  | zero => cases h
  | succ steps ih =>
    rw [climbs?] at h
    rw [Nat.add_right_comm, climbs?]
    split
    . next hn =>
      rw [if_pos hn] at h
      exact h
    . next hn =>
      rw [if_neg hn] at h
      split
      . next hparent =>
        rw [hparent] at h
        exact h
      . next p hparent =>
        rw [hparent] at h
        exact ih h

theorem climbs?_eq_none_of_transGen (htarget : l.cell? target = none)
    (h : Relation.TransGen l.Under n n) (steps : Nat) : l.climbs? target steps n = none := by
  induction steps generalizing n with
  | zero => rfl
  | succ steps ih =>
    rcases Relation.TransGen.head'_iff.1 h with ⟨p, hp, hback⟩
    have hne : n ≠ target := by
      intro heq
      rcases exists_cell_of_parent? hp with ⟨c, hc, _⟩
      rw [heq, htarget] at hc
      cases hc
    rw [climbs?, if_neg hne, hp]
    exact ih (Relation.TransGen.tail' hback hp)

namespace Represents

theorem empty : ({} : Links).Represents {} where
  numbered := Forest.numbered_empty
  count_eq := rfl
  holds _ hc := by cases hc

theorem cell?_eq_some_iff (h : l.Represents f)
    : l.cell? n = some c ↔ c ∈ f.cells ∧ c.widget.number = n := by
  constructor
  . intro hc
    have hn := lt_count_of_cell? hc
    rw [h.count_eq, ← List.mem_range, ← h.numbered.mem_iff, ← f.map_widget_cells] at hn
    simp only [List.mem_map, exists_exists_and_eq_and] at hn
    rcases hn with ⟨d, hd, hnumber⟩
    have hcell := h.holds d hd
    rw [hnumber, hc] at hcell
    cases hcell
    exact ⟨hd, hnumber⟩
  . intro hc
    rcases hc with ⟨hmem, hnumber⟩
    rw [← hnumber]
    exact h.holds c hmem

theorem exists_cells_of_subtree? (h : l.Represents f) (ht : f.subtree? n = some t)
    : ∃ q, l.Holds (t.cells q) := by
  rcases Forest.exists_cells_modify (h.numbered.countP_le_one n) ht
    with ⟨q, left, right, hcells, _⟩
  refine ⟨q, ?_⟩
  intro c hc
  apply h.holds
  rw [hcells]
  simp [hc]

theorem exists_cell?_of_subtree? (h : l.Represents f) (ht : f.subtree? n = some t)
    : ∃ q, l.cell? n = some ⟨t.value, q, t.children.map (·.value.number)⟩ := by
  rcases h.exists_cells_of_subtree? ht with ⟨q, hcells⟩
  rw [← Forest.number_of_subtree? ht]
  exact ⟨q, hcells.root⟩

theorem subtree?_eq_none_iff (h : l.Represents f) : f.subtree? n = none ↔ l.cell? n = none := by
  constructor
  . intro hnone
    cases hc : l.cell? n with
    | none => rfl
    | some c =>
      rcases h.cell?_eq_some_iff.1 hc with ⟨hmem, hnumber⟩
      have hw : c.widget ∈ f.widgets := by
        rw [← f.map_widget_cells]
        exact List.mem_map_of_mem hmem
      exact absurd hnumber (Forest.subtree?_eq_none_iff.1 hnone _ hw)
  . intro hnone
    cases ht : f.subtree? n with
    | none => rfl
    | some t =>
      rcases h.exists_cell?_of_subtree? ht with ⟨q, hc⟩
      rw [hnone] at hc
      cases hc

theorem widget?_eq (h : l.Represents f) (n : Nat) : l.widget? n = f.widget? n := by
  unfold Forest.widget?
  cases ht : f.subtree? n with
  | none => exact congrArg (Option.map Cell.widget) (h.subtree?_eq_none_iff.1 ht)
  | some t =>
    rcases h.exists_cell?_of_subtree? ht with ⟨q, hc⟩
    exact widget?_of_cell? hc

theorem children_eq (h : l.Represents f) (n : Nat) : l.children n = f.children n := by
  unfold Forest.children
  cases ht : f.subtree? n with
  | none => exact congrArg (Option.elim · [] Cell.children) (h.subtree?_eq_none_iff.1 ht)
  | some t =>
    rcases h.exists_cell?_of_subtree? ht with ⟨q, hc⟩
    exact children_of_cell? hc

theorem mem_children_iff (h : l.Represents f) : m ∈ l.children n ↔ l.parent? m = some n := by
  constructor
  . intro hm
    rcases exists_cell_of_mem_children hm with ⟨c, hc, hm⟩
    rcases h.cell?_eq_some_iff.1 hc with ⟨hmem, hnumber⟩
    rcases List.mem_flatMap.1 hmem with ⟨t, ht, hmem⟩
    rcases Tree.exists_child_cell hmem hm with ⟨d, hd, hdm, hparent⟩
    have hcell := h.holds d (List.mem_flatMap.2 ⟨t, ht, hd⟩)
    rw [← hdm, parent?_of_cell? hcell, ← hnumber]
    exact hparent
  . intro hn
    rcases exists_cell_of_parent? hn with ⟨c, hc, hparent⟩
    rcases h.cell?_eq_some_iff.1 hc with ⟨hmem, hnumber⟩
    rcases List.mem_flatMap.1 hmem with ⟨t, ht, hmem⟩
    rcases Tree.exists_parent_cell hmem with hroot | ⟨p, hp, hlink, hchild⟩
    . rw [hroot] at hparent
      cases hparent
    . have hcell := h.holds p (List.mem_flatMap.2 ⟨t, ht, hp⟩)
      rw [hlink, Option.some.injEq] at hparent
      rw [hparent] at hcell
      rw [children_of_cell? hcell, ← hnumber]
      exact hchild

theorem nodup_children (h : l.Represents f) (n : Nat) : (l.children n).Nodup := by
  cases hc : l.cell? n with
  | none =>
    unfold children
    rw [hc]
    exact List.nodup_nil
  | some c =>
    rw [children_of_cell? hc]
    rcases List.mem_flatMap.1 (h.cell?_eq_some_iff.1 hc).1 with ⟨t, ht, hmem⟩
    have hsublist := (Tree.children_sublist hmem).trans ((Tree.toList_sublist ht).map _)
    exact h.numbered.nodup.sublist hsublist

theorem parent?_eq (h : l.Represents f) (n : Nat) : l.parent? n = f.parent? n := by
  unfold Forest.parent?
  cases hfound : f.trees.findSome? (Tree.find? (·.children.any (Forest.isNumber n))) with
  | none =>
    cases hp : l.parent? n with
    | none => rfl
    | some p =>
      rcases exists_cell_of_mem_children (h.mem_children_iff.2 hp) with ⟨c, hc, hchild⟩
      rcases List.mem_flatMap.1 (h.cell?_eq_some_iff.1 hc).1 with ⟨t, ht, hmem⟩
      have hsome := Tree.isSome_find?_of_mem_children hmem hchild
      rw [List.findSome?_eq_none_iff.1 hfound t ht] at hsome
      cases hsome
  | some s =>
    rcases List.exists_of_findSome?_eq_some hfound with ⟨t, ht, hs⟩
    rcases Tree.exists_cell_of_find? (q := none) hs with ⟨q, hmem⟩
    have hcell := h.holds _ (List.mem_flatMap.2 ⟨t, ht, hmem⟩)
    rw [Option.map_some, ← h.mem_children_iff, children_of_cell? hcell]
    rcases List.any_eq_true.1 (Tree.find?_some hs) with ⟨u, hu, hnumber⟩
    exact List.mem_map.2 ⟨u, hu, by simpa [Forest.isNumber] using hnumber⟩

theorem exists_climbs?_root {q : Option Nat} (hparent : l.parent? n = q) {k : Nat}
    (hk : ∀ p, q = some p → ∃ b, l.climbs? target k p = some b) (j : Nat)
    : ∃ b, l.climbs? target (k + j + 1) n = some b := by
  rw [climbs?, hparent]
  split
  . exact ⟨true, rfl⟩
  . cases q with
    | none => exact ⟨false, rfl⟩
    | some p =>
      rcases hk p rfl with ⟨b, hb⟩
      exact ⟨b, climbs?_add hb j⟩

theorem exists_climbs?_of_mem_cells {q : Option Nat}
    (hcells : l.Holds (t.cells q)) {k : Nat}
    (hk : ∀ p, q = some p → ∃ b, l.climbs? target k p = some b) (hc : c ∈ t.cells q)
    : ∃ b, l.climbs? target (t.toList.length + k) c.widget.number = some b := by
  induction t generalizing q k with
  | node w ts ih =>
    have hparent : l.parent? w.number = q := parent?_of_cell? hcells.root
    rw [Tree.toList_node, List.length_cons]
    rcases Tree.mem_cells_node_iff.1 hc with hc | ⟨t, ht, hc⟩
    . rw [hc, Nat.add_right_comm, Nat.add_comm _ k]
      exact exists_climbs?_root hparent hk _
    . have hlength := (Tree.toList_sublist ht).length_le
      rcases Nat.exists_eq_add_of_le hlength with ⟨j, hj⟩
      have hsteps : (ts.flatMap Tree.toList).length + 1 + k = t.toList.length + (k + j + 1) := by
        omega
      rw [hsteps]
      apply ih t ht (hcells.child ht) _ hc
      intro p hp
      cases hp
      exact exists_climbs?_root hparent hk j

theorem length_widgets (h : l.Represents f) : f.widgets.length = l.count := by
  rw [h.count_eq]
  have hlength := h.numbered.length_eq
  rw [List.length_map, List.length_range] at hlength
  exact hlength

theorem exists_climbs? (h : l.Represents f) (hn : n < l.count) (target : Nat)
    : ∃ b, l.climbs? target l.count n = some b := by
  rcases exists_cell hn with ⟨c, hc⟩
  rcases h.cell?_eq_some_iff.1 hc with ⟨hmem, hnumber⟩
  rcases List.mem_flatMap.1 hmem with ⟨t, ht, hmem⟩
  have hcells : l.Holds (t.cells none) := fun c hc => h.holds c (List.mem_flatMap.2 ⟨t, ht, hc⟩)
  have hlength : t.toList.length ≤ l.count := by
    rw [← h.length_widgets]
    exact (Tree.toList_sublist ht).length_le
  rcases Nat.exists_eq_add_of_le hlength with ⟨k, hk⟩
  rw [hk, ← hnumber]
  apply exists_climbs?_of_mem_cells hcells _ hmem
  intro p hp
  cases hp

theorem acyclic (h : l.Represents f) (n : Nat) : ¬ Relation.TransGen l.Under n n := by
  intro hcircle
  rcases Relation.TransGen.head'_iff.1 hcircle with ⟨p, hp, _⟩
  rcases exists_cell_of_parent? hp with ⟨c, hc, _⟩
  rcases h.exists_climbs? (lt_count_of_cell? hc) l.count with ⟨b, hb⟩
  have hnone : l.cell? l.count = none := by
    unfold cell? count
    simp
  rw [climbs?_eq_none_of_transGen hnone hcircle] at hb
  cases hb

theorem reaches_iff (h : l.Represents f) (ht : f.subtree? n = some t)
    : Relation.ReflTransGen l.Under m n ↔ ∃ w ∈ t.toList, w.number = m := by
  rcases h.exists_cells_of_subtree? ht with ⟨q, hcells⟩
  have hnumber := Forest.number_of_subtree? ht
  constructor
  . intro hup
    induction hup using Relation.ReflTransGen.head_induction_on with
    | refl => exact ⟨t.value, Tree.value_mem_toList t, hnumber⟩
    | head hparent _ ih =>
      rcases ih with ⟨w, hw, hp⟩
      rw [← t.map_widget_cells q] at hw ⊢
      rcases List.mem_map.1 hw with ⟨c, hc, hwidget⟩
      have hcell := hcells c hc
      rw [hwidget, hp] at hcell
      have hchild := h.mem_children_iff.2 hparent
      rw [children_of_cell? hcell] at hchild
      rcases Tree.exists_child_cell hc hchild with ⟨d, hd, hdn, _⟩
      exact ⟨d.widget, List.mem_map_of_mem hd, hdn⟩
  . intro hmem
    rcases hmem with ⟨w, hw, hm⟩
    rw [← hm, ← hnumber]
    clear hnumber ht
    induction t generalizing q with
    | node v ts ih =>
      rw [Tree.toList_node] at hw
      rcases List.mem_cons.1 hw with hw | hw
      . rw [hw]
        exact Relation.ReflTransGen.refl
      . rcases List.mem_flatMap.1 hw with ⟨t, ht, hw⟩
        exact (ih t ht _ (hcells.child ht) hw).tail (parent?_of_cell? (hcells.child ht).root)

end Represents

end TreeStyle.Links
