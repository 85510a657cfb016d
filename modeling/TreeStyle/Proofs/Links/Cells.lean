import TreeStyle.Proofs.Forest.Numbering
import TreeStyle.Widget.Links

/-!
This module contains the cells of a tree: its widgets, each with the links that it has there. Links
to a child and to a parent come in pairs, and what replaces a subtree replaces its cells.
-/

namespace TreeStyle

namespace Tree

variable {t s : Tree Widget} {ts : List (Tree Widget)} {q : Option Nat} {c : Cell} {n : Nat}

def cells : Option Nat → Tree Widget → List Cell
  | parent?, node w ts => ⟨w, parent?, ts.map (·.value.number)⟩ :: cellsAll (some w.number) ts
where
  cellsAll (parent? : Option Nat) : List (Tree Widget) → List Cell
    | [] => []
    | t :: ts => cells parent? t ++ cellsAll parent? ts

theorem cellsAll_eq (q : Option Nat) (ts : List (Tree Widget))
    : cells.cellsAll q ts = ts.flatMap (cells q) := by
  induction ts with
  | nil => rfl
  | cons t ts ih => simp [cells.cellsAll, ih]

theorem cells_node (q : Option Nat) (w : Widget) (ts : List (Tree Widget))
    : cells q (node w ts)
        = ⟨w, q, ts.map (·.value.number)⟩ :: ts.flatMap (cells (some w.number)) := by
  rw [cells, cellsAll_eq]

theorem cells_eq_cons (q : Option Nat) (t : Tree Widget)
    : t.cells q = ⟨t.value, q, t.children.map (·.value.number)⟩ ::
        t.children.flatMap (cells (some t.value.number)) := by
  cases t with
  | node w ts => exact cells_node q w ts

theorem map_widget_cells (q : Option Nat) (t : Tree Widget)
    : (t.cells q).map (·.widget) = t.toList := by
  induction t generalizing q with
  | node w ts ih =>
    rw [cells_node, toList_node, List.map_cons, List.map_flatMap]
    congr 1
    apply List.flatMap_congr
    intro t ht
    exact ih t ht _

theorem map_number_cells (q : Option Nat) (t : Tree Widget)
    : (t.cells q).map (·.widget.number) = t.toList.map (·.number) := by
  rw [← t.map_widget_cells q, List.map_map]
  rfl

theorem root_mem_cells (q : Option Nat) (t : Tree Widget)
    : ⟨t.value, q, t.children.map (·.value.number)⟩ ∈ t.cells q := by
  rw [cells_eq_cons]
  apply List.mem_cons_self

theorem mem_cells_node_iff {w : Widget}
    : c ∈ (node w ts).cells q ↔
        c = ⟨w, q, ts.map (·.value.number)⟩ ∨ ∃ t ∈ ts, c ∈ t.cells (some w.number) := by
  rw [cells_node, List.mem_cons, List.mem_flatMap]

theorem mem_cells_of_child {w : Widget} (ht : t ∈ ts) (hc : c ∈ t.cells (some w.number))
    : c ∈ (node w ts).cells q := mem_cells_node_iff.2 (Or.inr ⟨t, ht, hc⟩)

theorem exists_parent_cell (hc : c ∈ t.cells q)
    : c = ⟨t.value, q, t.children.map (·.value.number)⟩ ∨
        ∃ p ∈ t.cells q, c.parent? = some p.widget.number ∧ c.widget.number ∈ p.children := by
  induction t generalizing q with
  | node w ts ih =>
    rcases mem_cells_node_iff.1 hc with hc | ⟨t, ht, hc⟩
    . exact Or.inl hc
    . apply Or.inr
      rcases ih t ht hc with hroot | ⟨p, hp, hlinks⟩
      . refine ⟨_, root_mem_cells q _, ?_⟩
        rw [hroot]
        exact ⟨rfl, List.mem_map.2 ⟨t, ht, rfl⟩⟩
      . exact ⟨p, mem_cells_of_child ht hp, hlinks⟩

theorem exists_child_cell (hc : c ∈ t.cells q) (hn : n ∈ c.children)
    : ∃ d ∈ t.cells q, d.widget.number = n ∧ d.parent? = some c.widget.number := by
  induction t generalizing q with
  | node w ts ih =>
    rcases mem_cells_node_iff.1 hc with hc | ⟨t, ht, hc⟩
    . rw [hc] at hn ⊢
      rcases List.mem_map.1 hn with ⟨t, ht, hnumber⟩
      exact ⟨_, mem_cells_of_child ht (root_mem_cells _ t), hnumber, rfl⟩
    . rcases ih t ht hc with ⟨d, hd, hlinks⟩
      exact ⟨d, mem_cells_of_child ht hd, hlinks⟩

theorem toList_sublist (ht : t ∈ ts) : t.toList.Sublist (ts.flatMap toList) := by
  rw [List.flatMap_def]
  exact List.sublist_flatten_of_mem (List.mem_map_of_mem ht)

theorem numbers_sublist (ts : List (Tree Widget))
    : (ts.map (·.value.number)).Sublist ((ts.flatMap toList).map (·.number)) := by
  induction ts with
  | nil => exact List.Sublist.slnil
  | cons t ts ih =>
    rw [List.map_cons, List.flatMap_cons, List.map_append, toList_eq_cons]
    exact (ih.trans (List.sublist_append_right _ _)).cons_cons _

theorem children_sublist (hc : c ∈ t.cells q)
    : c.children.Sublist (t.toList.map (·.number)) := by
  induction t generalizing q with
  | node w ts ih =>
    rw [toList_node, List.map_cons]
    apply List.Sublist.cons
    rcases mem_cells_node_iff.1 hc with hc | ⟨t, ht, hc⟩
    . rw [hc]
      exact numbers_sublist ts
    . exact (ih t ht hc).trans ((toList_sublist ht).map _)

theorem exists_cell_of_find? {p : Tree Widget → Bool} (h : t.find? p = some s)
    : ∃ q', ⟨s.value, q', s.children.map (·.value.number)⟩ ∈ t.cells q := by
  induction t generalizing q with
  | node w ts ih =>
    rw [find?_node] at h
    split at h
    . cases h
      exact ⟨q, root_mem_cells q _⟩
    . rcases List.exists_of_findSome?_eq_some h with ⟨t, ht, h⟩
      rcases ih t ht h with ⟨q', hmem⟩
      exact ⟨q', mem_cells_of_child ht hmem⟩

theorem isSome_find?_of_mem_children (hc : c ∈ t.cells q) (hn : n ∈ c.children)
    : (t.find? (·.children.any (Forest.isNumber n))).isSome = true := by
  induction t generalizing q with
  | node w ts ih =>
    rw [find?_node]
    split
    . rfl
    . next hchildren =>
      rcases mem_cells_node_iff.1 hc with hc | ⟨t, ht, hc⟩
      . rw [hc] at hn
        rcases List.mem_map.1 hn with ⟨t, ht, hnumber⟩
        apply absurd _ hchildren
        apply List.any_eq_true.2
        exact ⟨t, ht, by simpa [Forest.isNumber] using hnumber⟩
      . rw [List.findSome?_isSome_iff]
        exact ⟨t, ht, ih t ht hc⟩

namespace Context

theorem exists_numbers_fill (c : Context Widget) (n : Nat)
    : ∃ numbers, ∀ t, t.value.number = n → (c.fill t).map (·.value.number) = numbers := by
  induction c with
  | hole => exact ⟨[n], fun t ht => by rw [fill, List.map_singleton, ht]⟩
  | under w c ih => exact ⟨[w.number], fun _ _ => rfl⟩
  | between before c after ih =>
    rcases ih with ⟨numbers, hnumbers⟩
    refine ⟨before.map (·.value.number) ++ numbers ++ after.map (·.value.number), ?_⟩
    intro t ht
    rw [fill, List.map_append, List.map_append, hnumbers t ht]

theorem exists_cells_fill (c : Context Widget) (n : Nat) (q : Option Nat)
    : ∃ q' left right, ∀ t, t.value.number = n →
        (c.fill t).flatMap (cells q) = left ++ t.cells q' ++ right := by
  induction c generalizing q with
  | hole => exact ⟨q, [], [], fun t _ => by simp [fill]⟩
  | under w c ih =>
    -- The cell of the parent tells the number of the root, and nothing else about the subtree.
    rcases c.exists_numbers_fill n with ⟨numbers, hnumbers⟩
    rcases ih (some w.number) with ⟨q', left, right, hcells⟩
    refine ⟨q', ⟨w, q, numbers⟩ :: left, right, ?_⟩
    intro t ht
    simp [fill, cells_node, hnumbers t ht, hcells t ht]
  | between before c after ih =>
    rcases ih q with ⟨q', left, right, hcells⟩
    refine ⟨q', before.flatMap (cells q) ++ left, right ++ after.flatMap (cells q), ?_⟩
    intro t ht
    simp [fill, hcells t ht]

end Context

end Tree

namespace Forest

variable {f : Forest} {n : Nat} {t : Tree Widget}

def cells (f : Forest) : List Cell := f.trees.flatMap (Tree.cells none)

theorem map_widget_cells (f : Forest) : f.cells.map (·.widget) = f.widgets := by
  unfold cells widgets
  rw [List.map_flatMap]
  exact List.flatMap_congr fun t _ => t.map_widget_cells none

theorem map_number_cells (f : Forest)
    : f.cells.map (·.widget.number) = f.widgets.map (·.number) := by
  rw [← f.map_widget_cells, List.map_map]
  rfl

theorem exists_cells_modify (hone : f.widgets.countP (·.number == n) ≤ 1)
    (h : f.subtree? n = some t)
    : ∃ q left right, f.cells = left ++ t.cells q ++ right ∧
        ∀ change : Tree Widget → Tree Widget, (change t).value.number = n →
          (f.modify n change).cells = left ++ (change t).cells q ++ right := by
  rcases exists_context hone h with ⟨c, hc⟩
  rcases c.exists_cells_fill n none with ⟨q, left, right, hcells⟩
  refine ⟨q, left, right, ?_, ?_⟩
  . unfold cells
    rw [← hc.fill_eq, hcells t (number_of_subtree? h)]
  . intro change hchange
    unfold cells modify
    dsimp only
    rw [hc change, hcells (change t) hchange]

end Forest

end TreeStyle
