import Mathlib.Data.List.Flatten
import TreeStyle.Proofs.Links.Walk

/-!
This module contains the order in which a walk along the links comes to the widgets: every widget
before those below it, and what is below one child before what is below the next one.
-/

namespace TreeStyle.Links

variable {l : Links} {f : Forest} {n m p a b a' b' : Nat} {ns : List Nat} {t u : Tree Widget}

def Precedes (ns : List Nat) (a b : Nat) : Prop := [a, b].Sublist ns

structure WalkOrder (l : Links) (n : Nat) (ns : List Nat) : Prop where
  nodup : ns.Nodup
  mem_iff : ∀ m, m ∈ ns ↔ (l.widget? m).isSome = true ∧ Relation.ReflTransGen l.Under m n
  above : ∀ a b, a ∈ ns → Relation.TransGen l.Under b a → Precedes ns a b
  beside : ∀ p a b, p ∈ ns → Precedes (l.children p) a b → ∀ a' b',
    Relation.ReflTransGen l.Under a' a → Relation.ReflTransGen l.Under b' b → Precedes ns a' b'

theorem Precedes.sublist_flatMap (h : Precedes ns a b) (g : Nat → List Nat)
    : (g a ++ g b).Sublist (ns.flatMap g) := by
  have hsublist := List.Sublist.flatMap h g
  simpa using hsublist

theorem isSome_widget?_of_parent? (h : l.parent? n = some p) : (l.widget? n).isSome = true := by
  rcases exists_cell_of_parent? h with ⟨c, hc, _⟩
  rw [widget?_of_cell? hc]
  rfl

theorem isSome_widget?_of_mem_children (h : m ∈ l.children n) : (l.widget? n).isSome = true := by
  rcases exists_cell_of_mem_children h with ⟨c, hc, _⟩
  rw [widget?_of_cell? hc]
  rfl

theorem isSome_widget?_of_reaches (hn : (l.widget? n).isSome = true)
    (h : Relation.ReflTransGen l.Under m n) : (l.widget? m).isSome = true := by
  rcases Relation.ReflTransGen.cases_head h with heq | ⟨p, hp, _⟩
  . rw [heq]
    exact hn
  . exact isSome_widget?_of_parent? hp

namespace Represents

theorem traverse_child (h : l.Represents f) (ht : f.subtree? n = some t) (hu : u ∈ t.children)
    : f.traverse u.value.number = u.toList.map (·.number) := by
  rcases h.exists_cells_of_subtree? ht with ⟨q, hcells⟩
  have hnodup := h.nodup_toList ht
  have hlength := h.length_toList_le ht
  have hsublist : u.toList.Sublist t.toList := by
    rw [Tree.toList_eq_cons t]
    exact (Tree.toList_sublist hu).cons _
  have hchild : l.Holds (u.cells (some t.value.number)) := by
    cases t with
    | node w ts => exact hcells.child hu
  have hwalk := traverse?_of_holds (hnodup.sublist (hsublist.map _)) hchild
    (Nat.le_trans hsublist.length_le hlength)
  rw [h.traverse?_eq, Option.some.injEq] at hwalk
  exact hwalk

theorem traverse_eq_cons (h : l.Represents f) (hn : (l.widget? n).isSome = true)
    : f.traverse n = n :: (l.children n).flatMap f.traverse := by
  rw [h.widget?_eq] at hn
  unfold Forest.widget? at hn
  rw [h.children_eq]
  cases ht : f.subtree? n with
  | none =>
    rw [ht] at hn
    cases hn
  | some t =>
    have htraverse : f.traverse n = t.toList.map (·.number) := by
      unfold Forest.traverse
      rw [ht]
    have hchildren : f.children n = t.children.map (·.value.number) := by
      unfold Forest.children
      rw [ht]
    rw [htraverse, hchildren, Tree.toList_eq_cons, List.map_cons, Forest.number_of_subtree? ht,
      List.map_flatMap, List.flatMap_map]
    congr 1
    apply List.flatMap_congr
    intro u hu
    exact (h.traverse_child ht hu).symm

theorem isSome_widget?_iff (h : l.Represents f)
    : (l.widget? n).isSome = true ↔ ∃ t, f.subtree? n = some t := by
  rw [h.widget?_eq]
  unfold Forest.widget?
  rw [Option.isSome_map, Option.isSome_iff_exists]

theorem mem_traverse_iff (h : l.Represents f)
    : m ∈ f.traverse n ↔ (l.widget? m).isSome = true ∧ Relation.ReflTransGen l.Under m n := by
  unfold Forest.traverse
  cases ht : f.subtree? n with
  | some t =>
    have hn := h.isSome_widget?_iff.2 ⟨t, ht⟩
    rw [h.reaches_iff ht]
    dsimp only
    rw [List.mem_map, iff_and_self, ← h.reaches_iff ht]
    exact isSome_widget?_of_reaches hn
  | none =>
    constructor
    . intro hm
      cases hm
    . intro hm
      rcases hm with ⟨hm, hreaches⟩
      have hn : (l.widget? n).isSome = true := by
        rcases Relation.ReflTransGen.cases_tail hreaches with heq | ⟨c, _, hc⟩
        . rw [heq]
          exact hm
        . exact isSome_widget?_of_mem_children (h.mem_children_iff.2 hc)
      rcases h.isSome_widget?_iff.1 hn with ⟨t, ht'⟩
      rw [ht] at ht'
      cases ht'

theorem isSome_of_mem_children (h : l.Represents f) (ha : a ∈ l.children p)
    : (l.widget? a).isSome = true := isSome_widget?_of_parent? (h.mem_children_iff.1 ha)

theorem traverse_sublist (h : l.Represents f) (hreaches : Relation.ReflTransGen l.Under a n)
    : (f.traverse a).Sublist (f.traverse n) := by
  induction hreaches with
  | refl => exact List.Sublist.refl _
  | @tail b c _ hb ih =>
    have hchild := h.mem_children_iff.2 hb
    have hbelow : (f.traverse b).Sublist ((l.children c).flatMap f.traverse) := by
      rw [List.flatMap_def]
      exact List.sublist_flatten_of_mem (List.mem_map_of_mem hchild)
    rw [h.traverse_eq_cons (isSome_widget?_of_mem_children hchild)]
    exact ih.trans (hbelow.cons c)

theorem precedes_of_above (h : l.Represents f) (ha : a ∈ f.traverse n)
    (hbelow : Relation.TransGen l.Under b a) : Precedes (f.traverse n) a b := by
  rcases h.mem_traverse_iff.1 ha with ⟨hsome, hreaches⟩
  rcases Relation.TransGen.tail'_iff.1 hbelow with ⟨c, hbc, hc⟩
  have hchild := h.mem_children_iff.2 hc
  have hb : b ∈ (l.children a).flatMap f.traverse := by
    have hsome := isSome_widget?_of_reaches (h.isSome_of_mem_children hchild) hbc
    exact List.mem_flatMap.2 ⟨c, hchild, h.mem_traverse_iff.2 ⟨hsome, hbc⟩⟩
  have hfirst : Precedes (f.traverse a) a b := by
    rw [h.traverse_eq_cons hsome]
    exact (List.singleton_sublist.2 hb).cons_cons a
  exact hfirst.trans (h.traverse_sublist hreaches)

theorem precedes_of_beside (h : l.Represents f) (hp : p ∈ f.traverse n)
    (hbeside : Precedes (l.children p) a b) (ha : Relation.ReflTransGen l.Under a' a)
    (hb : Relation.ReflTransGen l.Under b' b) : Precedes (f.traverse n) a' b' := by
  rcases h.mem_traverse_iff.1 hp with ⟨hsome, hreaches⟩
  have hmem : ∀ c c', c ∈ l.children p → Relation.ReflTransGen l.Under c' c →
      c' ∈ f.traverse c := by
    intro c c' hc hc'
    have hsome := isSome_widget?_of_reaches (h.isSome_of_mem_children hc) hc'
    exact h.mem_traverse_iff.2 ⟨hsome, hc'⟩
  have ha' := hmem a a' (hbeside.subset (by simp)) ha
  have hb' := hmem b b' (hbeside.subset (by simp)) hb
  have hboth : Precedes (f.traverse a ++ f.traverse b) a' b' :=
    (List.singleton_sublist.2 ha').append (List.singleton_sublist.2 hb')
  have hchildren : Precedes (f.traverse p) a' b' := by
    rw [h.traverse_eq_cons hsome]
    exact (hboth.trans (hbeside.sublist_flatMap _)).cons p
  exact hchildren.trans (h.traverse_sublist hreaches)

theorem walkOrder (h : l.Represents f) (n : Nat) : l.WalkOrder n (f.traverse n) where
  nodup := by
    unfold Forest.traverse
    cases ht : f.subtree? n with
    | none => exact List.nodup_nil
    | some t => exact h.nodup_toList ht
  mem_iff _ := h.mem_traverse_iff
  above _ _ ha hbelow := h.precedes_of_above ha hbelow
  beside _ _ _ hp hbeside _ _ ha hb := h.precedes_of_beside hp hbeside ha hb

end Represents

end TreeStyle.Links
