import Mathlib.Data.List.Basic
import TreeStyle.Tree

/-!
This module contains what finding and replacing a subtree have to do with each other. Where at most
one value has the property that is looked for, both mean the same subtree, and all around it stays.
-/

namespace TreeStyle.Tree

variable {α β σ : Type} {p : α → Bool} {t s : Tree α} {ts : List (Tree α)}

theorem value_mem_toList (t : Tree α) : t.value ∈ t.toList := by
  cases t with
  | node a ts => simp [toList_node, value]

theorem toList_eq_cons (t : Tree α) : t.toList = t.value :: t.children.flatMap toList := by
  cases t with
  | node a ts => simp [toList_node, value, children]

theorem find?_eq_none_iff
    : t.find? (fun t => p t.value) = none ↔ ∀ a ∈ t.toList, p a = false := by
  induction t with
  | node a ts ih =>
    rw [find?_node, toList_node]
    split
    . next h =>
      constructor
      . intro hnone
        cases hnone
      . intro hall
        have := hall a List.mem_cons_self
        rw [value, this] at h
        cases h
    . next h =>
      rw [List.findSome?_eq_none_iff]
      constructor
      . intro hnone b hb
        rcases List.mem_cons.1 hb with hb | hb
        . rw [hb]
          simpa [value] using h
        . rcases List.mem_flatMap.1 hb with ⟨t, ht, hb⟩
          exact (ih t ht).1 (hnone t ht) b hb
      . intro hall t ht
        rw [ih t ht]
        intro b hb
        apply hall
        apply List.mem_cons_of_mem
        exact List.mem_flatMap.2 ⟨t, ht, hb⟩

theorem find?_some {q : Tree α → Bool} (h : t.find? q = some s) : q s = true := by
  induction t with
  | node a ts ih =>
    rw [find?_node] at h
    split at h
    . next hq =>
      cases h
      exact hq
    . rcases List.exists_of_findSome?_eq_some h with ⟨t, ht, h⟩
      exact ih t ht h

theorem toList_subset_of_find? {q : Tree α → Bool} (h : t.find? q = some s)
    : s.toList ⊆ t.toList := by
  induction t with
  | node a ts ih =>
    rw [find?_node] at h
    split at h
    . cases h
      apply List.Subset.refl
    . rcases List.exists_of_findSome?_eq_some h with ⟨t, ht, h⟩
      intro b hb
      rw [toList_node]
      apply List.mem_cons_of_mem
      exact List.mem_flatMap.2 ⟨t, ht, ih t ht h hb⟩

theorem map_value_find? (p : α → Bool) (t : Tree α)
    : (t.find? fun t => p t.value).map value = t.toList.find? p := by
  induction t with
  | node a ts ih =>
    rw [find?_node, toList_node, List.find?_cons]
    by_cases ha : p a = true
    . rw [if_pos (by exact ha), ha]
      rfl
    . rw [Bool.not_eq_true] at ha
      rw [if_neg (by simp [value, ha]), ha, List.find?_flatMap, List.map_findSome?,
        ← List.head?_filterMap, ← List.head?_filterMap]
      congr 1
      apply List.filterMap_congr
      intro t ht
      exact ih t ht

theorem find?_map {q : Tree β → Bool} (f : α → β) (t : Tree α)
    : (t.map f).find? q = (t.find? fun t => q (t.map f)).map (map f) := by
  induction t with
  | node a ts ih =>
    rw [map_node, find?_node, find?_node, map_node]
    split
    . simp [map_node]
    . rw [List.findSome?_map, List.map_findSome?, ← List.head?_filterMap, ← List.head?_filterMap]
      congr 1
      apply List.filterMap_congr
      intro t ht
      exact ih t ht

@[simp]
theorem value_map (f : α → β) (t : Tree α) : (t.map f).value = f t.value := by
  cases t with
  | node a ts =>
    rw [map_node]
    rfl

theorem toList_map (f : α → β) (t : Tree α) : (t.map f).toList = t.toList.map f := by
  induction t with
  | node a ts ih =>
    rw [map_node, toList_node, toList_node, List.map_cons, List.flatMap_map, List.map_flatMap]
    congr 1
    exact List.flatMap_congr ih

theorem map_mapDown {γ : Type} {f : σ → α → β × σ} {g : β → γ} {h : α → γ}
    (hf : ∀ s a, g (f s a).1 = h a) (s : σ) (t : Tree α) : (mapDown f s t).map g = t.map h := by
  induction t generalizing s with
  | node a ts ih =>
    rw [mapDown_node, map_node, map_node, hf, List.map_map]
    congr 1
    apply List.map_congr_left
    intro t ht
    exact ih t ht _

theorem map_mapDown_congr {γ δ : Type} {f : σ → α → β × σ} {f' : σ → α → γ × σ} {g : β → δ}
    {g' : γ → δ} (hvalue : ∀ s a, g (f s a).1 = g' (f' s a).1)
    (hpassed : ∀ s a, (f s a).2 = (f' s a).2) (s : σ) (t : Tree α)
    : (mapDown f s t).map g = (mapDown f' s t).map g' := by
  induction t generalizing s with
  | node a ts ih =>
    rw [mapDown_node, mapDown_node, map_node, map_node, hvalue, hpassed, List.map_map, List.map_map]
    congr 1
    apply List.map_congr_left
    intro t ht
    exact ih t ht _

theorem mapDown_map {γ : Type} (f : σ → β → γ × σ) (g : α → β) (s : σ) (t : Tree α)
    : mapDown f s (t.map g) = mapDown (fun s a => f s (g a)) s t := by
  induction t generalizing s with
  | node a ts ih =>
    rw [map_node, mapDown_node, mapDown_node, List.map_map]
    congr 1
    apply List.map_congr_left
    intro t ht
    exact ih t ht _

theorem map_map {γ : Type} (f : α → β) (g : β → γ) (t : Tree α)
    : (t.map f).map g = t.map fun a => g (f a) := by
  rw [map]
  apply map_mapDown
  intro s a
  rfl

theorem exists_mem_mapDown (f : σ → α → β × σ) (s : σ) {a : α} (ha : a ∈ t.toList)
    : ∃ s', (f s' a).1 ∈ (mapDown f s t).toList := by
  induction t generalizing s with
  | node b ts ih =>
    rw [mapDown_node, toList_node]
    rw [toList_node] at ha
    rcases List.mem_cons.1 ha with ha | ha
    . refine ⟨s, ?_⟩
      rw [ha]
      apply List.mem_cons_self
    . rcases List.mem_flatMap.1 ha with ⟨t, ht, ha⟩
      rcases ih t ht (f s b).2 ha with ⟨s', hs'⟩
      refine ⟨s', ?_⟩
      apply List.mem_cons_of_mem
      exact List.mem_flatMap.2 ⟨_, List.mem_map_of_mem ht, hs'⟩

theorem exists_mem_of_mem_mapDown (f : σ → α → β × σ) (s : σ) {b : β}
    (hb : b ∈ (mapDown f s t).toList) : ∃ s' a, a ∈ t.toList ∧ b = (f s' a).1 := by
  induction t generalizing s with
  | node a ts ih =>
    rw [mapDown_node, toList_node] at hb
    rw [toList_node]
    rcases List.mem_cons.1 hb with hb | hb
    . exact ⟨s, a, List.mem_cons_self, hb⟩
    . rw [List.flatMap_map] at hb
      rcases List.mem_flatMap.1 hb with ⟨t, ht, hb⟩
      rcases ih t ht _ hb with ⟨s', a', ha', heq⟩
      exact ⟨s', a', List.mem_cons_of_mem _ (List.mem_flatMap.2 ⟨t, ht, ha'⟩), heq⟩

theorem find?_modify {g : Tree α → Tree α} (hg : ∀ t, p t.value = true → p (g t).value = true)
    (t : Tree α)
    : (t.modify p g).find? (fun t => p t.value) = (t.find? fun t => p t.value).map g := by
  have hroot : ∀ t : Tree α, p t.value = true → t.find? (fun t => p t.value) = some t := by
    intro t ht
    cases t with
    | node a ts => rw [find?_node, if_pos ht]
  induction t with
  | node a ts ih =>
    rw [modify_node]
    split
    . next ha =>
      rw [hroot _ (hg (node a ts) ha), hroot (node a ts) ha, Option.map_some]
    . next ha =>
      rw [find?_node, find?_node, if_neg (by simpa [value] using ha),
        if_neg (by simpa [value] using ha), List.findSome?_map, List.map_findSome?,
        ← List.head?_filterMap, ← List.head?_filterMap]
      congr 1
      apply List.filterMap_congr
      intro t ht
      exact ih t ht

theorem modify_of_forall {g : Tree α → Tree α} (h : ∀ a ∈ t.toList, p a = false)
    : t.modify p g = t := by
  induction t with
  | node a ts ih =>
    rw [toList_node] at h
    rw [modify_node, if_neg (by simp [h a List.mem_cons_self])]
    congr 1
    conv => rhs; rw [← List.map_id ts]
    apply List.map_congr_left
    intro t ht
    apply ih t ht
    intro b hb
    apply h
    apply List.mem_cons_of_mem
    exact List.mem_flatMap.2 ⟨t, ht, hb⟩

theorem map_modify_of_forall {g : Tree α → Tree α} (h : ∀ a ∈ ts.flatMap toList, p a = false)
    : ts.map (modify p g) = ts := by
  conv => rhs; rw [← List.map_id ts]
  apply List.map_congr_left
  intro t ht
  apply modify_of_forall
  intro b hb
  exact h b (List.mem_flatMap.2 ⟨t, ht, hb⟩)

theorem modify_id (t : Tree α) : t.modify p id = t := by
  induction t with
  | node a ts ih =>
    rw [modify_node]
    split
    . rfl
    . congr 1
      conv => rhs; rw [← List.map_id ts]
      apply List.map_congr_left
      intro t ht
      exact ih t ht

theorem map_modify {h : α → β} {g : Tree α → Tree α} (hg : ∀ t, (g t).map h = t.map h)
    (t : Tree α) : (t.modify p g).map h = t.map h := by
  induction t with
  | node a ts ih =>
    rw [modify_node]
    split
    . apply hg
    . rw [map_node, map_node, List.map_map]
      congr 1
      apply List.map_congr_left
      intro t ht
      exact ih t ht

inductive Context (α : Type) where
  | hole
  | under (a : α) (c : Context α)
  | between (before : List (Tree α)) (c : Context α) (after : List (Tree α))

namespace Context

def fill : Context α → Tree α → List (Tree α)
  | hole, t => [t]
  | under a c, t => [.node a (c.fill t)]
  | between before c after, t => before ++ c.fill t ++ after

def left : Context α → List α
  | hole => []
  | under a c => a :: c.left
  | between before c _ => before.flatMap toList ++ c.left

def right : Context α → List α
  | hole => []
  | under _ c => c.right
  | between _ c after => c.right ++ after.flatMap toList

theorem toList_fill (c : Context α) (t : Tree α)
    : (c.fill t).flatMap toList = c.left ++ t.toList ++ c.right := by
  induction c with
  | hole => simp [fill, left, right]
  | under a c ih => simp [fill, left, right, toList_node, ih]
  | between before c after ih => simp [fill, left, right, ih]

/--
The context keeps what surrounds the subtree `s` of `ts` while that is replaced.
-/
def Surrounds (c : Context α) (p : α → Bool) (ts : List (Tree α)) (s : Tree α) : Prop :=
  ∀ g, ts.map (modify p g) = c.fill (g s)

theorem Surrounds.fill_eq {c : Context α} (h : c.Surrounds p ts s) : c.fill s = ts := by
  have hid := h id
  rw [List.map_id'' modify_id] at hid
  exact hid.symm

end Context

theorem countP_pos_of_find? (h : t.find? (fun t => p t.value) = some s)
    : 0 < t.toList.countP p := by
  apply List.countP_pos_iff.2
  exact ⟨s.value, toList_subset_of_find? h (value_mem_toList s), find?_some h⟩

theorem exists_context_of_mem
    (ih : ∀ t ∈ ts, t.toList.countP p ≤ 1 → t.find? (fun t => p t.value) = some s →
      ∃ c : Context α, c.Surrounds p [t] s)
    (hone : (ts.flatMap toList).countP p ≤ 1)
    (hfind : ts.findSome? (find? fun t => p t.value) = some s)
    : ∃ c : Context α, c.Surrounds p ts s := by
  induction ts with
  | nil => cases hfind
  | cons t ts ihs =>
    rw [List.flatMap_cons, List.countP_append] at hone
    rw [List.findSome?_cons] at hfind
    cases ht : t.find? (fun t => p t.value) with
    | none =>
      rw [ht] at hfind
      have hts : ∀ t ∈ ts, t.toList.countP p ≤ 1 → t.find? (fun t => p t.value) = some s →
          ∃ c : Context α, c.Surrounds p [t] s := by
        intro t' ht'
        exact ih t' (List.mem_cons_of_mem _ ht')
      rcases ihs hts (by omega) hfind with ⟨c, hc⟩
      refine ⟨.between [t] c [], ?_⟩
      intro g
      rw [List.map_cons, hc g, modify_of_forall (find?_eq_none_iff.1 ht)]
      simp [Context.fill]
    | some found =>
      rw [ht] at hfind
      cases hfind
      have hpos := countP_pos_of_find? ht
      rcases ih t List.mem_cons_self (by omega) ht with ⟨c, hc⟩
      -- The one value that is looked for is in `t`, so that the trees behind it stay.
      have hrest : ∀ a ∈ ts.flatMap toList, p a = false := by
        have hzero : (ts.flatMap toList).countP p = 0 := by omega
        simpa [List.countP_eq_zero] using hzero
      refine ⟨.between [] c ts, ?_⟩
      intro g
      rw [List.map_cons, map_modify_of_forall hrest]
      have hsingle := hc g
      rw [List.map_singleton] at hsingle
      simp [Context.fill, ← hsingle]

theorem exists_context (hone : t.toList.countP p ≤ 1)
    (hfind : t.find? (fun t => p t.value) = some s)
    : ∃ c : Context α, c.Surrounds p [t] s := by
  induction t generalizing s with
  | node a ts ih =>
    rw [find?_node] at hfind
    split at hfind
    . next ha =>
      cases hfind
      refine ⟨.hole, ?_⟩
      intro g
      rw [List.map_singleton, modify_node, if_pos (by simpa [value] using ha)]
      rfl
    . next ha =>
      have hrest : (ts.flatMap toList).countP p ≤ 1 := by
        rw [toList_node, List.countP_cons] at hone
        omega
      rcases exists_context_of_mem (fun t ht hone hfind => ih t ht hone hfind) hrest hfind
        with ⟨c, hc⟩
      refine ⟨.under a c, ?_⟩
      intro g
      rw [List.map_singleton, modify_node, if_neg (by simpa [value] using ha), hc g]
      rfl

end TreeStyle.Tree
