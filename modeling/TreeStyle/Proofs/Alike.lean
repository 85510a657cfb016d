import Mathlib.Data.List.Forall2
import TreeStyle.Proofs.Subtree

/-!
This module contains trees of the same shape whose values correspond to each other node by node.
Walks that keep in step make such trees of such trees.
-/

namespace TreeStyle.Tree

variable {α β γ δ σ τ : Type}

def Alike (r : α → β → Prop) : Tree α → Tree β → Prop
  | node a ts, node b us => r a b ∧ alikeAll ts us
where
  alikeAll : List (Tree α) → List (Tree β) → Prop
    | [], [] => True
    | t :: ts, u :: us => Alike r t u ∧ alikeAll ts us
    | _, _ => False

variable {r : α → β → Prop} {t : Tree α} {u : Tree β}

theorem alikeAll_iff {ts : List (Tree α)} {us : List (Tree β)}
    : Alike.alikeAll r ts us ↔ List.Forall₂ (Alike r) ts us := by
  induction ts generalizing us with
  | nil => cases us <;> simp [Alike.alikeAll]
  | cons t ts ih =>
    cases us with
    | nil => simp [Alike.alikeAll]
    | cons u us => rw [Alike.alikeAll, ih, List.forall₂_cons]

theorem alike_node_iff {a : α} {b : β} {ts : List (Tree α)} {us : List (Tree β)}
    : Alike r (node a ts) (node b us) ↔ r a b ∧ List.Forall₂ (Alike r) ts us := by
  rw [Alike, alikeAll_iff]

theorem forall₂_imp_of_mem {r' : α → β → Prop} {as : List α} {bs : List β}
    (h : List.Forall₂ r as bs) (himp : ∀ a ∈ as, ∀ b ∈ bs, r a b → r' a b)
    : List.Forall₂ r' as bs := by
  rw [List.forall₂_iff_zip] at *
  refine ⟨h.1, ?_⟩
  intro a b hab
  have hmem := List.of_mem_zip hab
  exact himp a hmem.1 b hmem.2 (h.2 hab)

namespace Alike

theorem refl {r : α → α → Prop} (hr : ∀ a, r a a) (t : Tree α) : Alike r t t := by
  induction t with
  | node a ts ih =>
    rw [alike_node_iff]
    exact ⟨hr a, List.forall₂_same.2 ih⟩

theorem imp_of_mem {r' : α → β → Prop} (h : Alike r t u)
    (himp : ∀ a ∈ t.toList, ∀ b ∈ u.toList, r a b → r' a b) : Alike r' t u := by
  induction t generalizing u with
  | node a ts ih =>
    cases u with
    | node b us =>
      rw [alike_node_iff] at h ⊢
      rw [toList_node, toList_node] at himp
      refine ⟨himp a List.mem_cons_self b List.mem_cons_self h.1, ?_⟩
      apply forall₂_imp_of_mem h.2
      intro t ht u hu htu
      apply ih t ht htu
      intro c hc d hd
      apply himp
      . exact List.mem_cons_of_mem _ (List.mem_flatMap.2 ⟨t, ht, hc⟩)
      . exact List.mem_cons_of_mem _ (List.mem_flatMap.2 ⟨u, hu, hd⟩)

theorem of_map_eq {f : α → γ} {g : β → γ} (h : t.map f = u.map g)
    : Alike (fun a b => f a = g b) t u := by
  induction t generalizing u with
  | node a ts ih =>
    cases u with
    | node b us =>
      rw [map_node, map_node, node.injEq, ← List.forall₂_eq_eq_eq, List.forall₂_map_left_iff,
        List.forall₂_map_right_iff] at h
      rw [alike_node_iff]
      refine ⟨h.1, forall₂_imp_of_mem h.2 ?_⟩
      intro t ht u _ htu
      exact ih t ht htu

theorem map_eq {f : α → γ} {g : β → γ} (h : Alike (fun a b => f a = g b) t u)
    : t.map f = u.map g := by
  induction t generalizing u with
  | node a ts ih =>
    cases u with
    | node b us =>
      rw [alike_node_iff] at h
      rw [map_node, map_node, node.injEq, ← List.forall₂_eq_eq_eq, List.forall₂_map_left_iff,
        List.forall₂_map_right_iff]
      refine ⟨h.1, forall₂_imp_of_mem h.2 ?_⟩
      intro t ht u _ htu
      exact ih t ht htu

theorem map_right {g : β → δ} {q : α → δ → Prop} (h : Alike r t u)
    (hg : ∀ a b, r a b → q a (g b)) : Alike q t (u.map g) := by
  induction t generalizing u with
  | node a ts ih =>
    cases u with
    | node b us =>
      rw [alike_node_iff] at h
      rw [map_node, alike_node_iff, List.forall₂_map_right_iff]
      refine ⟨hg a b h.1, forall₂_imp_of_mem h.2 ?_⟩
      intro t ht u _ htu
      exact ih t ht htu

theorem toList (h : Alike r t u) : List.Forall₂ r t.toList u.toList := by
  induction t generalizing u with
  | node a ts ih =>
    cases u with
    | node b us =>
      rw [alike_node_iff] at h
      rw [toList_node, toList_node]
      apply List.Forall₂.cons h.1
      have hlists : List.Forall₂ (fun t u => List.Forall₂ r t.toList u.toList) ts us := by
        apply forall₂_imp_of_mem h.2
        intro t ht u _ htu
        exact ih t ht htu
      unfold List.flatMap
      apply List.rel_flatten
      rwa [List.forall₂_map_left_iff, List.forall₂_map_right_iff]

theorem mapDown {f : σ → α → γ × σ} {g : τ → β → δ × τ} {q : γ → δ → Prop} {s : σ → τ → Prop}
    (hstep : ∀ x y a b, s x y → r a b → q (f x a).1 (g y b).1 ∧ s (f x a).2 (g y b).2)
    {x : σ} {y : τ} (hxy : s x y) (h : Alike r t u)
    : Alike q (Tree.mapDown f x t) (Tree.mapDown g y u) := by
  induction t generalizing u x y with
  | node a ts ih =>
    cases u with
    | node b us =>
      rw [alike_node_iff] at h
      rcases hstep x y a b hxy h.1 with ⟨hvalue, hpassed⟩
      rw [mapDown_node, mapDown_node, alike_node_iff, List.forall₂_map_left_iff,
        List.forall₂_map_right_iff]
      refine ⟨hvalue, forall₂_imp_of_mem h.2 ?_⟩
      intro t ht u _ htu
      exact ih t ht hpassed htu

theorem map {f : α → γ} {g : β → δ} {q : γ → δ → Prop} (h : Alike r t u)
    (hfg : ∀ a b, r a b → q (f a) (g b)) : Alike q (t.map f) (u.map g) := by
  apply mapDown (s := Eq) _ rfl h
  intro x y a b _ hab
  exact ⟨hfg a b hab, rfl⟩

end Alike

end TreeStyle.Tree
