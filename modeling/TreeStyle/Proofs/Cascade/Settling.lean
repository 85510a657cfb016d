import Mathlib.Data.List.Basic
import TreeStyle.Proofs.Store

/-!
This module contains what it means that the best of some items decides what becomes of a slot. The
first usable item of a list that has the better ones first does so.
-/

namespace TreeStyle

variable {ι κ : Type}

/--
Of the items that give a value the best one settles the slot. Without any the slot stays as it was.
-/
def Settles (better : ι → ι → Prop) (gives : ι → Option Value → Prop)
    (before after : Option Slot) : Prop :=
  (∃ x value, gives x value ∧ (∀ y value', gives y value' → y = x ∨ better x y) ∧
    after = Slot.settle before value) ∨
  ((∀ x value, ¬ gives x value) ∧ after = before)

namespace Settles

variable {better : ι → ι → Prop} {gives : ι → Option Value → Prop} {before after : Option Slot}

section Items

variable {items : List ι} {value? : ι → Option (Option Value)}

theorem isSome_findSome?_iff (hgives : ∀ x value, gives x value ↔ x ∈ items ∧ value? x = some value)
    : (items.findSome? value?).isSome = true ↔ ∃ x value, gives x value := by
  rw [List.findSome?_isSome_iff]
  constructor
  . intro h
    rcases h with ⟨x, hx, hsome⟩
    rcases Option.isSome_iff_exists.1 hsome with ⟨value, hvalue⟩
    exact ⟨x, value, (hgives x value).2 ⟨hx, hvalue⟩⟩
  . intro h
    rcases h with ⟨x, value, hx⟩
    rw [hgives] at hx
    refine ⟨x, hx.1, ?_⟩
    rw [hx.2]
    rfl

theorem of_findSome? (hsorted : items.Pairwise better)
    (hgives : ∀ x value, gives x value ↔ x ∈ items ∧ value? x = some value) (before : Option Slot)
    : Settles better gives before ((items.findSome? value?).elim before (Slot.settle before)) := by
  cases hfind : items.findSome? value? with
  | none =>
    right
    rw [List.findSome?_eq_none_iff] at hfind
    refine ⟨?_, rfl⟩
    intro x value hx
    rw [hgives] at hx
    rw [hfind x hx.1] at hx
    cases hx.2
  | some value =>
    left
    rcases List.findSome?_eq_some_iff.1 hfind with ⟨front, x, back, hitems, hvalue, hfront⟩
    refine ⟨x, value, (hgives x value).2 ⟨by simp [hitems], hvalue⟩, ?_, rfl⟩
    intro y value' hy
    rw [hgives, hitems, List.mem_append, List.mem_cons] at hy
    rcases hy with ⟨hin | hin | hin, hy⟩
    . -- What stands before the first usable item gives no value.
      rw [hfront y hin] at hy
      cases hy
    . exact Or.inl hin
    . right
      rw [hitems] at hsorted
      exact (List.pairwise_cons.1 (List.pairwise_append.1 hsorted).2.1).1 y hin

end Items

theorem eq_after {after' : Option Slot} (hasymm : ∀ x y, better x y → ¬ better y x)
    (hfunctional : ∀ x value value', gives x value → gives x value' → value = value')
    (h : Settles better gives before after) (h' : Settles better gives before after')
    : after = after' := by
  rcases h with ⟨x, value, hx, hbest, hafter⟩ | ⟨hnone, hafter⟩
  . rcases h' with ⟨x', value', hx', hbest', hafter'⟩ | ⟨hnone, _⟩
    . have heq : x = x' := by
        rcases hbest x' value' hx' with heq | hlt
        . exact heq.symm
        . rcases hbest' x value hx with heq | hlt'
          . exact heq
          . exact absurd hlt' (hasymm x x' hlt)
      rw [heq] at hx
      rw [hafter, hafter', hfunctional x' value value' hx hx']
    . exact absurd hx (hnone x value)
  . rcases h' with ⟨x', value', hx', _⟩ | ⟨_, hafter'⟩
    . exact absurd hx' (hnone x' value')
    . rw [hafter, hafter']

theorem of_embedding {better' : κ → κ → Prop} {gives' : κ → Option Value → Prop} (f : ι → κ)
    (hinjective : ∀ x y, f x = f y → x = y) (hbetter : ∀ x y, better' (f x) (f y) ↔ better x y)
    (hgives : ∀ y value, gives' y value ↔ ∃ x, f x = y ∧ gives x value)
    : Settles better' gives' before after ↔ Settles better gives before after := by
  constructor
  . intro h
    rcases h with ⟨y, value, hy, hbest, hafter⟩ | ⟨hnone, hafter⟩
    . rcases (hgives y value).1 hy with ⟨x, hx, hgive⟩
      left
      refine ⟨x, value, hgive, ?_, hafter⟩
      intro x' value' hx'
      rcases hbest (f x') value' ((hgives _ _).2 ⟨x', rfl, hx'⟩) with heq | hlt
      . rw [← hx] at heq
        exact Or.inl (hinjective _ _ heq)
      . rw [← hx] at hlt
        exact Or.inr ((hbetter _ _).1 hlt)
    . right
      refine ⟨?_, hafter⟩
      intro x value hx
      exact hnone (f x) value ((hgives _ _).2 ⟨x, rfl, hx⟩)
  . intro h
    rcases h with ⟨x, value, hx, hbest, hafter⟩ | ⟨hnone, hafter⟩
    . left
      refine ⟨f x, value, (hgives _ _).2 ⟨x, rfl, hx⟩, ?_, hafter⟩
      intro y value' hy
      rcases (hgives y value').1 hy with ⟨x', hx', hgive⟩
      rw [← hx']
      rcases hbest x' value' hgive with heq | hlt
      . exact Or.inl (congrArg f heq)
      . exact Or.inr ((hbetter _ _).2 hlt)
    . right
      refine ⟨?_, hafter⟩
      intro y value hy
      rcases (hgives y value).1 hy with ⟨x, _, hgive⟩
      exact hnone x value hgive

end Settles

end TreeStyle
