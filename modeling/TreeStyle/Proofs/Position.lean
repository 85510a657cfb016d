import Mathlib.Data.List.Basic
import TreeStyle.Tree

/-!
This module contains the positions of nodes in trees. A position tells, for every step on the way
down from the root, the number of the child to go to.
-/

namespace TreeStyle.Tree

variable {α β σ : Type}

def path? : Tree α → List Nat → Option (List α)
  | node a _, [] => some [a]
  | node a ts, i :: position =>
    match ts[i]? with
    | some t => (t.path? position).map (a :: ·)
    | none => none

def value? (t : Tree α) (position : List Nat) : Option α := t.path? position >>= List.getLast?

def mapPath (f : σ → α → β × σ) (s : σ) : List α → List β
  | [] => []
  | a :: path => (f s a).1 :: mapPath f (f s a).2 path

def passDown (f : σ → α → β × σ) (s : σ) (path : List α) : σ :=
  path.foldl (fun s a => (f s a).2) s

theorem passDown_concat (f : σ → α → β × σ) (s : σ) (path : List α) (a : α)
    : passDown f s (path ++ [a]) = (f (passDown f s path) a).2 := by
  unfold passDown
  rw [List.foldl_append]
  rfl

theorem mapPath_concat (f : σ → α → β × σ) (s : σ) (path : List α) (a : α)
    : mapPath f s (path ++ [a]) = mapPath f s path ++ [(f (passDown f s path) a).1] := by
  induction path generalizing s with
  | nil => rfl
  | cons b path ih =>
    rw [List.cons_append, mapPath, ih]
    rfl

theorem path?_mapDown (f : σ → α → β × σ) (s : σ) (t : Tree α) (position : List Nat)
    : (mapDown f s t).path? position = (t.path? position).map (mapPath f s) := by
  induction position generalizing s t with
  | nil =>
    cases t with
    | node a ts =>
      rw [mapDown_node]
      rfl
  | cons i position ih =>
    cases t with
    | node a ts =>
      rw [mapDown_node, path?, path?, List.getElem?_map]
      cases ts[i]? with
      | none => rfl
      | some t =>
        simp only [Option.map_some]
        rw [ih, Option.map_map, Option.map_map]
        rfl

theorem value?_mapDown {f : σ → α → β × σ} {s : σ} {t : Tree α} {position : List Nat}
    {above : List α} {a : α} (h : t.path? position = some (above ++ [a]))
    : (mapDown f s t).value? position = some (f (passDown f s above) a).1 := by
  unfold value?
  rw [path?_mapDown, h, Option.map_some, mapPath_concat]
  simp

theorem mapPath_const (f : α → β) (path : List α)
    : mapPath (fun _ a => (f a, ())) () path = path.map f := by
  induction path with
  | nil => rfl
  | cons a path ih =>
    rw [mapPath, ih]
    rfl

theorem path?_map (f : α → β) (t : Tree α) (position : List Nat)
    : (t.map f).path? position = (t.path? position).map (List.map f) := by
  unfold map
  rw [path?_mapDown]
  congr 1
  funext path
  exact mapPath_const f path

theorem value?_map (f : α → β) (t : Tree α) (position : List Nat)
    : (t.map f).value? position = (t.value? position).map f := by
  unfold value?
  rw [path?_map]
  cases t.path? position with
  | none => rfl
  | some path => simp

theorem exists_path?_of_value? {t : Tree α} {position : List Nat} {a : α}
    (h : t.value? position = some a)
    : ∃ above, t.path? position = some (above ++ [a]) := by
  rcases Option.bind_eq_some_iff.1 h with ⟨path, hpath, hlast⟩
  rcases List.getLast?_eq_some_iff.1 hlast with ⟨above, habove⟩
  exact ⟨above, by rw [hpath, habove]⟩

theorem path?_ne_nil {t : Tree α} {position : List Nat} {path : List α}
    (h : t.path? position = some path) : path ≠ [] := by
  intro hnil
  rw [hnil] at h
  cases t with
  | node a ts =>
    cases position with
    | nil => simp [path?] at h
    | cons i position =>
      rw [path?] at h
      split at h <;> simp at h

theorem mem_toList_of_mem_path {t : Tree α} {position : List Nat} {path : List α}
    (h : t.path? position = some path) : ∀ a ∈ path, a ∈ t.toList := by
  induction position generalizing t path with
  | nil =>
    cases t with
    | node b ts =>
      simp only [path?, Option.some.injEq] at h
      rw [toList_node, ← h]
      simp
  | cons i position ih =>
    cases t with
    | node b ts =>
      rw [path?] at h
      split at h
      . next t ht =>
        rcases Option.map_eq_some_iff.1 h with ⟨path', hpath, heq⟩
        intro a ha
        rw [← heq] at ha
        rw [toList_node]
        rcases List.mem_cons.1 ha with hab | ha
        . rw [hab]
          apply List.mem_cons_self
        . apply List.mem_cons_of_mem
          exact List.mem_flatMap.2 ⟨t, List.mem_of_getElem? ht, ih hpath a ha⟩
      . cases h

end TreeStyle.Tree
