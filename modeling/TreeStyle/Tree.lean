/-!
This module contains finitely branching trees with a value at every node, and walks over them that
take every node before its children and the children in order.
-/

namespace TreeStyle

inductive Tree (α : Type) where
  | node (value : α) (children : List (Tree α))

namespace Tree

variable {α β σ : Type}

def value : Tree α → α
  | node a _ => a

def children : Tree α → List (Tree α)
  | node _ ts => ts

@[induction_eliminator]
theorem induct {motive : Tree α → Prop}
    (node : ∀ a ts, (∀ t ∈ ts, motive t) → motive (.node a ts)) (t : Tree α) : motive t := by
  refine @Tree.rec α motive (fun ts => ∀ t ∈ ts, motive t) node ?_ ?_ t
  . intro t h
    exact absurd h List.not_mem_nil
  . intro t ts ht hts t' h
    rcases List.mem_cons.1 h with rfl | h
    . exact ht
    . exact hts t' h

def decEq [DecidableEq α] : (t u : Tree α) → Decidable (t = u)
  | node a ts, node b us =>
    match decEqAll ts us with
    | isTrue h => decidable_of_iff (a = b) (by simp [h])
    | isFalse h => isFalse (by simp [h])
where
  decEqAll : (ts us : List (Tree α)) → Decidable (ts = us)
    | [], [] => isTrue rfl
    | [], _ :: _ => isFalse (by simp)
    | _ :: _, [] => isFalse (by simp)
    | t :: ts, u :: us =>
      match decEq t u, decEqAll ts us with
      | isTrue h, isTrue h' => isTrue (by rw [h, h'])
      | isFalse h, _ => isFalse (by simp [h])
      | _, isFalse h => isFalse (by simp [h])

instance [DecidableEq α] : DecidableEq (Tree α) := decEq

def mapDown (f : σ → α → β × σ) : σ → Tree α → Tree β
  | s, node a ts => node (f s a).1 (mapDownAll (f s a).2 ts)
where
  mapDownAll (s : σ) : List (Tree α) → List (Tree β)
    | [] => []
    | t :: ts => mapDown f s t :: mapDownAll s ts

def map (f : α → β) : Tree α → Tree β := mapDown (fun _ a => (f a, ())) ()

def toList : Tree α → List α
  | node a ts => a :: toListAll ts
where
  toListAll : List (Tree α) → List α
    | [] => []
    | t :: ts => toList t ++ toListAll ts

def find? (p : Tree α → Bool) : Tree α → Option (Tree α)
  | node a ts => if p (node a ts) then some (node a ts) else findAll? ts
where
  findAll? : List (Tree α) → Option (Tree α)
    | [] => none
    | t :: ts => find? p t <|> findAll? ts

def modify (p : α → Bool) (f : Tree α → Tree α) : Tree α → Tree α
  | node a ts => if p a then f (node a ts) else node a (modifyAll ts)
where
  modifyAll : List (Tree α) → List (Tree α)
    | [] => []
    | t :: ts => modify p f t :: modifyAll ts

theorem mapDownAll_eq (f : σ → α → β × σ) (s : σ) (ts : List (Tree α)) :
    mapDown.mapDownAll f s ts = ts.map (mapDown f s) := by
  induction ts with
  | nil => rfl
  | cons t ts ih => simp [mapDown.mapDownAll, ih]

theorem mapDown_node (f : σ → α → β × σ) (s : σ) (a : α) (ts : List (Tree α)) :
    mapDown f s (node a ts) = node (f s a).1 (ts.map (mapDown f (f s a).2)) := by
  rw [mapDown, mapDownAll_eq]

theorem map_node (f : α → β) (a : α) (ts : List (Tree α)) :
    map f (node a ts) = node (f a) (ts.map (map f)) := mapDown_node _ _ _ _

theorem toListAll_eq (ts : List (Tree α)) : toList.toListAll ts = ts.flatMap toList := by
  induction ts with
  | nil => rfl
  | cons t ts ih => simp [toList.toListAll, ih]

theorem toList_node (a : α) (ts : List (Tree α)) :
    toList (node a ts) = a :: ts.flatMap toList := by
  rw [toList, toListAll_eq]

theorem findAll?_eq (p : Tree α → Bool) (ts : List (Tree α)) :
    find?.findAll? p ts = ts.findSome? (find? p) := by
  induction ts with
  | nil => rfl
  | cons t ts ih =>
    rw [find?.findAll?, List.findSome?_cons, ih]
    cases find? p t <;> rfl

theorem find?_node (p : Tree α → Bool) (a : α) (ts : List (Tree α)) :
    find? p (node a ts) = if p (node a ts) then some (node a ts) else ts.findSome? (find? p) := by
  rw [find?, findAll?_eq]

theorem modifyAll_eq (p : α → Bool) (f : Tree α → Tree α) (ts : List (Tree α)) :
    modify.modifyAll p f ts = ts.map (modify p f) := by
  induction ts with
  | nil => rfl
  | cons t ts ih => simp [modify.modifyAll, ih]

theorem modify_node (p : α → Bool) (f : Tree α → Tree α) (a : α) (ts : List (Tree α)) :
    modify p f (node a ts) = if p a then f (node a ts) else node a (ts.map (modify p f)) := by
  rw [modify, modifyAll_eq]

end Tree

end TreeStyle
