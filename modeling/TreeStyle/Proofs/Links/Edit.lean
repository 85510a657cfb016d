import TreeStyle.Proofs.Links.Representation

/-!
This module contains edits of links that represent a forest. They go as the edits of the forest do,
and one that is refused leaves every link as it was.
-/

namespace TreeStyle.Links

variable {l l' : Links} {f g : Forest} {n parent child : Nat} {t : Tree Widget}

theorem ext_cell? (h : ∀ n, l.cell? n = l'.cell? n) : l = l' := by
  rcases l with ⟨cells⟩
  rcases l' with ⟨cells'⟩
  congr 1
  exact List.ext_getElem? h

/--
How an edit of the links ends if the same edit of the forest has that result. One that is refused
has changed nothing.
-/
inductive Tracks (l : Links)
    : Except WidgetError Unit × Links → Except WidgetError Forest → Prop where
  | ok {l' : Links} {g : Forest} (h : l'.Represents g) : Tracks l (.ok (), l') (.ok g)
  | error (e : WidgetError) : Tracks l (.error e, l) (.error e)

theorem cell?_create (l : Links) (kind : WidgetKind) (n : Nat)
    : (l.create kind).2.cell? n =
        if n = l.count then some { widget := { number := l.count, kind } } else l.cell? n := by
  unfold create cell? count
  dsimp only
  by_cases hn : n = l.cells.length
  . simp [hn]
  . rw [if_neg hn, List.getElem?_append]
    split
    . rfl
    . rw [List.getElem?_eq_none_iff.2 (by simp; omega), List.getElem?_eq_none_iff.2 (by omega)]

theorem cell?_attach (l : Links) (hne : child ≠ parent) (n : Nat)
    : (l.attach parent child).cell? n =
        if n = parent then (l.cell? n).map fun c => { c with children := c.children ++ [child] }
        else if n = child then (l.cell? n).map fun c => { c with parent? := some parent }
        else l.cell? n := by
  unfold attach
  rw [cell?_modify, cell?_modify]
  split
  . next hn => rw [if_neg (by rw [hn]; exact hne.symm)]
  . rfl

theorem cell?_removeChild (h : child ∈ l.children parent) (hne : child ≠ parent) (n : Nat)
    : (l.removeChild parent child).2.cell? n =
        if n = parent then (l.cell? n).map fun c => { c with children := c.children.erase child }
        else if n = child then (l.cell? n).map fun c => { c with parent? := none }
        else l.cell? n := by
  unfold removeChild
  rw [if_pos h, cell?_modify, cell?_modify]
  by_cases hn : n = parent
  . rw [if_neg (by rw [hn]; exact hne.symm), if_pos hn, if_pos hn]
  . rw [if_neg hn, if_neg hn]

structure Rewrites (l l' : Links) (old new : List Cell) : Prop where
  count_eq : l'.count = l.count
  holds : l'.Holds new
  frame : ∀ n, n ∉ old.map (·.widget.number) → l'.cell? n = l.cell? n

theorem Rewrites.pair {f g : Cell → Cell} {p c : Cell} (hcount : l'.count = l.count)
    (hcell : ∀ n, l'.cell? n = if n = parent then (l.cell? n).map f
      else if n = child then (l.cell? n).map g else l.cell? n)
    (hne : child ≠ parent) (hp : l.cell? parent = some p) (hc : l.cell? child = some c)
    (hold : [p, c].map (·.widget.number) = [parent, child])
    (hnew : [f p, g c].map (·.widget.number) = [parent, child])
    : l.Rewrites l' [p, c] [f p, g c] := by
  simp only [List.map_cons, List.map_nil, List.cons.injEq, and_true] at hnew
  rcases hnew with ⟨hparent, hchild⟩
  constructor
  . exact hcount
  . intro d hd
    rw [List.mem_pair] at hd
    rcases hd with hd | hd
    . rw [hd, hparent, hcell, if_pos rfl, hp, Option.map_some]
    . rw [hd, hchild, hcell, if_neg hne, if_pos rfl, hc, Option.map_some]
  . intro n hn
    rw [hold, List.mem_pair, not_or] at hn
    rw [hcell, if_neg hn.1, if_neg hn.2]

namespace Represents

theorem replace {old new others : List Cell} (h : l.Represents f) (hl : l.Rewrites l' old new)
    (hf : f.cells.Perm (old ++ others)) (hg : g.cells.Perm (new ++ others))
    (hnumbers : new.map (·.widget.number) = old.map (·.widget.number))
    (hcount : g.count = f.count) : l'.Represents g := by
  have hnodup := h.numbered.nodup
  rw [← f.map_number_cells, (hf.map _).nodup_iff, List.map_append, List.nodup_append] at hnodup
  constructor
  . have hnumbered := h.numbered
    unfold Forest.Numbered at *
    rw [← Forest.map_number_cells] at *
    rw [hcount]
    apply List.Perm.trans _ hnumbered
    apply (hg.map _).trans
    apply List.Perm.trans _ (hf.map _).symm
    rw [List.map_append, List.map_append, hnumbers]
  . rw [hcount, hl.count_eq, h.count_eq]
  . intro c hc
    rcases List.mem_append.1 (hg.subset hc) with hc | hc
    . exact hl.holds c hc
    . rw [hl.frame]
      . apply h.holds
        exact hf.symm.subset (List.mem_append_right _ hc)
      . intro hmem
        exact hnodup.2.2 _ hmem _ (List.mem_map_of_mem hc) rfl

theorem create (h : l.Represents f) (kind : WidgetKind)
    : (l.create kind).2.Represents (f.create kind).2 := by
  constructor
  . exact h.numbered.create kind
  . have hcount := h.count_eq
    unfold Links.create Forest.create Links.count at *
    simp [hcount]
  . intro c hc
    have hcells : (f.create kind).2.cells
        = f.cells ++ [⟨{ number := f.count, kind }, none, []⟩] := by
      simp [Forest.create, Forest.cells, Tree.cells_node]
    rw [hcells, List.mem_append, List.mem_singleton] at hc
    rw [cell?_create]
    rcases hc with hc | hc
    . have hcell := h.holds c hc
      have hlt := lt_count_of_cell? hcell
      rw [if_neg (by omega), hcell]
    . rw [hc, h.count_eq, if_pos rfl]

theorem modify {change : Tree Widget → Tree Widget} {q : Option Nat} (h : l.Represents f)
    (ht : f.subtree? n = some t) (hcells : l.Holds (t.cells q))
    (hnumbers : (change t).toList.map (·.number) = t.toList.map (·.number))
    (hl : l.Rewrites l' (t.cells q) ((change t).cells q)) : l'.Represents (f.modify n change) := by
  have hroot : (change t).value.number = n := by
    have hhead := congrArg List.head? hnumbers
    rw [Tree.toList_eq_cons, Tree.toList_eq_cons t] at hhead
    exact (Option.some.inj hhead).trans (Forest.number_of_subtree? ht)
  rcases Forest.exists_cells_modify (h.numbered.countP_le_one n) ht
    with ⟨r, left, right, hf, hmodify⟩
  have hparent : r = q := by
    have hmem : ⟨t.value, r, t.children.map (·.value.number)⟩ ∈ f.cells := by
      rw [hf]
      simp [t.root_mem_cells r]
    have hroot := hcells _ (t.root_mem_cells q)
    have hsame := h.holds _ hmem
    dsimp only at hroot hsame
    rw [hroot] at hsame
    exact (congrArg Cell.parent? (Option.some.inj hsame)).symm
  rw [hparent] at hf hmodify
  have hperm : ∀ cs : List Cell, (left ++ cs ++ right).Perm (cs ++ (left ++ right)) := by
    intro cs
    rw [← List.append_assoc]
    exact List.perm_append_comm.append_right right
  have hbefore : f.cells.Perm (t.cells q ++ (left ++ right)) := by
    rw [hf]
    exact hperm _
  have hafter : (f.modify n change).cells.Perm ((change t).cells q ++ (left ++ right)) := by
    rw [hmodify change hroot]
    exact hperm _
  apply h.replace hl hbefore hafter
  . rw [Tree.map_number_cells, Tree.map_number_cells, hnumbers]
  . rfl

theorem attach {c : Tree Widget} (h : l.Represents f) (hchild : f.subtree? child = some c)
    (hroot : f.parent? child = none) (hparent : ∃ p, f.subtree? parent = some p)
    (hancestor : ∀ w ∈ c.toList, w.number ≠ parent)
    : (l.attach parent child).Represents
        ((f.dropRoot child).modify parent fun t => .node t.value (t.children ++ [c])) := by
  rcases Forest.exists_dropRoot h.numbered hchild hroot with ⟨before, after, htrees, hrest⟩
  rcases Forest.exists_subtree?_dropRoot h.numbered hchild hroot hparent hancestor
    with ⟨hone, t, ht⟩
  rcases Forest.exists_cells_modify hone ht with ⟨q, left, right, hcells, hmodify⟩
  have hparentNumber := Forest.number_of_subtree? ht
  have hchildNumber := Forest.number_of_subtree? hchild
  have hne : child ≠ parent := by
    rw [← hchildNumber]
    exact hancestor _ (Tree.value_mem_toList c)
  let others := left ++ t.children.flatMap (Tree.cells (some t.value.number)) ++
    c.children.flatMap (Tree.cells (some c.value.number)) ++ right
  have hbefore : f.cells.Perm ([⟨t.value, q, t.children.map (·.value.number)⟩,
      ⟨c.value, none, c.children.map (·.value.number)⟩] ++ others) := by
    unfold Forest.cells at hcells ⊢
    rw [hrest, Tree.cells_eq_cons q t] at hcells
    rw [htrees, List.perm_iff_count]
    intro d
    have hcount := congrArg (List.count d) hcells
    simp only [others, Tree.cells_eq_cons none c, List.flatMap_append, List.flatMap_cons,
      List.count_append, List.count_cons, List.count_nil] at hcount ⊢
    omega
  have hafter : ((f.dropRoot child).modify parent
      fun t => .node t.value (t.children ++ [c])).cells.Perm
        ([⟨t.value, q, t.children.map (·.value.number) ++ [child]⟩,
          ⟨c.value, some parent, c.children.map (·.value.number)⟩] ++ others) := by
    rw [hmodify _ hparentNumber, Tree.cells_node, List.perm_iff_count]
    intro d
    simp only [others, Tree.cells_eq_cons _ c, List.flatMap_append, List.flatMap_cons,
      List.flatMap_nil, List.map_append, List.map_cons, List.map_nil, List.count_append,
      List.count_cons, List.count_nil, hparentNumber, hchildNumber]
    omega
  have hparentCell := h.holds _ (hbefore.symm.subset List.mem_cons_self)
  have hchildCell := h.holds _ (hbefore.symm.subset (List.mem_cons_of_mem _ List.mem_cons_self))
  dsimp only at hparentCell hchildCell
  rw [hparentNumber] at hparentCell
  rw [hchildNumber] at hchildCell
  have hnumbers : [t.value, c.value].map (·.number) = [parent, child] := by
    simp [hparentNumber, hchildNumber]
  apply h.replace (.pair _ (cell?_attach l hne) hne hparentCell hchildCell hnumbers hnumbers)
    hbefore hafter rfl rfl
  unfold Links.attach
  rw [count_modify, count_modify]

theorem mem_children_iff_exists_find? (h : l.Represents f)
    : child ∈ l.children parent ↔
        ∃ p c, f.subtree? parent = some p ∧
          p.children.find? (Forest.isNumber child) = some c := by
  rw [h.children_eq]
  unfold Forest.children
  cases f.subtree? parent with
  | none => simp
  | some p =>
    dsimp only
    constructor
    . intro hmem
      rcases List.mem_map.1 hmem with ⟨c, hc, hnumber⟩
      cases hfind : p.children.find? (Forest.isNumber child) with
      | none =>
        rw [List.find?_eq_none] at hfind
        exact absurd (by simpa [Forest.isNumber] using hnumber) (hfind c hc)
      | some c => exact ⟨p, c, rfl, hfind⟩
    . intro hfind
      rcases hfind with ⟨p', c, hp, hfind⟩
      cases hp
      refine List.mem_map.2 ⟨c, List.mem_of_find?_eq_some hfind, ?_⟩
      simpa [Forest.isNumber] using List.find?_some hfind

theorem detach {p c : Tree Widget} (h : l.Represents f) (hp : f.subtree? parent = some p)
    (hc : p.children.find? (Forest.isNumber child) = some c)
    : (l.removeChild parent child).2.Represents
        ⟨(f.modify parent
          fun t => .node t.value (t.children.filter (!Forest.isNumber child ·))).trees ++ [c],
          f.count⟩ := by
  have hmem := h.mem_children_iff_exists_find?.2 ⟨p, c, hp, hc⟩
  rcases Forest.exists_cells_modify (h.numbered.countP_le_one parent) hp
    with ⟨q, left, right, hcells, hmodify⟩
  rcases h.numbered.exists_filter_children hp hc with ⟨before, after, hchildren, hfilter⟩
  have hparentNumber := Forest.number_of_subtree? hp
  have hchildNumber : c.value.number = child := by
    simpa [Forest.isNumber] using List.find?_some hc
  let others := left ++ before.flatMap (Tree.cells (some p.value.number)) ++
    c.children.flatMap (Tree.cells (some c.value.number)) ++
    after.flatMap (Tree.cells (some p.value.number)) ++ right
  have hbefore : f.cells.Perm ([⟨p.value, q, p.children.map (·.value.number)⟩,
      ⟨c.value, some p.value.number, c.children.map (·.value.number)⟩] ++ others) := by
    rw [hcells, Tree.cells_eq_cons q p, hchildren, List.perm_iff_count]
    intro d
    simp only [others, Tree.cells_eq_cons _ c, List.flatMap_append, List.flatMap_cons,
      List.count_append, List.count_cons, List.count_nil]
    omega
  have hafter : (Forest.mk ((f.modify parent
      fun t => .node t.value (t.children.filter (!Forest.isNumber child ·))).trees ++ [c])
        f.count).cells.Perm
      ([⟨p.value, q, (before ++ after).map (·.value.number)⟩,
        ⟨c.value, none, c.children.map (·.value.number)⟩] ++ others) := by
    have hmodify := hmodify (fun t => .node t.value (t.children.filter (!Forest.isNumber child ·)))
      hparentNumber
    rw [hfilter, Tree.cells_node] at hmodify
    unfold Forest.cells at hmodify ⊢
    rw [List.flatMap_append, hmodify, List.perm_iff_count]
    intro d
    simp only [others, Tree.cells_eq_cons _ c, List.flatMap_append, List.flatMap_cons,
      List.flatMap_nil, List.count_append, List.count_cons, List.count_nil]
    omega
  have hparentCell := h.holds _ (hbefore.symm.subset List.mem_cons_self)
  have hchildCell := h.holds _ (hbefore.symm.subset (List.mem_cons_of_mem _ List.mem_cons_self))
  dsimp only at hparentCell hchildCell
  rw [hparentNumber] at hparentCell
  rw [hchildNumber] at hchildCell
  have hne : child ≠ parent := by
    intro heq
    rw [heq] at hmem
    exact h.acyclic parent (.single (h.mem_children_iff.1 hmem))
  have herase : (p.children.map (·.value.number)).erase child
      = (before ++ after).map (·.value.number) := by
    have hnodup := h.nodup_children parent
    rw [children_of_cell? hparentCell] at hnodup
    rw [hnodup.erase_eq_filter, List.filter_map, ← hfilter]
    rfl
  rw [← herase] at hafter
  have hnumbers : [p.value, c.value].map (·.number) = [parent, child] := by
    simp [hparentNumber, hchildNumber]
  apply h.replace (.pair _ (cell?_removeChild hmem hne) hne hparentCell hchildCell hnumbers
    hnumbers) hbefore hafter rfl rfl
  unfold Links.removeChild
  rw [if_pos hmem]
  dsimp only
  rw [count_modify, count_modify]

theorem removeChild (h : l.Represents f) (parent child : Nat)
    : (l.removeChild parent child).1 = (f.removeChild parent child).1 ∧
        (l.removeChild parent child).2.Represents (f.removeChild parent child).2 := by
  unfold Forest.removeChild
  cases hfind : (f.subtree? parent).bind (·.children.find? (Forest.isNumber child)) with
  | none =>
    have hnot : child ∉ l.children parent := by
      rw [h.mem_children_iff_exists_find?]
      intro hsome
      rcases hsome with ⟨p, c, hp, hc⟩
      rw [hp, Option.bind_some, hc] at hfind
      cases hfind
    unfold Links.removeChild
    rw [if_neg hnot]
    exact ⟨rfl, h⟩
  | some c =>
    rcases Option.bind_eq_some_iff.1 hfind with ⟨p, hp, hc⟩
    have hmem := h.mem_children_iff_exists_find?.2 ⟨p, c, hp, hc⟩
    refine ⟨?_, h.detach hp hc⟩
    unfold Links.removeChild
    rw [if_pos hmem]

theorem addChild (h : l.Represents f) (parent child : Nat)
    : ∃ outcome, l.addChild parent child = some outcome ∧
        l.Tracks outcome (f.addChild parent child) := by
  unfold Links.addChild Forest.addChild Forest.addIssue?
  cases hp : f.subtree? parent with
  | none =>
    rw [h.subtree?_eq_none_iff.1 hp]
    exact ⟨_, rfl, .error _⟩
  | some p =>
    rcases h.exists_cell?_of_subtree? hp with ⟨q, hparentCell⟩
    cases hc : f.subtree? child with
    | none =>
      rw [hparentCell, h.subtree?_eq_none_iff.1 hc]
      exact ⟨_, rfl, .error _⟩
    | some c =>
      rcases h.exists_cell?_of_subtree? hc with ⟨r, hchildCell⟩
      have hlink : f.parent? child = r := by
        rw [← h.parent?_eq, parent?_of_cell? hchildCell]
      rw [hparentCell, hchildCell, hlink]
      dsimp only
      rw [List.length_map]
      cases Forest.contentIssue? p.value.kind p.children.length c.value.kind with
      | some issue => exact ⟨_, rfl, .error _⟩
      | none =>
        cases r with
        | some r => exact ⟨_, rfl, .error _⟩
        | none =>
          rcases h.exists_climbs? (lt_count_of_cell? hparentCell) child with ⟨b, hb⟩
          have hreaches := (climbs?_eq_some_iff hb).trans (h.reaches_iff hc)
          have hany : c.toList.any (·.number == parent) = b := by
            rw [Bool.eq_iff_iff, hreaches]
            simp
          rw [hb, hany]
          cases b with
          | true => exact ⟨_, rfl, .error _⟩
          | false =>
            refine ⟨_, rfl, .ok (h.attach hc hlink ⟨p, hp⟩ ?_)⟩
            simpa using hany

end Represents

end TreeStyle.Links
