import TreeStyle.Proofs.Forest.Styling
import TreeStyle.Proofs.Links.Content

/-!
This module contains walks along the links to children. On links that represent a forest they come
to an end, since every way down does. They see and make what a walk over the tree sees and makes.
-/

namespace TreeStyle.Links

variable {σ ρ : Type} {l l' l₁ l₂ : Links} {f : Forest} {n steps : Nat} {t : Tree Widget}
  {ts : List (Tree Widget)} {q : Option Nat}

namespace Rewrites

variable {old new old' new' : List Cell}

theorem refl (h : l.Holds old) : l.Rewrites l old old where
  count_eq := rfl
  holds := h
  frame _ _ := rfl

theorem append (h : l.Rewrites l₁ old new) (h' : l₁.Rewrites l₂ old' new')
    (hnumbers : new.map (·.widget.number) = old.map (·.widget.number))
    (hnodup : ((old ++ old').map (·.widget.number)).Nodup)
    : l.Rewrites l₂ (old ++ old') (new ++ new') := by
  rw [List.map_append, List.nodup_append] at hnodup
  constructor
  . exact h'.count_eq.trans h.count_eq
  . intro c hc
    rcases List.mem_append.1 hc with hc | hc
    . rw [h'.frame, h.holds c hc]
      intro hmem
      apply hnodup.2.2 _ _ _ hmem rfl
      rw [← hnumbers]
      exact List.mem_map_of_mem hc
    . exact h'.holds c hc
  . intro n hn
    rw [List.map_append, List.mem_append, not_or] at hn
    rw [h'.frame n hn.2, h.frame n hn.1]

theorem cell?_eq_of_disjoint {c : Cell} (h : l.Rewrites l' old new)
    (hc : l.cell? c.widget.number = some c)
    (hnot : c.widget.number ∉ old.map (·.widget.number)) : l'.cell? c.widget.number = some c := by
  rw [h.frame _ hnot, hc]

theorem update {w : Widget} {children : List Nat} {change : Widget → Widget}
    (hc : l.cell? n = some ⟨w, q, children⟩) (hw : w.number = n) (hchange : (change w).number = n)
    : l.Rewrites (l.update n change) [⟨w, q, children⟩] [⟨change w, q, children⟩] := by
  unfold Links.update
  constructor
  . apply count_modify
  . intro d hd
    rw [List.mem_singleton] at hd
    rw [hd, hchange, cell?_modify, if_pos rfl, hc]
    rfl
  . intro m hm
    rw [List.map_singleton, List.mem_singleton, hw] at hm
    rw [cell?_modify, if_neg hm]

end Rewrites

theorem exists_foldlM_collect (visit : Nat → Links → Option (List ρ × Links))
    (g : Tree Widget → Tree (Widget × ρ))
    (hnumbers : ∀ t, ((g t).map (·.1)).toList.map (·.number) = t.toList.map (·.number))
    (hvisit : ∀ t ∈ ts, (t.toList.map (·.number)).Nodup →
      ∀ l : Links, l.Holds (t.cells q) →
      ∃ l', visit t.value.number l = some ((g t).toList.map (·.2), l') ∧
        l.Rewrites l' (t.cells q) (((g t).map (·.1)).cells q))
    (hnodup : ((ts.flatMap (Tree.cells q)).map (·.widget.number)).Nodup)
    (hcells : l.Holds (ts.flatMap (Tree.cells q))) (rs : List ρ)
    : ∃ l', (ts.map (·.value.number)).foldlM (collect visit) (rs, l)
          = some (rs ++ ts.flatMap fun t => (g t).toList.map (·.2), l') ∧
        l.Rewrites l' (ts.flatMap (Tree.cells q))
          (ts.flatMap fun t => ((g t).map (·.1)).cells q) := by
  induction ts generalizing l rs with
  | nil => exact ⟨l, by simp, .refl hcells⟩
  | cons t ts ih =>
    rw [List.flatMap_cons] at hcells hnodup
    have hfirst := hnodup
    rw [List.map_append, List.nodup_append, Tree.map_number_cells] at hfirst
    rcases hfirst with ⟨hnodupFirst, hnodupRest, hdisjoint⟩
    rcases hvisit t List.mem_cons_self hnodupFirst l
      (fun c hc => hcells c (List.mem_append_left _ hc)) with ⟨l₁, hout, hfirst⟩
    have hrest : l₁.Holds (ts.flatMap (Tree.cells q)) := by
      intro c hc
      apply hfirst.cell?_eq_of_disjoint (hcells c (List.mem_append_right _ hc))
      intro hmem
      rw [Tree.map_number_cells] at hmem
      exact hdisjoint _ hmem _ (List.mem_map_of_mem hc) rfl
    rcases ih (fun t ht => hvisit t (List.mem_cons_of_mem _ ht)) hnodupRest hrest
      (rs ++ (g t).toList.map (·.2)) with ⟨l', hrun, hothers⟩
    refine ⟨l', ?_, ?_⟩
    . rw [List.map_cons, List.foldlM_cons, collect, hout, List.flatMap_cons, ← List.append_assoc]
      exact hrun
    . rw [List.flatMap_cons, List.flatMap_cons]
      apply hfirst.append hothers _ hnodup
      rw [Tree.map_number_cells, Tree.map_number_cells, hnumbers]

theorem numbers_mapDown {visit : σ → Widget → (Widget × ρ) × σ}
    (hvisit : ∀ s w, (visit s w).1.1.number = w.number) (s : σ) (t : Tree Widget)
    : ((t.mapDown visit s).map (·.1)).toList.map (·.number) = t.toList.map (·.number) := by
  have hmap := congrArg Tree.toList
    (Tree.map_mapDown (g := fun x : Widget × ρ => x.1.number) hvisit s t)
  rw [Tree.toList_map, Tree.toList_map] at hmap
  rw [Tree.toList_map, List.map_map]
  exact hmap

theorem walk?_succ {visit : σ → Widget → (Widget × ρ) × σ} {w : Widget}
    (hw : l.widget? n = some w) (steps : Nat) (s : σ)
    : walk? visit (steps + 1) s n l
        = ((l.update n fun _ => (visit s w).1.1).children n).foldlM
            (collect fun child l => walk? visit steps (visit s w).2 child l)
            ([(visit s w).1.2], l.update n fun _ => (visit s w).1.1) := by
  rw [walk?, hw]

theorem exists_walk? {visit : σ → Widget → (Widget × ρ) × σ}
    (hvisit : ∀ s w, (visit s w).1.1.number = w.number)
    (hnodup : (t.toList.map (·.number)).Nodup)
    (hcells : l.Holds (t.cells q)) (hsteps : t.toList.length ≤ steps) (s : σ)
    : ∃ l', walk? visit steps s t.value.number l
          = some ((t.mapDown visit s).toList.map (·.2), l') ∧
        l.Rewrites l' (t.cells q) (((t.mapDown visit s).map (·.1)).cells q) := by
  induction t generalizing l q steps s with
  | node w ts ih =>
    rw [← Tree.map_number_cells q, Tree.cells_node] at hnodup
    rw [Tree.cells_node] at hcells
    rw [Tree.toList_node, List.length_cons] at hsteps
    have hroot : l.cell? w.number = some ⟨w, q, ts.map (·.value.number)⟩ :=
      hcells _ List.mem_cons_self
    have hfirst : l.Rewrites (l.update w.number fun _ => (visit s w).1.1) _ _ :=
      .update hroot rfl (hvisit s w)
    have hnew := hfirst.holds _ List.mem_cons_self
    rw [hvisit s w] at hnew
    rcases Nat.exists_eq_add_of_le' hsteps with ⟨k, hk⟩
    show ∃ l', walk? visit steps s w.number l = _ ∧ _
    rw [hk, ← Nat.add_assoc, walk?_succ (widget?_of_cell? hroot), children_of_cell? hnew]
    have hall := hnodup
    rw [List.map_cons, ← List.singleton_append, List.nodup_append] at hnodup
    rcases hnodup with ⟨_, hnodup, hdisjoint⟩
    have hrest : (l.update w.number fun _ => (visit s w).1.1).Holds
        (ts.flatMap (Tree.cells (some w.number))) := by
      intro c hc
      apply hfirst.cell?_eq_of_disjoint (hcells c (List.mem_cons_of_mem _ hc))
      intro hmem
      exact hdisjoint _ hmem _ (List.mem_map_of_mem hc) rfl
    have hbelow : ∀ t ∈ ts, (t.toList.map (·.number)).Nodup →
        ∀ l : Links, l.Holds (t.cells (some w.number)) →
        ∃ l', walk? visit (k + (ts.flatMap Tree.toList).length) (visit s w).2 t.value.number l
              = some ((t.mapDown visit (visit s w).2).toList.map (·.2), l') ∧
            l.Rewrites l' (t.cells (some w.number))
              (((t.mapDown visit (visit s w).2).map (·.1)).cells (some w.number)) := by
      intro t ht hnodup l hcells
      have hlength := (Tree.toList_sublist ht).length_le
      exact ih t ht hnodup hcells (by omega) _
    rcases exists_foldlM_collect
      (fun n l => walk? visit (k + (ts.flatMap Tree.toList).length) (visit s w).2 n l)
      (Tree.mapDown visit (visit s w).2) (numbers_mapDown hvisit _) hbelow hnodup hrest
      [(visit s w).1.2] with ⟨l', hrun, hothers⟩
    refine ⟨l', ?_, ?_⟩
    . dsimp only
      rw [hrun, Tree.mapDown_node, Tree.toList_node]
      simp [List.map_flatMap, List.flatMap_map]
    . have hboth := hfirst.append hothers (by simp [hvisit s w]) (by simpa using hall)
      have hnumbers : ∀ t : Tree Widget, (t.mapDown visit (visit s w).2).value.1.number
          = t.value.number := by
        intro t
        cases t with
        | node v us =>
          rw [Tree.mapDown_node]
          exact hvisit _ v
      rw [Tree.mapDown_node, Tree.map_node, Tree.cells_node, Tree.cells_node]
      simpa [List.flatMap_map, hnumbers, hvisit s w, Function.comp_def] using hboth

theorem traverse?_of_holds (hnodup : (t.toList.map (·.number)).Nodup)
    (hcells : l.Holds (t.cells q)) (hlength : t.toList.length ≤ l.count)
    : l.traverse? t.value.number = some (t.toList.map (·.number)) := by
  let visit : Unit → Widget → (Widget × Nat) × Unit := fun _ w => ((w, w.number), ())
  have hvisit : ∀ s w, (visit s w).1.1.number = w.number := fun _ _ => rfl
  rcases exists_walk? hvisit hnodup hcells (Nat.le_succ_of_le hlength) () with ⟨l', hout, _⟩
  have hnumbers := congrArg Tree.toList (Tree.map_mapDown (f := visit) (g := Prod.snd)
    (h := Widget.number) (fun _ _ => rfl) () t)
  rw [Tree.toList_map, Tree.toList_map] at hnumbers
  unfold traverse?
  rw [hout]
  exact congrArg some hnumbers

theorem findSomeM?_eq {search : Nat → Option (Option Nat)} {p : Tree Widget → Bool}
    (h : ∀ t ∈ ts, search t.value.number = some ((t.find? p).map (·.value.number)))
    : (ts.map (·.value.number)).findSomeM? search
        = some ((ts.findSome? (Tree.find? p)).map (·.value.number)) := by
  induction ts with
  | nil => rfl
  | cons t ts ih =>
    have hrest := ih fun t ht => h t (List.mem_cons_of_mem _ ht)
    rw [List.map_cons, List.findSomeM?, h t List.mem_cons_self, List.findSome?_cons]
    cases t.find? p with
    | none => exact hrest
    | some found => rfl

theorem findByStyleId?_succ {w : Widget} (hw : l.widget? n = some w) (id : String) (steps : Nat)
    : l.findByStyleId? id (steps + 1) n
        = if w.styleId? == some id then some (some n)
          else (l.children n).findSomeM? (l.findByStyleId? id steps) := by
  rw [findByStyleId?, hw]
  rfl

theorem findByStyleId?_eq (hcells : l.Holds (t.cells q)) (hsteps : t.toList.length ≤ steps)
    (id : String)
    : l.findByStyleId? id steps t.value.number
        = some ((t.find? (·.value.styleId? == some id)).map (·.value.number)) := by
  induction t generalizing q steps with
  | node w ts ih =>
    rw [Tree.toList_node, List.length_cons] at hsteps
    have hroot : l.cell? w.number = some ⟨w, q, ts.map (·.value.number)⟩ := hcells.root
    rcases Nat.exists_eq_add_of_le' hsteps with ⟨k, hk⟩
    show l.findByStyleId? id steps w.number = _
    rw [hk, ← Nat.add_assoc, findByStyleId?_succ (widget?_of_cell? hroot), Tree.find?_node,
      children_of_cell? hroot]
    by_cases hid : (w.styleId? == some id) = true
    . rw [if_pos hid, if_pos (by exact hid)]
      rfl
    . rw [if_neg hid, if_neg (by exact hid)]
      apply findSomeM?_eq
      intro t ht
      have hlength := (Tree.toList_sublist ht).length_le
      exact ih t ht (hcells.child ht) (by omega)

namespace Represents

theorem length_toList_le (h : l.Represents f) (ht : f.subtree? n = some t)
    : t.toList.length ≤ l.count := by
  rcases Forest.exists_widgets_modify (h.numbered.countP_le_one n) ht
    with ⟨left, right, hwidgets, _⟩
  rw [← h.length_widgets, hwidgets]
  simp
  omega

theorem nodup_toList (h : l.Represents f) (ht : f.subtree? n = some t)
    : (t.toList.map (·.number)).Nodup := by
  have hnodup := h.numbered.nodup
  rcases Forest.exists_widgets_modify (h.numbered.countP_le_one n) ht
    with ⟨left, right, hwidgets, _⟩
  rw [hwidgets, List.map_append, List.map_append, List.nodup_append, List.nodup_append] at hnodup
  exact hnodup.1.2.1

theorem walk? (h : l.Represents f) (visit : σ → Widget → (Widget × ρ) × σ)
    (hvisit : ∀ s w, (visit s w).1.1.number = w.number) (s : σ) (n : Nat)
    : ∃ l', Links.walk? visit (l.count + 1) s n l
          = some ((f.subtree? n).elim [] fun t => (t.mapDown visit s).toList.map (·.2), l') ∧
        l'.Represents (f.modify n fun t => (t.mapDown visit s).map (·.1)) := by
  cases ht : f.subtree? n with
  | none =>
    refine ⟨l, ?_, ?_⟩
    . rw [Links.walk?, h.widget?_eq, Forest.widget?, ht]
      rfl
    . rw [Forest.modify_of_subtree?_eq_none ht]
      exact h
  | some t =>
    have hnumber := Forest.number_of_subtree? ht
    rcases h.exists_cells_of_subtree? ht with ⟨q, hcells⟩
    have hsteps : t.toList.length ≤ l.count + 1 := Nat.le_succ_of_le (h.length_toList_le ht)
    rcases exists_walk? hvisit (h.nodup_toList ht) hcells hsteps s with ⟨l', hout, hrewrites⟩
    rw [hnumber] at hout
    exact ⟨l', hout, h.modify ht hcells (numbers_mapDown hvisit s t) hrewrites⟩

theorem traverse?_eq (h : l.Represents f) (n : Nat) : l.traverse? n = some (f.traverse n) := by
  unfold Forest.traverse
  cases ht : f.subtree? n with
  | none =>
    unfold traverse? Links.walk?
    rw [h.widget?_eq, Forest.widget?, ht]
    rfl
  | some t =>
    rcases h.exists_cells_of_subtree? ht with ⟨q, hcells⟩
    rw [← Forest.number_of_subtree? ht]
    exact traverse?_of_holds (h.nodup_toList ht) hcells (h.length_toList_le ht)

theorem findByStyleId?_eq (h : l.Represents f) (n : Nat) (id : String)
    : l.findByStyleId? id (l.count + 1) n = some (f.findByStyleId? n id) := by
  unfold Forest.findByStyleId?
  cases ht : f.subtree? n with
  | none =>
    have hcell := h.subtree?_eq_none_iff.1 ht
    unfold Links.findByStyleId? widget? children
    rw [hcell]
    rfl
  | some t =>
    rcases h.exists_cells_of_subtree? ht with ⟨q, hcells⟩
    have hsteps : t.toList.length ≤ l.count + 1 := Nat.le_succ_of_le (h.length_toList_le ht)
    rw [← Forest.number_of_subtree? ht, Links.findByStyleId?_eq hcells hsteps]
    dsimp only [bind, Option.bind]
    cases t.find? (·.value.styleId? == some id) <;> rfl

theorem style? (h : l.Represents f) (context : StyleContext)
    (candidates : List ElementInfo → List Candidate) (n : Nat)
    : ∃ l', l.style? context candidates n
          = some ((f.restyle n (Cascade.run context candidates)).2, l') ∧
        l'.Represents (f.restyle n (Cascade.run context candidates)).1 := by
  rcases h.walk? (Cascade.visit context.registry candidates)
    (fun above w => (Widget.StyledTo.visit _ _ above w).number_eq) {} n with ⟨l', hout, hl'⟩
  refine ⟨l', ?_, ?_⟩
  . unfold Links.style? Forest.restyle
    rw [hout]
    cases f.subtree? n with
    | none => rfl
    | some t => rfl
  . unfold Forest.restyle
    cases ht : f.subtree? n with
    | none =>
      rw [Forest.modify_of_subtree?_eq_none ht] at hl'
      exact hl'
    | some t =>
      rw [← h.numbered.modify_const ht] at hl'
      exact hl'

theorem resetStyles? (h : l.Represents f) (n : Nat)
    : ∃ l', l.resetStyles? n = some l' ∧ l'.Represents (f.resetStyles n) := by
  rcases h.walk? (fun _ w => ((Stylable.clearStyles w, ()), ())) (fun _ _ => rfl) () n
    with ⟨l', hout, hl'⟩
  refine ⟨l', ?_, ?_⟩
  . unfold Links.resetStyles?
    rw [hout]
    rfl
  . have hchange : (fun t : Tree Widget => (t.mapDown
        (fun (_ : Unit) w => ((Stylable.clearStyles w, ()), ())) ()).map (·.1))
        = Tree.resetStyles := by
      funext t
      apply Tree.map_mapDown
      intro _ _
      rfl
    rw [hchange] at hl'
    exact hl'

theorem update {change : Widget → Widget} (h : l.Represents f)
    (hchange : ∀ w, l.widget? n = some w → (change w).number = n)
    : (l.update n change).Represents (f.update n change) := by
  cases ht : f.subtree? n with
  | none =>
    have hnone := h.subtree?_eq_none_iff.1 ht
    have hsame : l.update n change = l := by
      apply ext_cell?
      intro m
      unfold Links.update
      rw [cell?_modify]
      split
      . next hm =>
        rw [hm, hnone]
        rfl
      . rfl
    rw [hsame]
    unfold Forest.update
    rw [Forest.modify_of_subtree?_eq_none ht]
    exact h
  | some t =>
    have hnumber := Forest.number_of_subtree? ht
    rcases Forest.exists_cells_modify (h.numbered.countP_le_one n) ht
      with ⟨q, left, right, hcells, hmodify⟩
    let others := t.children.flatMap (Tree.cells (some n)) ++ (left ++ right)
    have hbefore : f.cells.Perm ([⟨t.value, q, t.children.map (·.value.number)⟩] ++ others) := by
      rw [hcells, Tree.cells_eq_cons, hnumber, List.perm_iff_count]
      intro c
      simp only [others, List.count_append, List.count_cons, List.count_nil]
      omega
    have hroot := h.holds _ (hbefore.symm.subset List.mem_cons_self)
    dsimp only at hroot
    rw [hnumber] at hroot
    have hnew := hchange t.value (widget?_of_cell? hroot)
    have hafter : (f.update n change).cells.Perm
        ([⟨change t.value, q, t.children.map (·.value.number)⟩] ++ others) := by
      unfold Forest.update
      rw [hmodify (fun t => .node (change t.value) t.children) hnew, Tree.cells_node, hnew,
        List.perm_iff_count]
      intro c
      simp only [others, List.count_append, List.count_cons, List.count_nil]
      omega
    apply h.replace (.update hroot hnumber hnew) hbefore hafter
    . rw [List.map_singleton, List.map_singleton, hnumber, hnew]
    . rfl

theorem tryUpdate {change : Widget → Except WidgetError Widget} (h : l.Represents f)
    (hchange : ∀ w w', change w = .ok w' → w'.number = w.number)
    : l.Tracks (l.tryUpdate n change) (f.tryUpdate n change) := by
  unfold Links.tryUpdate Forest.tryUpdate
  rw [← h.widget?_eq]
  cases hw : l.widget? n with
  | none => exact .error _
  | some w =>
    cases hset : change w with
    | error e =>
      dsimp only
      rw [hset]
      exact .error _
    | ok w' =>
      dsimp only
      rw [hset]
      refine .ok (h.update ?_)
      intro v hv
      rw [hchange w w' hset]
      exact (h.numbered.widget?_eq_some_iff.1 (h.widget?_eq n ▸ hw)).2

end Represents

structure WalksEnd (l : Links) : Prop where
  climbs? : ∀ target n, n < l.count → ∃ b, l.climbs? target l.count n = some b
  traverse? : ∀ n, ∃ numbers, l.traverse? n = some numbers
  findByStyleId? : ∀ n id, ∃ found?, l.findByStyleId? id (l.count + 1) n = some found?
  resetStyles? : ∀ n, ∃ l', l.resetStyles? n = some l'
  style? : ∀ context candidates n, ∃ result, l.style? context candidates n = some result

structure Mirrors (l : Links) (f : Forest) : Prop where
  widget?_eq : ∀ n, l.widget? n = f.widget? n
  parent?_eq : ∀ n, l.parent? n = f.parent? n
  children_eq : ∀ n, l.children n = f.children n
  traverse?_eq : ∀ n, l.traverse? n = some (f.traverse n)
  findByStyleId?_eq : ∀ n id, l.findByStyleId? id (l.count + 1) n = some (f.findByStyleId? n id)

theorem Represents.walksEnd (h : l.Represents f) : l.WalksEnd where
  climbs? target _ hn := h.exists_climbs? hn target
  traverse? n := ⟨_, h.traverse?_eq n⟩
  findByStyleId? n id := ⟨_, h.findByStyleId?_eq n id⟩
  resetStyles? n := by
    rcases h.resetStyles? n with ⟨l', hout, _⟩
    exact ⟨l', hout⟩
  style? context candidates n := by
    rcases h.style? context candidates n with ⟨l', hout, _⟩
    exact ⟨_, hout⟩

theorem Represents.mirrors (h : l.Represents f) : l.Mirrors f where
  widget?_eq := h.widget?_eq
  parent?_eq := h.parent?_eq
  children_eq := h.children_eq
  traverse?_eq := h.traverse?_eq
  findByStyleId?_eq := h.findByStyleId?_eq

namespace Respects

theorem foldlM_collect {visit : Nat → Links → Option (List ρ × Links)}
    (hvisit : ∀ n l rs l', l.Respects → visit n l = some (rs, l') → l'.Respects)
    {ns : List Nat} {rs rs' : List ρ} (h : l.Respects)
    (hout : ns.foldlM (collect visit) (rs, l) = some (rs', l')) : l'.Respects := by
  induction ns generalizing l rs with
  | nil =>
    cases hout
    exact h
  | cons n ns ih =>
    rw [List.foldlM_cons] at hout
    rcases Option.bind_eq_some_iff.1 hout with ⟨⟨rs₁, l₁⟩, hfirst, hrest⟩
    rcases Option.map_eq_some_iff.1 hfirst with ⟨⟨rs₂, l₂⟩, hvisited, heq⟩
    cases heq
    exact ih (hvisit n l rs₂ l₁ h hvisited) hrest

theorem walk? {visit : σ → Widget → (Widget × ρ) × σ}
    (hvisit : ∀ s w, (visit s w).1.1.kind = w.kind) {s : σ} {rs : List ρ} (h : l.Respects)
    (hout : Links.walk? visit steps s n l = some (rs, l')) : l'.Respects := by
  induction steps generalizing s n l l' rs with
  | zero => cases hout
  | succ steps ih =>
    cases hw : l.widget? n with
    | none =>
      rw [Links.walk?, hw] at hout
      cases hout
      exact h
    | some w =>
      rw [walk?_succ hw] at hout
      refine foldlM_collect ?_ (h.update ?_) hout
      . intro m l₁ rs₁ l₂ hl₁ hbelow
        exact ih hl₁ hbelow
      . intro v hv
        rw [hw] at hv
        cases hv
        exact hvisit s w

theorem style? {context : StyleContext} {candidates : List ElementInfo → List Candidate}
    {report : Report} (h : l.Respects) (hout : l.style? context candidates n = some (report, l'))
    : l'.Respects := by
  rcases Option.map_eq_some_iff.1 hout with ⟨⟨tallies, l₁⟩, hwalk, heq⟩
  cases heq
  exact h.walk? (fun above w => (Widget.StyledTo.visit _ _ above w).kind_eq) hwalk

theorem resetStyles? (h : l.Respects) (hout : l.resetStyles? n = some l') : l'.Respects := by
  rcases Option.map_eq_some_iff.1 hout with ⟨⟨units, l₁⟩, hwalk, heq⟩
  cases heq
  exact h.walk? (fun _ _ => rfl) hwalk

theorem tryUpdate {change : Widget → Except WidgetError Widget} (h : l.Respects)
    (hchange : ∀ w w', change w = .ok w' → w'.kind = w.kind)
    : (l.tryUpdate n change).2.Respects := by
  unfold Links.tryUpdate
  cases hw : l.widget? n with
  | none => exact h
  | some w =>
    dsimp only
    cases hset : change w with
    | error e => exact h
    | ok w' =>
      apply h.update
      intro v hv
      rw [hw] at hv
      cases hv
      exact hchange w w' hset

end Respects

end TreeStyle.Links
