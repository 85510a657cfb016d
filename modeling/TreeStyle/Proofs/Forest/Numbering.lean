import Mathlib.Data.List.Basic
import Mathlib.Data.List.Nodup
import TreeStyle.Proofs.Subtree
import TreeStyle.Widget.Forest

/-!
This module contains the invariant of a forest: its widgets carry the numbers of their creation,
each number once. So a number means one widget, and what is done to that leaves the others alone.
Edits of the trees move widgets about, without a gain or a loss.
-/

namespace TreeStyle.Forest

variable {f g : Forest} {n : Nat} {w : Widget} {t : Tree Widget}

def Numbered (f : Forest) : Prop := (f.widgets.map (·.number)).Perm (List.range f.count)

theorem Numbered.of_perm (hf : f.Numbered) (hperm : g.widgets.Perm f.widgets)
    (hcount : g.count = f.count) : g.Numbered := by
  unfold Numbered at *
  rw [hcount]
  exact (hperm.map _).trans hf

theorem Numbered.nodup (hf : f.Numbered) : (f.widgets.map (·.number)).Nodup := by
  rw [hf.nodup_iff]
  apply List.nodup_range

theorem Numbered.countP_le_one (hf : f.Numbered) (n : Nat)
    : f.widgets.countP (·.number == n) ≤ 1 := by
  have hcount := List.nodup_iff_count_le_one.1 hf.nodup n
  rw [List.count_eq_countP, List.countP_map] at hcount
  exact hcount

theorem Numbered.eq_of_number_eq (hf : f.Numbered) {v : Widget} (hv : v ∈ f.widgets)
    (hw : w ∈ f.widgets) (h : v.number = w.number) : v = w := by
  exact List.inj_on_of_nodup_map hf.nodup hv hw h

theorem subtree?_eq_none_iff : f.subtree? n = none ↔ ∀ w ∈ f.widgets, w.number ≠ n := by
  unfold subtree? widgets
  rw [List.findSome?_eq_none_iff]
  constructor
  . intro hnone w hw
    rcases List.mem_flatMap.1 hw with ⟨t, ht, hw⟩
    have hfalse := (Tree.find?_eq_none_iff (p := (·.number == n))).1 (hnone t ht) w hw
    simpa using hfalse
  . intro hall t ht
    apply (Tree.find?_eq_none_iff (p := fun w : Widget => w.number == n)).2
    intro w hw
    have hne := hall w (List.mem_flatMap.2 ⟨t, ht, hw⟩)
    simpa using hne

theorem number_of_subtree? (h : f.subtree? n = some t) : t.value.number = n := by
  rcases List.exists_of_findSome?_eq_some h with ⟨root, _, h⟩
  have hnumber := Tree.find?_some h
  simpa [isNumber] using hnumber

theorem toList_subset_of_subtree? (h : f.subtree? n = some t) : t.toList ⊆ f.widgets := by
  rcases List.exists_of_findSome?_eq_some h with ⟨root, hroot, h⟩
  intro w hw
  exact List.mem_flatMap.2 ⟨root, hroot, Tree.toList_subset_of_find? h hw⟩

theorem exists_subtree?_of_mem (hw : w ∈ f.widgets) : ∃ t, f.subtree? w.number = some t := by
  cases h : f.subtree? w.number with
  | none => exact absurd rfl (subtree?_eq_none_iff.1 h w hw)
  | some t => exact ⟨t, rfl⟩

theorem Numbered.widget?_eq_some_iff (hf : f.Numbered)
    : f.widget? n = some w ↔ w ∈ f.widgets ∧ w.number = n := by
  unfold widget?
  rw [Option.map_eq_some_iff]
  constructor
  . intro h
    rcases h with ⟨t, ht, hvalue⟩
    rw [← hvalue]
    exact ⟨toList_subset_of_subtree? ht (Tree.value_mem_toList t), number_of_subtree? ht⟩
  . intro h
    rcases h with ⟨hw, hnumber⟩
    rcases exists_subtree?_of_mem hw with ⟨t, ht⟩
    refine ⟨t, hnumber ▸ ht, ?_⟩
    apply hf.eq_of_number_eq _ hw (number_of_subtree? ht)
    exact toList_subset_of_subtree? ht (Tree.value_mem_toList t)

theorem exists_context (hone : f.widgets.countP (·.number == n) ≤ 1)
    (h : f.subtree? n = some t)
    : ∃ c : Tree.Context Widget, c.Surrounds (·.number == n) f.trees t := by
  apply Tree.exists_context_of_mem
  . intro t _ hone hfind
    exact Tree.exists_context hone hfind
  . exact hone
  . exact h

theorem exists_widgets_modify (hone : f.widgets.countP (·.number == n) ≤ 1)
    (h : f.subtree? n = some t)
    : ∃ left right, f.widgets = left ++ t.toList ++ right ∧
        ∀ change, (f.modify n change).widgets = left ++ (change t).toList ++ right := by
  rcases exists_context hone h with ⟨c, hc⟩
  refine ⟨c.left, c.right, ?_, ?_⟩
  . unfold widgets
    rw [← hc.fill_eq, c.toList_fill]
  . intro change
    unfold modify widgets
    dsimp only
    rw [hc change, c.toList_fill]

theorem modify_of_subtree?_eq_none (h : f.subtree? n = none) (change : Tree Widget → Tree Widget)
    : f.modify n change = f := by
  rw [subtree?_eq_none_iff] at h
  unfold modify
  rw [Tree.map_modify_of_forall]
  intro w hw
  simpa using h w hw

theorem Numbered.modify_const (hf : f.Numbered) (h : f.subtree? n = some t)
    (change : Tree Widget → Tree Widget)
    : f.modify n (fun _ => change t) = f.modify n change := by
  rcases exists_context (hf.countP_le_one n) h with ⟨c, hc⟩
  unfold modify
  rw [hc change, hc fun _ => change t]

theorem subtree?_eq_none_of_widget? (h : f.widget? n = none) : f.subtree? n = none :=
  Option.map_eq_none_iff.1 h

theorem update_of_widget?_eq_none (h : f.widget? n = none) (change : Widget → Widget)
    : f.update n change = f :=
  modify_of_subtree?_eq_none (subtree?_eq_none_of_widget? h) _

theorem Numbered.exists_widgets_update (hf : f.Numbered) (h : f.widget? n = some w)
    : ∃ left right, f.widgets = left ++ w :: right ∧
        ∀ change, (f.update n change).widgets = left ++ change w :: right := by
  rcases Option.map_eq_some_iff.1 h with ⟨t, ht, hvalue⟩
  rcases exists_widgets_modify (hf.countP_le_one n) ht with ⟨left, right, hwidgets, hmodify⟩
  refine ⟨left, t.children.flatMap Tree.toList ++ right, ?_, ?_⟩
  . rw [hwidgets, Tree.toList_eq_cons, hvalue]
    simp
  . intro change
    unfold update
    rw [hmodify, Tree.toList_node, hvalue]
    simp

theorem Numbered.mem_widgets_update (hf : f.Numbered) (h : f.widget? n = some w)
    (change : Widget → Widget) : change w ∈ (f.update n change).widgets := by
  rcases hf.exists_widgets_update h with ⟨left, right, _, hupdate⟩
  rw [hupdate]
  simp

theorem numbered_empty : ({} : Forest).Numbered := List.Perm.refl _

theorem widgets_create (f : Forest) (kind : WidgetKind)
    : (f.create kind).2.widgets = f.widgets ++ [{ number := f.count, kind }] := by
  simp [create, widgets, Tree.toList_node]

theorem Numbered.create (hf : f.Numbered) (kind : WidgetKind) : (f.create kind).2.Numbered := by
  unfold Numbered at *
  rw [widgets_create, List.map_append]
  show (f.widgets.map (·.number) ++ [f.count]).Perm (List.range (f.count + 1))
  rw [List.range_succ]
  exact hf.append_right _

section Edit

variable {parent child : Nat}

theorem exists_filter_eq {ts : List (Tree Widget)}
    (hone : (ts.flatMap Tree.toList).countP (·.number == n) ≤ 1) (ht : t ∈ ts)
    (hn : isNumber n t = true)
    : ∃ before after, ts = before ++ t :: after ∧
        ts.filter (!isNumber n ·) = before ++ after := by
  rcases List.append_of_mem ht with ⟨before, after, hts⟩
  have hpos : 0 < t.toList.countP (·.number == n) := by
    apply List.countP_pos_iff.2
    exact ⟨t.value, Tree.value_mem_toList t, hn⟩
  rw [hts, List.flatMap_append, List.flatMap_cons, List.countP_append, List.countP_append] at hone
  have hother : ∀ others : List (Tree Widget),
      (others.flatMap Tree.toList).countP (·.number == n) = 0 →
      others.filter (!isNumber n ·) = others := by
    intro others hzero
    rw [List.countP_eq_zero] at hzero
    apply List.filter_eq_self.2
    intro u hu
    have hne := hzero u.value (List.mem_flatMap.2 ⟨u, hu, Tree.value_mem_toList u⟩)
    simpa [isNumber] using hne
  refine ⟨before, after, hts, ?_⟩
  rw [hts, List.filter_append, List.filter_cons_of_neg (by simp [hn]), hother before (by omega),
    hother after (by omega)]

theorem eq_or_isSome_parent {s : Tree Widget} (h : t.find? (isNumber n) = some s)
    : s = t ∨ (t.find? (·.children.any (isNumber n))).isSome = true := by
  induction t with
  | node a ts ih =>
    rw [Tree.find?_node] at h
    split at h
    . cases h
      exact Or.inl rfl
    . rcases List.exists_of_findSome?_eq_some h with ⟨t, ht, h⟩
      apply Or.inr
      rw [Tree.find?_node]
      split
      . rfl
      . next hchildren =>
        rw [List.findSome?_isSome_iff]
        refine ⟨t, ht, ?_⟩
        rcases ih t ht h with heq | hsome
        . -- The node above would have this child.
          have hany : (Tree.node a ts).children.any (isNumber n) = true := by
            apply List.any_eq_true.2
            exact ⟨t, ht, heq ▸ Tree.find?_some h⟩
          exact absurd hany hchildren
        . exact hsome

theorem mem_trees_of_parent?_eq_none (h : f.subtree? n = some t) (hparent : f.parent? n = none)
    : t ∈ f.trees := by
  rcases List.exists_of_findSome?_eq_some h with ⟨root, hroot, h⟩
  rcases eq_or_isSome_parent h with heq | hsome
  . rw [heq]
    exact hroot
  . unfold parent? at hparent
    rw [Option.map_eq_none_iff, List.findSome?_eq_none_iff] at hparent
    rw [hparent root hroot] at hsome
    cases hsome

theorem toList_append_child (t c : Tree Widget)
    : (Tree.node t.value (t.children ++ [c])).toList = t.toList ++ c.toList := by
  rw [Tree.toList_node, Tree.toList_eq_cons t]
  simp

theorem exists_dropRoot (hf : f.Numbered) {c : Tree Widget} (hchild : f.subtree? child = some c)
    (hroot : f.parent? child = none)
    : ∃ before after, f.trees = before ++ c :: after ∧
        (f.dropRoot child).trees = before ++ after := by
  have hmem := mem_trees_of_parent?_eq_none hchild hroot
  have hnumber : isNumber child c = true := by
    simp [isNumber, number_of_subtree? hchild]
  exact exists_filter_eq (hf.countP_le_one child) hmem hnumber

theorem exists_subtree?_dropRoot (hf : f.Numbered) {c : Tree Widget}
    (hchild : f.subtree? child = some c) (hroot : f.parent? child = none)
    (hparent : ∃ p, f.subtree? parent = some p) (hancestor : ∀ w ∈ c.toList, w.number ≠ parent)
    : (f.dropRoot child).widgets.countP (·.number == parent) ≤ 1 ∧
        ∃ t, (f.dropRoot child).subtree? parent = some t := by
  rcases exists_dropRoot hf hchild hroot with ⟨before, after, htrees, hrest⟩
  have hall : f.widgets
      = before.flatMap Tree.toList ++ (c.toList ++ after.flatMap Tree.toList) := by
    unfold widgets
    rw [htrees]
    simp
  have hleft : (f.dropRoot child).widgets
      = before.flatMap Tree.toList ++ after.flatMap Tree.toList := by
    unfold widgets
    rw [hrest]
    simp
  constructor
  . have hcount := hf.countP_le_one parent
    rw [hall] at hcount
    rw [hleft]
    simp only [List.countP_append] at *
    omega
  . rcases hparent with ⟨p, hp⟩
    have hvalue := toList_subset_of_subtree? hp (Tree.value_mem_toList p)
    have hnum := number_of_subtree? hp
    rw [← hnum]
    apply exists_subtree?_of_mem
    rw [hleft]
    rw [hall] at hvalue
    simp only [List.mem_append] at hvalue ⊢
    rcases hvalue with h | h | h
    . exact Or.inl h
    . exact absurd hnum (hancestor _ h)
    . exact Or.inr h

theorem widgets_moveRoot (hf : f.Numbered) {c : Tree Widget} (hchild : f.subtree? child = some c)
    (hroot : f.parent? child = none) (hparent : ∃ p, f.subtree? parent = some p)
    (hancestor : ∀ w ∈ c.toList, w.number ≠ parent)
    : ((f.dropRoot child).modify parent fun t => .node t.value (t.children ++ [c])).widgets.Perm
        f.widgets := by
  rcases exists_dropRoot hf hchild hroot with ⟨before, after, htrees, hrest⟩
  rcases exists_subtree?_dropRoot hf hchild hroot hparent hancestor with ⟨hone, t, ht⟩
  rcases exists_widgets_modify hone ht with ⟨left, right, hwidgets, hmodify⟩
  rw [hmodify, toList_append_child]
  unfold widgets at hwidgets ⊢
  rw [hrest] at hwidgets
  rw [htrees, List.perm_iff_count]
  intro w
  have hcount := congrArg (List.count w) hwidgets
  simp only [List.count_append, List.flatMap_append, List.flatMap_cons] at hcount ⊢
  omega

theorem Numbered.widgets_addChild (hf : f.Numbered) (h : f.addChild parent child = .ok g)
    : g.widgets.Perm f.widgets ∧ g.count = f.count := by
  unfold addChild at h
  split at h
  . next c hissue hchild =>
    cases h
    refine ⟨?_, rfl⟩
    unfold addIssue? at hissue
    rw [hchild] at hissue
    split at hissue
    . cases hissue
    . cases hissue
    . next p c' hparent hc' =>
      cases hc'
      split at hissue
      . cases hissue
      . split at hissue
        . cases hissue
        . next hroot =>
          split at hissue
          . cases hissue
          . next hancestor =>
            apply widgets_moveRoot hf hchild (by simpa using hroot) ⟨p, hparent⟩
            simpa using hancestor
  . cases h
  . cases h

theorem Numbered.exists_filter_children (hf : f.Numbered) {p c : Tree Widget}
    (hparent : f.subtree? parent = some p) (hfind : p.children.find? (isNumber child) = some c)
    : ∃ before after, p.children = before ++ c :: after ∧
        p.children.filter (!isNumber child ·) = before ++ after := by
  rcases exists_widgets_modify (hf.countP_le_one parent) hparent with ⟨left, right, hwidgets, _⟩
  have hone : (p.children.flatMap Tree.toList).countP (·.number == child) ≤ 1 := by
    have hcount := hf.countP_le_one child
    rw [hwidgets, Tree.toList_eq_cons] at hcount
    simp only [List.countP_append, List.countP_cons] at hcount
    omega
  exact exists_filter_eq hone (List.mem_of_find?_eq_some hfind) (List.find?_some hfind)

theorem Numbered.widgets_removeChild (hf : f.Numbered) (parent child : Nat)
    : (f.removeChild parent child).2.widgets.Perm f.widgets ∧
        (f.removeChild parent child).2.count = f.count := by
  unfold removeChild
  split
  . exact ⟨List.Perm.refl _, rfl⟩
  . next c hfind =>
    refine ⟨?_, rfl⟩
    rcases Option.bind_eq_some_iff.1 hfind with ⟨p, hparent, hfind⟩
    rcases exists_widgets_modify (hf.countP_le_one parent) hparent
      with ⟨left, right, hwidgets, hmodify⟩
    rcases hf.exists_filter_children hparent hfind with ⟨before, after, hchildren, hfilter⟩
    have hrest := hmodify fun t => .node t.value (t.children.filter (!isNumber child ·))
    rw [hfilter, Tree.toList_node] at hrest
    rw [hwidgets, Tree.toList_eq_cons p, hchildren]
    unfold widgets at hrest ⊢
    rw [List.flatMap_append, hrest, List.perm_iff_count]
    intro w
    simp only [List.count_append, List.count_cons, List.flatMap_append, List.flatMap_cons,
      List.flatMap_nil, List.append_nil]
    omega

theorem Numbered.widgets_setContent (hf : f.Numbered) {content : Nat}
    (h : f.setContent parent content = .ok g)
    : g.widgets.Perm f.widgets ∧ g.count = f.count := by
  unfold setContent at h
  split at h
  . cases h
  . split at h
    . cases h
    . split at h
      . exact hf.widgets_addChild h
      . next previous _ =>
        split at h
        . cases h
          exact ⟨List.Perm.refl _, rfl⟩
        . have hremove := hf.widgets_removeChild parent previous
          have hadd := (hf.of_perm hremove.1 hremove.2).widgets_addChild h
          exact ⟨hadd.1.trans hremove.1, hadd.2.trans hremove.2⟩

end Edit

end TreeStyle.Forest
