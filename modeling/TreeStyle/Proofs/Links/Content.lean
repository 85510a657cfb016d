import TreeStyle.Proofs.Links.Edit

/-!
This module contains what links keep of the content models: no widget gets children that its model
does not allow. So a widget with a single child has no other one to lose while that is replaced.
-/

namespace TreeStyle

def ContentModel.Allows : ContentModel → List WidgetKind → Prop
  | .leaf, kinds => kinds = []
  | .single, kinds => kinds.length ≤ 1 ∧ ∀ kind ∈ kinds, kind.isPage = false
  | .views, kinds => ∀ kind ∈ kinds, kind.isPage = false
  | .pages, kinds => ∀ kind ∈ kinds, kind.isPage = true

namespace ContentModel.Allows

variable {model : ContentModel} {kinds kinds' : List WidgetKind}

theorem nil (model : ContentModel) : model.Allows [] := by
  cases model <;> simp [Allows]

theorem sublist (h : model.Allows kinds) (hsublist : kinds'.Sublist kinds)
    : model.Allows kinds' := by
  cases model with
  | leaf =>
    unfold Allows at *
    rw [h] at hsublist
    exact List.sublist_nil.1 hsublist
  | single =>
    exact ⟨Nat.le_trans hsublist.length_le h.1, fun kind hkind => h.2 kind (hsublist.subset hkind)⟩
  | views => exact fun kind hkind => h kind (hsublist.subset hkind)
  | pages => exact fun kind hkind => h kind (hsublist.subset hkind)

theorem concat {parent child : WidgetKind} {count : Nat} (h : parent.contentModel.Allows kinds)
    (hcount : kinds.length ≤ count) (hissue : Forest.contentIssue? parent count child = none)
    : parent.contentModel.Allows (kinds ++ [child]) := by
  have hall : ∀ b, (∀ kind ∈ kinds, kind.isPage = b) → child.isPage = b →
      ∀ kind ∈ kinds ++ [child], kind.isPage = b := by
    intro b hkinds hchild kind hkind
    rw [List.mem_append, List.mem_singleton] at hkind
    rcases hkind with hkind | hkind
    . exact hkinds kind hkind
    . rw [hkind, hchild]
  unfold Forest.contentIssue? at hissue
  cases hmodel : parent.contentModel with
  | leaf =>
    rw [hmodel] at hissue
    cases hissue
  | single =>
    rw [hmodel] at hissue
    dsimp only at hissue
    split at hissue
    . cases hissue
    . next hzero =>
      split at hissue
      . cases hissue
      . next hpage =>
        have hnil : kinds = [] := List.eq_nil_of_length_eq_zero (by omega)
        rw [hnil]
        simpa [Allows] using hpage
  | views =>
    rw [hmodel] at hissue h
    dsimp only at hissue
    split at hissue
    . cases hissue
    . next hpage => exact hall false h (by simpa using hpage)
  | pages =>
    rw [hmodel] at hissue h
    dsimp only at hissue
    split at hissue
    . next hpage => exact hall true h hpage
    . cases hissue

end ContentModel.Allows

namespace Links

variable {l l' : Links} {f g : Forest} {n parent child : Nat} {c : Cell}

def kind? (l : Links) (n : Nat) : Option WidgetKind := (l.widget? n).map (·.kind)

def Respects (l : Links) : Prop :=
  ∀ n w, l.widget? n = some w → w.kind.contentModel.Allows ((l.children n).filterMap l.kind?)

theorem kind?_of_cell? (h : l.cell? n = some c) : l.kind? n = some c.widget.kind :=
  congrArg (Option.map Widget.kind) (widget?_of_cell? h)

theorem kind?_modify {change : Cell → Cell}
    (hchange : ∀ c, l.cell? n = some c → (change c).widget.kind = c.widget.kind)
    : (l.modify n change).kind? = l.kind? := by
  funext m
  unfold kind? widget?
  rw [cell?_modify, Option.map_map, Option.map_map]
  split
  . next hm =>
    rw [hm]
    cases hc : l.cell? n with
    | none => rfl
    | some c => exact congrArg some (hchange c hc)
  . rfl

theorem children_modify (l : Links) (n : Nat) (change : Cell → Cell) (m : Nat)
    : (l.modify n change).children m =
        if m = n then (l.cell? m).elim [] fun c => (change c).children else l.children m := by
  unfold children
  rw [cell?_modify]
  split
  . cases l.cell? m <;> rfl
  . rfl

namespace Respects

theorem empty : ({} : Links).Respects := by
  intro n w hw
  cases hw

theorem of_sublist (h : l.Respects) (hkind : l'.kind? = l.kind?)
    (hchildren : ∀ n, (l'.children n).Sublist (l.children n)) : l'.Respects := by
  intro n w hw
  have hn : l.kind? n = some w.kind := by
    rw [← hkind]
    exact congrArg (Option.map (·.kind)) hw
  rcases Option.map_eq_some_iff.1 hn with ⟨v, hv, hvkind⟩
  have hallows := h n v hv
  rw [hvkind] at hallows
  rw [hkind]
  exact hallows.sublist ((hchildren n).filterMap _)

theorem modify (h : l.Respects) {change : Cell → Cell}
    (hkind : ∀ c, l.cell? n = some c → (change c).widget.kind = c.widget.kind)
    (hchildren : ∀ c, (change c).children.Sublist c.children) : (l.modify n change).Respects := by
  apply h.of_sublist (kind?_modify hkind)
  intro m
  rw [children_modify]
  split
  . unfold Links.children
    cases l.cell? m with
    | none => exact List.Sublist.slnil
    | some c => exact hchildren c
  . exact List.Sublist.refl _

theorem update (h : l.Respects) {change : Widget → Widget}
    (hchange : ∀ w, l.widget? n = some w → (change w).kind = w.kind)
    : (l.update n change).Respects := by
  apply h.modify
  . intro c hc
    exact hchange c.widget (widget?_of_cell? hc)
  . intro c
    exact List.Sublist.refl _

theorem removeChild (h : l.Respects) (parent child : Nat)
    : (l.removeChild parent child).2.Respects := by
  unfold Links.removeChild
  split
  . have hparent : (l.modify parent fun c =>
        { c with children := c.children.erase child }).Respects :=
      h.modify (fun _ _ => rfl) fun c => List.erase_sublist
    exact hparent.modify (fun _ _ => rfl) fun c => List.Sublist.refl _
  . exact h

theorem attach (h : l.Respects) {p c : Cell} (hp : l.cell? parent = some p)
    (hc : l.cell? child = some c)
    (hissue : Forest.contentIssue? p.widget.kind p.children.length c.widget.kind = none)
    : (l.attach parent child).Respects := by
  have hkind : (l.attach parent child).kind? = l.kind? := by
    unfold Links.attach
    rw [kind?_modify, kind?_modify]
    . intro _ _
      rfl
    . intro _ _
      rfl
  have hchildren : ∀ n, (l.attach parent child).children n =
      if n = parent then l.children n ++ [child] else l.children n := by
    intro n
    have hkept : (l.modify child fun c => { c with parent? := some parent }).children n
        = l.children n := by
      rw [children_modify]
      unfold Links.children
      cases l.cell? n <;> simp
    unfold Links.attach
    rw [children_modify, hkept, cell?_modify]
    split
    . next hn =>
      rw [hn]
      unfold Links.children
      rw [hp]
      split <;> rfl
    . rfl
  intro n w hw
  have hn : l.kind? n = some w.kind := by
    rw [← hkind]
    exact congrArg (Option.map (·.kind)) hw
  rcases Option.map_eq_some_iff.1 hn with ⟨v, hv, hvkind⟩
  have hallows := h n v hv
  rw [hkind, hchildren, ← hvkind]
  split
  . next heq =>
    have hparentWidget : p.widget = v := by
      rw [heq, widget?_of_cell? hp] at hv
      exact Option.some.inj hv
    have hcount : ((l.children n).filterMap l.kind?).length ≤ p.children.length := by
      rw [heq, children_of_cell? hp]
      apply List.length_filterMap_le
    rw [hparentWidget] at hissue
    rw [List.filterMap_append, List.filterMap_cons_some (kind?_of_cell? hc)]
    exact hallows.concat hcount hissue
  . exact hallows

theorem create (h : l.Respects) (hl : l.Represents f) (kind : WidgetKind)
    : (l.create kind).2.Respects := by
  have hold : ∀ n, n ≠ l.count → (l.create kind).2.cell? n = l.cell? n := by
    intro n hn
    rw [cell?_create, if_neg hn]
  intro n w hw
  by_cases hn : n = l.count
  . have hnil : (l.create kind).2.children n = [] := by
      unfold Links.children
      rw [cell?_create, if_pos hn]
      rfl
    rw [hnil]
    exact .nil _
  . have hchildren : (l.create kind).2.children n = l.children n := by
      unfold Links.children
      rw [hold n hn]
    have hkinds : (l.children n).filterMap (l.create kind).2.kind?
        = (l.children n).filterMap l.kind? := by
      apply List.filterMap_congr
      intro m hm
      rcases exists_cell_of_parent? (hl.mem_children_iff.1 hm) with ⟨d, hd, _⟩
      have hlt := lt_count_of_cell? hd
      unfold kind? widget?
      rw [hold m (by omega)]
    rw [hchildren, hkinds]
    apply h n w
    unfold widget? at hw ⊢
    rw [← hold n hn]
    exact hw

theorem addChild {outcome : Except WidgetError Unit × Links} (h : l.Respects)
    (hout : l.addChild parent child = some outcome) : outcome.2.Respects := by
  unfold Links.addChild at hout
  cases hp : l.cell? parent with
  | none =>
    rw [hp] at hout
    cases hout
    exact h
  | some p =>
    cases hc : l.cell? child with
    | none =>
      rw [hp, hc] at hout
      cases hout
      exact h
    | some c =>
      rw [hp, hc] at hout
      dsimp only at hout
      split at hout
      . cases hout
        exact h
      . next hissue =>
        split at hout
        . cases hout
          exact h
        . split at hout
          . cases hout
          . cases hout
            exact h
          . cases hout
            exact h.attach hp hc hissue

end Respects

theorem attach_removeChild (hchildren : l.children parent = [child])
    (hparent : l.parent? child = some parent) (hne : child ≠ parent)
    : (l.removeChild parent child).2.attach parent child = l := by
  apply ext_cell?
  intro n
  rw [cell?_attach _ hne, cell?_removeChild (by simp [hchildren]) hne]
  split
  . next hn =>
    rw [hn]
    cases hc : l.cell? parent with
    | none => rfl
    | some c =>
      rw [children_of_cell? hc] at hchildren
      rcases c with ⟨w, p, children⟩
      dsimp only at hchildren
      simp [hchildren]
  . split
    . next hn =>
      rcases exists_cell_of_parent? hparent with ⟨c, hc, hlink⟩
      rw [hn, hc, ← hlink]
      rfl
    . rfl

theorem Respects.children_eq_singleton (h : l.Respects) (hl : l.Represents f) {w : Widget}
    (hw : l.widget? parent = some w) (hsingle : w.kind.contentModel = .single)
    (hhead : (l.children parent).head? = some child) : l.children parent = [child] := by
  have hallows := h parent w hw
  rw [hsingle] at hallows
  have hlength : ((l.children parent).filterMap l.kind?).length = (l.children parent).length := by
    rw [List.filterMap_length_eq_length]
    intro m hm
    rcases exists_cell_of_parent? (hl.mem_children_iff.1 hm) with ⟨c, hc, _⟩
    rw [kind?_of_cell? hc]
    rfl
  have hone := hallows.1
  rw [hlength] at hone
  rcases List.head?_eq_some_iff.1 hhead with ⟨rest, hrest⟩
  rw [hrest, List.length_cons] at hone
  rw [hrest, List.eq_nil_of_length_eq_zero (by omega : rest.length = 0)]

/--
The links get to the same answer as the forest. Where the new content is refused, the one before
comes back to its place, since there was no other.
-/
theorem Represents.setContent (h : l.Represents f) (hr : l.Respects) (parent content : Nat)
    : ∃ outcome, l.setContent parent content = some outcome ∧ outcome.2.Respects ∧
        l.Tracks outcome (f.setContent parent content) := by
  unfold Links.setContent Forest.setContent Forest.content?
  rw [← h.widget?_eq, ← h.children_eq]
  unfold widget? Links.children
  cases hp : l.cell? parent with
  | none => exact ⟨_, rfl, hr, .error _⟩
  | some p =>
    dsimp only [Option.map_some, Option.elim_some, bind, Option.bind]
    by_cases hsingle : p.widget.kind.contentModel = .single
    . rw [if_neg (not_not.2 hsingle), if_neg (not_not.2 hsingle), if_pos hsingle]
      cases hhead : p.children.head? with
      | none =>
        rcases h.addChild parent content with ⟨outcome, hout, htracks⟩
        exact ⟨outcome, hout, hr.addChild hout, htracks⟩
      | some previous =>
        dsimp only
        split
        . exact ⟨_, rfl, hr, .ok h⟩
        . have hremoved := (h.removeChild parent previous).2
          have hrespects := hr.removeChild parent previous
          rcases hremoved.addChild parent content with ⟨outcome, hout, htracks⟩
          rw [hout]
          generalize (f.removeChild parent previous).2.addChild parent content = result at htracks
          cases htracks with
          | ok hadded => exact ⟨_, rfl, hrespects.addChild hout, .ok hadded⟩
          | error e =>
            rw [← children_of_cell? hp] at hhead
            have honly := hr.children_eq_singleton h (widget?_of_cell? hp) hsingle hhead
            have hlink := h.mem_children_iff.1 (show previous ∈ l.children parent by simp [honly])
            have hne : previous ≠ parent := by
              intro heq
              rw [heq] at hlink
              exact h.acyclic parent (.single hlink)
            dsimp only
            rw [attach_removeChild honly hlink hne]
            exact ⟨_, rfl, hr, .error e⟩
    . rw [if_pos hsingle, if_pos hsingle]
      exact ⟨_, rfl, hr, .error _⟩

/--
Links to children and to parents come in pairs and never go in a circle, and there are children only
where the content models allow them.
-/
structure WellFormed (l : Links) : Prop where
  mem_children_iff : ∀ n m, m ∈ l.children n ↔ l.parent? m = some n
  nodup_children : ∀ n, (l.children n).Nodup
  acyclic : ∀ n, ¬ Relation.TransGen l.Under n n
  respects : l.Respects

theorem Represents.wellFormed (h : l.Represents f) (hr : l.Respects) : l.WellFormed where
  mem_children_iff _ _ := h.mem_children_iff
  nodup_children := h.nodup_children
  acyclic := h.acyclic
  respects := hr

end Links

end TreeStyle
