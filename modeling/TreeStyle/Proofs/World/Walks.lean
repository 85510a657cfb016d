import TreeStyle.Proofs.Links.Order
import TreeStyle.Proofs.Session.Attachment
import TreeStyle.Proofs.World

/-!
This module contains that all walks agree. A search, a sheet, a style and a reset come to the
widgets to which a traversal comes, and a search finds the first of them that has the id.
-/

namespace TreeStyle

namespace Links

variable {l : Links} {f : Forest}

structure Unstyled (l : Links) (scope : List Nat) (l' : Links) : Prop where
  children_eq : ∀ m, l'.children m = l.children m
  outside : ∀ m, m ∉ scope → l'.widget? m = l.widget? m
  inside : ∀ m ∈ scope, ∀ w, l.widget? m = some w →
    ∃ w', l'.widget? m = some w' ∧ w'.bare = w.bare ∧
      ∀ p, w'.store.slot? p = if w.origin p = .style then none else w.store.slot? p

structure WalksAgree (l : Links) (n : Nat) (ns : List Nat) : Prop where
  traverse?_eq : l.traverse? n = some ns
  order : l.WalkOrder n ns
  findByStyleId?_eq : ∀ id, l.findByStyleId? id (l.count + 1) n
    = some (ns.find? fun m => (l.widget? m).any (·.styleId? == some id))
  applySheet? : ∀ context sheet, ∃ report l',
    l.applySheet? context n sheet = some (report, l') ∧ report.visited = ns.length
  applyStyle? : ∀ context style, ∃ report l',
    l.applyStyle? context n style = some (report, l') ∧ report.visited = ns.length
  resetStyles? : ∃ l', l.resetStyles? n = some l' ∧ l.Unstyled ns l'

namespace Represents

theorem find?_traverse (h : l.Represents f) (n : Nat) (id : String)
    : f.findByStyleId? n id
        = (f.traverse n).find? fun m => (l.widget? m).any (·.styleId? == some id) := by
  unfold Forest.findByStyleId? Forest.traverse
  cases ht : f.subtree? n with
  | none => rfl
  | some t =>
    have hsame : ∀ w ∈ t.toList,
        (l.widget? w.number).any (·.styleId? == some id) = (w.styleId? == some id) := by
      intro w hw
      have hwidget : l.widget? w.number = some w := by
        rw [h.widget?_eq, h.numbered.widget?_eq_some_iff]
        exact ⟨Forest.toList_subset_of_subtree? ht hw, rfl⟩
      rw [hwidget]
      rfl
    have hfind : t.toList.find? ((fun m => (l.widget? m).any (·.styleId? == some id)) ∘ (·.number))
        = (t.find? (·.value.styleId? == some id)).map (·.value) := by
      rw [Tree.map_value_find? fun w : Widget => w.styleId? == some id, ← List.head?_filter,
        ← List.head?_filter]
      exact congrArg List.head? (List.filter_congr hsame)
    dsimp only [bind, Option.bind]
    rw [List.find?_map, hfind]
    cases t.find? (·.value.styleId? == some id) <;> rfl

theorem exists_visited (h : l.Represents f) (context : StyleContext)
    (candidates : List ElementInfo → List Candidate) (n : Nat)
    : ∃ report l', l.style? context candidates n = some (report, l') ∧
        report.visited = (f.traverse n).length := by
  rcases h.style? context candidates n with ⟨l', hout, _⟩
  refine ⟨_, l', hout, ?_⟩
  unfold Forest.restyle Forest.traverse
  cases f.subtree? n with
  | none => rfl
  | some t =>
    dsimp only
    rw [Cascade.visited_run, List.length_map]

theorem exists_unstyled (h : l.Represents f) (hf : f.Arises) (n : Nat)
    : ∃ l', l.resetStyles? n = some l' ∧ l.Unstyled (f.traverse n) l' := by
  rcases h.resetStyles? n with ⟨l', hout, hl'⟩
  have hstyled : Forest.StyledTo (f.traverse n) f (f.resetStyles n) :=
    .modify h.numbered .resetStyles n
  refine ⟨l', hout, ?_, ?_, ?_⟩
  . intro m
    rw [hl'.children_eq, h.children_eq]
    exact Forest.children_eq_of_bare_eq hstyled.bare_eq m
  . intro m hm
    rw [hl'.widget?_eq, h.widget?_eq]
    exact hstyled.outside m hm
  . intro m hm w hw
    rw [h.widget?_eq, h.numbered.widget?_eq_some_iff] at hw
    rcases hw with ⟨hw, hnumber⟩
    have hmem := h.numbered.mem_resetStyles hw n
    rw [hnumber, if_pos hm] at hmem
    refine ⟨w.clearStyles, ?_, rfl, ?_⟩
    . rw [hl'.widget?_eq]
      exact hl'.numbered.widget?_eq_some_iff.2 ⟨hmem, hnumber⟩
    . intro p
      exact ((hf w hw).distinct.slot?_clearStyles p).trans
        (PropertyStore.map_user_userValue? w.store p)

theorem walksAgree (h : l.Represents f) (hf : f.Arises) (n : Nat)
    : l.WalksAgree n (f.traverse n) where
  traverse?_eq := h.traverse?_eq n
  order := h.walkOrder n
  findByStyleId?_eq id := (h.findByStyleId?_eq n id).trans (congrArg some (h.find?_traverse n id))
  applySheet? context _ := h.exists_visited context _ n
  applyStyle? context _ := h.exists_visited context _ n
  resetStyles? := h.exists_unstyled hf n

end Represents

end Links

/--
Whatever was done to an application and its widgets, all walks from a widget come to the same ones.
These are the widget and those below it, once each, every one before those below it and what is
below a child before what is below the next one.
-/
theorem World.walks_agree (context : StyleContext) (ops : List Operation)
    : ∃ w, (World.start context).run? ops = some w ∧ ∀ n, ∃ ns, w.links.WalksAgree n ns := by
  rcases (World.Represents.start context).exists_run? ops with ⟨w, hrun, hw⟩
  have harises : ((Session.start context).run ops).forest.Arises :=
    Session.arises_run (Session.start_arises context) Forest.numbered_empty ops
  exact ⟨w, hrun, fun n => ⟨_, hw.links.walksAgree harises n⟩⟩

end TreeStyle
