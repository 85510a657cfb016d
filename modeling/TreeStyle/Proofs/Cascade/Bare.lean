import TreeStyle.Proofs.Cascade.Outcome

/-!
This module contains what becomes of the declarations of a bare style. They concern the root and
nothing else, so that below the root only what the root hands down arrives. A rule for the id of the
root does the same.
-/

namespace TreeStyle

theorem Tree.mapDown_congr {α β σ : Type} {f g : σ → α → β × σ} {P : σ → Prop} {s : σ}
    {t : Tree α} (hs : P s)
    (hstep : ∀ s, P s → ∀ a ∈ t.toList, f s a = g s a ∧ P (g s a).2)
    : mapDown f s t = mapDown g s t := by
  induction t generalizing s with
  | node a ts ih =>
    rw [toList_node] at hstep
    rcases hstep s hs a List.mem_cons_self with ⟨heq, hinv⟩
    rw [mapDown_node, mapDown_node, heq]
    congr 1
    apply List.map_congr_left
    intro t ht
    apply ih t ht hinv
    intro s hs b hb
    exact hstep s hs b (List.mem_cons_of_mem _ (List.mem_flatMap.2 ⟨t, ht, hb⟩))

theorem Tree.value?_root {α : Type} (t : Tree α)
    : t.value? [] = some t.value := by
  cases t
  rfl

theorem Candidate.rank_map_mk (ds : List Declaration) (s : Specificity)
    : rank (ds.map (⟨·, s⟩))
        = ds.reverse.mergeSort fun a b => a.important == b.important || a.important := by
  unfold rank
  rw [← List.map_reverse, List.map_mergeSort (s := fun a b : Declaration =>
    a.important == b.important || a.important)]
  . rw [List.map_map]
    exact congrArg (List.mergeSort · _) (List.map_id _)
  . -- No specificity is greater than the other one.
    intro a ha b hb
    rcases List.mem_map.1 ha with ⟨d, -, rfl⟩
    rcases List.mem_map.1 hb with ⟨d', -, rfl⟩
    have hle : s ≤ s := s.le_refl
    unfold outranks
    rw [decide_eq_true hle]
    cases d.important == d'.important <;> rfl

theorem Candidate.rank_nil
    : rank [] = [] := by
  simp [rank]

theorem Cascade.visit_congr {α : Type} [Stylable α] {registry : Registry}
    {candidates candidates' : List ElementInfo → List Candidate} {above : Surroundings} {e : α}
    (h : Candidate.rank (candidates (ElementInfo.of e :: above.ancestors).reverse)
      = Candidate.rank (candidates' (ElementInfo.of e :: above.ancestors).reverse))
    : visit registry candidates above e = visit registry candidates' above e := by
  unfold visit
  dsimp only
  rw [h]

theorem Cascade.slot?_run_root (context : StyleContext)
    (candidates : List ElementInfo → List Candidate) (tree : Tree Widget) (p : String)
    : (run context candidates tree).1.value.store.slot? p
        = ((Candidate.rank (candidates [ElementInfo.of tree.value])).findSome? fun d =>
            Verdict.value? p (directVerdict context.registry tree.value d)).elim
              (tree.value.store.slot? p) (Slot.settle (tree.value.store.slot? p)) := by
  have hpath : tree.path? [] = some ([] ++ [tree.value]) := by
    cases tree
    rfl
  have hroot : some (run context candidates tree).1.value = _ :=
    (Tree.value?_root _).symm.trans (value?_run hpath)
  rw [Option.some.inj hroot, slot?_styleElement]
  apply congrArg (fun found : Option (Option Value) => found.elim _ _)
  apply Option.or_none

namespace Style

def ranked (style : Style) : List Declaration :=
  Candidate.rank (style.declarations.map (⟨·, .zero⟩))

theorem rank_candidates_root (style : Style) (root : ElementInfo)
    : Candidate.rank (style.candidates [root]) = style.ranked := rfl

theorem candidates_below (style : Style) {chain : List ElementInfo} (h : 1 < chain.length)
    : style.candidates chain = [] := by
  match chain, h with
  | _ :: _ :: _, _ => rfl

theorem ranked_singleton (d : Declaration)
    : ranked ⟨[d]⟩ = [d] := by
  unfold ranked Candidate.rank
  simp

section Below

variable {α : Type} [Stylable α] (style : Style) (registry : Registry) (root : α)

theorem pool_surroundings (between : List α)
    : (Cascade.surroundings registry style.candidates (root :: between)).pool
        = style.ranked.filter (Cascade.handsDown registry root) := by
  induction between using List.reverseRecOn with
  | nil =>
    have hroot := Cascade.pool_surroundings_concat registry style.candidates [] root
    rw [List.nil_append] at hroot
    rw [hroot, List.map_singleton, rank_candidates_root]
    unfold Cascade.handDown
    exact List.append_nil _
  | append_singleton between a ih =>
    rw [← List.cons_append, Cascade.pool_surroundings_concat, candidates_below _ (by simp), ih,
      Candidate.rank_nil]
    unfold Cascade.handDown
    simp

theorem value?_apply_below {context : StyleContext} {tree : Tree α} {position : List Nat}
    {root e : α} {between : List α} (hpath : tree.path? position = some (root :: between ++ [e]))
    : (style.apply context tree).1.value? position
        = some (Cascade.styleElement context.registry []
            (style.ranked.filter (Cascade.handsDown context.registry root)) e).1 := by
  refine (Cascade.value?_run hpath).trans ?_
  rw [candidates_below _ (by simp), pool_surroundings, Candidate.rank_nil]

end Below

theorem slot?_apply_root {context : StyleContext} {tree : Tree Widget} {d : Declaration}
    {p : String} {value : Option Value} (huser : tree.value.origin p ≠ .user)
    (hgives : Cascade.Gives context.registry (Registry.resolveName? tree.value) p d value)
    : ((mk [d]).apply context tree).1.value.store.slot? p = value.map .style := by
  unfold apply
  rw [Cascade.slot?_run_root, rank_candidates_root, ranked_singleton, List.findSome?_singleton,
    Cascade.value?_directVerdict_eq_some_iff.2 hgives]
  exact PropertyStore.settle_of_ne_user huser value

end Style

def Selector.ofId (x : String) : Selector := ⟨[.id x], []⟩

theorem Matcher.selects_ofId (m : Matcher) (x : String) (above : List ElementInfo)
    (element : ElementInfo)
    : m.selects (.ofId x) (above ++ [element]) = (element.id? == some x) := by
  unfold selects Selector.ofId
  rw [List.reverse_append]
  dsimp only [List.reverse_singleton, List.singleton_append]
  unfold search Attempt.remember
  cases hid : element.id? == some x <;> simp [matchesCompound, matchesSimple, hid]

namespace StyleSheet

def forId (x : String) (ds : List Declaration) : StyleSheet := ⟨[⟨[.ofId x], ds⟩]⟩

variable {x : String} {ds : List Declaration} {m : Matcher} {above : List ElementInfo}
variable {element : ElementInfo}

theorem rank_candidates_of_selects {s : Selector} {chain : List ElementInfo}
    (h : m.selects s chain = true)
    : Candidate.rank ((mk [⟨[s], ds⟩]).candidates m chain) = (Style.mk ds).ranked := by
  have hcandidates : (mk [⟨[s], ds⟩]).candidates m chain = ds.map (⟨·, s.specificity⟩) := by
    simp [candidates, Rule.specificity?, h]
  rw [hcandidates, Candidate.rank_map_mk, Style.ranked, Candidate.rank_map_mk]

theorem rank_candidates_forId (h : element.id? = some x)
    : Candidate.rank ((forId x ds).candidates m (above ++ [element])) = (Style.mk ds).ranked := by
  apply rank_candidates_of_selects
  rw [Matcher.selects_ofId, h, beq_self_eq_true]

theorem candidates_forId_of_ne (h : element.id? ≠ some x)
    : (forId x ds).candidates m (above ++ [element]) = [] := by
  have hselects : m.selects (.ofId x) (above ++ [element]) = false := by
    rw [Matcher.selects_ofId, beq_eq_false_iff_ne]
    exact h
  simp [forId, candidates, Rule.specificity?, hselects]

end StyleSheet

/--
Where the root is the only element with an id, a style does to a tree what a rule for that id does,
and reports the same.
-/
theorem Style.apply_eq_apply_forId {α : Type} [Stylable α] (style : Style) (context : StyleContext)
    (x : String) (tree : Tree α) (hroot : Stylable.styleId? tree.value = some x)
    (hbelow : ∀ e ∈ tree.children.flatMap Tree.toList, Stylable.styleId? e ≠ some x)
    : style.apply context tree = (StyleSheet.forId x style.declarations).apply context tree := by
  let byId := (StyleSheet.forId x style.declarations).candidates context.matcher
  have hmapDown : tree.mapDown (Cascade.visit context.registry style.candidates) {}
      = tree.mapDown (Cascade.visit context.registry byId) {} := by
    cases tree with
    | node root ts =>
      have hranked : Candidate.rank (byId ([] ++ [ElementInfo.of root])) = style.ranked :=
        StyleSheet.rank_candidates_forId hroot
      have hvisit : Cascade.visit context.registry style.candidates {} root
          = Cascade.visit context.registry byId {} root := Cascade.visit_congr hranked.symm
      rw [Tree.mapDown_node, Tree.mapDown_node, hvisit]
      congr 1
      apply List.map_congr_left
      intro t ht
      have hbelowRoot : (Cascade.visit context.registry byId {} root).2.ancestors ≠ [] :=
        List.cons_ne_nil _ _
      apply Tree.mapDown_congr (P := fun above => above.ancestors ≠ []) hbelowRoot
      intro above habove e he
      -- Neither the style nor the rule concerns an element with ancestors.
      have hid : (ElementInfo.of e).id? ≠ some x := hbelow e (List.mem_flatMap.2 ⟨t, ht, he⟩)
      have hlength : 1 < (above.ancestors.reverse ++ [ElementInfo.of e]).length := by
        have := List.length_pos_iff.2 habove
        simpa using this
      refine ⟨Cascade.visit_congr ?_, List.cons_ne_nil _ _⟩
      rw [List.reverse_cons, candidates_below _ hlength]
      unfold byId
      rw [StyleSheet.candidates_forId_of_ne hid]
  unfold apply StyleSheet.apply Cascade.run
  rw [hmapDown]
  rfl

open StyleSheet.NestedLabel in
theorem Style.apply_eq_apply_forId_nestedLabel
    : Stylable.styleId? widgets.value = some "outer" ∧
        (∀ e ∈ widgets.children.flatMap Tree.toList, Stylable.styleId? e ≠ some "outer") ∧
        (Style.mk [hide, perhaps]).apply .standard widgets
          = (StyleSheet.forId "outer" [hide, perhaps]).apply .standard widgets := by
  have hroot : Stylable.styleId? widgets.value = some "outer" := rfl
  have hbelow : ∀ e ∈ widgets.children.flatMap Tree.toList,
      Stylable.styleId? e ≠ some "outer" := by
    decide
  exact ⟨hroot, hbelow, apply_eq_apply_forId _ .standard "outer" widgets hroot hbelow⟩

end TreeStyle
