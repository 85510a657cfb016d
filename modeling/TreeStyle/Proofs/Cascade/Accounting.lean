import Mathlib.Algebra.Ring.Nat
import TreeStyle.Proofs.Forest.Styling
import TreeStyle.Proofs.Lookalike

/-!
This module contains the account that reports give of the decisions of the cascade. The values in
the stores of a tree have no part in the decisions, and each of these is carried out or skipped.
-/

namespace TreeStyle

namespace Tally

theorem visited_total (ts : List Tally) : (total ts).visited = (ts.map (·.visited)).sum := by
  induction ts with
  | nil => rfl
  | cons t ts ih => exact congrArg (t.visited + ·) ih

theorem skippedUserSet_total_eq_zero {ts : List Tally} (h : ∀ t ∈ ts, t.skippedUserSet = 0)
    : (total ts).skippedUserSet = 0 := by
  induction ts with
  | nil => rfl
  | cons t ts ih =>
    rw [List.forall_mem_cons] at h
    exact congrArg₂ (· + ·) h.1 (ih h.2)

theorem applied_add_skippedUserSet_total (ts : List Tally)
    : (total ts).applied + (total ts).skippedUserSet
        = (ts.map fun t => t.applied + t.skippedUserSet).sum := by
  induction ts with
  | nil => rfl
  | cons t ts ih =>
    have happlied : (total (t :: ts)).applied = t.applied + (total ts).applied := rfl
    have hskipped : (total (t :: ts)).skippedUserSet
        = t.skippedUserSet + (total ts).skippedUserSet := rfl
    rw [List.map_cons, List.sum_cons, ← ih, happlied, hskipped]
    omega

theorem diagnostics_total (ts : List Tally)
    : (total ts).diagnostics = (ts.map (·.diagnostics)).flatten := by
  induction ts with
  | nil => rfl
  | cons t ts ih => exact congrArg (t.diagnostics ++ ·) ih

end Tally

namespace Cascade

section Decided

variable {α : Type} [Stylable α]

def decideAt (registry : Registry) (candidates : List ElementInfo → List Candidate)
    (above : Surroundings) (element : α) : Decisions × Surroundings :=
  let direct := Candidate.rank (candidates (ElementInfo.of element :: above.ancestors).reverse)
  (decisions registry direct above.pool element, (visit registry candidates above element).2)

def decided (context : StyleContext) (candidates : List ElementInfo → List Candidate)
    (tree : Tree α) : Tree Decisions :=
  tree.mapDown (decideAt context.registry candidates) {}

end Decided

end Cascade

def StyleSheet.decided (sheet : StyleSheet) (context : StyleContext) (tree : Tree Widget) :
    Tree Cascade.Decisions :=
  Cascade.decided context (sheet.candidates ⟨context.options.caseSensitiveTypes⟩) tree

def Style.decided (style : Style) (context : StyleContext) (tree : Tree Widget) :
    Tree Cascade.Decisions :=
  Cascade.decided context style.candidates tree

/--
Styling a tree comes to the same decisions and the same complaints as styling it with empty stores.
The report counts each decision once, since a widget refuses none of them for what the user has not
set, and what the user has not set gets the value that it would have got with empty stores.
-/
structure StoreBlind (apply : Tree Widget → Tree Widget × Report)
    (decided : Tree Widget → Tree Cascade.Decisions) (tree : Tree Widget) : Prop where
  decided_eq : decided tree = decided (tree.map Widget.bare)
  visited_eq : (apply tree).2.visited = (apply (tree.map Widget.bare)).2.visited
  diagnostics_eq : (apply tree).2.diagnostics = (apply (tree.map Widget.bare)).2.diagnostics
  droppedDiagnostics_eq :
    (apply tree).2.droppedDiagnostics = (apply (tree.map Widget.bare)).2.droppedDiagnostics
  skippedUserSet_bare : (apply (tree.map Widget.bare)).2.skippedUserSet = 0
  applied_add_skippedUserSet :
    (apply tree).2.applied + (apply tree).2.skippedUserSet =
      (apply (tree.map Widget.bare)).2.applied
  applied_bare :
    (apply (tree.map Widget.bare)).2.applied = ((decided tree).toList.map List.length).sum
  accepted : ∀ position e decisions, tree.value? position = some e →
    (decided tree).value? position = some decisions →
      ∀ q v store, (q, some v) ∈ decisions → ({ e with store } : Widget).origin q ≠ .user →
        ∃ e', ({ e with store } : Widget).setStyle? q v = some e'
  style : ∀ position e, tree.value? position = some e → ∃ styled bare,
    (apply tree).1.value? position = some styled ∧
      (apply (tree.map Widget.bare)).1.value? position = some bare ∧
      ∀ p v, e.origin p ≠ .user → bare.store.slot? p = some (.style v) →
        styled.store.slot? p = some (.style v)

theorem Widget.lookalike_bare (w : Widget) : w.Lookalike w.bare := ⟨rfl, rfl, rfl⟩

namespace Cascade

variable (context : StyleContext) (candidates : List ElementInfo → List Candidate)

theorem decideAt_bare (registry : Registry) (above : Surroundings) (w : Widget)
    : decideAt registry candidates above w.bare = decideAt registry candidates above w := by
  have h := w.lookalike_bare
  unfold decideAt
  dsimp only
  rw [h.elementInfo_eq, h.decisions_eq, h.visit_eq]

theorem decided_map_bare (tree : Tree Widget)
    : decided context candidates (tree.map Widget.bare) = decided context candidates tree := by
  have hbare : (fun above (w : Widget) => decideAt context.registry candidates above w.bare)
      = decideAt context.registry candidates := by
    funext above w
    exact decideAt_bare candidates context.registry above w
  unfold decided
  rw [Tree.mapDown_map, hbare]

theorem visit_bare (registry : Registry) (above : Surroundings) (w : Widget)
    : (visit registry candidates above w.bare).1.2.visited
          = (visit registry candidates above w).1.2.visited ∧
        (visit registry candidates above w.bare).1.2.diagnostics
          = (visit registry candidates above w).1.2.diagnostics ∧
        (visit registry candidates above w.bare).1.2.skippedUserSet = 0 := by
  have h := w.lookalike_bare
  unfold visit
  dsimp only
  rw [styleElement_eq_settle, styleElement_eq_settle, h.elementInfo_eq]
  refine ⟨rfl, h.rejections_eq registry _ above.pool, ?_⟩
  rw [List.countP_eq_zero]
  intro decision _
  -- A bare widget has nothing that the user has set.
  have horigin : w.bare.origin decision.1 = .unset := rfl
  simp [horigin]

theorem visit_counts (registry : Registry) (above : Surroundings) (w : Widget)
    : (visit registry candidates above w).1.2.applied +
          (visit registry candidates above w).1.2.skippedUserSet
        = (decideAt registry candidates above w).1.length := by
  have hnot : (fun d : String × Option Value => Decidable.decide ¬(w.origin d.1 == .user) = true)
      = fun d => w.origin d.1 != .user := by
    funext d
    rw [Bool.eq_iff_iff]
    simp
  unfold visit decideAt
  dsimp only
  rw [styleElement_eq_settle, List.length_eq_countP_add_countP (w.origin ·.1 == .user), hnot,
    Nat.add_comm]

section Tallies

variable {β : Type} (tree : Tree Widget)

def tallies : List Tally := (tree.mapDown (visit context.registry candidates) {}).toList.map (·.2)

theorem map_tallies (f : Tally → β)
    : (tallies context candidates tree).map f
        = ((tree.mapDown (visit context.registry candidates) {}).map fun x => f x.2).toList := by
  unfold tallies
  rw [Tree.toList_map, List.map_map]
  rfl

theorem visited_run : (run context candidates tree).2.visited = tree.toList.length := by
  have hvisited : (tallies context candidates tree).map (·.visited)
      = tree.toList.map fun _ => 1 := by
    rw [map_tallies, ← Tree.toList_map]
    congr 1
    apply Tree.map_mapDown
    intro above w
    unfold visit
    dsimp only
    rw [styleElement_eq_settle]
  have htotal := Tally.visited_total (tallies context candidates tree)
  rw [hvisited, List.map_const', List.sum_replicate_nat, Nat.mul_one] at htotal
  rw [snd_run]
  exact htotal

theorem map_tallies_bare {f : Tally → β}
    (hf : ∀ above (w : Widget), f (visit context.registry candidates above w.bare).1.2
      = f (visit context.registry candidates above w).1.2)
    : (tallies context candidates (tree.map Widget.bare)).map f
        = (tallies context candidates tree).map f := by
  rw [map_tallies, map_tallies, Tree.mapDown_map]
  congr 1
  apply Tree.map_mapDown_congr hf
  intro above w
  exact w.lookalike_bare.visit_eq context.registry candidates above

theorem map_tallies_counts
    : (tallies context candidates tree).map (fun t => t.applied + t.skippedUserSet)
        = (decided context candidates tree).toList.map List.length := by
  rw [map_tallies, ← Tree.toList_map]
  congr 1
  apply Tree.map_mapDown_congr
  . exact visit_counts candidates context.registry
  . intro above w
    rfl

theorem applied_add_skippedUserSet_run
    : (run context candidates tree).2.applied + (run context candidates tree).2.skippedUserSet
        = ((decided context candidates tree).toList.map List.length).sum := by
  rw [← map_tallies_counts, ← Tally.applied_add_skippedUserSet_total, snd_run]
  rfl

theorem skippedUserSet_run_bare
    : (run context candidates (tree.map Widget.bare)).2.skippedUserSet = 0 := by
  have hzero : ∀ t ∈ tallies context candidates (tree.map Widget.bare), t.skippedUserSet = 0 := by
    unfold tallies
    rw [List.forall_mem_map, Tree.mapDown_map]
    intro x hx
    rcases Tree.exists_mem_of_mem_mapDown _ _ hx with ⟨above, w, -, hvisited⟩
    rw [hvisited]
    exact (visit_bare candidates context.registry above w).2.2
  rw [snd_run]
  exact Tally.skippedUserSet_total_eq_zero hzero

end Tallies

theorem slot?_styleElement_of_bare {registry : Registry} {direct pool : List Declaration}
    {w : Widget} {p : String} {v : Value} (huser : w.origin p ≠ .user)
    (h : (styleElement registry direct pool w.bare).1.store.slot? p = some (.style v))
    : (styleElement registry direct pool w).1.store.slot? p = some (.style v) := by
  have hempty : w.bare.store.slot? p = none := rfl
  rw [slot?_styleElement_eq_lookup, w.lookalike_bare.decisions_eq, hempty] at h
  rw [slot?_styleElement_eq_lookup]
  cases hlookup : (decisions registry direct pool w).lookup p with
  | none =>
    rw [hlookup] at h
    cases h
  | some value =>
    rw [hlookup] at h
    exact (PropertyStore.settle_of_ne_user huser value).trans h

theorem storeBlind_run (tree : Tree Widget)
    : StoreBlind (run context candidates) (decided context candidates) tree := by
  have hvisited : (Tally.total (tallies context candidates tree)).visited
      = (Tally.total (tallies context candidates (tree.map Widget.bare))).visited := by
    rw [Tally.visited_total, Tally.visited_total, map_tallies_bare]
    intro above w
    exact (visit_bare candidates context.registry above w).1
  have hdiagnostics : (Tally.total (tallies context candidates tree)).diagnostics
      = (Tally.total (tallies context candidates (tree.map Widget.bare))).diagnostics := by
    rw [Tally.diagnostics_total, Tally.diagnostics_total, map_tallies_bare]
    intro above w
    exact (visit_bare candidates context.registry above w).2.1
  have hcounts := applied_add_skippedUserSet_run context candidates tree
  have hcounts' := applied_add_skippedUserSet_run context candidates (tree.map Widget.bare)
  rw [skippedUserSet_run_bare, Nat.add_zero, decided_map_bare] at hcounts'
  refine ⟨(decided_map_bare context candidates tree).symm, ?_, ?_, ?_, ?_, ?_, hcounts', ?_, ?_⟩
  . rw [snd_run, snd_run]
    exact hvisited
  . rw [snd_run, snd_run]
    exact congrArg (List.take _) hdiagnostics
  . rw [snd_run, snd_run]
    exact congrArg (List.length · - _) hdiagnostics
  . apply skippedUserSet_run_bare
  . rw [hcounts, hcounts']
  . intro position e decisions he hdecisions q v store hmem huser
    rcases Tree.exists_path?_of_value? he with ⟨above, hpath⟩
    rcases (Tree.value?_mapDown hpath).symm.trans hdecisions with ⟨⟩
    rcases typed_decisions (q, some v) hmem v rfl with ⟨property, hproperty, hv⟩
    exact ⟨_, setStyle?_of_typed huser hproperty hv⟩
  . intro position e he
    rcases Tree.exists_path?_of_value? he with ⟨above, hpath⟩
    have hbare : (tree.map Widget.bare).path? position
        = some (above.map Widget.bare ++ [e.bare]) := by
      rw [Tree.path?_map, hpath, Option.map_some, List.map_append]
      rfl
    refine ⟨_, _, value?_run hpath, value?_run hbare, ?_⟩
    intro p v huser hslot
    have habove : List.Forall₂ Widget.Lookalike above (above.map Widget.bare) := by
      rw [List.forall₂_map_right_iff]
      exact List.forall₂_same.2 fun w _ => w.lookalike_bare
    have hpathAlike : List.Forall₂ Widget.Lookalike (above ++ [e])
        (above.map Widget.bare ++ [e.bare]) :=
      List.rel_append habove (.cons e.lookalike_bare .nil)
    rw [surroundings_eq_of_lookalikes habove, map_elementInfo_eq_of_lookalikes hpathAlike] at hslot
    exact slot?_styleElement_of_bare huser hslot

end Cascade

/--
Neither a sheet nor a style looks at the values that are stored in a tree, and the report accounts
for every decision.
-/
theorem apply_ignores_stores (sheet : StyleSheet) (style : Style) (context : StyleContext)
    (tree : Tree Widget)
    : StoreBlind (sheet.apply context) (sheet.decided context) tree ∧
        StoreBlind (style.apply context) (style.decided context) tree :=
  ⟨Cascade.storeBlind_run context _ tree, Cascade.storeBlind_run context _ tree⟩

end TreeStyle
