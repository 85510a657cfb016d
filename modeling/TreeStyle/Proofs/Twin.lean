import TreeStyle.Proofs.Forest.Styling
import TreeStyle.Proofs.Lookalike

/-!
This module contains widgets that nothing but their numbers tells apart. Styling does the same to
trees of such widgets, since it does not look at numbers.
-/

namespace TreeStyle

structure Widget.Twin (w w' : Widget) : Prop where
  kind_eq : w'.kind = w.kind
  styleId?_eq : w'.styleId? = w.styleId?
  classes_eq : w'.classes = w.classes
  slot?_eq : ∀ p, w'.store.slot? p = w.store.slot? p

namespace Widget.Twin

variable {w w' : Widget} {p : String}

theorem origin_eq (h : w.Twin w') (p : String) : w'.origin p = w.origin p := by
  unfold Widget.origin PropertyStore.origin
  rw [h.slot?_eq p]

theorem get?_eq (h : w.Twin w') (p : String) : w'.get? p = w.get? p := by
  unfold Widget.get? Widget.property? PropertyStore.get?
  rw [h.kind_eq, h.slot?_eq p]

theorem lookalike (h : w.Twin w') : w.Lookalike w' := ⟨h.kind_eq, h.styleId?_eq, h.classes_eq⟩

theorem styleElement (h : w.Twin w') (registry : Registry) (direct pool : List Declaration)
    : (Cascade.styleElement registry direct pool w).1.Twin
        (Cascade.styleElement registry direct pool w').1 := by
  have hstyled := Cascade.lookalike_styleElement registry direct pool w
  have hstyled' := Cascade.lookalike_styleElement registry direct pool w'
  constructor
  . rw [hstyled'.kind_eq, h.kind_eq, hstyled.kind_eq]
  . rw [hstyled'.styleId?_eq, h.styleId?_eq, hstyled.styleId?_eq]
  . rw [hstyled'.classes_eq, h.classes_eq, hstyled.classes_eq]
  . exact h.lookalike.slot?_styleElement_eq registry direct pool h.slot?_eq

end Widget.Twin

namespace Cascade

variable {t u : Tree Widget} (context : StyleContext)
variable (candidates : List ElementInfo → List Candidate)

theorem snd_run_eq_of_alike
    (h : Tree.Alike (fun w w' : Widget =>
      w.Lookalike w' ∧ ∀ p, w'.origin p = .user ↔ w.origin p = .user) t u)
    : (run context candidates u).2 = (run context candidates t).2 := by
  have halike : Tree.Alike (fun (x y : Widget × Tally) => x.2 = y.2)
      (t.mapDown (visit context.registry candidates) {})
      (u.mapDown (visit context.registry candidates) {}) := by
    apply Tree.Alike.mapDown (s := Eq) _ rfl h
    intro above above' w w' habove hboth
    rw [← habove]
    refine ⟨?_, (hboth.1.visit_eq _ _ _).symm⟩
    unfold visit
    dsimp only
    rw [hboth.1.elementInfo_eq]
    exact (hboth.1.snd_styleElement_eq _ _ _ hboth.2).symm
  have htallies : ((t.mapDown (visit context.registry candidates) {}).toList.map (·.2))
      = (u.mapDown (visit context.registry candidates) {}).toList.map (·.2) := by
    rw [← List.forall₂_eq_eq_eq, List.forall₂_map_left_iff, List.forall₂_map_right_iff]
    exact halike.toList
  unfold run
  dsimp only
  rw [htallies]

theorem run_twins (h : Tree.Alike Widget.Twin t u)
    : Tree.Alike Widget.Twin (run context candidates t).1 (run context candidates u).1 ∧
        (run context candidates u).2 = (run context candidates t).2 := by
  constructor
  . have halike : Tree.Alike (fun (x y : Widget × Tally) => x.1.Twin y.1)
        (t.mapDown (visit context.registry candidates) {})
        (u.mapDown (visit context.registry candidates) {}) := by
      apply Tree.Alike.mapDown (s := Eq) _ rfl h
      intro above above' w w' habove htwin
      rw [← habove]
      refine ⟨?_, (htwin.lookalike.visit_eq _ _ _).symm⟩
      unfold visit
      dsimp only
      rw [htwin.lookalike.elementInfo_eq]
      exact htwin.styleElement context.registry _ _
    exact halike.map fun _ _ h => h
  . apply snd_run_eq_of_alike
    apply h.imp_of_mem
    intro w _ w' _ htwin
    refine ⟨htwin.lookalike, ?_⟩
    intro p
    rw [htwin.origin_eq]

end Cascade

end TreeStyle
