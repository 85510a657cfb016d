import TreeStyle.Proofs.Alike
import TreeStyle.Proofs.Cascade.Inheritance

/-!
This module contains widgets that only their numbers and the values of their properties tell apart.
What is decided for a widget and what it hands down depends on how it looks and on how its ancestors
look.
-/

namespace TreeStyle

structure Widget.Lookalike (w w' : Widget) : Prop where
  kind_eq : w'.kind = w.kind
  styleId?_eq : w'.styleId? = w.styleId?
  classes_eq : w'.classes = w.classes

namespace Widget.Lookalike

variable {w w' : Widget}

theorem describe_eq (h : w.Lookalike w') : w'.describe = w.describe := by
  unfold Widget.describe
  rw [h.kind_eq, h.styleId?_eq]

theorem elementInfo_eq (h : w.Lookalike w') : ElementInfo.of w' = ElementInfo.of w := by
  show ElementInfo.mk w'.kind.typeChain w'.styleId? w'.classes
    = ElementInfo.mk w.kind.typeChain w.styleId? w.classes
  rw [h.kind_eq, h.styleId?_eq, h.classes_eq]

theorem property?_eq (h : w.Lookalike w')
    : (Stylable.property? w' : String → Option PropertyDescriptor) = Stylable.property? w := by
  show w'.kind.property? = w.kind.property?
  rw [h.kind_eq]

theorem typeNames_eq (h : w.Lookalike w') : Stylable.typeNames w' = Stylable.typeNames w := by
  show w'.kind.typeChain = w.kind.typeChain
  rw [h.kind_eq]

theorem resolveName?_eq (h : w.Lookalike w')
    : Registry.resolveName? w' = Registry.resolveName? w := by
  funext name
  unfold Registry.resolveName? Registry.resolveVendor? Registry.resolveScoped?
  rw [h.property?_eq, h.typeNames_eq]

theorem handsDown_eq (h : w.Lookalike w') (registry : Registry)
    : Cascade.handsDown registry w' = Cascade.handsDown registry w := by
  funext d
  unfold Cascade.handsDown
  rw [h.resolveName?_eq]

theorem handDown_eq (h : w.Lookalike w') (registry : Registry) (direct pool : List Declaration)
    : Cascade.handDown registry w' direct pool = Cascade.handDown registry w direct pool := by
  unfold Cascade.handDown
  rw [h.handsDown_eq]

theorem verdicts_eq (h : w.Lookalike w') (registry : Registry) (direct pool : List Declaration)
    : Cascade.verdicts registry w' direct pool = Cascade.verdicts registry w direct pool := by
  unfold Cascade.verdicts Cascade.directVerdict Cascade.inheritedVerdict Registry.resolveInherited?
  rw [h.resolveName?_eq, h.handsDown_eq]

theorem settle_verdicts_eq (h : w.Lookalike w') (registry : Registry)
    (direct pool : List Declaration)
    : Cascade.settle (Stylable.describe w') [] (Cascade.verdicts registry w' direct pool)
        = Cascade.settle (Stylable.describe w) [] (Cascade.verdicts registry w direct pool) := by
  have hdescribe : Stylable.describe w' = Stylable.describe w := h.describe_eq
  rw [hdescribe, h.verdicts_eq]

theorem decisions_eq (h : w.Lookalike w') (registry : Registry) (direct pool : List Declaration)
    : Cascade.decisions registry direct pool w' = Cascade.decisions registry direct pool w :=
  congrArg Prod.fst (h.settle_verdicts_eq registry direct pool)

theorem rejections_eq (h : w.Lookalike w') (registry : Registry) (direct pool : List Declaration)
    : Cascade.rejections registry direct pool w' = Cascade.rejections registry direct pool w :=
  congrArg Prod.snd (h.settle_verdicts_eq registry direct pool)

theorem visit_eq (h : w.Lookalike w') (registry : Registry)
    (candidates : List ElementInfo → List Candidate) (above : Cascade.Surroundings)
    : (Cascade.visit registry candidates above w').2
        = (Cascade.visit registry candidates above w).2 := by
  unfold Cascade.visit
  dsimp only
  rw [h.elementInfo_eq, h.handDown_eq]

section StyleElement

variable (registry : Registry) (direct pool : List Declaration)

theorem slot?_styleElement_eq (h : w.Lookalike w')
    (hslots : ∀ p, w'.store.slot? p = w.store.slot? p) (p : String)
    : (Cascade.styleElement registry direct pool w').1.store.slot? p
        = (Cascade.styleElement registry direct pool w).1.store.slot? p := by
  rw [Cascade.slot?_styleElement_eq_lookup, Cascade.slot?_styleElement_eq_lookup, h.decisions_eq,
    hslots]

theorem store_styleElement_eq (h : w.Lookalike w') (hstore : w'.store = w.store)
    : (Cascade.styleElement registry direct pool w').1.store
        = (Cascade.styleElement registry direct pool w).1.store := by
  rw [Cascade.styleElement_eq_settle, Cascade.styleElement_eq_settle, h.decisions_eq]
  dsimp only
  rw [hstore]

theorem snd_styleElement_eq (h : w.Lookalike w')
    (huser : ∀ p, w'.origin p = .user ↔ w.origin p = .user)
    : (Cascade.styleElement registry direct pool w').2
        = (Cascade.styleElement registry direct pool w).2 := by
  have hcount := Cascade.countP_origin_eq huser (Cascade.decisions registry direct pool w)
  rw [Cascade.styleElement_eq_settle, Cascade.styleElement_eq_settle, h.decisions_eq,
    h.rejections_eq, hcount.1, hcount.2]

end StyleElement

end Widget.Lookalike

theorem Cascade.lookalike_styleElement (registry : Registry) (direct pool : List Declaration)
    (w : Widget)
    : w.Lookalike (styleElement registry direct pool w).1 := by
  rw [styleElement_eq_settle]
  exact ⟨rfl, rfl, rfl⟩

theorem Cascade.surroundings_eq_of_lookalikes {path path' : List Widget}
    (h : List.Forall₂ Widget.Lookalike path path') (registry : Registry)
    (candidates : List ElementInfo → List Candidate)
    : surroundings registry candidates path' = surroundings registry candidates path := by
  have hpassed : ∀ above, Tree.passDown (visit registry candidates) above path'
      = Tree.passDown (visit registry candidates) above path := by
    unfold Tree.passDown
    induction h with
    | nil => simp
    | cons h _ ih =>
      intro above
      rw [List.foldl_cons, List.foldl_cons, h.visit_eq, ih]
  exact hpassed {}

theorem map_elementInfo_eq_of_lookalikes {path path' : List Widget}
    (h : List.Forall₂ Widget.Lookalike path path')
    : path'.map ElementInfo.of = path.map ElementInfo.of := by
  induction h with
  | nil => rfl
  | cons h _ ih => rw [List.map_cons, List.map_cons, h.elementInfo_eq, ih]

end TreeStyle
