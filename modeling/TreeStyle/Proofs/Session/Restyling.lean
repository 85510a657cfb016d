import TreeStyle.Proofs.Session.Arising
import TreeStyle.Proofs.Twin

/-!
This module contains what restyling depends on: the sheets of the application and what the user has
made of the main page. What styles have set before does not matter.
-/

namespace TreeStyle

namespace Widget

structure Authored where
  kind : WidgetKind
  styleId? : Option String
  classes : List String
  userValue? : String → Option Value

def authored (w : Widget) : Authored := ⟨w.kind, w.styleId?, w.classes, w.store.userValue?⟩

def shown (w : Widget) (property : String) : Origin × Option Value :=
  (w.origin property, w.get? property)

variable {w w' : Widget}

theorem Twin.shown_eq (h : w.Twin w') : w.shown = w'.shown := by
  funext p
  unfold shown
  rw [h.origin_eq, h.get?_eq]

theorem twin_clearStyles (hw : w.store.Distinct) (hw' : w'.store.Distinct)
    (h : w.authored = w'.authored) : w.clearStyles.Twin w'.clearStyles := by
  unfold authored at h
  rw [Authored.mk.injEq] at h
  rcases h with ⟨hkind, hstyleId, hclasses, hvalues⟩
  refine ⟨hkind.symm, hstyleId.symm, hclasses.symm, ?_⟩
  intro p
  show w'.store.clearStyles.slot? p = w.store.clearStyles.slot? p
  rw [hw.slot?_clearStyles, hw'.slot?_clearStyles, hvalues]

end Widget

theorem Tree.twins_resetStyles {t u : Tree Widget} (ht : ∀ w ∈ t.toList, w.Arises)
    (hu : ∀ w ∈ u.toList, w.Arises) (h : t.map Widget.authored = u.map Widget.authored)
    : Alike Widget.Twin t.resetStyles u.resetStyles := by
  have hdistinct : Alike (fun w w' : Widget =>
      w.authored = w'.authored ∧ w.store.Distinct ∧ w'.store.Distinct) t u := by
    apply (Alike.of_map_eq h).imp_of_mem
    intro w hw w' hw' hauthored
    exact ⟨hauthored, (ht w hw).distinct, (hu w' hw').distinct⟩
  apply hdistinct.map
  intro w w' hboth
  exact Widget.twin_clearStyles hboth.2.1 hboth.2.2 hboth.1

namespace Forest

variable {f : Forest} {n : Nat} {t : Tree Widget}

theorem subtree?_modify {change : Tree Widget → Tree Widget}
    (hchange : ∀ t, t.value.number = n → (change t).value.number = n)
    : (f.modify n change).subtree? n = (f.subtree? n).map change := by
  unfold modify subtree?
  rw [List.findSome?_map, List.map_findSome?]
  congr 1
  funext t
  apply Tree.find?_modify (p := fun w : Widget => w.number == n)
  intro t ht
  rw [beq_iff_eq] at ht ⊢
  exact hchange t ht

theorem subtree?_resetStyles (f : Forest) (n : Nat)
    : (f.resetStyles n).subtree? n = (f.subtree? n).map Tree.resetStyles := by
  apply subtree?_modify
  intro t ht
  unfold Tree.resetStyles
  rw [Tree.value_map]
  exact ht

theorem subtree?_restyle {style : Tree Widget → Tree Widget × Report}
    (hstyle : Tree.Styles fun t => (style t).1) (h : f.subtree? n = some t)
    : (f.restyle n style).1.subtree? n = some (style t).1 ∧
        (f.restyle n style).2 = (style t).2 := by
  unfold restyle
  rw [h]
  refine ⟨?_, rfl⟩
  dsimp only
  rw [subtree?_modify, h, Option.map_some]
  intro _ _
  have hvalue := congrArg (·.value.number) (hstyle.map_bare t)
  simp only [Tree.value_map] at hvalue
  exact hvalue.trans (number_of_subtree? h)

end Forest

namespace Session

variable {s s' : Session}

def mainTree? (s : Session) : Option (Tree Widget) := s.app.mainPage? >>= s.forest.subtree?

theorem context_after (s : Session) (op : Operation)
    : (s.after op).app.context = s.app.context := by
  have hforest : ∀ result : Except WidgetError Forest,
      ((attempt?.withForest? s result).getD s).app.context = s.app.context := by
    intro result
    cases result <;> rfl
  cases op with
  | addChild parent child => apply hforest
  | setContent parent content => apply hforest
  | set n p v => apply hforest
  | addSheetText text =>
    show ((attempt?.withApp? s (s.app.addSheetText text)).getD s).app.context = _
    unfold Application.addSheetText
    cases StyleSheet.read.run text <;> rfl
  | addSheetBytes bytes =>
    show ((attempt?.withApp? s (s.app.addSheetBytes bytes)).getD s).app.context = _
    unfold Application.addSheetBytes
    cases Reader.ofBytes bytes with
    | error e => rfl
    | ok reader =>
      simp only [bind, Except.bind]
      cases (reader.run StyleSheet.read).1 <;> rfl
  | setMainPage page =>
    show (((s.app.setMainPage s.forest page).toOption.map _).getD s).app.context = _
    cases hpage : s.app.setMainPage s.forest page with
    | error e => rfl
    | ok result =>
      rcases result with ⟨app, f, report⟩
      rcases Application.setMainPage_eq_ok_iff.1 hpage with ⟨-, rfl, -⟩
      rfl
  | _ => rfl

theorem context_run (s : Session) (ops : List Operation)
    : (s.run ops).app.context = s.app.context := by
  induction ops generalizing s with
  | nil => rfl
  | cons op ops ih => exact (ih (s.after op)).trans (context_after s op)

theorem restyle_eq {t : Tree Widget} (h : s.mainTree? = some t)
    : (s.after .restyle).mainTree?
          = some (s.app.combined.apply s.app.context t.resetStyles).1 ∧
        (s.app.restyle s.forest).2 = (s.app.combined.apply s.app.context t.resetStyles).2 := by
  rcases Option.bind_eq_some_iff.1 h with ⟨page, hpage, ht⟩
  have hreset : (s.forest.resetStyles page).subtree? page = some t.resetStyles := by
    rw [Forest.subtree?_resetStyles, ht, Option.map_some]
  have hrestyle : s.app.restyle s.forest
      = (s.forest.resetStyles page).restyle page (s.app.combined.apply s.app.context) := by
    unfold Application.restyle Application.apply
    rw [hpage]
    rfl
  have hstyles : Tree.Styles fun t => (s.app.combined.apply s.app.context t).1 := .of_run _ _
  have hafter : s.after .restyle = { s with forest := (s.app.restyle s.forest).1 } := rfl
  unfold mainTree?
  rw [hafter, hpage, hrestyle]
  exact Forest.subtree?_restyle hstyles hreset

theorem restyle_of_mainTree?_eq_none (h : s.mainTree? = none)
    : (s.after .restyle).mainTree? = none ∧ (s.app.restyle s.forest).2 = {} := by
  have hafter : s.after .restyle = { s with forest := (s.app.restyle s.forest).1 } := rfl
  unfold mainTree? at *
  rw [hafter]
  unfold Application.restyle Application.apply
  cases hpage : s.app.mainPage? with
  | none => exact ⟨rfl, rfl⟩
  | some page =>
    rw [hpage] at h
    have hreset : (s.forest.resetStyles page).subtree? page = none := by
      rw [Forest.subtree?_resetStyles]
      exact Option.map_eq_none_iff.2 h
    dsimp only
    unfold Forest.applySheet Forest.restyle
    rw [hreset]
    exact ⟨hreset, rfl⟩

theorem arises_mainTree? {t : Tree Widget} (hs : s.forest.Arises) (h : s.mainTree? = some t)
    : ∀ w ∈ t.toList, w.Arises := by
  rcases Option.bind_eq_some_iff.1 h with ⟨page, _, ht⟩
  intro w hw
  exact hs w (Forest.toList_subset_of_subtree? ht hw)

namespace StaleLabel

def centreLabels : StyleSheet :=
  ⟨[⟨[⟨[.typeName "label"], []⟩], [⟨"text-align", .specified "center", false⟩]⟩]⟩

def fresh : List Operation :=
  ShownLabel.build ++
    [.set 1 "Text" (.string "left"), .addSheet ShownLabel.hideLabels, .setMainPage 0]

def stale : List Operation :=
  [.create .label, .create .contentPage, .setContent 1 0, .applySheet .standard 0 centreLabels,
    .set 0 "Text" (.string "left"), .addSheet ShownLabel.hideLabels, .setMainPage 1]

theorem mainTree?_fresh
    : ((start .standard).run fresh).mainTree?
        = some (.node { number := 0, kind := .contentPage } [.node
            { number := 1
              kind := .label
              store := ⟨[
                ("IsVisible", .style (.bool false)),
                ("Text", .user (.string "left"))]⟩ } []]) := by
  decide +kernel

theorem mainTree?_stale
    : ((start .standard).run stale).mainTree?
        = some (.node { number := 1, kind := .contentPage } [.node
            { number := 0
              kind := .label
              store := ⟨[
                ("IsVisible", .style (.bool false)),
                ("Text", .user (.string "left")),
                ("HorizontalTextAlignment", .style (StyleEnum.toValue TextAlignment.center))]⟩ }
            []]) := by
  decide +kernel

theorem resources_eq
    : ((start .standard).run fresh).app.resources
        = ((start .standard).run stale).app.resources := by
  decide +kernel

theorem authored_eq
    : ((start .standard).run fresh).mainTree?.map (Tree.map Widget.authored)
        = ((start .standard).run stale).mainTree?.map (Tree.map Widget.authored) := by
  rw [mainTree?_fresh, mainTree?_stale]
  simp only [Option.map_some, Tree.map_node, List.map_cons, List.map_nil, Option.some.injEq,
    Tree.node.injEq, List.cons.injEq, and_true, Widget.authored, Widget.Authored.mk.injEq, true_and]
  funext p
  unfold PropertyStore.userValue? PropertyStore.slot?
  simp only [List.lookup_cons, List.lookup_nil]
  cases p == "IsVisible" <;> cases p == "Text" <;> cases p == "HorizontalTextAlignment" <;> rfl

end StaleLabel

/--
Restyling makes the same of main pages that the user has made the same, whatever styles have set
before.
-/
theorem restyle_forgets (context : StyleContext) (ops ops' : List Operation)
    (hresources : ((start context).run ops).app.resources
      = ((start context).run ops').app.resources)
    (hpages : ((start context).run ops).mainTree?.map (Tree.map Widget.authored)
      = ((start context).run ops').mainTree?.map (Tree.map Widget.authored))
    : ((start context).run (ops ++ [.restyle])).mainTree?.map (Tree.map Widget.shown)
          = ((start context).run (ops' ++ [.restyle])).mainTree?.map (Tree.map Widget.shown) ∧
        (((start context).run ops).app.restyle ((start context).run ops).forest).2
          = (((start context).run ops').app.restyle ((start context).run ops').forest).2 := by
  have harises := arises_run (start_arises context) (start_numbered context)
  have hcontext : ((start context).run ops).app.context = ((start context).run ops').app.context :=
    (context_run _ ops).trans (context_run _ ops').symm
  rw [run_append, run_append, run_cons, run_cons, run_nil, run_nil]
  generalize (start context).run ops = s, harises ops = hs at *
  generalize (start context).run ops' = s', harises ops' = hs' at *
  have hcombined : s'.app.combined = s.app.combined := by
    unfold Application.combined
    rw [hresources]
  cases ht : s.mainTree? with
  | none =>
    rw [ht, Option.map_none, eq_comm, Option.map_eq_none_iff] at hpages
    rcases restyle_of_mainTree?_eq_none ht with ⟨htree, hreport⟩
    rcases restyle_of_mainTree?_eq_none hpages with ⟨htree', hreport'⟩
    rw [htree, htree', hreport, hreport']
    exact ⟨rfl, rfl⟩
  | some t =>
    rw [ht, Option.map_some, eq_comm, Option.map_eq_some_iff] at hpages
    rcases hpages with ⟨u, hu, hauthored⟩
    rcases restyle_eq ht with ⟨htree, hreport⟩
    rcases restyle_eq hu with ⟨htree', hreport'⟩
    have htwins := Tree.twins_resetStyles (arises_mainTree? hs ht) (arises_mainTree? hs' hu)
      hauthored.symm
    have hrun := Cascade.run_twins s.app.context
      (s.app.combined.candidates ⟨s.app.context.options.caseSensitiveTypes⟩) htwins
    rw [htree, htree', hreport, hreport', hcombined, ← hcontext]
    refine ⟨?_, hrun.2.symm⟩
    rw [Option.map_some, Option.map_some]
    congr 1
    apply Tree.Alike.map_eq
    exact hrun.1.imp_of_mem fun _ _ _ _ h => h.shown_eq

open StaleLabel in
theorem restyle_forgets_staleLabel
    : ((start .standard).run (fresh ++ [.restyle])).mainTree?.map (Tree.map Widget.shown)
          = ((start .standard).run (stale ++ [.restyle])).mainTree?.map (Tree.map Widget.shown) ∧
        (((start .standard).run fresh).app.restyle ((start .standard).run fresh).forest).2
          = (((start .standard).run stale).app.restyle ((start .standard).run stale).forest).2 :=
  restyle_forgets .standard fresh stale resources_eq authored_eq

end Session

end TreeStyle
