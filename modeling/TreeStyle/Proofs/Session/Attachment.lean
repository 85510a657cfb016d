import TreeStyle.Proofs.Cascade.Accounting
import TreeStyle.Proofs.Session.Restyling

/-!
This module contains what restyling changes right after a page became the main page. A page that
becomes the main page keeps what styles have set before, and restyling drops it.
-/

namespace TreeStyle

namespace PropertyStore

variable {s : PropertyStore} {p : String}

theorem map_user_userValue? (s : PropertyStore) (p : String)
    : (s.userValue? p).map .user = if s.origin p = .style then none else s.slot? p := by
  unfold userValue? origin
  cases s.slot? p with
  | none => rfl
  | some slot => cases slot <;> rfl

theorem settle_userValue? (s : PropertyStore) (p : String) (value : Option Value)
    : Slot.settle ((s.userValue? p).map .user) value = Slot.settle (s.slot? p) value := by
  unfold userValue?
  cases s.slot? p with
  | none => rfl
  | some slot => cases slot <;> rfl

theorem origin_eq_user_iff_isSome (s : PropertyStore) (p : String)
    : s.origin p = .user ↔ (s.userValue? p).isSome = true := by
  unfold origin userValue?
  cases s.slot? p with
  | none => simp
  | some slot => cases slot <;> simp [Slot.origin]

theorem Distinct.userValue?_clearStyles {s : PropertyStore} (h : s.Distinct) (p : String)
    : s.clearStyles.userValue? p = s.userValue? p := by
  conv => lhs; unfold userValue?
  rw [h.slot?_clearStyles]
  cases s.userValue? p <;> rfl

theorem Distinct.origin_clearStyles_ne_style {s : PropertyStore} (h : s.Distinct) (p : String)
    : s.clearStyles.origin p ≠ .style := by
  unfold origin
  rw [h.slot?_clearStyles]
  cases s.userValue? p <;> simp [Slot.origin]

end PropertyStore

namespace Widget

variable {w w' : Widget} {p : String}

theorem authored_clearStyles (h : w.store.Distinct)
    : w.clearStyles.authored = w.authored := by
  unfold authored
  congr 1
  funext p
  exact h.userValue?_clearStyles p

theorem lookalike_of_authored_eq (h : w.authored = w'.authored)
    : w.Lookalike w' ∧ ∀ p, w'.origin p = .user ↔ w.origin p = .user := by
  unfold authored at h
  rw [Authored.mk.injEq] at h
  rcases h with ⟨hkind, hstyleId, hclasses, hvalues⟩
  refine ⟨⟨hkind.symm, hstyleId.symm, hclasses.symm⟩, ?_⟩
  intro p
  unfold origin
  rw [PropertyStore.origin_eq_user_iff_isSome, PropertyStore.origin_eq_user_iff_isSome, hvalues]

theorem shown_eq_of_slot? (hkind : w'.kind = w.kind) (h : w'.store.slot? p = w.store.slot? p)
    : w'.shown p = w.shown p := by
  unfold shown origin PropertyStore.origin get? property? PropertyStore.get?
  rw [hkind, h]

end Widget

namespace Cascade

section Element

variable (registry : Registry) (direct pool : List Declaration) (w : Widget) (p : String)

theorem userValue?_styleElement
    : (styleElement registry direct pool w).1.store.userValue? p = w.store.userValue? p := by
  unfold PropertyStore.userValue?
  rw [slot?_styleElement_eq_lookup]
  cases (decisions registry direct pool w).lookup p with
  | none => rfl
  | some value =>
    dsimp only [Option.elim_some]
    cases w.store.slot? p with
    | none => cases value <;> rfl
    | some slot => cases slot <;> cases value <;> rfl

theorem authored_styleElement
    : (styleElement registry direct pool w).1.authored = w.authored := by
  have huser : (styleElement registry direct pool w).1.store.userValue? = w.store.userValue? :=
    funext (userValue?_styleElement registry direct pool w)
  have hlookalike := lookalike_styleElement registry direct pool w
  unfold Widget.authored
  rw [huser, hlookalike.kind_eq, hlookalike.styleId?_eq, hlookalike.classes_eq]

def styleAgain : Widget :=
  (styleElement registry direct pool (styleElement registry direct pool w).1.clearStyles).1

variable {w}

theorem slot?_styleAgain (hw : w.Arises)
    : (styleAgain registry direct pool w).store.slot? p
        = ((decisions registry direct pool w).lookup p).elim
            ((w.store.userValue? p).map .user) (Slot.settle (w.store.slot? p)) := by
  have hstyled := lookalike_styleElement registry direct pool w
  have hlookalike : w.Lookalike (styleElement registry direct pool w).1.clearStyles :=
    ⟨hstyled.kind_eq, hstyled.styleId?_eq, hstyled.classes_eq⟩
  have hdistinct : (styleElement registry direct pool w).1.store.Distinct :=
    (Widget.kept_arises.style hw registry direct pool).distinct
  have hcleared := hdistinct.slot?_clearStyles p
  rw [userValue?_styleElement] at hcleared
  unfold styleAgain
  rw [slot?_styleElement_eq_lookup, hlookalike.decisions_eq]
  unfold Widget.clearStyles
  dsimp only
  rw [hcleared]
  cases (decisions registry direct pool w).lookup p with
  | none => rfl
  | some value => exact PropertyStore.settle_userValue? w.store p value

theorem kind_styleAgain
    : (styleAgain registry direct pool w).kind = (styleElement registry direct pool w).1.kind :=
  (lookalike_styleElement registry direct pool _).kind_eq

theorem shown_styleAgain (hw : w.Arises)
    : (w.origin p = .style ∧ p ∉ (decisions registry direct pool w).map (·.1) →
          (styleElement registry direct pool w).1.origin p = .style ∧
            (styleAgain registry direct pool w).origin p = .unset) ∧
        (¬(w.origin p = .style ∧ p ∉ (decisions registry direct pool w).map (·.1)) →
          (styleAgain registry direct pool w).shown p
            = (styleElement registry direct pool w).1.shown p) := by
  have hslot := slot?_styleElement_eq_lookup registry direct pool w p
  have hagain := slot?_styleAgain registry direct pool p hw
  have hkind := kind_styleAgain registry direct pool (w := w)
  have hnone : (decisions registry direct pool w).lookup p = none ↔
      p ∉ (decisions registry direct pool w).map (·.1) := by
    rw [List.lookup_eq_none_iff]
    grind
  rw [← hnone]
  cases hlookup : (decisions registry direct pool w).lookup p with
  | some value =>
    rw [hlookup] at hslot hagain
    refine ⟨by rintro ⟨-, ⟨⟩⟩, ?_⟩
    intro _
    exact Widget.shown_eq_of_slot? hkind (hagain.trans hslot.symm)
  | none =>
    rw [hlookup] at hslot hagain
    dsimp only [Option.elim_none] at hslot hagain
    rw [PropertyStore.map_user_userValue?] at hagain
    constructor
    . rintro ⟨hstyle, -⟩
      have hstyle' : w.store.origin p = .style := hstyle
      rw [if_pos hstyle'] at hagain
      refine ⟨?_, PropertyStore.origin_eq_unset_iff.2 hagain⟩
      rw [← hstyle]
      unfold Widget.origin PropertyStore.origin
      rw [hslot]
    . intro hnot
      have hstyle : w.store.origin p ≠ .style := fun hstyle => hnot ⟨hstyle, rfl⟩
      rw [if_neg hstyle] at hagain
      exact Widget.shown_eq_of_slot? hkind (hagain.trans hslot.symm)

end Element

section Run

variable (context : StyleContext) (candidates : List ElementInfo → List Candidate)
variable {t : Tree Widget}

theorem lookalike_clearStyles_visit (registry : Registry) (above : Surroundings) (w : Widget)
    : w.Lookalike (visit registry candidates above w).1.1.clearStyles := by
  have h := lookalike_styleElement registry
    (Candidate.rank (candidates (ElementInfo.of w :: above.ancestors).reverse)) above.pool w
  exact ⟨h.kind_eq, h.styleId?_eq, h.classes_eq⟩

theorem lookalikes_mapPath (registry : Registry) (above : Surroundings) (path : List Widget)
    : List.Forall₂ Widget.Lookalike path
        ((Tree.mapPath (visit registry candidates) above path).map (·.1.clearStyles)) := by
  induction path generalizing above with
  | nil => exact .nil
  | cons w path ih => exact .cons (lookalike_clearStyles_visit candidates registry above w) (ih _)

theorem path?_resetStyles_run {position : List Nat} {path : List Widget}
    (h : t.path? position = some path)
    : (run context candidates t).1.resetStyles.path? position
        = some ((Tree.mapPath (visit context.registry candidates) {} path).map
            (·.1.clearStyles)) := by
  unfold run Tree.resetStyles
  dsimp only
  rw [Tree.map_map, Tree.path?_map, Tree.path?_mapDown, h]
  rfl

theorem value?_run_resetStyles {position : List Nat} {above : List Widget} {w : Widget}
    (h : t.path? position = some (above ++ [w]))
    : (run context candidates (run context candidates t).1.resetStyles).1.value? position
        = some (styleAgain context.registry
            (Candidate.rank (candidates ((above ++ [w]).map ElementInfo.of)))
            (surroundings context.registry candidates above).pool w) := by
  have hpath := path?_resetStyles_run context candidates h
  have halike := lookalikes_mapPath candidates context.registry {} (above ++ [w])
  have habove := lookalikes_mapPath candidates context.registry {} above
  rw [Tree.mapPath_concat, List.map_append, List.map_singleton] at hpath halike
  rw [value?_run hpath, map_elementInfo_eq_of_lookalikes halike,
    surroundings_eq_of_lookalikes habove]
  unfold styleAgain visit
  dsimp only
  rw [← chain_surroundings context.registry candidates]
  rfl

theorem alike_resetStyles_run (ht : ∀ w ∈ t.toList, w.Arises)
    : Tree.Alike (fun w w' : Widget =>
        w.Lookalike w' ∧ ∀ p, w'.origin p = .user ↔ w.origin p = .user)
        t (run context candidates t).1.resetStyles := by
  have hauthored : t.map Widget.authored = (run context candidates t).1.map Widget.authored := by
    unfold run
    dsimp only
    rw [Tree.map_map, eq_comm]
    apply Tree.map_mapDown
    intro above w
    apply authored_styleElement
  have harises : ∀ w ∈ (run context candidates t).1.toList, w.Arises :=
    Tree.Keeps.of_run Widget.kept_arises context candidates t ht
  have halike := (Tree.Alike.of_map_eq hauthored).imp_of_mem fun w _ w' hw' h =>
    And.intro h (harises w' hw').distinct
  apply halike.map_right
  rintro w w' ⟨h, hdistinct⟩
  exact Widget.lookalike_of_authored_eq (h.trans (Widget.authored_clearStyles hdistinct).symm)

theorem snd_run_resetStyles (ht : ∀ w ∈ t.toList, w.Arises)
    : (run context candidates (run context candidates t).1.resetStyles).2
        = (run context candidates t).2 :=
  snd_run_eq_of_alike context candidates (alike_resetStyles_run context candidates ht)

theorem exists_path?_of_value?_run {position : List Nat} {w' : Widget}
    (h : (run context candidates t).1.value? position = some w')
    : ∃ above w, t.path? position = some (above ++ [w]) := by
  cases hpath : t.path? position with
  | none =>
    rw [value?_run_eq_none hpath] at h
    cases h
  | some path =>
    rcases List.eq_nil_or_concat path with rfl | ⟨above, w, rfl⟩
    . exact absurd rfl (Tree.path?_ne_nil hpath)
    . rw [List.concat_eq_append]
      exact ⟨above, w, rfl⟩

theorem shown_run_resetStyles (ht : ∀ w ∈ t.toList, w.Arises) {position : List Nat} {w' : Widget}
    (h : (run context candidates t).1.value? position = some w')
    : ∃ w decisions w'', t.value? position = some w ∧
        (decided context candidates t).value? position = some decisions ∧
        (run context candidates (run context candidates t).1.resetStyles).1.value? position
          = some w'' ∧
        ∀ p, (w.origin p = .style ∧ p ∉ decisions.map (·.1) →
            w'.origin p = .style ∧ w''.origin p = .unset) ∧
          (¬(w.origin p = .style ∧ p ∉ decisions.map (·.1)) → w''.shown p = w'.shown p) := by
  rcases exists_path?_of_value?_run context candidates h with ⟨above, w, hpath⟩
  rw [value?_run hpath, Option.some.injEq] at h
  have hw : w ∈ t.toList := Tree.mem_toList_of_mem_path hpath w (by simp)
  refine ⟨w, _, _, ?_, Tree.value?_mapDown hpath, value?_run_resetStyles context candidates hpath,
    ?_⟩
  . unfold Tree.value?
    rw [hpath]
    simp
  . intro p
    rw [← h]
    have hshown := shown_styleAgain context.registry
      (Candidate.rank (candidates ((above ++ [w]).map ElementInfo.of)))
      (surroundings context.registry candidates above).pool p (ht w hw)
    rw [← chain_surroundings context.registry candidates] at hshown ⊢
    exact hshown

end Run

end Cascade

namespace Forest

variable {f : Forest} {w : Widget}

theorem Numbered.mem_resetStyles (hf : f.Numbered) (hw : w ∈ f.widgets) (n : Nat)
    : (if w.number ∈ f.traverse n then w.clearStyles else w) ∈ (f.resetStyles n).widgets := by
  unfold traverse resetStyles
  cases ht : f.subtree? n with
  | none =>
    rw [modify_of_subtree?_eq_none ht, if_neg List.not_mem_nil]
    exact hw
  | some t =>
    rcases exists_widgets_modify (hf.countP_le_one n) ht with ⟨left, right, hwidgets, hmodify⟩
    rw [hmodify]
    dsimp only
    split
    . next hmem =>
      rcases List.mem_map.1 hmem with ⟨w', hw', hnumber⟩
      have heq := hf.eq_of_number_eq (toList_subset_of_subtree? ht hw') hw hnumber
      unfold Tree.resetStyles
      rw [Tree.toList_map, ← heq]
      have hcleared : w'.clearStyles ∈ t.toList.map Stylable.clearStyles :=
        List.mem_map_of_mem hw'
      simp [hcleared]
    . next hmem =>
      have hnot : w ∉ t.toList := fun h => hmem (List.mem_map_of_mem h)
      rw [hwidgets] at hw
      simp only [List.mem_append, hnot, or_false] at hw
      simp only [List.mem_append]
      tauto

theorem exists_subtree?_of_bare_eq {g : Forest} {n : Nat} {t : Tree Widget} (h : g.bare = f.bare)
    (ht : f.subtree? n = some t)
    : ∃ u, g.subtree? n = some u ∧ u.map Widget.bare = t.map Widget.bare := by
  have hbare := findSome?_bare g n
  rw [h, findSome?_bare, ht, Option.map_some, eq_comm] at hbare
  exact Option.map_eq_some_iff.1 hbare

end Forest

theorem Tree.exists_value?_of_map_eq {α β : Type} {t u : Tree α} {f : α → β}
    {position : List Nat} {a : α} (h : u.map f = t.map f) (ha : u.value? position = some a)
    : ∃ b, t.value? position = some b ∧ f b = f a := by
  have hvalue := value?_map f t position
  rw [← h, value?_map, ha, Option.map_some, eq_comm] at hvalue
  exact Option.map_eq_some_iff.1 hvalue

theorem Tree.mem_toList_of_value? {α : Type} {t : Tree α} {position : List Nat} {a : α}
    (h : t.value? position = some a)
    : a ∈ t.toList := by
  rcases exists_path?_of_value? h with ⟨above, hpath⟩
  exact mem_toList_of_mem_path hpath a (by simp)

theorem Application.mem_vacate {f : Forest} {w : Widget} (app : Application) (page : Nat)
    (hf : f.Numbered) (hw : w ∈ f.widgets)
    : (if w.number ∈ app.vacated f page then w.clearStyles else w)
        ∈ (app.vacate f page).widgets := by
  unfold vacated vacate
  split
  . next previous _ =>
    split
    . simpa using hw
    . exact hf.mem_resetStyles hw previous
  . simpa using hw

namespace Session

/--
A style had set the property before the page became the main page. Neither did the widget lose that
with the page before, nor do the sheets of the application decide the property.
-/
def Stale (s : Session) (page : Nat) (w : Widget) (decided : Cascade.Decisions) (p : String) :
    Prop :=
  w.origin p = .style ∧ w.number ∉ s.app.vacated s.forest page ∧ p ∉ decided.map (·.1)

theorem subtree?_apply {app : Application} {f g : Forest} {report : Report} {page : Nat}
    {t : Tree Widget} (hpage : app.mainPage? = some page) (ht : f.subtree? page = some t)
    (h : app.apply f = (g, report))
    : g.subtree? page = some (app.combined.apply app.context t).1 ∧
        report = (app.combined.apply app.context t).2 := by
  have hstyles : Tree.Styles fun t => (app.combined.apply app.context t).1 := .of_run _ _
  have hrestyle := Forest.subtree?_restyle hstyles ht
  have happly : app.apply f = f.restyle page (app.combined.apply app.context) := by
    unfold Application.apply
    rw [hpage]
    rfl
  rw [← happly, h] at hrestyle
  exact hrestyle

theorem subtree?_restyle {app : Application} {f : Forest} {page : Nat} {t : Tree Widget}
    (hpage : app.mainPage? = some page) (ht : f.subtree? page = some t)
    : (app.restyle f).1.subtree? page
          = some (app.combined.apply app.context t.resetStyles).1 ∧
        (app.restyle f).2 = (app.combined.apply app.context t.resetStyles).2 := by
  have hmain : ∀ f : Forest, (Session.mk app f).mainTree? = f.subtree? page := by
    intro f
    unfold mainTree?
    rw [hpage]
    rfl
  have hafter : (Session.mk app f).after .restyle = .mk app (app.restyle f).1 := rfl
  have hrestyle := restyle_eq ((hmain f).trans ht)
  rw [hafter, hmain] at hrestyle
  exact hrestyle

theorem stale_iff (s : Session) (page : Nat) {w : Widget} (hw : w.Arises)
    (decided : Cascade.Decisions) (p : String)
    : s.Stale page w decided p
        ↔
      (if w.number ∈ s.app.vacated s.forest page then w.clearStyles else w).origin p = .style ∧
        p ∉ decided.map (·.1) := by
  unfold Stale
  split
  . next hmem =>
    have hnot : w.clearStyles.origin p ≠ .style := hw.distinct.origin_clearStyles_ne_style p
    simp [hmem, hnot]
  . next hmem => simp [hmem]

/--
After a page became the main page, restyling gives the same report. It drops the values that were
stale then and changes nothing else in the tree of the page.
-/
theorem restyle_after_setMainPage (context : StyleContext) (ops : List Operation) {page : Nat}
    {app : Application} {f : Forest} {report : Report}
    (h : ((start context).run ops).app.setMainPage ((start context).run ops).forest page
      = .ok (app, f, report))
    : (app.restyle f).2 = report ∧
        ∃ before attached restyled : Tree Widget,
          ((start context).run ops).forest.subtree? page = some before ∧
          f.subtree? page = some attached ∧
          (app.restyle f).1.subtree? page = some restyled ∧
          restyled.map Widget.bare = attached.map Widget.bare ∧
          ∀ position w', attached.value? position = some w' →
            ∃ w decided w'', before.value? position = some w ∧
              (app.combined.decided context before).value? position = some decided ∧
              restyled.value? position = some w'' ∧
              ∀ p, (((start context).run ops).Stale page w decided p →
                  w'.origin p = .style ∧ w''.origin p = .unset) ∧
                (¬((start context).run ops).Stale page w decided p →
                  w''.shown p = w'.shown p) := by
  have hs := numbered_run (start_numbered context) ops
  have harises := arises_run (start_arises context) (start_numbered context) ops
  have hcontext : ((start context).run ops).app.context = context := context_run _ ops
  generalize (start context).run ops = s at *
  rcases Application.setMainPage_eq_ok_iff.1 h with ⟨⟨w, hwidget, -⟩, happ, happly⟩
  rcases Option.map_eq_some_iff.1 hwidget with ⟨before, hbefore, -⟩
  have hpage : app.mainPage? = some page := by
    rw [happ]
  have hcontext : app.context = context := by
    rw [happ]
    exact hcontext
  have hvacate := s.app.styledTo_vacate page hs
  rcases Forest.exists_subtree?_of_bare_eq hvacate.bare_eq hbefore with ⟨t, ht, hbare⟩
  have htarises : ∀ w ∈ t.toList, w.Arises := fun w hw =>
    all_vacate Widget.kept_arises s.app harises hs page w (Forest.toList_subset_of_subtree? ht hw)
  rcases subtree?_apply hpage ht happly with ⟨hattached, hreport⟩
  rcases subtree?_restyle hpage hattached with ⟨hrestyled, hagain⟩
  rw [hcontext] at hattached hreport hrestyled hagain
  refine ⟨?_, before, _, _, hbefore, hattached, hrestyled, ?_, ?_⟩
  . rw [hagain, hreport]
    exact Cascade.snd_run_resetStyles context _ htarises
  . have hstyles : Tree.Styles fun t => (app.combined.apply context t).1 := .of_run _ _
    rw [hstyles.map_bare, Tree.Styles.resetStyles.map_bare]
  . intro position w' hw'
    rcases Cascade.shown_run_resetStyles context _ htarises hw' with
      ⟨w₁, decided, w'', hw₁, hdecided, hw'', hshown⟩
    rcases Tree.exists_value?_of_map_eq hbare hw₁ with ⟨w, hw, hwbare⟩
    have hdecided : (app.combined.decided context before).value? position = some decided := by
      unfold StyleSheet.decided
      rw [← Cascade.decided_map_bare, ← hbare, Cascade.decided_map_bare]
      exact hdecided
    refine ⟨w, decided, w'', hw, hdecided, hw'', ?_⟩
    intro p
    have hmem := Forest.toList_subset_of_subtree? hbefore (Tree.mem_toList_of_value? hw)
    -- The widget at this place before is the one that is styled, perhaps without its styles.
    have hsame : (if w.number ∈ s.app.vacated s.forest page then w.clearStyles else w) = w₁ := by
      apply (hvacate.numbered hs).eq_of_number_eq (s.app.mem_vacate page hs hmem)
        (Forest.toList_subset_of_subtree? ht (Tree.mem_toList_of_value? hw₁))
      have hnumber : w.number = w₁.number := congrArg (·.number) hwbare
      rw [← hnumber]
      split <;> rfl
    rw [stale_iff s page (harises w hmem), hsame]
    exact hshown p

namespace StaleLabel

def unattached : Session := (start .standard).run stale.dropLast

def attachedApp : Application := { unattached.app with mainPage? := some 1 }

def attachedForest : Forest := (attachedApp.apply unattached.forest).1

def page : Tree Widget :=
  .node { number := 1, kind := .contentPage } [.node
    { number := 0
      kind := .label
      store := ⟨[
        ("Text", .user (.string "left")),
        ("HorizontalTextAlignment", .style (StyleEnum.toValue TextAlignment.center))]⟩ } []]

def label? (f : Forest) : Option Widget := f.subtree? 1 >>= (·.value? [0])

theorem subtree?_unattached
    : unattached.forest.subtree? 1 = some page := by
  decide +kernel

theorem mainPage?_unattached
    : unattached.app.mainPage? = none := by
  decide +kernel

theorem decided_page
    : ((attachedApp.combined.decided .standard page).value? [0]).map (·.map (·.1))
        = some ["IsVisible"] := by
  decide +kernel

theorem setMainPage_unattached
    : unattached.app.setMainPage unattached.forest 1
        = .ok (attachedApp, attachedForest, (attachedApp.apply unattached.forest).2) := by
  have hpage : unattached.forest.widget? 1 = some page.value := by
    unfold Forest.widget?
    rw [subtree?_unattached, Option.map_some]
  have hvacate : unattached.app.vacate unattached.forest 1 = unattached.forest := by
    unfold Application.vacate
    rw [mainPage?_unattached]
  rw [Application.setMainPage_eq_ok_iff, hvacate]
  exact ⟨⟨_, hpage, rfl⟩, rfl, rfl⟩

end StaleLabel

open StaleLabel

theorem restyle_after_setMainPage_staleLabel
    : ∃ app f report, unattached.app.setMainPage unattached.forest 1 = .ok (app, f, report) ∧
        (app.restyle f).2 = report ∧
        ∃ w' w'', label? f = some w' ∧ label? (app.restyle f).1 = some w'' ∧
          w'.origin "HorizontalTextAlignment" = .style ∧
          w''.origin "HorizontalTextAlignment" = .unset := by
  refine ⟨_, _, _, setMainPage_unattached, ?_⟩
  rcases restyle_after_setMainPage .standard stale.dropLast setMainPage_unattached with
    ⟨hreport, before, attached, restyled, hbefore, hattached, hrestyled, -, hshown⟩
  cases subtree?_unattached.symm.trans hbefore
  have hlabel : ∃ w', attached.value? [0] = some w' := by
    have hsome : (label? attachedForest).isSome = true := by
      decide +kernel
    unfold label? at hsome
    rw [hattached] at hsome
    exact Option.isSome_iff_exists.1 hsome
  rcases hlabel with ⟨w', hw'⟩
  rcases hshown [0] w' hw' with ⟨w, decided, w'', hw, hdecided, hw'', hshown⟩
  refine ⟨hreport, w', w'', ?_, ?_, (hshown "HorizontalTextAlignment").1 ?_⟩
  . unfold label?
    rw [hattached]
    exact hw'
  . unfold label?
    rw [hrestyled]
    exact hw''
  . cases hw
    refine ⟨by decide, ?_, ?_⟩
    . have hvacated : unattached.app.vacated unattached.forest 1 = [] := by
        unfold Application.vacated
        rw [mainPage?_unattached]
      have hnot : 0 ∉ unattached.app.vacated unattached.forest 1 := by
        rw [hvacated]
        exact List.not_mem_nil
      exact hnot
    . have hnames := decided_page
      rw [hdecided, Option.map_some, Option.some.injEq] at hnames
      rw [hnames]
      decide

theorem centred_label_restyled
    : unattached.app.setMainPage unattached.forest 1
          = .ok (attachedApp, attachedForest, (attachedApp.apply unattached.forest).2) ∧
        (label? attachedForest).map (·.shown "HorizontalTextAlignment")
          = some (.style, some (StyleEnum.toValue TextAlignment.center)) ∧
        (label? (attachedApp.restyle attachedForest).1).map (·.shown "HorizontalTextAlignment")
          = some (.unset, some (StyleEnum.toValue TextAlignment.start)) := by
  refine ⟨setMainPage_unattached, ?_, ?_⟩
  . decide +kernel
  . decide +kernel

end Session

end TreeStyle
