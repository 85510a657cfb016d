import TreeStyle.Proofs.Session

/-!
This module contains the induction over sessions: what every operation on a single widget keeps is
true of all widgets, whatever is done to trees and applications.
-/

namespace TreeStyle

/--
What all new widgets have, and what no operation on a single widget takes from them. Values that are
set on a widget directly, by the user or as by a style, are given.
-/
structure Widget.Kept (given : Nat → String → Slot → Prop) (P : Widget → Prop) : Prop where
  create (number : Nat) (kind : WidgetKind) : P { number, kind }
  setStyleId {w : Widget} (h : P w) (id : String) : P (w.setStyleId id)
  addClass {w : Widget} (h : P w) (name : String) : P (w.addClass name)
  removeClass {w : Widget} (h : P w) (name : String) : P (w.removeClass name)
  set {w w' : Widget} (h : P w) {p : String} {v : Value} (hgiven : given w.number p (.user v))
    (hset : w.set p v = .ok w') : P w'
  clear {w : Widget} (h : P w) (p : String) : P (w.clear p)
  setStyle {w w' : Widget} (h : P w) {p : String} {v : Value}
    (hgiven : given w.number p (.style v)) (hset : w.setStyle? p v = some w') : P w'
  clearStyle {w : Widget} (h : P w) (p : String) : P (w.clearStyle p)
  style {w : Widget} (h : P w) (registry : Registry) (direct pool : List Declaration) :
    P (Cascade.styleElement registry direct pool w).1
  clearStyles {w : Widget} (h : P w) : P w.clearStyles

def Operation.write (n : Nat) (p : String) : Slot → Operation
  | .user v => .set n p v
  | .style v => .setStyle n p v

variable {given : Nat → String → Slot → Prop} {P : Widget → Prop}

def Tree.Keeps (P : Widget → Prop) (change : Tree Widget → Tree Widget) : Prop :=
  ∀ t : Tree Widget, (∀ w ∈ t.toList, P w) → ∀ w ∈ (change t).toList, P w

namespace Tree.Keeps

theorem of_run (hP : Widget.Kept given P) (context : StyleContext)
    (candidates : List ElementInfo → List Candidate)
    : Keeps P fun t => (Cascade.run context candidates t).1 := by
  intro t ht w hw
  unfold Cascade.run at hw
  dsimp only at hw
  rw [toList_map, List.mem_map] at hw
  rcases hw with ⟨styled, hstyled, heq⟩
  rcases exists_mem_of_mem_mapDown _ _ hstyled with ⟨above, w', hw', hvisit⟩
  rw [← heq, hvisit]
  apply hP.style (ht w' hw')

theorem resetStyles (hP : Widget.Kept given P) : Keeps P Tree.resetStyles := by
  intro t ht w hw
  unfold Tree.resetStyles at hw
  rw [toList_map, List.mem_map] at hw
  rcases hw with ⟨w', hw', heq⟩
  rw [← heq]
  apply hP.clearStyles (ht w' hw')

end Tree.Keeps

namespace Forest

variable {f g : Forest} {n : Nat}

def All (P : Widget → Prop) (f : Forest) : Prop := ∀ w ∈ f.widgets, P w

namespace All

theorem of_perm (hf : f.All P) (hperm : g.widgets.Perm f.widgets) : g.All P := by
  intro w hw
  apply hf w (hperm.subset hw)

theorem create (hP : Widget.Kept given P) (hf : f.All P) (kind : WidgetKind)
    : (f.create kind).2.All P := by
  intro w hw
  rw [widgets_create, List.mem_append, List.mem_singleton] at hw
  rcases hw with hw | hw
  . apply hf w hw
  . rw [hw]
    apply hP.create

theorem modify (hf : f.All P) (hnumbered : f.Numbered) {change : Tree Widget → Tree Widget}
    (hchange : Tree.Keeps P change) (n : Nat) : (f.modify n change).All P := by
  cases ht : f.subtree? n with
  | none =>
    rw [modify_of_subtree?_eq_none ht]
    apply hf
  | some t =>
    rcases exists_widgets_modify (hnumbered.countP_le_one n) ht
      with ⟨left, right, hwidgets, hmodify⟩
    intro w hw
    rw [hmodify] at hw
    unfold All at hf
    rw [hwidgets] at hf
    simp only [List.mem_append] at hw hf
    rcases hw with (hw | hw) | hw
    . apply hf w (Or.inl (Or.inl hw))
    . apply hchange t (fun w hw => hf w (Or.inl (Or.inr hw))) w hw
    . apply hf w (Or.inr hw)

theorem update (hf : f.All P) (hnumbered : f.Numbered) {change : Widget → Widget}
    (hchange : ∀ w, f.widget? n = some w → P w → P (change w))
    : (f.update n change).All P := by
  cases hwidget : f.widget? n with
  | none =>
    rw [update_of_widget?_eq_none hwidget]
    apply hf
  | some w =>
    rcases hnumbered.exists_widgets_update hwidget with ⟨left, right, hwidgets, hupdate⟩
    intro w' hw'
    rw [hupdate] at hw'
    unfold All at hf
    rw [hwidgets] at hf
    simp only [List.mem_append, List.mem_cons] at hw' hf
    rcases hw' with hw' | hw' | hw'
    . apply hf w' (Or.inl hw')
    . rw [hw']
      apply hchange w hwidget (hf w (Or.inr (Or.inl rfl)))
    . apply hf w' (Or.inr (Or.inr hw'))

theorem restyle (hf : f.All P) (hnumbered : f.Numbered)
    {style : Tree Widget → Tree Widget × Report} (hstyle : Tree.Keeps P fun t => (style t).1)
    (n : Nat) : (f.restyle n style).1.All P := by
  have hmodify := hf.modify hnumbered hstyle n
  unfold Forest.restyle
  split
  . apply hf
  . next t ht =>
    dsimp only
    rw [hnumbered.modify_const ht fun t => (style t).1]
    apply hmodify

theorem resetStyles (hP : Widget.Kept given P) (hf : f.All P) (hnumbered : f.Numbered) (n : Nat)
    : (f.resetStyles n).All P ∧ (f.resetStyles n).Numbered :=
  ⟨hf.modify hnumbered (.resetStyles hP) n,
    (StyledTo.modify hnumbered .resetStyles n).numbered hnumbered⟩

theorem apply (hP : Widget.Kept given P) (hf : f.All P) (hnumbered : f.Numbered)
    (app : Application) : (app.apply f).1.All P := by
  unfold Application.apply
  split
  . apply hf.restyle hnumbered (.of_run hP _ _)
  . apply hf

end All

end Forest

namespace Session

variable {s : Session}

theorem all_withForest? {result : Except WidgetError Forest} (hs : s.forest.All P)
    (h : ∀ g, result = .ok g → g.All P)
    : ((attempt?.withForest? s result).getD s).forest.All P := by
  cases result with
  | error e => apply hs
  | ok g => apply h g rfl

theorem all_withApp? {result : Except (ParseError Position) Application} (hs : s.forest.All P)
    : ((attempt?.withApp? s result).getD s).forest.All P := by
  cases result with
  | error e => apply hs
  | ok app => apply hs

theorem all_vacate (hP : Widget.Kept given P) (app : Application) {f : Forest} (hf : f.All P)
    (hnumbered : f.Numbered) (page : Nat) : (app.vacate f page).All P := by
  unfold Application.vacate
  split
  . split
    . apply hf
    . apply (hf.resetStyles hP hnumbered _).1
  . apply hf

theorem all_setMainPage (hP : Widget.Kept given P) {app app' : Application} {f g : Forest}
    {report : Report} {page : Nat} (hf : f.All P) (hnumbered : f.Numbered)
    (h : app.setMainPage f page = .ok (app', g, report)) : g.All P := by
  rcases Application.setMainPage_eq_ok_iff.1 h with ⟨-, -, happly⟩
  have hvacate := all_vacate hP app hf hnumbered page
  have hstyled := Application.styledTo_vacate app page hnumbered
  have hall := hvacate.apply hP (hstyled.numbered hnumbered) app'
  rw [happly] at hall
  exact hall

theorem all_after (hP : Widget.Kept given P) (hs : s.forest.All P) (hnumbered : s.forest.Numbered)
    (op : Operation) (hgiven : ∀ n p slot, op = .write n p slot → given n p slot)
    : (s.after op).forest.All P := by
  cases op with
  | create kind => apply Forest.All.create hP hs
  | addChild parent child =>
    apply all_withForest? hs
    intro g hg
    apply hs.of_perm (hnumbered.widgets_addChild hg).1
  | setContent parent content =>
    apply all_withForest? hs
    intro g hg
    apply hs.of_perm (hnumbered.widgets_setContent hg).1
  | removeChild parent child => apply hs.of_perm (hnumbered.widgets_removeChild parent child).1
  | setStyleId n id => apply hs.update hnumbered fun _ _ h => hP.setStyleId h id
  | addClass n name => apply hs.update hnumbered fun _ _ h => hP.addClass h name
  | removeClass n name => apply hs.update hnumbered fun _ _ h => hP.removeClass h name
  | set n p v =>
    apply all_withForest? hs
    intro g hg
    rcases Forest.tryUpdate_eq_ok_iff.1 hg with ⟨w, w', hwidget, hset, hupdate⟩
    rw [hupdate]
    -- The number in the operation is that of the one widget that is changed.
    apply hs.update hnumbered
    intro w₁ hw₁ h
    rw [hwidget] at hw₁
    cases hw₁
    have hvalue := hgiven n p (.user v) rfl
    rw [← (hnumbered.widget?_eq_some_iff.1 hwidget).2] at hvalue
    apply hP.set h hvalue hset
  | clear n p => apply hs.update hnumbered fun _ _ h => hP.clear h p
  | setStyle n p v =>
    apply hs.update hnumbered
    intro w hwidget h
    unfold Widget.writeStyle
    cases hset : w.setStyle? p v with
    | none => apply h
    | some w' =>
      have hvalue := hgiven n p (.style v) rfl
      rw [← (hnumbered.widget?_eq_some_iff.1 hwidget).2] at hvalue
      apply hP.setStyle h hvalue hset
  | clearStyle n p => apply hs.update hnumbered fun _ _ h => hP.clearStyle h p
  | clearStyles n => apply hs.update hnumbered fun _ _ h => hP.clearStyles h
  | applySheet context n sheet => apply hs.restyle hnumbered (.of_run hP _ _)
  | applyStyle context n style => apply hs.restyle hnumbered (.of_run hP _ _)
  | resetStyles n => apply hs.modify hnumbered (.resetStyles hP)
  | addSheet sheet => apply hs
  | addSheetText text => apply all_withApp? hs
  | addSheetBytes bytes => apply all_withApp? hs
  | setMainPage page =>
    show (((s.app.setMainPage s.forest page).toOption.map _).getD s).forest.All P
    cases hpage : s.app.setMainPage s.forest page with
    | error e => apply hs
    | ok result => apply all_setMainPage hP hs hnumbered hpage
  | restyle =>
    show (s.app.restyle s.forest).1.All P
    unfold Application.restyle
    split
    . next page _ =>
      have hreset := hs.resetStyles hP hnumbered page
      apply hreset.1.apply hP hreset.2
    . apply hs.apply hP hnumbered

theorem all_run (hP : Widget.Kept given P) (hs : s.forest.All P) (hnumbered : s.forest.Numbered)
    (ops : List Operation)
    (hgiven : ∀ n p slot, Operation.write n p slot ∈ ops → given n p slot)
    : (s.run ops).forest.All P := by
  induction ops generalizing s with
  | nil => apply hs
  | cons op ops ih =>
    apply ih
    . apply all_after hP hs hnumbered
      intro n p slot hop
      apply hgiven n p slot
      rw [hop]
      apply List.mem_cons_self
    . apply (evolves_after hnumbered op).numbered
    . intro n p slot hmem
      apply hgiven n p slot (List.mem_cons_of_mem op hmem)

theorem start_all (context : StyleContext) : (start context).forest.All P := by
  intro w hw
  cases hw

end Session

end TreeStyle
