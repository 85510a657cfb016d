import TreeStyle.Application
import TreeStyle.Proofs.Forest.Styling
import TreeStyle.Proofs.Typing

/-!
This module contains sessions: an application and the widgets, and all that is done to them one
operation after the other. What the user has set stays until the user sets or clears it again.
-/

namespace TreeStyle

inductive Operation where
  | create (kind : WidgetKind)
  | addChild (parent child : Nat)
  | setContent (parent content : Nat)
  | removeChild (parent child : Nat)
  | setStyleId (n : Nat) (id : String)
  | addClass (n : Nat) (name : String)
  | removeClass (n : Nat) (name : String)
  | set (n : Nat) (property : String) (value : Value)
  | clear (n : Nat) (property : String)
  | setStyle (n : Nat) (property : String) (value : Value)
  | clearStyle (n : Nat) (property : String)
  | clearStyles (n : Nat)
  | applySheet (context : StyleContext) (n : Nat) (sheet : StyleSheet)
  | applyStyle (context : StyleContext) (n : Nat) (style : Style)
  | resetStyles (n : Nat)
  | addSheet (sheet : StyleSheet)
  | addSheetText (text : String)
  | addSheetBytes (bytes : ByteArray)
  | setMainPage (page : Nat)
  | restyle

structure Session where
  app : Application := {}
  forest : Forest := {}

namespace Session

def start (context : StyleContext) : Session := { app := { context } }

def attempt? (s : Session) : Operation → Option Session
  | .create kind => some { s with forest := (s.forest.create kind).2 }
  | .addChild parent child => withForest? (s.forest.addChild parent child)
  | .setContent parent content => withForest? (s.forest.setContent parent content)
  | .removeChild parent child => some { s with forest := (s.forest.removeChild parent child).2 }
  | .setStyleId n id => some { s with forest := s.forest.update n (·.setStyleId id) }
  | .addClass n name => some { s with forest := s.forest.update n (·.addClass name) }
  | .removeClass n name => some { s with forest := s.forest.update n (·.removeClass name) }
  | .set n property value => withForest? (s.forest.tryUpdate n (·.set property value))
  | .clear n property => some { s with forest := s.forest.update n (·.clear property) }
  | .setStyle n property value =>
    some { s with forest := s.forest.update n (·.writeStyle property value) }
  | .clearStyle n property => some { s with forest := s.forest.update n (·.clearStyle property) }
  | .clearStyles n => some { s with forest := s.forest.update n (·.clearStyles) }
  | .applySheet context n sheet =>
    some { s with forest := (s.forest.applySheet context n sheet).1 }
  | .applyStyle context n style =>
    some { s with forest := (s.forest.applyStyle context n style).1 }
  | .resetStyles n => some { s with forest := s.forest.resetStyles n }
  | .addSheet sheet => some { s with app := s.app.addSheet sheet }
  | .addSheetText text => withApp? (s.app.addSheetText text)
  | .addSheetBytes bytes => withApp? (s.app.addSheetBytes bytes)
  | .setMainPage page =>
    (s.app.setMainPage s.forest page).toOption.map fun (app, forest, _) => ⟨app, forest⟩
  | .restyle => some { s with forest := (s.app.restyle s.forest).1 }
where
  withForest? (result : Except WidgetError Forest) : Option Session :=
    result.toOption.map ({ s with forest := · })
  withApp? (result : Except (ParseError Position) Application) : Option Session :=
    result.toOption.map ({ s with app := · })

def after (s : Session) (op : Operation) : Session := (s.attempt? op).getD s

def run (s : Session) (ops : List Operation) : Session := ops.foldl after s

def Accepts (s : Session) (op : Operation) : Prop := (s.attempt? op).isSome = true

def Writes (s : Session) (op : Operation) (n : Nat) (property : String) : Prop :=
  op = .clear n property ∨ ∃ value, op = .set n property value ∧ s.Accepts op

def Spares (n : Nat) (property : String) : Session → List Operation → Prop
  | _, [] => True
  | s, op :: ops => ¬ s.Writes op n property ∧ Spares n property (s.after op) ops

def scope? (s : Session) : Operation → Option (List Nat)
  | .setStyle n _ _ => some [n]
  | .clearStyle n _ => some [n]
  | .clearStyles n => some [n]
  | .applySheet _ n _ => some (s.forest.traverse n)
  | .applyStyle _ n _ => some (s.forest.traverse n)
  | .resetStyles n => some (s.forest.traverse n)
  | .restyle => some (s.app.mainPage?.elim [] s.forest.traverse)
  | _ => none

end Session

namespace Forest

variable {f g k : Forest} {n : Nat} {w : Widget} {written : Nat → String → Prop}

/--
The forest `g` is what a step can make of `f` that writes nothing for the user except where told.
-/
structure Evolves (written : Nat → String → Prop) (f g : Forest) : Prop where
  numbered : g.Numbered
  user : ∀ w ∈ f.widgets, ∃ w' ∈ g.widgets, w'.number = w.number ∧ w'.kind = w.kind ∧
    ∀ p v, ¬ written w.number p → w.store.slot? p = some (.user v) →
      w'.store.slot? p = some (.user v)

def HasUserValue (f : Forest) (n : Nat) (p : String) (v : Value) : Prop :=
  ∃ w ∈ f.widgets, w.number = n ∧ (∃ descriptor, w.property? p = some descriptor) ∧
    w.store.slot? p = some (.user v)

namespace Evolves

theorem of_subset (hg : g.Numbered) (h : f.widgets ⊆ g.widgets) : Evolves written f g where
  numbered := hg
  user w hw := ⟨w, h hw, rfl, rfl, fun _ _ _ hslot => hslot⟩

theorem refl (hf : f.Numbered) : Evolves written f f := of_subset hf (List.Subset.refl _)

theorem of_perm (hf : f.Numbered) (h : g.widgets.Perm f.widgets ∧ g.count = f.count)
    : Evolves written f g :=
  of_subset (hf.of_perm h.1 h.2) h.1.symm.subset

theorem of_styledTo (hf : f.Numbered) {scope : List Nat} (h : StyledTo scope f g)
    : Evolves written f g where
  numbered := h.numbered hf
  user w hw := by
    rcases h.user w hw with ⟨w', hw', hstyled⟩
    exact ⟨w', hw', hstyled.number_eq, hstyled.kind_eq, fun p v _ => hstyled.user p v⟩

theorem create (hf : f.Numbered) (kind : WidgetKind) : Evolves written f (f.create kind).2 := by
  apply of_subset (hf.create kind)
  rw [widgets_create]
  exact List.subset_append_left _ _

theorem update (hf : f.Numbered) {change : Widget → Widget}
    (hchange : ∀ w, f.widget? n = some w →
      (change w).number = w.number ∧ (change w).kind = w.kind ∧
        ∀ p v, ¬ written n p → w.store.slot? p = some (.user v) →
          (change w).store.slot? p = some (.user v))
    : Evolves written f (f.update n change) := by
  cases hwidget : f.widget? n with
  | none =>
    rw [update_of_widget?_eq_none hwidget]
    exact refl hf
  | some w =>
    rcases hchange w hwidget with ⟨hnumber, hkind, huser⟩
    rcases hf.exists_widgets_update hwidget with ⟨left, right, hwidgets, hupdate⟩
    constructor
    . unfold Numbered at hf
      rw [hwidgets] at hf
      show (List.map _ _).Perm (List.range f.count)
      rw [hupdate]
      simpa [hnumber] using hf
    . intro w' hw'
      rw [hupdate]
      rw [hwidgets] at hw'
      simp only [List.mem_append, List.mem_cons] at hw' ⊢
      rcases hw' with hw' | hw' | hw'
      . exact ⟨w', Or.inl hw', rfl, rfl, fun _ _ _ h => h⟩
      . rw [hw']
        refine ⟨change w, Or.inr (Or.inl rfl), hnumber, hkind, ?_⟩
        rw [(hf.widget?_eq_some_iff.1 hwidget).2]
        exact huser
      . exact ⟨w', Or.inr (Or.inr hw'), rfl, rfl, fun _ _ _ h => h⟩

theorem update_of_store_eq (hf : f.Numbered) {change : Widget → Widget}
    (hchange : ∀ w, (change w).number = w.number ∧ (change w).kind = w.kind ∧
      (change w).store = w.store)
    : Evolves written f (f.update n change) := by
  apply update hf
  intro w _
  rcases hchange w with ⟨hnumber, hkind, hstore⟩
  refine ⟨hnumber, hkind, ?_⟩
  intro p v _ hslot
  rw [hstore, hslot]

theorem trans (h : Evolves written f g) (h' : Evolves written g k) : Evolves written f k where
  numbered := h'.numbered
  user w hw := by
    rcases h.user w hw with ⟨w', hw', hnumber, hkind, huser⟩
    rcases h'.user w' hw' with ⟨w'', hw'', hnumber', hkind', huser'⟩
    refine ⟨w'', hw'', hnumber'.trans hnumber, hkind'.trans hkind, ?_⟩
    intro p v hwritten hslot
    apply huser' p v _ (huser p v hwritten hslot)
    rw [hnumber]
    exact hwritten

theorem hasUserValue (h : Evolves written f g) {p : String} {v : Value}
    (hwritten : ¬ written n p) (hf : f.HasUserValue n p v) : g.HasUserValue n p v := by
  rcases hf with ⟨w, hw, hnumber, hproperty, hslot⟩
  rcases h.user w hw with ⟨w', hw', hnumber', hkind, huser⟩
  refine ⟨w', hw', hnumber'.trans hnumber, ?_, ?_⟩
  . unfold Widget.property? at *
    rw [hkind]
    exact hproperty
  . apply huser p v _ hslot
    rw [hnumber]
    exact hwritten

end Evolves

end Forest

namespace Widget

variable {w w' : Widget} {p q : String} {v value : Value}

theorem set_eq_ok_iff
    : w.set p value = .ok w' ↔
        ∃ descriptor, w.property? p = some descriptor ∧ value.isOf descriptor.type = true ∧
          w' = { w with store := w.store.setUser p value } := by
  unfold set
  cases hproperty : w.property? p with
  | none => simp
  | some descriptor =>
    have hname : descriptor.name = p := by
      have := List.find?_some hproperty
      rwa [beq_iff_eq] at this
    dsimp only
    rw [hname]
    constructor
    . intro h
      split at h
      . next htype =>
        cases h
        exact ⟨descriptor, rfl, htype, rfl⟩
      . cases h
    . intro h
      rcases h with ⟨descriptor', hdescriptor, htype, hw'⟩
      cases hdescriptor
      rw [if_pos htype, hw']

theorem slot?_setUser (s : PropertyStore) (p q : String) (value : Value)
    : (s.setUser q value).slot? p = if p = q then some (.user value) else s.slot? p :=
  s.slot?_put p q (.user value)

theorem get?_of_slot? {descriptor : PropertyDescriptor} {slot : Slot}
    (hproperty : w.property? p = some descriptor) (hslot : w.store.slot? p = some slot)
    : w.get? p = some slot.value := by
  unfold get? PropertyStore.get?
  rw [hproperty, hslot]
  rfl

end Widget

namespace Forest

variable {f g : Forest} {n : Nat} {p : String} {v : Value}

theorem tryUpdate_eq_ok_iff {change : Widget → Except WidgetError Widget}
    : f.tryUpdate n change = .ok g ↔
        ∃ w w', f.widget? n = some w ∧ change w = .ok w' ∧ g = f.update n fun _ => w' := by
  unfold tryUpdate
  cases f.widget? n with
  | none => simp [throw, throwThe, MonadExceptOf.throw]
  | some w =>
    cases hchange : change w with
    | error e => simp [hchange, bind, Except.bind]
    | ok w' => simp [hchange, bind, Except.bind, pure, Except.pure, eq_comm]

theorem Numbered.widget?_of_hasUserValue (hf : f.Numbered) (h : f.HasUserValue n p v)
    : ∃ w, f.widget? n = some w ∧ w.origin p = .user ∧ w.get? p = some v := by
  rcases h with ⟨w, hw, hnumber, ⟨descriptor, hproperty⟩, hslot⟩
  refine ⟨w, hf.widget?_eq_some_iff.2 ⟨hw, hnumber⟩, ?_, ?_⟩
  . exact PropertyStore.origin_eq_user_iff.2 ⟨v, hslot⟩
  . exact Widget.get?_of_slot? hproperty hslot

end Forest

namespace Application

variable {app app' : Application} {f g : Forest} {page : Nat} {report : Report}

def vacated (app : Application) (f : Forest) (page : Nat) : List Nat :=
  match app.mainPage? with
  | some previous => if previous = page then [] else f.traverse previous
  | none => []

def vacate (app : Application) (f : Forest) (page : Nat) : Forest :=
  match app.mainPage? with
  | some previous => if previous = page then f else f.resetStyles previous
  | none => f

theorem setMainPage_eq_ok_iff
    : app.setMainPage f page = .ok (app', g, report)
        ↔
      (∃ w, f.widget? page = some w ∧ w.kind.isPage = true) ∧
        app' = { app with mainPage? := some page } ∧
        app'.apply (app.vacate f page) = (g, report) := by
  unfold setMainPage vacate
  split
  . next hwidget => simp [hwidget]
  . next w hwidget =>
    split
    . next hpage =>
      constructor
      . intro h
        cases h
        exact ⟨⟨w, hwidget, hpage⟩, rfl, rfl⟩
      . rintro ⟨-, rfl, happly⟩
        exact congrArg (fun result : Forest × Report => Except.ok (_, result.1, result.2)) happly
    . next hpage => simp [hwidget, hpage]

theorem styledTo_vacate (app : Application) (page : Nat) (hf : f.Numbered)
    : Forest.StyledTo (app.vacated f page) f (app.vacate f page) := by
  unfold vacated vacate
  split
  . split
    . apply Forest.StyledTo.refl
    . exact .modify hf .resetStyles _
  . apply Forest.StyledTo.refl

end Application

namespace Session

variable {s : Session} {n : Nat} {p : String} {v : Value}

@[simp]
theorem run_nil (s : Session) : s.run [] = s := rfl

@[simp]
theorem run_cons (s : Session) (op : Operation) (ops : List Operation)
    : s.run (op :: ops) = (s.after op).run ops := rfl

theorem run_append (s : Session) (ops ops' : List Operation)
    : s.run (ops ++ ops') = (s.run ops).run ops' := by
  unfold run
  rw [List.foldl_append]

theorem start_numbered (context : StyleContext) : (start context).forest.Numbered :=
  Forest.numbered_empty

theorem styledTo_apply (app : Application) {f : Forest} (hf : f.Numbered)
    : Forest.StyledTo (app.mainPage?.elim [] f.traverse) f (app.apply f).1 := by
  unfold Application.apply
  cases app.mainPage? with
  | none => apply Forest.StyledTo.refl
  | some page => exact .restyle hf (.of_run _ _) page

theorem styledTo_after (hs : s.forest.Numbered) {op : Operation} {scope : List Nat}
    (hscope : s.scope? op = some scope) : Forest.StyledTo scope s.forest (s.after op).forest := by
  cases op with
  | setStyle m q value =>
    cases hscope
    exact .update hs (.writeStyle q value) m
  | clearStyle m q =>
    cases hscope
    exact .update hs (.clearStyle q) m
  | clearStyles m =>
    cases hscope
    exact .update hs .clearStyles m
  | applySheet context m sheet =>
    cases hscope
    exact .restyle hs (.of_run _ _) m
  | applyStyle context m style =>
    cases hscope
    exact .restyle hs (.of_run _ _) m
  | resetStyles m =>
    cases hscope
    exact .modify hs .resetStyles m
  | restyle =>
    cases hscope
    show Forest.StyledTo _ _ (s.app.restyle s.forest).1
    unfold Application.restyle
    cases hpage : s.app.mainPage? with
    | none =>
      have := styledTo_apply s.app hs
      rw [hpage] at this
      exact this
    | some page =>
      have hreset : Forest.StyledTo (s.forest.traverse page) s.forest (s.forest.resetStyles page) :=
        .modify hs .resetStyles page
      have happly := styledTo_apply s.app (hreset.numbered hs)
      rw [hpage] at happly
      have hsame : (s.forest.resetStyles page).traverse page = s.forest.traverse page :=
        Forest.traverse_eq_of_bare_eq hreset.bare_eq page
      dsimp only [Option.elim_some] at happly ⊢
      rw [hsame] at happly
      exact hreset.trans happly
  | _ => cases hscope

theorem evolves_setMainPage {app app' : Application} {f g : Forest} {report : Report}
    {written : Nat → String → Prop} {page : Nat} (hf : f.Numbered)
    (h : app.setMainPage f page = .ok (app', g, report)) : Forest.Evolves written f g := by
  -- The page before may be reset first. Both steps only style.
  rcases Application.setMainPage_eq_ok_iff.1 h with ⟨-, -, happly⟩
  have hvacate := Application.styledTo_vacate app page hf
  have hnumbered := hvacate.numbered hf
  have hstyled := styledTo_apply app' hnumbered
  rw [happly] at hstyled
  exact (Forest.Evolves.of_styledTo hf hvacate).trans (.of_styledTo hnumbered hstyled)

theorem evolves_withForest? {result : Except WidgetError Forest} {written : Nat → String → Prop}
    (hs : s.forest.Numbered) (h : ∀ g, result = .ok g → Forest.Evolves written s.forest g)
    : Forest.Evolves written s.forest ((attempt?.withForest? s result).getD s).forest := by
  cases result with
  | error e => exact .refl hs
  | ok g => exact h g rfl

theorem evolves_withApp? {result : Except (ParseError Position) Application}
    {written : Nat → String → Prop} (hs : s.forest.Numbered)
    : Forest.Evolves written s.forest ((attempt?.withApp? s result).getD s).forest := by
  cases result with
  | error e => exact .refl hs
  | ok app => exact .refl hs

theorem accepts_set_iff
    : s.Accepts (.set n p v) ↔ ∃ g, s.forest.tryUpdate n (·.set p v) = .ok g := by
  show ((s.forest.tryUpdate n (·.set p v)).toOption.map _).isSome = true ↔ _
  cases s.forest.tryUpdate n (·.set p v) with
  | error e => simp [Except.toOption]
  | ok g => simp [Except.toOption]

theorem after_set_of_ok {g : Forest} (h : s.forest.tryUpdate n (·.set p v) = .ok g)
    : s.after (.set n p v) = { s with forest := g } := by
  show ((s.forest.tryUpdate n (·.set p v)).toOption.map _).getD s = _
  rw [h]
  rfl

theorem evolves_set (hs : s.forest.Numbered) (m : Nat) (q : String) (value : Value)
    : Forest.Evolves (s.Writes (.set m q value)) s.forest (s.after (.set m q value)).forest := by
  apply evolves_withForest? hs
  intro g hg
  rcases Forest.tryUpdate_eq_ok_iff.1 hg with ⟨w, w', hwidget, hset, hupdate⟩
  rcases Widget.set_eq_ok_iff.1 hset with ⟨descriptor, _, _, hw'⟩
  rw [hupdate]
  apply Forest.Evolves.update hs
  intro w₁ hw₁
  rw [hwidget] at hw₁
  cases hw₁
  rw [hw']
  refine ⟨rfl, rfl, ?_⟩
  intro p v hwritten hslot
  rw [Widget.slot?_setUser, if_neg, hslot]
  intro hp
  apply hwritten
  refine Or.inr ⟨value, by rw [hp], ?_⟩
  rw [accepts_set_iff]
  exact ⟨g, hg⟩

theorem evolves_clear (hs : s.forest.Numbered) (m : Nat) (q : String)
    : Forest.Evolves (s.Writes (.clear m q)) s.forest (s.after (.clear m q)).forest := by
  show Forest.Evolves _ s.forest (s.forest.update m (·.clear q))
  apply Forest.Evolves.update hs
  intro w _
  refine ⟨rfl, rfl, ?_⟩
  intro p v hwritten hslot
  show (w.store.clear q).slot? p = _
  rw [PropertyStore.slot?_clear, if_neg, hslot]
  intro hp
  apply hwritten
  exact Or.inl (by rw [hp])

theorem evolves_after (hs : s.forest.Numbered) (op : Operation)
    : Forest.Evolves (s.Writes op) s.forest (s.after op).forest := by
  have hstyles : ∀ scope, s.scope? op = some scope →
      Forest.Evolves (s.Writes op) s.forest (s.after op).forest := by
    intro scope hscope
    exact .of_styledTo hs (styledTo_after hs hscope)
  cases op with
  | create kind => exact .create hs kind
  | addChild parent child =>
    apply evolves_withForest? hs
    intro g hg
    exact .of_perm hs (hs.widgets_addChild hg)
  | setContent parent content =>
    apply evolves_withForest? hs
    intro g hg
    exact .of_perm hs (hs.widgets_setContent hg)
  | removeChild parent child => exact .of_perm hs (hs.widgets_removeChild parent child)
  | setStyleId m id =>
    show Forest.Evolves _ s.forest (s.forest.update m (·.setStyleId id))
    apply Forest.Evolves.update_of_store_eq hs
    intro w
    exact ⟨rfl, rfl, rfl⟩
  | addClass m name =>
    show Forest.Evolves _ s.forest (s.forest.update m (·.addClass name))
    apply Forest.Evolves.update_of_store_eq hs
    intro w
    exact ⟨w.number_addClass name, w.kind_addClass name, w.store_addClass name⟩
  | removeClass m name =>
    show Forest.Evolves _ s.forest (s.forest.update m (·.removeClass name))
    apply Forest.Evolves.update_of_store_eq hs
    intro w
    exact ⟨rfl, rfl, rfl⟩
  | set m q value => exact evolves_set hs m q value
  | clear m q => exact evolves_clear hs m q
  | setStyle m q value => exact hstyles _ rfl
  | clearStyle m q => exact hstyles _ rfl
  | clearStyles m => exact hstyles _ rfl
  | applySheet context m sheet => exact hstyles _ rfl
  | applyStyle context m style => exact hstyles _ rfl
  | resetStyles m => exact hstyles _ rfl
  | addSheet sheet => exact .refl hs
  | addSheetText text => exact evolves_withApp? hs
  | addSheetBytes bytes => exact evolves_withApp? hs
  | setMainPage page =>
    show Forest.Evolves _ s.forest
      (((s.app.setMainPage s.forest page).toOption.map _).getD s).forest
    cases hpage : s.app.setMainPage s.forest page with
    | error e => exact .refl hs
    | ok result => exact evolves_setMainPage hs hpage
  | restyle => exact hstyles _ rfl

theorem numbered_run (hs : s.forest.Numbered) (ops : List Operation)
    : (s.run ops).forest.Numbered := by
  induction ops generalizing s with
  | nil => exact hs
  | cons op ops ih => exact ih (evolves_after hs op).numbered

theorem hasUserValue_run {ops : List Operation} (hs : s.forest.Numbered)
    (hspares : Spares n p s ops) (h : s.forest.HasUserValue n p v)
    : (s.run ops).forest.HasUserValue n p v := by
  induction ops generalizing s with
  | nil => exact h
  | cons op ops ih =>
    have hstep := evolves_after hs op
    exact ih hstep.numbered hspares.2 (hstep.hasUserValue hspares.1 h)

theorem hasUserValue_after_set (hs : s.forest.Numbered) (h : s.Accepts (.set n p v))
    : (s.after (.set n p v)).forest.HasUserValue n p v := by
  rcases accepts_set_iff.1 h with ⟨g, hg⟩
  rcases Forest.tryUpdate_eq_ok_iff.1 hg with ⟨w, w', hwidget, hset, hupdate⟩
  rcases Widget.set_eq_ok_iff.1 hset with ⟨descriptor, hproperty, _, hw'⟩
  have hmem : w' ∈ g.widgets := by
    rw [hupdate]
    exact hs.mem_widgets_update hwidget _
  rw [after_set_of_ok hg]
  refine ⟨w', hmem, ?_, ?_, ?_⟩
  . rw [hw']
    exact (hs.widget?_eq_some_iff.1 hwidget).2
  . rw [hw']
    exact ⟨descriptor, hproperty⟩
  . rw [hw', Widget.slot?_setUser, if_pos rfl]

namespace ShownLabel

def build : List Operation := [.create .contentPage, .create .label, .setContent 0 1]

def hideLabels : StyleSheet :=
  ⟨[⟨[⟨[.typeName "label"], []⟩], [⟨"visibility", .specified "hidden", false⟩]⟩]⟩

def style : List Operation :=
  [.addSheet hideLabels, .setMainPage 0, .removeChild 0 1, .applySheet .standard 1 hideLabels,
    .setStyle 1 "IsVisible" (.bool false), .clearStyle 1 "IsVisible", .clearStyles 1,
    .resetStyles 1, .restyle]

theorem accepts_set
    : ((start .standard).run build).Accepts (.set 1 "IsVisible" (.bool true)) := by
  unfold Accepts
  decide

theorem spares_style (s : Session) : Spares 1 "IsVisible" s style := by
  simp [Spares, Writes, style]

theorem scope?_applySheet
    : ((start .standard).run build).scope? (.applySheet .standard 1 hideLabels) = some [1] := by
  decide

end ShownLabel

open ShownLabel

/--
Whatever is done to widgets and applications in whatever order, a property that the user has set
keeps its value until the user sets or clears it again. What only styles changes no tree, no id and
no class, and nothing at all outside the subtree where it starts.
-/
theorem user_value_inviolable (context : StyleContext)
    : (∀ (before rest : List Operation) (n : Nat) (p : String) (v : Value),
        ((start context).run before).Accepts (.set n p v) →
        Spares n p ((start context).run (before ++ [.set n p v])) rest →
        ∃ w, ((start context).run (before ++ .set n p v :: rest)).forest.widget? n = some w ∧
          w.origin p = .user ∧ w.get? p = some v) ∧
      (∀ (before : List Operation) (op : Operation) (scope : List Nat),
        ((start context).run before).scope? op = some scope →
        ((start context).run (before ++ [op])).forest.bare
            = ((start context).run before).forest.bare ∧
          ∀ m, m ∉ scope →
            ((start context).run (before ++ [op])).forest.widget? m
              = ((start context).run before).forest.widget? m) := by
  constructor
  . intro before rest n p v haccepts hspares
    have hs := numbered_run (start_numbered context) before
    have hset := hasUserValue_after_set hs haccepts
    have hnumbered := (evolves_after hs (.set n p v)).numbered
    rw [run_append, run_cons, run_nil] at hspares
    rw [run_append, run_cons]
    apply (numbered_run hnumbered rest).widget?_of_hasUserValue
    exact hasUserValue_run hnumbered hspares hset
  . intro before op scope hscope
    have hs := numbered_run (start_numbered context) before
    have hstyled := styledTo_after hs hscope
    rw [run_append, run_cons, run_nil]
    exact ⟨hstyled.bare_eq, hstyled.outside⟩

theorem user_value_inviolable_shownLabel
    : (∃ w,
          ((start .standard).run
            (build ++ .set 1 "IsVisible" (.bool true) :: style)).forest.widget? 1 = some w ∧
          w.origin "IsVisible" = .user ∧ w.get? "IsVisible" = some (.bool true)) ∧
        ((start .standard).run (build ++ [.applySheet .standard 1 hideLabels])).forest.widget? 0
          = ((start .standard).run build).forest.widget? 0 := by
  rcases user_value_inviolable .standard with ⟨hkept, hstyled⟩
  constructor
  . exact hkept build style 1 "IsVisible" (.bool true) accepts_set (spares_style _)
  . exact (hstyled build (.applySheet .standard 1 hideLabels) [1] scope?_applySheet).2 0 (by decide)

end Session

end TreeStyle
