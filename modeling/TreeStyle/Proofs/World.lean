import TreeStyle.Proofs.Links.Walk
import TreeStyle.Proofs.Session

/-!
This module contains an application with widgets whose links to parents and children are kept one by
one. It goes as a session of trees does: every operation comes to an end, the links stay those of
trees, and what is refused has changed nothing.
-/

namespace TreeStyle

inductive Refusal where
  | widget (error : WidgetError)
  | sheet (error : ParseError Position)
  | source (message : String)

structure World where
  app : Application := {}
  links : Links := {}

namespace World

def start (context : StyleContext) : World := { app := { context } }

def withLinks (w : World) : Except WidgetError Unit × Links → Except Refusal Unit × World
  | (answer, links) => (answer.mapError .widget, { w with links })

def addSheetText (w : World) (text : String) : Except Refusal Unit × World :=
  match w.app.addSheetText text with
  | .ok app => (.ok (), { w with app })
  | .error e => (.error (.sheet e), w)

def addSheetFrom (w : World) : Except String ByteArray → Except Refusal Unit × World
  | .error message => (.error (.source message), w)
  | .ok bytes =>
    match w.app.addSheetBytes bytes with
    | .ok app => (.ok (), { w with app })
    | .error e => (.error (.sheet e), w)

def applySheets? (w : World) : Option (Report × World) :=
  match w.app.mainPage? with
  | none => some ({}, w)
  | some page =>
    (w.links.applySheet? w.app.context page w.app.combined).map fun (report, links) =>
      (report, { w with links })

def setMainPage? (w : World) (page : Nat) : Option (Except Refusal Report × World) :=
  match w.links.widget? page with
  | none => some (.error (.widget (.invalidOperation (.noWidget page))), w)
  | some v =>
    if v.kind.isPage then do
      let links ← match w.app.mainPage? with
        | some previous => if previous = page then some w.links else w.links.resetStyles? previous
        | none => some w.links
      let (report, w) ← applySheets? { app := { w.app with mainPage? := some page }, links }
      return (.ok report, w)
    else some (.error (.widget (.invalidOperation (.notAPage v.kind))), w)

def restyle? (w : World) : Option (Report × World) := do
  let links ← match w.app.mainPage? with
    | some page => w.links.resetStyles? page
    | none => some w.links
  applySheets? { w with links }

/--
The answer of an operation and what becomes of the world, also where the operation is refused. None
stands for an operation that does not come to an end.
-/
def perform? (w : World) : Operation → Option (Except Refusal Unit × World)
  | .create kind => done { w with links := (w.links.create kind).2 }
  | .addChild parent child => (w.links.addChild parent child).map w.withLinks
  | .setContent parent content => (w.links.setContent parent content).map w.withLinks
  | .removeChild parent child => done { w with links := (w.links.removeChild parent child).2 }
  | .setStyleId n id => done { w with links := w.links.update n (·.setStyleId id) }
  | .addClass n name => done { w with links := w.links.update n (·.addClass name) }
  | .removeClass n name => done { w with links := w.links.update n (·.removeClass name) }
  | .set n property value => some (w.withLinks (w.links.tryUpdate n (·.set property value)))
  | .clear n property => done { w with links := w.links.update n (·.clear property) }
  | .setStyle n property value =>
    done { w with links := w.links.update n (·.writeStyle property value) }
  | .clearStyle n property => done { w with links := w.links.update n (·.clearStyle property) }
  | .clearStyles n => done { w with links := w.links.update n (·.clearStyles) }
  | .applySheet context n sheet => styled (w.links.applySheet? context n sheet)
  | .applyStyle context n style => styled (w.links.applyStyle? context n style)
  | .resetStyles n => (w.links.resetStyles? n).bind fun links => done { w with links }
  | .addSheet sheet => done { w with app := w.app.addSheet sheet }
  | .addSheetText text => some (w.addSheetText text)
  | .addSheetBytes bytes => some (w.addSheetFrom (.ok bytes))
  | .setMainPage page => (w.setMainPage? page).map fun (answer, w) => (answer.map fun _ => (), w)
  | .restyle => w.restyle?.bind fun (_, w) => done w
where
  done (w : World) : Option (Except Refusal Unit × World) := some (.ok (), w)
  styled (result : Option (Report × Links)) : Option (Except Refusal Unit × World) :=
    result.bind fun (_, links) => done { w with links }

def run? (w : World) (ops : List Operation) : Option World :=
  ops.foldlM (fun w op => (w.perform? op).map (·.2)) w

structure Represents (w : World) (s : Session) : Prop where
  app_eq : w.app = s.app
  links : w.links.Represents s.forest
  respects : w.links.Respects

inductive Tracks (w : World) : Except Refusal Unit × World → Option Session → Prop where
  | done {w' : World} {s' : Session} (h : w'.Represents s') : Tracks w (.ok (), w') (some s')
  | refused (e : Refusal) : Tracks w (.error e, w) none

variable {w : World} {s : Session}

namespace Represents

theorem start (context : StyleContext) : (start context).Represents (Session.start context) where
  app_eq := rfl
  links := .empty
  respects := .empty

theorem withLinks (h : w.Represents s) {outcome : Except WidgetError Unit × Links}
    {result : Except WidgetError Forest} (htracks : w.links.Tracks outcome result)
    (hrespects : outcome.2.Respects)
    : w.Tracks (w.withLinks outcome) (Session.attempt?.withForest? s result) := by
  cases htracks with
  | ok hlinks => exact .done ⟨h.app_eq, hlinks, hrespects⟩
  | error e => exact .refused _

theorem update (h : w.Represents s) {n : Nat} {change : Widget → Widget}
    (hnumber : ∀ v, (change v).number = v.number) (hkind : ∀ v, (change v).kind = v.kind)
    : Represents { w with links := w.links.update n change }
        { s with forest := s.forest.update n change } where
  app_eq := h.app_eq
  links := by
    apply h.links.update
    intro v hv
    rw [hnumber]
    rw [h.links.widget?_eq] at hv
    exact (h.links.numbered.widget?_eq_some_iff.1 hv).2
  respects := h.respects.update fun v _ => hkind v

theorem style? (h : w.Represents s) (context : StyleContext)
    (candidates : List ElementInfo → List Candidate) (n : Nat)
    : ∃ l, w.links.style? context candidates n
          = some ((s.forest.restyle n (Cascade.run context candidates)).2, l) ∧
        Represents { w with links := l }
          { s with forest := (s.forest.restyle n (Cascade.run context candidates)).1 } := by
  rcases h.links.style? context candidates n with ⟨l, hout, hl⟩
  exact ⟨l, hout, h.app_eq, hl, h.respects.style? hout⟩

theorem resetStyles? (h : w.Represents s) (n : Nat)
    : ∃ l, w.links.resetStyles? n = some l ∧
        Represents { w with links := l } { s with forest := s.forest.resetStyles n } := by
  rcases h.links.resetStyles? n with ⟨l, hout, hl⟩
  exact ⟨l, hout, h.app_eq, hl, h.respects.resetStyles? hout⟩

variable {app : Application} {l : Links} {f : Forest}

theorem applySheets? (h : Represents ⟨app, l⟩ ⟨app, f⟩)
    : ∃ l', World.applySheets? ⟨app, l⟩ = some ((app.apply f).2, ⟨app, l'⟩) ∧
        Represents ⟨app, l'⟩ ⟨app, (app.apply f).1⟩ := by
  unfold World.applySheets? Application.apply
  cases app.mainPage? with
  | none => exact ⟨l, rfl, h⟩
  | some page =>
    rcases h.style? app.context (app.combined.candidates ⟨app.context.options.caseSensitiveTypes⟩)
      page with ⟨l', hout, hl'⟩
    refine ⟨l', ?_, hl'⟩
    dsimp only
    unfold Links.applySheet?
    rw [hout]
    rfl

theorem restyle? (h : Represents ⟨app, l⟩ ⟨app, f⟩)
    : ∃ l', World.restyle? ⟨app, l⟩ = some ((app.restyle f).2, ⟨app, l'⟩) ∧
        Represents ⟨app, l'⟩ ⟨app, (app.restyle f).1⟩ := by
  unfold World.restyle? Application.restyle
  dsimp only
  cases app.mainPage? with
  | none => exact h.applySheets?
  | some page =>
    rcases h.resetStyles? page with ⟨l₁, hreset, hl₁⟩
    dsimp only at hreset ⊢
    rw [hreset]
    exact hl₁.applySheets?

theorem setMainPage? (h : Represents ⟨app, l⟩ ⟨app, f⟩) (page : Nat)
    : ∃ outcome, World.setMainPage? ⟨app, l⟩ page = some outcome ∧
        Tracks ⟨app, l⟩ (outcome.1.map fun _ => (), outcome.2)
          ((app.setMainPage f page).toOption.map fun (app, forest, _) => ⟨app, forest⟩) := by
  unfold World.setMainPage? Application.setMainPage
  rw [h.links.widget?_eq]
  cases f.widget? page with
  | none => exact ⟨_, rfl, .refused _⟩
  | some v =>
    dsimp only
    split
    . let shown : Application := { app with mainPage? := some page }
      have happly : ∀ l₁ f₁, Represents ⟨app, l₁⟩ ⟨app, f₁⟩ →
          ∃ outcome : Except Refusal Report × World,
            (World.applySheets? ⟨shown, l₁⟩).bind (fun (report, w) => some (.ok report, w))
                = some outcome ∧
              Tracks ⟨app, l⟩ (outcome.1.map fun _ => (), outcome.2)
                (some ⟨shown, (shown.apply f₁).1⟩) := by
        intro l₁ f₁ h₁
        have hshown : Represents ⟨shown, l₁⟩ ⟨shown, f₁⟩ := ⟨rfl, h₁.links, h₁.respects⟩
        rcases hshown.applySheets? with ⟨l', hout, hl'⟩
        rw [hout]
        exact ⟨_, rfl, .done hl'⟩
      cases app.mainPage? with
      | none => exact happly l f h
      | some previous =>
        dsimp only
        split
        . exact happly l f h
        . rcases h.resetStyles? previous with ⟨l₁, hreset, hl₁⟩
          dsimp only at hreset
          rw [hreset]
          exact happly l₁ _ hl₁
    . exact ⟨_, rfl, .refused _⟩

theorem perform? (h : Represents ⟨app, l⟩ ⟨app, f⟩) (op : Operation)
    : ∃ outcome, World.perform? ⟨app, l⟩ op = some outcome ∧
        Tracks ⟨app, l⟩ outcome (Session.attempt? ⟨app, f⟩ op) := by
  cases op with
  | create kind => exact ⟨_, rfl, .done ⟨rfl, h.links.create kind, h.respects.create h.links kind⟩⟩
  | addChild parent child =>
    rcases h.links.addChild parent child with ⟨outcome, hout, htracks⟩
    refine ⟨World.withLinks ⟨app, l⟩ outcome, ?_, h.withLinks htracks (h.respects.addChild hout)⟩
    exact congrArg (Option.map _) hout
  | setContent parent content =>
    rcases h.links.setContent h.respects parent content with ⟨outcome, hout, hrespects, htracks⟩
    refine ⟨World.withLinks ⟨app, l⟩ outcome, ?_, h.withLinks htracks hrespects⟩
    exact congrArg (Option.map _) hout
  | removeChild parent child =>
    exact ⟨_, rfl, .done ⟨rfl, (h.links.removeChild parent child).2,
      h.respects.removeChild parent child⟩⟩
  | setStyleId n id => exact ⟨_, rfl, .done (h.update (fun _ => rfl) fun _ => rfl)⟩
  | addClass n name =>
    exact ⟨_, rfl, .done (h.update (·.number_addClass name) (·.kind_addClass name))⟩
  | removeClass n name => exact ⟨_, rfl, .done (h.update (fun _ => rfl) fun _ => rfl)⟩
  | set n p value =>
    have hset : ∀ v v' : Widget, v.set p value = .ok v' →
        v'.number = v.number ∧ v'.kind = v.kind := by
      intro v v' hv
      rcases Widget.set_eq_ok_iff.1 hv with ⟨_, _, _, heq⟩
      rw [heq]
      exact ⟨rfl, rfl⟩
    refine ⟨_, rfl, h.withLinks (h.links.tryUpdate ?_) (h.respects.tryUpdate ?_)⟩
    . intro v v' hv
      exact (hset v v' hv).1
    . intro v v' hv
      exact (hset v v' hv).2
  | clear n p => exact ⟨_, rfl, .done (h.update (fun _ => rfl) fun _ => rfl)⟩
  | setStyle n p value =>
    have hstyled := Widget.StyledTo.writeStyle p value
    exact ⟨_, rfl, .done (h.update (fun v => (hstyled v).number_eq) fun v => (hstyled v).kind_eq)⟩
  | clearStyle n p => exact ⟨_, rfl, .done (h.update (fun _ => rfl) fun _ => rfl)⟩
  | clearStyles n => exact ⟨_, rfl, .done (h.update (fun _ => rfl) fun _ => rfl)⟩
  | applySheet context n sheet =>
    rcases h.style? context (sheet.candidates ⟨context.options.caseSensitiveTypes⟩) n
      with ⟨l', hout, hl'⟩
    exact ⟨_, congrArg (World.perform?.styled ⟨app, l⟩) hout, .done hl'⟩
  | applyStyle context n style =>
    rcases h.style? context style.candidates n with ⟨l', hout, hl'⟩
    exact ⟨_, congrArg (World.perform?.styled ⟨app, l⟩) hout, .done hl'⟩
  | resetStyles n =>
    rcases h.resetStyles? n with ⟨l', hout, hl'⟩
    exact ⟨_, congrArg (Option.bind · _) hout, .done hl'⟩
  | addSheet sheet => exact ⟨_, rfl, .done ⟨rfl, h.links, h.respects⟩⟩
  | addSheetText text =>
    show ∃ outcome, some (World.addSheetText ⟨app, l⟩ text) = some outcome ∧
      Tracks ⟨app, l⟩ outcome (Session.attempt?.withApp? ⟨app, f⟩ (app.addSheetText text))
    unfold World.addSheetText
    dsimp only
    cases app.addSheetText text with
    | error e => exact ⟨_, rfl, .refused _⟩
    | ok app' => exact ⟨_, rfl, .done ⟨rfl, h.links, h.respects⟩⟩
  | addSheetBytes bytes =>
    show ∃ outcome, some (World.addSheetFrom ⟨app, l⟩ (.ok bytes)) = some outcome ∧
      Tracks ⟨app, l⟩ outcome (Session.attempt?.withApp? ⟨app, f⟩ (app.addSheetBytes bytes))
    unfold World.addSheetFrom
    dsimp only
    cases app.addSheetBytes bytes with
    | error e => exact ⟨_, rfl, .refused _⟩
    | ok app' => exact ⟨_, rfl, .done ⟨rfl, h.links, h.respects⟩⟩
  | setMainPage page =>
    rcases h.setMainPage? page with ⟨outcome, hout, htracks⟩
    exact ⟨_, congrArg (Option.map _) hout, htracks⟩
  | restyle =>
    rcases h.restyle? with ⟨l', hout, hl'⟩
    exact ⟨_, congrArg (Option.bind · _) hout, .done hl'⟩

theorem exists_perform? (h : w.Represents s) (op : Operation)
    : ∃ outcome, w.perform? op = some outcome ∧ w.Tracks outcome (s.attempt? op) := by
  rcases w with ⟨app, l⟩
  rcases s with ⟨app', f⟩
  have happ : app = app' := h.app_eq
  cases happ
  exact h.perform? op

theorem exists_run? (h : w.Represents s) (ops : List Operation)
    : ∃ w', w.run? ops = some w' ∧ w'.Represents (s.run ops) := by
  induction ops generalizing w s with
  | nil => exact ⟨w, rfl, h⟩
  | cons op ops ih =>
    rcases h.exists_perform? op with ⟨outcome, hout, htracks⟩
    have hafter : outcome.2.Represents (s.after op) := by
      unfold Session.after
      generalize s.attempt? op = result at htracks
      cases htracks with
      | done hdone => exact hdone
      | refused e => exact h
    rcases ih hafter with ⟨w', hrun, hw'⟩
    refine ⟨w', ?_, hw'⟩
    unfold World.run? at hrun ⊢
    rw [List.foldlM_cons, hout]
    exact hrun

end Represents

/--
Whatever is done to an application and its widgets, with success or not, comes to an end and leaves
links that are well-formed, along which all walks end. They are the links of the trees to which the
same is done.
-/
theorem links_wellFormed (context : StyleContext) (ops : List Operation)
    : ∃ w, (start context).run? ops = some w ∧ w.links.WellFormed ∧ w.links.WalksEnd ∧
        w.links.Mirrors ((Session.start context).run ops).forest := by
  rcases (Represents.start context).exists_run? ops with ⟨w, hrun, hw⟩
  exact ⟨w, hrun, hw.links.wellFormed hw.respects, hw.links.walksEnd, hw.links.mirrors⟩

namespace TakenLabel

def build : List Operation :=
  [.create .contentPage, .create .label, .create .stackLayout, .create .label, .setContent 0 1,
    .addChild 2 3]

def built : World where
  app := { context := .standard }
  links := ⟨[
    { widget := { number := 0, kind := .contentPage }, children := [1] },
    { widget := { number := 1, kind := .label }, parent? := some 0 },
    { widget := { number := 2, kind := .stackLayout }, children := [3] },
    { widget := { number := 3, kind := .label }, parent? := some 2 }]⟩

theorem run?_build : (start .standard).run? build = some built := rfl

theorem perform?_setContent
    : built.perform? (.setContent 0 3)
        = some (.error (.widget (.invalidOperation (.hasParent .label))), built) := rfl

end TakenLabel

/--
An operation that is refused leaves the world as it was, with every link and every value, all sheets
and the main page. The session refuses the same ones.
-/
theorem refused_changes_nothing (context : StyleContext)
    : (∀ (ops : List Operation) (op : Operation) (w w' : World) (e : Refusal),
        (start context).run? ops = some w → w.perform? op = some (.error e, w') →
        w' = w ∧ ¬ ((Session.start context).run ops).Accepts op) ∧
      (∀ (w w' : World) (source : Except String ByteArray) (e : Refusal),
        w.addSheetFrom source = (.error e, w') → w' = w) := by
  constructor
  . intro ops op w w' e hrun hrefused
    rcases (Represents.start context).exists_run? ops with ⟨w₁, hrun₁, hw₁⟩
    rw [hrun, Option.some.injEq] at hrun₁
    rw [← hrun₁] at hw₁
    rcases hw₁.exists_perform? op with ⟨outcome, hout, htracks⟩
    rw [hrefused, Option.some.injEq] at hout
    rw [← hout] at htracks
    unfold Session.Accepts
    generalize ((Session.start context).run ops).attempt? op = result at htracks
    cases htracks
    exact ⟨rfl, by simp⟩
  . intro w w' source e hrefused
    unfold addSheetFrom at hrefused
    cases source with
    | error message =>
      cases hrefused
      rfl
    | ok bytes =>
      dsimp only at hrefused
      split at hrefused
      . cases hrefused
      . cases hrefused
        rfl

open TakenLabel in
theorem refused_changes_nothing_takenLabel
    : built.perform? (.setContent 0 3)
          = some (.error (.widget (.invalidOperation (.hasParent .label))), built) ∧
        ¬ ((Session.start .standard).run build).Accepts (.setContent 0 3) ∧
        (built.addSheetFrom (.error "broken pipe")).2 = built := by
  rcases refused_changes_nothing .standard with ⟨hperform, hsource⟩
  refine ⟨perform?_setContent, ?_, ?_⟩
  . exact (hperform build _ built built _ run?_build perform?_setContent).2
  . exact hsource built _ (.error "broken pipe") _ rfl

end World

end TreeStyle
