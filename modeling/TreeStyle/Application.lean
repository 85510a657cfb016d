import TreeStyle.Reader
import TreeStyle.Sheet.Parser
import TreeStyle.Widget.Forest

/-!
This module contains applications, which own style sheets and apply them, as one sheet, to their
main page.
-/

namespace TreeStyle

structure Application where
  context : StyleContext := .standard
  resources : List StyleSheet := []
  mainPage? : Option Nat := none

namespace Application

def ofOptions (options : StyleOptions) : Except OptionsError Application :=
  (StyleContext.ofOptions options).map fun context => { context }

def addSheet (app : Application) (sheet : StyleSheet) : Application :=
  { app with resources := app.resources ++ [sheet] }

def addSheetText (app : Application) (text : String) :
    Except (ParseError Position) Application :=
  (StyleSheet.read.run text).map app.addSheet

def addSheetBytes (app : Application) (bytes : ByteArray) :
    Except (ParseError Position) Application := do
  let reader ← Reader.ofBytes bytes
  return app.addSheet (← (reader.run StyleSheet.read).1)

def combined (app : Application) : StyleSheet := app.resources.foldl (· ++ ·) .empty

def apply (app : Application) (f : Forest) : Forest × Report :=
  match app.mainPage? with
  | some page => f.applySheet app.context page app.combined
  | none => (f, {})

def setMainPage (app : Application) (f : Forest) (page : Nat) :
    Except WidgetError (Application × Forest × Report) :=
  match f.widget? page with
  | none => .error (.invalidOperation (.noWidget page))
  | some w =>
    if w.kind.isPage then
      let f := match app.mainPage? with
        | some previous => if previous = page then f else f.resetStyles previous
        | none => f
      let app := { app with mainPage? := some page }
      let (f, report) := app.apply f
      .ok (app, f, report)
    else .error (.invalidOperation (.notAPage w.kind))

def restyle (app : Application) (f : Forest) : Forest × Report :=
  app.apply (match app.mainPage? with
    | some page => f.resetStyles page
    | none => f)

end Application

end TreeStyle
