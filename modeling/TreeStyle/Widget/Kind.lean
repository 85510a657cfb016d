import TreeStyle.Element
import TreeStyle.Text.Ascii
import TreeStyle.Widget.Enumeration

/-!
This module contains the kinds of widgets: their types, their properties and what they may contain.
The properties of a kind come in layers, its own first and then those of its base types.
-/

namespace TreeStyle

inductive ContentModel where
  | leaf
  | single
  | views
  | pages
  deriving DecidableEq, Repr

inductive WidgetKind where
  | visualElement
  | label
  | button
  | entry
  | editor
  | searchBar
  | boxView
  | activityIndicator
  | progressBar
  | switch
  | stackLayout
  | grid
  | scrollView
  | tableView
  | contentPage
  | tabbedPage
  deriving DecidableEq, Repr

namespace WidgetKind

namespace Properties

def color (name : String) (inherited : Bool) : PropertyDescriptor :=
  ⟨name, .color, none, inherited⟩

def float (name : String) (default : Float) : PropertyDescriptor :=
  ⟨name, .float, some (.float default), false⟩

def platformFloat (name : String) (inherited : Bool) : PropertyDescriptor :=
  ⟨name, .float, none, inherited⟩

def int (name : String) (default : Int32) : PropertyDescriptor :=
  ⟨name, .int, some (.int default), false⟩

def bool (name : String) (default inherited : Bool) : PropertyDescriptor :=
  ⟨name, .bool, some (.bool default), inherited⟩

def string (name : String) (inherited : Bool) : PropertyDescriptor :=
  ⟨name, .string, none, inherited⟩

def thickness (name : String) : PropertyDescriptor :=
  ⟨name, .thickness, some (.thickness .zero), false⟩

def enum (α : Type) [StyleEnum α] (name : String) (inherited : Bool) : PropertyDescriptor :=
  ⟨name, .enum (StyleEnum.type α), some (StyleEnum.toValue (StyleEnum.first : α)), inherited⟩

def visualElementProperties : List PropertyDescriptor := [
  color "BackgroundColor" false,
  float "Opacity" 1.0,
  bool "IsVisible" true true,
  float "WidthRequest" (-1.0),
  float "HeightRequest" (-1.0),
  float "MinimumWidthRequest" (-1.0),
  float "MinimumHeightRequest" (-1.0),
  enum FlowDirection "FlowDirection" true,
  float "AnchorX" 0.5,
  float "AnchorY" 0.5,
  float "TranslationX" 0.0,
  float "TranslationY" 0.0,
  float "Rotation" 0.0,
  float "RotationX" 0.0,
  float "RotationY" 0.0,
  float "Scale" 1.0,
  float "ScaleX" 1.0,
  float "ScaleY" 1.0]

def viewProperties : List PropertyDescriptor := [
  thickness "Margin"]

def layoutProperties : List PropertyDescriptor := [
  thickness "Padding"]

def pageProperties : List PropertyDescriptor := [
  thickness "Padding",
  string "Title" false]

def labelProperties : List PropertyDescriptor := [
  color "TextColor" true,
  string "FontFamily" true,
  platformFloat "FontSize" true,
  float "LineHeight" (-1.0),
  enum TextAlignment "HorizontalTextAlignment" true,
  enum TextAlignment "VerticalTextAlignment" false,
  string "Text" false]

def buttonProperties : List PropertyDescriptor := [
  color "TextColor" true,
  string "FontFamily" true,
  platformFloat "FontSize" true,
  color "BorderColor" false,
  float "BorderWidth" (-1.0),
  int "CornerRadius" (-1),
  thickness "Padding",
  string "Text" false]

def inputViewProperties : List PropertyDescriptor := [
  int "MaxLength" 2147483647,
  color "TextColor" true,
  color "PlaceholderColor" true,
  string "Placeholder" false,
  string "FontFamily" true,
  platformFloat "FontSize" true,
  string "Text" false]

def entryProperties : List PropertyDescriptor := [
  bool "IsPassword" false false,
  enum TextAlignment "HorizontalTextAlignment" true]

def searchBarProperties : List PropertyDescriptor := [
  color "CancelButtonColor" false,
  enum TextAlignment "HorizontalTextAlignment" true]

def boxViewProperties : List PropertyDescriptor := [
  color "Color" true]

def activityIndicatorProperties : List PropertyDescriptor := [
  color "Color" true,
  bool "IsRunning" false false]

def progressBarProperties : List PropertyDescriptor := [
  color "ProgressColor" false,
  float "Progress" 0.0]

def switchProperties : List PropertyDescriptor := [
  color "OnColor" false,
  bool "IsToggled" false false]

def stackLayoutProperties : List PropertyDescriptor := [
  float "Spacing" 6.0,
  enum StackOrientation "Orientation" false]

def gridProperties : List PropertyDescriptor := [
  float "RowSpacing" 6.0,
  float "ColumnSpacing" 6.0]

def scrollViewProperties : List PropertyDescriptor := [
  enum ScrollOrientation "Orientation" false,
  enum ScrollBarVisibility "HorizontalScrollBarVisibility" false,
  enum ScrollBarVisibility "VerticalScrollBarVisibility" false]

def tableViewProperties : List PropertyDescriptor := [
  int "RowHeight" (-1)]

def tabbedPageProperties : List PropertyDescriptor := [
  color "BarBackgroundColor" false,
  color "BarTextColor" false]

end Properties

def all : List WidgetKind := [
  .visualElement,
  .label,
  .button,
  .entry,
  .editor,
  .searchBar,
  .boxView,
  .activityIndicator,
  .progressBar,
  .switch,
  .stackLayout,
  .grid,
  .scrollView,
  .tableView,
  .contentPage,
  .tabbedPage]

def typeChain : WidgetKind → List String
  | .visualElement => ["VisualElement", "Element"]
  | .label => ["Label", "View", "VisualElement", "Element"]
  | .button => ["Button", "View", "VisualElement", "Element"]
  | .entry => ["Entry", "InputView", "View", "VisualElement", "Element"]
  | .editor => ["Editor", "InputView", "View", "VisualElement", "Element"]
  | .searchBar => ["SearchBar", "InputView", "View", "VisualElement", "Element"]
  | .boxView => ["BoxView", "View", "VisualElement", "Element"]
  | .activityIndicator => ["ActivityIndicator", "View", "VisualElement", "Element"]
  | .progressBar => ["ProgressBar", "View", "VisualElement", "Element"]
  | .switch => ["Switch", "View", "VisualElement", "Element"]
  | .stackLayout => ["StackLayout", "Layout", "View", "VisualElement", "Element"]
  | .grid => ["Grid", "Layout", "View", "VisualElement", "Element"]
  | .scrollView => ["ScrollView", "Layout", "View", "VisualElement", "Element"]
  | .tableView => ["TableView", "View", "VisualElement", "Element"]
  | .contentPage => ["ContentPage", "Page", "VisualElement", "Element"]
  | .tabbedPage => ["TabbedPage", "Page", "VisualElement", "Element"]

def name : WidgetKind → String
  | .visualElement => "VisualElement"
  | .label => "Label"
  | .button => "Button"
  | .entry => "Entry"
  | .editor => "Editor"
  | .searchBar => "SearchBar"
  | .boxView => "BoxView"
  | .activityIndicator => "ActivityIndicator"
  | .progressBar => "ProgressBar"
  | .switch => "Switch"
  | .stackLayout => "StackLayout"
  | .grid => "Grid"
  | .scrollView => "ScrollView"
  | .tableView => "TableView"
  | .contentPage => "ContentPage"
  | .tabbedPage => "TabbedPage"

def ofName? (name : String) : Option WidgetKind :=
  all.find? fun kind => Text.eqIgnoringCase kind.name name

open Properties in
def layers : WidgetKind → List (List PropertyDescriptor)
  | .visualElement => [visualElementProperties]
  | .label => [labelProperties, viewProperties, visualElementProperties]
  | .button => [buttonProperties, viewProperties, visualElementProperties]
  | .entry => [entryProperties, inputViewProperties, viewProperties, visualElementProperties]
  | .editor => [inputViewProperties, viewProperties, visualElementProperties]
  | .searchBar =>
    [searchBarProperties, inputViewProperties, viewProperties, visualElementProperties]
  | .boxView => [boxViewProperties, viewProperties, visualElementProperties]
  | .activityIndicator => [activityIndicatorProperties, viewProperties, visualElementProperties]
  | .progressBar => [progressBarProperties, viewProperties, visualElementProperties]
  | .switch => [switchProperties, viewProperties, visualElementProperties]
  | .stackLayout =>
    [stackLayoutProperties, layoutProperties, viewProperties, visualElementProperties]
  | .grid => [gridProperties, layoutProperties, viewProperties, visualElementProperties]
  | .scrollView => [scrollViewProperties, layoutProperties, viewProperties, visualElementProperties]
  | .tableView => [tableViewProperties, viewProperties, visualElementProperties]
  | .contentPage => [pageProperties, visualElementProperties]
  | .tabbedPage => [tabbedPageProperties, pageProperties, visualElementProperties]

def properties (kind : WidgetKind) : List PropertyDescriptor := kind.layers.flatten

def property? (kind : WidgetKind) (name : String) : Option PropertyDescriptor :=
  kind.properties.find? (·.name == name)

def isPage : WidgetKind → Bool
  | .contentPage => true
  | .tabbedPage => true
  | _ => false

def contentModel : WidgetKind → ContentModel
  | .stackLayout => .views
  | .grid => .views
  | .scrollView => .single
  | .contentPage => .single
  | .tabbedPage => .pages
  | _ => .leaf

end WidgetKind

end TreeStyle
