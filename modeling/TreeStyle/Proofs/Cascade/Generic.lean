import TreeStyle.Proofs.Cascade.Bare
import TreeStyle.Proofs.Declaration.Stored
import TreeStyle.Proofs.Vendor

/-!
This module contains the generic names whose properties are inherited. A style for one of them
reaches every widget below the root that has such a property, with the exception of `line-height`:
the table calls it inherited, and the only widgets that have it do not take it over.
-/

namespace TreeStyle

theorem all_genericProperties
    : genericProperties.all (fun row =>
        Text.trim row.name.toList == row.name.toList &&
          row.name.toList.map Char.toLower == row.name.toList &&
          row.name.toList.head? != some '-' && genericProperty? row.name == some row) = true := by
  decide

theorem of_mem_genericProperties {row : GenericProperty} (h : row ∈ genericProperties)
    : Text.trim row.name.toList = row.name.toList ∧
        row.name.toList.map Char.toLower = row.name.toList ∧
        row.name.toList.head? ≠ some '-' ∧ genericProperty? row.name = some row := by
  have hall := List.all_eq_true.1 all_genericProperties row h
  simpa only [Bool.and_eq_true, beq_iff_eq, bne_iff_ne, and_assoc] using hall

theorem Registry.classify_name {registry : Registry} {row : GenericProperty}
    (hregistry : registry.beginning.toList.head? = some '-') (hrow : row ∈ genericProperties)
    : registry.classify row.name = .generic row := by
  rcases of_mem_genericProperties hrow with ⟨htrim, hlower, hhead, hrow⟩
  have hfront : Text.stripFront? registry.beginning.toList row.name.toList = none := by
    rw [← Option.not_isSome_iff_eq_none]
    intro hsome
    rcases Option.isSome_iff_exists.1 hsome with ⟨rest, hrest⟩
    rw [Text.stripFront?_eq_some_iff] at hrest
    rw [hrest, List.head?_append, hregistry] at hhead
    exact hhead rfl
  unfold classify
  rw [htrim, hlower]
  dsimp only
  rw [hfront, String.ofList_toList]
  dsimp only
  rw [hrow]

namespace WidgetKind

theorem all_inherited (kind : WidgetKind)
    : genericProperties.all (fun row =>
        !row.inherited || (row.targets.findSome? kind.property?).all
          fun property => property.inherited == (row.name != "line-height")) = true := by
  cases kind <;> decide

theorem inherited_eq {kind : WidgetKind} {row : GenericProperty} {property : PropertyDescriptor}
    (hrow : row ∈ genericProperties) (hinherited : row.inherited = true)
    (hproperty : row.targets.findSome? kind.property? = some property)
    : property.inherited = (row.name != "line-height") := by
  have hall := List.all_eq_true.1 kind.all_inherited row hrow
  rw [hinherited, hproperty] at hall
  simpa using hall

end WidgetKind

theorem Declaration.plain_genericProperty {row : GenericProperty} {text : String}
    (hrow : row ∈ genericProperties) (htext : Text.eqIgnoringCase text "initial" = false)
    : plain row.name text = ⟨row.name, .specified text, false⟩ := by
  rcases of_mem_genericProperties hrow with ⟨-, hlower, -, -⟩
  apply plain_eq _ htext
  unfold Text.asciiLower
  rw [hlower, String.ofList_toList]

theorem Tree.length_of_path? {α : Type} {t : Tree α} {position : List Nat} {path : List α}
    (h : t.path? position = some path)
    : path.length = position.length + 1 := by
  induction position generalizing t path with
  | nil =>
    cases t with
    | node a ts =>
      cases h
      rfl
  | cons i position ih =>
    cases t with
    | node a ts =>
      rw [path?] at h
      split at h
      . rcases Option.map_eq_some_iff.1 h with ⟨below, hbelow, rfl⟩
        rw [List.length_cons, ih hbelow, List.length_cons]
      . cases h

theorem Tree.exists_path?_below {α : Type} {t : Tree α} {position : List Nat} {a : α}
    (h : t.value? position = some a) (hbelow : position ≠ [])
    : ∃ root between, t.path? position = some (root :: between ++ [a]) := by
  rcases exists_path?_of_value? h with ⟨above, habove⟩
  have hlength := length_of_path? habove
  have := List.length_pos_iff.2 hbelow
  match above with
  | [] =>
    rw [List.nil_append, List.length_singleton] at hlength
    omega
  | root :: between => exact ⟨root, between, habove⟩

namespace Style

theorem exists_slot?_below {context : StyleContext} {tree : Tree Widget} {position : List Nat}
    {root e : Widget} {between : List Widget} {d : Declaration}
    (hpath : tree.path? position = some (root :: between ++ [e]))
    (hdown : Cascade.handsDown context.registry root d = true) (p : String)
    : ∃ e', ((mk [d]).apply context tree).1.value? position = some e' ∧
        e'.store.slot? p
          = (Verdict.value? p (Cascade.inheritedVerdict context.registry e d)).elim
              (e.store.slot? p) (Slot.settle (e.store.slot? p)) := by
  refine ⟨_, value?_apply_below _ hpath, ?_⟩
  rw [Cascade.slot?_styleElement, ranked_singleton, List.filter_cons, if_pos hdown]
  simp

theorem value?_inheritedVerdict_generic {registry : Registry} {row : GenericProperty} {e : Widget}
    {property : PropertyDescriptor} {text : String} {v : Value}
    (hclassify : registry.classify row.name = .generic row)
    (hproperty : row.targets.findSome? e.property? = some property)
    (hv : Value.ofText text property.type = .ok v)
    : Verdict.value? property.name
          (Cascade.inheritedVerdict registry e ⟨row.name, .specified text, false⟩)
        = if property.inherited = true then some (some v) else none := by
  have hresolve : Registry.resolveName? e (.generic row) = some property := hproperty
  have hvalue : Cascade.valueFor (.specified text) property = .ok (some v) := by
    unfold Cascade.valueFor
    dsimp only
    rw [hv]
    rfl
  unfold Cascade.inheritedVerdict Registry.resolveInherited?
  rw [hclassify, hresolve, Option.filter_some]
  cases property.inherited with
  | false => rfl
  | true =>
    rw [if_pos rfl]
    dsimp only
    rw [hvalue]
    simp [Verdict.value?]

/--
A style for an inherited generic name reaches every widget below the root that has the property and
lets it be styled. Only the height of lines stays as it was.
-/
theorem generic_reaches_below {options : StyleOptions} {context : StyleContext}
    (hcontext : StyleContext.ofOptions options = .ok context) {row : GenericProperty}
    (hrow : row ∈ genericProperties) (hinherited : row.inherited = true) {text : String}
    (htext : Text.eqIgnoringCase text "initial" = false) {tree : Tree Widget}
    {position : List Nat} {e : Widget} (hbelow : position ≠ []) (he : tree.value? position = some e)
    {property : PropertyDescriptor} {v : Value}
    (hproperty : row.targets.findSome? e.property? = some property)
    (huser : e.origin property.name ≠ .user) (hv : Value.ofText text property.type = .ok v)
    : ∃ e', ((mk [.plain row.name text]).apply context tree).1.value? position = some e' ∧
        e'.store.slot? property.name
          = if row.name = "line-height" then e.store.slot? property.name
            else some (.style v) := by
  have hclassify := Registry.classify_name (StyleContext.head?_beginning hcontext) hrow
  rcases Tree.exists_path?_below he hbelow with ⟨root, between, hpath⟩
  have hdown : Cascade.handsDown context.registry root ⟨row.name, .specified text, false⟩
      = true := by
    unfold Cascade.handsDown
    dsimp only
    rw [hclassify]
    exact hinherited
  have htaken : property.inherited = (row.name != "line-height") :=
    WidgetKind.inherited_eq hrow hinherited hproperty
  rw [Declaration.plain_genericProperty hrow htext]
  rcases exists_slot?_below hpath hdown property.name with ⟨e', hvalue, hslot⟩
  refine ⟨e', hvalue, ?_⟩
  rw [hslot, value?_inheritedVerdict_generic hclassify hproperty hv, htaken]
  by_cases hline : row.name = "line-height"
  . rw [if_pos hline, if_neg (by simp [hline])]
    rfl
  . rw [if_neg hline, if_pos (by simp [hline])]
    exact PropertyStore.settle_of_ne_user huser (some v)

open StyleSheet.NestedLabel in
theorem generic_reaches_below_nestedLabel
    : Value.ofText "red" .color = .ok (.color ⟨255, 0, 0, 1.0⟩) ∧
        ∃ e', ((mk [.plain "color" "red"]).apply .standard widgets).1.value? [0, 0] = some e' ∧
          e'.store.slot? "TextColor" = some (.style (.color ⟨255, 0, 0, 1.0⟩)) := by
  have hcontext : StyleContext.ofOptions {} = .ok .standard := rfl
  have hrow : ⟨"color", ["TextColor", "Color"], true⟩ ∈ genericProperties := by
    decide
  have hlabel : widgets.value? [0, 0] = some { number := 2, kind := .label } := rfl
  have hproperty : ["TextColor", "Color"].findSome? WidgetKind.label.property?
      = some ⟨"TextColor", .color, none, true⟩ := rfl
  have hred : Value.ofText "red" .color = .ok (.color ⟨255, 0, 0, 1.0⟩) := by
    decide +kernel
  exact ⟨hred, generic_reaches_below hcontext hrow rfl (by decide) (by decide) hlabel hproperty
    (by decide) hred⟩

open StyleSheet.NestedLabel in
theorem lineHeight_stays_above
    : ⟨"line-height", ["LineHeight"], true⟩ ∈ genericProperties ∧
        widgets.value? [0, 0] = some { number := 2, kind := .label } ∧
        WidgetKind.label.property? "LineHeight"
          = some ⟨"LineHeight", .float, some (.float (-1.0)), false⟩ ∧
        Value.ofText "2" .float = .ok (.float 2.0) ∧
        ∃ e', ((mk [.plain "line-height" "2"]).apply .standard widgets).1.value? [0, 0]
            = some e' ∧
          e'.store.slot? "LineHeight" = none := by
  have htwo : Value.ofText "2" .float = .ok (.float 2.0) := by
    decide
  have hpath : widgets.path? [0, 0]
      = some (outerLayout :: [innerLayout] ++ [{ number := 2, kind := .label }]) := rfl
  have hdown : Cascade.handsDown StyleContext.standard.registry outerLayout
      (.plain "line-height" "2") = true := by
    decide
  rcases exists_slot?_below hpath hdown "LineHeight" with ⟨e', hvalue, hslot⟩
  refine ⟨by decide, rfl, rfl, htwo, e', hvalue, ?_⟩
  rw [hslot]
  decide

end Style

end TreeStyle
