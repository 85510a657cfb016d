import TreeStyle.Element.Listed
import TreeStyle.Proofs.Vendor

/-!
This module contains what vendor names mean to any element: the property of one of its types, or
else the name as a whole. The case of names does not matter.
-/

namespace TreeStyle

namespace Text

theorem dropWhile_isBlank_map_toLower (cs : List Char)
    : (cs.map Char.toLower).dropWhile isBlank = (cs.dropWhile isBlank).map Char.toLower := by
  rw [List.dropWhile_map]
  apply congrArg (fun p : Char → Bool => (cs.dropWhile p).map Char.toLower)
  funext c
  apply isBlank_toLower

theorem trim_map_toLower (cs : List Char)
    : trim (cs.map Char.toLower) = (trim cs).map Char.toLower := by
  unfold trim trimEnd trimStart
  rw [dropWhile_isBlank_map_toLower, ← List.map_reverse, dropWhile_isBlank_map_toLower,
    ← List.map_reverse]

theorem map_toLower_eq_of_eqIgnoringCase {s t : String} (h : eqIgnoringCase s t = true)
    : s.toList.map Char.toLower = t.toList.map Char.toLower := by
  rw [← toList_asciiLower, ← toList_asciiLower, eqIgnoringCase_iff.1 h]

theorem ne_hyphen_of_eqIgnoringCase {s t : String} (h : eqIgnoringCase s t = true)
    (hs : '-' ∉ s.toList)
    : '-' ∉ t.toList := by
  intro ht
  have hmem : '-' ∈ s.toList.map Char.toLower := by
    rw [map_toLower_eq_of_eqIgnoringCase h]
    apply List.mem_map_of_mem ht
  rcases List.mem_map.1 hmem with ⟨c, hc, hhyphen⟩
  rw [← beq_iff_eq, toLower_beq rfl, beq_iff_eq] at hhyphen
  rw [hhyphen] at hc
  apply hs hc

end Text

namespace Registry

theorem classify_congr (registry : Registry) {s t : String} (h : Text.eqIgnoringCase s t = true)
    : registry.classify s = registry.classify t := by
  unfold classify
  rw [← Text.trim_map_toLower, ← Text.trim_map_toLower, Text.map_toLower_eq_of_eqIgnoringCase h]

variable {α : Type} [Stylable α] (e : α)

theorem resolve?_vendorName {options : StyleOptions} {context : StyleContext}
    (hcontext : StyleContext.ofOptions options = .ok context) {type property : String}
    (hproperty : Text.isPascal property = true)
    : context.registry.resolve? e (context.registry.vendorName type property)
        = resolveVendor? e (vendorRest type property) := by
  rcases StyleContext.eq_ofValid_of_ofOptions hcontext with ⟨rfl, hvalid⟩
  unfold StyleContext.ofValid resolve?
  rw [classify_vendorName (StyleContext.head?_vendorPrefix hvalid) hproperty]
  rfl

/--
With a type of the element, a vendor name means the property that it was made from. With another
type, it means the property that it spells together with the type. The case of names does not
matter.
-/
theorem vendorName_resolves {options : StyleOptions} {context : StyleContext}
    (hcontext : StyleContext.ofOptions options = .ok context)
    (htypes : ∀ name ∈ Stylable.typeNames e, '-' ∉ name.toList) (type : String)
    {property : String} (hproperty : Text.isPascal property = true)
    : ((∃ name ∈ Stylable.typeNames e, Text.eqIgnoringCase name type = true) →
          ∀ descriptor, Stylable.property? e property = some descriptor →
            context.registry.resolve? e (context.registry.vendorName type property)
              = some descriptor)
      ∧ ('-' ∉ type.toList →
          (∀ name ∈ Stylable.typeNames e, Text.eqIgnoringCase name type = false) →
            context.registry.resolve? e (context.registry.vendorName type property)
              = Stylable.property? e
                  (Text.pascal (Text.asciiLower type ++ "-" ++ Text.kebab property)))
      ∧ ∀ raw raw' : String, Text.eqIgnoringCase raw raw' = true →
          context.registry.resolve? e raw = context.registry.resolve? e raw' := by
  rw [resolve?_vendorName e hcontext hproperty]
  constructor
  . intro hscope descriptor hdescriptor
    rcases hscope with ⟨name, hname, heq⟩
    apply resolveVendor?_vendorRest
    . apply Text.ne_hyphen_of_eqIgnoringCase heq
      apply htypes name hname
    . rw [List.any_eq_true]
      exact ⟨name, hname, heq⟩
    . apply hproperty
    . apply hdescriptor
  . constructor
    . intro htype hscope
      rw [resolveVendor?_vendorRest_eq e htype hproperty, if_neg]
      . rfl
      . rw [List.any_eq_true]
        intro hany
        rcases hany with ⟨name, hname, heq⟩
        cases heq.symm.trans (hscope name hname)
    . intro raw raw' heq
      unfold resolve?
      rw [classify_congr context.registry heq]

def crampedElement : ListedElement where
  number := 0
  types := ["Grid2D", "Base"]
  id? := none
  classes := []
  properties := [⟨"Row3X", .int, none, false⟩, ⟨"HtmlRow3X", .int, none, false⟩]

def crampedRegistry : Registry := ofPrefix "-Ab1-"

theorem vendorName_resolves_crampedElement
    : crampedRegistry.resolve? crampedElement "-ab1-grid2d-row3-x"
        = some ⟨"Row3X", .int, none, false⟩
      ∧ crampedRegistry.resolve? crampedElement "-ab1-html-row3-x"
        = some ⟨"HtmlRow3X", .int, none, false⟩
      ∧ crampedRegistry.resolve? crampedElement "-AB1-Grid2D-ROW3-x"
        = some ⟨"Row3X", .int, none, false⟩ := by
  have hcontext : StyleContext.ofOptions { vendorPrefix := "-Ab1-" }
      = .ok ⟨{ vendorPrefix := "-Ab1-" }, crampedRegistry⟩ := rfl
  have hproperty : Text.isPascal "Row3X" = true := by
    decide
  have hresolves := fun type =>
    vendorName_resolves crampedElement hcontext (by decide) type hproperty
  have hgrid : "-ab1-grid2d-row3-x" = crampedRegistry.vendorName "gRID2d" "Row3X" := by
    decide
  have hhtml : "-ab1-html-row3-x" = crampedRegistry.vendorName "HTML" "Row3X" := by
    decide
  have hin := (hresolves "gRID2d").1 (by decide) ⟨"Row3X", .int, none, false⟩ rfl
  have hout := (hresolves "HTML").2.1 (by decide) (by decide)
  have hcase := (hresolves "HTML").2.2 "-AB1-Grid2D-ROW3-x" "-ab1-grid2d-row3-x"
    (by decide)
  rw [hcase, hgrid, hhtml]
  exact ⟨hin, hout, hin⟩

end Registry

end TreeStyle
