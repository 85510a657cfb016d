import TreeStyle.Proofs.Sheet.Word
import TreeStyle.Proofs.Vendor.Resolution

/-!
This module contains which vendor prefixes are of use in style sheets: those that names can begin
with.
-/

namespace TreeStyle

theorem startsIdent_of_append {cs rest : List Char} (h : startsIdent (cs ++ rest) = true)
    (hlength : 2 ≤ cs.length)
    : startsIdent cs = true := by
  match cs, hlength with
  | c :: c' :: cs, _ =>
    by_cases hc : c = '-'
    . subst hc
      apply h
    . rw [List.cons_append, startsIdent] at h
      . rw [startsIdent]
        . apply h
        . simpa using hc
      . simpa using hc

theorem IsName.of_append {cs rest : List Char} (h : IsName (cs ++ rest)) (hlength : 2 ≤ cs.length)
    : IsName cs := by
  refine ⟨startsIdent_of_append h.starts hlength, ?_, ?_⟩
  . intro c hc
    apply h.goesOn c (List.mem_append_left rest hc)
  . intro c hc
    apply h.notBlank c
    rw [List.head?_append, hc]
    rfl

theorem Text.exists_trim_append {cs : List Char} (h : ∀ c ∈ cs.head?, isBlank c = false)
    : ∃ back, cs = trim cs ++ back := by
  refine ⟨(cs.reverse.takeWhile isBlank).reverse, ?_⟩
  unfold trim trimEnd
  rw [trimStart_of_notBlank h, ← List.reverse_append, List.takeWhile_append_dropWhile,
    List.reverse_reverse]

namespace Registry

variable {registry : Registry} {name : String}

theorem isName_of_classify_eq_vendor {vendorPrefix rest : String}
    (hlength : 2 ≤ vendorPrefix.toList.length) (hname : IsName name.toList)
    (h : (ofPrefix vendorPrefix).classify name = .vendor rest)
    : IsName vendorPrefix.toList := by
  have hbeginning : (ofPrefix vendorPrefix).beginning.toList
      = vendorPrefix.toList.map Char.toLower := Text.toList_asciiLower vendorPrefix
  rcases Text.exists_trim_append hname.notBlank with ⟨back, hback⟩
  unfold classify at h
  dsimp only at h
  split at h
  . next c more hfront =>
    rw [Text.stripFront?_eq_some_iff, hbeginning] at hfront
    have hlower := isName_map_toLower_iff.2 hname
    -- The prefix is compared in small letters, and names stay names in them.
    rw [hback, List.map_append, hfront, List.append_assoc] at hlower
    apply isName_map_toLower_iff.1
    apply hlower.of_append
    rwa [List.length_map]
  . split at h <;> cases h

theorem mem_of_classify_eq_generic {row : GenericProperty}
    (h : registry.classify name = .generic row)
    : row ∈ genericProperties := by
  unfold classify at h
  dsimp only at h
  split at h
  . cases h
  . split at h
    . next hrow =>
      cases h
      apply List.mem_of_find?_eq_some hrow
    . cases h

theorem exists_vendor_of_resolveName? {w : Widget} {property : PropertyDescriptor}
    (h : resolveName? w (registry.classify name) = some property)
    (hgeneric : ∀ row ∈ genericProperties, property.name ∉ row.targets)
    : ∃ rest, registry.classify name = .vendor rest := by
  cases hclass : registry.classify name with
  | vendor rest => exact ⟨rest, rfl⟩
  | unknown name =>
    rw [hclass] at h
    cases h
  | generic row =>
    rw [hclass] at h
    rcases List.exists_of_findSome?_eq_some h with ⟨target, htarget, hproperty⟩
    have hname := List.find?_some hproperty
    rw [beq_iff_eq] at hname
    rw [← hname] at htarget
    exact absurd htarget (hgeneric row (mem_of_classify_eq_generic hclass))

end Registry

namespace StyleSheet

theorem isName_of_read {text : String} {sheet : StyleSheet} (h : read.run text = .ok sheet)
    : ∀ rule ∈ sheet.rules, ∀ d ∈ rule.declarations, IsName d.property.toList := by
  rcases Parser.run_eq_ok_iff.1 h with ⟨rest, hread⟩
  rcases Parser.bind_eq_ok_iff.1 hread with ⟨raw, mid, hraw, hpure⟩
  rcases Parser.pure_eq_ok_iff.1 hpure with ⟨hsheet, _⟩
  rw [← hsheet]
  unfold ofRaw
  rw [List.forall_mem_map]
  intro rule hrule
  unfold Rule.map
  rw [List.forall_mem_map]
  intro d hd
  have hblock := (RawSheet.wellRead_of_read hraw rule hrule).declarations
  rcases hblock.exists_spelledBy d hd with ⟨pieces, hspelled, _⟩
  unfold Declaration.ofRaw
  rw [Text.toList_asciiLower]
  apply isName_map_toLower_iff.2 hspelled.name

theorem mem_of_mem_rank_candidates {sheet : StyleSheet} {m : Matcher} {chain : List ElementInfo}
    {d : Declaration} (h : d ∈ Candidate.rank (sheet.candidates m chain))
    : ∃ rule ∈ sheet.rules, d ∈ rule.declarations := by
  unfold Candidate.rank at h
  rcases List.mem_map.1 h with ⟨candidate, hcandidate, heq⟩
  rw [List.mem_mergeSort, List.mem_reverse] at hcandidate
  rcases List.mem_flatMap.1 hcandidate with ⟨rule, hrule, hmem⟩
  split at hmem
  . rcases List.mem_map.1 hmem with ⟨d', hd', hcandidate'⟩
    rw [← heq, ← hcandidate']
    exact ⟨rule, hrule, hd'⟩
  . cases hmem

theorem slot?_apply_of_not_isName {options : StyleOptions} {context : StyleContext}
    (hcontext : StyleContext.ofOptions options = .ok context)
    (hbeginning : ¬ IsName options.vendorPrefix.toList) {text : String} {sheet : StyleSheet}
    (hread : read.run text = .ok sheet) {p : String}
    (hgeneric : ∀ row ∈ genericProperties, p ∉ row.targets) (tree : Tree Widget)
    : (sheet.apply context tree).1.value.store.slot? p = tree.value.store.slot? p := by
  rcases StyleContext.eq_ofValid_of_ofOptions hcontext with ⟨rfl, hvalid⟩
  have hlength : 2 ≤ options.vendorPrefix.toList.length := by
    unfold StyleOptions.isValid at hvalid
    simp only [Bool.and_eq_true, decide_eq_true_eq] at hvalid
    exact hvalid.1.1
  unfold apply
  rw [Cascade.slot?_run_root, List.findSome?_eq_none_iff.2]
  . rfl
  . intro d hd
    -- Only a vendor name can mean the property, and the prefix would be the beginning of a name.
    rcases mem_of_mem_rank_candidates hd with ⟨rule, hrule, hmem⟩
    rw [Option.eq_none_iff_forall_ne_some]
    intro value hvalue
    rcases Cascade.value?_directVerdict_eq_some_iff.1 hvalue with ⟨property, hproperty, hname, _⟩
    rw [← hname] at hgeneric
    rcases Registry.exists_vendor_of_resolveName? hproperty hgeneric with ⟨rest, hvendor⟩
    apply hbeginning
    exact Registry.isName_of_classify_eq_vendor hlength (isName_of_read hread rule hrule d hmem)
      hvendor

end StyleSheet

namespace StyleContext

/--
Every property of every kind of widget can be given a word under each of its vendor names, by the
text of a sheet. A declaration without a value does nothing.
-/
def Usable (context : StyleContext) : Prop :=
  ∀ (kind : WidgetKind) (property : PropertyDescriptor) (type text : String) (v : Value)
    (number : Nat), property ∈ kind.properties → type ∈ kind.typeChain → Text.IsWord text →
    Text.eqIgnoringCase text "initial" = false → Value.ofText text property.type = .ok v →
    ∃ sheet,
      StyleSheet.read.run ("* \x7b " ++ context.registry.vendorName type property.name ++ ": " ++
        text ++ "; \x7d") = .ok sheet ∧
      (sheet.apply context (.node ({ number, kind } : Widget) [])).1.value.store.slot? property.name
        = if text = "" then none else some (.style v)

variable {options : StyleOptions} {context : StyleContext}

theorem usable_of_isName (hcontext : ofOptions options = .ok context)
    (hbeginning : IsName options.vendorPrefix.toList)
    : context.Usable := by
  intro kind property type text v number hproperty htype htext hinitial hv
  have hpascal := WidgetKind.isPascal_of_mem_properties hproperty
  have hresolve := Widget.resolve?_vendorName hcontext (w := { number, kind }) htype hproperty
  rcases eq_ofValid_of_ofOptions hcontext with ⟨rfl, _⟩
  have hname := Registry.isName_vendorName hbeginning (WidgetKind.isPascal_of_mem_typeChain htype)
    hpascal
  refine ⟨_, StyleSheet.run_forAll hname htext, ?_⟩
  split
  . next hempty =>
    rw [hempty, StyleSheet.slot?_apply_forAll_empty]
    rfl
  . next hne =>
    have hvalue : Cascade.valueFor (.specified text) property = .ok (some v) := by
      unfold Cascade.valueFor
      dsimp only
      rw [hv]
      rfl
    have hlower : Text.asciiLower ((ofValid options).registry.vendorName type property.name)
        = (ofValid options).registry.vendorName type property.name :=
      Registry.asciiLower_vendorName hpascal
    have hgives : Cascade.Gives (ofValid options).registry
        (Registry.resolveName? ({ number, kind } : Widget)) property.name
        (.plain ((ofValid options).registry.vendorName type property.name) text) (some v) := by
      rw [Declaration.plain_eq hlower hinitial]
      exact ⟨property, hresolve, rfl, hvalue⟩
    have hunset : (Tree.node ({ number, kind } : Widget) []).value.origin property.name
        ≠ .user := by
      intro huser
      cases huser
    exact StyleSheet.slot?_apply_forAll hunset hne hgives

theorem isName_of_usable (hcontext : ofOptions options = .ok context) (h : context.Usable)
    : IsName options.vendorPrefix.toList := by
  -- The text of a label is enough, since no generic name means it.
  have hproperty : WidgetKind.Properties.string "Text" false ∈ WidgetKind.label.properties := by
    decide
  have htype : "Label" ∈ WidgetKind.label.typeChain := by
    decide
  have htext : Text.IsWord "a" := List.all_eq_true.1 (by decide)
  have hvalue : Value.ofText "a" .string = .ok (.string "a") := rfl
  have hgeneric : ∀ row ∈ genericProperties, "Text" ∉ row.targets := by
    decide
  rcases h .label _ "Label" "a" (.string "a") 0 hproperty htype htext (by decide) hvalue with
    ⟨sheet, hread, hslot⟩
  by_contra hbeginning
  have hnone := StyleSheet.slot?_apply_of_not_isName hcontext hbeginning hread hgeneric
    (.node ({ number := 0, kind := .label } : Widget) [])
  cases hnone.symm.trans hslot

/--
The vendor prefix can be used in the text of sheets if and only if it is a name.
-/
theorem usable_iff_isName (hcontext : ofOptions options = .ok context)
    : context.Usable ↔ IsName options.vendorPrefix.toList :=
  ⟨isName_of_usable hcontext, usable_of_isName hcontext⟩

theorem usable_iff_isName_standard
    : standard.Usable := by
  have hcontext : ofOptions {} = .ok standard := rfl
  rw [usable_iff_isName hcontext]
  decide

theorem digitPrefix_not_usable
    : ofOptions { vendorPrefix := "-1-" } = .ok (ofValid { vendorPrefix := "-1-" })
        ∧ (ofValid { vendorPrefix := "-1-" }).registry.vendorName "Label" "Text" = "-1-label-text"
        ∧ ∀ sheet, StyleSheet.read.run "* \x7b -1-label-text: a; \x7d" ≠ .ok sheet := by
  refine ⟨rfl, by decide, ?_⟩
  intro sheet hread
  have herror : (StyleSheet.read.run "* \x7b -1-label-text: a; \x7d").toOption = none := by
    decide +kernel
  rw [hread] at herror
  cases herror

end StyleContext

end TreeStyle
