import TreeStyle.Options
import TreeStyle.Proofs.Lexing.LetterCase
import TreeStyle.Widget

/-!
This module contains the proof that the vendor name of a property means that property. The
capitalised spelling of a name undoes the hyphenated one.
-/

namespace TreeStyle

namespace Text

def isPascal (name : String) : Bool :=
  name.toList.head?.any Char.isUpper && name.toList.all Char.isAlphanum

theorem toNat_lt_of_isAlphanum {c : Char} (h : c.isAlphanum = true)
    : c.toNat < 0x80 := by
  simp [Char.isAlphanum, Char.isDigit, isAlpha_iff, UInt32.le_iff_toNat_le] at h
  omega

theorem of_isAlphanum {p : Char → Prop} (hall : ∀ n < 0x80, (Char.ofNat n).isAlphanum = true →
    p (Char.ofNat n)) {c : Char} (h : c.isAlphanum = true)
    : p c := by
  have hofNat := hall c.toNat (toNat_lt_of_isAlphanum h)
  rw [Char.ofNat_toNat] at hofNat
  exact hofNat h

section Alphanum

variable {c : Char} (h : c.isAlphanum = true)

include h

theorem ne_hyphen_of_isAlphanum : c ≠ '-' :=
  of_isAlphanum (p := fun c => c ≠ '-') (by decide) h

theorem isBlank_of_isAlphanum : isBlank c = false :=
  of_isAlphanum (p := fun c => isBlank c = false) (by decide) h

theorem isIdentChar_of_isAlphanum : isIdentChar c = true := by
  unfold isIdentChar
  rw [h, Bool.or_true, Bool.true_or]

theorem isAlphanum_toLower : c.toLower.isAlphanum = true :=
  of_isAlphanum (p := fun c => c.toLower.isAlphanum = true) (by decide) h

theorem toUpper_toLower (hupper : c.isUpper = true) : c.toLower.toUpper = c :=
  of_isAlphanum (p := fun c => c.isUpper = true → c.toLower.toUpper = c) (by decide) h hupper

theorem toLower_of_not_isUpper (hupper : c.isUpper = false) : c.toLower = c :=
  of_isAlphanum (p := fun c => c.isUpper = false → c.toLower = c) (by decide) h hupper

theorem continueKebab_of_isUpper (hupper : c.isUpper = true)
    : continueKebab c = ['-', c.toLower] := by
  unfold continueKebab
  rw [isUppercase_of_lt (toNat_lt_of_isAlphanum h), lowercase_of_lt (toNat_lt_of_isAlphanum h),
    if_pos hupper]

theorem continueKebab_of_not_isUpper (hupper : c.isUpper = false)
    : continueKebab c = [c] := by
  unfold continueKebab
  rw [isUppercase_of_lt (toNat_lt_of_isAlphanum h), lowercase_of_lt (toNat_lt_of_isAlphanum h),
    hupper, if_neg (by decide), toLower_of_not_isUpper h hupper]

end Alphanum

theorem exists_splitAt_continueKebab {cs : List Char} (h : ∀ c ∈ cs, c.isAlphanum = true)
    : ∃ part parts, splitAt '-' (cs.flatMap continueKebab) = part :: parts ∧
        part ++ parts.flatMap capitalize = cs := by
  induction cs with
  | nil => exact ⟨[], [], rfl, rfl⟩
  | cons c cs ih =>
    rw [List.forall_mem_cons] at h
    rcases ih h.2 with ⟨part, parts, hsplit, hparts⟩
    rw [List.flatMap_cons]
    cases hupper : c.isUpper with
    | true =>
      have hlower := isAlphanum_toLower h.1
      refine ⟨[], (c.toLower :: part) :: parts, ?_, ?_⟩
      . rw [continueKebab_of_isUpper h.1 hupper, List.cons_append, List.cons_append,
          List.nil_append, splitAt_separator,
          splitAt_cons (ne_hyphen_of_isAlphanum hlower) hsplit]
      . rw [List.flatMap_cons, capitalize, uppercase_of_lt (toNat_lt_of_isAlphanum hlower),
          toUpper_toLower h.1 hupper,
          List.append_assoc, hparts]
        rfl
    | false =>
      refine ⟨c :: part, parts, ?_, ?_⟩
      . rw [continueKebab_of_not_isUpper h.1 hupper]
        exact splitAt_cons (ne_hyphen_of_isAlphanum h.1) hsplit
      . rw [List.cons_append, hparts]

section Pascal

variable {name : String}

theorem exists_cons_of_isPascal (h : isPascal name = true)
    : ∃ c cs, name.toList = c :: cs ∧ c.isUpper = true ∧ ∀ a ∈ c :: cs, a.isAlphanum = true := by
  unfold isPascal at h
  rw [Bool.and_eq_true, List.all_eq_true] at h
  cases hname : name.toList with
  | nil =>
    rw [hname] at h
    cases h.1
  | cons c cs =>
    rw [hname] at h
    exact ⟨c, cs, rfl, h.1, h.2⟩

theorem hyphen_kebab (h : isPascal name = true)
    : '-' :: (kebab name).toList = name.toList.flatMap continueKebab := by
  rcases exists_cons_of_isPascal h with ⟨c, cs, hname, hupper, hall⟩
  unfold kebab
  rw [String.toList_ofList, hname, kebabChars, List.flatMap_cons,
    continueKebab_of_isUpper (hall c List.mem_cons_self) hupper,
    lowercase_of_lt (toNat_lt_of_isAlphanum (hall c List.mem_cons_self))]
  rfl

theorem pascal_kebab (h : isPascal name = true)
    : pascal (kebab name) = name := by
  rcases exists_cons_of_isPascal h with ⟨c, cs, hname, -, hall⟩
  rw [← hname] at hall
  rcases exists_splitAt_continueKebab hall with ⟨part, parts, hsplit, hparts⟩
  rw [← hyphen_kebab h, splitAt_separator] at hsplit
  rcases List.cons.inj hsplit with ⟨rfl, rfl⟩
  unfold pascal pascalChars
  rw [List.nil_append] at hparts
  rw [hparts, String.ofList_toList]

theorem of_mem_kebab (h : isPascal name = true) {c : Char} (hc : c ∈ (kebab name).toList)
    : isIdentChar c = true ∧ isBlank c = false ∧ c.toLower = c := by
  have hmem : c ∈ name.toList.flatMap continueKebab := by
    rw [← hyphen_kebab h]
    exact List.mem_cons_of_mem _ hc
  rcases List.mem_flatMap.1 hmem with ⟨a, ha, hmem⟩
  rcases exists_cons_of_isPascal h with ⟨c', cs, hname, -, hall⟩
  rw [← hname] at hall
  have hsmall : ∀ b : Char, b.isAlphanum = true → b.toLower = b →
      isIdentChar b = true ∧ isBlank b = false ∧ b.toLower = b := by
    intro b hb hlower
    exact ⟨isIdentChar_of_isAlphanum hb, isBlank_of_isAlphanum hb, hlower⟩
  cases hupper : a.isUpper with
  | true =>
    rw [continueKebab_of_isUpper (hall a ha) hupper, List.mem_cons, List.mem_singleton] at hmem
    rcases hmem with rfl | rfl
    . exact ⟨rfl, rfl, rfl⟩
    . exact hsmall _ (isAlphanum_toLower (hall a ha)) (toLower_toLower a)
  | false =>
    rw [continueKebab_of_not_isUpper (hall a ha) hupper, List.mem_singleton] at hmem
    rw [hmem]
    exact hsmall a (hall a ha) (toLower_of_not_isUpper (hall a ha) hupper)

end Pascal

theorem eqIgnoringCase_asciiLower (s t : String)
    : eqIgnoringCase s (asciiLower t) = eqIgnoringCase s t := by
  unfold eqIgnoringCase
  rw [asciiLower_asciiLower]

end Text

theorem IsName.append {cs ds : List Char} (h : IsName cs) (hds : ∀ c ∈ ds, isIdentChar c = true)
    : IsName (cs ++ ds) := by
  refine ⟨startsIdent_append h.starts, List.forall_mem_append.2 ⟨h.goesOn, hds⟩, ?_⟩
  match cs, h.starts, h.notBlank with
  | c :: cs, _, hblank => exact hblank

namespace Registry

variable {beginning type property : String}

theorem toList_vendorName (registry : Registry) (type property : String)
    : (registry.vendorName type property).toList
        = registry.beginning.toList ++
            (type.toList.map Char.toLower ++ '-' :: (Text.kebab property).toList) := by
  unfold vendorName TreeStyle.vendorName
  rw [String.toList_append, String.toList_append, String.toList_append, Text.toList_asciiLower,
    List.append_assoc, List.append_assoc]
  rfl

def vendorRest (type property : String) : String :=
  Text.asciiLower type ++ "-" ++ Text.kebab property

theorem toList_vendorRest (type property : String)
    : (vendorRest type property).toList
        = type.toList.map Char.toLower ++ '-' :: (Text.kebab property).toList := by
  unfold vendorRest
  rw [String.toList_append, String.toList_append, Text.toList_asciiLower, List.append_assoc]
  rfl

theorem map_toLower_vendorName (hproperty : Text.isPascal property = true)
    : ((ofPrefix beginning).vendorName type property).toList.map Char.toLower
        = ((ofPrefix beginning).vendorName type property).toList := by
  have hlower : ∀ cs : List Char, (cs.map Char.toLower).map Char.toLower = cs.map Char.toLower := by
    intro cs
    rw [List.map_map]
    exact List.map_congr_left fun c _ => toLower_toLower c
  have hkebab : (Text.kebab property).toList.map Char.toLower = (Text.kebab property).toList :=
    (List.map_congr_left fun c hc => (Text.of_mem_kebab hproperty hc).2.2).trans (List.map_id _)
  have hbeginning : (ofPrefix beginning).beginning.toList = beginning.toList.map Char.toLower :=
    Text.toList_asciiLower beginning
  rw [toList_vendorName, hbeginning, List.map_append, List.map_append, List.map_cons, hlower,
    hlower, hkebab]
  rfl

theorem asciiLower_vendorName (hproperty : Text.isPascal property = true)
    : Text.asciiLower ((ofPrefix beginning).vendorName type property)
        = (ofPrefix beginning).vendorName type property := by
  unfold Text.asciiLower
  rw [map_toLower_vendorName hproperty, String.ofList_toList]

theorem head?_ofPrefix (h : beginning.toList.head? = some '-')
    : (ofPrefix beginning).beginning.toList.head? = some '-' := by
  unfold ofPrefix
  rw [Text.toList_asciiLower, List.head?_map, h]
  rfl

theorem classify_vendorName (hbeginning : beginning.toList.head? = some '-')
    (hproperty : Text.isPascal property = true)
    : (ofPrefix beginning).classify ((ofPrefix beginning).vendorName type property)
        = .vendor (vendorRest type property) := by
  have hfirst : ∀ c ∈ ((ofPrefix beginning).vendorName type property).toList.head?,
      Text.isBlank c = false := by
    rw [toList_vendorName, List.head?_append, head?_ofPrefix hbeginning]
    rintro c ⟨⟩
    rfl
  have hlast : ∀ c ∈ ((ofPrefix beginning).vendorName type property).toList.getLast?,
      Text.isBlank c = false := by
    have hne : '-' :: (Text.kebab property).toList ≠ [] := List.cons_ne_nil _ _
    rw [toList_vendorName, List.getLast?_append, List.getLast?_append,
      List.getLast?_eq_some_getLast hne]
    rintro c ⟨⟩
    rcases List.mem_cons.1 (List.getLast_mem hne) with hc | hc
    . rw [hc]
      rfl
    . exact (Text.of_mem_kebab hproperty hc).2.1
  have hfront : Text.stripFront? (ofPrefix beginning).beginning.toList
      ((ofPrefix beginning).vendorName type property).toList
        = some (vendorRest type property).toList := by
    rw [Text.stripFront?_eq_some_iff, toList_vendorName, toList_vendorRest]
  unfold classify
  rw [Text.trim_of_notBlank hfirst hlast, map_toLower_vendorName hproperty]
  dsimp only
  rw [hfront]
  cases hrest : (vendorRest type property).toList with
  | nil => simp [toList_vendorRest] at hrest
  | cons c rest =>
    dsimp only
    rw [← hrest, String.ofList_toList]

variable {α : Type} [Stylable α] {e : α} {descriptor : PropertyDescriptor}

theorem resolveVendor?_vendorRest_eq (e : α) (htype : '-' ∉ type.toList)
    (hpascal : Text.isPascal property = true)
    : resolveVendor? e (vendorRest type property) =
        ((if (Stylable.typeNames e).any (Text.eqIgnoringCase · type) then
            Stylable.property? e property
          else none)
        <|> Stylable.property? e (Text.pascal (vendorRest type property))) := by
  have hmap : ∀ c ∈ type.toList.map Char.toLower, decide (c ≠ '-') = true := by
    rw [List.forall_mem_map]
    intro c hc
    rw [decide_eq_true_eq, ← beq_eq_false_iff_ne, toLower_beq rfl, beq_eq_false_iff_ne]
    intro hhyphen
    rw [hhyphen] at hc
    apply htype hc
  have hdrop : (vendorRest type property).toList.dropWhile (· ≠ '-')
      = '-' :: (Text.kebab property).toList := by
    rw [toList_vendorRest, List.dropWhile_append_of_pos hmap]
    rfl
  have htake : (vendorRest type property).toList.takeWhile (· ≠ '-')
      = type.toList.map Char.toLower := by
    rw [toList_vendorRest, List.takeWhile_append_of_pos hmap]
    exact List.append_nil _
  have hscope : (Stylable.typeNames e).any
      (Text.eqIgnoringCase · (String.ofList (type.toList.map Char.toLower)))
        = (Stylable.typeNames e).any (Text.eqIgnoringCase · type) :=
    congrArg _ (funext fun name => Text.eqIgnoringCase_asciiLower name type)
  unfold resolveVendor? resolveScoped?
  rw [hdrop, htake]
  dsimp only
  rw [hscope, String.ofList_toList, Text.pascal_kebab hpascal]

theorem resolveVendor?_vendorRest (htype : '-' ∉ type.toList)
    (hscope : (Stylable.typeNames e).any (Text.eqIgnoringCase · type) = true)
    (hpascal : Text.isPascal property = true)
    (hproperty : Stylable.property? e property = some descriptor)
    : resolveVendor? e (vendorRest type property) = some descriptor := by
  rw [resolveVendor?_vendorRest_eq e htype hpascal, if_pos hscope, hproperty]
  rfl

theorem isName_vendorName (hbeginning : IsName beginning.toList)
    (htype : Text.isPascal type = true) (hproperty : Text.isPascal property = true)
    : IsName ((ofPrefix beginning).vendorName type property).toList := by
  have hname : IsName (ofPrefix beginning).beginning.toList := by
    unfold ofPrefix
    rw [Text.toList_asciiLower]
    apply isName_map_toLower_iff.2 hbeginning
  rw [toList_vendorName]
  apply hname.append
  rw [List.forall_mem_append, List.forall_mem_map, List.forall_mem_cons]
  refine ⟨?_, rfl, fun c hc => (Text.of_mem_kebab hproperty hc).1⟩
  intro c hc
  rcases Text.exists_cons_of_isPascal htype with ⟨c', cs, hcons, -, hall⟩
  rw [hcons] at hc
  exact (isIdentChar_toLower c).trans (Text.isIdentChar_of_isAlphanum (hall c hc))

end Registry

namespace StyleContext

variable {options : StyleOptions} {context : StyleContext}

theorem eq_ofValid_of_ofOptions (h : ofOptions options = .ok context)
    : context = ofValid options ∧ options.isValid = true := by
  unfold ofOptions StyleOptions.validate at h
  split at h
  . next hvalid =>
    cases h
    exact ⟨rfl, hvalid⟩
  . cases h

theorem head?_vendorPrefix (h : options.isValid = true)
    : options.vendorPrefix.toList.head? = some '-' := by
  unfold StyleOptions.isValid at h
  simp only [Bool.and_eq_true, beq_iff_eq] at h
  exact h.1.2

theorem head?_beginning (h : ofOptions options = .ok context)
    : context.registry.beginning.toList.head? = some '-' := by
  rcases eq_ofValid_of_ofOptions h with ⟨rfl, hvalid⟩
  exact Registry.head?_ofPrefix (head?_vendorPrefix hvalid)

end StyleContext

namespace WidgetKind

open Properties in
def allLayers : List (List PropertyDescriptor) := [
  visualElementProperties,
  viewProperties,
  layoutProperties,
  pageProperties,
  labelProperties,
  buttonProperties,
  inputViewProperties,
  entryProperties,
  searchBarProperties,
  boxViewProperties,
  activityIndicatorProperties,
  progressBarProperties,
  switchProperties,
  stackLayoutProperties,
  gridProperties,
  scrollViewProperties,
  tableViewProperties,
  tabbedPageProperties]

theorem layers_subset (kind : WidgetKind)
    : kind.layers ⊆ allLayers := by
  cases kind <;> simp [layers, allLayers]

theorem of_all_allLayers {q : PropertyDescriptor → Bool} (h : allLayers.all (·.all q) = true)
    {kind : WidgetKind} {property : PropertyDescriptor} (hproperty : property ∈ kind.properties)
    : q property = true := by
  rcases List.mem_flatten.1 hproperty with ⟨layer, hlayer, hmem⟩
  have hall := List.all_eq_true.1 h layer (kind.layers_subset hlayer)
  exact List.all_eq_true.1 hall property hmem

theorem all_allLayers_isPascal
    : allLayers.all (·.all (Text.isPascal ·.name)) = true := by
  decide

theorem all_properties_property? (kind : WidgetKind)
    : kind.properties.all (fun property => kind.property? property.name == some property)
        = true := by
  cases kind <;> decide

theorem all_typeChain_isPascal (kind : WidgetKind)
    : kind.typeChain.all Text.isPascal = true := by
  cases kind <;> decide

variable {kind : WidgetKind} {type : String} {property : PropertyDescriptor}

theorem isPascal_of_mem_properties (h : property ∈ kind.properties)
    : Text.isPascal property.name = true :=
  of_all_allLayers all_allLayers_isPascal h

theorem property?_of_mem_properties (h : property ∈ kind.properties)
    : kind.property? property.name = some property :=
  beq_iff_eq.1 (List.all_eq_true.1 kind.all_properties_property? property h)

theorem isPascal_of_mem_typeChain (h : type ∈ kind.typeChain)
    : Text.isPascal type = true :=
  List.all_eq_true.1 kind.all_typeChain_isPascal type h

end WidgetKind

theorem Widget.resolve?_vendorName {options : StyleOptions} {context : StyleContext}
    (hcontext : StyleContext.ofOptions options = .ok context) {w : Widget} {type : String}
    (htype : type ∈ w.kind.typeChain) {property : PropertyDescriptor}
    (hproperty : property ∈ w.kind.properties)
    : context.registry.resolve? w (context.registry.vendorName type property.name)
        = some property := by
  have hpascal := WidgetKind.isPascal_of_mem_properties hproperty
  have hfound := WidgetKind.property?_of_mem_properties hproperty
  rcases Text.exists_cons_of_isPascal (WidgetKind.isPascal_of_mem_typeChain htype) with
    ⟨c, cs, hcons, -, halphanum⟩
  have hhyphen : '-' ∉ type.toList := by
    intro hmem
    rw [hcons] at hmem
    exact Text.ne_hyphen_of_isAlphanum (halphanum _ hmem) rfl
  have hscope : w.kind.typeChain.any (Text.eqIgnoringCase · type) = true :=
    List.any_eq_true.2 ⟨type, htype, Text.eqIgnoringCase_iff.2 rfl⟩
  rcases StyleContext.eq_ofValid_of_ofOptions hcontext with ⟨rfl, hvalid⟩
  unfold StyleContext.ofValid Registry.resolve?
  rw [Registry.classify_vendorName (StyleContext.head?_vendorPrefix hvalid) hpascal]
  exact Registry.resolveVendor?_vendorRest hhyphen hscope hpascal hfound

end TreeStyle
