import Mathlib.Data.Set.Function
import TreeStyle.Proofs.Vendor

/-!
This module contains the proof that the hyphenated and the capitalised spelling of a compound name
undo each other, so that no two names of properties share a vendor name.
-/

namespace TreeStyle

namespace Text

def isSmall (c : Char) : Bool := c.isLower || c.isDigit

def isSegment (cs : List Char) : Bool := cs.head?.any Char.isLower && cs.all isSmall

/--
A name that consists of one or more segments, joined by single hyphens.
-/
inductive IsKebab : List Char → Prop where
  | segment {cs : List Char} (h : isSegment cs = true) : IsKebab cs
  | join {cs rest : List Char} (h : isSegment cs = true) (hrest : IsKebab rest) :
    IsKebab (cs ++ '-' :: rest)

theorem isSmall_of_isLower {c : Char} (h : c.isLower = true)
    : isSmall c = true := by
  unfold isSmall
  rw [h, Bool.true_or]

theorem isAlphanum_of_isSmall {c : Char} (h : isSmall c = true)
    : c.isAlphanum = true := by
  unfold isSmall at h
  unfold Char.isAlphanum Char.isAlpha
  rw [Bool.or_assoc, h, Bool.or_true]

theorem isSmall_eq {c : Char} (h : c.isAlphanum = true)
    : isSmall c = !c.isUpper :=
  of_isAlphanum (p := fun c => isSmall c = !c.isUpper) (by decide) h

theorem isUpper_of_isSmall {c : Char} (h : isSmall c = true)
    : c.isUpper = false := by
  rw [← Bool.not_eq_true', ← isSmall_eq (isAlphanum_of_isSmall h), h]

theorem toUpper_of_isLower {c : Char} (h : c.isLower = true)
    : c.toUpper.isAlphanum = true ∧ c.toUpper.isUpper = true ∧ c.toUpper.toLower = c :=
  of_isAlphanum (p := fun c => c.isLower = true →
    c.toUpper.isAlphanum = true ∧ c.toUpper.isUpper = true ∧ c.toUpper.toLower = c) (by decide)
    (isAlphanum_of_isSmall (isSmall_of_isLower h)) h

theorem isSegment_toLower {c : Char} (h : c.isAlphanum = true) (hupper : c.isUpper = true)
    : isSegment [c.toLower] = true :=
  of_isAlphanum (p := fun c => c.isUpper = true → isSegment [c.toLower] = true) (by decide) h
    hupper

theorem flatMap_continueKebab_of_isSmall {cs : List Char} (h : ∀ c ∈ cs, isSmall c = true)
    : cs.flatMap continueKebab = cs := by
  induction cs with
  | nil => rfl
  | cons c cs ih =>
    rw [List.forall_mem_cons] at h
    rw [List.flatMap_cons, ih h.2,
      continueKebab_of_not_isUpper (isAlphanum_of_isSmall h.1) (isUpper_of_isSmall h.1)]
    rfl

section Segment

variable {cs : List Char}

theorem exists_cons_of_isSegment (h : isSegment cs = true)
    : ∃ c rest, cs = c :: rest ∧ c.isLower = true ∧ ∀ a ∈ c :: rest, isSmall a = true := by
  unfold isSegment at h
  rw [Bool.and_eq_true, List.all_eq_true] at h
  cases cs with
  | nil => cases h.1
  | cons c rest => exact ⟨c, rest, rfl, h.1, h.2⟩

theorem isSegment_concat (h : isSegment cs = true) {c : Char} (hc : isSmall c = true)
    : isSegment (cs ++ [c]) = true := by
  rcases exists_cons_of_isSegment h with ⟨a, rest, rfl, hlower, hall⟩
  unfold isSegment
  rw [Bool.and_eq_true, List.all_eq_true]
  refine ⟨hlower, List.forall_mem_append.2 ⟨hall, ?_⟩⟩
  rwa [List.forall_mem_singleton]

theorem hyphen_notMem_of_isSegment (h : isSegment cs = true)
    : '-' ∉ cs := by
  rcases exists_cons_of_isSegment h with ⟨c, rest, rfl, -, hall⟩
  intro hmem
  exact ne_hyphen_of_isAlphanum (isAlphanum_of_isSmall (hall _ hmem)) rfl

theorem capitalize_of_isLower {c : Char} (h : c.isLower = true) (rest : List Char)
    : capitalize (c :: rest) = c.toUpper :: rest := by
  have halphanum := isAlphanum_of_isSmall (isSmall_of_isLower h)
  rw [capitalize, uppercase_of_lt (toNat_lt_of_isAlphanum halphanum)]
  rfl

theorem exists_capitalize_of_isSegment (h : isSegment cs = true)
    : ∃ c rest, capitalize cs = c :: rest ∧ c.isUpper = true
        ∧ ∀ a ∈ c :: rest, a.isAlphanum = true := by
  rcases exists_cons_of_isSegment h with ⟨c, rest, rfl, hlower, hall⟩
  rcases toUpper_of_isLower hlower with ⟨halphanum, hupper, -⟩
  refine ⟨c.toUpper, rest, capitalize_of_isLower hlower rest, hupper, ?_⟩
  rw [List.forall_mem_cons] at *
  exact ⟨halphanum, fun a ha => isAlphanum_of_isSmall (hall.2 a ha)⟩

theorem flatMap_capitalize (h : isSegment cs = true)
    : (capitalize cs).flatMap continueKebab = '-' :: cs := by
  rcases exists_cons_of_isSegment h with ⟨c, rest, rfl, hlower, hall⟩
  rcases toUpper_of_isLower hlower with ⟨halphanum, hupper, htoLower⟩
  rw [List.forall_mem_cons] at hall
  rw [capitalize_of_isLower hlower, List.flatMap_cons, continueKebab_of_isUpper halphanum hupper,
    htoLower, flatMap_continueKebab_of_isSmall hall.2]
  rfl

theorem pascalChars_of_isSegment (h : isSegment cs = true)
    : pascalChars cs = capitalize cs := by
  unfold pascalChars
  rw [splitAt_of_not_mem (hyphen_notMem_of_isSegment h), List.flatMap_singleton]

theorem pascalChars_append (h : isSegment cs = true) (rest : List Char)
    : pascalChars (cs ++ '-' :: rest) = capitalize cs ++ pascalChars rest := by
  unfold pascalChars
  rw [splitAt_append_separator (hyphen_notMem_of_isSegment h), List.flatMap_cons]

theorem flatMap_pascalChars (h : IsKebab cs)
    : (pascalChars cs).flatMap continueKebab = '-' :: cs := by
  induction h with
  | segment h => rw [pascalChars_of_isSegment h, flatMap_capitalize h]
  | join h hrest ih =>
    rw [pascalChars_append h, List.flatMap_append, flatMap_capitalize h, ih]
    rfl

theorem exists_pascalChars_of_isKebab (h : IsKebab cs)
    : ∃ c rest, pascalChars cs = c :: rest ∧ c.isUpper = true
        ∧ ∀ a ∈ c :: rest, a.isAlphanum = true := by
  induction h with
  | segment h =>
    rw [pascalChars_of_isSegment h]
    apply exists_capitalize_of_isSegment h
  | join h hrest ih =>
    rcases exists_capitalize_of_isSegment h with ⟨c, rest, hcons, hupper, hall⟩
    rcases ih with ⟨c', rest', hcons', -, hall'⟩
    refine ⟨c, rest ++ c' :: rest', ?_, hupper, ?_⟩
    . rw [pascalChars_append h, hcons, hcons', List.cons_append]
    . rw [← List.cons_append]
      apply List.forall_mem_append.2 ⟨hall, hall'⟩

theorem isKebab_append_flatMap {segment : List Char} (hsegment : isSegment segment = true)
    (h : ∀ c ∈ cs, c.isAlphanum = true)
    : IsKebab (segment ++ cs.flatMap continueKebab) := by
  -- A capital ends the segment so far, and all else goes on with it. So the segment is not fixed.
  induction cs generalizing segment with
  | nil =>
    rw [List.flatMap_nil, List.append_nil]
    apply IsKebab.segment hsegment
  | cons c cs ih =>
    rw [List.forall_mem_cons] at h
    rw [List.flatMap_cons]
    cases hupper : c.isUpper with
    | true =>
      rw [continueKebab_of_isUpper h.1 hupper]
      apply IsKebab.join hsegment
      apply ih (isSegment_toLower h.1 hupper) h.2
    | false =>
      have hsmall : isSmall c = true := by
        rw [isSmall_eq h.1, hupper]
        rfl
      rw [continueKebab_of_not_isUpper h.1 hupper, ← List.append_assoc]
      apply ih (isSegment_concat hsegment hsmall) h.2

end Segment

section Names

variable {name : String}

theorem isKebab_kebab (h : isPascal name = true)
    : IsKebab (kebab name).toList := by
  rcases exists_cons_of_isPascal h with ⟨c, cs, hname, hupper, hall⟩
  rw [List.forall_mem_cons] at hall
  unfold kebab
  rw [String.toList_ofList, hname, kebabChars, lowercase_of_lt (toNat_lt_of_isAlphanum hall.1)]
  exact isKebab_append_flatMap (isSegment_toLower hall.1 hupper) hall.2

theorem isPascal_pascal (h : IsKebab name.toList)
    : isPascal (pascal name) = true := by
  rcases exists_pascalChars_of_isKebab h with ⟨c, rest, hcons, hupper, hall⟩
  unfold isPascal pascal
  rw [String.toList_ofList, hcons, Bool.and_eq_true, List.all_eq_true]
  exact ⟨hupper, hall⟩

theorem kebab_pascal (h : IsKebab name.toList)
    : kebab (pascal name) = name := by
  have hkebab : '-' :: (kebab (pascal name)).toList = '-' :: name.toList := by
    rw [hyphen_kebab (isPascal_pascal h), ← flatMap_pascalChars h]
    unfold pascal
    rw [String.toList_ofList]
  exact String.toList_inj.1 (List.cons.inj hkebab).2

end Names

/--
The two spellings of a name undo each other: a name in capitalised segments has a hyphenated
spelling, which leads back to it, and the other way round. So neither way are two names spelled
alike, and no two properties have the same vendor name with a type.
-/
theorem kebab_pascal_inverse
    : (∀ name, isPascal name = true → IsKebab (kebab name).toList ∧ pascal (kebab name) = name)
      ∧ (∀ name, IsKebab name.toList →
          isPascal (pascal name) = true ∧ kebab (pascal name) = name)
      ∧ Set.InjOn kebab {name | isPascal name = true}
      ∧ Set.InjOn pascal {name | IsKebab name.toList}
      ∧ ∀ beginning type, Set.InjOn (vendorName beginning type) {name | isPascal name = true} := by
  have hleft : Set.LeftInvOn pascal kebab {name | isPascal name = true} :=
    fun _ hname => pascal_kebab hname
  have hright : Set.LeftInvOn kebab pascal {name | IsKebab name.toList} :=
    fun _ hname => kebab_pascal hname
  refine ⟨?_, ?_, hleft.injOn, hright.injOn, ?_⟩
  . intro name hname
    exact ⟨isKebab_kebab hname, pascal_kebab hname⟩
  . intro name hname
    exact ⟨isPascal_pascal hname, kebab_pascal hname⟩
  . intro beginning type name hname name' hname' heq
    unfold vendorName at heq
    exact hleft.injOn hname hname' ((String.append_right_inj _).1 heq)

theorem kebab_pascal_inverse_row3XY
    : pascal (kebab "Row3XY") = "Row3XY" ∧ kebab (pascal "row3-x-y") = "row3-x-y"
      ∧ kebab "Row3XY" ≠ kebab "Row3Xy" ∧ pascal "row3-x-y" ≠ pascal "row3-xy"
      ∧ vendorName "-xf-" "Grid" "Row3XY" ≠ vendorName "-xf-" "Grid" "Row3Xy" := by
  rcases kebab_pascal_inverse with ⟨hpascal, hkebab, hinjKebab, hinjPascal, hinjVendor⟩
  have hXY : isPascal "Row3XY" = true := by
    decide
  have hXy : isPascal "Row3Xy" = true := by
    decide
  have hrow : isSegment "row3".toList = true := by
    decide
  have hxHyphenY : IsKebab "row3-x-y".toList :=
    .join hrow (@IsKebab.join ['x'] _ rfl (.segment rfl))
  have hxy : IsKebab "row3-xy".toList :=
    .join hrow (.segment rfl)
  refine ⟨(hpascal _ hXY).2, (hkebab _ hxHyphenY).2, ?_, ?_, ?_⟩
  . rw [hinjKebab.ne_iff hXY hXy]
    decide
  . rw [hinjPascal.ne_iff hxHyphenY hxy]
    decide
  . rw [(hinjVendor "-xf-" "Grid").ne_iff hXY hXy]
    decide

end Text

end TreeStyle
