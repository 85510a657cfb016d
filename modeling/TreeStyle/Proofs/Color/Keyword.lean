import Mathlib.Data.List.Nodup
import TreeStyle.Proofs.Color.Alpha
import TreeStyle.Proofs.Vendor

/-!
This module contains the proof that searching the color keywords by halving finds what going through
all of them finds. A text that is a keyword is read as its color, and not as a function.
-/

namespace TreeStyle.Color

section Search

variable {α : Type} {table : Array (String × α)} {name : String} {value : α}

def Sorted (table : Array (String × α)) : Prop := table.toList.Pairwise (·.1 < ·.1)

namespace Sorted

variable (h : Sorted table) {i j : Nat} {entry entry' : String × α}
  (hi : table[i]? = some entry) (hj : table[j]? = some entry')

include h hi hj

theorem name_lt_of_lt (hlt : i < j)
    : entry.1 < entry'.1 := by
  rw [← Array.getElem?_toList, List.getElem?_eq_some_iff] at hi hj
  rcases hi with ⟨hi, rfl⟩
  rcases hj with ⟨hj, rfl⟩
  exact List.pairwise_iff_getElem.1 h i j hi hj hlt

theorem lt_of_name_lt (hlt : entry.1 < entry'.1)
    : i < j := by
  rcases Nat.lt_trichotomy i j with hij | rfl | hij
  . exact hij
  . cases hi.symm.trans hj
    exact absurd hlt (String.lt_irrefl entry.1)
  . exact absurd hlt (String.lt_asymm (h.name_lt_of_lt hj hi hij))

theorem eq_of_name_eq (heq : entry.1 = entry'.1)
    : i = j := by
  rcases Nat.lt_trichotomy i j with hij | hij | hij
  . exact absurd heq (String.ne_of_lt (h.name_lt_of_lt hi hj hij))
  . exact hij
  . exact absurd heq.symm (String.ne_of_lt (h.name_lt_of_lt hj hi hij))

end Sorted

theorem search_eq_some_iff_between (h : Sorted table) {low high : Nat} (hhigh : high ≤ table.size)
    : search table name low high = some value
        ↔ ∃ i, low ≤ i ∧ i < high ∧ table[i]? = some (name, value) := by
  -- By the order of the table, the name does not stand in the half that is given up.
  fun_induction search table name low high with
  | case1 low high hlow middle hnone =>
    rw [Array.getElem?_eq_none_iff] at hnone
    omega
  | case2 low high hlow middle found hmiddle =>
    constructor
    . rintro ⟨⟩
      exact ⟨middle, by omega, by omega, hmiddle⟩
    . rintro ⟨i, -, -, hi⟩
      cases h.eq_of_name_eq hi hmiddle rfl
      cases hi.symm.trans hmiddle
      rfl
  | case3 low high hlow middle key found hmiddle hne hlt ih =>
    rw [ih (by omega)]
    constructor
    . rintro ⟨i, hle, hi, hentry⟩
      exact ⟨i, hle, by omega, hentry⟩
    . rintro ⟨i, hle, -, hentry⟩
      exact ⟨i, hle, h.lt_of_name_lt hentry hmiddle hlt, hentry⟩
  | case4 low high hlow middle key found hmiddle hne hnlt ih =>
    have hlt : key < name := by
      rcases Std.lt_trichotomy key name with hlt | heq | hlt
      . exact hlt
      . exact absurd heq.symm hne
      . exact absurd hlt hnlt
    rw [ih hhigh]
    constructor
    . rintro ⟨i, hle, hi, hentry⟩
      exact ⟨i, by omega, hi, hentry⟩
    . rintro ⟨i, -, hi, hentry⟩
      exact ⟨i, h.lt_of_name_lt hmiddle hentry hlt, hi, hentry⟩
  | case5 low high hlow =>
    constructor
    . intro hnone
      cases hnone
    . rintro ⟨i, hle, hi, -⟩
      omega

theorem search_eq_some_iff (h : Sorted table)
    : search table name 0 table.size = some value ↔ (name, value) ∈ table.toList := by
  rw [search_eq_some_iff_between h (Nat.le_refl _), List.mem_iff_getElem?]
  simp only [Array.getElem?_toList]
  constructor
  . rintro ⟨i, -, -, hentry⟩
    exact ⟨i, hentry⟩
  . rintro ⟨i, hentry⟩
    exact ⟨i, Nat.zero_le i, (Array.getElem?_eq_some_iff.1 hentry).1, hentry⟩

end Search

def palette : List (String × Color) :=
  ("transparent", transparent) :: keywords.toList.map fun (name, rgb) => (name, ofRgb rgb)

theorem keywords_checked
    : keywords.toList.IsChain (·.1 < ·.1)
      ∧ keywords.toList.all (fun entry =>
          entry.1 != "transparent" && entry.1.toList.all Char.isLower) = true := by
  -- Taking texts apart is slow in the kernel, so one run over the table checks all that is needed.
  decide +kernel

theorem sorted_keywords
    : Sorted keywords := by
  have : IsTrans (String × Nat) (·.1 < ·.1) := ⟨fun _ _ _ => String.lt_trans⟩
  exact List.isChain_iff_pairwise.1 keywords_checked.1

theorem ne_transparent_of_mem_keywords {entry : String × Nat} (h : entry ∈ keywords.toList)
    : entry.1 ≠ "transparent" := by
  have hentry := List.all_eq_true.1 keywords_checked.2 entry h
  rw [Bool.and_eq_true, bne_iff_ne] at hentry
  exact hentry.1

theorem isLower_of_mem_keywords {entry : String × Nat} (h : entry ∈ keywords.toList)
    : entry.1.toList.all Char.isLower = true := by
  have hentry := List.all_eq_true.1 keywords_checked.2 entry h
  rw [Bool.and_eq_true] at hentry
  exact hentry.2

section Palette

variable {text name : String} {color : Color}

theorem mem_palette_iff
    : (name, color) ∈ palette
        ↔ name = "transparent" ∧ color = transparent
          ∨ ∃ rgb, (name, rgb) ∈ keywords.toList ∧ ofRgb rgb = color := by
  unfold palette
  rw [List.mem_cons, Prod.mk.injEq, List.mem_map]
  constructor
  . rintro (h | ⟨⟨name', rgb⟩, h, heq⟩)
    . exact .inl h
    . cases heq
      exact .inr ⟨rgb, h, rfl⟩
  . rintro (h | ⟨rgb, h, rfl⟩)
    . exact .inl h
    . exact .inr ⟨(name, rgb), h, rfl⟩

theorem isLower_of_mem_palette (h : (name, color) ∈ palette)
    : name.toList.all Char.isLower = true := by
  rcases mem_palette_iff.1 h with ⟨rfl, -⟩ | ⟨rgb, h, -⟩
  . decide
  . exact isLower_of_mem_keywords h

theorem nodup_palette
    : (palette.map (·.1)).Nodup := by
  unfold palette
  rw [List.map_cons, List.map_map, List.nodup_cons]
  constructor
  . intro hmem
    rcases List.mem_map.1 hmem with ⟨entry, hentry, heq⟩
    exact ne_transparent_of_mem_keywords hentry heq
  . apply List.pairwise_map.2
    apply List.Pairwise.imp ?_ sorted_keywords
    intro entry entry' hlt
    exact String.ne_of_lt hlt

theorem eqIgnoringCase_of_mem_palette (h : (name, color) ∈ palette)
    : Text.eqIgnoringCase name text = (name == Text.asciiLower text) := by
  have hsmall : ∀ c ∈ name.toList, c.toLower = c := by
    intro c hc
    apply toLower_of_small
    have hlower := List.all_eq_true.1 (isLower_of_mem_palette h) c hc
    have hbounds := (Bool.and_eq_true _ _).mp hlower
    exact UInt32.le_iff_toNat_le.1 (of_decide_eq_true hbounds.1)
  have hname : Text.asciiLower name = name := by
    unfold Text.asciiLower
    rw [List.map_congr_left hsmall, List.map_id', String.ofList_toList]
  unfold Text.eqIgnoringCase
  rw [hname]

theorem named?_eq_some_iff
    : named? text = some color ↔ (Text.asciiLower text, color) ∈ palette := by
  unfold named?
  rw [mem_palette_iff]
  dsimp only
  split
  . next htransparent =>
    constructor
    . rintro ⟨⟩
      exact .inl ⟨htransparent, rfl⟩
    . rintro (⟨-, rfl⟩ | ⟨rgb, h, -⟩)
      . rfl
      . exact absurd htransparent (ne_transparent_of_mem_keywords h)
  . next htransparent =>
    rw [Option.map_eq_some_iff]
    simp only [search_eq_some_iff sorted_keywords]
    constructor
    . exact .inr
    . rintro (⟨h, -⟩ | h)
      . exact absurd h htransparent
      . exact h

theorem named?_of_eqIgnoringCase (h : (name, color) ∈ palette)
    (hname : Text.eqIgnoringCase name text = true)
    : named? text = some color := by
  rw [eqIgnoringCase_of_mem_palette h, beq_iff_eq] at hname
  rw [named?_eq_some_iff, ← hname]
  exact h

theorem eqIgnoringCase_of_named? (h : named? text = some color)
    : ∃ name, (name, color) ∈ palette ∧ Text.eqIgnoringCase name text = true := by
  have hmem := named?_eq_some_iff.1 h
  refine ⟨Text.asciiLower text, hmem, ?_⟩
  rw [eqIgnoringCase_of_mem_palette hmem, beq_self_eq_true]

theorem named?_eq_none_iff
    : named? text = none ↔ ∀ entry ∈ palette, Text.eqIgnoringCase entry.1 text = false := by
  rw [Option.eq_none_iff_forall_ne_some]
  constructor
  . intro hnone entry hentry
    rw [Bool.eq_false_iff]
    intro hname
    exact hnone entry.2 (named?_of_eqIgnoringCase hentry hname)
  . intro hall color hsome
    rcases eqIgnoringCase_of_named? hsome with ⟨name, hmem, hname⟩
    rw [hall _ hmem] at hname
    cases hname

theorem named?_eq_find? (text : String)
    : named? text = (palette.find? fun entry => Text.eqIgnoringCase entry.1 text).map (·.2) := by
  cases hfind : palette.find? fun entry => Text.eqIgnoringCase entry.1 text with
  | none =>
    rw [Option.map_none, named?_eq_none_iff]
    intro entry hentry
    exact Bool.eq_false_iff.2 (List.find?_eq_none.1 hfind entry hentry)
  | some entry =>
    have hname := List.find?_some hfind
    exact named?_of_eqIgnoringCase (List.mem_of_find?_eq_some hfind) hname

theorem countP_palette_le_one (text : String)
    : palette.countP (fun entry => Text.eqIgnoringCase entry.1 text) ≤ 1 := by
  have hcount : palette.countP (fun entry => Text.eqIgnoringCase entry.1 text)
      = (palette.map (·.1)).count (Text.asciiLower text) := by
    rw [List.count, List.countP_map]
    apply List.countP_congr
    intro entry hentry
    rw [eqIgnoringCase_of_mem_palette hentry]
    rfl
  rw [hcount]
  exact List.nodup_iff_count_le_one.1 nodup_palette _

end Palette

section Parsing

variable {text before after : String}

theorem arguments?_eq_none {name : String} {cs : List Char} (h : ')' ∉ cs)
    : arguments? name cs = none := by
  rw [Option.eq_none_iff_forall_ne_some]
  intro arguments harguments
  rcases arguments?_eq_some_iff.1 harguments with ⟨blanks, inner, -, rfl, -⟩
  simp at h

theorem named?_asciiLower (text : String)
    : named? (Text.asciiLower text) = named? text := by
  unfold named?
  rw [asciiLower_asciiLower]

theorem parse?_of_isAlpha (htext : ∀ c ∈ text.toList, c.isAlpha = true)
    (hbefore : ∀ c ∈ before.toList, Text.isBlank c = true)
    (hafter : ∀ c ∈ after.toList, Text.isBlank c = true)
    : parse? (before ++ text ++ after) = named? text := by
  have hblank : ∀ c ∈ text.toList, Text.isBlank c = false := by
    intro c hc
    apply Text.isBlank_of_isAlphanum
    unfold Char.isAlphanum
    rw [htext c hc, Bool.true_or]
  have htrim : Text.trim (before ++ text ++ after).toList = text.toList := by
    rw [String.toList_append, String.toList_append, Text.trim_append hbefore hafter]
    apply Text.trim_of_notBlank
    . intro c hc
      exact hblank c (List.mem_of_mem_head? hc)
    . intro c hc
      exact hblank c (List.mem_of_mem_getLast? hc)
  have hparenthesis : ')' ∉ text.toList.map Char.toLower := by
    intro hmem
    rcases List.mem_map.1 hmem with ⟨c, hc, heq⟩
    rw [← beq_iff_eq, toLower_beq rfl, beq_iff_eq] at heq
    subst heq
    cases htext _ hc
  unfold parse?
  rw [htrim]
  split
  . next digits hhash =>
    rw [hhash] at htext
    cases htext '#' List.mem_cons_self
  . simp only [arguments?_eq_none hparenthesis]
    exact named?_asciiLower text

theorem isAlpha_of_named? {color : Color} (h : named? text = some color)
    : ∀ c ∈ text.toList, c.isAlpha = true := by
  have hlower := isLower_of_mem_palette (named?_eq_some_iff.1 h)
  rw [Text.toList_asciiLower, List.all_map, List.all_eq_true] at hlower
  intro c hc
  rcases toLower_eq_or_isAlpha c with heq | halpha
  . have hsmall : c.toLower.isLower = true := hlower c hc
    unfold Char.isAlpha
    rw [← heq, hsmall, Bool.or_true]
  . exact halpha.1

end Parsing

/--
Searching by halving finds the one keyword that a text is, in any case. Around it, white space is
allowed where colors are read, and no keyword is taken for a function.
-/
theorem named?_searches_palette (text : String)
    : named? text = (palette.find? fun entry => Text.eqIgnoringCase entry.1 text).map (·.2)
      ∧ (named? text = none ↔ ∀ entry ∈ palette, Text.eqIgnoringCase entry.1 text = false)
      ∧ palette.countP (fun entry => Text.eqIgnoringCase entry.1 text) ≤ 1
      ∧ ∀ color, named? text = some color → ∀ before after : String,
          (∀ c ∈ before.toList, Text.isBlank c = true) →
          (∀ c ∈ after.toList, Text.isBlank c = true) →
            parse? (before ++ text ++ after) = some color := by
  refine ⟨named?_eq_find? text, named?_eq_none_iff, countP_palette_le_one text, ?_⟩
  intro color hcolor before after hbefore hafter
  rw [parse?_of_isAlpha (isAlpha_of_named? hcolor) hbefore hafter, hcolor]

theorem named?_searches_palette_rebeccaPurple
    : named? "RebeccaPurple" = some (solid 0x66 0x33 0x99)
      ∧ parse? ("\n " ++ "RebeccaPurple" ++ "\u3000") = some (solid 0x66 0x33 0x99) := by
  have hcolor : named? "RebeccaPurple" = some (solid 0x66 0x33 0x99) := by
    rw [named?_eq_some_iff, mem_palette_iff]
    right
    exact ⟨0x663399, by decide +kernel, rfl⟩
  refine ⟨hcolor, (named?_searches_palette "RebeccaPurple").2.2.2 _ hcolor _ _ ?_ ?_⟩
  . simp [Text.isBlank]
  . simp [Text.isBlank]

end TreeStyle.Color
