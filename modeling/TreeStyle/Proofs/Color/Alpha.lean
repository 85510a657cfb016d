import Mathlib.Data.Option.Basic
import TreeStyle.Color.Notation
import TreeStyle.Proofs.Number.Single

/-!
This module contains the proof that the alpha part of a color is a number from zero to one, whatever
the notation, unless it is written with the word for what is not a number.
-/

namespace TreeStyle

namespace Text

theorem stripFront?_trimStart_eq_some_iff {c : Char} (hc : isBlank c = false) {cs rest : List Char}
    : stripFront? [c] (trimStart cs) = some rest
        ↔ ∃ blanks, (∀ b ∈ blanks, isBlank b = true) ∧ cs = blanks ++ c :: rest := by
  rw [stripFront?_eq_some_iff]
  unfold trimStart
  constructor
  . intro h
    refine ⟨cs.takeWhile isBlank, List.all_eq_true.1 List.all_takeWhile, ?_⟩
    rw [← List.singleton_append, ← h, List.takeWhile_append_dropWhile]
  . rintro ⟨blanks, hblanks, rfl⟩
    rw [List.dropWhile_append_of_pos hblanks, List.dropWhile_cons_of_neg (by simp [hc])]
    rfl

end Text

namespace Color

section Arguments

variable {name : String} {cs : List Char} {arguments : List (List Char)}

def functions : List String := ["rgb", "rgba", "hsl", "hsla"]

theorem arguments?_eq_some_iff
    : arguments? name cs = some arguments
        ↔ ∃ blanks inner, (∀ b ∈ blanks, Text.isBlank b = true)
            ∧ cs = name.toList ++ (blanks ++ '(' :: (inner ++ [')']))
            ∧ (Text.splitAt ',' inner).map Text.trim = arguments := by
  unfold arguments?
  simp only [Option.bind_eq_bind, Option.bind_eq_some_iff, Option.pure_def, Option.some_inj,
    Text.stripFront?_eq_some_iff, Text.stripBack?_eq_some_iff,
    Text.stripFront?_trimStart_eq_some_iff (c := '(') (by decide)]
  constructor
  . rintro ⟨_, rfl, _, ⟨blanks, hblanks, rfl⟩, inner, rfl, h⟩
    exact ⟨blanks, inner, hblanks, rfl, h⟩
  . rintro ⟨blanks, inner, hblanks, rfl, h⟩
    exact ⟨_, rfl, _, ⟨blanks, hblanks, rfl⟩, inner, rfl, h⟩

theorem takeWhile_of_arguments? (hname : name ∈ functions)
    (h : arguments? name cs = some arguments)
    : cs.takeWhile (fun c => !Text.isBlank c && c != '(') = name.toList := by
  rcases arguments?_eq_some_iff.1 h with ⟨blanks, inner, hblanks, rfl, -⟩
  have hletters : functions.all (·.toList.all fun c => !Text.isBlank c && c != '(') = true := by
    decide
  rw [List.takeWhile_append_of_pos (List.all_eq_true.1 (List.all_eq_true.1 hletters name hname))]
  cases blanks with
  | nil => simp
  | cons b blanks => simp [hblanks b List.mem_cons_self]

theorem arguments?_unique {name' : String} {arguments' : List (List Char)}
    (hname : name ∈ functions) (hname' : name' ∈ functions)
    (h : arguments? name cs = some arguments) (h' : arguments? name' cs = some arguments')
    : arguments = arguments' := by
  have hnames := (takeWhile_of_arguments? hname h).symm.trans (takeWhile_of_arguments? hname' h')
  rw [String.toList_inj.1 hnames, h'] at h
  exact (Option.some.inj h).symm

end Arguments

section Parts

variable {cs : List Char} {x : Float32}

theorem isNaN_of_single? (h : single? cs = some x)
    : x.isNaN = true ↔ Numeral.IsNaN cs := by
  rcases Option.map_eq_some_iff.1 h with ⟨n, hn, rfl⟩
  rw [Numeral.isNaN_toFloat32_iff, ← Numeral.ofChars?_eq_nan_iff, hn, Option.some_inj]

theorem percent?_eq_some_iff
    : percent? cs = some x
        ↔ ∃ number, cs = number ++ ['%'] ∧ single? (Text.trim number) = some x := by
  unfold percent?
  simp only [Option.bind_eq_bind, Option.bind_eq_some_iff, Text.stripBack?_eq_some_iff]

theorem getLast?_map_of_isNaN (h : Numeral.IsNaN cs)
    : (cs.map Char.toLower).getLast? = some 'n' := by
  cases h with
  | unsigned h =>
    rw [h]
    rfl
  | plus h =>
    rw [List.map_cons, h]
    rfl
  | minus h =>
    rw [List.map_cons, h]
    rfl

theorem endsInPercent_of_isNaN (h : Numeral.IsNaN cs)
    : endsInPercent cs = false := by
  unfold endsInPercent
  rw [beq_eq_false_iff_ne]
  intro hlast
  have hword := getLast?_map_of_isNaN h
  rw [List.getLast?_map, hlast] at hword
  revert hword
  decide

theorem isFinite_hundred
    : (100.0 : Float32).isFinite = true ∧ ((100.0 : Float32) == 0.0) = false :=
  ⟨rfl, rfl⟩

theorem zero_le_one
    : (0.0 : Float32) ≤ 1.0 := by
  decide

def IsNaNAlpha (cs : List Char) : Prop :=
  Numeral.IsNaN cs ∨ ∃ number, cs = number ++ ['%'] ∧ Numeral.IsNaN (Text.trim number)

theorem exists_clamp_of_alpha? (h : alpha? cs = some x)
    : ∃ y, x = Single.clamp 0.0 1.0 y ∧ (y.isNaN = true ↔ IsNaNAlpha cs) := by
  unfold alpha? at h
  split at h
  . next hpercent =>
    rcases Option.map_eq_some_iff.1 h with ⟨p, hp, rfl⟩
    rcases percent?_eq_some_iff.1 hp with ⟨number, rfl, hnumber⟩
    refine ⟨_, rfl, ?_⟩
    rw [Single.isNaN_div isFinite_hundred.1 isFinite_hundred.2, isNaN_of_single? hnumber]
    constructor
    . intro hnan
      exact .inr ⟨number, rfl, hnan⟩
    . rintro (hnan | ⟨number', hnumber', hnan⟩)
      . rw [endsInPercent_of_isNaN hnan] at hpercent
        cases hpercent
      . rwa [(List.append_inj' hnumber' rfl).1]
  . next hplain =>
    rcases Option.map_eq_some_iff.1 h with ⟨y, hy, rfl⟩
    refine ⟨y, rfl, ?_⟩
    rw [isNaN_of_single? hy]
    constructor
    . intro hnan
      exact .inl hnan
    . rintro (hnan | ⟨number, rfl, -⟩)
      . exact hnan
      . simp [endsInPercent] at hplain

theorem bounds_of_alpha? (h : alpha? cs = some x)
    : (x.isNaN = true ↔ IsNaNAlpha cs) ∧ (x.isNaN = false → 0.0 ≤ x ∧ x ≤ 1.0) := by
  rcases exists_clamp_of_alpha? h with ⟨y, rfl, hnan⟩
  rw [Single.isNaN_clamp zero_le_one]
  exact ⟨hnan, Single.clamp_bounds zero_le_one⟩

theorem alphaOfByte_bounds (byte : UInt8)
    : (alphaOfByte byte).isNaN = false ∧ 0.0 ≤ alphaOfByte byte ∧ alphaOfByte byte ≤ 1.0 := by
  have hall : ∀ n < 256, 0.0 ≤ alphaOfByte (UInt8.ofNat n) ∧ alphaOfByte (UInt8.ofNat n) ≤ 1.0 := by
    decide +kernel
  have hbyte := hall byte.toNat byte.toNat_lt
  rw [UInt8.ofNat_toNat] at hbyte
  exact ⟨(Single.isNaN_of_le hbyte.1).2, hbyte⟩

theorem one_eq_alphaOfByte
    : (1.0 : Float32) = alphaOfByte 255 := by
  decide +kernel

theorem zero_eq_alphaOfByte
    : (0.0 : Float32) = alphaOfByte 0 := by
  decide +kernel

theorem bounds_of_withAlpha? {arguments : List (List Char)} {p q r : List Char}
    (h : withAlpha? arguments = some (p, q, r, x))
    : (x.isNaN = true ↔ ∃ p q r alpha, arguments = [p, q, r, alpha] ∧ IsNaNAlpha alpha)
      ∧ (x.isNaN = false → 0.0 ≤ x ∧ x ≤ 1.0) := by
  unfold withAlpha? at h
  split at h
  . cases h
    have hbounds := alphaOfByte_bounds 255
    rw [← one_eq_alphaOfByte] at hbounds
    refine ⟨?_, fun _ => hbounds.2⟩
    rw [hbounds.1]
    simp
  . next alpha =>
    rcases Option.map_eq_some_iff.1 h with ⟨y, hy, heq⟩
    cases heq
    have hbounds := bounds_of_alpha? hy
    refine ⟨?_, hbounds.2⟩
    rw [hbounds.1]
    constructor
    . intro hnan
      exact ⟨p, q, r, alpha, rfl, hnan⟩
    . rintro ⟨p', q', r', alpha', heq, hnan⟩
      cases heq
      exact hnan
  . cases h

end Parts

section Notations

variable {cs : List Char} {color : Color}

theorem alpha_ofHsl (hue saturation lightness alpha : Float32)
    : (ofHsl hue saturation lightness alpha).alpha = alpha := by
  unfold ofHsl
  dsimp only
  split
  . rfl
  . rfl

theorem exists_withAlpha?_of_ofRgbArguments? {arguments : List (List Char)}
    (h : ofRgbArguments? arguments = some color)
    : ∃ p q r, withAlpha? arguments = some (p, q, r, color.alpha) := by
  unfold ofRgbArguments? at h
  simp only [Option.bind_eq_bind, Option.bind_eq_some_iff, Option.pure_def,
    Option.some_inj] at h
  rcases h with ⟨⟨p, q, r, alpha⟩, hparts, _, -, _, -, _, -, rfl⟩
  exact ⟨p, q, r, hparts⟩

theorem exists_withAlpha?_of_ofHslArguments? {arguments : List (List Char)}
    (h : ofHslArguments? arguments = some color)
    : ∃ p q r, withAlpha? arguments = some (p, q, r, color.alpha) := by
  unfold ofHslArguments? at h
  simp only [Option.bind_eq_bind, Option.bind_eq_some_iff, Option.pure_def,
    Option.some_inj] at h
  rcases h with ⟨⟨p, q, r, alpha⟩, hparts, _, -, _, -, _, -, rfl⟩
  rw [alpha_ofHsl]
  exact ⟨p, q, r, hparts⟩

theorem exists_alphaOfByte_solid (r g b : UInt8)
    : ∃ byte, (solid r g b).alpha = alphaOfByte byte :=
  ⟨255, one_eq_alphaOfByte⟩

theorem exists_alphaOfByte_of_ofHex? (h : ofHex? cs = some color)
    : ∃ byte, color.alpha = alphaOfByte byte := by
  unfold ofHex? at h
  rcases Option.bind_eq_some_iff.1 h with ⟨digits, -, h⟩
  unfold ofHexDigits? at h
  split at h
  . cases h
    apply exists_alphaOfByte_solid
  . cases h
    exact ⟨_, rfl⟩
  . cases h
    apply exists_alphaOfByte_solid
  . cases h
    exact ⟨_, rfl⟩
  . cases h

theorem exists_alphaOfByte_of_named? {name : String} (h : named? name = some color)
    : ∃ byte, color.alpha = alphaOfByte byte := by
  unfold named? at h
  dsimp only at h
  split at h
  . cases h
    exact ⟨0, zero_eq_alphaOfByte⟩
  . rcases Option.map_eq_some_iff.1 h with ⟨rgb, -, rfl⟩
    apply exists_alphaOfByte_solid

theorem alpha_of_parse?_cases {text : String} (h : parse? text = some color)
    (hcs : (Text.trim text.toList).map Char.toLower = cs)
    : (∃ byte, color.alpha = alphaOfByte byte) ∧ (∀ name ∈ functions, arguments? name cs = none)
      ∨ ∃ name ∈ functions, ∃ arguments p q r, arguments? name cs = some arguments
          ∧ withAlpha? arguments = some (p, q, r, color.alpha) := by
  unfold parse? at h
  split at h
  . next digits htrim =>
    refine .inl ⟨exists_alphaOfByte_of_ofHex? h, ?_⟩
    rw [← hcs, htrim]
    simp only [functions, List.forall_mem_cons, List.not_mem_nil]
    exact ⟨rfl, rfl, rfl, rfl, by simp⟩
  . dsimp only at h
    rw [hcs] at h
    split at h
    . next arguments harguments =>
      rcases exists_withAlpha?_of_ofRgbArguments? h with ⟨p, q, r, hparts⟩
      rcases (Option.orElse_eq_some _ _ _).1 harguments with hname | ⟨-, hname⟩
      . exact .inr ⟨"rgba", by decide, arguments, p, q, r, hname, hparts⟩
      . exact .inr ⟨"rgb", by decide, arguments, p, q, r, hname, hparts⟩
    . next hrgb =>
      split at h
      . next arguments harguments =>
        rcases exists_withAlpha?_of_ofHslArguments? h with ⟨p, q, r, hparts⟩
        rcases (Option.orElse_eq_some _ _ _).1 harguments with hname | ⟨-, hname⟩
        . exact .inr ⟨"hsla", by decide, arguments, p, q, r, hname, hparts⟩
        . exact .inr ⟨"hsl", by decide, arguments, p, q, r, hname, hparts⟩
      . next hhsl =>
        refine .inl ⟨exists_alphaOfByte_of_named? h, ?_⟩
        simp only [functions, List.forall_mem_cons, List.not_mem_nil]
        rw [Option.orElse_eq_none] at hrgb hhsl
        exact ⟨hrgb.2, hrgb.1, hhsl.2, hhsl.1, by simp⟩

def HasNaNAlpha (text : String) : Prop :=
  ∃ name ∈ functions, ∃ blanks p q r alpha : List Char,
    (Text.trim text.toList).map Char.toLower
        = name.toList
          ++ (blanks ++ '(' :: (p ++ ',' :: (q ++ ',' :: (r ++ ',' :: alpha)) ++ [')']))
      ∧ (∀ b ∈ blanks, Text.isBlank b = true)
      ∧ (∀ part ∈ [p, q, r, alpha], ',' ∉ part)
      ∧ IsNaNAlpha (Text.trim alpha)

theorem hasNaNAlpha_iff {text : String} (hcs : (Text.trim text.toList).map Char.toLower = cs)
    : HasNaNAlpha text
        ↔ ∃ name ∈ functions, ∃ p q r alpha, arguments? name cs = some [p, q, r, alpha]
            ∧ IsNaNAlpha alpha := by
  unfold HasNaNAlpha
  rw [hcs]
  constructor
  . rintro ⟨name, hname, blanks, p, q, r, alpha, hchars, hblanks, hcommas, halpha⟩
    simp only [List.forall_mem_cons] at hcommas
    refine ⟨name, hname, Text.trim p, Text.trim q, Text.trim r, Text.trim alpha, ?_, halpha⟩
    rw [arguments?_eq_some_iff]
    refine ⟨blanks, _, hblanks, hchars, ?_⟩
    rw [Text.splitAt_append_separator hcommas.1, Text.splitAt_append_separator hcommas.2.1,
      Text.splitAt_append_separator hcommas.2.2.1, Text.splitAt_of_not_mem hcommas.2.2.2.1]
    rfl
  . rintro ⟨name, hname, p', q', r', alpha', harguments, halpha⟩
    rcases arguments?_eq_some_iff.1 harguments with ⟨blanks, inner, hblanks, hchars, hsplit⟩
    simp only [List.map_eq_cons_iff, List.map_eq_nil_iff] at hsplit
    rcases hsplit with
      ⟨p, _, hsplit, rfl, q, _, rfl, rfl, r, _, rfl, rfl, alpha, _, rfl, rfl, rfl⟩
    rcases Text.splitAt_eq_cons_cons_iff.1 hsplit with ⟨_, rfl, hp, hsplit⟩
    rcases Text.splitAt_eq_cons_cons_iff.1 hsplit with ⟨_, rfl, hq, hsplit⟩
    rcases Text.splitAt_eq_cons_cons_iff.1 hsplit with ⟨_, rfl, hr, hsplit⟩
    rcases Text.splitAt_eq_singleton_iff.1 hsplit with ⟨rfl, hcomma⟩
    refine ⟨name, hname, blanks, p, q, r, _, hchars, hblanks, ?_, halpha⟩
    simp only [List.forall_mem_cons, List.not_mem_nil]
    exact ⟨hp, hq, hr, hcomma, by simp⟩

/--
The alpha part of every color that is read is a number from zero to one, unless it is written with
the word for what is not a number. Then it is not a number.
-/
theorem parse?_alpha_bounds {text : String} (h : parse? text = some color)
    : (HasNaNAlpha text → color.alpha.isNaN = true)
      ∧ (¬ HasNaNAlpha text →
          color.alpha.isNaN = false ∧ 0.0 ≤ color.alpha ∧ color.alpha ≤ 1.0) := by
  rw [hasNaNAlpha_iff rfl]
  rcases alpha_of_parse?_cases h rfl with
    ⟨⟨byte, hbyte⟩, hnone⟩ | ⟨name, hname, arguments, p, q, r, harguments, hparts⟩
  . constructor
    . rintro ⟨name, hname, p, q, r, alpha, harguments, -⟩
      rw [hnone name hname] at harguments
      cases harguments
    . intro _
      rw [hbyte]
      apply alphaOfByte_bounds
  . have hbounds := bounds_of_withAlpha? hparts
    constructor
    . rintro ⟨name', hname', p', q', r', alpha, harguments', hnan⟩
      have hsame := arguments?_unique hname hname' harguments harguments'
      exact hbounds.1.2 ⟨p', q', r', alpha, hsame, hnan⟩
    . intro hnan
      have hnumber : color.alpha.isNaN = false := by
        rw [Bool.eq_false_iff]
        intro hcolor
        rcases hbounds.1.1 hcolor with ⟨p', q', r', alpha, rfl, halpha⟩
        exact hnan ⟨name, hname, p', q', r', alpha, harguments, halpha⟩
      exact ⟨hnumber, hbounds.2 hnumber⟩

theorem parse?_alpha_bounds_halfBlue
    : ∃ color, parse? " RGBA(0, 0, 255, 50%) " = some color
        ∧ color.alpha.isNaN = false ∧ 0.0 ≤ color.alpha ∧ color.alpha ≤ 1.0 := by
  have hparse : parse? " RGBA(0, 0, 255, 50%) " = some ⟨0, 0, 255, 0.5⟩ := by
    decide +kernel
  refine ⟨_, hparse, (parse?_alpha_bounds hparse).2 ?_⟩
  rw [hasNaNAlpha_iff rfl]
  rintro ⟨name, hname, p, q, r, alpha, harguments, hnan⟩
  have hhalf : arguments? "rgba" ((Text.trim " RGBA(0, 0, 255, 50%) ".toList).map Char.toLower)
      = some ["0".toList, "0".toList, "255".toList, "50%".toList] := by
    decide
  cases arguments?_unique hname (by decide) harguments hhalf
  have halpha : alpha? "50%".toList = some 0.5 := by
    decide +kernel
  apply absurd ((bounds_of_alpha? halpha).1.2 hnan)
  decide

theorem rgba_nan_not_bounded
    : ∃ color, parse? "rgba(0,0,0,nan)" = some color
        ∧ color.alpha.isNaN = true ∧ ¬ 0.0 ≤ color.alpha ∧ ¬ color.alpha ≤ 1.0 := by
  have hparse : parse? "rgba(0,0,0,nan)" = some ⟨0, 0, 0, 0.0 / 0.0⟩ := by
    decide +kernel
  exact ⟨_, hparse, rfl, by decide, by decide⟩

end Notations

end Color

end TreeStyle
