import Mathlib.Data.List.Basic
import TreeStyle.Color.Notation

/-!
This module contains the proof which texts behind `#` are colors, and of which parts: a part has two
hexadecimal digits, and in the short forms one digit that stands for two of its kind.
-/

namespace TreeStyle.Color

def hexDigits : List Char := "0123456789abcdef".toList

def IsHexDigit (c : Char) : Prop := c.toLower ∈ hexDigits

instance (c : Char) : Decidable (IsHexDigit c) := inferInstanceAs (Decidable (_ ∈ _))

def hexValue (c : Char) : Nat := hexDigits.idxOf c.toLower

def pairValues : List Nat → List Nat
  | high :: low :: digits => (16 * high + low) :: pairValues digits
  | _ => []

def doubled (s : String) : String := String.ofList (s.toList.flatMap fun c => [c, c])

theorem hexValue_lt {c : Char} (h : IsHexDigit c)
    : hexValue c < 16 :=
  List.idxOf_lt_length_of_mem h

theorem toNat_lt_of_isHexDigit {c : Char} (h : IsHexDigit c)
    : c.toNat < 0x80 := by
  have hall : hexDigits.all (·.toNat < 0x80) = true := by
    decide
  have hlower : c.toLower.toNat < 0x80 := by
    simpa using List.all_eq_true.1 hall c.toLower h
  unfold Char.toLower at hlower
  split at hlower
  . next hcapital =>
    have : c.toNat ≤ 90 := by
      simpa [UInt32.le_iff_toNat_le] using hcapital.2
    omega
  . exact hlower

theorem toNat_lt_of_digit? {c : Char} {n : Nat} (h : Text.digit? c = some n)
    : c.toNat < 0x80 := by
  have hle {b d : Char} (hd : d.toNat < 0x80) (hc : (b ≤ c && c ≤ d) = true) : c.toNat < 0x80 := by
    rw [Bool.and_eq_true, decide_eq_true_iff, decide_eq_true_iff] at hc
    have : c.toNat ≤ d.toNat := hc.2
    omega
  unfold Text.digit? at h
  split at h
  . next hdigit =>
    have : c.toNat ≤ 57 := by
      simpa [Char.isDigit, UInt32.le_iff_toNat_le] using (Bool.and_eq_true_iff.1 hdigit).2
    omega
  . split at h
    . next hsmall => exact hle (by decide) hsmall
    . split at h
      . next hcapital => exact hle (by decide) hcapital
      . cases h

theorem digit?_eq (c : Char)
    : Text.digit? c = if IsHexDigit c then some (hexValue c) else none := by
  by_cases hc : c.toNat < 0x80
  . have hall : ∀ n < 0x80, Text.digit? (Char.ofNat n)
        = if IsHexDigit (Char.ofNat n) then some (hexValue (Char.ofNat n)) else none := by
      decide +kernel
    have hofNat := hall c.toNat hc
    rwa [Char.ofNat_toNat] at hofNat
  . rw [if_neg fun hdigit => hc (toNat_lt_of_isHexDigit hdigit)]
    cases hdigit : Text.digit? c with
    | none => rfl
    | some n => exact absurd (toNat_lt_of_digit? hdigit) hc

theorem mapM_digit?_eq_some_iff {cs : List Char} {digits : List Nat}
    : cs.mapM Text.digit? = some digits
        ↔ (∀ c ∈ cs, IsHexDigit c) ∧ cs.map hexValue = digits := by
  induction cs generalizing digits with
  | nil => simp
  | cons c cs ih =>
    rw [List.mapM_cons, List.forall_mem_cons, List.map_cons, digit?_eq]
    by_cases hc : IsHexDigit c
    . simp [hc, ih, Option.bind_eq_some_iff, and_assoc]
    . simp [hc]

theorem ofHex?_eq_some_iff {cs : List Char} {color : Color}
    : ofHex? cs = some color
        ↔ (∀ c ∈ cs, IsHexDigit c) ∧ ofHexDigits? (cs.map hexValue) = some color := by
  unfold ofHex?
  rw [Option.bind_eq_bind, Option.bind_eq_some_iff]
  simp only [mapM_digit?_eq_some_iff]
  constructor
  . rintro ⟨_, ⟨hcs, rfl⟩, h⟩
    exact ⟨hcs, h⟩
  . rintro ⟨hcs, h⟩
    exact ⟨_, ⟨hcs, rfl⟩, h⟩

theorem exists_ofHexDigits?_iff {digits : List Nat}
    : (∃ color, ofHexDigits? digits = some color) ↔ digits.length ∈ [3, 4, 6, 8] := by
  match digits with
  | [] => simp [ofHexDigits?]
  | [_] => simp [ofHexDigits?]
  | [_, _] => simp [ofHexDigits?]
  | [_, _, _] => simp [ofHexDigits?]
  | [_, _, _, _] => simp [ofHexDigits?]
  | [_, _, _, _, _] => simp [ofHexDigits?]
  | [_, _, _, _, _, _] => simp [ofHexDigits?]
  | [_, _, _, _, _, _, _] => simp [ofHexDigits?]
  | [_, _, _, _, _, _, _, _] => simp [ofHexDigits?]
  | _ :: _ :: _ :: _ :: _ :: _ :: _ :: _ :: _ :: _ => simp [ofHexDigits?]

theorem byteOfDigit_eq (digit : Nat)
    : byteOfDigit digit = byteOfDigits digit digit := by
  unfold byteOfDigit byteOfDigits
  congr 1
  omega

theorem ofHexDigits?_doubled {digits : List Nat} (h : digits.length = 3 ∨ digits.length = 4)
    : ofHexDigits? (digits.flatMap fun digit => [digit, digit]) = ofHexDigits? digits := by
  match digits, h with
  | [r, g, b], _ =>
    unfold ofHexDigits?
    simp only [byteOfDigit_eq]
    rfl
  | [r, g, b, a], _ =>
    unfold ofHexDigits?
    simp only [byteOfDigit_eq]
    rfl

theorem toNat_byteOfDigits {high low : Nat} (hhigh : high < 16) (hlow : low < 16)
    : (byteOfDigits high low).toNat = 16 * high + low := by
  unfold byteOfDigits
  rw [UInt8.toNat_ofNat']
  omega

theorem parts_of_ofHexDigits? {digits : List Nat} {color : Color}
    (h : ofHexDigits? digits = some color) (hlength : digits.length = 6 ∨ digits.length = 8)
    (hdigits : ∀ digit ∈ digits, digit < 16)
    : [color.r.toNat, color.g.toNat, color.b.toNat] = (pairValues digits).take 3 := by
  unfold ofHexDigits? at h
  split at h
  . simp at hlength
  . simp at hlength
  . cases h
    simp only [List.forall_mem_cons] at hdigits
    rcases hdigits with ⟨hr, hr', hg, hg', hb, hb', -⟩
    simp [pairValues, solid, toNat_byteOfDigits, hr, hr', hg, hg', hb, hb']
  . cases h
    simp only [List.forall_mem_cons] at hdigits
    rcases hdigits with ⟨hr, hr', hg, hg', hb, hb', -⟩
    simp [pairValues, toNat_byteOfDigits, hr, hr', hg, hg', hb, hb']
  . cases h

theorem alpha_of_ofHexDigits? {digits : List Nat} {color : Color}
    (h : ofHexDigits? digits = some color) (hlength : digits.length = 3 ∨ digits.length = 6)
    : color.alpha = 1.0 := by
  unfold ofHexDigits? at h
  split at h
  . cases h
    rfl
  . simp at hlength
  . cases h
    rfl
  . simp at hlength
  . cases h

section Text

variable {h : String} (hlast : ∀ c ∈ h.toList.getLast?, Text.isBlank c = false)

theorem toList_doubled (s : String)
    : (doubled s).toList = s.toList.flatMap fun c => [c, c] := String.toList_ofList

theorem map_flatMap_doubled {α β : Type} (f : α → β) (as : List α)
    : (as.flatMap fun a => [a, a]).map f = (as.map f).flatMap fun b => [b, b] := by
  rw [List.map_flatMap, List.flatMap_map]
  rfl

theorem getLast?_doubled (s : String)
    : (doubled s).toList.getLast? = s.toList.getLast? := by
  rw [toList_doubled]
  rcases List.eq_nil_or_concat s.toList with hnil | ⟨cs, c, hconcat⟩
  . rw [hnil]
    rfl
  . rw [hconcat]
    simp

include hlast

theorem parse?_hash
    : parse? ("#" ++ h) = ofHex? h.toList := by
  have htrim : Text.trim ("#" ++ h).toList = '#' :: h.toList := by
    rw [String.toList_append]
    apply Text.trim_of_notBlank
    . rintro c ⟨⟩
      rfl
    . show ∀ c ∈ ('#' :: h.toList).getLast?, Text.isBlank c = false
      rw [List.getLast?_cons]
      rintro c ⟨⟩
      cases hlist : h.toList.getLast? with
      | none => rfl
      | some last => exact hlast last hlist
  unfold parse?
  rw [htrim]
  rfl

/--
A text behind `#` that white space does not end is a color if and only if it consists of three,
four, six or eight hexadecimal digits. Pairs of them are the parts of the color. A short form is the
same color as its long form, and a color is opaque where no digits are left for the alpha part.
-/
theorem parse?_hex_iff
    : ((∃ color, parse? ("#" ++ h) = some color)
          ↔ (∀ c ∈ h.toList, IsHexDigit c) ∧ h.length ∈ [3, 4, 6, 8])
      ∧ (∀ color, parse? ("#" ++ h) = some color →
          (h.length = 6 ∨ h.length = 8 →
            [color.r.toNat, color.g.toNat, color.b.toNat]
              = (pairValues (h.toList.map hexValue)).take 3)
          ∧ (h.length = 3 ∨ h.length = 6 → color.alpha = 1.0))
      ∧ (h.length = 3 ∨ h.length = 4 → parse? ("#" ++ h) = parse? ("#" ++ doubled h)) := by
  have hlength : (h.toList.map hexValue).length = h.length := by
    rw [List.length_map, String.length_toList]
  have hdoubled : ∀ c ∈ (doubled h).toList.getLast?, Text.isBlank c = false := by
    rwa [getLast?_doubled]
  rw [parse?_hash hlast, parse?_hash hdoubled]
  simp only [ofHex?_eq_some_iff]
  refine ⟨?_, ?_, ?_⟩
  . rw [exists_and_left, exists_ofHexDigits?_iff, hlength]
  . rintro color ⟨hdigits, hcolor⟩
    rw [← hlength]
    refine ⟨fun hlong => ?_, alpha_of_ofHexDigits? hcolor⟩
    apply parts_of_ofHexDigits? hcolor hlong
    intro digit hdigit
    rcases List.mem_map.1 hdigit with ⟨c, hc, rfl⟩
    exact hexValue_lt (hdigits c hc)
  . intro hshort
    rw [← hlength] at hshort
    ext color
    rw [ofHex?_eq_some_iff, ofHex?_eq_some_iff, toList_doubled, map_flatMap_doubled,
      ofHexDigits?_doubled hshort]
    simp

end Text

theorem parse?_hex_iff_mixedCase
    : ∃ color, parse? "#FF00aa88" = some color
        ∧ [color.r.toNat, color.g.toNat, color.b.toNat] = [255, 0, 170]
        ∧ parse? "#F0a8" = some color := by
  have hlong := parse?_hex_iff (h := "FF00aa88") (by simp [Text.isBlank])
  have hshort := parse?_hex_iff (h := "F0a8") (by simp [Text.isBlank])
  have hdigits : "FF00aa88".toList.all (IsHexDigit ·) = true := by
    decide
  have hall := List.all_eq_true.1 hdigits
  rcases hlong.1.2 ⟨fun c hc => of_decide_eq_true (hall c hc), by decide⟩ with ⟨color, hcolor⟩
  refine ⟨color, hcolor, ?_, ?_⟩
  . rw [(hlong.2.1 color hcolor).1 (.inr rfl)]
    rfl
  . exact (hshort.2.2 (.inr rfl)).trans hcolor

example : parse? "#é1" = none := by decide +kernel

end TreeStyle.Color
