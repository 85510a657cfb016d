import Mathlib.Data.List.Induction
import Mathlib.Data.Nat.Digits.Defs
import TreeStyle.Value.Conversion

/-!
This module contains the conversion of text into integers: which texts denote one, and what becomes
of integers of any size.
-/

namespace TreeStyle

namespace Text

theorem natOfDigits_concat (ds : List Char) (d : Char)
    : natOfDigits (ds ++ [d]) = 10 * natOfDigits ds + (d.toNat - '0'.toNat) := by
  simp [natOfDigits]

theorem natOfDigits_eq_ofDigits (ds : List Char)
    : natOfDigits ds = Nat.ofDigits 10 (ds.reverse.map fun d => d.toNat - '0'.toNat) := by
  -- The digit that is read last has the lowest place.
  induction ds using List.reverseRecOn with
  | nil => rfl
  | append_singleton ds d ih =>
    rw [natOfDigits_concat, ih, List.reverse_concat, List.map_cons, Nat.ofDigits_cons]
    apply Nat.add_comm

end Text

namespace Numeral

structure IsWhole (ds : List Char) (n : Nat) : Prop where
  ne_nil : ds ≠ []
  digits : ∀ d ∈ ds, d.isDigit = true
  value_eq : Nat.ofDigits 10 (ds.reverse.map fun d => d.toNat - '0'.toNat) = n

inductive IsInteger : (cs : List Char) → (n : Int) → Prop where
  | unsigned {ds : List Char} {n : Nat} (h : IsWhole ds n) : IsInteger ds n
  | plus {ds : List Char} {n : Nat} (h : IsWhole ds n) : IsInteger ('+' :: ds) n
  | minus {ds : List Char} {n : Nat} (h : IsWhole ds n) : IsInteger ('-' :: ds) (-n)

theorem wholeOfChars?_eq_some_iff {ds : List Char} {n : Nat}
    : wholeOfChars? ds = some n ↔ IsWhole ds n := by
  unfold wholeOfChars? isWhole
  rw [Text.natOfDigits_eq_ofDigits, Option.ite_none_right_eq_some, Option.some_inj,
    Bool.and_eq_true, Bool.not_eq_true', List.isEmpty_eq_false_iff, List.all_eq_true]
  constructor
  . intro h
    exact ⟨h.1.1, h.1.2, h.2⟩
  . intro h
    exact ⟨⟨h.ne_nil, h.digits⟩, h.value_eq⟩

theorem IsWhole.splitSign_eq {ds : List Char} {n : Nat} (h : IsWhole ds n)
    : splitSign ds = (false, ds) := by
  unfold splitSign
  split
  . cases h.digits '-' List.mem_cons_self
  . cases h.digits '+' List.mem_cons_self
  . rfl

theorem integerOfChars?_eq (cs : List Char)
    : integerOfChars? cs =
        (wholeOfChars? (splitSign cs).2).map
          fun n : Nat => if (splitSign cs).1 then -(n : Int) else n := by
  unfold integerOfChars?
  generalize splitSign cs = split
  cases hwhole : wholeOfChars? split.2 with
  | none => simp [hwhole]
  | some n => simp [hwhole]

theorem integerOfChars?_eq_some_iff {cs : List Char} {n : Int}
    : integerOfChars? cs = some n ↔ IsInteger cs n := by
  rw [integerOfChars?_eq]
  constructor
  . intro h
    rcases Option.map_eq_some_iff.1 h with ⟨m, hm, rfl⟩
    rw [wholeOfChars?_eq_some_iff] at hm
    unfold splitSign at hm ⊢
    split at hm
    . apply IsInteger.minus hm
    . apply IsInteger.plus hm
    . apply IsInteger.unsigned hm
  . intro h
    cases h with
    | unsigned h => simp [h.splitSign_eq, wholeOfChars?_eq_some_iff.2 h]
    | plus h => simp [splitSign, wholeOfChars?_eq_some_iff.2 h]
    | minus h => simp [splitSign, wholeOfChars?_eq_some_iff.2 h]

end Numeral

namespace Value

theorem toInt_ofInt_of_bounds {n : Int}
    (h : Int32.minValue.toInt ≤ n ∧ n ≤ Int32.maxValue.toInt)
    : (Int32.ofInt n).toInt = n := by
  have hmin : Int32.minValue.toInt = -2 ^ 31 := rfl
  have hmax : Int32.maxValue.toInt = 2 ^ 31 - 1 := rfl
  apply Int32.toInt_ofInt_of_le <;> omega

/--
A text that denotes an integer of 32 bits is converted into it. One of more bits is out of range, up
to 64 bits. Beyond them it is an invalid text, like those that denote no integer.
-/
theorem ofText_int (text : String)
    : (∀ n : Int, Numeral.IsInteger (Text.trim text.toList) n →
        ((-2 ^ 31 ≤ n ∧ n < 2 ^ 31) →
          ∃ i : Int32, i.toInt = n ∧ ofText text .int = .ok (.int i))
        ∧ ((-2 ^ 63 ≤ n ∧ n < -2 ^ 31 ∨ 2 ^ 31 ≤ n ∧ n < 2 ^ 63) →
          ofText text .int =
            .error (.outOfRange (String.ofList (Text.trim text.toList)) .int))
        ∧ ((n < -2 ^ 63 ∨ 2 ^ 63 ≤ n) →
          ofText text .int =
            .error (.invalidValue (String.ofList (Text.trim text.toList)) .int)))
      ∧ ((∀ n : Int, ¬ Numeral.IsInteger (Text.trim text.toList) n) →
        ofText text .int =
          .error (.invalidValue (String.ofList (Text.trim text.toList)) .int)) := by
  have hmin : Int32.minValue.toInt = -2 ^ 31 := rfl
  have hmax : Int32.maxValue.toInt = 2 ^ 31 - 1 := rfl
  have hmin64 : Int64.minValue.toInt = -2 ^ 63 := rfl
  have hmax64 : Int64.maxValue.toInt = 2 ^ 63 - 1 := rfl
  unfold ofText readTrimmed
  generalize Text.trim text.toList = cs
  dsimp only
  constructor
  . intro n hn
    rw [Numeral.integerOfChars?_eq_some_iff.2 hn]
    dsimp only
    constructor
    . intro h
      have hbounds : Int32.minValue.toInt ≤ n ∧ n ≤ Int32.maxValue.toInt := by
        omega
      rw [if_pos hbounds]
      exact ⟨_, toInt_ofInt_of_bounds hbounds, rfl⟩
    . constructor
      . intro h
        rw [if_neg (by omega), if_pos (by omega)]
      . intro h
        rw [if_neg (by omega), if_neg (by omega)]
  . intro h
    have hnone : Numeral.integerOfChars? cs = none := by
      rw [Option.eq_none_iff_forall_ne_some]
      intro n hn
      apply h n (Numeral.integerOfChars?_eq_some_iff.1 hn)
    rw [hnone]

theorem ofText_int_border
    : (∃ i : Int32, i.toInt = -2147483648 ∧ ofText " -02147483648 " .int = .ok (.int i))
      ∧ ofText "+2147483648" .int = .error (.outOfRange "+2147483648" .int)
      ∧ ofText "4.2" .int = .error (.invalidValue "4.2" .int) := by
  constructor
  . apply ((ofText_int " -02147483648 ").1 (-2147483648) ?_).1 (by decide)
    rw [← Numeral.integerOfChars?_eq_some_iff]
    decide
  . constructor
    . have htrim : String.ofList (Text.trim "+2147483648".toList) = "+2147483648" := by
        decide
      have h := ((ofText_int "+2147483648").1 2147483648 ?_).2.1 (by decide)
      . rwa [htrim] at h
      . rw [← Numeral.integerOfChars?_eq_some_iff]
        decide
    . have htrim : String.ofList (Text.trim "4.2".toList) = "4.2" := by
        decide
      have h := (ofText_int "4.2").2 ?_
      . rwa [htrim] at h
      . intro n
        rw [← Numeral.integerOfChars?_eq_some_iff]
        have hnone : Numeral.integerOfChars? (Text.trim "4.2".toList) = none := by
          decide
        rw [hnone]
        intro h
        cases h

theorem wideInteger_not_outOfRange
    : Numeral.IsInteger (Text.trim "9223372036854775808".toList) 9223372036854775808
      ∧ ofText "9223372036854775808" .int ≠ .error (.outOfRange "9223372036854775808" .int) := by
  constructor
  . rw [← Numeral.integerOfChars?_eq_some_iff]
    decide
  . have herror : ofText "9223372036854775808" .int
        = .error (.invalidValue "9223372036854775808" .int) := by
      unfold ofText readTrimmed
      rw [show Numeral.integerOfChars? (Text.trim "9223372036854775808".toList)
        = some 9223372036854775808 by decide]
      rfl
    rw [herror]
    intro h
    cases h

end Value

end TreeStyle
